import Rsrt.Basis.Machine
import Rsrt.Core.ReceiverWindow

namespace Rsrt
namespace Receiver

open Rsrt.Basis Rsrt.Basis.Intervals SeqNumber

/-!
# Whole runs of a receiver

A session is a receiver together with two things its owner can observe from the
outside: the payloads handed out so far and the unwrapped distance that the base
sequence has travelled.  The calls are the receiver's public operations, taken
in any order, with every sequence number within `2^29` of the base at the time
of the call.
-/

/-- The receiver's public operations. -/
inductive Call
  | setHsAnchor (instant : Instant) (ts : Timestamp)
  | setMaxPayload (bytes : Nat)
  | handleData (now : Instant) (pkt : DataPacket)
  | handleUndecryptable (now : Instant) (pkt : DataPacket)
  | handleAckack (now : Instant) (ackNumber : Nat) (ts : Timestamp)
  | handleDropreq (now : Instant) (msgNumber : MsgNumber) (first last : SeqNumber)
  | onTimer (now : Instant)
  | pollControl (now : Instant)
  | pollDeliver (now : Instant)
deriving DecidableEq

/-- The receiver after a call, and the payload the call hands out. -/
def call (r : Receiver) : Call -> Receiver × Option Bytes
  | .setHsAnchor instant ts => (r.setHsAnchor instant ts, none)
  | .setMaxPayload bytes => (r.setMaxPayload bytes, none)
  | .handleData now pkt => (r.handleData now pkt, none)
  | .handleUndecryptable now pkt => (r.handleUndecryptable now pkt, none)
  | .handleAckack now ackNumber ts => (r.handleAckack now ackNumber ts, none)
  | .handleDropreq now msgNumber first last => (r.handleDropreq now msgNumber first last, none)
  | .onTimer now => (r.onTimer now, none)
  | .pollControl now => ((r.pollControl now).1, none)
  | .pollDeliver now => r.pollDeliver now

/-- Within `2^29` of the base, in either direction. -/
def Within (base seq : SeqNumber) : Prop :=
  -2 ^ 29 ≤ seq.diff base ∧ seq.diff base ≤ 2 ^ 29

instance (base seq : SeqNumber) : Decidable (Within base seq) :=
  inferInstanceAs (Decidable (_ ∧ _))

/-- Every sequence number that the call carries is near the base. -/
def Near (base : SeqNumber) : Call -> Prop
  | .handleData _ pkt => Within base pkt.seq
  | .handleUndecryptable _ pkt => Within base pkt.seq
  | .handleDropreq _ _ first last => Within base first ∧ Within base last
  | _ => True

instance (base : SeqNumber) : forall call, Decidable (Near base call)
  | .handleData .. | .handleUndecryptable .. | .handleDropreq .. =>
      inferInstanceAs (Decidable (_ ∧ _))
  | .setHsAnchor .. | .setMaxPayload _ | .handleAckack .. | .onTimer _ | .pollControl _ |
    .pollDeliver _ => .isTrue trivial

structure Session where
  receiver : Receiver
  /-- Unwrapped distance from the initial sequence to the base. -/
  position : Int := 0
  /-- Payloads handed out, oldest first. -/
  delivered : List Bytes := []
deriving DecidableEq

namespace Session

def new (now : Instant) (cfg : ReceiverConfig) : Session :=
  { receiver := Receiver.new now cfg }

/-- One call.  The position moves by the signed distance that the base moves. -/
def step (s : Session) (call : Call) : Session :=
  let result := s.receiver.call call
  { receiver := result.1
    position := s.position + result.1.baseSeq.diff s.receiver.baseSeq
    delivered := s.delivered ++ result.2.toList }

/-- The unwrapped position of a sequence number, seen from the current base. -/
def unwrap (s : Session) (seq : SeqNumber) : Int :=
  s.position + seq.diff s.receiver.baseSeq

end Session

/-- All runs of a receiver. -/
def machine : Machine Session Call where
  start := fun s => Exists fun now => Exists fun cfg => s = Session.new now cfg
  guard := fun s call => Near s.receiver.baseSeq call
  next := Session.step

instance (s : Session) (call : Call) : Decidable (machine.guard s call) :=
  inferInstanceAs (Decidable (Near s.receiver.baseSeq call))

/-! ## What one call does to the window -/

/-- The window after a data packet with position `point`. -/
def arrivalWindow (r : Receiver) (w : ReceiveWindow Slot) (now : Instant) (pkt : DataPacket)
    (point : Int) (undecryptable : Bool) : ReceiveWindow Slot :=
  if r.maxPayload < pkt.payload.length then w
  else w.accept r.cfg.bufferPkts point
    (slotOf pkt (r.extender.extend pkt.timestamp now).2 undecryptable) (!undecryptable)

/-- The calls by which a data packet arrives. -/
def arrival (now : Instant) (pkt : DataPacket) (undecryptable : Bool) : Call :=
  if undecryptable then .handleUndecryptable now pkt else .handleData now pkt

/-- Everything a call can do to the window, and what it hands out. -/
inductive Moves (s : Session) (w : ReceiveWindow Slot) (c : Call) (returned : Option Bytes)
    (final : ReceiveWindow Slot) : Prop
  | arrives (now : Instant) (pkt : DataPacket) (undecryptable : Bool)
      (isCall : c = arrival now pkt undecryptable)
      (window : final = arrivalWindow s.receiver w now pkt (s.unwrap pkt.seq) undecryptable)
      (silent : returned = none)
  | drops (now : Instant) (msgNumber : MsgNumber) (first last : SeqNumber)
      (isCall : c = .handleDropreq now msgNumber first last)
      (window : final = dropWindow w msgNumber (s.unwrap first) (s.unwrap last))
      (silent : returned = none)
  | releases (now : Instant) (anchor : Anchor) (out : Option Slot)
      (isCall : c = .pollDeliver now) (anchored : s.receiver.anchor = some anchor)
      (handed : returned = out.map Slot.payload)
      (released : ReceiveWindow.Released (s.receiver.Due anchor now) Slot.undecryptable w out
        final)
  | rests (window : final = w) (silent : returned = none)

/-- The session stands for the window, and has delivered or counted as dropped
every position below it. -/
structure Session.Tracked (s : Session) (w : ReceiveWindow Slot) : Prop where
  tracks : Tracks s.receiver.cfg.initialSeq w s.receiver
  position : s.position = w.base
  conserved : (s.delivered.length : Int) + s.receiver.stats.pktsDropped = w.base

section Stepping

variable {s : Session} {w : ReceiveWindow Slot}

theorem Session.Tracked.wire_unwrap (tracked : s.Tracked w) (seq : SeqNumber) :
    wire s.receiver.cfg.initialSeq (s.unwrap seq) = seq := by
  rw [Session.unwrap, tracked.position, tracked.tracks.baseSeq]
  exact SeqNumber.wire_unwrap _ _ seq

theorem Session.Tracked.unwrap_wire (tracked : s.Tracked w) {point : Int}
    (above : w.base - 2 ^ 29 ≤ point) (below : point ≤ w.base + 2 ^ 29 + 1) :
    s.unwrap (wire s.receiver.cfg.initialSeq point) = point := by
  unfold Session.unwrap
  rw [tracked.tracks.diff_base above below, tracked.position]
  omega

theorem Session.Tracked.unwrap_near (tracked : s.Tracked w) {seq : SeqNumber}
    (within : Within s.receiver.baseSeq seq) :
    w.base - 2 ^ 29 ≤ s.unwrap seq ∧ s.unwrap seq ≤ w.base + 2 ^ 29 := by
  have position := tracked.position
  unfold Within at within
  unfold Session.unwrap
  omega

theorem call_cfg (r : Receiver) (c : Call) : (r.call c).1.cfg = r.cfg := by
  cases c with
  | setHsAnchor instant ts => exact congrArg Buffer.cfg (setHsAnchor_buffer r instant ts)
  | setMaxPayload bytes => rfl
  | handleData now pkt =>
      have same := congrArg Receiver.cfg (ingest_arrivalFrame r now pkt false)
      exact same
  | handleUndecryptable now pkt =>
      have same := congrArg Receiver.cfg (ingest_arrivalFrame r now pkt true)
      exact same
  | handleAckack now number ts => exact congrArg Buffer.cfg (handleAckack_buffer r now number ts)
  | handleDropreq now msgNumber first last =>
      have same := congrArg Receiver.cfg (handleDropreq_outside r now msgNumber first last)
      exact same
  | onTimer now => exact congrArg Buffer.cfg (onTimer_buffer r now)
  | pollControl now => exact congrArg Buffer.cfg (pollControl_buffer r now)
  | pollDeliver now =>
      have same := congrArg Receiver.cfg (pollDeliver_outside r now)
      exact same

/-- A call that hands out nothing and leaves the base alone. -/
theorem Session.Tracked.of_base_eq (tracked : s.Tracked w) {final : Receiver}
    {w' : ReceiveWindow Slot} (tracks : Tracks s.receiver.cfg.initialSeq w' final)
    (cfg : final.cfg = s.receiver.cfg) (base : w'.base = w.base)
    (dropped : final.stats.pktsDropped = s.receiver.stats.pktsDropped) :
    Session.Tracked
      { receiver := final
        position := s.position + final.baseSeq.diff s.receiver.baseSeq
        delivered := s.delivered ++ (none : Option Bytes).toList } w' where
  tracks := by
    show Tracks final.cfg.initialSeq w' final
    rw [cfg]
    exact tracks
  position := by
    have same : final.baseSeq = s.receiver.baseSeq := by
      rw [tracks.baseSeq, tracked.tracks.baseSeq, base]
    show s.position + final.baseSeq.diff s.receiver.baseSeq = w'.base
    rw [same, diff_self, Int.add_zero, base]
    exact tracked.position
  conserved := by
    simp only [Option.toList_none, List.append_nil, dropped, base]
    exact tracked.conserved

theorem Session.Tracked.of_buffer_eq (tracked : s.Tracked w) {final : Receiver}
    (same : final.buffer = s.receiver.buffer) :
    Session.Tracked
      { receiver := final
        position := s.position + final.baseSeq.diff s.receiver.baseSeq
        delivered := s.delivered ++ (none : Option Bytes).toList } w :=
  tracked.of_base_eq (tracked.tracks.of_buffer_eq same) (congrArg Buffer.cfg same) rfl
    (congrArg Buffer.pktsDropped same)

theorem accept_base (w : ReceiveWindow Slot) (capacity : Nat) (point : Int) (slot : Slot)
    (reveals : Bool) : (w.accept capacity point slot reveals).base = w.base := by
  unfold ReceiveWindow.accept
  split <;> rfl

theorem arrivalWindow_base (r : Receiver) (w : ReceiveWindow Slot) (now : Instant)
    (pkt : DataPacket) (point : Int) (undecryptable : Bool) :
    (arrivalWindow r w now pkt point undecryptable).base = w.base := by
  unfold arrivalWindow
  split
  · rfl
  · exact accept_base _ _ _ _ _

theorem dropWindow_base (w : ReceiveWindow Slot) (msgNumber : MsgNumber) (lo hi : Int) :
    (dropWindow w msgNumber lo hi).base = w.base := by
  unfold dropWindow
  split <;> rfl

theorem Session.Tracked.ingest (tracked : s.Tracked w) (now : Instant) {pkt : DataPacket}
    (within : Within s.receiver.baseSeq pkt.seq) (undecryptable : Bool) :
    Session.Tracked
      { receiver := s.receiver.ingest now pkt undecryptable
        position := s.position +
          (s.receiver.ingest now pkt undecryptable).baseSeq.diff s.receiver.baseSeq
        delivered := s.delivered ++ (none : Option Bytes).toList }
      (arrivalWindow s.receiver w now pkt (s.unwrap pkt.seq) undecryptable) := by
  have frame := ingest_arrivalFrame s.receiver now pkt undecryptable
  have cfg := congrArg Receiver.cfg frame
  have dropped := congrArg (fun other : Receiver => other.stats.pktsDropped) frame
  have tracks := tracked.tracks.ingest (tracked.wire_unwrap pkt.seq).symm
    (tracked.unwrap_near within) now undecryptable
  exact tracked.of_base_eq tracks cfg (arrivalWindow_base _ _ _ _ _ _) dropped

theorem Session.Tracked.handleDropreq (tracked : s.Tracked w) {now : Instant}
    {msgNumber : MsgNumber} {first last : SeqNumber}
    (near : Near s.receiver.baseSeq (.handleDropreq now msgNumber first last)) :
    (s.step (.handleDropreq now msgNumber first last)).Tracked
      (dropWindow w msgNumber (s.unwrap first) (s.unwrap last)) := by
  have tracks := tracked.tracks.handleDropreq (tracked.unwrap_near near.1)
    (tracked.unwrap_near near.2) now msgNumber
  rw [tracked.wire_unwrap, tracked.wire_unwrap] at tracks
  exact tracked.of_base_eq tracks (call_cfg _ (.handleDropreq now msgNumber first last))
    (dropWindow_base _ _ _ _) (handleDropreq_pktsDropped _ now msgNumber first last)

theorem Session.Tracked.pollDeliver (tracked : s.Tracked w) (now : Instant) :
    Exists fun final =>
      (s.step (.pollDeliver now)).Tracked final ∧
        Moves s w (.pollDeliver now) (s.receiver.pollDeliver now).2 final := by
  rcases tracked.tracks.pollDeliver now with ⟨out, final, release, tracks, payload, counted⟩
  have moves : Moves s w (.pollDeliver now) (s.receiver.pollDeliver now).2 final := by
    cases anchored : s.receiver.anchor with
    | none =>
        rw [anchored] at release
        refine .rests release.2 ?_
        rw [payload, release.1]
        rfl
    | some anchor =>
        rw [anchored] at release
        exact .releases now anchor out rfl anchored payload release.released
  have reached : w.base ≤ final.base ∧ final.top = w.top := by
    cases moves with
    | arrives _ _ undecryptable isCall _ _ => cases undecryptable <;> cases isCall
    | drops _ _ _ _ isCall _ _ => cases isCall
    | releases _ _ _ _ _ _ released => exact ⟨released.base_le, released.top_eq⟩
    | rests window _ =>
        rw [window]
        exact ⟨le_refl _, rfl⟩
  have cfg := call_cfg s.receiver (.pollDeliver now)
  refine ⟨final, ⟨?_, ?_, ?_⟩, moves⟩
  · show Tracks (s.receiver.pollDeliver now).1.cfg.initialSeq final _
    rw [show (s.receiver.pollDeliver now).1.cfg = s.receiver.cfg from cfg]
    exact tracks
  · show s.position + (s.receiver.pollDeliver now).1.baseSeq.diff s.receiver.baseSeq = final.base
    have span := tracked.tracks.span
    have bottom := final.base_le
    have position := tracked.position
    rw [tracks.baseSeq, tracked.tracks.baseSeq, diff_wire _ (by omega) (by omega)]
    omega
  · show ((s.delivered ++ (s.receiver.pollDeliver now).2.toList).length : Int) +
      (s.receiver.pollDeliver now).1.stats.pktsDropped = final.base
    have conserved := tracked.conserved
    rw [payload, List.length_append, Nat.cast_add]
    cases out with
    | none =>
        simp only [Option.map_none, Option.toList_none, List.length_nil] at counted ⊢
        omega
    | some slot =>
        simp only [Option.map_some, Option.toList_some, List.length_singleton] at counted ⊢
        omega

/-- Every call keeps the session on a window, and moves the window as `Moves`
says. -/
theorem Session.Tracked.step (tracked : s.Tracked w) {c : Call}
    (near : Near s.receiver.baseSeq c) :
    Exists fun final =>
      (s.step c).Tracked final ∧ Moves s w c (s.receiver.call c).2 final := by
  cases c with
  | setHsAnchor instant ts =>
      exact ⟨w, tracked.of_buffer_eq (setHsAnchor_buffer _ instant ts), .rests rfl rfl⟩
  | setMaxPayload bytes =>
      exact ⟨w, tracked.of_buffer_eq (setMaxPayload_buffer _ bytes), .rests rfl rfl⟩
  | handleData now pkt =>
      exact ⟨_, tracked.ingest now near false, .arrives now pkt false rfl rfl rfl⟩
  | handleUndecryptable now pkt =>
      exact ⟨_, tracked.ingest now near true, .arrives now pkt true rfl rfl rfl⟩
  | handleAckack now number ts =>
      exact ⟨w, tracked.of_buffer_eq (handleAckack_buffer _ now number ts), .rests rfl rfl⟩
  | handleDropreq now msgNumber first last =>
      exact ⟨_, tracked.handleDropreq near, .drops now msgNumber first last rfl rfl rfl⟩
  | onTimer now => exact ⟨w, tracked.of_buffer_eq (onTimer_buffer _ now), .rests rfl rfl⟩
  | pollControl now => exact ⟨w, tracked.of_buffer_eq (pollControl_buffer _ now), .rests rfl rfl⟩
  | pollDeliver now => exact tracked.pollDeliver now

end Stepping

theorem start_new (now : Instant) (cfg : ReceiverConfig) :
    machine.start (Session.new now cfg) :=
  ⟨now, cfg, rfl⟩

theorem start_tracked {s : Session} (initial : machine.start s) :
    s.Tracked (ReceiveWindow.start 0) := by
  rcases initial with ⟨now, cfg, rfl⟩
  exact ⟨tracks_new now cfg, rfl, rfl⟩

theorem reachable_tracked {s : Session} (reachable : machine.Reachable s) :
    Exists fun w => s.Tracked w := by
  refine reachable.invariant (fun s => Exists fun w => s.Tracked w) ?_ ?_
  · intro s initial
    exact ⟨_, start_tracked initial⟩
  · rintro s c ⟨w, tracked⟩ near
    rcases tracked.step near with ⟨final, moved, _⟩
    exact ⟨final, moved⟩

/-! ## The representation invariant -/

/-- Signed distance of a sequence from the base. -/
def offset (r : Receiver) (seq : SeqNumber) : Int := seq.diff r.baseSeq

/-- The representation invariant, in the receiver's own terms.  Sequences are
compared by their offset from the base. -/
structure WellFormed (r : Receiver) : Prop where
  slots_le : r.slots.length ≤ r.cfg.bufferPkts
  hint_le : r.scanHint ≤ r.slots.length
  hint_empty : forall index, index < r.scanHint -> slotAt r.slots index = none
  base_le : 0 ≤ r.offset r.rcvCurrSeq.next
  occupied_le : forall index : Nat, (slotAt r.slots index).isSome ->
    (index : Int) ≤ r.offset r.rcvCurrSeq
  /-- Strictly ascending, disjoint, and not even adjacent. -/
  loss_apart : r.loss.Pairwise (fun earlier later =>
    r.offset earlier.last + 1 < r.offset later.first)
  loss_inside : forall range, range ∈ r.loss ->
    0 ≤ r.offset range.first ∧ r.offset range.first ≤ r.offset range.last ∧
      r.offset range.last < r.offset r.rcvCurrSeq
  loss_vacant : forall range, range ∈ r.loss -> forall index : Nat,
    r.offset range.first ≤ index -> (index : Int) ≤ r.offset range.last ->
      slotAt r.slots index = none

theorem Tracks.offset_eq {origin : SeqNumber} {w : ReceiveWindow Slot} {r : Receiver}
    (tracks : Tracks origin w r) {point : Int} (above : w.base - 2 ^ 29 ≤ point)
    (below : point ≤ w.base + 2 ^ 29 + 1) : r.offset (wire origin point) = point - w.base :=
  tracks.diff_base above below

theorem Tracks.offset_missing {origin : SeqNumber} {w : ReceiveWindow Slot} {r : Receiver}
    (tracks : Tracks origin w r) {range : Int × Int} (member : range ∈ w.missing) :
    r.offset (wireRange origin range).first = range.1 - w.base ∧
      r.offset (wireRange origin range).last = range.2 - w.base := by
  have inside := tracks.missing_inside range member
  exact ⟨tracks.offset_eq (by omega) (by omega), tracks.offset_eq (by omega) (by omega)⟩

theorem Tracks.wellFormed {origin : SeqNumber} {w : ReceiveWindow Slot} {r : Receiver}
    (tracks : Tracks origin w r) : r.WellFormed := by
  have bottom := w.base_le
  have span := tracks.span
  have current : r.offset r.rcvCurrSeq = w.top - w.base := by
    rw [tracks.rcvCurrSeq]
    exact tracks.offset_eq (by omega) (by omega)
  refine ⟨tracks.capacity, tracks.hint, tracks.hint_empty, ?_, ?_, ?_, ?_, ?_⟩
  · rw [tracks.rcvCurrSeq, next_wire, tracks.offset_eq (by omega) (by omega)]
    omega
  · intro index occupied
    rw [tracks.held] at occupied
    rcases Option.isSome_iff_exists.mp occupied with ⟨slot, present⟩
    have bounds := w.bounded _ slot present
    omega
  · rw [tracks.loss, List.pairwise_map]
    refine w.separated.apart.imp_of_mem ?_
    intro earlier later first second gap
    rw [(tracks.offset_missing first).2, (tracks.offset_missing second).1]
    omega
  · intro range member
    rw [tracks.loss] at member
    rcases List.mem_map.mp member with ⟨positions, present, rfl⟩
    have inside := tracks.missing_inside positions present
    have below := w.inside positions.2 ⟨positions, present, inside.2.1, le_refl _⟩
    rw [(tracks.offset_missing present).1, (tracks.offset_missing present).2, current]
    omega
  · intro range member index above below
    rw [tracks.loss] at member
    rcases List.mem_map.mp member with ⟨positions, present, rfl⟩
    rw [(tracks.offset_missing present).1] at above
    rw [(tracks.offset_missing present).2] at below
    rw [tracks.held]
    exact w.vacant _ ⟨positions, present, by omega, by omega⟩

/-- Every reachable receiver is well formed, and the payloads delivered together
with the packets counted as dropped make up the unwrapped distance from the
initial sequence to the base. -/
theorem reachable_wellFormed {s : Session} (reachable : machine.Reachable s) :
    s.receiver.WellFormed ∧
      s.receiver.baseSeq = wire s.receiver.cfg.initialSeq s.position ∧
      (s.delivered.length : Int) + s.receiver.stats.pktsDropped = s.position := by
  rcases reachable_tracked reachable with ⟨w, tracked⟩
  refine ⟨tracked.tracks.wellFormed, ?_, ?_⟩
  · rw [tracked.position]
    exact tracked.tracks.baseSeq
  · rw [tracked.position]
    exact tracked.conserved

/-- Five calls across the sequence wrap: two gaps open, the first packet is
delivered, and the second gap is still awaited. -/
def wrapCalls : List Call :=
  [.handleData 0 (plainPacket (SeqNumber.new 0x7FFFFFFF) 0 [1]),
    .handleData 1000 (plainPacket (SeqNumber.new 1) 1 [2]),
    .handleData 2000 (plainPacket (SeqNumber.new 4) 2 [3]),
    .onTimer 10000000,
    .pollDeliver 10000000]

theorem reachable_wellFormed_wrapCalls :
    let s := machine.exec (Session.new 0 ⟨SeqNumber.new 0x7FFFFFFF, 1000000, 8⟩) wrapCalls
    s.delivered = [[1]] ∧ s.receiver.loss.length = 2 ∧ s.receiver.WellFormed ∧
      s.receiver.baseSeq = wire s.receiver.cfg.initialSeq s.position ∧
      (s.delivered.length : Int) + s.receiver.stats.pktsDropped = s.position :=
  ⟨by decide +kernel, by decide +kernel,
    reachable_wellFormed ⟨_, Machine.run_exec (start_new 0 _) (by decide +kernel)⟩⟩

end Receiver
end Rsrt
