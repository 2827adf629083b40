import Rsrt.Core.SenderSession
import Rsrt.Core.SenderReports

namespace Rsrt
namespace Sender

open Rsrt.Basis

/-!
# The representation of a sender

A sender keeps three indices, a buffer and a loss list, and every sequence that a
peer names is resolved against them.  Whatever the peer sends, the indices stay in
order, the loss list stays inside the flight, the flight inside the flow window
and the buffer inside its capacity, so that no access to the buffer is out of
range.
-/

section Accesses

/-- The loss entries whose buffer slot a poll looks at: neither released nor
unsent. -/
def examined (s : Sender) (now : Instant) : Nat -> Finset Nat -> List Nat
  | 0, _ => []
  | fuel + 1, losses =>
      match losses.min with
      | none => []
      | some index =>
          if index < s.baseIndex ∨ s.nextSendIndex ≤ index then
            s.examined now fuel (losses.erase index)
          else if s.passesOver now index then index :: s.examined now fuel (losses.erase index)
          else [index]

/-- Every index whose buffer slot a poll reads or writes. -/
def slotsRead (s : Sender) (now : Instant) : List Nat :=
  match s.gate now with
  | none => []
  | some due =>
      due.examined now due.lossList.card due.lossList ++
        match due.nextLoss now due.lossList.card due.lossList with
        | (some index, _) => [index]
        | (none, _) =>
            if due.nextSendIndex < due.baseIndex + due.buffer.length ∧
                due.flight < due.effectiveWindow then
              [due.nextSendIndex]
            else []

end Accesses

/-- What holds of every sender that a run reaches. -/
structure Sound (s : Sender) : Prop where
  base_eq : s.baseIndex = s.lastAckIndex
  acked_le : s.lastAckIndex ≤ s.nextSendIndex
  next_le : s.nextSendIndex ≤ s.baseIndex + s.buffer.length
  loss : forall i, i ∈ s.lossList -> s.baseIndex ≤ i ∧ i < s.nextSendIndex
  flight_le : s.flight ≤ s.cfg.flowWindow
  buffer_le : s.buffer.length ≤ max 1 s.cfg.bufferPkts
  reads : forall now index, index ∈ s.slotsRead now ->
    s.baseIndex ≤ index ∧ index - s.baseIndex < s.buffer.length
  rejects : forall now ackNumber cif err, (s.handleAck now ackNumber cif).2 = .error err ->
    (s.handleAck now ackNumber cif).1.core = s.core

/-- The bounds that the window itself does not carry. -/
structure Bounded (w : SendWindow BufEntry) (cfg : SenderConfig) : Prop where
  flight : w.next ≤ w.base + cfg.flowWindow
  buffered : w.stream.length ≤ w.base + max 1 cfg.bufferPkts

section Bounds

variable {w w' : SendWindow BufEntry} {cfg : SenderConfig} {s : Sender}

theorem Bounded.of_advanced (bounded : Bounded w cfg) (advanced : SendWindow.Advanced w w') :
    Bounded w' cfg := by
  have forward := advanced.base_le
  have flight := bounded.flight
  have buffered := bounded.buffered
  constructor
  · rw [advanced.next]
    omega
  · rw [advanced.stream]
    omega

theorem Bounded.of_rewanted (bounded : Bounded w cfg) (rewanted : SendWindow.Rewanted w w') :
    Bounded w' cfg := by
  constructor
  · rw [rewanted.next, rewanted.base]
    exact bounded.flight
  · rw [rewanted.stream, rewanted.base]
    exact bounded.buffered

/-- The capacity loop stops at an empty buffer or below the capacity. -/
theorem dropWhile_bufferFull_room (fuel : Nat) (s : Sender) (enough : s.buffer.length ≤ fuel) :
    (dropWhile bufferFull fuel s).buffer.length < max 1 s.cfg.bufferPkts := by
  induction fuel generalizing s with
  | zero =>
      change s.buffer.length < _
      omega
  | succ fuel ih =>
      unfold dropWhile
      split_ifs with continues
      · apply ih (s.dropFront 1 false)
        change (s.buffer.drop 1).length ≤ fuel
        rw [List.length_drop]
        omega
      · rw [not_and_or, not_not] at continues
        rcases continues with empty | room
        · rw [empty]
          exact lt_of_lt_of_le Nat.one_pos (Nat.le_max_left _ _)
        · have below : s.buffer.length < s.cfg.bufferPkts := by simpa [bufferFull] using room
          exact lt_of_lt_of_le below (Nat.le_max_right _ _)

/-- A submission leaves room for its own packet. -/
theorem Tracks.makeRoom_room (tracks : Tracks w s) (now : Instant) (payloadLen : Nat) :
    (s.makeRoom now payloadLen).buffer.length < max 1 s.cfg.bufferPkts := by
  have within : (s.withinCapacity now payloadLen).buffer.length < max 1 s.cfg.bufferPkts := by
    have bound := dropWhile_bufferFull_room
      ((s.feedPacer now payloadLen).checkTlpktdrop now).buffer.length _ (le_refl _)
    rw [(checkTlpktdrop_numbering (s.feedPacer now payloadLen) now).1] at bound
    exact bound
  rcases tracks.withinCapacity now payloadLen with ⟨middle, _, _, capped⟩
  rcases capped.dropWhile windowFull (s.withinCapacity now payloadLen).buffer.length with
    ⟨last, advanced, final⟩
  have before := capped.length
  have after := final.length
  have forward := advanced.base_le
  rw [advanced.stream] at after
  change (Sender.dropWhile windowFull _ _).buffer.length < _
  omega

theorem Bounded.of_emits (bounded : Bounded w s.cfg) (tracks : Tracks w s) {now : Instant}
    (final : Tracks w' (s.pollTransmitAt now).1)
    (emits : Emits s.cfg.initialSeq w w' (s.pollTransmitAt now).2) : Bounded w' s.cfg := by
  have buffered := bounded.buffered
  have flight := bounded.flight
  constructor
  · rw [emits.base_eq.1]
    rcases pollTransmitAt_window s now with same | room
    · rw [final.next, tracks.next] at same
      rw [same]
      exact flight
    · have allowed : s.flight < s.cfg.flowWindow :=
        lt_of_lt_of_le room (Nat.min_le_left _ _)
      unfold Sender.flight at allowed
      rw [tracks.next, tracks.acked] at allowed
      have step := emits.base_eq.2
      omega
  · rw [emits.stream_eq, emits.base_eq.1]
    exact buffered

end Bounds

section Reads

variable {w : SendWindow BufEntry} {s : Sender}

theorem mem_examined {now : Instant} {fuel : Nat} {losses : Finset Nat} {index : Nat}
    (member : index ∈ s.examined now fuel losses) :
    s.baseIndex ≤ index ∧ index < s.nextSendIndex := by
  induction fuel generalizing losses with
  | zero => cases member
  | succ fuel ih =>
      unfold examined at member
      split at member
      · cases member
      case h_2 least found =>
        split_ifs at member with skipped passed
        · exact ih member
        · rcases List.mem_cons.mp member with rfl | later
          · omega
          · exact ih later
        · rw [List.mem_singleton] at member
          omega

/-- A poll reads only slots that exist. -/
theorem Tracks.mem_slotsRead (tracks : Tracks w s) {now : Instant} {index : Nat}
    (member : index ∈ s.slotsRead now) :
    s.baseIndex ≤ index ∧ index - s.baseIndex < s.buffer.length := by
  unfold slotsRead at member
  cases opened : s.gate now with
  | none =>
      rw [opened] at member
      cases member
  | some due =>
      rw [opened] at member
      have core := gate_core opened
      have base : due.baseIndex = s.baseIndex := congrArg Core.baseIndex core
      have next : due.nextSendIndex = s.nextSendIndex := congrArg Core.nextSendIndex core
      have buffer : due.buffer = s.buffer := congrArg Core.buffer core
      have inside : s.nextSendIndex ≤ s.baseIndex + s.buffer.length := by
        rw [tracks.next, tracks.base, tracks.length]
        exact w.next_le
      have ordered : s.baseIndex ≤ s.nextSendIndex := by
        rw [tracks.next, tracks.base]
        exact w.base_le
      rcases List.mem_append.mp member with looked | taken
      · have bounds := mem_examined looked
        omega
      · split at taken
        case h_1 due' rest popped =>
          have bounds := nextLoss_due due now _ _ (congrArg Prod.fst popped)
          rw [List.mem_singleton.mp taken]
          omega
        · split_ifs at taken with room
          · rw [List.mem_singleton.mp taken]
            rw [base, next, buffer] at room
            omega
          · cases taken

/-- The representation invariant, read off the window. -/
theorem Tracks.sound (tracks : Tracks w s) (bounded : Bounded w s.cfg) : s.Sound where
  base_eq := tracks.base.trans tracks.acked.symm
  acked_le := by
    rw [tracks.acked, tracks.next]
    exact w.base_le
  next_le := by
    rw [tracks.next, tracks.base, tracks.length]
    exact w.next_le
  loss := by
    rw [tracks.loss, tracks.base, tracks.next]
    exact w.inside
  flight_le := by
    have flight := bounded.flight
    unfold Sender.flight
    rw [tracks.next, tracks.acked]
    omega
  buffer_le := by
    have buffered := bounded.buffered
    have length := tracks.length
    omega
  reads := fun _ _ member => tracks.mem_slotsRead member
  rejects := by
    intro now ackNumber cif err rejected
    by_cases sent : s.extOf cif.lastAckSeq ≤ s.nextSendIndex
    · rcases handleAck_ok now ackNumber sent with ⟨reply, ok⟩
      rw [ok] at rejected
      cases rejected
    · rw [handleAck_of_beyond now ackNumber (not_le.mp sent)]
      rfl

end Reads

/-! ## Whole runs -/

section Running

variable (P : Primitives)

/-- A submission that the sender takes. -/
def accepts (s : Sender) : Call -> Bool
  | .push now payload crypto => (s.push P now payload crypto).isOk
  | _ => false

/-- The number of accepted submissions of a history. -/
def accepted (history : List (Session × Call)) : Nat :=
  history.countP fun entry => entry.1.sender.accepts P entry.2

variable {P} {s : Session} {w : SendWindow BufEntry}

theorem accepts_of_error {s : Sender} {now : Instant} {payload : Bytes} {crypto : Option Crypto}
    {err : SrtError} (refused : s.push P now payload crypto = .error err) :
    s.accepts P (.push now payload crypto) = false := by
  unfold accepts
  dsimp only
  rw [refused]
  rfl

theorem accepts_of_ok {s : Sender} {now : Instant} {payload : Bytes} {crypto : Option Crypto}
    {result : Sender × Option Crypto} (pushed : s.push P now payload crypto = .ok result) :
    s.accepts P (.push now payload crypto) = true := by
  unfold accepts
  dsimp only
  rw [pushed]
  rfl

theorem step_cfg (s : Session) (c : Call) : (s.step P c).sender.cfg = s.sender.cfg := by
  cases c with
  | push now payload crypto =>
      change (s.sender.submit P now payload crypto).cfg = _
      unfold Sender.submit
      split
      case h_1 next crypto' ok =>
        rcases push_ok ok with ⟨_, flags, wirePayload, rfl, _⟩
        exact (makeRoom_numbering s.sender now payload.length).1
      · rfl
  | handleAck now ackNumber cif =>
      exact congrArg Labels.cfg (handleAck_labels s.sender now ackNumber cif)
  | handleNak now ranges => exact (handleNak_numbering s.sender now ranges).1
  | onTimer now => exact (checkTlpktdrop_numbering s.sender now).1
  | pollTransmit now => exact congrArg Labels.cfg (pollTransmitAt_labels s.sender now)
  | pollControl => rfl

/-- Every call keeps the bounds, and only an accepted submission adds to what was
submitted. -/
theorem Session.Tracked.step_bounded (tracked : s.Tracked w) (bounded : Bounded w s.sender.cfg)
    (c : Call) :
    Exists fun w' => (s.step P c).Tracked w' ∧ Bounded w' s.sender.cfg ∧
      w'.stream.length = w.stream.length + if s.sender.accepts P c then 1 else 0 := by
  rcases tracked.moves c with ⟨w', after, moves⟩
  refine ⟨w', after, ?_⟩
  cases moves with
  | refuses refused =>
      rw [accepts_of_error refused]
      exact ⟨bounded, rfl⟩
  | @submits now payload crypto crypto' flags wirePayload room pushed advanced late tracks =>
      have kept := bounded.of_advanced advanced
      have space := tracked.tracks.makeRoom_room now payload.length
      have length := tracks.length
      rw [accepts_of_ok pushed]
      refine ⟨⟨kept.flight, ?_⟩, ?_⟩
      · change (room.stream ++ [_]).length ≤ room.base + _
        rw [List.length_append, List.length_singleton]
        omega
      · change (room.stream ++ [_]).length = w.stream.length + 1
        rw [List.length_append, advanced.stream]
        rfl
  | acknowledges advanced =>
      exact ⟨bounded.of_advanced advanced, congrArg List.length advanced.stream⟩
  | requests rewanted =>
      exact ⟨bounded.of_rewanted rewanted, congrArg List.length rewanted.stream⟩
  | expires advanced late =>
      exact ⟨bounded.of_advanced advanced, congrArg List.length advanced.stream⟩
  | transmits emits =>
      exact ⟨bounded.of_emits tracked.tracks after.tracks emits,
        congrArg List.length emits.stream_eq⟩
  | reports => exact ⟨bounded, rfl⟩

/-- Against any peer the representation of the sender stays sound, and it accounts
for exactly the accepted submissions. -/
theorem run_sound {history : List (Session × Call)} (run : (machine P).Run history s) :
    s.sender.Sound ∧ s.sender.baseIndex + s.sender.buffer.length = accepted P history := by
  have holds := run.induct (fun history s => Exists fun w => s.Tracked w ∧
    Bounded w s.sender.cfg ∧ w.stream.length = accepted P history) ?_ ?_
  · rcases holds with ⟨w, tracked, bounded, counted⟩
    refine ⟨tracked.tracks.sound bounded, ?_⟩
    rw [tracked.tracks.base, tracked.tracks.length]
    exact counted
  · rintro s ⟨cfg, rfl⟩
    refine ⟨SendWindow.start, ⟨tracks_new cfg, ?_, ?_⟩, ⟨Nat.zero_le _, Nat.zero_le _⟩, rfl⟩
    · intro i _ below
      exact absurd below (Nat.not_lt_zero i)
    · intro i member
      cases member
  · rintro history s c _ ⟨w, tracked, bounded, counted⟩ _
    rcases tracked.step_bounded bounded c with ⟨w', moved, kept, grown⟩
    refine ⟨w', moved, ?_, ?_⟩
    · change Bounded w' (s.step P c).sender.cfg
      rw [step_cfg]
      exact kept
    · rw [grown, counted]
      unfold accepted
      rw [List.countP_append, List.countP_singleton]

end Running

/-- A small sender whose sequences wrap after the second packet. -/
def hostileConfig : SenderConfig :=
  { liveConfig 0x7FFFFFFE with flowWindow := 2, bufferPkts := 3 }

/-- Five submissions to a buffer of three, with a loss report and acknowledgements
of packets that were never sent. -/
def hostileCalls : List Call :=
  [.push 0 [1] none, .push 0 [2] none, .pollTransmit 0, .pollTransmit 0,
    .handleNak 0 [{ first := SeqNumber.new 0x7FFFFFFF, last := SeqNumber.new 0x7FFFFFFF }],
    .pollTransmit 0, .handleAck 0 1 { lastAckSeq := SeqNumber.new 0x7FFFFFFF },
    .push 0 [3] none, .push 0 [4] none, .push 0 [5] none, .pollTransmit 0,
    .handleAck 0 2 { lastAckSeq := SeqNumber.new 900 },
    .handleNak 0 [{ first := SeqNumber.new 4, last := SeqNumber.new 7 }]]

theorem run_sound_hostileCalls :
    let s := (machine .sample).exec ⟨Sender.new hostileConfig, []⟩ hostileCalls
    s.sender.protocolViolation ∧ s.sent = [0, 1, 1, 2] ∧ s.sender.Sound ∧
      s.sender.baseIndex + s.sender.buffer.length = 5 := by
  have allowed : (machine .sample).Allowed ⟨Sender.new hostileConfig, []⟩
      hostileCalls := by
    simp only [hostileCalls, Machine.Allowed, machine, and_true]
  have sound := run_sound (Machine.run_exec (start_new _ hostileConfig) allowed)
  exact ⟨by decide +kernel, by decide +kernel, sound.1, sound.2.trans (by decide +kernel)⟩

end Sender
end Rsrt
