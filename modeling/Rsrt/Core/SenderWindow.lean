import Rsrt.Basis.SendWindow
import Rsrt.Core.Sender

namespace Rsrt

open Rsrt.Basis SeqNumber

/-!
# The sender as a send window

A sender stands for an abstract send window: its indices are the window's
positions, its loss list the positions to be sent again, and its buffer the part
of the submitted stream that is not released, up to the stamps that
retransmissions leave.  Every operation of the sender is an operation of the
window.
-/

/-- The entry as it was submitted. -/
def BufEntry.pristine (entry : BufEntry) : BufEntry := { entry with lastRexmit := none }

namespace Sender

/-- The part of the sender that the window describes. -/
structure Core where
  cfg : SenderConfig
  buffer : List BufEntry
  baseIndex : Nat
  nextSendIndex : Nat
  lastAckIndex : Nat
  lossList : Finset Nat

def core (s : Sender) : Core where
  cfg := s.cfg
  buffer := s.buffer
  baseIndex := s.baseIndex
  nextSendIndex := s.nextSendIndex
  lastAckIndex := s.lastAckIndex
  lossList := s.lossList

/-- The sender with everything blanked that drops and submissions touch. -/
def outside (s : Sender) : Sender :=
  { s with
      buffer := []
      baseIndex := 0
      nextSendIndex := 0
      lastAckIndex := 0
      nextMsg := MsgNumber.new 1
      lossList := ∅
      controlQueue := []
      pacer := none
      stats := {} }

structure Tracks (w : SendWindow BufEntry) (s : Sender) : Prop where
  base : s.baseIndex = w.base
  acked : s.lastAckIndex = w.base
  next : s.nextSendIndex = w.next
  loss : s.lossList = w.wanted
  buffer : s.buffer.map BufEntry.pristine = w.stream.drop w.base

theorem tracks_new (cfg : SenderConfig) : Tracks SendWindow.start (new cfg) :=
  ⟨rfl, rfl, rfl, rfl, rfl⟩

theorem Tracks.of_core_eq {w : SendWindow BufEntry} {s s' : Sender} (tracks : Tracks w s)
    (same : s'.core = s.core) : Tracks w s' where
  base := (congrArg Core.baseIndex same).trans tracks.base
  acked := (congrArg Core.lastAckIndex same).trans tracks.acked
  next := (congrArg Core.nextSendIndex same).trans tracks.next
  loss := (congrArg Core.lossList same).trans tracks.loss
  buffer := by
    have buffers := congrArg Core.buffer same
    change s'.buffer = s.buffer at buffers
    rw [buffers]
    exact tracks.buffer

/-! ## Indices on the wire -/

theorem seqAt_eq (s : Sender) (index : Nat) : s.seqAt index = wire s.cfg.initialSeq index :=
  new_eq_wire s.cfg.initialSeq index

/-- Positions within `2^30` of the base are recovered exactly. -/
theorem extOf_wire (s : Sender) {position : Int} (above : -2 ^ 30 ≤ position - s.baseIndex)
    (below : position - s.baseIndex < 2 ^ 30) :
    s.extOf (wire s.cfg.initialSeq position) = position := by
  unfold extOf
  rw [seqAt_eq, diff_wire _ above below]
  omega

/-- The indices that the wire sequences around the base stand for. -/
def Nearby (s : Sender) (index : Nat) : Prop :=
  (s.baseIndex : Int) - 2 ^ 30 ≤ index ∧ (index : Int) < s.baseIndex + 2 ^ 30

/-- Indices around the base go to the wire and come back: the 64-bit sum does not overflow,
the index is recovered, and successors and distances are kept. -/
theorem unwraps_exactly (s : Sender) (bounded : s.baseIndex < 2 ^ 62) :
    (forall index : Nat, s.Nearby index ->
      s.cfg.initialSeq.value + index < 2 ^ 64 ∧ s.extOf (s.seqAt index) = index ∧
        s.seqAt (index + 1) = (s.seqAt index).next) ∧
      forall left right : Nat, s.Nearby left -> s.Nearby right ->
        ((left : Int) - right).natAbs < 2 ^ 30 ->
        (s.seqAt left).diff (s.seqAt right) = (left : Int) - right := by
  constructor
  · intro index near
    rcases near with ⟨above, below⟩
    have initial := s.cfg.initialSeq.value_lt
    refine ⟨by omega, ?_, ?_⟩
    · rw [seqAt_eq]
      exact s.extOf_wire (by omega) (by omega)
    · rw [seqAt_eq, seqAt_eq, next_wire, Nat.cast_add, Nat.cast_one]
  · intro left right _ _ short
    rw [seqAt_eq, seqAt_eq]
    exact diff_wire _ (by omega) (by omega)

/-- The default sizes of a live connection. -/
def liveConfig (initialSeq : Nat) : SenderConfig where
  initialSeq := SeqNumber.new initialSeq
  flowWindow := 8192
  sndLatency := Duration.fromMillis 120
  maxPayload := 1456
  bufferPkts := 8192
  timebase := ⟨0⟩

/-- A sender far into its stream, with the last sequence before the wrap as its first. -/
def lateSender : Sender := { Sender.new (liveConfig 0x7FFFFFFF) with baseIndex := 2 ^ 61 }

theorem unwraps_exactly_lateSender :
    (2 ^ 61 - 2 ^ 30 : Int) = lateSender.extOf (lateSender.seqAt (2 ^ 61 - 2 ^ 30)) ∧
      lateSender.seqAt (2 ^ 61 + 2 ^ 30) = (lateSender.seqAt (2 ^ 61 + 2 ^ 30 - 1)).next ∧
      (lateSender.seqAt (2 ^ 61 + 2 ^ 30 - 1)).diff (lateSender.seqAt (2 ^ 61)) = 2 ^ 30 - 1 := by
  have base : lateSender.baseIndex = 2 ^ 61 := rfl
  have first : lateSender.Nearby (2 ^ 61 - 2 ^ 30) := by
    constructor <;> rw [base] <;> omega
  have middle : lateSender.Nearby (2 ^ 61) := by
    constructor <;> rw [base] <;> omega
  have last : lateSender.Nearby (2 ^ 61 + 2 ^ 30 - 1) := by
    constructor <;> rw [base] <;> omega
  rcases lateSender.unwraps_exactly (by rw [base]; decide) with ⟨indices, distances⟩
  exact ⟨(indices _ first).2.1.symm, (indices _ last).2.2, distances _ _ last middle (by decide)⟩

section Operations

variable {w : SendWindow BufEntry} {s : Sender}

theorem Tracks.length (tracks : Tracks w s) :
    w.base + s.buffer.length = w.stream.length := by
  have lengths := congrArg List.length tracks.buffer
  rw [List.length_map, List.length_drop] at lengths
  have lower := w.base_le
  have upper := w.next_le
  omega

theorem Tracks.entry (tracks : Tracks w s) {index : Nat} (above : w.base ≤ index) :
    (s.buffer[index - s.baseIndex]?).map BufEntry.pristine = w.stream[index]? := by
  rw [← List.getElem?_map, tracks.buffer, tracks.base, List.getElem?_drop]
  congr 1
  omega

theorem Tracks.packetAt (tracks : Tracks w s) {index : Nat} (above : w.base ≤ index)
    (retransmitted : Bool) :
    s.packetAt index retransmitted =
      w.stream[index]?.map fun entry => entry.packet (s.seqAt index) retransmitted := by
  rw [← tracks.entry above, Option.map_map]
  rfl

/-! ## Drops and submissions -/

theorem dropFront_outside (s : Sender) (n : Nat) (announce : Bool) :
    (s.dropFront n announce).outside = s.outside :=
  rfl

theorem Tracks.dropFront (tracks : Tracks w s) {n : Nat} (enough : n ≤ s.buffer.length)
    (announce : Bool) :
    Exists fun w' => SendWindow.Advanced w w' ∧ w'.base = w.base + n ∧
      Tracks w' (s.dropFront n announce) := by
  have length := tracks.length
  have bound : w.base + n ≤ w.stream.length := by omega
  refine ⟨w.advance (w.base + n) bound, w.advanced_advance (Nat.le_add_right _ _) bound, rfl, ?_⟩
  constructor
  · exact congrArg (· + n) tracks.base
  · change max s.lastAckIndex (s.baseIndex + n) = w.base + n
    rw [tracks.acked, tracks.base]
    exact Nat.max_eq_right (Nat.le_add_right _ _)
  · change max s.nextSendIndex (s.baseIndex + n) = max w.next (w.base + n)
    rw [tracks.next, tracks.base]
  · change s.lossList.filter (s.baseIndex + n ≤ ·) = w.wanted.filter (w.base + n ≤ ·)
    rw [tracks.loss, tracks.base]
  · change (s.buffer.drop n).map BufEntry.pristine = w.stream.drop (w.base + n)
    rw [List.map_drop, tracks.buffer, List.drop_drop]

theorem tlpktdropCount_le (s : Sender) (now : Instant) :
    s.tlpktdropCount now ≤ s.buffer.length := by
  unfold tlpktdropCount
  split
  · split_ifs
    · exact Nat.zero_le _
    · exact (List.takeWhile_sublist _).length_le
  · exact Nat.zero_le _

theorem checkTlpktdrop_outside (s : Sender) (now : Instant) :
    (s.checkTlpktdrop now).outside = s.outside := by
  unfold checkTlpktdrop
  split_ifs
  · exact dropFront_outside _ _ _
  · rfl

theorem Tracks.checkTlpktdrop (tracks : Tracks w s) (now : Instant) :
    Exists fun w' => SendWindow.Advanced w w' ∧ w'.base = w.base + s.tlpktdropCount now ∧
      Tracks w' (s.checkTlpktdrop now) := by
  unfold Sender.checkTlpktdrop
  by_cases some : 0 < s.tlpktdropCount now
  · simp only [if_pos some]
    exact tracks.dropFront (tlpktdropCount_le s now) true
  · simp only [if_neg some]
    exact ⟨w, .refl w, by omega, tracks⟩

/-- What a drop keeps is kept by the loop. -/
theorem dropWhile_keeps (Keeps : Sender -> Prop)
    (dropped : forall s, Keeps s -> Keeps (dropFront s 1 false)) (full : Sender -> Bool)
    (fuel : Nat) {s : Sender} (keeps : Keeps s) : Keeps (dropWhile full fuel s) := by
  induction fuel generalizing s with
  | zero => exact keeps
  | succ fuel ih =>
      unfold dropWhile
      split_ifs
      · exact ih (dropped s keeps)
      · exact keeps

theorem dropWhile_outside (full : Sender -> Bool) (fuel : Nat) (s : Sender) :
    (dropWhile full fuel s).outside = s.outside :=
  dropWhile_keeps (outside · = s.outside) (fun _ same => (dropFront_outside _ _ _).trans same) full
    fuel rfl

theorem Tracks.dropWhile (tracks : Tracks w s) (full : Sender -> Bool) (fuel : Nat) :
    Exists fun w' => SendWindow.Advanced w w' ∧ Tracks w' (Sender.dropWhile full fuel s) := by
  induction fuel generalizing w s with
  | zero => exact ⟨w, .refl w, tracks⟩
  | succ fuel ih =>
      unfold Sender.dropWhile
      split_ifs with continues
      · have enough : 1 ≤ s.buffer.length := List.length_pos_iff.mpr continues.1
        rcases tracks.dropFront enough false with ⟨middle, first, _, dropped⟩
        rcases ih dropped with ⟨w', rest, final⟩
        exact ⟨w', first.trans rest, final⟩
      · exact ⟨w, .refl w, tracks⟩

theorem withinCapacity_outside (s : Sender) (now : Instant) (payloadLen : Nat) :
    (s.withinCapacity now payloadLen).outside = s.outside := by
  unfold withinCapacity
  rw [dropWhile_outside, checkTlpktdrop_outside]
  rfl

theorem Tracks.withinCapacity (tracks : Tracks w s) (now : Instant) (payloadLen : Nat) :
    Exists fun w' => SendWindow.Advanced w w' ∧ w.base + s.tlpktdropCount now ≤ w'.base ∧
      Tracks w' (s.withinCapacity now payloadLen) := by
  have fed : Tracks w (s.feedPacer now payloadLen) := tracks.of_core_eq rfl
  rcases fed.checkTlpktdrop now with ⟨middle, first, late, timely⟩
  rcases timely.dropWhile bufferFull
    ((s.feedPacer now payloadLen).checkTlpktdrop now).buffer.length with ⟨w', rest, final⟩
  exact ⟨w', first.trans rest, late ▸ rest.base_le, final⟩

theorem makeRoom_outside (s : Sender) (now : Instant) (payloadLen : Nat) :
    (s.makeRoom now payloadLen).outside = s.outside := by
  unfold makeRoom
  rw [dropWhile_outside, withinCapacity_outside]

theorem Tracks.makeRoom (tracks : Tracks w s) (now : Instant) (payloadLen : Nat) :
    Exists fun w' => SendWindow.Advanced w w' ∧ w.base + s.tlpktdropCount now ≤ w'.base ∧
      Tracks w' (s.makeRoom now payloadLen) := by
  rcases tracks.withinCapacity now payloadLen with ⟨middle, first, late, within⟩
  rcases within.dropWhile windowFull (s.withinCapacity now payloadLen).buffer.length with
    ⟨w', rest, final⟩
  exact ⟨w', first.trans rest, le_trans late rest.base_le, final⟩

/-- The entry that a submission adds. -/
def submitted (s : Sender) (now : Instant) (encryption : EncryptionFlags) (payload : Bytes) :
    BufEntry where
  msg := s.nextMsg
  origin := now
  ts := s.cfg.timebase.timestamp now
  encryption := encryption
  payload := payload

theorem Tracks.append (tracks : Tracks w s) (now : Instant) (encryption : EncryptionFlags)
    (payload : Bytes) :
    Tracks (w.submit (s.submitted now encryption payload)) (s.append now encryption payload) where
  base := tracks.base
  acked := tracks.acked
  next := tracks.next
  loss := tracks.loss
  buffer := by
    have start : w.base ≤ w.stream.length := le_trans w.base_le w.next_le
    change (s.buffer ++ [s.submitted now encryption payload]).map BufEntry.pristine =
      (w.stream ++ [s.submitted now encryption payload]).drop w.base
    rw [List.map_append, tracks.buffer, List.drop_append_of_le_length start]
    rfl

/-! ## Acknowledgements and loss reports -/

/-- An accepted acknowledgement moves the base to the acknowledged position, if
that is ahead. -/
theorem Tracks.release (tracks : Tracks w s) {ackExt : Int} (sent : ackExt ≤ w.next) :
    Exists fun w' => SendWindow.Advanced w w' ∧ w'.base = max w.base ackExt.toNat ∧
      (s.release ackExt).baseIndex = w'.base ∧ (s.release ackExt).lastAckIndex = w.base ∧
      (s.release ackExt).nextSendIndex = w'.next ∧ (s.release ackExt).lossList = w'.wanted ∧
      (s.release ackExt).buffer.map BufEntry.pristine = w'.stream.drop w'.base := by
  have length := tracks.length
  have upper := w.next_le
  unfold Sender.release
  rw [tracks.base]
  by_cases ahead : (w.base : Int) < ackExt
  · have bound : ackExt.toNat ≤ w.stream.length := by omega
    have count : min (ackExt - w.base).toNat s.buffer.length = ackExt.toNat - w.base := by omega
    have target : w.base + (ackExt.toNat - w.base) = ackExt.toNat := by omega
    have farther : w.base ≤ ackExt.toNat := by omega
    refine ⟨w.advance ackExt.toNat bound, w.advanced_advance farther bound,
      (Nat.max_eq_right farther).symm, ?_⟩
    simp only [if_pos ahead, count, target]
    refine ⟨rfl, tracks.acked, ?_, ?_, ?_⟩
    · change s.nextSendIndex = max w.next ackExt.toNat
      rw [tracks.next]
      omega
    · change s.lossList.filter (ackExt.toNat ≤ ·) = w.wanted.filter (ackExt.toNat ≤ ·)
      rw [tracks.loss]
    · change (s.buffer.drop (ackExt.toNat - w.base)).map BufEntry.pristine =
        w.stream.drop ackExt.toNat
      rw [List.map_drop, tracks.buffer, List.drop_drop, target]
  · simp only [if_neg ahead]
    refine ⟨w, .refl w, by omega, tracks.base, tracks.acked, tracks.next, tracks.loss,
      tracks.buffer⟩

theorem refreshPacer_core (s : Sender) : s.refreshPacer.core = s.core :=
  rfl

theorem adoptRtt_core (s : Sender) (cif : AckCif) : (s.adoptRtt cif).core = s.core := by
  unfold adoptRtt
  split
  · split_ifs <;> rfl
  · rfl

theorem replyAckack_core (s : Sender) (now : Instant) (ackNumber : Nat) :
    (s.replyAckack now ackNumber).1.core = s.core := by
  unfold replyAckack
  split_ifs <;> rfl

theorem consumeCredit_core (s : Sender) (ackExt : Int) :
    (s.consumeCredit ackExt).core =
      { s.core with lastAckIndex := max s.lastAckIndex ackExt.toNat } := by
  unfold consumeCredit
  split_ifs with ahead
  · have last : ackExt.toNat = max s.lastAckIndex ackExt.toNat := by omega
    rw [← last]
    rfl
  · have last : s.lastAckIndex = max s.lastAckIndex ackExt.toNat := by omega
    rw [← last]
    rfl

theorem adoptWindow_core (s : Sender) (ackExt : Int) (avail : Option Nat) :
    (s.adoptWindow ackExt avail).core =
      { s.core with lastAckIndex := max s.lastAckIndex ackExt.toNat } := by
  unfold adoptWindow
  split_ifs with ahead
  · have last : ackExt.toNat = max s.lastAckIndex ackExt.toNat := by omega
    rw [← last]
    rfl
  · have last : s.lastAckIndex = max s.lastAckIndex ackExt.toNat := by omega
    rw [← last]
    rfl

theorem handleAck_of_beyond {s : Sender} (now : Instant) (ackNumber : Nat) {cif : AckCif}
    (beyond : (s.nextSendIndex : Int) < s.extOf cif.lastAckSeq) :
    s.handleAck now ackNumber cif =
      ({ s with protocolViolation := true }, .error (.closed .locally)) := by
  unfold handleAck
  simp only [if_pos beyond]

theorem handleAck_core {s : Sender} (now : Instant) (ackNumber : Nat) {cif : AckCif}
    (sent : s.extOf cif.lastAckSeq ≤ s.nextSendIndex) :
    (s.handleAck now ackNumber cif).1.core =
      { (s.release (s.extOf cif.lastAckSeq)).core with
        lastAckIndex := max (s.release (s.extOf cif.lastAckSeq)).lastAckIndex
          (s.extOf cif.lastAckSeq).toNat } := by
  unfold handleAck
  simp only [if_neg (not_lt.mpr sent)]
  split_ifs
  · exact consumeCredit_core _ _
  · have before : ((((s.release (s.extOf cif.lastAckSeq)).adoptRtt cif).replyAckack now
        ackNumber).1).core = (s.release (s.extOf cif.lastAckSeq)).core :=
      (replyAckack_core _ _ _).trans (adoptRtt_core _ _)
    have last := congrArg Core.lastAckIndex before
    change (((s.release (s.extOf cif.lastAckSeq)).adoptRtt cif).replyAckack now
      ackNumber).1.lastAckIndex = (s.release (s.extOf cif.lastAckSeq)).lastAckIndex at last
    rw [refreshPacer_core, adoptWindow_core, before, last]

theorem Tracks.handleAck (tracks : Tracks w s) (now : Instant) (ackNumber : Nat) {cif : AckCif}
    (sent : s.extOf cif.lastAckSeq ≤ w.next) :
    Exists fun w' => SendWindow.Advanced w w' ∧
      w'.base = max w.base (s.extOf cif.lastAckSeq).toNat ∧
      Tracks w' (s.handleAck now ackNumber cif).1 := by
  have core := @handleAck_core s now ackNumber cif (tracks.next ▸ sent)
  rcases tracks.release sent with ⟨w', advanced, reached, base, acked, next, loss, buffer⟩
  refine ⟨w', advanced, reached, (congrArg Core.baseIndex core).trans base, ?_,
    (congrArg Core.nextSendIndex core).trans next, (congrArg Core.lossList core).trans loss, ?_⟩
  · have last := congrArg Core.lastAckIndex core
    rw [acked, ← reached] at last
    exact last
  · have buffers := congrArg Core.buffer core
    change (s.handleAck now ackNumber cif).1.buffer = (s.release _).buffer at buffers
    rw [buffers]
    exact buffer

/-- An acknowledgement of what was never sent is refused and releases nothing. -/
theorem Tracks.acknowledge (tracks : Tracks w s) (now : Instant) (ackNumber : Nat) (cif : AckCif) :
    Exists fun w' => SendWindow.Advanced w w' ∧ Tracks w' (s.handleAck now ackNumber cif).1 := by
  by_cases sent : s.extOf cif.lastAckSeq ≤ w.next
  · rcases tracks.handleAck now ackNumber sent with ⟨w', advanced, _, tracks'⟩
    exact ⟨w', advanced, tracks'⟩
  · have beyond : (s.nextSendIndex : Int) < s.extOf cif.lastAckSeq := by
      rw [tracks.next]
      exact not_le.mp sent
    refine ⟨w, .refl w, ?_⟩
    rw [handleAck_of_beyond now ackNumber beyond]
    exact tracks.of_core_eq rfl

/-- Any set of positions that were sent and are not released can be awaiting
retransmission. -/
theorem Tracks.setLoss (tracks : Tracks w s) {losses : Finset Nat}
    (inside : forall i, i ∈ losses -> w.base ≤ i ∧ i < w.next) :
    Exists fun w' => SendWindow.Rewanted w w' ∧ Tracks w' { s with lossList := losses } :=
  ⟨w.want losses inside, w.rewanted_want losses inside, tracks.base, tracks.acked, tracks.next, rfl,
    tracks.buffer⟩

theorem Tracks.nakRange (tracks : Tracks w s) {range : LossRange} {next : Sender}
    (accepted : s.nakRange range = some next) :
    Exists fun w' => SendWindow.Rewanted w w' ∧ Tracks w' next := by
  have acked := tracks.acked
  have limit := tracks.next
  have old : forall i, i ∈ s.lossList -> w.base ≤ i ∧ i < w.next := by
    rw [tracks.loss]
    exact w.inside
  unfold Sender.nakRange at accepted
  simp only at accepted
  split_ifs at accepted with foreign whole clipped many
  -- A whole range and a clipped one add an interval between the base and the next position.
  iterate 2
    · cases accepted
      apply tracks.setLoss
      intro i member
      rcases Finset.mem_union.mp member with present | new
      · exact old i present
      · rw [Finset.mem_Icc] at new
        omega
  · cases accepted
    exact ⟨w, .refl w, tracks.of_core_eq rfl⟩
  · cases accepted
    exact ⟨w, .refl w, tracks⟩

theorem Tracks.handleNak (tracks : Tracks w s) (now : Instant) (ranges : List LossRange) :
    Exists fun w' => SendWindow.Rewanted w w' ∧ Tracks w' (s.handleNak now ranges) := by
  unfold Sender.handleNak
  induction ranges generalizing w s with
  | nil => exact ⟨w, .refl w, tracks.of_core_eq rfl⟩
  | cons range rest ih =>
      unfold Sender.nakRanges
      cases accepted : s.nakRange range with
      | none => exact ⟨w, .refl w, tracks.of_core_eq rfl⟩
      | some next =>
          rcases tracks.nakRange accepted with ⟨middle, first, moved⟩
          rcases ih moved with ⟨w', second, final⟩
          exact ⟨w', first.trans second, final⟩

theorem Tracks.onTimer (tracks : Tracks w s) (now : Instant) :
    Exists fun w' => SendWindow.Advanced w w' ∧ w'.base = w.base + s.tlpktdropCount now ∧
      Tracks w' (s.onTimer now) := by
  rcases tracks.checkTlpktdrop now with ⟨w', advanced, base, dropped⟩
  exact ⟨w', advanced, base, dropped.of_core_eq (refreshPacer_core _)⟩

/-! ## Transmission -/

theorem nextLoss_subset (s : Sender) (now : Instant) (fuel : Nat) (losses : Finset Nat) :
    (s.nextLoss now fuel losses).2 ⊆ losses := by
  induction fuel generalizing losses with
  | zero => exact Finset.Subset.refl _
  | succ fuel ih =>
      unfold nextLoss
      split
      · exact Finset.Subset.refl _
      · split_ifs
        · exact (ih _).trans (Finset.erase_subset _ _)
        · exact Finset.erase_subset _ _

/-- An entry that a poll takes from the loss list was on it and is buffered and
sent. -/
theorem nextLoss_due (s : Sender) (now : Instant) (fuel : Nat) (losses : Finset Nat) {index : Nat}
    (taken : (s.nextLoss now fuel losses).1 = some index) :
    index ∈ losses ∧ s.baseIndex ≤ index ∧ index < s.nextSendIndex := by
  induction fuel generalizing losses with
  | zero => cases taken
  | succ fuel ih =>
      unfold nextLoss at taken
      split at taken
      · cases taken
      case h_2 least found =>
        split_ifs at taken with passed
        · rcases ih _ taken with ⟨member, bounds⟩
          exact ⟨Finset.mem_of_mem_erase member, bounds⟩
        · cases taken
          simp only [passesOver, Bool.or_eq_true, decide_eq_true_eq, not_or, not_lt, not_le]
            at passed
          exact ⟨Finset.mem_of_min found, passed.1⟩

theorem booked_core (s : Sender) (now : Instant) (pkt : DataPacket) (probe : Bool) :
    (s.booked now pkt probe).core = s.core :=
  rfl

/-- What a poll of the transmit path does to the window, and what it emits. -/
inductive Emits (initialSeq : SeqNumber) (w w' : SendWindow BufEntry) :
    Option (Nat × DataPacket) -> Prop
  | nothing (rewanted : SendWindow.Rewanted w w') : Emits initialSeq w w' none
  | again (index : Nat) (entry : BufEntry) (rewanted : SendWindow.Rewanted w w')
      (inFlight : w.base ≤ index ∧ index < w.next) (buffered : w.stream[index]? = some entry) :
      Emits initialSeq w w' (some (index, entry.packet (wire initialSeq index) true))
  | first (entry : BufEntry) (stream : w'.stream = w.stream) (base : w'.base = w.base)
      (next : w'.next = w.next + 1) (buffered : w.stream[w.next]? = some entry) :
      Emits initialSeq w w' (some (w.next, entry.packet (wire initialSeq w.next) false))

theorem Emits.later {initialSeq : SeqNumber} {w w' : SendWindow BufEntry}
    {emitted : Option (Nat × DataPacket)} (emits : Emits initialSeq w w' emitted) :
    SendWindow.Later w w' := by
  cases emits with
  | nothing rewanted => exact rewanted.later
  | again _ _ rewanted => exact rewanted.later
  | first _ stream base next =>
      exact ⟨base.ge, by omega, by rw [stream]⟩

theorem Emits.stream_eq {initialSeq : SeqNumber} {w w' : SendWindow BufEntry}
    {emitted : Option (Nat × DataPacket)} (emits : Emits initialSeq w w' emitted) :
    w'.stream = w.stream := by
  cases emits with
  | nothing rewanted => exact rewanted.stream
  | again _ _ rewanted => exact rewanted.stream
  | first _ stream => exact stream

theorem Emits.base_eq {initialSeq : SeqNumber} {w w' : SendWindow BufEntry}
    {emitted : Option (Nat × DataPacket)} (emits : Emits initialSeq w w' emitted) :
    w'.base = w.base ∧ w'.next ≤ w.next + 1 := by
  cases emits with
  | nothing rewanted => exact ⟨rewanted.base, rewanted.next ▸ Nat.le_succ _⟩
  | again _ _ rewanted => exact ⟨rewanted.base, rewanted.next ▸ Nat.le_succ _⟩
  | first _ _ base next => exact ⟨base, next.le⟩

theorem Tracks.retransmit (tracks : Tracks w s) (now : Instant) {index : Nat}
    (inFlight : w.base ≤ index ∧ index < w.next) :
    Tracks w (s.retransmit now index).1 ∧
      Emits s.cfg.initialSeq w w (s.retransmit now index).2 := by
  let stamped : Sender := { s with
    buffer := s.buffer.modify (index - s.baseIndex) fun entry =>
      { entry with lastRexmit := some now } }
  have stampedTracks : Tracks w stamped := by
    refine ⟨tracks.base, tracks.acked, tracks.next, tracks.loss, ?_⟩
    change (s.buffer.modify _ _).map BufEntry.pristine = w.stream.drop w.base
    rw [← tracks.buffer]
    apply List.ext_getElem?
    intro i
    rw [List.getElem?_map, List.getElem?_map, List.getElem?_modify, Option.map_eq_map,
      Option.map_map]
    apply congrFun
    apply congrArg
    funext entry
    simp only [Function.comp_apply]
    split_ifs <;> rfl
  have bound : index < w.stream.length := Nat.lt_of_lt_of_le inFlight.2 w.next_le
  have buffered : w.stream[index]? = some w.stream[index] := List.getElem?_eq_getElem bound
  have packet := stampedTracks.packetAt inFlight.1 true
  rw [buffered, Option.map_some, seqAt_eq] at packet
  have result : s.retransmit now index =
      (stamped.booked now (w.stream[index].packet (wire s.cfg.initialSeq index) true) false,
        some (index, w.stream[index].packet (wire s.cfg.initialSeq index) true)) := by
    unfold Sender.retransmit
    dsimp only
    rw [packet]
  rw [result]
  exact ⟨stampedTracks.of_core_eq (booked_core _ _ _ _), .again _ _ (.refl w) inFlight buffered⟩

theorem Tracks.transmit (tracks : Tracks w s) (now : Instant) (more : w.next < w.stream.length) :
    Exists fun w' => Tracks w' (s.transmit now).1 ∧
      Emits s.cfg.initialSeq w w' (s.transmit now).2 := by
  let sent : Sender := { s with nextSendIndex := s.nextSendIndex + 1 }
  have sentTracks : Tracks (w.send more) sent :=
    ⟨tracks.base, tracks.acked, congrArg (· + 1) tracks.next, tracks.loss, tracks.buffer⟩
  have buffered : w.stream[w.next]? = some w.stream[w.next] := List.getElem?_eq_getElem more
  generalize w.stream[w.next] = entry at buffered
  have packet : sent.packetAt s.nextSendIndex false =
      some (entry.packet (wire s.cfg.initialSeq s.nextSendIndex) false) := by
    rw [tracks.next, sentTracks.packetAt w.base_le false]
    change w.stream[w.next]?.map _ = _
    rw [buffered, seqAt_eq]
    rfl
  have result : s.transmit now =
      (sent.booked now (entry.packet (wire s.cfg.initialSeq s.nextSendIndex) false)
          ((entry.packet (wire s.cfg.initialSeq s.nextSendIndex) false).seq.value % 16 = 0 :),
        some (s.nextSendIndex, entry.packet (wire s.cfg.initialSeq s.nextSendIndex) false)) := by
    unfold Sender.transmit
    dsimp only
    rw [packet]
  rw [result]
  refine ⟨w.send more, sentTracks.of_core_eq (booked_core _ _ _ _), ?_⟩
  rw [tracks.next]
  exact .first entry rfl rfl rfl buffered

/-- The gate moves the pacer only. -/
theorem gate_eq {s due : Sender} {now : Instant} (opened : s.gate now = some due) :
    Exists fun pacer => due = { s with pacer } := by
  unfold gate at opened
  split at opened
  · cases opened
    exact ⟨_, rfl⟩
  · rcases Option.map_eq_some_iff.mp opened with ⟨p, _, rfl⟩
    exact ⟨_, rfl⟩

theorem gate_core {s due : Sender} {now : Instant} (opened : s.gate now = some due) :
    due.core = s.core := by
  rcases gate_eq opened with ⟨pacer, rfl⟩
  rfl

theorem Emits.of_rewanted {initialSeq : SeqNumber} {w middle w' : SendWindow BufEntry}
    {emitted : Option (Nat × DataPacket)} (rewanted : SendWindow.Rewanted w middle)
    (emits : Emits initialSeq middle w' emitted) : Emits initialSeq w w' emitted := by
  cases emits with
  | nothing rest => exact .nothing (rewanted.trans rest)
  | again index entry rest inFlight buffered =>
      rw [rewanted.stream] at buffered
      rw [rewanted.base, rewanted.next] at inFlight
      exact .again index entry (rewanted.trans rest) inFlight buffered
  | first entry stream base next buffered =>
      rw [rewanted.stream] at stream buffered
      rw [rewanted.base] at base
      rw [rewanted.next] at next buffered ⊢
      exact .first entry stream base next buffered

theorem Tracks.transmitNew (tracks : Tracks w s) (now : Instant) :
    Exists fun w' => Tracks w' (s.transmitNew now).1 ∧
      Emits s.cfg.initialSeq w w' (s.transmitNew now).2 := by
  unfold Sender.transmitNew
  split_ifs with room
  · apply tracks.transmit
    rw [← tracks.length, ← tracks.next, ← tracks.base]
    exact room.1
  · exact ⟨w, tracks.of_core_eq rfl, .nothing (.refl w)⟩

theorem Tracks.pollDue (tracks : Tracks w s) (now : Instant) :
    Exists fun w' => Tracks w' (s.pollDue now).1 ∧
      Emits s.cfg.initialSeq w w' (s.pollDue now).2 := by
  have kept : forall i,
      i ∈ (s.nextLoss now s.lossList.card s.lossList).2 -> w.base ≤ i ∧ i < w.next := by
    intro i member
    apply w.inside
    rw [← tracks.loss]
    exact nextLoss_subset s now _ _ member
  rcases tracks.setLoss kept with ⟨middle, rewanted, idle⟩
  unfold Sender.pollDue
  rcases popped : s.nextLoss now s.lossList.card s.lossList with ⟨taken, rest⟩
  rw [popped] at idle
  cases taken with
  | some index =>
      have inFlight := (nextLoss_due s now _ _ (congrArg Prod.fst popped)).2
      rw [tracks.base, tracks.next, ← rewanted.base, ← rewanted.next] at inFlight
      rcases idle.retransmit now inFlight with ⟨final, emits⟩
      exact ⟨middle, final, emits.of_rewanted rewanted⟩
  | none =>
      rcases idle.transmitNew now with ⟨w', final, emits⟩
      exact ⟨w', final, emits.of_rewanted rewanted⟩

theorem Tracks.pollTransmitAt (tracks : Tracks w s) (now : Instant) :
    Exists fun w' => Tracks w' (s.pollTransmitAt now).1 ∧
      Emits s.cfg.initialSeq w w' (s.pollTransmitAt now).2 := by
  unfold Sender.pollTransmitAt
  cases opened : s.gate now with
  | none => exact ⟨w, tracks, .nothing (.refl w)⟩
  | some due =>
      have core := gate_core opened
      have cfg : due.cfg = s.cfg := congrArg Core.cfg core
      rw [← cfg]
      exact (tracks.of_core_eq core).pollDue now

end Operations

end Sender

end Rsrt
