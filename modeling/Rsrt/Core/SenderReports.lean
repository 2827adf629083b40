import Rsrt.Core.SenderWindow

namespace Rsrt
namespace Sender

open Rsrt.Basis SeqNumber

/-!
# What the sender owes its peer, and on what terms it sends

The window of a sender says nothing about the drop requests that it queues, the
window that its peer grants or the packets that it counts as dropped.  This
module states what each operation does to those.
-/

/-- The terms of a sender: what its configuration and its peer allow it, and what
it has recorded against both. -/
structure Terms where
  cfg : SenderConfig
  advertisedWindow : Nat
  pktsDropped : Nat
  protocolViolation : Bool

def terms (s : Sender) : Terms where
  cfg := s.cfg
  advertisedWindow := s.advertisedWindow
  pktsDropped := s.stats.pktsDropped
  protocolViolation := s.protocolViolation

/-- Drops and submissions leave the terms alone, apart from the drop count. -/
theorem terms_of_outside_eq {s s' : Sender} (same : s'.outside = s.outside) :
    s'.terms = { s.terms with pktsDropped := s'.stats.pktsDropped } := by
  have cfg := congrArg Sender.cfg same
  have window := congrArg Sender.advertisedWindow same
  have violation := congrArg Sender.protocolViolation same
  change s'.cfg = s.cfg at cfg
  change s'.advertisedWindow = s.advertisedWindow at window
  change s'.protocolViolation = s.protocolViolation at violation
  unfold terms
  rw [cfg, window, violation]

/-! ## Drops -/

/-- The request that the too-late drop queues. -/
def lateRequest (s : Sender) (now : Instant) : List ControlType :=
  if 0 < s.tlpktdropCount now then
    [.dropRequest (MsgNumber.new 0) (s.seqAt s.baseIndex)
      (s.seqAt (s.baseIndex + s.tlpktdropCount now - 1))]
  else []

theorem checkTlpktdrop_controlQueue (s : Sender) (now : Instant) :
    (s.checkTlpktdrop now).controlQueue = s.controlQueue ++ s.lateRequest now := by
  unfold checkTlpktdrop lateRequest
  split_ifs
  · rfl
  · exact (List.append_nil _).symm

theorem onTimer_controlQueue (s : Sender) (now : Instant) :
    (s.onTimer now).controlQueue = s.controlQueue ++ s.lateRequest now :=
  checkTlpktdrop_controlQueue s now

theorem dropWhile_controlQueue (full : Sender -> Bool) (fuel : Nat) (s : Sender) :
    (dropWhile full fuel s).controlQueue = s.controlQueue :=
  dropWhile_keeps (controlQueue · = s.controlQueue) (fun _ same => same) full fuel rfl

theorem makeRoom_controlQueue (s : Sender) (now : Instant) (payloadLen : Nat) :
    (s.makeRoom now payloadLen).controlQueue = s.controlQueue ++ s.lateRequest now := by
  unfold makeRoom withinCapacity
  rw [dropWhile_controlQueue, dropWhile_controlQueue]
  exact checkTlpktdrop_controlQueue (s.feedPacer now payloadLen) now

/-- The drop count and the base move together. -/
def CountsDrops (s next : Sender) : Prop :=
  next.baseIndex + s.stats.pktsDropped = s.baseIndex + next.stats.pktsDropped

theorem CountsDrops.trans {first second third : Sender} (left : CountsDrops first second)
    (right : CountsDrops second third) : CountsDrops first third := by
  unfold CountsDrops at left right ⊢
  omega

theorem dropFront_countsDrops (s : Sender) (n : Nat) (announce : Bool) :
    CountsDrops s (s.dropFront n announce) := by
  change s.baseIndex + n + s.stats.pktsDropped = s.baseIndex + (s.stats.pktsDropped + n)
  omega

theorem checkTlpktdrop_countsDrops (s : Sender) (now : Instant) :
    CountsDrops s (s.checkTlpktdrop now) := by
  unfold checkTlpktdrop
  split_ifs
  · exact dropFront_countsDrops _ _ _
  · rfl

theorem dropWhile_countsDrops (full : Sender -> Bool) (fuel : Nat) (s : Sender) :
    CountsDrops s (dropWhile full fuel s) :=
  dropWhile_keeps (CountsDrops s) (fun t counts => counts.trans (dropFront_countsDrops t 1 false))
    full fuel rfl

theorem makeRoom_countsDrops (s : Sender) (now : Instant) (payloadLen : Nat) :
    CountsDrops s (s.makeRoom now payloadLen) := by
  have timely : CountsDrops s ((s.feedPacer now payloadLen).checkTlpktdrop now) :=
    checkTlpktdrop_countsDrops (s.feedPacer now payloadLen) now
  unfold makeRoom withinCapacity
  exact (timely.trans (dropWhile_countsDrops _ _ _)).trans (dropWhile_countsDrops _ _ _)

/-! ## Acknowledgements -/

theorem release_terms (s : Sender) (ackExt : Int) : (s.release ackExt).terms = s.terms := by
  unfold release
  split_ifs <;> rfl

theorem release_lastAckIndex (s : Sender) (ackExt : Int) :
    (s.release ackExt).lastAckIndex = s.lastAckIndex := by
  unfold release
  split_ifs <;> rfl

theorem adoptRtt_terms (s : Sender) (cif : AckCif) : (s.adoptRtt cif).terms = s.terms := by
  unfold adoptRtt
  split
  · split_ifs <;> rfl
  · rfl

theorem replyAckack_terms (s : Sender) (now : Instant) (ackNumber : Nat) :
    (s.replyAckack now ackNumber).1.terms = s.terms := by
  unfold replyAckack
  split_ifs <;> rfl

/-- The window that an accepted ACK leaves: a light one consumes credit, a full
one brings its own, and a stale one changes nothing. -/
def windowAfter (s : Sender) (cif : AckCif) (ackExt : Int) : Nat :=
  if (s.lastAckIndex : Int) ≤ ackExt then
    if cif.rttUs = none then
      s.advertisedWindow - min (ackExt - s.lastAckIndex).toNat (2 ^ 32 - 1)
    else cif.availBufPkts.getD s.advertisedWindow
  else s.advertisedWindow

theorem consumeCredit_terms (s : Sender) {cif : AckCif} (light : cif.rttUs = none)
    (ackExt : Int) :
    (s.consumeCredit ackExt).terms =
      { s.terms with advertisedWindow := s.windowAfter cif ackExt } := by
  unfold consumeCredit windowAfter
  rw [if_pos light]
  split_ifs <;> rfl

theorem adoptWindow_terms (s : Sender) {cif : AckCif} (full : cif.rttUs ≠ none) (ackExt : Int) :
    (s.adoptWindow ackExt cif.availBufPkts).terms =
      { s.terms with advertisedWindow := s.windowAfter cif ackExt } := by
  unfold adoptWindow windowAfter
  rw [if_neg full]
  split_ifs <;> rfl

/-- The window depends on the terms and the acknowledged index alone. -/
theorem windowAfter_eq {s s' : Sender} (terms : s'.terms = s.terms)
    (last : s'.lastAckIndex = s.lastAckIndex) (cif : AckCif) (ackExt : Int) :
    s'.windowAfter cif ackExt = s.windowAfter cif ackExt := by
  have window : s'.advertisedWindow = s.advertisedWindow := congrArg Terms.advertisedWindow terms
  unfold windowAfter
  rw [window, last]

theorem handleAck_terms {s : Sender} (now : Instant) (ackNumber : Nat) {cif : AckCif}
    (sent : s.extOf cif.lastAckSeq ≤ s.nextSendIndex) :
    (s.handleAck now ackNumber cif).1.terms =
      { s.terms with advertisedWindow := s.windowAfter cif (s.extOf cif.lastAckSeq) } := by
  unfold handleAck
  simp only [if_neg (not_lt.mpr sent)]
  generalize s.extOf cif.lastAckSeq = ackExt
  have released := release_terms s ackExt
  have last := release_lastAckIndex s ackExt
  split_ifs with light
  · rw [consumeCredit_terms _ light, windowAfter_eq released last, released]
  · have before : (((s.release ackExt).adoptRtt cif).replyAckack now ackNumber).1.terms =
        s.terms :=
      (replyAckack_terms _ _ _).trans ((adoptRtt_terms _ _).trans released)
    have core : (((s.release ackExt).adoptRtt cif).replyAckack now ackNumber).1.core =
        (s.release ackExt).core :=
      (replyAckack_core _ _ _).trans (adoptRtt_core _ _)
    have acked := (congrArg Core.lastAckIndex core).trans last
    change ((((s.release ackExt).adoptRtt cif).replyAckack now ackNumber).1.adoptWindow
      ackExt cif.availBufPkts).terms = _
    rw [adoptWindow_terms _ light, windowAfter_eq before acked, before]

theorem handleAck_ok {s : Sender} (now : Instant) (ackNumber : Nat) {cif : AckCif}
    (sent : s.extOf cif.lastAckSeq ≤ s.nextSendIndex) :
    Exists fun reply => (s.handleAck now ackNumber cif).2 = .ok reply := by
  unfold handleAck
  simp only [if_neg (not_lt.mpr sent)]
  split_ifs
  · exact ⟨none, rfl⟩
  · exact ⟨_, rfl⟩

/-! ## Loss reports -/

/-- A range of a loss report as an honest receiver writes it: near the base, the
right way round, and sent. -/
structure HonestRange (s : Sender) (range : LossRange) (lo hi : Int) : Prop where
  first : range.first = wire s.cfg.initialSeq lo
  last : range.last = wire s.cfg.initialSeq hi
  low : -2 ^ 29 ≤ lo - s.baseIndex ∧ lo - s.baseIndex ≤ 2 ^ 29
  high : -2 ^ 29 ≤ hi - s.baseIndex ∧ hi - s.baseIndex ≤ 2 ^ 29
  ordered : lo ≤ hi
  sent : hi < s.nextSendIndex

/-- What a loss report can do besides marking packets for retransmission: it is
answered with requests to drop ranges that are acknowledged. -/
structure Answers (s next : Sender) (ranges : List LossRange) : Prop where
  terms : next.terms = s.terms
  positions : next.baseIndex = s.baseIndex ∧ next.nextSendIndex = s.nextSendIndex ∧
    next.lastAckIndex = s.lastAckIndex
  queue : Exists fun news => next.controlQueue = s.controlQueue ++ news ∧
    forall message, message ∈ news -> Exists fun range => range ∈ ranges ∧
      message = .dropRequest (MsgNumber.new 0) range.first range.last ∧
      s.extOf range.last < s.lastAckIndex

theorem HonestRange.extOf {s : Sender} {range : LossRange} {lo hi : Int}
    (honest : HonestRange s range lo hi) :
    s.extOf range.first = lo ∧ s.extOf range.last = hi := by
  have low := honest.low
  have high := honest.high
  rw [honest.first, honest.last]
  exact ⟨extOf_wire s (by omega) (by omega), extOf_wire s (by omega) (by omega)⟩

theorem HonestRange.nakRange {s : Sender} {range : LossRange} {lo hi : Int}
    (honest : HonestRange s range lo hi) :
    Exists fun next => s.nakRange range = some next ∧ Answers s next [range] := by
  rcases honest.extOf with ⟨first, last⟩
  have valid : ¬(hi < lo ∨ (s.nextSendIndex : Int) ≤ hi) :=
    not_or.mpr ⟨not_lt.mpr honest.ordered, not_le.mpr honest.sent⟩
  have quiet : Exists fun news => s.controlQueue = s.controlQueue ++ news ∧
      forall message, message ∈ news -> Exists fun other => other ∈ [range] ∧
        message = .dropRequest (MsgNumber.new 0) other.first other.last ∧
        s.extOf other.last < s.lastAckIndex :=
    ⟨[], (List.append_nil _).symm, fun _ member => absurd member List.not_mem_nil⟩
  unfold Sender.nakRange
  simp only [first, last, if_neg valid]
  split_ifs with whole clipped many
  · exact ⟨_, rfl, rfl, ⟨rfl, rfl, rfl⟩, quiet⟩
  · exact ⟨_, rfl, rfl, ⟨rfl, rfl, rfl⟩, quiet⟩
  · refine ⟨_, rfl, rfl, ⟨rfl, rfl, rfl⟩, _, rfl, ?_⟩
    intro message member
    refine ⟨range, List.mem_singleton_self _, List.mem_singleton.mp member, ?_⟩
    rw [last]
    omega
  · exact ⟨_, rfl, rfl, ⟨rfl, rfl, rfl⟩, quiet⟩

/-- Positions on the wire are resolved from the configuration and the base. -/
theorem Answers.extOf {s next : Sender} {ranges : List LossRange} (answers : Answers s next ranges)
    (seq : SeqNumber) : next.extOf seq = s.extOf seq := by
  have cfg : next.cfg = s.cfg := congrArg Terms.cfg answers.terms
  unfold Sender.extOf Sender.seqAt
  rw [cfg, answers.positions.1]

theorem Answers.honestRange {s next : Sender} {ranges : List LossRange}
    (answers : Answers s next ranges) {range : LossRange} {lo hi : Int}
    (honest : HonestRange s range lo hi) : HonestRange next range lo hi := by
  have cfg : next.cfg = s.cfg := congrArg Terms.cfg answers.terms
  rcases answers.positions with ⟨base, sent, _⟩
  constructor
  · rw [cfg]
    exact honest.first
  · rw [cfg]
    exact honest.last
  · rw [base]
    exact honest.low
  · rw [base]
    exact honest.high
  · exact honest.ordered
  · rw [sent]
    exact honest.sent

theorem handleNak_answers (now : Instant) {ranges : List LossRange} : forall {s : Sender},
    (forall range, range ∈ ranges -> Exists fun lo => Exists fun hi =>
      HonestRange s range lo hi) ->
    Answers s (s.handleNak now ranges) ranges := by
  unfold handleNak
  induction ranges with
  | nil =>
      intro s _
      exact ⟨rfl, ⟨rfl, rfl, rfl⟩, [], (List.append_nil _).symm,
        fun _ member => absurd member List.not_mem_nil⟩
  | cons range rest ih =>
      intro s honest
      rcases honest range List.mem_cons_self with ⟨lo, hi, here⟩
      rcases here.nakRange with ⟨middle, accepted, first⟩
      have later : Answers middle (middle.nakRanges rest) rest := by
        apply ih
        intro other member
        rcases honest other (List.mem_cons_of_mem _ member) with ⟨lo, hi, there⟩
        exact ⟨lo, hi, first.honestRange there⟩
      unfold nakRanges
      rw [accepted]
      rcases first.positions with ⟨base, sent, last⟩
      rcases later.positions with ⟨base', sent', last'⟩
      rcases first.queue with ⟨early, queue, answered⟩
      rcases later.queue with ⟨late, queue', answered'⟩
      refine ⟨later.terms.trans first.terms,
        ⟨base'.trans base, sent'.trans sent, last'.trans last⟩, early ++ late, ?_, ?_⟩
      · change (middle.nakRanges rest).controlQueue = _
        rw [queue', queue, List.append_assoc]
      · intro message member
        rcases List.mem_append.mp member with old | new
        · rcases answered message old with ⟨other, present, shape, below⟩
          rw [List.mem_singleton.mp present] at shape below
          exact ⟨range, List.mem_cons_self, shape, below⟩
        · rcases answered' message new with ⟨other, present, shape, below⟩
          rw [first.extOf, last] at below
          exact ⟨other, List.mem_cons_of_mem _ present, shape, below⟩

/-! ## Transmission -/

theorem retransmit_terms (s : Sender) (now : Instant) (index : Nat) :
    (s.retransmit now index).1.terms = s.terms := by
  unfold retransmit
  dsimp only
  split <;> rfl

theorem transmitNew_terms (s : Sender) (now : Instant) :
    (s.transmitNew now).1.terms = s.terms := by
  unfold transmitNew transmit
  dsimp only
  split_ifs
  · split <;> rfl
  · rfl

theorem pollTransmitAt_terms (s : Sender) (now : Instant) :
    (s.pollTransmitAt now).1.terms = s.terms := by
  unfold pollTransmitAt
  split
  · rfl
  case h_2 due opened =>
    have opening : due.terms = s.terms := by
      rcases gate_eq opened with ⟨pacer, rfl⟩
      rfl
    unfold pollDue
    split
    · exact (retransmit_terms _ _ _).trans opening
    · exact (transmitNew_terms _ _).trans opening

/-- A first transmission needs room in the effective window. -/
theorem pollTransmitAt_window (s : Sender) (now : Instant) :
    (s.pollTransmitAt now).1.nextSendIndex = s.nextSendIndex ∨ s.flight < s.effectiveWindow := by
  unfold pollTransmitAt
  split
  · exact Or.inl rfl
  case h_2 due opened =>
    have same : due.nextSendIndex = s.nextSendIndex ∧ due.flight = s.flight ∧
        due.effectiveWindow = s.effectiveWindow := by
      rcases gate_eq opened with ⟨pacer, rfl⟩
      exact ⟨rfl, rfl, rfl⟩
    unfold pollDue
    split
    · apply Or.inl
      unfold retransmit
      dsimp only
      split <;> exact same.1
    · unfold transmitNew
      split_ifs with room
      · apply Or.inr
        rw [← same.2.1, ← same.2.2]
        exact room.2
      · exact Or.inl same.1

/-! ## What only submissions and drops change -/

/-- What numbers the packets and what the sender owes the peer. -/
structure Labels where
  cfg : SenderConfig
  nextMsg : MsgNumber
  controlQueue : List ControlType

def labels (s : Sender) : Labels where
  cfg := s.cfg
  nextMsg := s.nextMsg
  controlQueue := s.controlQueue

theorem handleAck_labels (s : Sender) (now : Instant) (ackNumber : Nat) (cif : AckCif) :
    (s.handleAck now ackNumber cif).1.labels = s.labels := by
  have released (ackExt : Int) : (s.release ackExt).labels = s.labels := by
    unfold release
    split <;> rfl
  have adopted (t : Sender) : (t.adoptRtt cif).labels = t.labels := by
    unfold adoptRtt
    split
    · split <;> rfl
    · rfl
  have replied (t : Sender) : (t.replyAckack now ackNumber).1.labels = t.labels := by
    unfold replyAckack
    split <;> rfl
  have granted (t : Sender) (ackExt : Int) (avail : Option Nat) :
      (t.adoptWindow ackExt avail).labels = t.labels := by
    unfold adoptWindow
    split <;> rfl
  have consumed (t : Sender) (ackExt : Int) : (t.consumeCredit ackExt).labels = t.labels := by
    unfold consumeCredit
    split <;> rfl
  unfold handleAck
  dsimp only
  split_ifs
  · rfl
  · exact (consumed _ _).trans (released _)
  · exact (granted _ _ _).trans ((replied _).trans ((adopted _).trans (released _)))

theorem pollTransmitAt_labels (s : Sender) (now : Instant) :
    (s.pollTransmitAt now).1.labels = s.labels := by
  have again (t : Sender) (index : Nat) : (t.retransmit now index).1.labels = t.labels := by
    unfold retransmit
    dsimp only
    split <;> rfl
  have fresh (t : Sender) : (t.transmitNew now).1.labels = t.labels := by
    unfold transmitNew transmit
    dsimp only
    split_ifs
    · split <;> rfl
    · rfl
  unfold pollTransmitAt
  split
  · rfl
  case h_2 due opened =>
    have opening : due.labels = s.labels := by
      rcases gate_eq opened with ⟨pacer, rfl⟩
      rfl
    unfold pollDue
    split
    · exact (again _ _).trans opening
    · exact (fresh _).trans opening

/-- Drops keep the configuration and the message counter. -/
theorem dropWhile_numbering (full : Sender -> Bool) (fuel : Nat) (s : Sender) :
    (dropWhile full fuel s).cfg = s.cfg ∧ (dropWhile full fuel s).nextMsg = s.nextMsg :=
  dropWhile_keeps (fun t => t.cfg = s.cfg ∧ t.nextMsg = s.nextMsg) (fun _ same => same) full fuel
    ⟨rfl, rfl⟩

theorem checkTlpktdrop_numbering (s : Sender) (now : Instant) :
    (s.checkTlpktdrop now).cfg = s.cfg ∧ (s.checkTlpktdrop now).nextMsg = s.nextMsg := by
  unfold checkTlpktdrop
  split_ifs <;> exact ⟨rfl, rfl⟩

theorem makeRoom_numbering (s : Sender) (now : Instant) (payloadLen : Nat) :
    (s.makeRoom now payloadLen).cfg = s.cfg ∧ (s.makeRoom now payloadLen).nextMsg = s.nextMsg := by
  have timely := checkTlpktdrop_numbering (s.feedPacer now payloadLen) now
  have within : (s.withinCapacity now payloadLen).cfg = s.cfg ∧
      (s.withinCapacity now payloadLen).nextMsg = s.nextMsg := by
    have dropped := dropWhile_numbering bufferFull
      ((s.feedPacer now payloadLen).checkTlpktdrop now).buffer.length
      ((s.feedPacer now payloadLen).checkTlpktdrop now)
    exact ⟨dropped.1.trans timely.1, dropped.2.trans timely.2⟩
  have dropped := dropWhile_numbering windowFull (s.withinCapacity now payloadLen).buffer.length
    (s.withinCapacity now payloadLen)
  exact ⟨dropped.1.trans within.1, dropped.2.trans within.2⟩

theorem handleNak_numbering (s : Sender) (now : Instant) (ranges : List LossRange) :
    (s.handleNak now ranges).cfg = s.cfg ∧ (s.handleNak now ranges).nextMsg = s.nextMsg := by
  have one {t next : Sender} {range : LossRange} (accepted : t.nakRange range = some next) :
      next.cfg = t.cfg ∧ next.nextMsg = t.nextMsg := by
    unfold nakRange at accepted
    dsimp only at accepted
    split_ifs at accepted <;> cases accepted <;> exact ⟨rfl, rfl⟩
  unfold handleNak
  induction ranges generalizing s with
  | nil => exact ⟨rfl, rfl⟩
  | cons range rest ih =>
      unfold nakRanges
      cases accepted : s.nakRange range with
      | none => exact ⟨rfl, rfl⟩
      | some next => exact ⟨(ih next).1.trans (one accepted).1, (ih next).2.trans (one accepted).2⟩

end Sender
end Rsrt
