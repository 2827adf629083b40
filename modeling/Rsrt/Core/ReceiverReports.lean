import Rsrt.Core.ReceiverSession

namespace Rsrt
namespace Receiver

open Rsrt.Basis Rsrt.Basis.Intervals SeqNumber

/-!
# What the receiver reports to its peer

Every control message that a call queues is a function of the receiver after the
call: an ACK carries the ACK position, and a full one the free buffer space
behind it; a NAK lists entries of the loss list.
-/

/-- The message reports the state of this receiver. -/
def Reports (r : Receiver) : ControlType -> Prop
  | .ack _ cif =>
      cif.lastAckSeq = r.ackValue ∧
        (cif.rttUs = none ∨
          (cif.availBufPkts = some r.availBufPkts ∧ r.rcvLastAck = r.ackValue))
  | .nak ranges => forall range, range ∈ ranges -> range ∈ r.loss
  | _ => False

/-- The messages that a call appends to the queue. -/
def queued (entry : Session × Call) : List ControlType :=
  (entry.1.step entry.2).receiver.controlQ.drop entry.1.receiver.controlQ.length

/-- The receiver reached from `r` has the given messages queued behind the old
ones, and each reports the new state. -/
def Queues (r final : Receiver) : Prop :=
  Exists fun news => final.controlQ = r.controlQ ++ news ∧
    forall message, message ∈ news -> Reports final message

theorem Queues.of_controlQ_eq {r final : Receiver} (same : final.controlQ = r.controlQ) :
    Queues r final :=
  ⟨[], by rw [same, List.append_nil], fun _ member => absurd member List.not_mem_nil⟩

/-- What a report is about. -/
theorem Reports.of_same {r final : Receiver} {message : ControlType} (reports : Reports r message)
    (ack : final.ackValue = r.ackValue) (avail : final.availBufPkts = r.availBufPkts)
    (last : final.rcvLastAck = r.rcvLastAck) (loss : final.loss = r.loss) :
    Reports final message := by
  cases message <;> simp only [Reports, ack, avail, last, loss] at reports ⊢ <;> exact reports

/-! ## Timer reports -/

/-- The timer ACK does nothing, or records the ACK position without sending, or
records and sends it. -/
theorem queueFullAck_cases (r : Receiver) (now : Instant) :
    r.queueFullAck now = r ∨
      (0 ≤ r.ackValue.diff r.rcvLastAck ∧
        (r.queueFullAck now = { r with rcvLastAck := r.ackValue } ∨
          r.queueFullAck now = ({ r with rcvLastAck := r.ackValue }).emitFullAck now)) := by
  have sent (s : Receiver) : s.emitFullAckUnlessConfirmed now = s ∨
      s.emitFullAckUnlessConfirmed now = s.emitFullAck now := by
    unfold emitFullAckUnlessConfirmed
    split
    · exact Or.inl rfl
    · exact Or.inr rfl
  by_cases confirmed : r.ackValue = r.rcvLastAckack
  · refine Or.inl ?_
    simp only [queueFullAck, if_pos confirmed]
  by_cases advances : 0 < r.ackValue.diff r.rcvLastAck
  · refine Or.inr ⟨le_of_lt advances, ?_⟩
    simp only [queueFullAck, if_neg confirmed, if_pos advances]
    exact sent _
  by_cases repeats : r.ackValue.diff r.rcvLastAck = 0
  · have same : { r with rcvLastAck := r.ackValue } = r := by
      rw [eq_of_diff_eq_zero repeats]
    rw [same]
    simp only [queueFullAck, if_neg confirmed, if_neg advances, if_pos repeats]
    split_ifs
    · exact Or.inl rfl
    · rcases sent r with unsent | emitted
      · exact Or.inl unsent
      · exact Or.inr ⟨le_of_eq repeats.symm, Or.inr emitted⟩
  · refine Or.inl ?_
    simp only [queueFullAck, if_neg confirmed, if_neg advances, if_neg repeats]

theorem queueFullAck_queues (r : Receiver) (now : Instant) : Queues r (r.queueFullAck now) := by
  rcases queueFullAck_cases r now with same | ⟨_, same | same⟩
  · rw [same]
    exact .of_controlQ_eq rfl
  · rw [same]
    exact .of_controlQ_eq rfl
  · rw [same]
    refine ⟨_, rfl, ?_⟩
    intro message member
    rw [List.mem_singleton.mp member]
    exact ⟨rfl, Or.inr ⟨rfl, rfl⟩⟩

theorem mem_of_mem_nakPrefix {maxWords words : Nat} {loss : List LossRange} {range : LossRange}
    (member : range ∈ nakPrefix maxWords words loss) : range ∈ loss := by
  induction loss generalizing words with
  | nil => exact absurd member List.not_mem_nil
  | cons head rest ih =>
      rw [nakPrefix] at member
      generalize (if head.first = head.last then 1 else 2) = need at member
      split at member
      · exact absurd member List.not_mem_nil
      · rcases List.mem_cons.mp member with same | later
        · exact same ▸ List.mem_cons_self
        · exact List.mem_cons_of_mem _ (ih later)

theorem queueNak_queues (r : Receiver) {ranges : List LossRange}
    (listed : forall range, range ∈ ranges -> range ∈ r.loss) : Queues r (r.queueNak ranges) := by
  by_cases empty : ranges = []
  · rw [queueNak, if_pos empty]
    exact .of_controlQ_eq rfl
  · rw [queueNak, if_neg empty]
    refine ⟨[.nak ranges], rfl, ?_⟩
    intro message member
    rw [List.mem_singleton.mp member]
    exact listed

theorem ackValue_eq_of_buffer_eq {r final : Receiver} (same : final.buffer = r.buffer) :
    final.ackValue = r.ackValue := by
  have loss : final.loss = r.loss := congrArg Buffer.loss same
  have curr : final.rcvCurrSeq = r.rcvCurrSeq := congrArg Buffer.rcvCurrSeq same
  unfold ackValue
  rw [loss, curr]

/-- Reports survive whatever leaves the buffer and the last ACK alone. -/
theorem Reports.of_buffer_eq {r final : Receiver} {message : ControlType}
    (reports : Reports r message) (same : final.buffer = r.buffer)
    (last : final.rcvLastAck = r.rcvLastAck) : Reports final message := by
  have base : final.baseSeq = r.baseSeq := congrArg Buffer.baseSeq same
  have cfg : final.cfg = r.cfg := congrArg Buffer.cfg same
  refine reports.of_same (ackValue_eq_of_buffer_eq same) ?_ last (congrArg Buffer.loss same)
  unfold availBufPkts
  rw [last, base, cfg]

theorem Queues.trans {r middle final : Receiver} (first : Queues r middle)
    (second : Queues middle final) (same : final.buffer = middle.buffer)
    (last : final.rcvLastAck = middle.rcvLastAck) : Queues r final := by
  rcases first with ⟨early, queue, reports⟩
  rcases second with ⟨late, queue', reports'⟩
  refine ⟨early ++ late, by rw [queue', queue, List.append_assoc], ?_⟩
  intro message member
  rcases List.mem_append.mp member with old | new
  · exact (reports message old).of_buffer_eq same last
  · exact reports' message new

theorem onTimer_queues (r : Receiver) (now : Instant) : Queues r (r.onTimer now) := by
  have acked : Queues r (r.ackTimer now) := by
    unfold ackTimer
    split
    · rcases queueFullAck_queues r now with ⟨news, queue, reports⟩
      exact ⟨news, queue, fun message member => (reports message member).of_buffer_eq rfl rfl⟩
    · exact .of_controlQ_eq rfl
  have nakked (s : Receiver) : Queues s (s.nakTimer now) ∧
      (s.nakTimer now).buffer = s.buffer ∧ (s.nakTimer now).rcvLastAck = s.rcvLastAck := by
    have listed : forall range, range ∈ s.nakRanges -> range ∈ s.loss :=
      fun range member => mem_of_mem_nakPrefix member
    have last : (s.queueNak s.nakRanges).rcvLastAck = s.rcvLastAck := by
      unfold queueNak
      split <;> rfl
    unfold nakTimer
    dsimp only
    split_ifs
    · exact ⟨.of_controlQ_eq rfl, rfl, rfl⟩
    · rcases queueNak_queues s listed with ⟨news, queue, reports⟩
      exact ⟨⟨news, queue, fun message member => (reports message member).of_buffer_eq rfl rfl⟩,
        queueNak_buffer s s.nakRanges, last⟩
    · exact ⟨.of_controlQ_eq rfl, rfl, rfl⟩
  have after := nakked (r.ackTimer now)
  exact acked.trans after.1 after.2.1 after.2.2

/-! ## Arrival reports -/

theorem queueLightAck_queues (r : Receiver) : Queues r r.queueLightAck := by
  unfold queueLightAck
  dsimp only
  split
  · exact .of_controlQ_eq rfl
  · refine ⟨_, rfl, ?_⟩
    intro message member
    rw [List.mem_singleton.mp member]
    exact ⟨rfl, Or.inl rfl⟩

theorem selfClock_queues (r : Receiver) : Queues r r.selfClock := by
  unfold selfClock
  split
  · exact queueLightAck_queues _
  · exact .of_controlQ_eq rfl

section Arriving

variable {origin : SeqNumber} {w : ReceiveWindow Slot} {r : Receiver}

/-- A gap is reported at once, and its range is in the loss list. -/
theorem Tracks.storeData_queues (tracks : Tracks origin w r) {pkt : DataPacket} {point : Int}
    (seq : pkt.seq = wire origin point)
    (near : w.base - 2 ^ 29 ≤ point ∧ point ≤ w.base + 2 ^ 29)
    (extUs : Nat) (undecryptable : Bool) : Queues r (r.storeData pkt extUs undecryptable) := by
  have distance : pkt.seq.diff r.baseSeq = point - w.base := by
    rw [seq]
    exact tracks.diff_base near.1 (by omega)
  unfold Receiver.storeData
  simp only [distance]
  by_cases belated : point - w.base < 0
  · rw [if_pos belated]
    exact .of_controlQ_eq rfl
  rw [if_neg belated]
  split
  · split <;> exact .of_controlQ_eq rfl
  split
  · exact .of_controlQ_eq rfl
  have ahead := tracks.diff_top (by omega) near.2
  rw [← seq] at ahead
  generalize resized : { r with slots := resizeSlots r.slots ((point - w.base).toNat + 1) } = r₁
  have curr : r₁.rcvCurrSeq = r.rcvCurrSeq := by rw [← resized]
  have queue : r₁.controlQ = r.controlQ := by rw [← resized]
  rw [← curr] at ahead
  by_cases opens : 0 < pkt.seq.diff r₁.rcvCurrSeq.next ∧ undecryptable = false
  · have moved : 0 < pkt.seq.diff (r₁.detectGap pkt.seq undecryptable).rcvCurrSeq := by
      have same := congrArg Buffer.rcvCurrSeq (detectGap_buffer r₁ pkt.seq undecryptable)
      change (r₁.detectGap pkt.seq undecryptable).rcvCurrSeq = r₁.rcvCurrSeq at same
      rw [same]
      omega
    rw [noteArrival, if_pos moved]
    unfold detectGap
    simp only [if_pos opens]
    refine ⟨[.nak [{ first := r₁.rcvCurrSeq.next, last := pkt.seq.prev }]], ?_, ?_⟩
    · rw [← queue]
      rfl
    · intro message member
      rw [List.mem_singleton.mp member]
      intro range listed
      rw [List.mem_singleton.mp listed]
      exact List.mem_append_right _ (List.mem_singleton_self _)
  · refine .of_controlQ_eq ?_
    rw [← queue]
    unfold detectGap noteArrival
    simp only [if_neg opens]
    split <;> rfl

theorem Tracks.ingest_queues (tracks : Tracks origin w r) {pkt : DataPacket} {point : Int}
    (seq : pkt.seq = wire origin point)
    (near : w.base - 2 ^ 29 ≤ point ∧ point ≤ w.base + 2 ^ 29)
    (now : Instant) (undecryptable : Bool) : Queues r (r.ingest now pkt undecryptable) := by
  unfold Receiver.ingest
  split
  · exact .of_controlQ_eq rfl
  have observed : Tracks origin w ((r.countArrival pkt).observeTimestamp now pkt.timestamp).1 :=
    tracks.of_buffer_eq rfl
  have stored := observed.storeData_queues seq near
    ((r.countArrival pkt).observeTimestamp now pkt.timestamp).2 undecryptable
  dsimp only
  generalize ((r.countArrival pkt).observeTimestamp now pkt.timestamp).1.storeData pkt
    ((r.countArrival pkt).observeTimestamp now pkt.timestamp).2 undecryptable = middle at stored ⊢
  have last : middle.selfClock.rcvLastAck = middle.rcvLastAck := by
    unfold selfClock queueLightAck
    dsimp only
    split_ifs <;> rfl
  exact Queues.trans (r := r) stored (selfClock_queues middle) (selfClock_buffer middle) last

end Arriving

/-! ## All calls -/

theorem setHsAnchor_controlQ (r : Receiver) (instant : Instant) (ts : Timestamp) :
    (r.setHsAnchor instant ts).controlQ = r.controlQ := by
  unfold setHsAnchor
  split <;> rfl

theorem handleAckack_controlQ (r : Receiver) (now : Instant) (number : Nat) (ts : Timestamp) :
    (r.handleAckack now number ts).controlQ = r.controlQ :=
  handleAckack_keeps Receiver.controlQ (fun _ _ _ _ _ _ _ _ _ => rfl) r now number ts

/-- Every message that a call queues reports the state right after the call. -/
theorem queued_reports {s : Session} {w : ReceiveWindow Slot} (tracked : s.Tracked w) {c : Call}
    (near : Near s.receiver.baseSeq c) {message : ControlType} (member : message ∈ queued (s, c)) :
    Reports (s.step c).receiver message := by
  have appended (queues : Queues s.receiver (s.step c).receiver) :
      Reports (s.step c).receiver message := by
    rcases queues with ⟨news, queue, reports⟩
    refine reports message ?_
    unfold queued at member
    dsimp only at member
    rw [queue, List.drop_left] at member
    exact member
  cases c with
  | setHsAnchor instant ts =>
      exact appended (.of_controlQ_eq (setHsAnchor_controlQ _ instant ts))
  | setMaxPayload bytes => exact appended (.of_controlQ_eq rfl)
  | handleData now pkt =>
      exact appended (tracked.tracks.ingest_queues (tracked.wire_unwrap pkt.seq).symm
        (tracked.unwrap_near near) now false)
  | handleUndecryptable now pkt =>
      exact appended (tracked.tracks.ingest_queues (tracked.wire_unwrap pkt.seq).symm
        (tracked.unwrap_near near) now true)
  | handleAckack now number ts =>
      exact appended (.of_controlQ_eq (handleAckack_controlQ _ now number ts))
  | handleDropreq now msgNumber first last =>
      have same := congrArg Receiver.controlQ
        (handleDropreq_outside s.receiver now msgNumber first last)
      exact appended (.of_controlQ_eq same)
  | onTimer now => exact appended (onTimer_queues _ now)
  | pollControl now =>
      have nothing : queued (s, .pollControl now) = [] := by
        refine List.drop_eq_nil_of_le ?_
        show (s.receiver.pollControl now).1.controlQ.length ≤ s.receiver.controlQ.length
        unfold pollControl
        split
        · exact le_refl _
        · rename_i queue
          rw [queue]
          exact Nat.le_succ _
      rw [nothing] at member
      exact absurd member List.not_mem_nil
  | pollDeliver now =>
      have same := congrArg Receiver.controlQ (pollDeliver_outside s.receiver now)
      exact appended (.of_controlQ_eq same)

end Receiver
end Rsrt
