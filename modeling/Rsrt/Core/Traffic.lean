import Rsrt.Core.ReceiverReports
import Rsrt.Core.SenderReports

namespace Rsrt

/-!
# What the two halves of a connection say

The receiver queues acknowledgements and loss reports, the sender drop requests,
and neither anything else.  Key material therefore travels only in the packets
that the connection itself queues.
-/

/-- The messages that a sender or a receiver queues. -/
def ControlType.isReport : ControlType -> Bool
  | .ack _ _ => true
  | .nak _ => true
  | .dropRequest _ _ _ => true
  | _ => false

namespace Receiver

def Reporting (r : Receiver) : Prop := forall message, message ∈ r.controlQ -> message.isReport

theorem Reporting.append {r final : Receiver} (reporting : r.Reporting) {news : List ControlType}
    (queue : final.controlQ = r.controlQ ++ news)
    (reports : forall message, message ∈ news -> message.isReport) : final.Reporting := by
  unfold Reporting
  rw [queue]
  exact List.forall_mem_append.mpr ⟨reporting, reports⟩

theorem Reporting.of_controlQ_eq {r final : Receiver} (reporting : r.Reporting)
    (same : final.controlQ = r.controlQ) : final.Reporting := by
  intro message member
  rw [same] at member
  exact reporting message member

theorem Reporting.of_queues {r final : Receiver} (reporting : r.Reporting)
    (queues : Queues r final) : final.Reporting := by
  rcases queues with ⟨news, queue, reports⟩
  refine reporting.append queue ?_
  intro message member
  have report := reports message member
  cases message <;> first | rfl | exact absurd report id

theorem Reporting.queueNak {r : Receiver} (reporting : r.Reporting) (ranges : List LossRange) :
    (r.queueNak ranges).Reporting := by
  unfold Receiver.queueNak
  split_ifs
  · exact reporting
  · refine reporting.append rfl ?_
    intro message member
    rw [List.mem_singleton.mp member]
    rfl

theorem Reporting.storeData {r : Receiver} (reporting : r.Reporting) (pkt : DataPacket)
    (extUs : Nat) (undecryptable : Bool) : (r.storeData pkt extUs undecryptable).Reporting := by
  have detected (s : Receiver) (before : s.Reporting) :
      (s.detectGap pkt.seq undecryptable).Reporting := by
    unfold detectGap
    dsimp only
    split_ifs
    · apply Reporting.queueNak
      exact before.of_controlQ_eq rfl
    · exact before
  have noted (s : Receiver) : (s.noteArrival pkt.seq).controlQ = s.controlQ := by
    unfold noteArrival
    split <;> rfl
  have stored (s : Receiver) (before : s.Reporting) (offset : Nat) (slot : Slot) :
      (((s.detectGap pkt.seq undecryptable).noteArrival pkt.seq).occupy offset slot).Reporting :=
    (detected s before).of_controlQ_eq (noted (s.detectGap pkt.seq undecryptable))
  unfold Receiver.storeData
  dsimp only
  split_ifs
  · exact reporting.of_controlQ_eq rfl
  · exact reporting.of_controlQ_eq rfl
  · exact reporting
  · exact reporting.of_controlQ_eq rfl
  · apply stored
    exact reporting.of_controlQ_eq rfl

theorem Reporting.ingest {r : Receiver} (reporting : r.Reporting) (now : Instant)
    (pkt : DataPacket) (undecryptable : Bool) : (r.ingest now pkt undecryptable).Reporting := by
  unfold Receiver.ingest
  split_ifs
  · exact reporting.of_controlQ_eq rfl
  · have observed : (((r.countArrival pkt).observeTimestamp now pkt.timestamp).1).Reporting :=
      reporting.of_controlQ_eq rfl
    exact (observed.storeData pkt _ undecryptable).of_queues (selfClock_queues _)

theorem Reporting.pollControl {r : Receiver} (reporting : r.Reporting) (now : Instant) :
    (r.pollControl now).1.Reporting ∧
      forall message, (r.pollControl now).2 = some message -> message.isReport := by
  unfold Receiver.pollControl
  split
  · exact ⟨reporting, fun message found => by cases found⟩
  case h_2 head rest queue =>
    constructor
    · intro message member
      apply reporting
      rw [queue]
      exact List.mem_cons_of_mem _ member
    · intro message found
      cases found
      apply reporting
      rw [queue]
      exact List.mem_cons_self

end Receiver

namespace Sender

def Reporting (s : Sender) : Prop := forall message, message ∈ s.controlQueue -> message.isReport

theorem Reporting.append {s final : Sender} (reporting : s.Reporting) {news : List ControlType}
    (queue : final.controlQueue = s.controlQueue ++ news)
    (reports : forall message, message ∈ news -> message.isReport) : final.Reporting := by
  unfold Reporting
  rw [queue]
  exact List.forall_mem_append.mpr ⟨reporting, reports⟩

theorem Reporting.of_labels_eq {s final : Sender} (reporting : s.Reporting)
    (same : final.labels = s.labels) : final.Reporting := by
  have queue := congrArg Labels.controlQueue same
  change final.controlQueue = s.controlQueue at queue
  intro message member
  rw [queue] at member
  exact reporting message member

theorem Reporting.of_controlQueue_eq {s final : Sender} (reporting : s.Reporting)
    (same : final.controlQueue = s.controlQueue) : final.Reporting := by
  intro message member
  rw [same] at member
  exact reporting message member

theorem lateRequest_isReport (s : Sender) (now : Instant) :
    forall message, message ∈ s.lateRequest now -> message.isReport := by
  intro message member
  unfold lateRequest at member
  split_ifs at member
  · rw [List.mem_singleton.mp member]
    rfl
  · cases member

theorem Reporting.push {s : Sender} (reporting : s.Reporting) (now : Instant)
    (flags : EncryptionFlags) (payload wirePayload : Bytes) :
    ((s.makeRoom now payload.length).append now flags wirePayload).Reporting :=
  reporting.append (makeRoom_controlQueue s now payload.length) (lateRequest_isReport s now)

theorem Reporting.onTimer {s : Sender} (reporting : s.Reporting) (now : Instant) :
    (s.onTimer now).Reporting :=
  reporting.append (onTimer_controlQueue s now) (lateRequest_isReport s now)

theorem Reporting.handleNak {s : Sender} (reporting : s.Reporting) (now : Instant)
    (ranges : List LossRange) : (s.handleNak now ranges).Reporting := by
  have one {t next : Sender} {range : LossRange} (before : t.Reporting)
      (accepted : t.nakRange range = some next) : next.Reporting := by
    unfold nakRange at accepted
    dsimp only at accepted
    split_ifs at accepted
    · cases accepted
      exact before.of_controlQueue_eq rfl
    · cases accepted
      exact before.of_controlQueue_eq rfl
    · cases accepted
      refine before.append rfl ?_
      intro message member
      rw [List.mem_singleton.mp member]
      rfl
    · cases accepted
      exact before
  unfold Sender.handleNak
  induction ranges generalizing s with
  | nil => exact reporting.of_controlQueue_eq rfl
  | cons range rest ih =>
      unfold nakRanges
      cases accepted : s.nakRange range with
      | none => exact reporting.of_controlQueue_eq rfl
      | some next => exact ih (one reporting accepted)

theorem Reporting.pollControl {s : Sender} (reporting : s.Reporting) :
    s.pollControl.1.Reporting ∧
      forall message, s.pollControl.2 = some message -> message.isReport := by
  constructor
  · intro message member
    exact reporting message (List.mem_of_mem_tail member)
  · intro message found
    exact reporting message (List.mem_of_mem_head? found)

end Sender

end Rsrt
