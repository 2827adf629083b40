import Rsrt.Core.ReceiverSession

namespace Rsrt
namespace Receiver

open Rsrt.Basis Rsrt.Basis.Intervals SeqNumber

/-!
# Announced drops and the capacity guard

A DROPREQ moves the receive cursor past the range it announces, but it does not
move the base.  The capacity check of a data packet is relative to the base, so
with an empty buffer the packet after a long announced range still lands beyond
the capacity and trips the guard against an unrecoverable sequence discrepancy.
-/

theorem nothingBuffered_of_empty {r : Receiver}
    (empty : forall index, slotAt r.slots index = none) : r.nothingBuffered = true := by
  refine List.all_eq_true.mpr ?_
  intro entry member
  rcases List.mem_iff_getElem?.mp (List.mem_of_mem_drop member) with ⟨index, located⟩
  have content := empty index
  unfold slotAt at content
  rw [located] at content
  exact Option.isNone_iff_eq_none.mpr content

theorem slotAt_occupy {r : Receiver} {index : Nat} (inside : index < r.slots.length)
    (slot : Slot) : slotAt (r.occupy index slot).slots index = some slot := by
  rw [show (r.occupy index slot).slots = r.slots.set index (some slot) from rfl,
    slotAt_set inside, if_pos rfl]

theorem selfClock_discrepancy (r : Receiver) : r.selfClock.discrepancy = r.discrepancy := by
  unfold selfClock queueLightAck
  dsimp only
  split_ifs <;> rfl

/-- Storing into an empty buffer, within the capacity. -/
theorem storeData_of_fits {r : Receiver} (empty : forall index, slotAt r.slots index = none)
    (pkt : DataPacket) (extUs : Nat) (undecryptable : Bool) (ahead : 0 ≤ pkt.seq.diff r.baseSeq)
    (fits : (pkt.seq.diff r.baseSeq).toNat < r.cfg.bufferPkts) :
    slotAt (r.storeData pkt extUs undecryptable).slots (pkt.seq.diff r.baseSeq).toNat =
        some (slotOf pkt extUs undecryptable) ∧
      (r.storeData pkt extUs undecryptable).discrepancy = r.discrepancy := by
  have vacant (size index : Nat) : (slotAt (resizeSlots r.slots size) index).isSome = false := by
    rw [slotAt_resizeSlots, empty]
    rfl
  unfold storeData
  simp only [if_neg (not_lt.mpr ahead), if_neg (not_le.mpr fits), vacant, Bool.false_eq_true,
    if_false]
  generalize ahead : (pkt.seq.diff r.baseSeq).toNat = index
  generalize resized : { r with slots := resizeSlots r.slots (index + 1) } = r₁
  have ⟨slots, _, flag⟩ := noteArrival_detectGap r₁ pkt.seq undecryptable
  refine ⟨slotAt_occupy ?_ _, ?_⟩
  · rw [slots, ← resized]
    show index < (resizeSlots r.slots (index + 1)).length
    rw [length_resizeSlots]
    omega
  · refine flag.trans ?_
    rw [← resized]

/-- Beyond the capacity of an empty buffer the packet only raises the flag. -/
theorem storeData_of_beyond {r : Receiver} (empty : forall index, slotAt r.slots index = none)
    (pkt : DataPacket) (extUs : Nat) (undecryptable : Bool) (ahead : 0 ≤ pkt.seq.diff r.baseSeq)
    (beyond : r.cfg.bufferPkts ≤ (pkt.seq.diff r.baseSeq).toNat) :
    r.storeData pkt extUs undecryptable = { r with discrepancy := true } := by
  unfold storeData
  simp only [if_neg (not_lt.mpr ahead), if_pos beyond, nothingBuffered_of_empty empty, if_true]

/-- The slot that a data packet would occupy after the timestamps are extended. -/
def arrivingSlot (r : Receiver) (now : Instant) (pkt : DataPacket) : Slot :=
  slotOf pkt (r.extender.extend pkt.timestamp now).2 false

/-- Data arriving at an empty buffer: stored within the capacity, and flagged as
an unrecoverable discrepancy beyond it. -/
theorem handleData_of_empty {r : Receiver} (empty : forall index, slotAt r.slots index = none)
    (now : Instant) {pkt : DataPacket} (admissible : pkt.payload.length ≤ r.maxPayload)
    (ahead : 0 ≤ pkt.seq.diff r.baseSeq) :
    ((pkt.seq.diff r.baseSeq).toNat < r.cfg.bufferPkts ->
        slotAt (r.handleData now pkt).slots (pkt.seq.diff r.baseSeq).toNat =
            some (r.arrivingSlot now pkt) ∧
          (r.handleData now pkt).discrepancy = r.discrepancy) ∧
      (r.cfg.bufferPkts ≤ (pkt.seq.diff r.baseSeq).toNat ->
        (r.handleData now pkt).slots = r.slots ∧ (r.handleData now pkt).discrepancy = true) := by
  generalize observed : ((r.countArrival pkt).observeTimestamp now pkt.timestamp).1 = r₁
  have same : r₁.buffer = r.buffer := by
    rw [← observed]
    rfl
  have base : r₁.baseSeq = r.baseSeq := congrArg Buffer.baseSeq same
  have slots : r₁.slots = r.slots := congrArg Buffer.slots same
  have cfg : r₁.cfg = r.cfg := congrArg Buffer.cfg same
  have flag : r₁.discrepancy = r.discrepancy := by
    rw [← observed]
    rfl
  have unfolded : r.handleData now pkt =
      (r₁.storeData pkt (r.extender.extend pkt.timestamp now).2 false).selfClock := by
    unfold handleData ingest
    rw [if_neg (not_lt.mpr admissible), ← observed]
    rfl
  have clocked := congrArg Buffer.slots
    (selfClock_buffer (r₁.storeData pkt (r.extender.extend pkt.timestamp now).2 false))
  rw [unfolded, selfClock_discrepancy,
    show (r₁.storeData pkt (r.extender.extend pkt.timestamp now).2 false).selfClock.slots =
      (r₁.storeData pkt (r.extender.extend pkt.timestamp now).2 false).slots from clocked,
    ← base, ← cfg, ← flag, ← slots]
  rw [← slots] at empty
  rw [← base] at ahead
  constructor
  · exact storeData_of_fits empty pkt _ false ahead
  · intro beyond
    rw [storeData_of_beyond empty pkt _ false ahead beyond]
    exact ⟨rfl, rfl⟩

/-- A DROPREQ by range only moves the cursor and trims the loss list. -/
theorem handleDropreq_by_range (r : Receiver) (now : Instant) (first last : SeqNumber) :
    (r.handleDropreq now (MsgNumber.new 0) first last).slots = r.slots ∧
      (r.handleDropreq now (MsgNumber.new 0) first last).baseSeq = r.baseSeq := by
  have zero : (MsgNumber.new 0).value = 0 := rfl
  unfold handleDropreq
  simp only [if_pos zero]
  split_ifs <;> exact ⟨rfl, rfl⟩

/-- After a DROPREQ by range that passes the receive cursor, reaching an empty
buffer, the packet that follows the range is stored without raising the
discrepancy flag if it lies less than the capacity ahead of the base; otherwise
it is not stored and the flag is raised.  Where the range starts does not
matter. -/
theorem handleData_after_dropreq {s : Session} (reachable : machine.Reachable s)
    (empty : forall index, slotAt s.receiver.slots index = none)
    (clean : s.receiver.sequenceDiscrepancy = false)
    (first : SeqNumber) {last : SeqNumber} (upper : Within s.receiver.baseSeq last)
    (passes : 0 < last.diff s.receiver.rcvCurrSeq)
    (dropped now : Instant) {pkt : DataPacket} (follows : pkt.seq = last.next)
    (admissible : pkt.payload.length ≤ s.receiver.maxPayload) :
    let r := s.receiver.handleDropreq dropped (MsgNumber.new 0) first last
    let after := r.handleData now pkt
    (s.receiver.offset last + 1 < s.receiver.cfg.bufferPkts ->
        slotAt after.slots (after.offset pkt.seq).toNat = some (r.arrivingSlot now pkt) ∧
          after.sequenceDiscrepancy = false) ∧
      (s.receiver.cfg.bufferPkts ≤ s.receiver.offset last + 1 ->
        (forall index, slotAt after.slots index = none) ∧ after.sequenceDiscrepancy = true) := by
  rcases reachable_tracked reachable with ⟨w, tracked⟩
  intro r after
  have kept := handleDropreq_by_range s.receiver dropped first last
  have alike := handleDropreq_outside s.receiver dropped (MsgNumber.new 0) first last
  have cfg := congrArg Receiver.cfg alike
  have flag := (congrArg Receiver.discrepancy alike).trans clean
  have size := congrArg Receiver.maxPayload alike
  change r.cfg = s.receiver.cfg at cfg
  change r.maxPayload = s.receiver.maxPayload at size
  have base : r.baseSeq = s.receiver.baseSeq := kept.2
  have slots : r.slots = s.receiver.slots := kept.1
  have distance : pkt.seq.diff r.baseSeq = s.receiver.offset last + 1 := by
    have near := tracked.unwrap_near upper
    have start := tracked.tracks.diff_base near.1 (by omega)
    have stop := @Tracks.diff_base _ _ _ tracked.tracks (s.unwrap last + 1) (by omega) (by omega)
    rw [tracked.wire_unwrap] at start
    rw [← next_wire, tracked.wire_unwrap] at stop
    rw [follows, base, stop, offset, start]
    omega
  have ahead : 0 ≤ pkt.seq.diff r.baseSeq := by
    have near := tracked.unwrap_near upper
    have start := tracked.tracks.diff_base near.1 (by omega)
    have bottom := w.base_le
    have span := tracked.tracks.span
    rw [tracked.wire_unwrap] at start
    rw [distance, offset, start]
    rw [← tracked.wire_unwrap last, tracked.tracks.rcvCurrSeq,
      diff_wire _ (by omega) (by omega)] at passes
    omega
  have rebased := congrArg Receiver.baseSeq (ingest_arrivalFrame r now pkt false)
  change after.baseSeq = r.baseSeq at rebased
  have outcome := handleData_of_empty (r := r) (slots ▸ empty) now (size ▸ admissible) ahead
  have located : after.offset pkt.seq = pkt.seq.diff r.baseSeq := by
    rw [offset, rebased]
  rw [cfg] at outcome
  rw [located]
  refine ⟨?_, ?_⟩
  · intro fits
    have stored := outcome.1 (by omega)
    exact ⟨stored.1, stored.2.trans flag⟩
  · intro beyond
    have refused := outcome.2 (by omega)
    refine ⟨?_, refused.2⟩
    intro index
    show slotAt (r.handleData now pkt).slots index = none
    rw [refused.1, slots]
    exact empty index

/-- Ten packets are announced as dropped to a receiver of four; the next packet
then breaks the connection. -/
theorem dropreq_beyond_capacity :
    let s := Session.new 0 ⟨SeqNumber.new 100, 1000000, 4⟩
    let r := s.receiver.handleDropreq 0 (MsgNumber.new 0) (SeqNumber.new 100) (SeqNumber.new 109)
    let after := r.handleData 0 (plainPacket (SeqNumber.new 110) 0 [1])
    machine.Reachable s ∧ s.receiver.slots = [] ∧ s.receiver.sequenceDiscrepancy = false ∧
      Within s.receiver.baseSeq (SeqNumber.new 100) ∧
      Within s.receiver.baseSeq (SeqNumber.new 109) ∧
      (SeqNumber.new 100).diff s.receiver.rcvCurrSeq.next ≤ 0 ∧
      0 < (SeqNumber.new 109).diff s.receiver.rcvCurrSeq ∧
      SeqNumber.new 110 = (SeqNumber.new 109).next ∧
      [1].length ≤ s.receiver.maxPayload ∧
      (forall index, slotAt after.slots index = none) ∧ after.sequenceDiscrepancy = true := by
  refine ⟨⟨[], .start (start_new 0 _)⟩, by decide +kernel, by decide +kernel, by decide +kernel,
    by decide +kernel, by decide +kernel, by decide +kernel, by decide +kernel,
    by decide +kernel, ?_, by decide +kernel⟩
  intro index
  have nothing : (((Session.new 0 ⟨SeqNumber.new 100, 1000000, 4⟩).receiver.handleDropreq 0
      (MsgNumber.new 0) (SeqNumber.new 100) (SeqNumber.new 109)).handleData 0
        (plainPacket (SeqNumber.new 110) 0 [1])).slots = [] := by
    decide +kernel
  rw [nothing]
  rfl

theorem handleData_after_dropreq_fits :
    let s := Session.new 0 ⟨SeqNumber.new 100, 1000000, 16⟩
    let r := s.receiver.handleDropreq 0 (MsgNumber.new 0) (SeqNumber.new 100) (SeqNumber.new 109)
    let after := r.handleData 0 (plainPacket (SeqNumber.new 110) 0 [1])
    slotAt after.slots (after.offset (SeqNumber.new 110)).toNat =
        some (r.arrivingSlot 0 (plainPacket (SeqNumber.new 110) 0 [1])) ∧
      after.sequenceDiscrepancy = false :=
  (@handleData_after_dropreq (Session.new 0 ⟨SeqNumber.new 100, 1000000, 16⟩)
    ⟨[], .start (start_new 0 _)⟩ (fun _ => rfl) (by decide +kernel)
    (SeqNumber.new 100) (SeqNumber.new 109) (by decide +kernel) (by decide +kernel) 0 0
    (plainPacket (SeqNumber.new 110) 0 [1]) (by decide +kernel) (by decide +kernel)).1
      (by decide +kernel)

end Receiver
end Rsrt
