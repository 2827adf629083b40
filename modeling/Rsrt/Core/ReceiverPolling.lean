import Rsrt.Core.ReceiverWindow

namespace Rsrt

/-!
# Draining the receiver

A request for the next payload that returns nothing has looked at the first packet that
is held, and found it too early.  Nothing becomes due before the deadline that the
receiver then names, and its timer does nothing before that deadline but roll the loss
report forward.  Once the timer has run, both of its alarms lie ahead.
-/

namespace Receiver

/-- The first packet that is held. -/
def nextHeld (r : Receiver) : Option Slot := (r.slots.drop r.scanHint).findSome? id

/-- The first packet that is held is not due. -/
def NothingDue (r : Receiver) (t : Instant) : Prop :=
  forall anchor slot, r.anchor = some anchor -> r.nextHeld = some slot ->
    t < r.tsbpdDeadline anchor slot.extUs

section Scan

/-- The index and the value of the first entry belong together, also when the scan starts
at the index. -/
theorem findSome_of_findIdx {α : Type} {entries : List (Option α)} {index : Nat}
    (found : entries.findIdx? Option.isSome = some index) :
    Exists fun value => (entries[index]?).join = some value ∧
      entries.findSome? id = some value ∧ (entries.drop index).findSome? id = some value := by
  induction entries generalizing index with
  | nil => cases found
  | cons entry rest ih =>
      rw [List.findIdx?_cons] at found
      cases entry with
      | some value =>
          cases found
          exact ⟨value, rfl, rfl, rfl⟩
      | none =>
          rcases Option.map_eq_some_iff.mp found with ⟨earlier, deeper, rfl⟩
          exact ih deeper

theorem findSome_of_findIdx_none {α : Type} {entries : List (Option α)}
    (absent : entries.findIdx? Option.isSome = none) : entries.findSome? id = none := by
  rw [List.findIdx?_eq_none_iff] at absent
  rw [List.findSome?_eq_none_iff]
  intro entry member
  have hole := absent entry member
  cases entry with
  | none => rfl
  | some value => cases hole

variable {r : Receiver}

theorem nextHeld_of_firstOccupied {first : Nat} (found : r.firstOccupied = some first) :
    Exists fun slot => slotAt r.slots first = some slot ∧ r.nextHeld = some slot ∧
      nextHeld { r with scanHint := first } = some slot := by
  rcases Option.map_eq_some_iff.mp found with ⟨index, scanned, rfl⟩
  rcases findSome_of_findIdx scanned with ⟨slot, content, here, onward⟩
  rw [List.getElem?_drop] at content
  rw [List.drop_drop] at onward
  exact ⟨slot, content, here, onward⟩

theorem lt_length_of_slotAt {slots : List (Option Slot)} {index : Nat} {slot : Slot}
    (content : slotAt slots index = some slot) : index < slots.length := by
  by_contra past
  rw [slotAt_eq_none_of_length_le (not_lt.mp past)] at content
  cases content

theorem nextHeld_of_firstOccupied_none (absent : r.firstOccupied = none) : r.nextHeld = none :=
  findSome_of_findIdx_none (Option.map_eq_none_iff.mp absent)

end Scan

/-! ## Delivery -/

section Delivery

variable {r r' : Receiver} {anchor : Anchor} {now t : Instant}

theorem tsbpdDeadline_of_outside_eq (same : r'.outside = r.outside) :
    r'.tsbpdDeadline = r.tsbpdDeadline := by
  have deadline : r'.outside.tsbpdDeadline = r.outside.tsbpdDeadline := congrArg tsbpdDeadline same
  exact deadline

/-- The loop stops by itself, at a packet that is not due. -/
theorem deliverLoop_stops {turns : Nat} (enough : r.slots.length < turns)
    (nothing : (deliverLoop anchor now turns r).2 = none) :
    forall slot, (deliverLoop anchor now turns r).1.nextHeld = some slot ->
      now < r.tsbpdDeadline anchor slot.extUs := by
  induction turns generalizing r with
  | zero => exact absurd enough (Nat.not_lt_zero _)
  | succ turns ih =>
      cases found : r.firstOccupied with
      | none =>
          rw [deliverLoop_none found]
          intro slot held
          unfold nextHeld at held
          rw [List.drop_length] at held
          cases held
      | some first =>
          rcases nextHeld_of_firstOccupied found with ⟨slot, content, _, onward⟩
          rw [deliverLoop_turn found content] at nothing ⊢
          split_ifs at nothing ⊢ with early concealed
          · intro other held
            rw [onward] at held
            cases held
            exact early
          · have inside := lt_length_of_slotAt content
            have shorter : (({ r with scanHint := first }).popSlot first).slots.length =
              r.slots.length - first - 1 := popSlot_length { r with scanHint := first } first
            have same : (({ r with scanHint := first }).popSlot first).countDropped.tsbpdDeadline =
                r.tsbpdDeadline :=
              tsbpdDeadline_of_outside_eq (popSlot_outside { r with scanHint := first } first)
            rw [← same]
            apply ih _ nothing
            change (({ r with scanHint := first }).popSlot first).slots.length < turns
            omega

/-- A request that returns nothing leaves nothing due. -/
theorem pollDeliver_nothingDue (nothing : (r.pollDeliver now).2 = none) :
    (r.pollDeliver now).1.NothingDue now := by
  intro anchor slot anchored held
  have outside := pollDeliver_outside r now
  have same : (r.pollDeliver now).1.outside.anchor = r.outside.anchor :=
    congrArg Receiver.anchor outside
  rw [tsbpdDeadline_of_outside_eq outside]
  replace anchored : r.anchor = some anchor := same.symm.trans anchored
  unfold pollDeliver at nothing held
  rw [anchored] at nothing held
  exact deliverLoop_stops (Nat.lt_succ_self _) nothing slot held

/-- With nothing due a request returns nothing. -/
theorem pollDeliver_of_nothingDue (early : r.NothingDue t) : (r.pollDeliver t).2 = none := by
  unfold pollDeliver
  cases anchored : r.anchor with
  | none => rfl
  | some anchor =>
      dsimp only
      cases found : r.firstOccupied with
      | none => rw [deliverLoop, found]
      | some first =>
          rcases nextHeld_of_firstOccupied found with ⟨slot, content, held, _⟩
          rw [deliverLoop_turn found content, if_pos (early anchor slot anchored held)]

end Delivery

/-! ## Timers -/

section Timers

variable {r : Receiver} {now t : Instant}

/-- The deadline of the receiver lies ahead exactly if its alarms do and nothing is due. -/
theorem nextDeadline_ahead (later : now ≤ t) :
    t < r.nextDeadline now ↔
      t < r.nextFullAck ∧ (r.loss ≠ [] -> t < r.nextNakTime) ∧ r.NothingDue t := by
  have alarms : t < (if r.loss = [] then r.nextFullAck else min r.nextFullAck r.nextNakTime) ↔
      t < r.nextFullAck ∧ (r.loss ≠ [] -> t < r.nextNakTime) := by
    split_ifs with complete
    · exact (and_iff_left fun lossy => absurd complete lossy).symm
    · rw [lt_min_iff, forall_prop_of_true complete]
  unfold nextDeadline
  dsimp only
  rw [lt_max_iff, or_iff_left (not_lt.mpr later), ← and_assoc, ← alarms]
  split
  case h_1 anchor slot anchored held =>
    rw [lt_min_iff]
    apply and_congr_right'
    constructor
    · intro early anchor' slot' anchored' held'
      rw [anchored] at anchored'
      rw [show r.nextHeld = some slot from held] at held'
      cases anchored'
      cases held'
      exact early
    · intro nothingDue
      exact nothingDue anchor slot anchored held
  case h_2 free =>
    refine (and_iff_left ?_).symm
    intro anchor slot anchored held
    exact absurd held (free anchor slot anchored)

/-- Before its deadline the timer only rolls the loss report forward. -/
theorem onTimer_of_ahead (acks : t < r.nextFullAck) (naks : r.loss ≠ [] -> t < r.nextNakTime) :
    Exists fun nextNakTime => r.onTimer t = { r with nextNakTime } := by
  have unacked : r.ackTimer t = r := by
    unfold ackTimer
    exact if_neg (not_le.mpr acks)
  unfold onTimer nakTimer
  rw [unacked]
  split_ifs with complete due
  · exact ⟨_, rfl⟩
  · exact absurd (naks complete) (not_lt.mpr due)
  · exact ⟨r.nextNakTime, rfl⟩

theorem queueNak_nakInterval (ranges : List LossRange) (paced : 0 < r.nakInterval) :
    0 < (r.queueNak ranges).nakInterval := by
  unfold queueNak
  split_ifs
  · exact paced
  · have least : 0 < nakMinInterval := by decide
    exact lt_of_lt_of_le least (le_max_right _ _)

theorem queueFullAck_nakInterval (r : Receiver) (now : Instant) :
    (r.queueFullAck now).nakInterval = r.nakInterval := by
  unfold queueFullAck emitFullAckUnlessConfirmed emitFullAck
  dsimp only
  split_ifs <;> rfl

theorem ackTimer_nakInterval (r : Receiver) (now : Instant) :
    (r.ackTimer now).nakInterval = r.nakInterval := by
  unfold ackTimer
  split_ifs
  · exact queueFullAck_nakInterval r now
  · rfl

theorem onTimer_nakInterval (paced : 0 < r.nakInterval) (now : Instant) :
    0 < (r.onTimer now).nakInterval := by
  rw [← ackTimer_nakInterval r now] at paced
  unfold onTimer nakTimer
  split_ifs
  · exact paced
  · exact queueNak_nakInterval _ paced
  · exact paced

theorem nakInterval_of_outside_eq {r' : Receiver} (same : r'.outside = r.outside) :
    r'.nakInterval = r.nakInterval := by
  have interval : r'.outside.nakInterval = r.outside.nakInterval :=
    congrArg Receiver.nakInterval same
  exact interval

theorem storeData_nakInterval (paced : 0 < r.nakInterval) (pkt : DataPacket) (extUs : Nat)
    (undecryptable : Bool) : 0 < (r.storeData pkt extUs undecryptable).nakInterval := by
  have gap (r : Receiver) (paced : 0 < r.nakInterval) :
      0 < (r.detectGap pkt.seq undecryptable).nakInterval := by
    unfold detectGap
    dsimp only
    split_ifs
    · exact queueNak_nakInterval _ paced
    · exact paced
  have noted (r : Receiver) : (r.noteArrival pkt.seq).nakInterval = r.nakInterval := by
    unfold noteArrival
    split_ifs <;> rfl
  unfold storeData
  dsimp only
  split_ifs
  · exact paced
  · exact paced
  · exact paced
  · exact paced
  · change 0 < (noteArrival _ pkt.seq).nakInterval
    rw [noted]
    exact gap _ paced

theorem ingest_nakInterval (paced : 0 < r.nakInterval) (now : Instant) (pkt : DataPacket)
    (undecryptable : Bool) : 0 < (r.ingest now pkt undecryptable).nakInterval := by
  have clocked (r : Receiver) : r.selfClock.nakInterval = r.nakInterval := by
    unfold selfClock queueLightAck
    dsimp only
    split_ifs <;> rfl
  unfold ingest
  split_ifs
  · exact paced
  · dsimp only
    rw [clocked]
    apply storeData_nakInterval
    exact paced

end Timers

end Receiver

end Rsrt
