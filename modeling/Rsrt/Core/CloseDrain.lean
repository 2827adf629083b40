import Mathlib.Data.List.ReduceOption
import Rsrt.Core.StackLog
import Rsrt.Core.Wakeup

namespace Rsrt

open Rsrt.Basis

/-!
# A close drains what was received

A closed connection keeps its receiver, and the driver polls it at a horizon that lies
past every deadline.  Three facts make that drain complete.  The hint of the scan never
points past a packet that is held.  The time base is set before the first packet is
held, at an instant that has passed.  A packet that was stamped before it arrived is due
one latency after the close.

The horizon is a constant, so the last fact needs a latency that does not exceed it.
The caller's latency is a field of two bytes on the wire; the listener takes its own
from the options, which do not bound it.
-/

/-- How far past the close the driver polls. -/
def closeDrainHorizon : Duration := Duration.fromSecs 70

namespace Receiver

/-- The payloads that can still be delivered, in the order of their sequences. -/
def deliverable (slots : List (Option Slot)) : List Bytes :=
  slots.filterMap fun entry =>
    entry.bind fun slot => if slot.undecryptable then none else some slot.payload

/-- The hint is sound, and a packet is held only once the time base is set. -/
structure Shelved (r : Receiver) : Prop where
  hint_empty : forall index, index < r.scanHint -> slotAt r.slots index = none
  anchored : forall slot, some slot ∈ r.slots -> r.anchor ≠ none

/-- Every packet was stamped before it arrived, by the clock that the anchor fixes, and
the clocks have not drifted apart towards later deadlines. -/
structure Timely (r : Receiver) (now : Instant) : Prop where
  correction : r.drift.correctionUs ≤ 0
  stamped : forall anchor slot, r.anchor = some anchor -> some slot ∈ r.slots ->
    Exists fun arrival => arrival ≤ now ∧
      slot.extUs ≤
        anchor.extUs + Duration.asMicros (Instant.saturatingDurationSince arrival anchor.instant)

/-! ## What the calls do to the receiver -/

/-- What a call of the components makes of the receiver. -/
inductive Serves (r : Receiver) : Stack.Call -> Receiver -> Prop
  | rest (call : Stack.Call) : Serves r call r
  | data (now : Instant) (packet pkt : DataPacket) (undecryptable : Bool) :
      Serves r (.data now packet) (r.ingest now pkt undecryptable)
  | ackAck (now : Instant) (ackNumber : Nat) (ts : Timestamp) :
      Serves r (.ackAck now ackNumber ts) (r.handleAckack now ackNumber ts)
  | dropRequest (now : Instant) (msgNumber : MsgNumber) (first last : SeqNumber) :
      Serves r (.dropRequest now msgNumber first last) (r.handleDropreq now msgNumber first last)
  | timer (now : Instant) : Serves r (.timer now) (r.onTimer now)
  | anchor (instant : Instant) (ts : Timestamp) :
      Serves r (.anchor instant ts) (r.setHsAnchor instant ts)
  | transmit (now : Instant) : Serves r (.transmit now) (r.pollControl now).1
  | deliver (now : Instant) : Serves r (.deliver now) (r.pollDeliver now).1

end Receiver

theorem Stack.call_serves {P : Primitives} (stack : Stack) (call : Stack.Call) :
    stack.receiver.Serves call (stack.call P call).receiver := by
  cases call with
  | push now payload =>
      rw [Stack.call_push_receiver]
      exact .rest _
  | data now packet =>
      rcases stack with ⟨sender, receiver, crypto⟩
      change receiver.Serves _ (Connection.ingestData P now receiver crypto packet).1
      rcases Connection.ingestData_arrives P now receiver crypto packet with ⟨pkt, lost, _, _, same⟩
      rw [same]
      exact .data now packet pkt lost
  | ack now ackNumber cif fresh =>
      rw [Stack.call_ack_receiver]
      exact .rest _
  | nak now ranges => exact .rest _
  | ackAck now ackNumber ts => exact .ackAck now ackNumber ts
  | dropRequest now msgNumber first last => exact .dropRequest now msgNumber first last
  | kmReq payload => exact .rest _
  | kmRsp payload => exact .rest _
  | timer now => exact .timer now
  | anchor instant ts => exact .anchor instant ts
  | transmit now =>
      change stack.receiver.Serves _ (stack.poll now).1.receiver
      rw [Stack.poll_receiver]
      exact .transmit now
  | deliver now => exact .deliver now

namespace Receiver

variable {r r' : Receiver}

/-! ### The time base -/

theorem selfClock_anchor (r : Receiver) : r.selfClock.anchor = r.anchor := by
  unfold selfClock queueLightAck
  split_ifs <;> first | rfl | (dsimp only; split_ifs <;> rfl)

theorem storeData_anchor (r : Receiver) (pkt : DataPacket) (extUs : Nat) (undecryptable : Bool) :
    (r.storeData pkt extUs undecryptable).anchor = r.anchor := by
  have revealed (s : Receiver) : (s.detectGap pkt.seq undecryptable).anchor = s.anchor := by
    unfold detectGap queueNak
    dsimp only
    split_ifs <;> rfl
  have noted (s : Receiver) : (s.noteArrival pkt.seq).anchor = s.anchor := by
    unfold noteArrival
    split_ifs <;> rfl
  unfold storeData
  dsimp only
  split_ifs
  · rfl
  · rfl
  · rfl
  · rfl
  · change (noteArrival _ _).anchor = _
    rw [noted, revealed]

/-- An arrival sets the time base if it is not set. -/
theorem ingest_anchor (r : Receiver) (now : Instant) (pkt : DataPacket) (undecryptable : Bool) :
    (r.ingest now pkt undecryptable).anchor = r.anchor ∨
      r.anchor = none ∧ Exists fun extUs =>
        (r.ingest now pkt undecryptable).anchor = some ⟨now, extUs⟩ := by
  unfold ingest
  split_ifs
  · exact Or.inl rfl
  · dsimp only
    rw [selfClock_anchor, storeData_anchor]
    rcases r.anchor.eq_none_or_eq_some with unset | ⟨anchor, set⟩
    · refine Or.inr ⟨unset, (r.extender.extend pkt.timestamp now).2, ?_⟩
      unfold observeTimestamp countArrival
      dsimp only
      rw [unset]
    · apply Or.inl
      unfold observeTimestamp countArrival
      dsimp only
      rw [set]

theorem onTimer_anchor (r : Receiver) (now : Instant) : (r.onTimer now).anchor = r.anchor := by
  have confirmed (s : Receiver) : (s.emitFullAckUnlessConfirmed now).anchor = s.anchor := by
    unfold emitFullAckUnlessConfirmed
    split_ifs <;> rfl
  have acked (s : Receiver) : (s.queueFullAck now).anchor = s.anchor := by
    unfold queueFullAck
    dsimp only
    split_ifs <;> first | rfl | exact confirmed _
  have reported (s : Receiver) (ranges : List LossRange) :
      (s.queueNak ranges).anchor = s.anchor := by
    unfold queueNak
    split_ifs <;> rfl
  have timed : (r.ackTimer now).anchor = r.anchor := by
    unfold ackTimer
    split_ifs
    · exact acked r
    · rfl
  rw [← timed]
  unfold onTimer nakTimer
  split_ifs
  · rfl
  · exact reported _ _
  · rfl

theorem pollDeliver_anchor (r : Receiver) (now : Instant) :
    (r.pollDeliver now).1.anchor = r.anchor := by
  have outside : (r.pollDeliver now).1.outside.anchor = r.outside.anchor :=
    congrArg Receiver.anchor (pollDeliver_outside r now)
  exact outside

end Receiver

/-- The instant at which a call may set the time base. -/
def Stack.Call.moment : Stack.Call -> Option Instant
  | .data now _ => some now
  | .anchor instant _ => some instant
  | _ => none

namespace Receiver

variable {r r' : Receiver}

/-- The time base is set once. -/
theorem Serves.anchor_eq {call : Stack.Call} (serves : r.Serves call r') :
    r'.anchor = r.anchor ∨
      r.anchor = none ∧ Exists fun instant => Exists fun extUs =>
        call.moment = some instant ∧ r'.anchor = some ⟨instant, extUs⟩ := by
  cases serves with
  | rest call => exact Or.inl rfl
  | data now packet pkt undecryptable =>
      rcases r.ingest_anchor now pkt undecryptable with same | ⟨unset, extUs, set⟩
      · exact Or.inl same
      · exact Or.inr ⟨unset, now, extUs, rfl, set⟩
  | ackAck now ackNumber ts =>
      exact Or.inl (handleAckack_keeps Receiver.anchor (fun _ _ _ _ _ _ _ _ _ => rfl) r now _ ts)
  | dropRequest now msgNumber first last =>
      have outside : (r.handleDropreq now msgNumber first last).outside.anchor = r.outside.anchor :=
        congrArg Receiver.anchor (r.handleDropreq_outside now msgNumber first last)
      exact Or.inl outside
  | timer now => exact Or.inl (r.onTimer_anchor now)
  | anchor instant ts =>
      unfold setHsAnchor
      rcases r.anchor.eq_none_or_eq_some with unset | ⟨anchor, set⟩
      · refine Or.inr ⟨unset, instant, (r.extender.extend ts instant).2, rfl, ?_⟩
        rw [unset]
      · apply Or.inl
        rw [set]
        exact set
  | transmit now =>
      apply Or.inl
      unfold pollControl
      split <;> rfl
  | deliver now => exact Or.inl (r.pollDeliver_anchor now)

theorem Serves.anchored {call : Stack.Call} (serves : r.Serves call r') (set : r.anchor ≠ none) :
    r'.anchor = r.anchor := by
  rcases serves.anchor_eq with same | ⟨unset, _⟩
  · exact same
  · exact absurd unset set

/-! ### The hint -/

/-- Calls that keep the buffer keep the hint sound. -/
theorem Shelved.of_buffer_eq (shelved : r.Shelved) (same : r'.buffer = r.buffer)
    (kept : r.anchor ≠ none -> r'.anchor ≠ none) : r'.Shelved := by
  have slots : r'.slots = r.slots := congrArg Buffer.slots same
  have hint : r'.scanHint = r.scanHint := congrArg Buffer.scanHint same
  constructor
  · rw [slots, hint]
    exact shelved.hint_empty
  · intro slot member
    exact kept (shelved.anchored slot (slots ▸ member))

theorem storeData_hint_empty
    (hint_empty : forall index, index < r.scanHint -> slotAt r.slots index = none)
    (pkt : DataPacket) (extUs : Nat) (undecryptable : Bool) :
    forall index, index < (r.storeData pkt extUs undecryptable).scanHint ->
      slotAt (r.storeData pkt extUs undecryptable).slots index = none := by
  unfold storeData
  dsimp only
  split_ifs
  · exact hint_empty
  · exact hint_empty
  · exact hint_empty
  · intro index below
    rw [slotAt_resizeSlots]
    exact hint_empty index below
  · -- The packet takes a slot at or after the new hint.
    intro index below
    unfold occupy at below ⊢
    dsimp only at below ⊢
    rw [(noteArrival_detectGap _ _ _).2.1] at below
    rw [(noteArrival_detectGap _ _ _).1, slotAt_set, if_neg, slotAt_resizeSlots]
    · exact hint_empty index (lt_of_lt_of_le below (min_le_left _ _))
    · exact Nat.ne_of_lt (lt_of_lt_of_le below (min_le_right _ _))
    · dsimp only
      rw [length_resizeSlots]
      exact lt_of_lt_of_le (Nat.lt_succ_self _) (le_max_right _ _)

theorem Shelved.ingest (shelved : r.Shelved) (now : Instant) (pkt : DataPacket)
    (undecryptable : Bool) : (r.ingest now pkt undecryptable).Shelved := by
  unfold Receiver.ingest
  split_ifs
  · exact shelved.of_buffer_eq rfl id
  · have set : ((r.countArrival pkt).observeTimestamp now pkt.timestamp).1.anchor ≠ none := nofun
    have stored := storeData_hint_empty (r := ((r.countArrival pkt).observeTimestamp now
      pkt.timestamp).1) shelved.hint_empty pkt (r.extender.extend pkt.timestamp now).2 undecryptable
    have clocked := selfClock_buffer
      (((r.countArrival pkt).observeTimestamp now pkt.timestamp).1.storeData pkt
        (r.extender.extend pkt.timestamp now).2 undecryptable)
    have slots := congrArg Buffer.slots clocked
    have hint := congrArg Buffer.scanHint clocked
    dsimp only
    constructor
    · intro index below
      exact (congrArg (slotAt · index) slots).trans (stored index (lt_of_lt_of_eq below hint))
    · intro slot _
      rw [selfClock_anchor, storeData_anchor]
      exact set

theorem handleDropreq_slotAt (now : Instant) (msgNumber : MsgNumber) (first last : SeqNumber)
    {index : Nat} (hole : slotAt r.slots index = none) :
    slotAt (r.handleDropreq now msgNumber first last).slots index = none := by
  have dropped (lo hi : Int) : slotAt (dropMessage msgNumber lo hi r.slots) index = none := by
    rw [slotAt_dropMessage, hole]
    rfl
  unfold handleDropreq
  dsimp only
  split_ifs
  · exact hole
  · exact hole
  · exact hole
  · exact dropped _ _
  · exact dropped _ _

theorem handleDropreq_scanHint (r : Receiver) (now : Instant) (msgNumber : MsgNumber)
    (first last : SeqNumber) : (r.handleDropreq now msgNumber first last).scanHint = r.scanHint := by
  unfold handleDropreq
  dsimp only
  split_ifs <;> rfl

/-- Every turn of the delivery leaves the hint at the first packet or at the front. -/
theorem deliverLoop_hint_empty
    (hint_empty : forall index, index < r.scanHint -> slotAt r.slots index = none)
    (anchor : Anchor) (now : Instant) (turns : Nat) :
    forall index, index < (deliverLoop anchor now turns r).1.scanHint ->
      slotAt (deliverLoop anchor now turns r).1.slots index = none := by
  have front (s : Receiver) (first : Nat) (index : Nat) (below : index < (s.popSlot first).scanHint) :
      slotAt (s.popSlot first).slots index = none := by
    unfold popSlot at below
    exact absurd below (Nat.not_lt_zero _)
  induction turns generalizing r with
  | zero => exact hint_empty
  | succ turns ih =>
      cases found : r.firstOccupied with
      | none =>
          rw [deliverLoop_none found]
          intro index _
          exact slotAt_eq_none_of_firstOccupied_eq_none hint_empty found index
      | some first =>
          rcases firstOccupied_eq_some hint_empty found with ⟨⟨slot, content⟩, before⟩
          rw [deliverLoop_turn found content]
          split_ifs
          · exact before
          · exact ih (front _ _)
          · exact front _ _

theorem Shelved.pollDeliver (shelved : r.Shelved) (now : Instant) :
    (r.pollDeliver now).1.Shelved := by
  constructor
  · unfold Receiver.pollDeliver
    split
    · exact shelved.hint_empty
    · exact deliverLoop_hint_empty shelved.hint_empty _ _ _
  · intro slot member
    rw [pollDeliver_anchor]
    exact shelved.anchored slot ((r.pollDeliver_slots now).1 slot member)

theorem Shelved.serves {call : Stack.Call} (shelved : r.Shelved) (serves : r.Serves call r') :
    r'.Shelved := by
  have kept (set : r.anchor ≠ none) : r'.anchor ≠ none := by
    rw [serves.anchored set]
    exact set
  cases serves with
  | rest call => exact shelved
  | data now packet pkt undecryptable => exact shelved.ingest now pkt undecryptable
  | ackAck now ackNumber ts => exact shelved.of_buffer_eq (handleAckack_buffer _ _ _ _) kept
  | dropRequest now msgNumber first last =>
      constructor
      · rw [handleDropreq_scanHint]
        intro index below
        exact handleDropreq_slotAt now msgNumber first last (shelved.hint_empty index below)
      · intro slot member
        exact kept (shelved.anchored slot (mem_handleDropreq_slots now member))
  | timer now => exact shelved.of_buffer_eq (onTimer_buffer _ _) kept
  | anchor instant ts => exact shelved.of_buffer_eq (setHsAnchor_buffer _ _ _) kept
  | transmit now => exact shelved.of_buffer_eq (pollControl_buffer _ _) kept
  | deliver now => exact shelved.pollDeliver now

theorem shelved_new (now : Instant) (cfg : ReceiverConfig) (bytes : Nat) :
    ((Receiver.new now cfg).setMaxPayload bytes).Shelved where
  hint_empty := fun _ below => absurd below (Nat.not_lt_zero _)
  anchored := nofun

/-! ## The drain -/

theorem deliverable_of_empty {slots : List (Option Slot)}
    (empty : forall slot, some slot ∉ slots) : deliverable slots = [] := by
  unfold deliverable
  rw [List.filterMap_eq_nil_iff]
  intro entry member
  cases entry with
  | none => rfl
  | some slot => exact absurd member (empty slot)

/-- Holes hold nothing to deliver. -/
theorem deliverable_drop {slots : List (Option Slot)} {count : Nat}
    (holes : forall index, index < count -> slotAt slots index = none) :
    deliverable (slots.drop count) = deliverable slots := by
  induction count generalizing slots with
  | zero => rfl
  | succ count ih =>
      cases slots with
      | nil => rfl
      | cons entry rest =>
          have hole : entry = none := holes 0 (Nat.succ_pos count)
          subst hole
          change deliverable (rest.drop count) = deliverable rest
          exact ih fun index below => holes (index + 1) (Nat.succ_lt_succ below)

/-- The packet at the first occupied slot is the first that is left. -/
theorem deliverable_first {slots : List (Option Slot)} {first : Nat} {slot : Slot}
    (content : slotAt slots first = some slot)
    (before : forall index, index < first -> slotAt slots index = none) :
    deliverable slots =
      (if slot.undecryptable then [] else [slot.payload]) ++ deliverable (slots.drop (first + 1)) := by
  have inside := lt_length_of_slotAt content
  have entry : slots[first] = some slot := by
    unfold slotAt at content
    rw [List.getElem?_eq_getElem inside] at content
    exact content
  rw [← deliverable_drop before, List.drop_eq_getElem_cons inside, entry]
  unfold deliverable
  cases concealed : slot.undecryptable with
  | true =>
      rw [List.filterMap_cons_none]
      · rfl
      · simp [concealed]
  | false =>
      rw [List.filterMap_cons_some (b := slot.payload)]
      · rfl
      · simp [concealed]

theorem popSlot_slots (r : Receiver) (first : Nat) :
    (r.popSlot first).slots = r.slots.drop (first + 1) := by
  unfold popSlot skipHole
  dsimp only
  split_ifs with hole
  · exact List.drop_drop
  · rw [Nat.eq_zero_of_not_pos hole]

/-- With everything due, the loop returns the first packet that can be delivered, and
leaves the others. -/
theorem deliverLoop_of_due {anchor : Anchor} {horizon : Instant} {turns : Nat}
    (hint_empty : forall index, index < r.scanHint -> slotAt r.slots index = none)
    (enough : r.slots.length < turns)
    (due : forall slot, some slot ∈ r.slots -> r.tsbpdDeadline anchor slot.extUs ≤ horizon) :
    deliverable r.slots = (deliverLoop anchor horizon turns r).2.toList ++
        deliverable (deliverLoop anchor horizon turns r).1.slots ∧
      ((deliverLoop anchor horizon turns r).2 = none -> deliverable r.slots = []) := by
  induction turns generalizing r with
  | zero => exact absurd enough (Nat.not_lt_zero _)
  | succ turns ih =>
      cases found : r.firstOccupied with
      | none =>
          have nothing := slotAt_eq_none_of_firstOccupied_eq_none hint_empty found
          have finished : deliverable r.slots = [] := by
            rw [← @deliverable_drop r.slots r.slots.length fun index _ => nothing index,
              List.drop_length]
            rfl
          rw [deliverLoop_none found]
          exact ⟨rfl, fun _ => finished⟩
      | some first =>
          rcases firstOccupied_eq_some hint_empty found with ⟨⟨slot, content⟩, before⟩
          have member : some slot ∈ r.slots := by
            unfold slotAt at content
            exact List.mem_of_getElem? (Option.join_eq_some_iff.mp content)
          have rest : ((({ r with scanHint := first }).popSlot first)).slots =
              r.slots.drop (first + 1) := popSlot_slots _ first
          rw [deliverLoop_turn found content, if_neg (not_lt.mpr (due slot member)),
            deliverable_first content before]
          cases concealed : slot.undecryptable with
          | true =>
              -- An undecryptable packet is passed over, and the loop goes on.
              have inside := lt_length_of_slotAt content
              have same : (({ r with scanHint := first }).popSlot first).countDropped.tsbpdDeadline =
                  r.tsbpdDeadline :=
                tsbpdDeadline_of_outside_eq (popSlot_outside { r with scanHint := first } first)
              rw [← rest, if_pos rfl, if_pos rfl, List.nil_append]
              refine ih (r := (({ r with scanHint := first }).popSlot first).countDropped) ?_ ?_ ?_
              · intro index below
                exact absurd below (Nat.not_lt_zero _)
              · change (({ r with scanHint := first }).popSlot first).slots.length < turns
                rw [rest, List.length_drop]
                omega
              · rw [same]
                intro other held
                exact due other (mem_popSlot_slots (r := { r with scanHint := first }) held)
          | false =>
              rw [← rest]
              exact ⟨rfl, fun returned => by cases returned⟩

/-- Nothing that is held plays after the horizon. -/
def DueBy (r : Receiver) (horizon : Instant) : Prop :=
  forall anchor slot, r.anchor = some anchor -> some slot ∈ r.slots ->
    r.tsbpdDeadline anchor slot.extUs ≤ horizon

theorem DueBy.pollDeliver {horizon : Instant} (due : r.DueBy horizon) (now : Instant) :
    (r.pollDeliver now).1.DueBy horizon := by
  intro anchor slot anchored member
  rw [pollDeliver_anchor] at anchored
  rw [tsbpdDeadline_of_outside_eq (pollDeliver_outside r now)]
  exact due anchor slot anchored ((r.pollDeliver_slots now).1 slot member)

theorem Shelved.pollDeliver_of_due (shelved : r.Shelved) {horizon : Instant}
    (due : r.DueBy horizon) :
    deliverable r.slots =
        (r.pollDeliver horizon).2.toList ++ deliverable (r.pollDeliver horizon).1.slots ∧
      ((r.pollDeliver horizon).2 = none -> deliverable r.slots = []) := by
  unfold Receiver.pollDeliver
  cases anchored : r.anchor with
  | none =>
      refine ⟨rfl, fun _ => deliverable_of_empty fun slot member => ?_⟩
      exact shelved.anchored slot member anchored
  | some anchor =>
      exact deliverLoop_of_due shelved.hint_empty (Nat.lt_succ_self _) fun slot =>
        due anchor slot anchored

/-- Polling at a horizon past every deadline delivers all that can be delivered. -/
theorem Shelved.drains (shelved : r.Shelved) {horizon : Instant} (due : r.DueBy horizon) :
    Exists fun final =>
      Drains (fun r : Receiver => r.pollDeliver horizon) r (deliverable r.slots) final := by
  generalize left : deliverable r.slots = items
  induction items generalizing r with
  | nil =>
      cases returned : (r.pollDeliver horizon).2 with
      | none => exact ⟨_, .done returned⟩
      | some payload =>
          have split := (shelved.pollDeliver_of_due due).1
          rw [left, returned] at split
          cases split
  | cons payload rest ih =>
      rcases shelved.pollDeliver_of_due due with ⟨split, finished⟩
      rw [left] at split finished
      cases returned : (r.pollDeliver horizon).2 with
      | none => cases finished returned
      | some first =>
          rw [returned] at split
          injection split with same others
          subst same
          rcases ih (shelved.pollDeliver horizon) (due.pollDeliver horizon) others.symm with
            ⟨final, drains⟩
          exact ⟨final, .more returned drains⟩

/-! ## The horizon -/

/-- A packet that was stamped before it arrived plays at most one latency after its
arrival. -/
theorem tsbpdDeadline_le {anchor : Anchor} {extUs : Nat} {arrival now : Instant}
    (correction : r.drift.correctionUs ≤ 0) (begun : anchor.instant ≤ now) (arrived : arrival ≤ now)
    (stamped : extUs ≤
      anchor.extUs + Duration.asMicros (Instant.saturatingDurationSince arrival anchor.instant)) :
    r.tsbpdDeadline anchor extUs ≤ now + r.cfg.rcvLatency := by
  have within (began limit since latency extUs base : Nat) (offset correction : Int)
      (le : began ≤ limit) (since_le : since ≤ limit) (sum : offset = (extUs : Int) - base +
        correction + (latency / 1000 : Nat)) (nonpos : correction ≤ 0)
      (stamped : extUs ≤ base + (since - began) / 1000) :
      began + offset.toNat * 1000 ≤ limit + latency := by
    omega
  unfold tsbpdDeadline
  dsimp only
  split_ifs with ahead
  · exact within anchor.instant now arrival r.cfg.rcvLatency extUs anchor.extUs
      (r.deadlineOffsetUs anchor extUs) r.drift.correctionUs begun arrived rfl correction stamped
  · have early : anchor.instant ≤ now + r.cfg.rcvLatency := le_trans begun (Nat.le_add_right _ _)
    unfold Instant.checkedSub
    split_ifs
    · exact le_trans (Nat.sub_le _ _) early
    · exact early

theorem Timely.dueBy {now : Instant} (timely : r.Timely now)
    (begun : forall anchor, r.anchor = some anchor -> anchor.instant ≤ now) :
    r.DueBy (now + r.cfg.rcvLatency) := by
  intro anchor slot anchored member
  rcases timely.stamped anchor slot anchored member with ⟨arrival, arrived, stamped⟩
  exact tsbpdDeadline_le timely.correction (begun anchor anchored) arrived stamped

/-- It is enough that no stamp is ahead of the peer's clock now. -/
theorem timely_of_stamps {now : Instant} {anchor : Anchor} (anchored : r.anchor = some anchor)
    (correction : r.drift.correctionUs ≤ 0)
    (stamped : forall slot, slot ∈ r.slots.reduceOption ->
      slot.extUs ≤
        anchor.extUs + Duration.asMicros (Instant.saturatingDurationSince now anchor.instant)) :
    r.Timely now := by
  refine ⟨correction, ?_⟩
  intro other slot same member
  rw [anchored] at same
  cases same
  exact ⟨now, le_refl now, stamped slot (List.reduceOption_mem_iff.mpr member)⟩

end Receiver

/-! ## Runs of a connection -/

/-- The calls of one input set the time base once. -/
theorem Stack.foldl_anchor {P : Primitives} (stack : Stack) (calls : List Stack.Call) :
    (calls.foldl (Stack.call P) stack).receiver.anchor = stack.receiver.anchor ∨
      stack.receiver.anchor = none ∧ Exists fun call => Exists fun instant => Exists fun extUs =>
        call ∈ calls ∧ call.moment = some instant ∧
          (calls.foldl (Stack.call P) stack).receiver.anchor = some ⟨instant, extUs⟩ := by
  induction calls generalizing stack with
  | nil => exact Or.inl rfl
  | cons call rest ih =>
      rw [List.foldl_cons]
      have served := (stack.call_serves (P := P) call).anchor_eq
      rcases ih (stack.call P call) with same | ⟨unset, later, instant, extUs, member, moment, set⟩
      · rw [same]
        rcases served with kept | ⟨before, instant, extUs, moment, set⟩
        · exact Or.inl kept
        · exact Or.inr ⟨before, call, instant, extUs, List.mem_cons_self, moment, set⟩
      · rcases served with kept | ⟨_, _, _, _, already⟩
        · exact Or.inr ⟨kept ▸ unset, later, instant, extUs, List.mem_cons_of_mem _ member, moment,
            set⟩
        · rw [unset] at already
          cases already

namespace Connection

variable {P : Primitives} {c : Connection}

/-- The instant of an input; the anchor of the receiver's time base counts as one. -/
def Input.moment : Input -> Option Instant
  | .setHsAnchor instant _ => some instant
  | input => input.instant

/-- Runs in which time does not go back, the instant of the anchor included. -/
def anchoredMachine (P : Primitives) : Machine (Session × Instant) Input :=
  (machine P).timed (fun s => s.conn.lastSent) Input.moment

instance (s : Session × Instant) (input : Input) : Decidable ((anchoredMachine P).guard s input) :=
  Machine.decidableTimed (machine P) (fun s => s.conn.lastSent) Input.moment s input

theorem controlCalls_moment {now : Instant} {packet : ControlPacket} {draw : Draw}
    {call : Stack.Call} (member : call ∈ controlCalls now packet draw) : call.moment = none := by
  unfold controlCalls at member
  split at member
  case h_7 => cases member
  all_goals
    rw [List.mem_singleton] at member
    subst member
    rfl

theorem calls_moment (c : Connection) (input : Input) :
    forall call, call ∈ c.calls input -> forall instant, call.moment = some instant ->
      input.moment = some instant := by
  intro call member instant moment
  cases makes_of_mem member with
  | data => exact moment
  | anchor => exact moment
  | control made =>
      rw [controlCalls_moment made] at moment
      cases moment
  | timer => cases moment
  | send => cases moment
  | transmit => cases moment
  | deliver => cases moment

theorem moment_of_completes {input : Input} {now : Instant} {hsTs : Timestamp}
    {negotiated : Negotiated} (completed : c.completes P input = some (now, hsTs, negotiated)) :
    input.moment = some now := by
  unfold completes at completed
  split at completed
  · split at completed
    · split_ifs at completed
      split at completed
      · cases completed
        rfl
      · cases completed
    · cases completed
  · cases completed

/-- An established connection has the time base of the response that established it. -/
theorem openingCalls_anchor (c : Connection) (now : Instant) (hsTs : Timestamp)
    (negotiated : Negotiated) (pendingSend : List Bytes)
    (earlyData : List (Instant × DataPacket)) :
    Exists fun extUs =>
      ((openingCalls now hsTs pendingSend earlyData).foldl (Stack.call P)
        (c.opening now negotiated)).receiver.anchor = some ⟨now, extUs⟩ := by
  have fresh : (c.opening now negotiated).receiver.anchor = none := rfl
  have set : ((c.opening now negotiated).call P (.anchor now hsTs)).receiver.anchor =
      some ⟨now, ((c.opening now negotiated).receiver.extender.extend hsTs now).2⟩ := by
    change ((c.opening now negotiated).receiver.setHsAnchor now hsTs).anchor = _
    unfold Receiver.setHsAnchor
    rw [fresh]
  unfold openingCalls
  rw [List.foldl_cons]
  rcases Stack.foldl_anchor (P := P) ((c.opening now negotiated).call P (.anchor now hsTs)) _ with
    same | ⟨unset, _⟩
  · exact ⟨_, same.trans set⟩
  · rw [set] at unset
    cases unset

/-- The time base is old, or it is set at the instant of the input. -/
theorem handle_anchor (c : Connection) (input : Input) {receiver : Receiver} {anchor : Anchor}
    (kept : (c.handle P input).state.keptReceiver = some receiver)
    (anchored : receiver.anchor = some anchor) :
    (Exists fun before => c.state.keptReceiver = some before ∧ before.anchor = some anchor) ∨
      input.moment = some anchor.instant := by
  rcases state : c.state with ⟨hs, pendingSend, earlyData⟩ | ⟨sender, before, crypto⟩ |
    ⟨reason, before⟩
  · rcases completed : c.completes P input with _ | ⟨now, hsTs, negotiated⟩
    · have goes_on := handle_goesOn state completed
      generalize (c.handle P input).state = after at goes_on kept
      cases goes_on <;> cases kept
    · rw [handle_completes state completed rfl] at kept
      cases kept
      rcases openingCalls_anchor (P := P) c now hsTs negotiated pendingSend earlyData with
        ⟨extUs, set⟩
      rw [set] at anchored
      cases anchored
      exact Or.inr (moment_of_completes completed)
  · have shows := @handle_shows P c { sender, receiver := before, crypto } state input
    have shown : receiver =
        ((c.calls input).foldl (Stack.call P) { sender, receiver := before, crypto }).receiver := by
      generalize (c.handle P input).state = after at shows kept
      cases shows <;> (cases kept; rfl)
    subst shown
    rcases Stack.foldl_anchor (P := P) { sender, receiver := before, crypto } (c.calls input) with
      same | ⟨_, call, instant, extUs, member, moment, set⟩
    · exact Or.inl ⟨before, rfl, same.symm.trans anchored⟩
    · rw [set] at anchored
      cases anchored
      exact Or.inr (calls_moment c input call member instant moment)
  · rcases @handle_closed P c reason before state input with same | ⟨now, old, rfl, polled⟩
    · rw [same] at kept
      exact Or.inl ⟨receiver, kept, anchored⟩
    · rw [polled] at kept
      cases kept
      rw [Receiver.pollDeliver_anchor] at anchored
      exact Or.inl ⟨old, rfl, anchored⟩

/-- The time base of the receiver was set no later than the clock. -/
def Begun (clock : Instant) (state : Connection.State) : Prop :=
  forall receiver anchor, state.keptReceiver = some receiver -> receiver.anchor = some anchor ->
    anchor.instant ≤ clock

/-- The receiver that a state keeps is sound. -/
abbrev RetainsShelved (s : Session) : Prop :=
  Retains (fun t => t.stack.receiver.Shelved) (fun _ receiver => receiver.Shelved) s.log s.conn.state

theorem RetainsShelved.next {s : Session} (retains : RetainsShelved s) (input : Input) :
    RetainsShelved (s.next P input) :=
  Retains.next retains
    (fun t call shelved => shelved.serves (t.stack.call_serves call))
    (fun _ shelved => shelved)
    (fun _ _ now shelved => shelved.pollDeliver now)
    input
    (fun now _ _ _ => Receiver.shelved_new now _ _)

theorem anchored_run {history : List ((Session × Instant) × Input)} {s : Session} {clock : Instant}
    (run : (anchoredMachine P).Run history (s, clock)) :
    RetainsShelved s ∧ Begun clock s.conn.state := by
  refine run.invariant (fun (s, clock) => RetainsShelved s ∧ Begun clock s.conn.state) ?_ ?_
  · rintro ⟨s, clock⟩ ⟨opening, rfl⟩
    cases opening with
    | caller => exact ⟨trivial, nofun⟩
    | listener listener heard now peer cif newSocketId accepts timebase =>
        refine ⟨Receiver.shelved_new now _ _, ?_⟩
        intro receiver anchor kept anchored
        cases kept
        cases anchored
  · rintro ⟨s, clock⟩ input ⟨retains, begun⟩ ⟨_, later⟩
    refine ⟨retains.next input, ?_⟩
    intro receiver anchor kept anchored
    change anchor.instant ≤ input.moment.getD clock
    rcases handle_anchor s.conn input kept anchored with ⟨before, held, old⟩ | set
    · have past := begun before anchor held old
      cases moment : input.moment with
      | none => exact past
      | some instant => exact le_trans past (later instant moment)
    · rw [set]
      exact le_refl _

/-- A closed connection is polled through the receiver that it keeps. -/
theorem drains_of_receiver {horizon : Instant} {reason : CloseReason} {receiver last : Receiver}
    {payloads : List Bytes}
    (drains : Drains (fun r : Receiver => r.pollDeliver horizon) receiver payloads last)
    (closed : c.state = .closed reason (some receiver)) :
    Exists fun final => Drains (fun c : Connection => c.pollDeliver horizon) c payloads final := by
  have polled {c : Connection} {receiver : Receiver}
      (closed : c.state = .closed reason (some receiver)) :
      c.pollDeliver horizon =
        ({ c with state := .closed reason (some (receiver.pollDeliver horizon).1) },
          (receiver.pollDeliver horizon).2) := by
    unfold pollDeliver
    rw [closed]
  induction drains generalizing c with
  | done nothing =>
      refine ⟨_, .done ?_⟩
      rw [polled closed]
      exact nothing
  | @more receiver last payload rest returned _ ih =>
      rcases @ih { c with state := .closed reason (some (receiver.pollDeliver horizon).1) } rfl with
        ⟨final, drains⟩
      refine ⟨final, @Drains.more _ _ _ _ _ payload _ ?_ ?_⟩
      · rw [polled closed]
        exact returned
      · rw [polled closed]
        exact drains

/-- Close drains everything buffered.  In every run, if the connection is closed with a
latency within the horizon and every packet that it still holds was stamped before it
arrived, polling past the horizon returns every payload that can be delivered, in
sequence order. -/
theorem close_drains {history : List ((Session × Instant) × Input)} {s : Session}
    {clock now : Instant} (run : (anchoredMachine P).Run history (s, clock)) (later : clock ≤ now)
    {reason : CloseReason} {receiver : Receiver}
    (closed : s.conn.state = .closed reason (some receiver))
    (latency : receiver.cfg.rcvLatency ≤ closeDrainHorizon) (timely : receiver.Timely now) :
    Exists fun final =>
      Drains (fun c : Connection => c.pollDeliver (now + closeDrainHorizon)) s.conn
        (Receiver.deliverable receiver.slots) final := by
  rcases anchored_run run with ⟨retains, begun⟩
  have shelved : receiver.Shelved := by
    unfold RetainsShelved at retains
    rw [closed] at retains
    exact retains
  rw [closed] at begun
  have due := timely.dueBy fun anchor anchored =>
    le_trans (begun receiver anchor rfl anchored) later
  have reached : receiver.DueBy (now + closeDrainHorizon) := fun anchor slot anchored member =>
    le_trans (due anchor slot anchored member) (Nat.add_le_add_left latency now)
  rcases shelved.drains reached with ⟨last, drains⟩
  exact drains_of_receiver drains closed

def shelfData (seq : Nat) (dst : SocketId) (encryption : EncryptionFlags) : Packet :=
  .data { plainPacket (.new seq) 0 [UInt8.ofNat seq] with dstSocketId := dst, encryption }

/-- What the sample caller still holds: a hole, then a packet that cannot be decrypted
between two that can. -/
def sampleShelf : List Input :=
  sampleResponses ++
    [.datagram 4000 (.packet (shelfData 1 ⟨1⟩ .none)) sampleDraw,
      .datagram 5000 (.packet (shelfData 2 ⟨1⟩ .even)) sampleDraw,
      .datagram 6000 (.packet (shelfData 3 ⟨1⟩ .none)) sampleDraw,
      .close 7000]

def keptOr (state : Connection.State) : Receiver :=
  state.keptReceiver.getD (Receiver.new 0 ⟨SeqNumber.new 0, 0, 0⟩)

theorem close_drains_hole :
    Exists fun final =>
      Drains (fun c : Connection => c.pollDeliver (7000 + closeDrainHorizon))
        ((anchoredMachine .sample).exec (sampleCaller, 0) sampleShelf).1.conn [[1], [3]] final := by
  have run : (anchoredMachine .sample).Run _
      (((anchoredMachine .sample).exec (sampleCaller, 0) sampleShelf).1, 7000) :=
    Machine.run_exec (M := anchoredMachine .sample) ⟨sampleCaller_opening, rfl⟩
      (by decide +kernel : (anchoredMachine .sample).Allowed (sampleCaller, 0) sampleShelf)
  have held : Receiver.deliverable
      (keptOr ((anchoredMachine .sample).exec (sampleCaller, 0) sampleShelf).1.conn.state).slots =
        [[1], [3]] := by
    decide +kernel
  rw [← held]
  exact @close_drains _ _ _ 7000 7000 run (le_refl _) .locally _ (by decide +kernel)
    (by decide +kernel)
    (@Receiver.timely_of_stamps _ 7000 ⟨3000, 0⟩ (by decide +kernel) (by decide +kernel)
      (by decide +kernel))

/-! ### A listener with a long latency -/

def patientListener : Listener where
  timebase := ⟨0⟩
  opts := { latency := Duration.fromSecs 100 }
  cookieAt := fun _ _ => 7

def patientCif : HandshakeCif := plainCif .conclusion ⟨3⟩ [.hsReq (plainFields 0)]

/-- The connection that the listener accepts. -/
def patientSession : Session :=
  match patientListener.handleHandshake .sample 0 ⟨[10, 0, 0, 2], 5000⟩ patientCif ⟨5⟩ with
  | .accept reply negotiated =>
      { conn := acceptedWithTimebase 0 negotiated reply patientListener.opts ⟨0⟩ }
  | _ => sampleCaller

theorem patientSession_opening : (machine .sample).start patientSession := by
  unfold patientSession
  split
  case h_1 accepts => exact .listener _ _ _ _ _ _ accepts _
  case h_2 => exact sampleCaller_opening

/-- One packet arrives a microsecond after the anchor, and the application closes. -/
def patientInputs : List Input :=
  [.setHsAnchor 0 ⟨0⟩, .datagram 1000 (.packet (shelfData 0 ⟨5⟩ .none)) sampleDraw, .close 2000]

def patientClosed : Session :=
  ((anchoredMachine .sample).exec (patientSession, 0) patientInputs).1

/-- The packet of the patient listener is stranded. -/
theorem close_strands :
    (Exists fun history => (anchoredMachine .sample).Run history (patientClosed, 2000)) ∧
      patientClosed.conn.state = .closed .locally (some (keptOr patientClosed.conn.state)) ∧
      (keptOr patientClosed.conn.state).Timely 2000 ∧
      Receiver.deliverable (keptOr patientClosed.conn.state).slots = [[0]] ∧
      forall final,
        ¬Drains (fun c : Connection => c.pollDeliver (2000 + closeDrainHorizon)) patientClosed.conn
          [[0]] final := by
  have run := Machine.run_exec (M := anchoredMachine .sample)
    ⟨patientSession_opening, by decide +kernel⟩
    (by decide +kernel : (anchoredMachine .sample).Allowed (patientSession, 0) patientInputs)
  refine ⟨⟨_, run⟩, by decide +kernel, ?_, by decide +kernel, ?_⟩
  · exact @Receiver.timely_of_stamps _ 2000 ⟨0, 0⟩ (by decide +kernel) (by decide +kernel)
      (by decide +kernel)
  · intro final drains
    have nothing : (patientClosed.conn.pollDeliver (2000 + closeDrainHorizon)).2 = none := by
      decide +kernel
    cases drains with
    | more polled rest =>
        rw [nothing] at polled
        cases polled

end Connection

end Rsrt
