import Rsrt.Core.ReceiverSession

namespace Rsrt
namespace Receiver

open Rsrt.Basis Rsrt.Basis.Intervals SeqNumber

/-!
# The delivery contract

What a run hands out is judged against its own history.  An entry of the history
is a call together with the session it was made in, so it says by itself which
position the call stored, delivered or skipped.  The contract then relates a
delivery to an earlier entry that stored the packet, and a skip to a packet that
was due in the same call.
-/

/-- The buffered packet at an unwrapped position. -/
def Session.slot (s : Session) (point : Int) : Option Slot :=
  if s.position ≤ point then slotAt s.receiver.slots (point - s.position).toNat else none

theorem Session.Tracked.slot_eq {s : Session} {w : ReceiveWindow Slot} (tracked : s.Tracked w)
    (point : Int) : s.slot point = w.held point := by
  have position := tracked.position
  unfold Session.slot
  by_cases above : s.position ≤ point
  · rw [if_pos above, tracked.tracks.held]
    congr 1
    omega
  · rw [if_neg above]
    cases present : w.held point with
    | none => rfl
    | some slot =>
        have bounds := w.bounded point slot present
        omega

/-- The call stored a data packet in the empty slot of this position. -/
def StoredAt (entry : Session × Call) (point : Int) (slot : Slot) : Prop :=
  Exists fun now => Exists fun pkt => Exists fun undecryptable =>
    entry.2 = arrival now pkt undecryptable ∧ entry.1.unwrap pkt.seq = point ∧
      slot = slotOf pkt (entry.1.receiver.extender.extend pkt.timestamp now).2 undecryptable ∧
      entry.1.slot point = none ∧ (entry.1.step entry.2).slot point = some slot

/-- The call handed out this payload, and the base is now right past the
position. -/
def DeliveredAt (entry : Session × Call) (point : Int) (payload : Bytes) : Prop :=
  (entry.1.receiver.call entry.2).2 = some payload ∧
    (entry.1.step entry.2).position = point + 1

/-- The call moved the base past the position without handing it out. -/
def SkippedAt (entry : Session × Call) (point : Int) : Prop :=
  entry.1.position ≤ point ∧ point < (entry.1.step entry.2).position ∧
    forall payload, ¬ DeliveredAt entry point payload

theorem accept_held {w : ReceiveWindow Slot} {capacity : Nat} {point other : Int}
    {slot found : Slot} {reveals : Bool}
    (present : (w.accept capacity point slot reveals).held other = some found) :
    w.held other = some found ∨ (other = point ∧ found = slot ∧ w.held point = none) := by
  unfold ReceiveWindow.accept at present
  split_ifs at present with fits
  · by_cases same : other = point
    · subst same
      have stored : some slot = some found := by
        simpa [ReceiveWindow.arrive] using present
      exact Or.inr ⟨rfl, (Option.some.inj stored).symm, fits.2.2⟩
    · have kept : w.held other = some found := by
        simpa [ReceiveWindow.arrive, same] using present
      exact Or.inl kept
  · exact Or.inl present

theorem arrivalWindow_held {r : Receiver} {w : ReceiveWindow Slot} {now : Instant}
    {pkt : DataPacket} {point other : Int} {undecryptable : Bool} {found : Slot}
    (present : (arrivalWindow r w now pkt point undecryptable).held other = some found) :
    w.held other = some found ∨
      (other = point ∧ w.held point = none ∧
        found = slotOf pkt (r.extender.extend pkt.timestamp now).2 undecryptable) := by
  unfold arrivalWindow at present
  split at present
  · exact Or.inl present
  · rcases accept_held present with kept | ⟨same, stored, vacant⟩
    · exact Or.inl kept
    · exact Or.inr ⟨same, vacant, stored⟩

theorem dropWindow_held {w : ReceiveWindow Slot} {msgNumber : MsgNumber} {lo hi point : Int}
    {slot : Slot} (present : (dropWindow w msgNumber lo hi).held point = some slot) :
    w.held point = some slot := by
  unfold dropWindow at present
  split at present
  · exact (Option.filter_eq_some_iff.mp present).1
  · exact present

/-- A packet held after a call was held before it or stored by it. -/
theorem Moves.held_or_stored {s : Session} {w final : ReceiveWindow Slot} {c : Call}
    {returned : Option Bytes} (tracked : s.Tracked w) (moved : (s.step c).Tracked final)
    (moves : Moves s w c returned final) {point : Int} {slot : Slot}
    (present : final.held point = some slot) :
    w.held point = some slot ∨ StoredAt (s, c) point slot := by
  cases moves with
  | arrives now pkt undecryptable isCall window _ =>
      have held := present
      rw [window] at held
      rcases arrivalWindow_held held with kept | ⟨here, vacant, stored⟩
      · exact Or.inl kept
      · refine Or.inr ⟨now, pkt, undecryptable, isCall, here.symm, stored, ?_, ?_⟩
        · rw [tracked.slot_eq, here]
          exact vacant
        · rw [moved.slot_eq]
          exact present
  | drops _ _ _ _ _ window _ =>
      rw [window] at present
      exact Or.inl (dropWindow_held present)
  | releases _ _ _ _ _ _ released =>
      rw [released.held_eq] at present
      split at present
      · exact absurd present (by simp)
      · exact Or.inl present
  | rests window _ =>
      rw [window] at present
      exact Or.inl present

/-- The base moves only in a call for a payload, and never back. -/
theorem Moves.base_le {s : Session} {w final : ReceiveWindow Slot} {c : Call}
    {returned : Option Bytes} (moves : Moves s w c returned final) : w.base ≤ final.base := by
  cases moves with
  | arrives _ _ _ _ window _ =>
      rw [window, arrivalWindow_base]
  | drops _ _ _ _ _ window _ =>
      rw [window, dropWindow_base]
  | releases _ _ _ _ _ _ released => exact released.base_le
  | rests window _ => rw [window]

/-- A payload is handed out at the position right below the new base, where a
due and decryptable packet was held. -/
theorem DeliveredAt.held {s : Session} {w final : ReceiveWindow Slot} {c : Call} {point : Int}
    {payload : Bytes} (moved : (s.step c).Tracked final)
    (moves : Moves s w c (s.receiver.call c).2 final)
    (delivered : DeliveredAt (s, c) point payload) :
    Exists fun now => Exists fun anchor => Exists fun slot =>
      c = .pollDeliver now ∧ s.receiver.anchor = some anchor ∧
        w.held point = some slot ∧ slot.payload = payload ∧ slot.undecryptable = false ∧
        s.receiver.Due anchor now slot := by
  have returned := delivered.1
  cases moves with
  | arrives _ _ _ _ _ silent => exact absurd (silent.symm.trans returned) (by simp)
  | drops _ _ _ _ _ _ silent => exact absurd (silent.symm.trans returned) (by simp)
  | rests _ silent => exact absurd (silent.symm.trans returned) (by simp)
  | releases now anchor out isCall anchored handed released =>
      rcases Option.map_eq_some_iff.mp (handed.symm.trans returned) with ⟨slot, given, same⟩
      have parts := released.given slot given
      have here : final.base - 1 = point := by
        have position := moved.position
        have moved := delivered.2
        dsimp only at moved
        omega
      rw [here] at parts
      exact ⟨now, anchor, slot, isCall, anchored, parts.1, same, parts.2.2, parts.2.1⟩

end Receiver
end Rsrt
