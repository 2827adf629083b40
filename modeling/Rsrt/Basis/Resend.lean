import Rsrt.Basis.Machine

namespace Rsrt
namespace Basis

/-!
# A slot with a message that is sent again

A sender that repeats a message until it is answered keeps the message in a slot, with the
number of copies that are left and the time of the last one.  A new message takes the slot
over, whatever it held.  An answer empties the slot or takes the remaining copies away.

How many copies a message has left is a potential: no step raises it, and sending a copy
lowers it.  A message that was never posted still has its whole budget and the first copy; a
message that was posted and is not in the slot any more has nothing left.
-/

universe u

variable {Msg Time : Type u}

structure Slot (Msg Time : Type u) where
  msg : Msg
  left : Nat
  last : Option Time

/-- The slot and the messages that were ever in it. -/
@[ext]
structure Resending (Msg Time : Type u) where
  slot : Option (Slot Msg Time)
  posted : List Msg
  known : forall held, slot = some held -> held.msg ∈ posted

namespace Resending

inductive Move (Msg Time : Type u)
  /-- A new message takes the slot and is sent. -/
  | post (msg : Msg) (now : Time)
  /-- The message in the slot is sent again, not before the given time after the last copy. -/
  | resend (now : Time) (earliest : Time -> Time)
  | confirm
  | cancel
  | rest

/-- The message that a move sends. -/
def sent (s : Resending Msg Time) : Move Msg Time -> Option Msg
  | .post msg _ => some msg
  | .resend _ _ => s.slot.map Slot.msg
  | _ => none

def next (budget : Nat) (s : Resending Msg Time) : Move Msg Time -> Resending Msg Time
  | .post msg now =>
      { slot := some { msg, left := budget, last := some now }
        posted := s.posted ++ [msg]
        known := by
          intro held found
          cases found
          exact List.mem_append_right _ (List.mem_singleton_self _) }
  | .resend now _ =>
      { s with
          slot := s.slot.map fun held => { held with left := held.left - 1, last := some now }
          known := by
            intro held found
            rcases Option.map_eq_some_iff.mp found with ⟨before, present, rfl⟩
            exact s.known before present }
  | .confirm => { s with slot := none, known := fun _ found => nomatch found }
  | .cancel =>
      { s with
          slot := s.slot.map fun held => { held with left := 0 }
          known := by
            intro held found
            rcases Option.map_eq_some_iff.mp found with ⟨before, present, rfl⟩
            exact s.known before present }
  | .rest => s

/-- A message is posted once, and a copy is sent only if one is left and it is due. -/
def Allows [LE Time] (s : Resending Msg Time) : Move Msg Time -> Prop
  | .post msg _ => msg ∉ s.posted
  | .resend now earliest =>
      Exists fun held => s.slot = some held ∧ 0 < held.left ∧
        forall last, held.last = some last -> earliest last ≤ now
  | _ => True

def machine [LE Time] (budget : Nat) (opened : Resending Msg Time) :
    Machine (Resending Msg Time) (Move Msg Time) where
  start := fun s => s = opened
  guard := Allows
  next := next budget

section Potential

variable [DecidableEq Msg]

/-- The copies of the message that are still to come at most. -/
def remaining (budget : Nat) (msg : Msg) (s : Resending Msg Time) : Nat :=
  if msg ∈ s.posted then
    match s.slot with
    | some held => if held.msg = msg then held.left else 0
    | none => 0
  else budget + 1

variable {budget : Nat} {msg : Msg} {s : Resending Msg Time}

theorem remaining_spent (posted : msg ∈ s.posted)
    (spent : forall held, s.slot = some held -> held.msg = msg -> held.left = 0) :
    s.remaining budget msg = 0 := by
  unfold remaining
  rw [if_pos posted]
  cases found : s.slot with
  | none => rfl
  | some held =>
      dsimp only
      split_ifs with same
      · exact spent held found same
      · rfl

theorem remaining_vacant (posted : msg ∈ s.posted)
    (absent : forall held, s.slot = some held -> held.msg ≠ msg) :
    s.remaining budget msg = 0 :=
  remaining_spent posted fun held found same => absurd same (absent held found)

theorem remaining_held {held : Slot Msg Time} (found : s.slot = some held)
    (same : held.msg = msg) : s.remaining budget msg = held.left := by
  unfold remaining
  rw [if_pos (same ▸ s.known held found), found]
  exact if_pos same

theorem remaining_new (new : msg ∉ s.posted) : s.remaining budget msg = budget + 1 :=
  if_neg new

/-- Sending a copy takes from what remains, and nothing adds to it. -/
theorem remaining_step [LE Time] {move : Move Msg Time} (allowed : s.Allows move) :
    (if s.sent move = some msg then 1 else 0) + (s.next budget move).remaining budget msg ≤
      s.remaining budget msg := by
  -- Away from a post, the slot keeps its message, and what is left does not grow.
  have keeps (s' : Resending Msg Time) (posted : s'.posted = s.posted)
      (held : forall after, s'.slot = some after -> Exists fun before =>
        s.slot = some before ∧ before.msg = after.msg ∧ after.left ≤ before.left) :
      s'.remaining budget msg ≤ s.remaining budget msg := by
    by_cases known : msg ∈ s.posted
    · by_cases present : Exists fun after => s'.slot = some after ∧ after.msg = msg
      · rcases present with ⟨after, found, same⟩
        rcases held after found with ⟨before, was, kept, less⟩
        rw [remaining_held found same, remaining_held was (kept.trans same)]
        exact less
      · rw [remaining_vacant (posted ▸ known) fun after found same => present ⟨after, found, same⟩]
        exact Nat.zero_le _
    · rw [remaining_new known, remaining_new (posted ▸ known)]
  cases move with
  | post new now =>
      have fresh : new ∉ s.posted := allowed
      by_cases same : new = msg
      · subst same
        have slot : (s.next budget (.post new now)).slot =
            some { msg := new, left := budget, last := some now } := rfl
        have posted : (s.next budget (.post new now)).remaining budget new = budget :=
          remaining_held slot rfl
        have copy : s.sent (.post new now) = some new := rfl
        rw [posted, remaining_new fresh, if_pos copy, Nat.add_comm]
      · have silent : ¬ s.sent (.post new now) = some msg := fun sent =>
          same (Option.some_inj.mp sent)
        rw [if_neg silent, Nat.zero_add]
        by_cases known : msg ∈ s.posted
        · rw [remaining_vacant (List.mem_append_left _ known)
            (fun held found => (Option.some_inj.mp found) ▸ same)]
          exact Nat.zero_le _
        · rw [remaining_new known, remaining_new]
          intro member
          rcases List.mem_append.mp member with old | now
          · exact known old
          · exact same (List.mem_singleton.mp now).symm
  | resend now earliest =>
      rcases allowed with ⟨held, found, some, _⟩
      have slot : (s.next budget (.resend now earliest)).slot =
          Option.some { held with left := held.left - 1, last := Option.some now } := by
        change s.slot.map _ = _
        rw [found]
        rfl
      by_cases same : held.msg = msg
      · have after : (s.next budget (.resend now earliest)).remaining budget msg = held.left - 1 :=
          remaining_held slot same
        have copy : s.sent (.resend now earliest) = Option.some msg := by
          change s.slot.map Slot.msg = _
          rw [found, ← same]
          rfl
        rw [after, remaining_held found same, if_pos copy]
        omega
      · have silent : ¬ s.sent (.resend now earliest) = Option.some msg := by
          change ¬ s.slot.map Slot.msg = _
          rw [found]
          exact fun sent => same (Option.some_inj.mp sent)
        rw [if_neg silent, Nat.zero_add]
        apply keeps (s.next budget (.resend now earliest)) rfl
        intro after present
        cases slot.symm.trans present
        exact ⟨held, found, rfl, Nat.sub_le _ _⟩
  | confirm =>
      rw [if_neg (fun sent => nomatch sent), Nat.zero_add]
      exact keeps (s.next budget .confirm) rfl fun after present => nomatch present
  | cancel =>
      rw [if_neg (fun sent => nomatch sent), Nat.zero_add]
      apply keeps (s.next budget .cancel) rfl
      intro after present
      rcases Option.map_eq_some_iff.mp present with ⟨before, found, rfl⟩
      exact ⟨before, found, rfl, Nat.zero_le _⟩
  | rest =>
      rw [if_neg (fun sent => nomatch sent), Nat.zero_add]
      exact Nat.le_refl _

/-- The copies of a message over a run, and those that remain, are no more than remained at
the start. -/
theorem count_le [LE Time] {opened final : Resending Msg Time}
    {history : List (Resending Msg Time × Move Msg Time)}
    (run : (machine budget opened).Run history final) (msg : Msg) :
    (history.countP fun entry => entry.1.sent entry.2 = some msg) +
      final.remaining budget msg ≤ opened.remaining budget msg := by
  apply run.induct fun history final =>
    (history.countP fun entry => entry.1.sent entry.2 = some msg) +
      final.remaining budget msg ≤ opened.remaining budget msg
  · rintro s rfl
    exact Nat.le_of_eq (Nat.zero_add _)
  · intro history s move _ bound allowed
    have spent := @remaining_step _ _ _ budget msg _ _ _ allowed
    rw [List.countP_append, List.countP_singleton]
    change _ + (s.next budget move).remaining budget msg ≤ _
    simp only [decide_eq_true_eq] at bound ⊢
    omega

/-- A message with nothing left after an entry is not sent later. -/
theorem silent_of_spent [LE Time] {opened final : Resending Msg Time}
    {earlier later : List (Resending Msg Time × Move Msg Time)} {move : Move Msg Time}
    (run : (machine budget opened).Run (earlier ++ (s, move) :: later) final)
    (spent : (s.next budget move).remaining budget msg = 0)
    {entry : Resending Msg Time × Move Msg Time} (member : entry ∈ later) :
    entry.1.sent entry.2 ≠ some msg := by
  intro sent
  rcases List.append_of_mem member with ⟨middle, rest, rfl⟩
  have split : earlier ++ (s, move) :: (middle ++ entry :: rest) =
      (earlier ++ (s, move) :: middle) ++ entry :: rest := by
    rw [List.append_assoc, List.cons_append]
  rw [split] at run
  rcases run.at_entry with ⟨before, allowed⟩
  have nothing : entry.1.remaining budget msg = 0 := by
    apply before.since (fun reached => reached.remaining budget msg = 0) spent
    intro history reached move _ permitted _ zero
    have less := @remaining_step _ _ _ budget msg _ _ _ permitted
    change (reached.next budget move).remaining budget msg = 0
    omega
  have less := @remaining_step _ _ _ budget msg _ _ _ allowed
  rw [if_pos sent] at less
  omega

end Potential

section Pacing

variable {budget : Nat} {msg : Msg} {s : Resending Msg Time}

/-- The last copy of the message was sent at the given time, if the slot still holds it. -/
def Stamped (msg : Msg) (time : Time) (s : Resending Msg Time) : Prop :=
  msg ∈ s.posted ∧ forall held, s.slot = some held -> held.msg = msg -> held.last = some time

/-- Between two copies the stamp of the first one stays. -/
theorem Stamped.step {time : Time} (stamped : s.Stamped msg time) {move : Move Msg Time}
    (silent : s.sent move ≠ some msg) : (s.next budget move).Stamped msg time := by
  rcases stamped with ⟨posted, last⟩
  cases move with
  | post new now =>
      refine ⟨List.mem_append_left _ posted, ?_⟩
      intro held found same
      cases found
      exact absurd (congrArg some same) silent
  | resend now earliest =>
      refine ⟨posted, ?_⟩
      intro held found same
      rcases Option.map_eq_some_iff.mp found with ⟨before, present, rfl⟩
      apply absurd _ silent
      change s.slot.map Slot.msg = some msg
      rw [present]
      exact congrArg some same
  | confirm => exact ⟨posted, fun held found => nomatch found⟩
  | cancel =>
      refine ⟨posted, ?_⟩
      intro held found same
      rcases Option.map_eq_some_iff.mp found with ⟨before, present, rfl⟩
      exact last before present same
  | rest => exact ⟨posted, last⟩

theorem stamped_of_sent [LE Time] {move : Move Msg Time} (allowed : s.Allows move)
    (sent : s.sent move = some msg) {time : Time}
    (instant : (Exists fun new => move = .post new time) ∨
      Exists fun earliest => move = .resend time earliest) :
    (s.next budget move).Stamped msg time := by
  rcases instant with ⟨new, rfl⟩ | ⟨earliest, rfl⟩
  · cases sent
    refine ⟨List.mem_append_right _ (List.mem_singleton_self _), ?_⟩
    intro held found _
    cases found
    rfl
  · rcases allowed with ⟨held, present, _⟩
    change s.slot.map Slot.msg = some msg at sent
    rw [present] at sent
    refine ⟨(Option.some_inj.mp sent) ▸ s.known held present, ?_⟩
    intro after found _
    rcases Option.map_eq_some_iff.mp found with ⟨before, _, rfl⟩
    rfl

/-- Two consecutive copies of a message: the second one was due after the first one. -/
theorem paced [LE Time] {opened final second : Resending Msg Time}
    {earlier middle later : List (Resending Msg Time × Move Msg Time)} {move again : Move Msg Time}
    (run : (machine budget opened).Run
      (earlier ++ (s, move) :: (middle ++ (second, again) :: later)) final)
    {first : Time} (stamped : (s.next budget move).Stamped msg first)
    (between : forall entry, entry ∈ middle -> entry.1.sent entry.2 ≠ some msg)
    (sent : second.sent again = some msg) :
    Exists fun now => Exists fun earliest =>
      again = .resend now earliest ∧ earliest first ≤ now := by
  have split : earlier ++ (s, move) :: (middle ++ (second, again) :: later) =
      (earlier ++ (s, move) :: middle) ++ (second, again) :: later := by
    rw [List.append_assoc, List.cons_append]
  rw [split] at run
  rcases run.at_entry with ⟨before, allowed⟩
  have still : second.Stamped msg first := by
    apply before.since (Stamped msg first) stamped
    intro history reached move _ _ member stamped
    exact stamped.step (between (reached, move) member)
  cases again with
  | post new now =>
      cases sent
      exact absurd still.1 allowed
  | resend now earliest =>
      rcases allowed with ⟨held, present, _, due⟩
      change second.slot.map Slot.msg = some msg at sent
      rw [present] at sent
      exact ⟨now, earliest, rfl, due first (still.2 held present (Option.some_inj.mp sent))⟩
  | confirm => cases sent
  | cancel => cases sent
  | rest => cases sent

end Pacing

end Resending
end Basis
end Rsrt
