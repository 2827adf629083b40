import Rsrt.Basis.Intervals

namespace Rsrt
namespace Basis

open Intervals

/-!
# Receive windows

The abstract state of a receiver that reorders a numbered stream: the next
position to hand out, the highest position seen, the positions still awaited
and the values held.  Positions are unbounded integers.

The invariant is carried by the fields, so each operation is defined together
with the proof that its result is a window again.  A position that is neither
held nor awaited has been given up: it lies in a range the peer withdrew or in
a gap that nobody reported.
-/

universe u

structure ReceiveWindow (α : Type u) where
  /-- Next position to hand out. -/
  base : Int
  /-- Highest position seen. -/
  top : Int
  missing : List (Int × Int)
  held : Int -> Option α
  base_le : base ≤ top + 1
  separated : Separated missing
  inside : forall point, Covers missing point -> base ≤ point ∧ point < top
  bounded : forall point value, held point = some value -> base ≤ point ∧ point ≤ top
  vacant : forall point, Covers missing point -> held point = none

namespace ReceiveWindow

variable {α : Type u}

/-- Nothing seen yet. -/
def start (base : Int) : ReceiveWindow α where
  base := base
  top := base - 1
  missing := []
  held := fun _ => none
  base_le := by omega
  separated := separated_nil
  inside := fun point covered => absurd covered (not_covers_nil point)
  bounded := fun _ _ impossible => absurd impossible (by simp)
  vacant := fun _ _ => rfl

/-- The positions an arrival newly reveals as missing. -/
def gap (w : ReceiveWindow α) (point : Int) (reveals : Bool) : List (Int × Int) :=
  if w.top + 1 < point ∧ reveals = true then [(w.top + 1, point - 1)] else []

theorem covers_gap (w : ReceiveWindow α) (point : Int) (reveals : Bool) (other : Int) :
    Covers (w.gap point reveals) other ↔ reveals = true ∧ w.top < other ∧ other < point := by
  unfold gap
  split_ifs with opened
  · simp only [covers_cons, not_covers_nil, or_false, opened.2, true_and]
    omega
  · simp only [not_covers_nil, false_iff]
    rintro ⟨reveals, above, below⟩
    exact opened ⟨by omega, reveals⟩

/-- A value arrives at a position that has not been handed out. -/
def arrive (w : ReceiveWindow α) (point : Int) (value : α) (reveals : Bool)
    (ahead : w.base ≤ point) : ReceiveWindow α where
  base := w.base
  top := max w.top point
  missing := cut point point w.missing ++ w.gap point reveals
  held := Function.update w.held point (some value)
  base_le := by
    have := w.base_le
    omega
  separated := by
    have kept := w.separated.cut (le_refl point)
    unfold gap
    split_ifs with opened
    · refine kept.append_single (by omega) ?_
      intro range member
      rcases mem_cut w.separated member with ⟨whole, present, _, _, _⟩
      have ordered := w.separated.ordered whole present
      have below := (w.inside whole.2 ⟨whole, present, ordered, le_refl _⟩).2
      omega
    · simpa using kept
  inside := by
    intro other covered
    rcases (covers_append _ _ _).mp covered with old | new
    · have bounds := w.inside other ((covers_cut _ _ _ _).mp old).1
      omega
    · have bounds := (covers_gap w point reveals other).mp new
      have := w.base_le
      omega
  bounded := by
    intro other found present
    by_cases same : other = point
    · subst same
      omega
    · rw [Function.update_of_ne same] at present
      have bounds := w.bounded other found present
      omega
  vacant := by
    intro other covered
    rcases (covers_append _ _ _).mp covered with old | new
    · have parts := (covers_cut _ _ _ _).mp old
      rw [Function.update_of_ne (by omega)]
      exact w.vacant other parts.1
    · have bounds := (covers_gap w point reveals other).mp new
      rw [Function.update_of_ne (by omega)]
      cases present : w.held other with
      | none => rfl
      | some found =>
          have old := w.bounded other found present
          omega

/-- Arrival behind a capacity check: what is already handed out, too far ahead
or already held leaves the window as it is. -/
def accept (w : ReceiveWindow α) (capacity : Nat) (point : Int) (value : α) (reveals : Bool) :
    ReceiveWindow α :=
  if fits : w.base ≤ point ∧ point < w.base + capacity ∧ w.held point = none then
    w.arrive point value reveals fits.1
  else w

/-- The peer withdraws a range: its positions are no longer awaited, and the
window moves past it if it reaches the next expected position. -/
def withdraw (w : ReceiveWindow α) (lo hi : Int) (valid : lo ≤ hi) : ReceiveWindow α where
  base := w.base
  top := if lo ≤ w.top + 1 ∧ w.top < hi then hi else w.top
  missing := cut lo hi w.missing
  held := w.held
  base_le := by
    have := w.base_le
    split_ifs <;> omega
  separated := w.separated.cut valid
  inside := by
    intro point covered
    have bounds := w.inside point ((covers_cut _ _ _ _).mp covered).1
    split_ifs <;> omega
  bounded := by
    intro point value present
    have bounds := w.bounded point value present
    split_ifs <;> omega
  vacant := fun point covered => w.vacant point ((covers_cut _ _ _ _).mp covered).1

/-- Forget the held values that satisfy a test. -/
def discard (w : ReceiveWindow α) (test : Int -> α -> Bool) : ReceiveWindow α where
  base := w.base
  top := w.top
  missing := w.missing
  held := fun point => (w.held point).filter (fun value => !test point value)
  base_le := w.base_le
  separated := w.separated
  inside := w.inside
  bounded := fun point value present =>
    w.bounded point value (Option.filter_eq_some_iff.mp present).1
  vacant := by
    intro point covered
    rw [w.vacant point covered]
    rfl

/-- Give up on everything below a position. -/
def skipTo (w : ReceiveWindow α) (point : Int) (ahead : w.base < point)
    (seen : point ≤ w.top + 1) : ReceiveWindow α where
  base := point
  top := w.top
  missing := cut w.base (point - 1) w.missing
  held := fun other => if other < point then none else w.held other
  base_le := seen
  separated := w.separated.cut (by omega)
  inside := by
    intro other covered
    have parts := (covers_cut _ _ _ _).mp covered
    have bounds := w.inside other parts.1
    omega
  bounded := by
    intro other value present
    split_ifs at present with below
    have bounds := w.bounded other value present
    omega
  vacant := by
    intro other covered
    rw [w.vacant other ((covers_cut _ _ _ _).mp covered).1, ite_self]

/-- Take out the value at the base. -/
def pop (w : ReceiveWindow α) (present : (w.held w.base).isSome) : ReceiveWindow α where
  base := w.base + 1
  top := w.top
  missing := w.missing
  held := fun other => if other < w.base + 1 then none else w.held other
  base_le := by
    rcases Option.isSome_iff_exists.mp present with ⟨value, found⟩
    have bounds := w.bounded w.base value found
    omega
  separated := w.separated
  inside := by
    intro other covered
    have bounds := w.inside other covered
    have different : other ≠ w.base := by
      intro same
      rw [same] at covered
      rw [w.vacant w.base covered] at present
      exact absurd present (by simp)
    omega
  bounded := by
    intro other value found
    split_ifs at found with below
    have bounds := w.bounded other value found
    omega
  vacant := by
    intro other covered
    rw [w.vacant other covered, ite_self]

/-! ## The acknowledgement frontier -/

/-- First awaited position, or the one after the highest seen. -/
def frontier (w : ReceiveWindow α) : Int := lowest w.missing (w.top + 1)

theorem frontier_le (w : ReceiveWindow α) : w.frontier ≤ w.top + 1 := by
  unfold frontier
  by_cases empty : w.missing = []
  · simp [empty, lowest]
  · have bounds := w.inside _ (covers_lowest w.separated empty (w.top + 1))
    omega

theorem base_le_frontier (w : ReceiveWindow α) : w.base ≤ w.frontier := by
  unfold frontier
  by_cases empty : w.missing = []
  · simpa [empty, lowest] using w.base_le
  · exact (w.inside _ (covers_lowest w.separated empty (w.top + 1))).1

theorem not_covers_of_lt_frontier (w : ReceiveWindow α) {point : Int}
    (below : point < w.frontier) : ¬ Covers w.missing point := by
  intro covered
  have := lowest_le w.separated covered (w.top + 1)
  unfold frontier at below
  omega

/-- The frontier never regresses when the top does not and the only new awaited
positions lie above the old top. -/
theorem frontier_mono {before after : ReceiveWindow α} (grows : before.top ≤ after.top)
    (subset : forall point, Covers after.missing point ->
      Covers before.missing point ∨ before.top < point) :
    before.frontier ≤ after.frontier := by
  refine lowest_mono before.separated after.separated ?_ (by omega) ?_
  · intro point covered
    have := (before.inside point covered).2
    omega
  · intro point covered
    rcases subset point covered with old | new
    · exact Or.inl old
    · exact Or.inr (by omega)

/-! ## Handing out -/

/-- The lowest held position and its value. -/
structure First (w : ReceiveWindow α) (point : Int) (value : α) : Prop where
  present : w.held point = some value
  lowest : forall other, other < point -> w.held other = none

/-- Skip to a held position and take its value out. -/
def take (w : ReceiveWindow α) {point : Int} {value : α} (first : w.First point value) :
    ReceiveWindow α :=
  if ahead : w.base < point then
    (w.skipTo point ahead (by
      have bounds := w.bounded point value first.present
      omega)).pop (by simp [skipTo, first.present])
  else
    w.pop (by
      have bounds := w.bounded point value first.present
      have same : w.base = point := by omega
      rw [same, first.present]
      rfl)

theorem take_base (w : ReceiveWindow α) {point : Int} {value : α} (first : w.First point value) :
    (w.take first).base = point + 1 := by
  unfold take
  split_ifs with ahead
  · rfl
  · have bounds := w.bounded point value first.present
    show w.base + 1 = point + 1
    omega

theorem take_top (w : ReceiveWindow α) {point : Int} {value : α} (first : w.First point value) :
    (w.take first).top = w.top := by
  unfold take
  split_ifs <;> rfl

theorem take_held (w : ReceiveWindow α) {point : Int} {value : α} (first : w.First point value)
    (other : Int) :
    (w.take first).held other = if other < point + 1 then none else w.held other := by
  have bounds := w.bounded point value first.present
  unfold take
  by_cases ahead : w.base < point
  · rw [dif_pos ahead]
    change (if other < point + 1 then none else if other < point then none else w.held other) = _
    split_ifs <;> first | rfl | omega
  · rw [dif_neg ahead]
    change (if other < w.base + 1 then none else w.held other) = _
    split_ifs <;> first | rfl | omega

theorem covers_take (w : ReceiveWindow α) {point : Int} {value : α} (first : w.First point value)
    (other : Int) :
    Covers (w.take first).missing other ↔ Covers w.missing other ∧ point < other := by
  have bounds := w.bounded point value first.present
  have free : ¬ Covers w.missing point := by
    intro covered
    have empty := w.vacant point covered
    rw [first.present] at empty
    exact absurd empty (by simp)
  have apart : Covers w.missing other -> other ≠ point := by
    intro covered same
    exact free (same ▸ covered)
  unfold take
  split_ifs with ahead
  · show Covers (cut w.base (point - 1) w.missing) other ↔ _
    rw [covers_cut]
    constructor
    · rintro ⟨covered, outside⟩
      have := apart covered
      have := (w.inside other covered).1
      exact ⟨covered, by omega⟩
    · rintro ⟨covered, above⟩
      exact ⟨covered, by omega⟩
  · show Covers w.missing other ↔ _
    constructor
    · intro covered
      have := apart covered
      have := (w.inside other covered).1
      exact ⟨covered, by omega⟩
    · exact fun parts => parts.1

/-- One request for a value.  Only the lowest held value is considered, and only
once it is due; a value marked hidden is freed and the search goes on. -/
inductive Release (due : α -> Prop) (hidden : α -> Bool) :
    ReceiveWindow α -> Option α -> ReceiveWindow α -> Prop
  | empty {w : ReceiveWindow α} (nothing : forall point, w.held point = none) :
      Release due hidden w none w
  | early {w : ReceiveWindow α} {point : Int} {value : α} (first : w.First point value)
      (notDue : ¬ due value) : Release due hidden w none w
  | give {w : ReceiveWindow α} {point : Int} {value : α} (first : w.First point value)
      (isDue : due value) (visible : hidden value = false) :
      Release due hidden w (some value) (w.take first)
  | free {w : ReceiveWindow α} {point : Int} {value : α} (first : w.First point value)
      (isDue : due value) (concealed : hidden value = true) {out : Option α}
      {final : ReceiveWindow α} (rest : Release due hidden (w.take first) out final) :
      Release due hidden w out final

/-- What a request does, with the intermediate windows left out. -/
structure Released (due : α -> Prop) (hidden : α -> Bool) (w : ReceiveWindow α)
    (out : Option α) (final : ReceiveWindow α) : Prop where
  base_le : w.base ≤ final.base
  top_eq : final.top = w.top
  held_eq : forall point, final.held point = if point < final.base then none else w.held point
  covers_iff : forall point,
    Covers final.missing point ↔ Covers w.missing point ∧ final.base ≤ point
  /-- The value given out sits right below the new base and is due. -/
  given : forall value, out = some value ->
    w.held (final.base - 1) = some value ∧ due value ∧ hidden value = false
  /-- Below it lie only holes and freed values. -/
  freed : forall point value, w.held point = some value -> point < final.base ->
    due value ∧ (hidden value = true ∨ (point = final.base - 1 ∧ out = some value))
  /-- Every position passed over is followed by a due value of the same call. -/
  passed : forall point, w.base ≤ point -> point < final.base ->
    Exists fun later => Exists fun value =>
      point ≤ later ∧ later < final.base ∧ w.held later = some value ∧ due value

theorem Released.refl {due : α -> Prop} {hidden : α -> Bool} (w : ReceiveWindow α) :
    Released due hidden w none w where
  base_le := le_refl _
  top_eq := rfl
  held_eq := by
    intro point
    split_ifs with below
    · cases present : w.held point with
      | none => rfl
      | some value =>
          have bounds := w.bounded point value present
          omega
    · rfl
  covers_iff := fun point => ⟨fun covered => ⟨covered, (w.inside point covered).1⟩, fun h => h.1⟩
  given := fun _ impossible => absurd impossible (by simp)
  freed := by
    intro point value present below
    have bounds := w.bounded point value present
    omega
  passed := fun point above below => by omega

theorem First.eq_of_held_of_le {w : ReceiveWindow α} {point other : Int} {value found : α}
    (first : w.First point value) (present : w.held other = some found)
    (below : other ≤ point) : other = point ∧ found = value := by
  by_cases same : other = point
  · subst same
    rw [first.present] at present
    exact ⟨rfl, (Option.some.inj present).symm⟩
  · have clear := first.lowest other (by omega)
    rw [present] at clear
    exact absurd clear (by simp)

theorem Release.released {due : α -> Prop} {hidden : α -> Bool} {w final : ReceiveWindow α}
    {out : Option α} (release : Release due hidden w out final) :
    Released due hidden w out final := by
  induction release with
  | empty _ => exact Released.refl _
  | early _ _ => exact Released.refl _
  | @give w point value first isDue visible =>
      have bounds := w.bounded point value first.present
      have based := w.take_base first
      refine ⟨by omega, w.take_top first, ?_, ?_, ?_, ?_, ?_⟩
      · intro other
        rw [based]
        exact w.take_held first other
      · intro other
        rw [based, w.covers_take first]
        exact and_congr_right fun _ => by omega
      · intro found same
        cases same
        rw [based, Int.add_sub_cancel]
        exact ⟨first.present, isDue, visible⟩
      · intro other found present below
        rw [based] at below ⊢
        rcases first.eq_of_held_of_le present (by omega) with ⟨rfl, rfl⟩
        exact ⟨isDue, Or.inr ⟨by omega, rfl⟩⟩
      · intro other _ below
        rw [based] at below ⊢
        exact ⟨point, value, by omega, by omega, first.present, isDue⟩
  | @free w point value first isDue concealed out final rest ih =>
      have bounds := w.bounded point value first.present
      have based := w.take_base first
      have further := ih.base_le
      refine ⟨by omega, ih.top_eq.trans (w.take_top first), ?_, ?_, ?_, ?_, ?_⟩
      · intro other
        rw [ih.held_eq other, w.take_held first]
        split_ifs <;> first | rfl | omega
      · intro other
        rw [ih.covers_iff other, w.covers_take first, and_assoc]
        exact and_congr_right fun _ => by omega
      · intro found same
        have parts := ih.given found same
        rw [w.take_held first] at parts
        split_ifs at parts with below
        · exact absurd parts.1 (by simp)
        · exact parts
      · intro other found present below
        by_cases lower : other ≤ point
        · rcases first.eq_of_held_of_le present lower with ⟨rfl, rfl⟩
          exact ⟨isDue, Or.inl concealed⟩
        · refine ih.freed other found ?_ below
          rw [w.take_held first, if_neg (by omega)]
          exact present
      · intro other above below
        by_cases lower : other ≤ point
        · exact ⟨point, value, lower, by omega, first.present, isDue⟩
        · rcases ih.passed other (by omega) below with ⟨later, found, low, high, present, late⟩
          rw [w.take_held first, if_neg (by omega)] at present
          exact ⟨later, found, low, high, present, late⟩

/-! ## Windows that have given nothing up -/

/-- Every position up to the highest seen is held or awaited. -/
def Complete (w : ReceiveWindow α) : Prop :=
  forall point, w.base ≤ point -> point ≤ w.top ->
    (w.held point).isSome ∨ Covers w.missing point

theorem complete_start (base : Int) : (start base : ReceiveWindow α).Complete := by
  intro point above below
  change base ≤ point at above
  change point ≤ base - 1 at below
  omega

/-- An arrival that reveals its gap leaves nothing unaccounted for. -/
theorem Complete.accept {w : ReceiveWindow α} (complete : w.Complete) (capacity : Nat)
    (point : Int) (value : α) : (w.accept capacity point value true).Complete := by
  unfold ReceiveWindow.accept
  split_ifs with fits
  · intro other above below
    change w.base ≤ other at above
    change other ≤ max w.top point at below
    by_cases here : other = point
    · apply Or.inl
      rw [here]
      simp [arrive]
    · by_cases old : other ≤ w.top
      · rcases complete other above old with present | awaited
        · apply Or.inl
          change (Function.update w.held point (some value) other).isSome = true
          rw [Function.update_of_ne here]
          exact present
        · apply Or.inr
          exact (covers_append _ _ _).mpr (Or.inl ((covers_cut _ _ _ _).mpr ⟨awaited, by omega⟩))
      · apply Or.inr
        exact (covers_append _ _ _).mpr
          (Or.inr ((covers_gap _ _ _ _).mpr ⟨rfl, by omega, by omega⟩))
  · exact complete

theorem Complete.released {due : α -> Prop} {hidden : α -> Bool} {w final : ReceiveWindow α}
    {out : Option α} (complete : w.Complete) (released : Released due hidden w out final) :
    final.Complete := by
  intro point above below
  have started := released.base_le
  rw [released.top_eq] at below
  rw [released.held_eq, if_neg (by omega), released.covers_iff]
  rcases complete point (by omega) below with present | awaited
  · exact Or.inl present
  · exact Or.inr ⟨awaited, above⟩

/-- Withdrawing what lies below the frontier changes nothing. -/
theorem Complete.withdraw {w : ReceiveWindow α} (complete : w.Complete) {lo hi : Int}
    (valid : lo ≤ hi) (settled : hi < w.frontier) :
    (w.withdraw lo hi valid).Complete ∧ (w.withdraw lo hi valid).top = w.top := by
  have seen := w.frontier_le
  have top : (w.withdraw lo hi valid).top = w.top := by
    change (if _ ∧ _ then _ else _) = _
    rw [if_neg (by omega)]
  refine ⟨?_, top⟩
  intro point above below
  rw [top] at below
  rcases complete point above below with present | awaited
  · exact Or.inl present
  · apply Or.inr
    refine (covers_cut _ _ _ _).mpr ⟨awaited, ?_⟩
    intro inside
    exact w.not_covers_of_lt_frontier (by omega) awaited

theorem Complete.discard {w : ReceiveWindow α} (complete : w.Complete)
    {test : Int -> α -> Bool} (keeps : forall point value, test point value = false) :
    (w.discard test).Complete := by
  intro point above below
  rcases complete point above below with present | awaited
  · apply Or.inl
    rcases Option.isSome_iff_exists.mp present with ⟨value, found⟩
    change ((w.held point).filter _).isSome = true
    rw [found, Option.filter_some, keeps]
    rfl
  · exact Or.inr awaited

/-- A complete window that holds nothing awaits nothing either. -/
theorem Complete.frontier_eq_base {w : ReceiveWindow α} (complete : w.Complete)
    (empty : forall point, w.held point = none) : w.frontier = w.base := by
  have low := w.base_le_frontier
  have high := w.frontier_le
  by_cases some : w.base ≤ w.top
  · rcases complete w.top some (le_refl _) with present | awaited
    · rw [empty] at present
      cases present
    · exact absurd (w.inside w.top awaited).2 (lt_irrefl _)
  · omega

/-! ## Ranges that are behind the window -/

/-- Every position of the range has been seen or given up: it lies at or below the
highest position and none of it is awaited. -/
structure Excludes (w : ReceiveWindow α) (lo hi : Int) : Prop where
  seen : hi ≤ w.top
  settled : forall point, lo ≤ point -> point ≤ hi -> ¬Covers w.missing point

theorem Excludes.accept {w : ReceiveWindow α} {lo hi : Int} (excludes : w.Excludes lo hi)
    (capacity : Nat) (point : Int) (value : α) (reveals : Bool) :
    (w.accept capacity point value reveals).Excludes lo hi := by
  have seen := excludes.seen
  unfold ReceiveWindow.accept
  split_ifs with fits
  · constructor
    · exact le_trans seen (le_max_left _ _)
    · intro other above below covered
      rcases (covers_append _ _ _).mp covered with old | new
      · exact excludes.settled other above below ((covers_cut _ _ _ _).mp old).1
      · have beyond := ((covers_gap _ _ _ _).mp new).2.1
        omega
  · exact excludes

theorem Excludes.withdraw {w : ReceiveWindow α} {lo hi : Int} (excludes : w.Excludes lo hi)
    {first last : Int} (valid : first ≤ last) : (w.withdraw first last valid).Excludes lo hi where
  seen := by
    have seen := excludes.seen
    change hi ≤ if first ≤ w.top + 1 ∧ w.top < last then last else w.top
    split_ifs <;> omega
  settled := fun point above below covered =>
    excludes.settled point above below ((covers_cut _ _ _ _).mp covered).1

theorem Excludes.discard {w : ReceiveWindow α} {lo hi : Int} (excludes : w.Excludes lo hi)
    (test : Int -> α -> Bool) : (w.discard test).Excludes lo hi :=
  ⟨excludes.seen, excludes.settled⟩

theorem Excludes.released {due : α -> Prop} {hidden : α -> Bool} {w final : ReceiveWindow α}
    {out : Option α} {lo hi : Int} (excludes : w.Excludes lo hi)
    (released : Released due hidden w out final) : final.Excludes lo hi where
  seen := by
    rw [released.top_eq]
    exact excludes.seen
  settled := fun point above below covered =>
    excludes.settled point above below ((released.covers_iff point).mp covered).1

/-- A withdrawn range that reaches the next expected position is behind the window. -/
theorem withdraw_excludes (w : ReceiveWindow α) {lo hi : Int} (valid : lo ≤ hi)
    (reaches : lo ≤ w.top + 1) : (w.withdraw lo hi valid).Excludes lo hi where
  seen := by
    change hi ≤ if lo ≤ w.top + 1 ∧ w.top < hi then hi else w.top
    split_ifs <;> omega
  settled := by
    intro point above below covered
    have apart := ((covers_cut _ _ _ _).mp covered).2
    omega

end ReceiveWindow

end Basis
end Rsrt
