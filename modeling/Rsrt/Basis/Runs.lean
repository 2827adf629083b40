import Mathlib.Data.Finset.Sort
import Mathlib.Data.Int.Interval
import Rsrt.Basis.Intervals

namespace Rsrt
namespace Basis

/-!
# The runs of a finite set of integers

A finite set of integers is the union of its maximal runs of consecutive members.
Listed in ascending order, they are the only separated list of ranges that covers
exactly the members.
-/

namespace Intervals

/-- The integers of a closed range. -/
def span (lo hi : Int) : Finset Int :=
  @Finset.Icc Int Int.instLinearOrder.toPartialOrder.toPreorder Int.instLocallyFiniteOrder lo hi

theorem mem_span {lo hi point : Int} : point ∈ span lo hi ↔ lo ≤ point ∧ point ≤ hi :=
  Finset.mem_Icc

/-- Groups an ascending list into runs. -/
def group : List Int -> List (Int × Int)
  | [] => []
  | point :: rest =>
      match group rest with
      | [] => [(point, point)]
      | (lo, hi) :: more =>
          if lo = point + 1 then (point, hi) :: more else (point, point) :: (lo, hi) :: more

/-- The maximal runs of a set, in ascending order. -/
def runs (members : Finset Int) : List (Int × Int) :=
  group (members.sort (· ≤ ·))

theorem covers_group_iff {points : List Int} (ascending : points.Pairwise (· < ·)) :
    Separated (group points) ∧ forall point, Covers (group points) point ↔ point ∈ points := by
  induction points with
  | nil =>
      refine ⟨separated_nil, fun point => ?_⟩
      rw [group]
      simp
  | cons first rest ih =>
      rcases List.pairwise_cons.mp ascending with ⟨below, later⟩
      rcases ih later with ⟨separated, covers⟩
      rw [group]
      cases grouped : group rest with
      | nil =>
          rw [grouped] at covers
          refine ⟨(separated_cons _ _).mpr ⟨le_refl _, nofun, separated_nil⟩, fun point => ?_⟩
          rw [covers_cons, covers, List.mem_cons]
          dsimp only
          exact or_congr ⟨fun between => by omega, fun same => by omega⟩ Iff.rfl
      | cons run more =>
          rw [grouped] at separated covers
          rcases (separated_cons _ _).mp separated with ⟨ordered, apart, others⟩
          have above : first < run.1 :=
            below run.1 ((covers run.1).mp ((covers_cons _ _ _).mpr (Or.inl ⟨le_refl _, ordered⟩)))
          dsimp only
          split_ifs with adjacent
          · refine ⟨(separated_cons _ _).mpr ⟨by omega, apart, others⟩, fun point => ?_⟩
            rw [List.mem_cons, ← covers, covers_cons, covers_cons, ← or_assoc]
            exact or_congr ⟨fun between => by omega, fun between => by omega⟩ Iff.rfl
          · constructor
            · refine (separated_cons _ _).mpr ⟨le_refl _, ?_, separated⟩
              intro later member
              rcases List.mem_cons.mp member with same | member
              · subst same
                dsimp only
                omega
              · have further := apart later member
                dsimp only
                omega
            · intro point
              rw [covers_cons, covers, List.mem_cons]
              exact or_congr ⟨fun between => by omega, fun same => by omega⟩ Iff.rfl

theorem separated_runs (members : Finset Int) : Separated (runs members) :=
  (covers_group_iff members.sortedLT_sort.pairwise).1

theorem covers_runs (members : Finset Int) (point : Int) :
    Covers (runs members) point ↔ point ∈ members := by
  rw [runs, (covers_group_iff members.sortedLT_sort.pairwise).2, Finset.mem_sort]

/-- What the later ranges cover lies past the first one, and not right after it. -/
theorem Separated.covers_rest {range : Int × Int} {rest : List (Int × Int)}
    (separated : Separated (range :: rest)) (point : Int) :
    Covers rest point ↔ Covers (range :: rest) point ∧ range.2 + 1 < point := by
  rcases (separated_cons _ _).mp separated with ⟨_, apart, _⟩
  rw [covers_cons]
  constructor
  · rintro ⟨later, member, inside⟩
    have past := apart later member
    exact ⟨Or.inr ⟨later, member, inside⟩, by omega⟩
  · rintro ⟨inside | covered, past⟩
    · omega
    · exact covered

theorem Separated.covers_first {range : Int × Int} {rest : List (Int × Int)}
    (separated : Separated (range :: rest)) {point : Int}
    (covered : Covers (range :: rest) point) : range.1 ≤ point := by
  have ordered := ((separated_cons _ _).mp separated).1
  rcases (covers_cons _ _ _).mp covered with inside | later
  · exact inside.1
  · have past := ((separated.covers_rest point).mp later).2
    omega

/-- The first ranges of two lists that cover the same points end together. -/
theorem Separated.last_le {range range' : Int × Int} {rest rest' : List (Int × Int)}
    (separated : Separated (range :: rest)) (starts : range'.1 ≤ range.2 + 1)
    (same : forall point, Covers (range' :: rest') point -> Covers (range :: rest) point) :
    range'.2 ≤ range.2 := by
  by_contra longer
  have covered := same (range.2 + 1) ((covers_cons _ _ _).mpr (Or.inl ⟨starts, by omega⟩))
  rcases (covers_cons _ _ _).mp covered with inside | later
  · omega
  · have past := ((separated.covers_rest _).mp later).2
    omega

/-- A separated list of ranges is determined by what it covers. -/
theorem Separated.eq_of_covers {left right : List (Int × Int)} (sorted : Separated left)
    (sorted' : Separated right) (same : forall point, Covers left point ↔ Covers right point) :
    left = right := by
  induction left generalizing right with
  | nil =>
      cases right with
      | nil => rfl
      | cons range rest =>
          have ordered := ((separated_cons _ _).mp sorted').1
          have covered := (same range.1).mpr ((covers_cons _ _ _).mpr (Or.inl ⟨le_refl _, ordered⟩))
          exact absurd covered (not_covers_nil _)
  | cons range rest ih =>
      cases right with
      | nil =>
          have ordered := ((separated_cons _ _).mp sorted).1
          have covered := (same range.1).mp ((covers_cons _ _ _).mpr (Or.inl ⟨le_refl _, ordered⟩))
          exact absurd covered (not_covers_nil _)
      | cons range' rest' =>
          rcases (separated_cons _ _).mp sorted with ⟨ordered, _, others⟩
          rcases (separated_cons _ _).mp sorted' with ⟨ordered', _, others'⟩
          have first : range.1 = range'.1 := by
            apply le_antisymm
            · exact sorted.covers_first
                ((same _).mpr ((covers_cons _ _ _).mpr (Or.inl ⟨le_refl _, ordered'⟩)))
            · exact sorted'.covers_first
                ((same _).mp ((covers_cons _ _ _).mpr (Or.inl ⟨le_refl _, ordered⟩)))
          have last : range.2 = range'.2 := by
            apply le_antisymm
            · exact sorted'.last_le (by omega) fun point => (same point).mp
            · exact sorted.last_le (by omega) fun point => (same point).mpr
          have tails : rest = rest' := by
            apply ih others others'
            intro point
            rw [sorted.covers_rest, sorted'.covers_rest, same, last]
          rw [tails, Prod.ext first last]

/-- The least member starts the first run. -/
theorem lowest_eq_min {members : Finset Int} {ranges : List (Int × Int)}
    (separated : Separated ranges) (covers : forall point, point ∈ members ↔ Covers ranges point)
    (fallback : Int) :
    (if occupied : members.Nonempty then members.min' occupied else fallback) =
      lowest ranges fallback := by
  split_ifs with occupied
  · have nonempty : ranges ≠ [] := by
      rintro rfl
      rcases occupied with ⟨point, member⟩
      exact not_covers_nil point ((covers point).mp member)
    apply le_antisymm
    · exact members.min'_le _ ((covers _).mpr (covers_lowest separated nonempty fallback))
    · exact lowest_le separated ((covers _).mp (members.min'_mem occupied)) fallback
  · cases ranges with
    | nil => rfl
    | cons range rest =>
        have ordered := ((separated_cons _ _).mp separated).1
        have member := (covers range.1).mpr ((covers_cons _ _ _).mpr (Or.inl ⟨le_refl _, ordered⟩))
        exact absurd ⟨_, member⟩ occupied

theorem runs_eq {members : Finset Int} {ranges : List (Int × Int)} (separated : Separated ranges)
    (covers : forall point, point ∈ members ↔ Covers ranges point) : runs members = ranges :=
  (separated_runs members).eq_of_covers separated fun point =>
    (covers_runs members point).trans (covers point)

end Intervals
end Basis
end Rsrt
