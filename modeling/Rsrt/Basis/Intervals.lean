import Mathlib.Tactic

namespace Rsrt
namespace Basis

/-!
# Finite unions of integer ranges

A set of integers is stored as an ascending list of closed ranges with at least
one absent point between neighbours.  The operations are the ones a loss list
needs: append a range past the end, and cut a closed range out of every entry.
Both keep the representation canonical, and both are characterised by the
points they cover.
-/

namespace Intervals

/-- The point lies in one of the listed closed ranges. -/
def Covers (ranges : List (Int × Int)) (point : Int) : Prop :=
  Exists fun range => range ∈ ranges ∧ range.1 ≤ point ∧ point ≤ range.2

/-- Nonempty ranges, ascending, disjoint and not even adjacent. -/
structure Separated (ranges : List (Int × Int)) : Prop where
  ordered : forall range, range ∈ ranges -> range.1 ≤ range.2
  apart : ranges.Pairwise (fun earlier later => earlier.2 + 1 < later.1)

/-- What remains of one range once `[lo, hi]` is taken out of it. -/
def cutRange (lo hi : Int) (range : Int × Int) : List (Int × Int) :=
  if hi < range.1 ∨ range.2 < lo then [range]
  else
    (if range.1 < lo then [(range.1, lo - 1)] else []) ++
      (if hi < range.2 then [(hi + 1, range.2)] else [])

/-- Take `[lo, hi]` out of every range. -/
def cut (lo hi : Int) (ranges : List (Int × Int)) : List (Int × Int) :=
  ranges.flatMap (cutRange lo hi)

/-- The lowest covered point of a canonical list, or a default. -/
def lowest (ranges : List (Int × Int)) (fallback : Int) : Int :=
  match ranges with
  | [] => fallback
  | range :: _ => range.1

@[simp] theorem not_covers_nil (point : Int) : ¬ Covers [] point := by
  rintro ⟨_, member, _⟩
  exact List.not_mem_nil member

theorem covers_cons (range : Int × Int) (ranges : List (Int × Int)) (point : Int) :
    Covers (range :: ranges) point ↔
      (range.1 ≤ point ∧ point ≤ range.2) ∨ Covers ranges point := by
  simp [Covers]

theorem covers_append (left right : List (Int × Int)) (point : Int) :
    Covers (left ++ right) point ↔ Covers left point ∨ Covers right point := by
  simp only [Covers, List.mem_append]
  constructor
  · rintro ⟨range, member | member, inside⟩
    · exact Or.inl ⟨range, member, inside⟩
    · exact Or.inr ⟨range, member, inside⟩
  · rintro (⟨range, member, inside⟩ | ⟨range, member, inside⟩)
    · exact ⟨range, Or.inl member, inside⟩
    · exact ⟨range, Or.inr member, inside⟩

theorem separated_nil : Separated [] :=
  ⟨fun _ member => absurd member List.not_mem_nil, List.Pairwise.nil⟩

theorem separated_cons (range : Int × Int) (ranges : List (Int × Int)) :
    Separated (range :: ranges) ↔
      range.1 ≤ range.2 ∧ (forall later, later ∈ ranges -> range.2 + 1 < later.1) ∧
        Separated ranges := by
  constructor
  · rintro ⟨ordered, apart⟩
    have parts := List.pairwise_cons.mp apart
    exact ⟨ordered range List.mem_cons_self, parts.1,
      ⟨fun later member => ordered later (List.mem_cons_of_mem _ member), parts.2⟩⟩
  · rintro ⟨nonempty, after, rest⟩
    refine ⟨?_, List.pairwise_cons.mpr ⟨after, rest.apart⟩⟩
    intro other member
    rcases List.mem_cons.mp member with same | member
    · exact same ▸ nonempty
    · exact rest.ordered other member

/-- A range that starts past every entry, with a gap, can be appended. -/
theorem Separated.append_single {ranges : List (Int × Int)} (separated : Separated ranges)
    {lo hi : Int} (nonempty : lo ≤ hi)
    (after : forall range, range ∈ ranges -> range.2 + 1 < lo) :
    Separated (ranges ++ [(lo, hi)]) := by
  refine ⟨?_, ?_⟩
  · intro range member
    rcases List.mem_append.mp member with old | new
    · exact separated.ordered range old
    · rw [List.mem_singleton.mp new]
      exact nonempty
  · refine List.pairwise_append.mpr ⟨separated.apart, List.pairwise_singleton _ _, ?_⟩
    intro earlier member later new
    rw [List.mem_singleton.mp new]
    exact after earlier member

/-! ## Cutting -/

theorem mem_cutRange {lo hi : Int} {range piece : Int × Int}
    (nonempty : range.1 ≤ range.2) (member : piece ∈ cutRange lo hi range) :
    range.1 ≤ piece.1 ∧ piece.1 ≤ piece.2 ∧ piece.2 ≤ range.2 := by
  unfold cutRange at member
  split_ifs at member <;> simp at member
  · subst member; omega
  · rcases member with same | same <;> subst same <;> simp <;> omega
  · subst member; simp; omega
  · subst member; simp; omega

theorem covers_cutRange {lo hi : Int} (range : Int × Int) (point : Int) :
    Covers (cutRange lo hi range) point ↔
      (range.1 ≤ point ∧ point ≤ range.2) ∧ ¬ (lo ≤ point ∧ point ≤ hi) := by
  unfold cutRange
  split_ifs <;> simp [covers_cons] <;> omega

/-- Cutting removes exactly the points of the cut range. -/
theorem covers_cut (lo hi : Int) (ranges : List (Int × Int)) (point : Int) :
    Covers (cut lo hi ranges) point ↔ Covers ranges point ∧ ¬ (lo ≤ point ∧ point ≤ hi) := by
  induction ranges with
  | nil => simp [cut]
  | cons range ranges ih =>
      have unfolded : cut lo hi (range :: ranges) = cutRange lo hi range ++ cut lo hi ranges := by
        simp [cut]
      rw [unfolded, covers_append, covers_cutRange, ih, covers_cons]
      tauto

theorem mem_cut {lo hi : Int} {ranges : List (Int × Int)} {piece : Int × Int}
    (separated : Separated ranges) (member : piece ∈ cut lo hi ranges) :
    Exists fun range => range ∈ ranges ∧ range.1 ≤ piece.1 ∧ piece.1 ≤ piece.2 ∧
      piece.2 ≤ range.2 := by
  rcases List.mem_flatMap.mp member with ⟨range, present, inside⟩
  exact ⟨range, present, mem_cutRange (separated.ordered range present) inside⟩

theorem cutRange_apart {lo hi : Int} (range : Int × Int) (valid : lo ≤ hi) :
    (cutRange lo hi range).Pairwise (fun earlier later => earlier.2 + 1 < later.1) := by
  unfold cutRange
  split_ifs <;> simp
  omega

/-- Cutting keeps the list canonical. -/
theorem Separated.cut {lo hi : Int} {ranges : List (Int × Int)} (separated : Separated ranges)
    (valid : lo ≤ hi) : Separated (cut lo hi ranges) := by
  refine ⟨?_, ?_⟩
  · intro piece member
    rcases mem_cut separated member with ⟨_, _, _, nonempty, _⟩
    exact nonempty
  · refine List.pairwise_flatMap.mpr ⟨fun range _ => cutRange_apart range valid, ?_⟩
    refine separated.apart.imp_of_mem ?_
    intro earlier later earlierIn laterIn gap left leftIn right rightIn
    have leftBound := mem_cutRange (separated.ordered _ earlierIn) leftIn
    have rightBound := mem_cutRange (separated.ordered _ laterIn) rightIn
    omega

/-- Cutting below or above every entry changes nothing. -/
theorem cut_eq_self {lo hi : Int} {ranges : List (Int × Int)}
    (outside : forall range, range ∈ ranges -> hi < range.1 ∨ range.2 < lo) :
    Intervals.cut lo hi ranges = ranges := by
  induction ranges with
  | nil => rfl
  | cons range ranges ih =>
      have rest := ih (fun other member => outside other (List.mem_cons_of_mem _ member))
      have head : cutRange lo hi range = [range] :=
        if_pos (outside range List.mem_cons_self)
      show cutRange lo hi range ++ Intervals.cut lo hi ranges = range :: ranges
      rw [head, rest, List.singleton_append]

/-! ## The lowest covered point -/

theorem lowest_le {ranges : List (Int × Int)} (separated : Separated ranges) {point : Int}
    (covered : Covers ranges point) (fallback : Int) : lowest ranges fallback ≤ point := by
  cases ranges with
  | nil => exact absurd covered (not_covers_nil point)
  | cons range ranges =>
      rcases (covers_cons range ranges point).mp covered with inside | ⟨later, member, inside⟩
      · exact inside.1
      · have head := (separated_cons range ranges).mp separated
        have gap := head.2.1 later member
        simp only [lowest]
        omega

theorem covers_lowest {ranges : List (Int × Int)} (separated : Separated ranges)
    (nonempty : ranges ≠ []) (fallback : Int) : Covers ranges (lowest ranges fallback) := by
  cases ranges with
  | nil => exact absurd rfl nonempty
  | cons range ranges =>
      exact ⟨range, List.mem_cons_self, le_refl _,
        separated.ordered range List.mem_cons_self⟩

/-- Losing points never lowers the lowest covered point, as long as the
fallback bounds the list from above and does not itself drop. -/
theorem lowest_mono {before after : List (Int × Int)} (separated : Separated before)
    (canonical : Separated after) {fallback fallback' : Int}
    (below : forall point, Covers before point -> point < fallback)
    (grows : fallback ≤ fallback')
    (subset : forall point, Covers after point -> Covers before point ∨ fallback ≤ point) :
    lowest before fallback ≤ lowest after fallback' := by
  have bounded : lowest before fallback ≤ fallback := by
    by_cases empty : before = []
    · simp [empty, lowest]
    · exact Int.le_of_lt (below _ (covers_lowest separated empty fallback))
  by_cases empty : after = []
  · subst empty
    exact Int.le_trans bounded grows
  · rcases subset _ (covers_lowest canonical empty fallback') with old | new
    · exact lowest_le separated old fallback
    · exact Int.le_trans bounded new

end Intervals

end Basis
end Rsrt
