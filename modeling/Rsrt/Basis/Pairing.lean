import Mathlib.Data.List.AList

namespace Rsrt
namespace Basis

/-!
# Mutually inverse lookups

Two tables that index one set of pairs from both sides.  The tables are seen through their
lookups, which are partial functions; they are mutually inverse if each of them finds exactly
the pairs that the other one finds.  A pair whose two sides are both new can be added, and a
pair that is present can be removed.
-/

variable {Left Right : Type} {there : Left -> Option Right} {back : Right -> Option Left}

/-- Each lookup finds what the other one finds, from the other side. -/
def Inverse (there : Left -> Option Right) (back : Right -> Option Left) : Prop :=
  forall left right, there left = some right ↔ back right = some left

namespace Inverse

/-- A right side belongs to at most one left side. -/
theorem injective (inverse : Inverse there back) {first second : Left} {right : Right}
    (one : there first = some right) (other : there second = some right) : first = second := by
  have found := (inverse first right).mp one
  rw [(inverse second right).mp other] at found
  exact (Option.some.inj found).symm

variable [DecidableEq Left] [DecidableEq Right] {left : Left} {right : Right}

theorem insert (inverse : Inverse there back) (free : there left = none)
    (unused : back right = none) :
    Inverse (Function.update there left (some right)) (Function.update back right (some left)) := by
  intro a b
  by_cases isLeft : a = left
  · subst isLeft
    rw [Function.update_self]
    by_cases isRight : b = right
    · subst isRight
      rw [Function.update_self]
      exact ⟨fun _ => rfl, fun _ => rfl⟩
    · rw [Function.update_of_ne isRight]
      constructor
      · intro same
        exact absurd (Option.some.inj same).symm isRight
      · intro found
        rw [(inverse a b).mpr found] at free
        cases free
  · rw [Function.update_of_ne isLeft]
    by_cases isRight : b = right
    · subst isRight
      rw [Function.update_self]
      constructor
      · intro found
        rw [(inverse a b).mp found] at unused
        cases unused
      · intro same
        exact absurd (Option.some.inj same).symm isLeft
    · rw [Function.update_of_ne isRight]
      exact inverse a b

theorem erase (inverse : Inverse there back) (present : there left = some right) :
    Inverse (Function.update there left none) (Function.update back right none) := by
  intro a b
  by_cases isLeft : a = left
  · subst isLeft
    rw [Function.update_self]
    constructor
    · intro found
      cases found
    · intro found
      by_cases isRight : b = right
      · subst isRight
        rw [Function.update_self] at found
        cases found
      · rw [Function.update_of_ne isRight] at found
        have other := (inverse a b).mpr found
        rw [present] at other
        exact absurd (Option.some.inj other).symm isRight
  · rw [Function.update_of_ne isLeft]
    by_cases isRight : b = right
    · subst isRight
      rw [Function.update_self]
      constructor
      · intro found
        exact absurd (inverse.injective found present) isLeft
      · intro found
        cases found
    · rw [Function.update_of_ne isRight]
      exact inverse a b

end Inverse

/-! ## Association lists -/

section Lists

variable {Key Value : Type} [DecidableEq Key]

theorem lookup_insert_eq (table : AList fun _ : Key => Value) (key : Key) (value : Value) :
    (fun other => (table.insert key value).lookup other) =
      Function.update (fun other => table.lookup other) key (some value) := by
  funext other
  by_cases same : other = key
  · subst same
    rw [Function.update_self, AList.lookup_insert]
  · rw [Function.update_of_ne same, AList.lookup_insert_ne same]

theorem lookup_erase_eq (table : AList fun _ : Key => Value) (key : Key) :
    (fun other => (table.erase key).lookup other) =
      Function.update (fun other => table.lookup other) key none := by
  funext other
  by_cases same : other = key
  · subst same
    rw [Function.update_self, AList.lookup_erase]
  · rw [Function.update_of_ne same, AList.lookup_erase_ne same]

end Lists

end Basis
end Rsrt
