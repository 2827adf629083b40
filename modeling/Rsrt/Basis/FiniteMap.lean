import Mathlib.Data.Finset.Max
import Mathlib.Tactic

namespace Rsrt
namespace Basis

/-!
# Finite maps

A partial function with its finite set of keys, so that the least key can be computed.
-/

universe u v

structure FiniteMap (Key : Type u) (Value : Type v) where
  keys : Finset Key
  lookup : Key -> Option Value
  mem_keys : forall key, key ∈ keys ↔ (lookup key).isSome

namespace FiniteMap

variable {Key : Type u} {Value : Type v}

def empty : FiniteMap Key Value where
  keys := ∅
  lookup := fun _ => none
  mem_keys := fun _ => ⟨fun member => absurd member (Finset.notMem_empty _), nofun⟩

def insert [DecidableEq Key] (m : FiniteMap Key Value) (key : Key) (value : Value) :
    FiniteMap Key Value where
  keys := Insert.insert key m.keys
  lookup := Function.update m.lookup key (some value)
  mem_keys := by
    intro other
    by_cases same : other = key
    · subst same
      simp
    · rw [Function.update_of_ne same, Finset.mem_insert, ← m.mem_keys]
      simp [same]

/-- Keep the entries that pass a test. -/
def filter (m : FiniteMap Key Value) (test : Key -> Value -> Bool) : FiniteMap Key Value where
  keys := m.keys.filter fun key => ((m.lookup key).filter (test key)).isSome
  lookup := fun key => (m.lookup key).filter (test key)
  mem_keys := by
    intro key
    rw [Finset.mem_filter, m.mem_keys, and_iff_right_iff_imp]
    intro kept
    cases found : m.lookup key with
    | none =>
        rw [found] at kept
        cases kept
    | some value => rfl

theorem lookup_filter (m : FiniteMap Key Value) (test : Key -> Value -> Bool) (key : Key) :
    (m.filter test).lookup key = (m.lookup key).filter (test key) := rfl

theorem keys_eq_empty_iff (m : FiniteMap Key Value) :
    m.keys = ∅ ↔ forall key, m.lookup key = none := by
  rw [Finset.eq_empty_iff_forall_notMem]
  exact forall_congr' fun key => by rw [m.mem_keys, Option.not_isSome_iff_eq_none]

section Least

variable [LinearOrder Key]

/-- The entry with the least key. -/
def least (m : FiniteMap Key Value) : Option (Key × Value) :=
  if occupied : m.keys.Nonempty then
    (m.lookup (m.keys.min' occupied)).map (m.keys.min' occupied, ·)
  else none

theorem least_eq_none (m : FiniteMap Key Value) (nothing : forall key, m.lookup key = none) :
    m.least = none := by
  have vacant := m.keys_eq_empty_iff.mpr nothing
  unfold least
  rw [dif_neg]
  rw [vacant]
  exact Finset.not_nonempty_empty

theorem least_eq_some (m : FiniteMap Key Value) {key : Key} {value : Value}
    (found : m.lookup key = some value)
    (lowest : forall other, other < key -> m.lookup other = none) :
    m.least = some (key, value) := by
  have member : key ∈ m.keys := (m.mem_keys key).mpr (Option.isSome_iff_exists.mpr ⟨_, found⟩)
  have occupied : m.keys.Nonempty := ⟨key, member⟩
  have same : m.keys.min' occupied = key := by
    apply le_antisymm (m.keys.min'_le key member)
    by_contra below
    have absent := lowest _ (not_le.mp below)
    have present := (m.mem_keys _).mp (m.keys.min'_mem occupied)
    rw [absent] at present
    cases present
  unfold least
  rw [dif_pos occupied, same, found]
  rfl

end Least

end FiniteMap

end Basis
end Rsrt
