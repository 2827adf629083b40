import Mathlib.Data.Finset.Lattice.Fold
import Mathlib.Order.Interval.Finset.Nat
import Mathlib.Tactic

namespace Rsrt
namespace Basis

/-!
# Send windows

The abstract state of a sender that keeps a numbered stream available for
retransmission: everything submitted so far, the first position that is not yet
released, the first position that was not yet sent, and the positions to be sent
again.  The invariant is carried by the fields.

A window can only move forward.  `Later` is what every operation does to it, and
`Advanced` what the operations do that take positions from the front.
-/

universe u

structure SendWindow (α : Type u) where
  /-- Everything submitted, oldest first. -/
  stream : List α
  /-- First position that is not released. -/
  base : Nat
  /-- First position that was not sent. -/
  next : Nat
  /-- Positions to be sent again. -/
  wanted : Finset Nat
  base_le : base ≤ next
  next_le : next ≤ stream.length
  inside : forall i, i ∈ wanted -> base ≤ i ∧ i < next

namespace SendWindow

variable {α : Type u}

def start : SendWindow α where
  stream := []
  base := 0
  next := 0
  wanted := ∅
  base_le := le_refl 0
  next_le := le_refl 0
  inside := fun _ member => absurd member (Finset.notMem_empty _)

def submit (w : SendWindow α) (value : α) : SendWindow α where
  stream := w.stream ++ [value]
  base := w.base
  next := w.next
  wanted := w.wanted
  base_le := w.base_le
  next_le := by
    rw [List.length_append]
    exact Nat.le_add_right_of_le w.next_le
  inside := w.inside

/-- Gives up everything below `target`, sent or not. -/
def advance (w : SendWindow α) (target : Nat) (bound : target ≤ w.stream.length) :
    SendWindow α where
  stream := w.stream
  base := target
  next := max w.next target
  wanted := w.wanted.filter (target ≤ ·)
  base_le := Nat.le_max_right _ _
  next_le := Nat.max_le.mpr ⟨w.next_le, bound⟩
  inside := by
    intro i member
    rw [Finset.mem_filter] at member
    have below := (w.inside i member.1).2
    exact ⟨member.2, Nat.lt_of_lt_of_le below (Nat.le_max_left _ _)⟩

/-- Sends the next position for the first time. -/
def send (w : SendWindow α) (more : w.next < w.stream.length) : SendWindow α where
  stream := w.stream
  base := w.base
  next := w.next + 1
  wanted := w.wanted
  base_le := Nat.le_succ_of_le w.base_le
  next_le := more
  inside := by
    intro i member
    have bounds := w.inside i member
    exact ⟨bounds.1, Nat.lt_succ_of_lt bounds.2⟩

/-- Replaces the positions to be sent again. -/
def want (w : SendWindow α) (wanted : Finset Nat)
    (inside : forall i, i ∈ wanted -> w.base ≤ i ∧ i < w.next) : SendWindow α :=
  { w with wanted := wanted, inside := inside }

/-- No position returns. -/
structure Later (w w' : SendWindow α) : Prop where
  base_le : w.base ≤ w'.base
  next_le : w.next ≤ w'.next
  isPrefix : w.stream <+: w'.stream

namespace Later

theorem refl (w : SendWindow α) : Later w w :=
  ⟨le_refl _, le_refl _, List.prefix_refl _⟩

theorem trans {first second third : SendWindow α} (left : Later first second)
    (right : Later second third) : Later first third :=
  ⟨le_trans left.base_le right.base_le, le_trans left.next_le right.next_le,
    left.isPrefix.trans right.isPrefix⟩

/-- A submitted value keeps its position. -/
theorem getElem? {w w' : SendWindow α} (later : Later w w') {i : Nat} {value : α}
    (found : w.stream[i]? = some value) : w'.stream[i]? = some value := by
  rcases later.isPrefix with ⟨rest, equal⟩
  rw [← equal, List.getElem?_append_left (List.getElem?_eq_some_iff.mp found).1]
  exact found

end Later

/-- Positions left from the front. -/
structure Advanced (w w' : SendWindow α) : Prop where
  stream : w'.stream = w.stream
  base_le : w.base ≤ w'.base
  next : w'.next = max w.next w'.base
  wanted : w'.wanted = w.wanted.filter (w'.base ≤ ·)

namespace Advanced

theorem refl (w : SendWindow α) : Advanced w w where
  stream := rfl
  base_le := le_refl _
  next := (Nat.max_eq_left w.base_le).symm
  wanted := by
    apply (Finset.filter_true_of_mem _).symm
    intro i member
    exact (w.inside i member).1

theorem trans {first second third : SendWindow α} (left : Advanced first second)
    (right : Advanced second third) : Advanced first third where
  stream := right.stream.trans left.stream
  base_le := le_trans left.base_le right.base_le
  next := by
    have ordered := right.base_le
    rw [right.next, left.next, Nat.max_assoc, Nat.max_eq_right ordered]
  wanted := by
    rw [right.wanted, left.wanted, Finset.filter_filter]
    apply Finset.filter_congr
    intro i _
    exact ⟨And.right, fun above => ⟨le_trans right.base_le above, above⟩⟩

theorem later {w w' : SendWindow α} (advanced : Advanced w w') : Later w w' where
  base_le := advanced.base_le
  next_le := by
    rw [advanced.next]
    exact Nat.le_max_left _ _
  isPrefix := by rw [advanced.stream]

end Advanced

/-- Only the positions to be sent again changed. -/
structure Rewanted (w w' : SendWindow α) : Prop where
  stream : w'.stream = w.stream
  base : w'.base = w.base
  next : w'.next = w.next

namespace Rewanted

theorem refl (w : SendWindow α) : Rewanted w w :=
  ⟨rfl, rfl, rfl⟩

theorem trans {first second third : SendWindow α} (left : Rewanted first second)
    (right : Rewanted second third) : Rewanted first third :=
  ⟨right.stream.trans left.stream, right.base.trans left.base, right.next.trans left.next⟩

theorem later {w w' : SendWindow α} (rewanted : Rewanted w w') : Later w w' :=
  ⟨rewanted.base.ge, rewanted.next.ge, by rw [rewanted.stream]⟩

end Rewanted

theorem rewanted_want (w : SendWindow α) (wanted : Finset Nat)
    (inside : forall i, i ∈ wanted -> w.base ≤ i ∧ i < w.next) :
    Rewanted w (w.want wanted inside) :=
  ⟨rfl, rfl, rfl⟩

theorem advanced_advance (w : SendWindow α) {target : Nat} (ahead : w.base ≤ target)
    (bound : target ≤ w.stream.length) : Advanced w (w.advance target bound) :=
  ⟨rfl, ahead, rfl, rfl⟩

theorem later_submit (w : SendWindow α) (value : α) : Later w (w.submit value) :=
  ⟨le_refl _, le_refl _, List.prefix_append _ _⟩

end SendWindow

end Basis
end Rsrt
