import Mathlib.Tactic

namespace Rsrt
namespace Basis

/-!
# Schedules that charge for what they emit

A paced source keeps a virtual time while its gate is armed.  An emission is charged a
cost, by which it advances the virtual time; a disarmed gate starts again from the
present.  The gate lets nothing out before the virtual time, so that lateness may be made
up for but never accumulates beyond it.

The ledger of the charges bounds the rate: every emission is as far from the first one as
the charges in between add up to.
-/

/-- An emission and what it is charged. -/
structure Charge where
  time : Nat
  cost : Nat
deriving DecidableEq

def Charge.total (charges : List Charge) : Nat := (charges.map Charge.cost).sum

theorem Charge.total_append (charges later : List Charge) :
    total (charges ++ later) = total charges + total later := by
  unfold total
  rw [List.map_append, List.sum_append]

/-- What happens to the virtual time at an instant.  `none` is a disarmed gate. -/
inductive Paces (now : Nat) (v : Option Int) : Option Int -> Option Charge -> Prop
  | idle : Paces now v v none
  | disarm (due : forall t, t ∈ v -> t ≤ now) : Paces now v none none
  | emit (cost : Nat) (due : forall t, t ∈ v -> t ≤ now) :
      Paces now v (some (v.getD now + cost)) (some ⟨now, cost⟩)

/-- The charges so far, oldest first, as of an instant and a virtual time. -/
structure Ledger (clock : Nat) (v : Option Int) (charges : List Charge) : Prop where
  /-- Only an emission arms the gate. -/
  fresh : charges = [] -> v = none
  /-- Everything charged lies between the first emission and the virtual time. -/
  covered : forall first, first ∈ charges.head? ->
    (first.time : Int) + Charge.total charges ≤ v.getD clock
  spaced : forall first, first ∈ charges.head? -> forall k charge, charges[k]? = some charge ->
    first.time + Charge.total (charges.take k) ≤ charge.time

namespace Ledger

variable {clock now : Nat} {v v' : Option Int} {charges : List Charge}

theorem empty (clock : Nat) : Ledger clock none [] where
  fresh := fun _ => rfl
  covered := fun _ member => absurd member (Option.not_mem_none _)
  spaced := fun _ member => absurd member (Option.not_mem_none _)

/-- Time passes. -/
theorem later (ledger : Ledger clock v charges) (passed : clock ≤ now) :
    Ledger now v charges where
  fresh := ledger.fresh
  covered := by
    intro first member
    have before := ledger.covered first member
    cases v with
    | none =>
        change _ ≤ (clock : Int) at before
        change _ ≤ (now : Int)
        omega
    | some t => exact before
  spaced := ledger.spaced

/-- What has been charged lies in the past once the virtual time does. -/
theorem past (ledger : Ledger now v charges) (due : forall t, t ∈ v -> t ≤ now)
    {first : Charge} (member : first ∈ charges.head?) :
    (first.time : Int) + Charge.total charges ≤ now := by
  have before := ledger.covered first member
  cases v with
  | none => exact before
  | some t => exact le_trans before (due t rfl)

theorem emit (ledger : Ledger now v charges) (cost : Nat) (due : forall t, t ∈ v -> t ≤ now) :
    Ledger now (some (v.getD now + cost)) (charges ++ [⟨now, cost⟩]) where
  fresh := fun nothing => absurd nothing (List.append_ne_nil_of_right_ne_nil _ (List.cons_ne_nil _ _))
  covered := by
    intro first member
    rw [Charge.total_append]
    change (first.time : Int) + (Charge.total charges + (cost + 0) : Nat) ≤ v.getD now + cost
    cases charges with
    | nil =>
        cases member
        rw [ledger.fresh rfl]
        change (now : Int) + ((0 + (cost + 0) : Nat) : Int) ≤ now + cost
        omega
    | cons head rest =>
        have before := ledger.covered first member
        omega
  spaced := by
    intro first member k charge found
    cases charges with
    | nil =>
        cases member
        cases k with
        | zero =>
            cases found
            exact le_refl _
        | succ k => cases found
    | cons head rest =>
        rcases Nat.lt_or_ge k (head :: rest).length with inside | beyond
        · rw [List.getElem?_append_left inside] at found
          rw [List.take_append_of_le_length (Nat.le_of_lt inside)]
          exact ledger.spaced first member k charge found
        · rw [List.getElem?_append_right beyond] at found
          rcases List.getElem?_eq_some_iff.mp found with ⟨last, rfl⟩
          have whole : k = (head :: rest).length := by
            rw [List.length_singleton] at last
            omega
          subst whole
          rw [List.take_left]
          have before := ledger.past due member
          rw [List.getElem_singleton]
          change first.time + Charge.total (head :: rest) ≤ now
          omega

/-- A step keeps the ledger. -/
theorem paces (ledger : Ledger now v charges) {charge : Option Charge}
    (paces : Paces now v v' charge) : Ledger now v' (charges ++ charge.toList) := by
  cases paces with
  | idle =>
      rw [Option.toList_none, List.append_nil]
      exact ledger
  | disarm due =>
      rw [Option.toList_none, List.append_nil]
      exact ⟨fun _ => rfl, fun first member => ledger.past due member, ledger.spaced⟩
  | emit cost due => exact ledger.emit cost due

end Ledger

end Basis
end Rsrt
