import Mathlib.Tactic

namespace Rsrt
namespace Basis

/-!
# Polling until nothing is left

A component that produces output on demand is polled: every poll returns an item or
nothing, and the next state.  Draining repeats the poll until it returns nothing.  A
drain ends when every item lowers some number, and what a poll preserves, a drain
preserves.
-/

universe u v

variable {State : Type u} {Item : Type v} {poll : State -> State × Option Item}

/-- `Drains poll state items final`: polling from `state` returns the `items`, in order,
and then nothing. -/
inductive Drains (poll : State -> State × Option Item) : State -> List Item -> State -> Prop
  | done {state : State} (nothing : (poll state).2 = none) : Drains poll state [] (poll state).1
  | more {state final : State} {item : Item} {items : List Item}
      (polled : (poll state).2 = some item) (rest : Drains poll (poll state).1 items final) :
      Drains poll state (item :: items) final

namespace Drains

variable {state final : State} {items : List Item}

/-- A drain ends with a poll that returns nothing, and what every poll preserves holds
before and after it. -/
theorem last (Holds : State -> Prop) (preserved : forall state, Holds state -> Holds (poll state).1)
    (drains : Drains poll state items final) (holds : Holds state) :
    Holds final ∧ Exists fun before =>
      Holds before ∧ (poll before).2 = none ∧ final = (poll before).1 := by
  induction drains with
  | done nothing => exact ⟨preserved _ holds, _, holds, nothing, rfl⟩
  | more polled rest ih => exact ih (preserved _ holds)

theorem invariant (Holds : State -> Prop)
    (preserved : forall state, Holds state -> Holds (poll state).1)
    (drains : Drains poll state items final) (holds : Holds state) : Holds final :=
  (drains.last Holds preserved holds).1

end Drains

end Basis
end Rsrt
