import Mathlib.Tactic

namespace Rsrt
namespace Basis

/-!
# Components that answer

A component takes an input, changes its state and answers.  Two components that start
in related states and stay related give the same answers, up to a translation of the
inputs and a reading of the answers, for every list of inputs that is allowed.
-/

universe u v w

variable {State : Type u} {Input : Type v} {Output : Type w}

/-- The answers to a list of inputs. -/
def replies (serve : State -> Input -> State × Output) : State -> List Input -> List Output
  | _, [] => []
  | state, input :: rest => (serve state input).2 :: replies serve (serve state input).1 rest

/-- Every input meets the condition in the state in which it is taken. -/
def Permitted (condition : State -> Input -> Prop) (serve : State -> Input -> State × Output) :
    State -> List Input -> Prop
  | _, [] => True
  | state, input :: rest =>
      condition state input ∧ Permitted condition serve (serve state input).1 rest

instance decidablePermitted (condition : State -> Input -> Prop)
    (serve : State -> Input -> State × Output)
    [decides : forall state input, Decidable (condition state input)] :
    forall state inputs, Decidable (Permitted condition serve state inputs)
  | _, [] => .isTrue trivial
  | state, input :: rest =>
      have := decidablePermitted condition serve (serve state input).1 rest
      inferInstanceAs (Decidable (condition state input ∧ _))

variable {State' : Type u} {Input' : Type v} {Output' : Type w}
  {condition : State -> Input -> Prop} {serve : State -> Input -> State × Output}
  {serve' : State' -> Input' -> State' × Output'}

/-- The state after a list of inputs. -/
def settle (serve : State -> Input -> State × Output) (state : State) (inputs : List Input) : State :=
  inputs.foldl (fun state input => (serve state input).1) state

section Simulation

variable (Related : State -> State' -> Prop) (translate : Input -> Input')
  (read : Output -> Output')
  (simulates : forall state state' input, Related state state' -> condition state input ->
    (serve' state' (translate input)).2 = read (serve state input).2 ∧
      Related (serve state input).1 (serve' state' (translate input)).1)

include simulates

/-- Related components give the same answers. -/
theorem replies_of_simulation {state : State} {state' : State'} (related : Related state state')
    {inputs : List Input} (permitted : Permitted condition serve state inputs) :
    replies serve' state' (inputs.map translate) = (replies serve state inputs).map read := by
  induction inputs generalizing state state' with
  | nil => rfl
  | cons input rest ih =>
      rcases simulates state state' input related permitted.1 with ⟨same, still⟩
      rw [List.map_cons, replies, replies, List.map_cons, same, ih still permitted.2]

/-- Related components stay related. -/
theorem related_of_simulation {state : State} {state' : State'} (related : Related state state')
    {inputs : List Input} (permitted : Permitted condition serve state inputs) :
    Related (settle serve state inputs) (settle serve' state' (inputs.map translate)) := by
  induction inputs generalizing state state' with
  | nil => exact related
  | cons input rest ih => exact ih (simulates state state' input related permitted.1).2 permitted.2

end Simulation

end Basis
end Rsrt
