import Mathlib.Tactic

namespace Rsrt
namespace Basis

/-!
# Guarded machines and the histories of their runs

A guarded machine is a deterministic transition function together with the
states it may start in and a condition on each event.  Nondeterminism lives in
the choice of events: a network that may hand over any packet it has ever
carried is a guard on the event that names the packet.

A run records its history: every event together with the state in which it was
taken.  Safety properties that speak about the past are statements about this
list, and the two induction rules below are the only place where runs are
unfolded.
-/

universe u v

/-- A state machine whose events are filtered by a guard. -/
structure Machine (State : Type u) (Event : Type v) where
  start : State -> Prop
  guard : State -> Event -> Prop
  next : State -> Event -> State

variable {State : Type u} {Event : Type v}

/-- `Run M history final`: the events of `history`, oldest first and each one
paired with the state it was taken in, lead from a start state to `final`. -/
inductive Machine.Run (M : Machine State Event) : List (State × Event) -> State -> Prop
  | start {state : State} (initial : M.start state) : M.Run [] state
  | step {history : List (State × Event)} {state : State} {event : Event}
      (before : M.Run history state) (allowed : M.guard state event) :
      M.Run (history ++ [(state, event)]) (M.next state event)

/-- A state that some run ends in. -/
def Machine.Reachable (M : Machine State Event) (state : State) : Prop :=
  Exists fun history => M.Run history state

namespace Machine

variable {M : Machine State Event}

/-- What holds at the start and survives every allowed event holds at the end
of every run, jointly with whatever it says about the history. -/
theorem Run.induct {history : List (State × Event)} {final : State}
    (Holds : List (State × Event) -> State -> Prop) (run : M.Run history final)
    (base : forall state, M.start state -> Holds [] state)
    (preserved : forall history state event, M.Run history state -> Holds history state ->
      M.guard state event -> Holds (history ++ [(state, event)]) (M.next state event)) :
    Holds history final := by
  induction run with
  | start initial => exact base _ initial
  | step before allowed ih => exact preserved _ _ _ before ih allowed

/-- The invariant rule for properties of the current state alone. -/
theorem Run.invariant {history : List (State × Event)} {final : State}
    (Holds : State -> Prop) (run : M.Run history final)
    (base : forall state, M.start state -> Holds state)
    (preserved : forall state event, Holds state -> M.guard state event ->
      Holds (M.next state event)) :
    Holds final :=
  run.induct (fun _ state => Holds state) base
    (fun _ state event _ holds allowed => preserved state event holds allowed)

theorem Reachable.invariant {final : State} (Holds : State -> Prop)
    (reachable : M.Reachable final)
    (base : forall state, M.start state -> Holds state)
    (preserved : forall state event, Holds state -> M.guard state event ->
      Holds (M.next state event)) :
    Holds final := by
  rcases reachable with ⟨_, run⟩
  exact run.invariant Holds base preserved

/-- Every entry of a history was taken at the end of the run made of the
entries before it, and was allowed there. -/
theorem Run.at_entry {earlier later : List (State × Event)} {state final : State} {event : Event}
    (run : M.Run (earlier ++ (state, event) :: later) final) :
    M.Run earlier state ∧ M.guard state event := by
  generalize whole : earlier ++ (state, event) :: later = history at run
  induction run generalizing later with
  | start initial => simp at whole
  | @step history last lastEvent before allowed ih =>
      rcases List.eq_nil_or_concat later with empty | ⟨rest, newest, split⟩
      · subst empty
        have parts := List.append_inj whole (by
          have sizes := congrArg List.length whole
          simp at sizes
          exact sizes)
        have same : (state, event) = (last, lastEvent) := by
          simpa using parts.2
        cases same
        exact parts.1 ▸ ⟨before, allowed⟩
      · subst split
        refine @ih rest ?_
        have regrouped : (earlier ++ (state, event) :: rest) ++ [newest] =
            history ++ [(last, lastEvent)] := by
          simpa using whole
        exact (List.append_inj' regrouped rfl).1

/-- What holds right after an entry and survives the entries behind it holds at the end. -/
theorem Run.since (Holds : State -> Prop) {earlier later : List (State × Event)}
    {state final : State} {event : Event}
    (run : M.Run (earlier ++ (state, event) :: later) final) (base : Holds (M.next state event))
    (preserved : forall history state event, M.Run history state -> M.guard state event ->
      (state, event) ∈ later -> Holds state -> Holds (M.next state event)) :
    Holds final := by
  generalize whole : earlier ++ (state, event) :: later = history at run
  induction run generalizing later with
  | start initial => simp at whole
  | @step history last lastEvent before allowed ih =>
      rcases List.eq_nil_or_concat later with empty | ⟨rest, newest, split⟩
      · subst empty
        have same : (state, event) = (last, lastEvent) := by
          have ends := congrArg List.getLast? whole
          simpa using ends
        cases same
        exact base
      · subst split
        have regrouped : (earlier ++ (state, event) :: rest) ++ [newest] =
            history ++ [(last, lastEvent)] := by
          simpa using whole
        have parts := List.append_inj' regrouped rfl
        have newest_eq : newest = (last, lastEvent) := by
          simpa using parts.2
        rw [List.concat_eq_append, newest_eq] at preserved
        apply preserved history last lastEvent before allowed
        · exact List.mem_append_right _ (List.mem_singleton_self _)
        · exact ih (fun history state event run allowed member =>
            preserved history state event run allowed (List.mem_append_left _ member)) parts.1

/-- A quantity that no step lowers is, at every later entry, at least what it
was right after an earlier one. -/
theorem Run.le_later {Value : Type v} [Preorder Value] (measure : State -> Value)
    (grows : forall history state event, M.Run history state -> M.guard state event ->
      measure state ≤ measure (M.next state event))
    {earlier later : List (State × Event)} {state final : State} {event : Event}
    (run : M.Run (earlier ++ (state, event) :: later) final) :
    measure (M.next state event) ≤ measure final ∧
      forall entry, entry ∈ later -> measure (M.next state event) ≤ measure entry.1 := by
  have reaches {later : List (State × Event)} {final : State}
      (run : M.Run (earlier ++ (state, event) :: later) final) :
      measure (M.next state event) ≤ measure final :=
    run.since (fun reached => measure (M.next state event) ≤ measure reached) (le_refl _)
      (fun history state event before allowed _ above =>
        le_trans above (grows history state event before allowed))
  refine ⟨reaches run, ?_⟩
  intro entry member
  rcases List.append_of_mem member with ⟨middle, rest, rfl⟩
  have split : earlier ++ (state, event) :: (middle ++ entry :: rest) =
      (earlier ++ (state, event) :: middle) ++ entry :: rest := by
    rw [List.append_assoc, List.cons_append]
  rw [split] at run
  exact reaches run.at_entry.1

/-! ## Simulation -/

/-- A machine whose steps are steps of another one has the runs of the other one. -/
theorem Run.simulate {State' : Type u} {Event' : Type v} {M' : Machine State' Event'}
    (image : State -> State') (move : State -> Event -> Event')
    (starts : forall state, M.start state -> M'.start (image state))
    (moves : forall state event, M.guard state event ->
      M'.guard (image state) (move state event) ∧
        M'.next (image state) (move state event) = image (M.next state event))
    {history : List (State × Event)} {final : State} (run : M.Run history final) :
    M'.Run (history.map fun entry => (image entry.1, move entry.1 entry.2)) (image final) := by
  induction run with
  | start initial => exact .start (starts _ initial)
  | @step history state event before allowed ih =>
      rcases moves state event allowed with ⟨permitted, next⟩
      rw [List.map_append, List.map_singleton, ← next]
      exact ih.step permitted

/-! ## Fewer events -/

/-- The machine whose events meet a further condition. -/
def restrict (M : Machine State Event) (condition : State -> Event -> Prop) :
    Machine State Event :=
  { M with guard := fun state event => M.guard state event ∧ condition state event }

instance decidableRestrict (M : Machine State Event) (condition : State -> Event -> Prop)
    [inner : forall state event, Decidable (M.guard state event)]
    [outer : forall state event, Decidable (condition state event)] (state : State)
    (event : Event) : Decidable ((M.restrict condition).guard state event) :=
  inferInstanceAs (Decidable (M.guard state event ∧ condition state event))

/-! ## Clocks -/

/-- The machine with a clock that does not go back.  It starts at an instant that the
start state names, and an event may carry an instant. -/
def timed {Time : Type v} [LE Time] (M : Machine State Event) (began : State -> Time)
    (time : Event -> Option Time) : Machine (State × Time) Event where
  start := fun (state, clock) => M.start state ∧ clock = began state
  guard := fun (state, clock) event =>
    M.guard state event ∧ forall instant, instant ∈ time event -> clock ≤ instant
  next := fun (state, clock) event => (M.next state event, (time event).getD clock)

instance decidableTimed {Time : Type v} [LE Time] [forall x y : Time, Decidable (x ≤ y)]
    (M : Machine State Event) (began : State -> Time) (time : Event -> Option Time)
    [inner : forall state event, Decidable (M.guard state event)] (state : State × Time)
    (event : Event) : Decidable ((M.timed began time).guard state event) :=
  inferInstanceAs (Decidable (M.guard state.1 event ∧
    forall instant, instant ∈ time event -> state.2 ≤ instant))

/-! ## Executing a list of events -/

/-- The state after a list of events, whether or not they are allowed. -/
def exec (M : Machine State Event) (state : State) (events : List Event) : State :=
  events.foldl M.next state

/-- Every event of the list meets the guard in the state it is taken in. -/
def Allowed (M : Machine State Event) : State -> List Event -> Prop
  | _, [] => True
  | state, event :: rest => M.guard state event ∧ M.Allowed (M.next state event) rest

instance decidableAllowed (M : Machine State Event)
    [decide : forall state event, Decidable (M.guard state event)] :
    forall state events, Decidable (M.Allowed state events)
  | _, [] => .isTrue trivial
  | state, event :: rest =>
      have := decidableAllowed M (M.next state event) rest
      inferInstanceAs (Decidable (M.guard state event ∧ M.Allowed (M.next state event) rest))

/-- The history that executing the events leaves behind. -/
def trace (M : Machine State Event) : State -> List Event -> List (State × Event)
  | _, [] => []
  | state, event :: rest => (state, event) :: M.trace (M.next state event) rest

theorem Run.exec {history : List (State × Event)} {state : State} (run : M.Run history state)
    {events : List Event} (allowed : M.Allowed state events) :
    M.Run (history ++ M.trace state events) (M.exec state events) := by
  induction events generalizing history state with
  | nil =>
      rw [trace, List.append_nil]
      exact run
  | cons event rest ih =>
      have further := ih (run.step allowed.1) allowed.2
      rw [List.append_assoc, List.singleton_append] at further
      exact further

theorem run_exec {state : State} (initial : M.start state) {events : List Event}
    (allowed : M.Allowed state events) : M.Run (M.trace state events) (M.exec state events) :=
  (Run.start initial).exec allowed

end Machine

end Basis
end Rsrt
