import Mathlib.Tactic

namespace Rsrt
namespace Basis

/-!
# Messages on their way

A reader takes messages one after the other, and each one must suit the state in which it
is taken.  `Carries takes state messages final` says that all of them do, in their order.
Messages join at the end and leave at the front.
-/

universe u v

variable {State : Type u} {Message : Type v}

inductive Carries (takes : State -> Message -> State -> Prop) :
    State -> List Message -> State -> Prop
  | done (state : State) : Carries takes state [] state
  | more {state next final : State} {message : Message} {rest : List Message}
      (taken : takes state message next) (further : Carries takes next rest final) :
      Carries takes state (message :: rest) final

namespace Carries

variable {takes : State -> Message -> State -> Prop} {first middle last : State}

theorem single {message : Message} (taken : takes first message last) :
    Carries takes first [message] last :=
  .more taken (.done last)

theorem append {early late : List Message} (before : Carries takes first early middle)
    (after : Carries takes middle late last) : Carries takes first (early ++ late) last := by
  induction before with
  | done state => exact after
  | more taken further ih => exact .more taken (ih after)

theorem split {early late : List Message} (whole : Carries takes first (early ++ late) last) :
    Exists fun middle => Carries takes first early middle ∧ Carries takes middle late last := by
  induction early generalizing first with
  | nil => exact ⟨first, .done first, whole⟩
  | cons message early ih =>
      cases whole with
      | more taken further =>
          rcases ih further with ⟨middle, before, after⟩
          exact ⟨middle, .more taken before, after⟩

/-- Messages that no state minds. -/
theorem of_idle {messages : List Message} (state : State)
    (idle : forall message, message ∈ messages -> takes state message state) :
    Carries takes state messages state := by
  induction messages with
  | nil => exact .done state
  | cons message rest ih =>
      apply Carries.more (idle message List.mem_cons_self)
      apply ih
      intro later member
      exact idle later (List.mem_cons_of_mem _ member)

theorem mono {takes' : State -> Message -> State -> Prop} {messages : List Message}
    (implies : forall state message next, takes state message next -> takes' state message next)
    (whole : Carries takes first messages last) : Carries takes' first messages last := by
  induction whole with
  | done state => exact .done state
  | more taken further ih => exact .more (implies _ _ _ taken) ih

theorem taken_of_mem {messages : List Message} (whole : Carries takes first messages last)
    {message : Message} (member : message ∈ messages) :
    Exists fun state => Exists fun next => takes state message next := by
  induction whole with
  | done state => cases member
  | more taken further ih =>
      rcases List.mem_cons.mp member with rfl | later
      · exact ⟨_, _, taken⟩
      · exact ih later

end Carries

end Basis
end Rsrt
