import Mathlib.Tactic.Basic

/-!
# Programs with a state that may be cut short

The rules of their pre- and postconditions.  A postcondition says what holds
where the program ends with a value, and what holds where it is cut short.
-/

/-- A program on a state that ends with a value or with an error. -/
abbrev Effect (State Error Value : Type) := ExceptT Error (StateM State) Value

namespace Effect

variable {State Error First Second : Type}

def exec (program : Effect State Error First) (state : State) :
    Except Error First × State :=
  program.run state

/-- A program given by its result and its final state. -/
def of (program : State → Except Error First × State) :
    Effect State Error First :=
  ExceptT.mk program

theorem exec_of (program : State → Except Error First × State) (state : State) :
    (of program).exec state = program state := rfl

theorem exec_pure (value : First) (state : State) :
    exec (pure value : Effect State Error First) state = (.ok value, state) :=
  rfl

theorem exec_bind (first : Effect State Error First)
    (next : First → Effect State Error Second) (state : State) :
    exec (first >>= next) state =
      match first.exec state with
      | (.ok value, middle) => (next value).exec middle
      | (.error error, middle) => (.error error, middle) := by
  change (first.exec state >>= fun ended =>
    ExceptT.bindCont next ended.1 ended.2 : Id _) = _
  cases hfirst : first.exec state with
  | mk result middle =>
      cases result with
      | ok value => rfl
      | error error => rfl

/-- From a state with `pre` the program ends with a value as `done` says, or is
cut short as `cut` says. -/
def Triple (pre : State → Prop) (program : Effect State Error First)
    (done : First → State → Prop) (cut : Error → State → Prop) : Prop :=
  ∀ state, pre state →
    match program.exec state with
    | (.ok value, last) => done value last
    | (.error error, last) => cut error last

variable {pre pre' : State → Prop} {done done' : First → State → Prop}
  {cut cut' : Error → State → Prop}

theorem Triple.of {program : State → Except Error First × State}
    (hprogram : ∀ state, pre state →
      match program state with
      | (.ok value, last) => done value last
      | (.error error, last) => cut error last) :
    Triple pre (Effect.of program) done cut := hprogram

theorem Triple.pure {value : First}
    (hpre : ∀ state, pre state → done value state) :
    Triple pre (Pure.pure value : Effect State Error First) done cut := hpre

theorem Triple.throw {error : Error}
    (hpre : ∀ state, pre state → cut error state) :
    Triple pre (throw error : Effect State Error First) done cut := hpre

/-- The rule of consequence. -/
theorem Triple.mono {program : Effect State Error First}
    (hprogram : Triple pre program done cut)
    (hpre : ∀ state, pre' state → pre state)
    (hdone : ∀ value state, done value state → done' value state)
    (hcut : ∀ error state, cut error state → cut' error state) :
    Triple pre' program done' cut' := by
  intro state hstate
  have hended := hprogram state (hpre state hstate)
  cases hexec : program.exec state with
  | mk result last =>
      rw [hexec] at hended
      cases result with
      | ok value => exact hdone value last hended
      | error error => exact hcut error last hended

/-- The rule of sequences. -/
theorem Triple.bind {first : Effect State Error First}
    {next : First → Effect State Error Second} {done : Second → State → Prop}
    (middle : First → State → Prop) (hfirst : Triple pre first middle cut)
    (hnext : ∀ value, Triple (middle value) (next value) done cut) :
    Triple pre (first >>= next) done cut := by
  intro state hstate
  have hmiddle := hfirst state hstate
  rw [exec_bind]
  cases hexec : first.exec state with
  | mk result middle =>
      rw [hexec] at hmiddle
      cases result with
      | ok value => exact hnext value middle hmiddle
      | error error => exact hmiddle

theorem Triple.choose {program : Effect State Error First} {Choice : Type}
    {choices : Choice → State → Prop}
    (hprogram : ∀ choice, Triple (choices choice) program done cut) :
    Triple (fun state => ∃ choice, choices choice state) program done cut :=
  fun state ⟨choice, hstate⟩ => hprogram choice state hstate

theorem Triple.ite {condition : Prop} [Decidable condition]
    {program other : Effect State Error First}
    (hprogram : Triple pre program done cut) (hother : Triple pre other done cut) :
    Triple pre (if condition then program else other) done cut := by
  split
  · exact hprogram
  · exact hother

/-- A fact that is not about the state, taken out of the precondition. -/
theorem Triple.assume {program : Effect State Error First} {fact : Prop}
    (hprogram : fact → Triple pre program done cut) :
    Triple (fun state => fact ∧ pre state) program done cut :=
  fun state hstate => hprogram hstate.1 state hstate.2

end Effect
