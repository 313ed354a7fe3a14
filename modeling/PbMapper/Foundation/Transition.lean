import Mathlib.Data.List.Induction
import Mathlib.Data.Option.Basic

/-!
# Labelled transition systems

Runs of a nondeterministic system and the two rules every safety result of the
development goes through: an invariant of the steps is an invariant of the
reachable states, and restricting the steps by a condition on the state before
the step and its event gives the runs "all of whose steps meet the condition".
-/

namespace Transition

/-- Initial states and a step relation labelled by events. -/
structure System (State Event : Type*) where
  initial : State → Prop
  step : State → Event → State → Prop

namespace System

variable {State Event : Type*} (system : System State Event)

/-- Finite runs.  Events are listed in the order in which they happen. -/
inductive Run : State → List Event → State → Prop
  | nil (state : State) : Run state [] state
  | snoc {first middle last : State} {events : List Event} {event : Event}
      (hrun : Run first events middle)
      (hstep : system.step middle event last) :
      Run first (events ++ [event]) last

/-- States at the end of a run from an initial state. -/
def Reachable (state : State) : Prop :=
  ∃ start events, system.initial start ∧ system.Run start events state

/-- The runs whose every step meets `condition` in the state before it. -/
def restrict (condition : State → Event → Prop) : System State Event where
  initial := system.initial
  step state event next := condition state event ∧ system.step state event next

/-- The system of a partial step function. -/
def ofPartial (initial : State → Prop)
    (step : State → Event → Option State) : System State Event where
  initial := initial
  step state event next := step state event = some next

variable {system}

theorem Reachable.initial {state : State} (hinitial : system.initial state) :
    system.Reachable state :=
  ⟨state, [], hinitial, .nil state⟩

theorem Reachable.step {state next : State} {event : Event}
    (hreachable : system.Reachable state)
    (hstep : system.step state event next) : system.Reachable next := by
  obtain ⟨start, events, hinitial, hrun⟩ := hreachable
  exact ⟨start, events ++ [event], hinitial, .snoc hrun hstep⟩

/-- What one step preserves, a run preserves. -/
theorem Run.preserves {motive : State → Prop}
    (hpreserve : ∀ state event next, motive state →
      system.step state event next → motive next)
    {first last : State} {events : List Event}
    (hrun : system.Run first events last) (hfirst : motive first) :
    motive last := by
  induction hrun with
  | nil => exact hfirst
  | snoc _ hstep ih => exact hpreserve _ _ _ ih hstep

/-- The invariant rule. -/
theorem Reachable.invariant {motive : State → Prop}
    (hinitial : ∀ state, system.initial state → motive state)
    (hpreserve : ∀ state event next, motive state →
      system.step state event next → motive next)
    {state : State} (hreachable : system.Reachable state) : motive state := by
  obtain ⟨start, events, hstart, hrun⟩ := hreachable
  exact hrun.preserves hpreserve (hinitial start hstart)

/-- A run of the restricted system is a run of the system. -/
theorem Run.of_restrict {condition : State → Event → Prop}
    {first last : State} {events : List Event}
    (hrun : (system.restrict condition).Run first events last) :
    system.Run first events last := by
  induction hrun with
  | nil => exact .nil _
  | snoc _ hstep ih => exact .snoc ih hstep.2

/-- A system with more steps reaches more states. -/
theorem Reachable.mono {larger : System State Event}
    (hinitial : ∀ state, system.initial state → larger.initial state)
    (hstep : ∀ state event next, system.step state event next →
      larger.step state event next)
    {state : State} (hreachable : system.Reachable state) :
    larger.Reachable state := by
  refine hreachable.invariant (motive := larger.Reachable) ?_ ?_
  · exact fun start hstart => .initial (hinitial start hstart)
  · exact fun before event after hbefore hafter =>
      hbefore.step (hstep before event after hafter)

/-- Executing a list of events with a sound partial step function is a run. -/
theorem run_of_foldlM {execute : State → Event → Option State}
    (hsound : ∀ state event next, execute state event = some next →
      system.step state event next)
    {start last : State} {events : List Event}
    (hfold : events.foldlM execute start = some last) :
    system.Run start events last := by
  induction events using List.reverseRecOn generalizing last with
  | nil =>
      obtain rfl : start = last := by simpa using hfold
      exact .nil start
  | append_singleton events event ih =>
      rw [List.foldlM_append] at hfold
      obtain ⟨middle, hfront, hlast⟩ := Option.bind_eq_some_iff.mp hfold
      have hstep : execute middle event = some last := by simpa using hlast
      exact .snoc (ih hfront) (hsound middle event last hstep)

theorem Reachable.run {start last : State} {events : List Event}
    (hreachable : system.Reachable start)
    (hrun : system.Run start events last) : system.Reachable last := by
  induction hrun with
  | nil => exact hreachable
  | snoc _ hstep ih => exact ih.step hstep

theorem reachable_of_foldlM {execute : State → Event → Option State}
    (hsound : ∀ state event next, execute state event = some next →
      system.step state event next)
    {start last : State} {events : List Event}
    (hinitial : system.initial start)
    (hfold : events.foldlM execute start = some last) :
    system.Reachable last :=
  ⟨start, events, hinitial, run_of_foldlM hsound hfold⟩

/-- A partial step function that also checks a condition. -/
def checked (condition : State → Event → Prop)
    [∀ state event, Decidable (condition state event)]
    (step : State → Event → Option State) (state : State) (event : Event) :
    Option State :=
  if condition state event then step state event else none

theorem checked_sound {initial : State → Prop}
    {step : State → Event → Option State} {condition : State → Event → Prop}
    [∀ state event, Decidable (condition state event)]
    (state : State) (event : Event) (next : State)
    (hchecked : checked condition step state event = some next) :
    ((ofPartial initial step).restrict condition).step state event next := by
  unfold checked at hchecked
  split at hchecked
  · exact ⟨by assumption, hchecked⟩
  · cases hchecked

/-! ## Logs -/

section Logging

variable {Output : Type*} (emit : State → Event → List Output)

/-- The system with a log of what its steps emit.  No step reads the log. -/
def logging (system : System State Event) :
    System (State × List Output) Event where
  initial logged := system.initial logged.1 ∧ logged.2 = []
  step logged event next :=
    system.step logged.1 event next.1 ∧
      next.2 = logged.2 ++ emit logged.1 event

variable {emit}

theorem Reachable.of_logging {logged : State × List Output}
    (hreachable : (system.logging emit).Reachable logged) :
    system.Reachable logged.1 := by
  refine hreachable.invariant (motive := fun logged => system.Reachable logged.1)
    ?_ ?_
  · rintro start ⟨hinitial, -⟩
    exact .initial hinitial
  · rintro before event after hbefore ⟨hstep, -⟩
    exact hbefore.step hstep

/-- Every reachable state has a log. -/
theorem Reachable.logged {state : State}
    (hreachable : system.Reachable state) :
    ∃ log, (system.logging emit).Reachable (state, log) := by
  refine hreachable.invariant
    (motive := fun state => ∃ log, (system.logging emit).Reachable (state, log))
    ?_ ?_
  · rintro start hinitial
    exact ⟨[], .initial ⟨hinitial, rfl⟩⟩
  · rintro before event after ⟨log, hlog⟩ hstep
    exact ⟨log ++ emit before event, hlog.step ⟨hstep, rfl⟩⟩

/-- A partial step function that keeps the log. -/
def logged (emit : State → Event → List Output)
    (step : State → Event → Option State) (state : State × List Output)
    (event : Event) : Option (State × List Output) :=
  (step state.1 event).map (·, state.2 ++ emit state.1 event)

theorem logged_sound {execute : State → Event → Option State}
    (hsound : ∀ state event next, execute state event = some next →
      system.step state event next)
    (state : State × List Output) (event : Event) (next : State × List Output)
    (hlogged : logged emit execute state event = some next) :
    (system.logging emit).step state event next := by
  obtain ⟨after, hafter, rfl⟩ := Option.map_eq_some_iff.mp hlogged
  exact ⟨hsound state.1 event after hafter, rfl⟩

end Logging

end System

end Transition
