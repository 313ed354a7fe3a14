import Mathlib.Tactic.Basic

/-!
# Sequencing of fallible computations

The inversion of a successful `do` block: every step of it has succeeded.
-/

namespace Fallible

universe u

variable {Error : Type*} {First Second : Type u}

theorem bind_eq_ok {first : Except Error First}
    {next : First → Except Error Second} {value : Second} :
    first >>= next = .ok value ↔
      ∃ middle, first = .ok middle ∧ next middle = .ok value := by
  cases first with
  | error failure =>
      refine ⟨fun heq => ?_, fun ⟨_, hfirst, _⟩ => ?_⟩
      · cases heq
      · cases hfirst
  | ok middle =>
      refine ⟨fun heq => ⟨middle, rfl, heq⟩, fun ⟨_, hfirst, hnext⟩ => ?_⟩
      cases hfirst
      exact hnext

/-- What every step of a successful fold keeps, the fold keeps. -/
theorem foldlM_preserves {State Item : Type u}
    {step : State → Item → Except Error State} {motive : State → Prop}
    {items : List Item}
    (hstep : ∀ item ∈ items, ∀ state next, motive state →
      step state item = .ok next → motive next)
    {first last : State} (hfold : items.foldlM step first = .ok last)
    (hfirst : motive first) : motive last := by
  induction items generalizing first with
  | nil =>
      cases hfold
      exact hfirst
  | cons item items ih =>
      rw [List.foldlM_cons] at hfold
      obtain ⟨middle, hmiddle, hrest⟩ := bind_eq_ok.mp hfold
      exact ih
        (fun other hother => hstep other (List.mem_cons_of_mem _ hother)) hrest
        (hstep item List.mem_cons_self first middle hfirst hmiddle)

end Fallible
