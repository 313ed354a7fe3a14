import Mathlib.Data.List.Basic

/-!
# Registers and the items that overwrite them

Replaying a list over a register: an item overwrites the register or leaves it.
What is left at the end was written by the last item that overwrites, whatever
the register was, or nothing was written.
-/

namespace Overwrites

variable {Item Value : Type*} (written : Item → Option Value)

/-- The register after the items. -/
def replay (start : Value) (items : List Item) : Value :=
  items.foldl (fun current item => (written item).getD current) start

variable {written}

theorem replay_cons (start : Value) (item : Item) (items : List Item) :
    replay written start (item :: items) =
      replay written ((written item).getD start) items := rfl

theorem replay_append (start : Value) (items more : List Item) :
    replay written start (items ++ more) =
      replay written (replay written start items) more :=
  List.foldl_append

theorem replay_concat (start : Value) (items : List Item) (item : Item) :
    replay written start (items ++ [item]) =
      (written item).getD (replay written start items) :=
  replay_append start items [item]

/-- The list decides, or the start does. -/
theorem replay_cases (items : List Item) :
    (∃ value, ∀ start, replay written start items = value) ∨
      ∀ start, replay written start items = start := by
  induction items with
  | nil => exact .inr fun _ => rfl
  | cons item items ih =>
      cases ih with
      | inl hdecided =>
          obtain ⟨value, hvalue⟩ := hdecided
          exact .inl ⟨value, fun start => hvalue _⟩
      | inr hleft =>
          cases hwritten : written item with
          | none =>
              right
              intro start
              rw [replay_cons, hwritten, hleft, Option.getD_none]
          | some value =>
              refine .inl ⟨value, fun start => ?_⟩
              rw [replay_cons, hwritten, hleft, Option.getD_some]

/-- What holds of a start and of the end from another holds of the end. -/
theorem replay_of_start {motive : Value → Prop} {items : List Item}
    {start other : Value} (hstart : motive start)
    (hother : motive (replay written other items)) :
    motive (replay written start items) := by
  cases replay_cases items with
  | inl hdecided =>
      obtain ⟨value, hvalue⟩ := hdecided
      rw [hvalue] at hother ⊢
      exact hother
  | inr hleft =>
      rw [hleft]
      exact hstart

end Overwrites
