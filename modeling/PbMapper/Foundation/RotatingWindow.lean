import Mathlib.Data.Set.Insert
import Mathlib.Tactic.Basic

/-!
# Two-generation memory

A memory of stamped items in two generations.  A generation is filled for
`window` seconds and then kept, read-only, while the next one is filled; a
rotation happens only when the memory is accessed.  The result is the guarantee
a duplicate filter needs: an item is still remembered `window` seconds after it
was recorded, however the accesses fall.
-/

/-- The generation being filled, the one before it, and the second at which the
current generation started. -/
structure RotatingWindow (Item : Type*) where
  current : Set (Item × ℕ)
  previous : Set (Item × ℕ)
  startedAt : ℕ

namespace RotatingWindow

variable {Item : Type*} {window now : ℕ} {memory : RotatingWindow Item}
  {entry : Item × ℕ}

/-- What the memory still holds. -/
def entries (memory : RotatingWindow Item) : Set (Item × ℕ) :=
  memory.current ∪ memory.previous

open scoped Classical in
/-- The rotation an access at second `now` begins with. -/
noncomputable def rotate (window now : ℕ) (memory : RotatingWindow Item) :
    RotatingWindow Item :=
  if now - memory.startedAt < window then memory
  else if 2 * window ≤ now - memory.startedAt then ⟨∅, ∅, now⟩
  else ⟨∅, memory.current, now⟩

def record (entry : Item × ℕ) (memory : RotatingWindow Item) :
    RotatingWindow Item :=
  { memory with current := insert entry memory.current }

/-- A memory refilled from stamped entries, as one generation. -/
def restored (entries : Set (Item × ℕ)) (startedAt : ℕ) :
    RotatingWindow Item :=
  ⟨entries, ∅, startedAt⟩

/-- Items of the current generation are stamped before it is due to rotate,
items of the previous one before the current one started. -/
structure Timely (window : ℕ) (memory : RotatingWindow Item) : Prop where
  current_lt : ∀ entry ∈ memory.current, entry.2 < memory.startedAt + window
  previous_lt : ∀ entry ∈ memory.previous, entry.2 < memory.startedAt

theorem Timely.rotate (htimely : Timely window memory) :
    Timely window (rotate window now memory) := by
  unfold RotatingWindow.rotate
  split
  · exact htimely
  split
  · exact ⟨by simp, by simp⟩
  · refine ⟨by simp, fun entry hentry => ?_⟩
    have := htimely.current_lt entry hentry
    dsimp only
    omega

/-- After the rotation of an access, `now` lies in the current generation. -/
theorem now_lt_rotate (hwindow : 0 < window) :
    now < (rotate window now memory).startedAt + window := by
  unfold RotatingWindow.rotate
  split
  · omega
  split <;> simpa using hwindow

theorem Timely.record (htimely : Timely window memory)
    (hnow : entry.2 < memory.startedAt + window) :
    Timely window (memory.record entry) := by
  refine ⟨fun other hother => ?_, htimely.previous_lt⟩
  rcases Set.mem_insert_iff.mp hother with rfl | hmem
  · exact hnow
  · exact htimely.current_lt other hmem

/-- A rotation drops an entry only when it is more than `window` old. -/
theorem mem_entries_rotate (hwindow : 0 < window)
    (htimely : Timely window memory) (hentry : entry ∈ memory.entries)
    (hrecent : now ≤ entry.2 + window) :
    entry ∈ (rotate window now memory).entries := by
  unfold RotatingWindow.rotate
  split
  · exact hentry
  rcases hentry with hcurrent | hprevious
  · have hstamp := htimely.current_lt entry hcurrent
    rw [if_neg (by omega)]
    exact Set.mem_union_right _ hcurrent
  · have hstamp := htimely.previous_lt entry hprevious
    omega

theorem mem_entries_record_self : entry ∈ (memory.record entry).entries :=
  Set.mem_union_left _ (Set.mem_insert entry memory.current)

theorem mem_entries_record_of_mem {other : Item × ℕ}
    (hother : other ∈ memory.entries) :
    other ∈ (memory.record entry).entries := by
  rcases hother with hcurrent | hprevious
  · exact Set.mem_union_left _ (Set.mem_insert_of_mem entry hcurrent)
  · exact Set.mem_union_right _ hprevious

/-- A refilled memory is timely when every entry is younger than the start of
the generation plus one window. -/
theorem timely_restored {stamped : Set (Item × ℕ)} {startedAt : ℕ}
    (hstamped : ∀ entry ∈ stamped, entry.2 < startedAt + window) :
    Timely window (restored stamped startedAt) :=
  ⟨hstamped, by simp [restored]⟩

end RotatingWindow
