import Mathlib.Data.Vector.Basic
import Mathlib.Data.Fin.Basic

/-!
# Bloom filters

A filter is a bit array; inserting sets the bits at a key's positions and a
lookup asks for all of them.  A filter errs on one side only: what was inserted
is found, whatever is inserted after it.
-/

namespace BloomFilter

/-- The bits of a filter. -/
abbrev Filter (bits : ℕ) := Vector Bool bits

variable {bits : ℕ}

def empty (bits : ℕ) : Filter bits := Vector.replicate bits false

def insert (filter : Filter bits) (positions : List (Fin bits)) : Filter bits :=
  positions.foldl (fun (filter : Filter bits) (position : Fin bits) =>
    filter.set position true) filter

def contains (filter : Filter bits) (positions : List (Fin bits)) : Bool :=
  positions.all fun position => filter[position]

/-- `later` has every bit of `earlier`. -/
def Extends (later earlier : Filter bits) : Prop :=
  ∀ position : Fin bits, earlier[position] = true → later[position] = true

theorem Extends.refl (filter : Filter bits) : Extends filter filter :=
  fun _ hbit => hbit

theorem Extends.trans {first second third : Filter bits}
    (hlater : Extends third second) (hearlier : Extends second first) :
    Extends third first :=
  fun position hbit => hlater position (hearlier position hbit)

theorem extends_set (filter : Filter bits) (position : Fin bits) :
    Extends (filter.set position true) filter := by
  intro other hbit
  by_cases heq : (position : ℕ) = other
  · simp [heq]
  · simpa [Vector.getElem_set, heq] using hbit

theorem extends_insert (filter : Filter bits) (positions : List (Fin bits)) :
    Extends (insert filter positions) filter := by
  induction positions generalizing filter with
  | nil => exact .refl filter
  | cons position positions ih =>
      exact (ih (filter.set position true)).trans (extends_set filter position)

theorem contains_of_extends {later earlier : Filter bits}
    {positions : List (Fin bits)} (hextends : Extends later earlier)
    (hcontains : contains earlier positions = true) :
    contains later positions = true := by
  simp only [contains, List.all_eq_true] at hcontains ⊢
  exact fun position hmem => hextends position (hcontains position hmem)

/-- An inserted key is found. -/
theorem contains_insert_self (filter : Filter bits)
    (positions : List (Fin bits)) :
    contains (insert filter positions) positions = true := by
  induction positions generalizing filter with
  | nil => rfl
  | cons position positions ih =>
      have hhead : (filter.set position true)[position] = true := by
        simp
      have hset := extends_insert (filter.set position true) positions
      simp only [contains, List.all_cons, Bool.and_eq_true]
      exact ⟨hset position hhead, ih (filter.set position true)⟩

/-- An insertion sets the bits at its positions only. -/
theorem mem_of_insert {filter : Filter bits} {positions : List (Fin bits)}
    {position : Fin bits} (hbit : (insert filter positions)[position] = true) :
    filter[position] = true ∨ position ∈ positions := by
  induction positions generalizing filter with
  | nil => exact .inl hbit
  | cons other positions ih =>
      rcases ih hbit with hset | hmem
      · by_cases heq : (other : ℕ) = position
        · exact .inr (List.mem_cons.mpr (.inl (Fin.ext heq.symm)))
        · refine .inl ?_
          simpa [Vector.getElem_set, heq] using hset
      · exact .inr (List.mem_cons_of_mem _ hmem)

/-- No insertion makes a filter forget. -/
theorem contains_insert_of_contains {filter : Filter bits}
    {positions : List (Fin bits)} (others : List (Fin bits))
    (hcontains : contains filter positions = true) :
    contains (insert filter others) positions = true :=
  contains_of_extends (extends_insert filter others) hcontains

end BloomFilter
