import Mathlib.Data.List.AList

/-!
# Finite maps

Association lists with one entry per key, as Mathlib's `AList`, at a constant
value type, with the lookup equations in the form the proofs split on.
-/

/-- A finite map from `Key` to `Value`. -/
abbrev Table (Key Value : Type*) := AList fun _ : Key => Value

namespace Table

variable {Key Value : Type*} [DecidableEq Key] (table : Table Key Value)

theorem lookup_insert (key other : Key) (value : Value) :
    (table.insert key value).lookup other =
      if other = key then some value else table.lookup other := by
  split
  · rename_i heq
    subst heq
    exact AList.lookup_insert table
  · rename_i hne
    exact AList.lookup_insert_ne hne

theorem lookup_erase (key other : Key) :
    (table.erase key).lookup other =
      if other = key then none else table.lookup other := by
  split
  · rename_i heq
    subst heq
    exact AList.lookup_erase other table
  · rename_i hne
    exact AList.lookup_erase_ne hne

/-- The entries of a map are its lookups. -/
theorem mem_entries_iff {key : Key} {value : Value} :
    ⟨key, value⟩ ∈ table.entries ↔ table.lookup key = some value :=
  (AList.mem_lookup_iff (s := table)).symm

/-! ## Counting -/

/-- The number of entries whose value satisfies `predicate`. -/
def count (predicate : Value → Bool) : ℕ :=
  table.entries.countP fun entry => predicate entry.2

variable {table} {predicate : Value → Bool} {key : Key} {value : Value}

/-- Erasing an entry takes its share of the count. -/
theorem count_erase_add (hlookup : table.lookup key = some value) :
    count (table.erase key) predicate + (if predicate value then 1 else 0) =
      table.count predicate := by
  have hentry : ⟨key, value⟩ ∈ table.entries :=
    (table.mem_entries_iff).mpr hlookup
  obtain ⟨found, front, back, hfront, hentries, herased⟩ :=
    List.exists_of_kerase (List.mem_keys_of_mem hentry)
  have hfound : ⟨key, found⟩ ∈ table.entries := by
    rw [hentries]
    exact List.mem_append_right _ (List.mem_cons_self ..)
  obtain rfl : value = found :=
    Option.some.inj (hlookup.symm.trans ((table.mem_entries_iff).mp hfound))
  calc count (table.erase key) predicate + (if predicate value then 1 else 0)
      = (front ++ back).countP (fun entry => predicate entry.2) +
          (if predicate value then 1 else 0) := by
        rw [← herased]
        rfl
    _ = (front ++ ⟨key, value⟩ :: back).countP
          (fun entry => predicate entry.2) := by
        simp only [List.countP_append, List.countP_cons]
        omega
    _ = table.count predicate := by rw [← hentries, count]

theorem count_erase_of_lookup_eq_none (hnone : table.lookup key = none) :
    count (table.erase key) predicate = table.count predicate := by
  have hnotMem : key ∉ table.entries.keys := by
    rw [← List.dlookup_eq_none]
    exact hnone
  calc count (table.erase key) predicate
      = (table.entries.kerase key).countP
          (fun entry => predicate entry.2) := rfl
    _ = table.count predicate := by
        rw [List.kerase_of_notMem_keys hnotMem, count]

/-- An inserted entry replaces the one of its key. -/
theorem count_insert :
    count (table.insert key value) predicate =
      count (table.erase key) predicate + (if predicate value then 1 else 0) :=
    by
  rw [count, AList.entries_insert, List.countP_cons]
  rfl

theorem exists_of_count_ne_zero (hne : table.count predicate ≠ 0) :
    ∃ key value, table.lookup key = some value ∧ predicate value = true := by
  obtain ⟨⟨key, value⟩, hentry, hvalue⟩ :=
    List.countP_pos_iff.mp (Nat.pos_of_ne_zero hne)
  exact ⟨key, value, (table.mem_entries_iff).mp hentry, hvalue⟩

/-! ## Keys -/

section Keys

variable {accepts : Key → Bool}

theorem countP_keys_erase_le (key : Key) :
    (table.erase key).keys.countP accepts ≤ table.keys.countP accepts := by
  rw [AList.keys_erase]
  exact List.erase_sublist.countP_le

/-- A value put under a key that is there changes no number of keys. -/
theorem countP_keys_insert_of_mem (hlookup : table.lookup key ≠ none)
    (value : Value) :
    (table.insert key value).keys.countP accepts =
      table.keys.countP accepts := by
  have hmem : key ∈ table.keys := by
    rw [← AList.mem_keys, ← AList.lookup_isSome, Option.isSome_iff_ne_none]
    exact hlookup
  rw [AList.keys_insert]
  exact (List.perm_cons_erase hmem).countP_eq accepts |>.symm

theorem countP_keys_insert_le (key : Key) (value : Value) :
    (table.insert key value).keys.countP accepts ≤
      table.keys.countP accepts + (if accepts key then 1 else 0) := by
  rw [AList.keys_insert, List.countP_cons]
  exact Nat.add_le_add_right (List.erase_sublist.countP_le) _

end Keys

end Table
