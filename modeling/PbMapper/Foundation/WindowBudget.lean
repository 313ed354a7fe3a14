import PbMapper.Foundation.Table
import Mathlib.Algebra.Order.BigOperators.Group.List
import Mathlib.Algebra.Order.Ring.Nat
import Mathlib.Data.Finset.Card

/-!
# Budgets by windows

A bucket may spend `limit` in a window, and begins a new window once its old one
is `length` old.  What a pool of at most `capacity` buckets spends since `origin` is
bounded by a potential: a bucket counts the windows that fit before its own, and
what it spent in that, and a place that is free counts as one whose window is spent.
-/

namespace Table

variable {Key Value : Type*} (table : Table Key Value) (measure : Value → ℕ)

/-! ## Totals -/

/-- The sum of a measure over the entries. -/
def total : ℕ := (table.entries.map fun entry => measure entry.2).sum

def size : ℕ := table.entries.length

/-- The entries that are kept. -/
def retain (keep : Value → Bool) : Table Key Value :=
  ⟨table.entries.filter fun entry => keep entry.2,
    table.nodupKeys.sublist List.filter_sublist⟩

variable {table measure} {key : Key} {value old : Value}

section Entries

variable [DecidableEq Key]

theorem total_insert_of_lookup_eq_none (hnone : table.lookup key = none) :
    total (table.insert key value) measure = measure value + table.total measure := by
  have hnew : key ∉ table := AList.lookup_eq_none.mp hnone
  rw [total, AList.entries_insert_of_notMem hnew, List.map_cons, List.sum_cons, total]

theorem size_insert_of_lookup_eq_none (hnone : table.lookup key = none) :
    size (table.insert key value) = table.size + 1 := by
  have hnew : key ∉ table := AList.lookup_eq_none.mp hnone
  rw [size, AList.entries_insert_of_notMem hnew, List.length_cons, size]

/-- The entry of a key, with those around it. -/
theorem exists_of_lookup (hlookup : table.lookup key = some old) :
    ∃ front back, table.entries = front ++ ⟨key, old⟩ :: back ∧
      ∀ value,
        (table.insert key value).entries = ⟨key, value⟩ :: (front ++ back) := by
  have hentry : ⟨key, old⟩ ∈ table.entries := (table.mem_entries_iff).mpr hlookup
  obtain ⟨found, front, back, hfront, hentries, herased⟩ :=
    List.exists_of_kerase (List.mem_keys_of_mem hentry)
  have hfound : table.lookup key = some found := by
    apply (table.mem_entries_iff).mp
    rw [hentries]
    exact List.mem_append_right front List.mem_cons_self
  cases hlookup.symm.trans hfound
  apply Exists.intro front
  apply Exists.intro back
  apply And.intro hentries
  intro value
  rw [AList.entries_insert, herased]

theorem total_insert_of_lookup (hlookup : table.lookup key = some old) :
    total (table.insert key value) measure + measure old =
      table.total measure + measure value := by
  obtain ⟨front, back, hentries, hinserted⟩ := exists_of_lookup hlookup
  rw [total, hinserted, total, hentries]
  simp only [List.map_cons, List.map_append, List.sum_cons, List.sum_append]
  omega

theorem size_insert_of_lookup (hlookup : table.lookup key = some old) :
    size (table.insert key value) = table.size := by
  obtain ⟨front, back, hentries, hinserted⟩ := exists_of_lookup hlookup
  rw [size, hinserted, size, hentries]
  simp only [List.length_cons, List.length_append]
  omega

/-- A key that is missing was seen besides those of the map. -/
theorem size_lt_card {seen : Finset Key}
    (hseen : ∀ other, table.lookup other ≠ none → other ∈ seen)
    (hnone : table.lookup key = none) (hkey : key ∈ seen) :
    table.size < seen.card := by
  have hkeys : table.keys.toFinset.card = table.size := by
    rw [List.toFinset_card_of_nodup table.keys_nodup]
    exact List.length_map _
  rw [← hkeys]
  apply Finset.card_lt_card
  apply (Finset.ssubset_iff_of_subset _).mpr
  · exact ⟨key, hkey, fun hmem =>
      AList.lookup_eq_none.mp hnone (AList.mem_keys.mpr (List.mem_toFinset.mp hmem))⟩
  · intro other hother
    apply hseen other
    rw [Ne, AList.lookup_eq_none, not_not]
    exact AList.mem_keys.mpr (List.mem_toFinset.mp hother)

theorem lookup_of_mem_retain {keep : Value → Bool}
    (hlookup : (table.retain keep).lookup key = some value) :
    table.lookup key = some value ∧ keep value = true := by
  have hentry := (mem_entries_iff (table.retain keep)).mpr hlookup
  obtain ⟨hmem, hkeep⟩ := List.mem_filter.mp hentry
  exact ⟨(mem_entries_iff table).mp hmem, hkeep⟩

end Entries

theorem size_retain_le (keep : Value → Bool) :
    (table.retain keep).size ≤ table.size :=
  List.length_filter_le _ _

theorem total_retain_le (keep : Value → Bool) :
    (table.retain keep).total measure ≤ table.total measure := by
  apply List.Sublist.sum_le_sum (List.Sublist.map _ List.filter_sublist)
  exact fun _ _ => Nat.zero_le _

/-- What is dropped is at most `bound` each. -/
theorem total_le_retain {keep : Value → Bool} {bound : ℕ}
    (hbound : ∀ entry ∈ table.entries,
      keep entry.2 = false → measure entry.2 ≤ bound) :
    table.total measure + (table.retain keep).size * bound ≤
      (table.retain keep).total measure + table.size * bound := by
  change (table.entries.map _).sum + (table.entries.filter _).length * bound ≤
    ((table.entries.filter _).map _).sum + table.entries.length * bound
  generalize table.entries = entries at hbound ⊢
  induction entries with
  | nil => simp
  | cons entry entries ih =>
      have hrest := ih fun other hother =>
        hbound other (List.mem_cons_of_mem _ hother)
      cases hkeep : keep entry.2 with
      | true =>
          rw [List.filter_cons_of_pos (by simpa using hkeep)]
          simp only [List.map_cons, List.sum_cons, List.length_cons, Nat.add_mul]
          omega
      | false =>
          have hdropped := hbound entry List.mem_cons_self hkeep
          rw [List.filter_cons_of_neg (by simp [hkeep])]
          simp only [List.map_cons, List.sum_cons, List.length_cons, Nat.add_mul]
          omega

theorem total_le {bound : ℕ}
    (hbound : ∀ entry ∈ table.entries, measure entry.2 ≤ bound) :
    table.total measure ≤ table.size * bound := by
  have hall : ∀ amount ∈ table.entries.map fun entry => measure entry.2,
      amount ≤ bound := by
    intro amount hamount
    obtain ⟨entry, hentry, rfl⟩ := List.mem_map.mp hamount
    exact hbound entry hentry
  calc table.total measure
      ≤ (table.entries.map fun entry => measure entry.2).length • bound :=
        List.sum_le_card_nsmul _ _ hall
    _ = table.size * bound := by
        rw [List.length_map]
        rfl

/-! ## Pools -/

/-- What a pool with `capacity` places stands for: its entries by their measure, and
each free place. -/
def pool (table : Table Key Value) (capacity free : ℕ) (measure : Value → ℕ) : ℕ :=
  table.total measure + (capacity - table.size) * free

variable {capacity free more spent bound : ℕ}

theorem pool_mono (hmore : free ≤ more) :
    table.pool capacity free measure ≤ table.pool capacity more measure :=
  Nat.add_le_add_left (Nat.mul_le_mul_left _ hmore) _

/-- Dropping entries that are worth no more than a free place. -/
theorem pool_le_retain {keep : Value → Bool} (hsize : table.size ≤ capacity)
    (hdropped : ∀ entry ∈ table.entries, keep entry.2 = false →
      measure entry.2 ≤ free) :
    table.pool capacity free measure ≤
      (table.retain keep).pool capacity free measure := by
  have htotal := total_le_retain hdropped
  obtain ⟨dropped, hdroppedSize⟩ :=
    Nat.exists_eq_add_of_le (table.size_retain_le keep)
  obtain ⟨places, rfl⟩ := Nat.exists_eq_add_of_le hsize
  have hplaces : (table.retain keep).size + dropped + places -
      (table.retain keep).size = dropped + places := by omega
  rw [pool, pool, Nat.add_sub_cancel_left, hdroppedSize, hplaces, Nat.add_mul]
  rw [hdroppedSize, Nat.add_mul] at htotal
  omega

variable [DecidableEq Key]

theorem pool_insert_known (hlookup : table.lookup key = some old)
    (hworth : measure old + spent ≤ measure value) :
    table.pool capacity free measure + spent ≤
      pool (table.insert key value) capacity free measure := by
  have htotal : total (table.insert key value) measure + measure old =
      table.total measure + measure value := total_insert_of_lookup hlookup
  rw [pool, pool, size_insert_of_lookup hlookup]
  omega

theorem pool_insert_fresh (hnone : table.lookup key = none)
    (hroom : table.size < capacity) (hworth : free + spent ≤ measure value) :
    table.pool capacity free measure + spent ≤
      pool (table.insert key value) capacity free measure := by
  obtain ⟨places, rfl⟩ := Nat.exists_eq_add_of_lt hroom
  have hbefore : table.size + places + 1 - table.size = places + 1 := by omega
  have hafter : table.size + places + 1 - (table.size + 1) = places := by omega
  rw [pool, pool, size_insert_of_lookup_eq_none hnone,
    total_insert_of_lookup_eq_none hnone, hbefore, hafter, Nat.succ_mul]
  omega

omit [DecidableEq Key] in
theorem pool_le (hsize : table.size ≤ capacity) (hfree : free ≤ bound)
    (hbound : ∀ entry ∈ table.entries, measure entry.2 ≤ bound) :
    table.pool capacity free measure ≤ capacity * bound := by
  calc table.pool capacity free measure
      ≤ table.size * bound + (capacity - table.size) * bound :=
        Nat.add_le_add (total_le hbound) (Nat.mul_le_mul_left _ hfree)
    _ = capacity * bound := by rw [← Nat.add_mul, Nat.add_sub_cancel' hsize]

end Table

namespace WindowBudget

variable (length limit origin : ℕ)

/-- What fits into the windows that began since `origin`, the one at `now` not
counted. -/
def share (now : ℕ) : ℕ := limit * ((now + length - origin) / length)

/-- What a bucket stands for, that spent so much in its window. -/
def charge (startedAt spent : ℕ) : ℕ := share length limit origin startedAt + spent

variable {length limit origin} {startedAt spent now later : ℕ}

theorem share_mono (hlater : now ≤ later) :
    share length limit origin now ≤ share length limit origin later := by
  apply Nat.mul_le_mul_left
  apply Nat.div_le_div_right
  omega

theorem share_add_limit (hlength : 0 < length) (horigin : origin ≤ now)
    (hold : startedAt + length ≤ now) :
    share length limit origin startedAt + limit ≤ share length limit origin now := by
  have hwindows : (startedAt + length - origin) / length + 1 ≤
      (now + length - origin) / length := by
    rw [← Nat.add_div_right _ hlength]
    apply Nat.div_le_div_right
    omega
  calc share length limit origin startedAt + limit
      = limit * ((startedAt + length - origin) / length + 1) := by
        rw [share, Nat.mul_succ]
    _ ≤ share length limit origin now := Nat.mul_le_mul_left limit hwindows

/-- A bucket with an old window is worth no more than a free place. -/
theorem charge_le_share (hlength : 0 < length) (horigin : origin ≤ now)
    (hold : startedAt + length ≤ now) (hspent : spent ≤ limit) :
    charge length limit origin startedAt spent ≤ share length limit origin now :=
  (Nat.add_le_add_left hspent _).trans (share_add_limit hlength horigin hold)

theorem charge_le (hstarted : startedAt ≤ now) (hspent : spent ≤ limit) :
    charge length limit origin startedAt spent ≤
      share length limit origin now + limit :=
  Nat.add_le_add (share_mono hstarted) hspent

end WindowBudget
