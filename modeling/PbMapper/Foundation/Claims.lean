import Mathlib.Logic.Function.Basic
import PbMapper.Foundation.Table

/-!
# Claims and their holders

A set of claimed keys, kept beside the holders that took the claims: the two rules by
which it stays the set of what the holders hold.
-/

namespace Claims

variable {Id Key : Type*}

/-- The claims are those of the holders, and each has one holder. -/
structure Held (claims : List Key) (keyAt : Id → Option Key) : Prop where
  nodup : claims.Nodup
  mem_iff : ∀ key, key ∈ claims ↔ ∃ id, keyAt id = some key
  alone : ∀ {id other key}, keyAt id = some key → keyAt other = some key → id = other

theorem Held.empty : Held ([] : List Key) fun _ : Id => none where
  nodup := .nil
  mem_iff _ := by simp
  alone hid := nomatch hid

theorem Held.perm {claims others : List Key} {keyAt : Id → Option Key}
    (hheld : Held claims keyAt) (hperm : claims.Perm others) :
    Held others keyAt where
  nodup := hperm.nodup_iff.mp hheld.nodup
  mem_iff key := by rw [← hperm.mem_iff, hheld.mem_iff]
  alone := hheld.alone

variable [DecidableEq Id] {claims : List Key} {keyAt : Id → Option Key} {id : Id}
  {key : Key}

/-- A new holder takes a free key. -/
theorem Held.claim (hheld : Held claims keyAt) (hid : keyAt id = none)
    (hkey : key ∉ claims) :
    Held (key :: claims) (Function.update keyAt id (some key)) where
  nodup := List.nodup_cons.mpr ⟨hkey, hheld.nodup⟩
  mem_iff other := by
    rw [List.mem_cons, hheld.mem_iff]
    constructor
    · rintro (rfl | ⟨holder, hholder⟩)
      · exact ⟨id, Function.update_self ..⟩
      · refine ⟨holder, ?_⟩
        rw [Function.update_of_ne, hholder]
        rintro rfl
        rw [hid] at hholder
        cases hholder
    · rintro ⟨holder, hholder⟩
      by_cases heq : holder = id
      · rw [heq, Function.update_self] at hholder
        exact .inl (Option.some.inj hholder).symm
      · rw [Function.update_of_ne heq] at hholder
        exact .inr ⟨holder, hholder⟩
  alone {first second other} hfirst hsecond := by
    have hother : ∀ holder, holder ≠ id →
        Function.update keyAt id (some key) holder = some other →
        keyAt holder = some other := by
      intro holder hne hholder
      rwa [Function.update_of_ne hne] at hholder
    have hfree : ∀ holder, keyAt holder = some other → other ≠ key := by
      rintro holder hholder rfl
      exact hkey ((hheld.mem_iff other).mpr ⟨holder, hholder⟩)
    by_cases hone : first = id <;> by_cases htwo : second = id
    · rw [hone, htwo]
    · rw [hone, Function.update_self] at hfirst
      exact absurd (Option.some.inj hfirst).symm (hfree _ (hother _ htwo hsecond))
    · rw [htwo, Function.update_self] at hsecond
      exact absurd (Option.some.inj hsecond).symm (hfree _ (hother _ hone hfirst))
    · exact hheld.alone (hother _ hone hfirst) (hother _ htwo hsecond)

/-- A holder lets its key go. -/
theorem Held.release [BEq Key] [LawfulBEq Key] (hheld : Held claims keyAt)
    (hid : keyAt id = some key) :
    Held (claims.erase key) (Function.update keyAt id none) where
  nodup := hheld.nodup.erase key
  mem_iff other := by
    rw [hheld.nodup.mem_erase_iff, hheld.mem_iff]
    constructor
    · rintro ⟨hne, holder, hholder⟩
      refine ⟨holder, ?_⟩
      rw [Function.update_of_ne, hholder]
      rintro rfl
      exact hne (Option.some.inj (hholder.symm.trans hid))
    · rintro ⟨holder, hholder⟩
      have hne : holder ≠ id := by
        rintro rfl
        rw [Function.update_self] at hholder
        cases hholder
      rw [Function.update_of_ne hne] at hholder
      refine ⟨?_, holder, hholder⟩
      rintro rfl
      exact hne (hheld.alone hholder hid)
  alone {first second other} hfirst hsecond := by
    have hother : ∀ holder, Function.update keyAt id none holder = some other →
        keyAt holder = some other := by
      intro holder hholder
      by_cases heq : holder = id
      · rw [heq, Function.update_self] at hholder
        cases hholder
      · rwa [Function.update_of_ne heq] at hholder
    exact hheld.alone (hother _ hfirst) (hother _ hsecond)

/-! ## Holders in a table -/

section Holders

variable {Value : Type*} (keyOf : Value → Option Key) (holders : Table Id Value)

/-- The key that a holder of the table holds. -/
def heldKey (id : Id) : Option Key := (holders.lookup id).bind keyOf

theorem heldKey_insert (id : Id) (value : Value) :
    heldKey keyOf (holders.insert id value) =
      Function.update (heldKey keyOf holders) id (keyOf value) := by
  funext other
  rw [heldKey, Table.lookup_insert, Function.update_apply]
  split <;> rfl

theorem heldKey_erase (id : Id) :
    heldKey keyOf (holders.erase id) =
      Function.update (heldKey keyOf holders) id none := by
  funext other
  rw [heldKey, Table.lookup_erase, Function.update_apply]
  split <;> rfl

variable {keyOf holders}

/-- A holder that goes on with the same key. -/
theorem heldKey_insert_self {value next : Value}
    (hlookup : holders.lookup id = some value) (hkey : keyOf next = keyOf value) :
    heldKey keyOf (holders.insert id next) = heldKey keyOf holders := by
  have hid : heldKey keyOf holders id = keyOf next := by
    rw [heldKey, hlookup, hkey]
    rfl
  rw [heldKey_insert, ← hid, Function.update_eq_self]

/-- A holder of no key joins. -/
theorem heldKey_insert_none {value : Value} (hlookup : holders.lookup id = none)
    (hkey : keyOf value = none) :
    heldKey keyOf (holders.insert id value) = heldKey keyOf holders := by
  have hid : heldKey keyOf holders id = none := by
    rw [heldKey, hlookup]
    rfl
  rw [heldKey_insert, hkey, ← hid, Function.update_eq_self]

/-- A holder of no key leaves. -/
theorem heldKey_erase_none {value : Value}
    (hlookup : holders.lookup id = some value) (hkey : keyOf value = none) :
    heldKey keyOf (holders.erase id) = heldKey keyOf holders := by
  have hid : heldKey keyOf holders id = none := by
    rw [heldKey, hlookup]
    exact hkey
  rw [heldKey_erase, ← hid, Function.update_eq_self]

end Holders

end Claims
