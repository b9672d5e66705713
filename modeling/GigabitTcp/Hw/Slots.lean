/-
  GigabitTcp.Hw.Slots — a table of slots that is searched by key.

  A slot is empty or holds a key.  The search looks at the slots one by one: it stops at the
  slot that holds the key, and falls back to the first empty slot it has passed.  A key that
  is only ever entered into the slot that such a search returns is held at most once
  (`Distinct.claim`), and giving slots back cannot break that (`Distinct.vacate`).
-/
import Mathlib.Data.List.Basic

namespace Hw

namespace Slots

variable {ι κ : Type}

/-! ## §1. The search. -/

section Search

variable [DecidableEq κ]

/-- The slot that holds `k`, else the first empty slot, `free` if one was passed before. -/
def search (key : ι → Option κ) (k : κ) : List ι → Option ι → Option ι
  | [], free => free
  | i :: is, free =>
      if key i = some k then some i
      else search key k is (if key i = none then free.or (some i) else free)

/-- The search looks at the keys of the slots only. -/
theorem search_congr {key key' : ι → Option κ} (k : κ) {is : List ι} (free : Option ι)
    (h : ∀ i ∈ is, key i = key' i) : search key k is free = search key' k is free := by
  induction is generalizing free with
  | nil => rfl
  | cons i is ih =>
      unfold search
      rw [h i List.mem_cons_self, ih _ fun j hj => h j (List.mem_cons_of_mem i hj)]

/-- The key is held by one of the slots. -/
theorem search_hit {key : ι → Option κ} {k : κ} (is : List ι) (free : Option ι)
    (h : ∃ i ∈ is, key i = some k) : ∃ i ∈ is, key i = some k ∧ search key k is free = some i := by
  induction is generalizing free with
  | nil =>
      obtain ⟨i, hi, _⟩ := h
      cases hi
  | cons j is ih =>
      unfold search
      by_cases hj : key j = some k
      · exact ⟨j, List.mem_cons_self, hj, if_pos hj⟩
      · rw [if_neg hj]
        obtain ⟨i, hi, hkey⟩ := h
        have htail : ∃ i ∈ is, key i = some k := by
          rcases List.mem_cons.mp hi with rfl | hi
          · exact absurd hkey hj
          · exact ⟨i, hi, hkey⟩
        obtain ⟨i, hi, hkey, hfound⟩ := ih _ htail
        exact ⟨i, List.mem_cons_of_mem _ hi, hkey, hfound⟩

/-- The key is held by none of the slots. -/
theorem search_miss {key : ι → Option κ} {k : κ} (is : List ι) (free : Option ι)
    (h : ∀ i ∈ is, key i ≠ some k) :
    search key k is free = free.or (is.find? (fun i => (key i).isNone)) := by
  induction is generalizing free with
  | nil =>
      show free = free.or none
      rw [Option.or_none]
  | cons j is ih =>
      unfold search
      rw [if_neg (h j List.mem_cons_self), ih _ fun i hi => h i (List.mem_cons_of_mem _ hi)]
      by_cases hempty : key j = none
      · rw [if_pos hempty, List.find?_cons_of_pos (by rw [hempty]; rfl), Option.or_assoc,
          Option.some_or]
      · rw [if_neg hempty, List.find?_cons_of_neg]
        rw [Option.isNone_iff_eq_none]
        exact hempty

/-- **What a search returns**: the holder of the key, or the first empty slot when there is no
holder. -/
theorem search_cases (key : ι → Option κ) (k : κ) (is : List ι) :
    (∃ i ∈ is, key i = some k ∧ search key k is none = some i)
      ∨ ((∀ i ∈ is, key i ≠ some k)
        ∧ search key k is none = is.find? (fun i => (key i).isNone)) := by
  by_cases h : ∃ i ∈ is, key i = some k
  · exact .inl (search_hit is none h)
  · have hmiss : ∀ i ∈ is, key i ≠ some k := fun i hi hkey => h ⟨i, hi, hkey⟩
    refine .inr ⟨hmiss, ?_⟩
    rw [search_miss is none hmiss, Option.none_or]

/-- What a search returns is one of the slots; it holds the key or it is empty. -/
theorem search_some {key : ι → Option κ} {k : κ} {is : List ι} {i : ι}
    (h : search key k is none = some i) : i ∈ is ∧ (key i = some k ∨ key i = none) := by
  rcases search_cases key k is with ⟨j, hj, hkey, hfound⟩ | ⟨_, hfound⟩
  · obtain rfl : i = j := Option.some.inj (h.symm.trans hfound)
    exact ⟨hj, .inl hkey⟩
  · rw [h] at hfound
    have hnone := List.find?_some (p := fun i => (key i).isNone) hfound.symm
    exact ⟨List.mem_of_find?_eq_some hfound.symm, .inr (Option.isNone_iff_eq_none.mp hnone)⟩

/-- A slot that is returned empty is one of the slots, and nobody holds the key. -/
theorem search_empty {key : ι → Option κ} {k : κ} {is : List ι} {i : ι}
    (h : search key k is none = some i) (hempty : key i = none) :
    ∀ j ∈ is, key j ≠ some k := by
  rcases search_cases key k is with ⟨j, _, hkey, hfound⟩ | ⟨hmiss, _⟩
  · obtain rfl : i = j := Option.some.inj (h.symm.trans hfound)
    rw [hempty] at hkey
    cases hkey
  · exact hmiss

/-- Without a holder the search returns an empty slot. -/
theorem search_miss_empty {key : ι → Option κ} {k : κ} {is : List ι} {i : ι}
    (hmiss : ∀ i ∈ is, key i ≠ some k) (h : search key k is none = some i) : key i = none := by
  obtain ⟨hmem, hkey⟩ := search_some h
  exact hkey.resolve_left (hmiss i hmem)

end Search

/-! ## §2. One slot for each key. -/

/-- Two slots that hold the same key are the same slot. -/
def Distinct (is : List ι) (key : ι → Option κ) : Prop :=
  ∀ i ∈ is, ∀ j ∈ is, ∀ k, key i = some k → key j = some k → i = j

theorem Distinct.of_empty {is : List ι} {key : ι → Option κ} (h : ∀ i ∈ is, key i = none) :
    Distinct is key := by
  intro i hi j _ k hkey _
  rw [h i hi] at hkey
  cases hkey

/-- Slots may be given back at any time. -/
theorem Distinct.vacate {is : List ι} {key key' : ι → Option κ} (h : Distinct is key)
    (hkey : ∀ i ∈ is, key' i = key i ∨ key' i = none) : Distinct is key' := by
  have hheld : ∀ i ∈ is, ∀ k, key' i = some k → key i = some k := by
    intro i hi k hk
    rcases hkey i hi with hsame | hnone
    · exact hsame.symm.trans hk
    · rw [hnone] at hk
      cases hk
  intro i hi j hj k hik hjk
  exact h i hi j hj k (hheld i hi k hik) (hheld j hj k hjk)

/-- A key that nobody holds may be entered into any slot. -/
theorem Distinct.claim {is : List ι} {key key' : ι → Option κ} {k : κ} {i : ι}
    (h : Distinct is key) (hmiss : ∀ j ∈ is, key j ≠ some k) (hclaim : key' i = some k)
    (hother : ∀ j ∈ is, j ≠ i → key' j = key j) : Distinct is key' := by
  -- whoever holds the new key is the slot it was entered into
  have hnew : ∀ j ∈ is, key' j = some k → j = i := by
    intro j hj hk
    by_contra hne
    exact hmiss j hj ((hother j hj hne).symm.trans hk)
  intro a ha b hb k' hak hbk
  by_cases hai : a = i
  · have hk : k' = k := Option.some.inj (hak.symm.trans (by rw [hai]; exact hclaim))
    rw [hai]
    exact (hnew b hb (by rw [hbk, hk])).symm
  · by_cases hbi : b = i
    · have hk : k' = k := Option.some.inj (hbk.symm.trans (by rw [hbi]; exact hclaim))
      exact absurd (hnew a ha (by rw [hak, hk])) hai
    · exact h a ha b hb k' ((hother a ha hai).symm.trans hak) ((hother b hb hbi).symm.trans hbk)

end Slots

end Hw
