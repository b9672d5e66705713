/-
  GigabitTcp.Hw.Lru — ages that keep slots in the order of their last use.

  The slot used last has age 0, the one before it age 1, and so on.  To touch a slot makes it
  the youngest and lets the slots that were not older than it age by one; the ages of the rest
  stand.  So the ages always count up along the list of slots in the order of their last use.

  Main results:
    * `Ages.touch`        — a used slot moves to the front of that order,
    * `Ages.touch_new`    — a slot that comes in is put in front of it,
    * `Ages.oldest`       — the last slot in that order is the only one of the greatest age,
    * `recent_take`       — the first places of the recency list follow the rule of the list.
-/
import Mathlib.Data.List.Basic
import Mathlib.Data.List.Induction

namespace Hw

namespace Lru

variable {ι : Type} {age : ι → Nat}

/-- The ages count up from `n` along the list. -/
def Ages (age : ι → Nat) : List ι → Nat → Prop
  | [], _ => True
  | i :: is, n => age i = n ∧ Ages age is (n + 1)

theorem ages_append (l m : List ι) (n : Nat) :
    Ages age (l ++ m) n ↔ Ages age l n ∧ Ages age m (n + l.length) := by
  induction l generalizing n with
  | nil => simp [Ages]
  | cons i l ih =>
      rw [List.cons_append, Ages, Ages, ih, List.length_cons, and_assoc,
        show n + 1 + l.length = n + (l.length + 1) by omega]

theorem Ages.congr {age' : ι → Nat} {l : List ι} {n : Nat} (h : Ages age l n)
    (hsame : ∀ i ∈ l, age' i = age i) : Ages age' l n := by
  induction l generalizing n with
  | nil => trivial
  | cons i l ih =>
      refine ⟨(hsame i List.mem_cons_self).trans h.1, ?_⟩
      exact ih h.2 fun j hj => hsame j (List.mem_cons_of_mem _ hj)

/-- All slots of the list age by one. -/
theorem Ages.older {age' : ι → Nat} {l : List ι} {n : Nat} (h : Ages age l n)
    (hmore : ∀ i ∈ l, age' i = age i + 1) : Ages age' l (n + 1) := by
  induction l generalizing n with
  | nil => trivial
  | cons i l ih =>
      refine ⟨(hmore i List.mem_cons_self).trans (by rw [h.1]), ?_⟩
      exact ih h.2 fun j hj => hmore j (List.mem_cons_of_mem _ hj)

theorem Ages.mem {l : List ι} {n : Nat} (h : Ages age l n) {i : ι} (hi : i ∈ l) :
    n ≤ age i ∧ age i < n + l.length := by
  induction l generalizing n with
  | nil => cases hi
  | cons j l ih =>
      rw [List.length_cons]
      rcases List.mem_cons.mp hi with rfl | hi
      · have := h.1
        omega
      · have := ih h.2 hi
        omega

/-- The age of a slot is its place in the list. -/
theorem Ages.getElem? {l : List ι} {n : Nat} (h : Ages age l n) {i : ι} (hi : i ∈ l) :
    n ≤ age i ∧ l[age i - n]? = some i := by
  induction l generalizing n with
  | nil => cases hi
  | cons j l ih =>
      rcases List.mem_cons.mp hi with rfl | hi
      · rw [h.1, Nat.sub_self]
        exact ⟨Nat.le_refl n, rfl⟩
      · obtain ⟨hle, hget⟩ := ih h.2 hi
        refine ⟨by omega, ?_⟩
        rw [show age i - n = (age i - (n + 1)) + 1 by omega, List.getElem?_cons_succ]
        exact hget

/-- The ages of the listed slots are the places of the list. -/
theorem Ages.map {l : List ι} {n : Nat} (h : Ages age l n) : l.map age = List.range' n l.length := by
  induction l generalizing n with
  | nil => rfl
  | cons i l ih => rw [List.map_cons, List.length_cons, List.range'_succ, h.1, ih h.2]

/-- The last slot of the list is the only one of the greatest age. -/
theorem Ages.oldest {l : List ι} {o : ι} (h : Ages age (l ++ [o]) 0) :
    age o = l.length ∧ ∀ i ∈ l, age i < age o := by
  obtain ⟨hfront, hlast, -⟩ := (ages_append l [o] 0).mp h
  rw [Nat.zero_add] at hlast
  refine ⟨hlast, ?_⟩
  intro i hi
  have := (hfront.mem hi).2
  omega

section Touch

variable [DecidableEq ι]

/-- The ages after slot `i` was used. -/
def touch (age : ι → Nat) (i : ι) : ι → Nat :=
  fun j => if j = i then 0 else if age j ≤ age i then age j + 1 else age j

@[simp] theorem touch_self (age : ι → Nat) (i : ι) : touch age i i = 0 := if_pos rfl

theorem touch_younger {i j : ι} (hne : j ≠ i) (h : age j ≤ age i) : touch age i j = age j + 1 := by
  unfold touch
  rw [if_neg hne, if_pos h]

theorem touch_older {i j : ι} (h : age i < age j) : touch age i j = age j := by
  unfold touch
  rw [if_neg (by rintro rfl; omega), if_neg (by omega)]

/-- **A used slot** moves to the front. -/
theorem Ages.touch {pre post : List ι} {i : ι} (h : Ages age (pre ++ i :: post) 0)
    (hnodup : (pre ++ i :: post).Nodup) : Ages (Lru.touch age i) (i :: (pre ++ post)) 0 := by
  obtain ⟨hpre, hi, hpost⟩ := (ages_append pre (i :: post) 0).mp h
  rw [Nat.zero_add] at hi hpost
  have hout : i ∉ pre := by
    intro hin
    exact (List.nodup_append.mp hnodup).2.2 i hin i List.mem_cons_self rfl
  refine ⟨touch_self age i, (ages_append pre post 1).mpr ⟨?_, ?_⟩⟩
  · apply hpre.older
    intro j hj
    have := (hpre.mem hj).2
    exact touch_younger (fun hji => hout (hji ▸ hj)) (by omega)
  · rw [Nat.add_comm]
    apply hpost.congr
    intro j hj
    have := (hpost.mem hj).1
    exact touch_older (by omega)

/-- **A slot that comes in** is put in front. -/
theorem Ages.touch_new {l : List ι} {i : ι} (h : Ages age l 0) (hnew : i ∉ l)
    (hold : l.length ≤ age i) : Ages (Lru.touch age i) (i :: l) 0 := by
  refine ⟨touch_self age i, ?_⟩
  apply h.older
  intro j hj
  have := (h.mem hj).2
  exact touch_younger (fun hji => hnew (hji ▸ hj)) (by omega)

end Touch

/-! ### The order of use. -/

section Recent

variable {α : Type} [DecidableEq α]

/-- The elements of a history in the order of their last use, the last one first. -/
def recent (l : List α) : List α := l.foldl (fun r a => a :: r.erase a) []

@[simp] theorem recent_concat (l : List α) (a : α) : recent (l ++ [a]) = a :: (recent l).erase a := by
  unfold recent
  rw [List.foldl_append, List.foldl_cons, List.foldl_nil]

/-- To take the first places and to move an element to the front go together. -/
theorem recent_take {r : List α} (a : α) (n : Nat) :
    (a :: r.erase a).take (n + 1) = (a :: (r.take (n + 1)).erase a).take (n + 1) := by
  rw [List.take_succ_cons, List.take_succ_cons]
  congr 1
  induction r generalizing n with
  | nil => rfl
  | cons b r ih =>
      rw [List.take_succ_cons]
      by_cases hb : b = a
      · rw [hb, List.erase_cons_head, List.erase_cons_head, List.take_take, Nat.min_self]
      · rw [List.erase_cons_tail (by simpa using hb), List.erase_cons_tail (by simpa using hb)]
        cases n with
        | zero => rfl
        | succ n => rw [List.take_succ_cons, List.take_succ_cons, ih]

end Recent

end Lru

end Hw
