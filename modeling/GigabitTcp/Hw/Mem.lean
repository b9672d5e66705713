/-
  GigabitTcp.Hw.Mem — word memories with an unbounded index space.

  A memory is a total function from indices to cells.  A store changes one cell
  (`set`); the counted loop `for (i = 0; i < n; i++) m[base + i] = f(i)` and the copy
  from the last cell down are `fill` and `moveUp`, given in closed form and identified with the
  loop they stand for (`foldl_set_eq_fill`, `foldr_set_eq_moveUp`).

  The frame lemmas say which cells a store leaves alone; `AgreeOn` and `ChangesOnly` are the
  two ways a caller states that it does not care about the rest.  `Carries` is about two
  memories side by side: what they have in common they keep in common, byte by byte.
-/
import GigabitTcp.Hw.Words
import Mathlib.Data.List.GetD

namespace Hw

/-- A memory of cells of type `α`. -/
abbrev Mem (α : Type) := Nat → α

namespace Mem

variable {α : Type}

/-! ## §1. Single stores and counted stores. -/

/-- Store `v` at index `i`. -/
def set (m : Mem α) (i : Nat) (v : α) : Mem α :=
  fun j => if j = i then v else m j

/-- Store `f 0, …, f (n - 1)` at `base, …, base + n - 1`. -/
def fill (m : Mem α) (base n : Nat) (f : Nat → α) : Mem α :=
  fun j => if base ≤ j ∧ j < base + n then f (j - base) else m j

/-- Copy the `n` cells at `src` to `src + d`, from the last one down. -/
def moveUp (m : Mem α) (src d n : Nat) : Mem α :=
  fun j => if src + d ≤ j ∧ j < src + d + n then m (j - d) else m j

@[simp] theorem set_same (m : Mem α) (i : Nat) (v : α) : m.set i v i = v := by
  simp [set]

theorem set_other (m : Mem α) {i j : Nat} (v : α) (h : j ≠ i) : m.set i v j = m j := by
  simp [set, h]

theorem set_set (m : Mem α) (i : Nat) (v w : α) : (m.set i v).set i w = m.set i w := by
  funext j
  by_cases hj : j = i
  · rw [hj, set_same, set_same]
  · rw [set_other _ _ hj, set_other _ _ hj, set_other _ _ hj]

theorem fill_inside (m : Mem α) {base n j : Nat} (f : Nat → α)
    (h : base ≤ j ∧ j < base + n) : m.fill base n f j = f (j - base) := by
  simp [fill, h]

theorem fill_at (m : Mem α) {base n i : Nat} (f : Nat → α) (h : i < n) :
    m.fill base n f (base + i) = f i := by
  rw [fill_inside m f ⟨by omega, by omega⟩]
  congr 1
  omega

theorem fill_outside (m : Mem α) {base n j : Nat} (f : Nat → α)
    (h : ¬ (base ≤ j ∧ j < base + n)) : m.fill base n f j = m j := by
  simp [fill, h]

theorem moveUp_inside (m : Mem α) {src d n j : Nat} (h : src + d ≤ j ∧ j < src + d + n) :
    m.moveUp src d n j = m (j - d) := by
  simp [moveUp, h]

theorem fill_congr (m : Mem α) (base : Nat) {n : Nat} {f g : Nat → α} (h : ∀ i, i < n → f i = g i) :
    m.fill base n f = m.fill base n g := by
  funext j
  by_cases hj : base ≤ j ∧ j < base + n
  · rw [fill_inside m f hj, fill_inside m g hj, h _ (by omega)]
  · rw [fill_outside m f hj, fill_outside m g hj]

@[simp] theorem fill_zero (m : Mem α) (base : Nat) (f : Nat → α) : m.fill base 0 f = m := by
  funext j
  exact fill_outside m f (by omega)

theorem fill_succ (m : Mem α) (base n : Nat) (f : Nat → α) :
    m.fill base (n + 1) f = (m.fill base n f).set (base + n) (f n) := by
  funext j
  by_cases hj : j = base + n
  · rw [hj, set_same, fill_at m f (by omega)]
  · rw [set_other _ _ hj]
    by_cases hin : base ≤ j ∧ j < base + n
    · rw [fill_inside m f ⟨hin.1, by omega⟩, fill_inside m f hin]
    · rw [fill_outside m f (by omega), fill_outside m f hin]

/-- `fill` is the counted loop that stores one cell a round. -/
theorem foldl_set_eq_fill (m : Mem α) (base n : Nat) (f : Nat → α) :
    (List.range n).foldl (fun acc i => set acc (base + i) (f i)) m = m.fill base n f := by
  induction n with
  | zero => simp
  | succ n ih => rw [List.range_succ, List.foldl_append, ih, fill_succ]; rfl

/-- One round of the downward loop, seen as the last round of a shorter one. -/
theorem moveUp_set_last (m : Mem α) (src d n : Nat) (hd : 0 < d) :
    moveUp (m.set (src + d + n) (m (src + n))) src d n = m.moveUp src d (n + 1) := by
  funext j
  simp only [moveUp, set]
  by_cases hin : src + d ≤ j ∧ j < src + d + n
  · rw [if_pos hin, if_neg (by omega : ¬ j - d = src + d + n), if_pos ⟨hin.1, by omega⟩]
  · by_cases hj : j = src + d + n
    · subst hj
      rw [if_neg (by omega), if_pos rfl, if_pos ⟨by omega, by omega⟩]
      congr 1
      omega
    · rw [if_neg hin, if_neg hj, if_neg (by omega)]

/-- `moveUp` is the loop `for (i = n - 1; i >= 0; i--) m[src + d + i] = m[src + i]`: running
from the top, every cell is read before it is overwritten. -/
theorem foldr_set_eq_moveUp (m : Mem α) (src d : Nat) (hd : 0 < d) :
    ∀ n : Nat, ((List.range n).reverse).foldl
      (fun acc i => set acc (src + d + i) (acc (src + i))) m = m.moveUp src d n := by
  intro n
  induction n generalizing m with
  | zero =>
      funext j
      simp only [List.range_zero, List.reverse_nil, List.foldl_nil, moveUp]
      rw [if_neg (by omega)]
  | succ n ih =>
      rw [List.range_succ, List.reverse_append, List.reverse_singleton,
        List.singleton_append, List.foldl_cons, ih, moveUp_set_last m src d n hd]

/-! ## §2. Frames. -/

/-- The two memories agree on `[lo, hi)`. -/
def AgreeOn (lo hi : Nat) (m m' : Mem α) : Prop :=
  ∀ j, lo ≤ j → j < hi → m j = m' j

/-- Every cell outside `[lo, hi)` is the same in both memories. -/
def ChangesOnly (lo hi : Nat) (m m' : Mem α) : Prop :=
  ∀ j, ¬ (lo ≤ j ∧ j < hi) → m' j = m j

theorem AgreeOn.refl (lo hi : Nat) (m : Mem α) : AgreeOn lo hi m m :=
  fun _ _ _ => rfl

theorem AgreeOn.trans {lo hi : Nat} {m₁ m₂ m₃ : Mem α} (h₁ : AgreeOn lo hi m₁ m₂)
    (h₂ : AgreeOn lo hi m₂ m₃) : AgreeOn lo hi m₁ m₃ :=
  fun j hlo hhi => (h₁ j hlo hhi).trans (h₂ j hlo hhi)

theorem AgreeOn.mono {lo hi lo' hi' : Nat} {m m' : Mem α} (h : AgreeOn lo hi m m')
    (hlo : lo ≤ lo') (hhi : hi' ≤ hi) : AgreeOn lo' hi' m m' :=
  fun j h₁ h₂ => h j (by omega) (by omega)

theorem ChangesOnly.refl (lo hi : Nat) (m : Mem α) : ChangesOnly lo hi m m :=
  fun _ _ => rfl

theorem ChangesOnly.trans {lo hi : Nat} {m₁ m₂ m₃ : Mem α} (h₁ : ChangesOnly lo hi m₁ m₂)
    (h₂ : ChangesOnly lo hi m₂ m₃) : ChangesOnly lo hi m₁ m₃ :=
  fun j hj => (h₂ j hj).trans (h₁ j hj)

theorem ChangesOnly.mono {lo hi lo' hi' : Nat} {m m' : Mem α} (h : ChangesOnly lo hi m m')
    (hlo : lo' ≤ lo) (hhi : hi ≤ hi') : ChangesOnly lo' hi' m m' :=
  fun j hj => h j (by omega)

/-- A store confined to one interval is invisible on a disjoint one. -/
theorem ChangesOnly.agreeOn {lo hi lo' hi' : Nat} {m m' : Mem α} (h : ChangesOnly lo hi m m')
    (hdisj : hi' ≤ lo ∨ hi ≤ lo') : AgreeOn lo' hi' m m' :=
  fun j hlo hhi => (h j (by omega)).symm

theorem set_changesOnly (m : Mem α) (i : Nat) (v : α) : ChangesOnly i (i + 1) m (m.set i v) :=
  fun j hj => set_other m v (by omega)

theorem fill_changesOnly (m : Mem α) (base n : Nat) (f : Nat → α) :
    ChangesOnly base (base + n) m (m.fill base n f) :=
  fun _ hj => fill_outside m f hj

theorem moveUp_changesOnly (m : Mem α) (src d n : Nat) :
    ChangesOnly (src + d) (src + d + n) m (m.moveUp src d n) :=
  fun j hj => by simp [moveUp, hj]

theorem AgreeOn.append {lo mid hi : Nat} {m m' : Mem α} (h₁ : AgreeOn lo mid m m')
    (h₂ : AgreeOn mid hi m m') : AgreeOn lo hi m m' := by
  intro j hlo hhi
  by_cases hj : j < mid
  · exact h₁ j hlo hj
  · exact h₂ j (by omega) hhi

theorem fill_agreeOn (m m' : Mem α) (base n : Nat) (f : Nat → α) :
    AgreeOn base (base + n) (m.fill base n f) (m'.fill base n f) := by
  intro j hlo hhi
  rw [fill_inside m f ⟨hlo, hhi⟩, fill_inside m' f ⟨hlo, hhi⟩]

/-! ## §3. Bytes of a word memory. -/

/-- Byte `k` of the words that start at `base`. -/
def byteAt (m : Mem U32) (base k : Nat) : U8 :=
  wordByte (m (base + k / 4)) (k % 4)

/-- The word made of bytes `4 i, …, 4 i + 3` of `b`. -/
def wordOf (b : Nat → U8) (i : Nat) : U32 :=
  packWord (b (i * 4)) (b (i * 4 + 1)) (b (i * 4 + 2)) (b (i * 4 + 3))

theorem wordByte_wordOf (b : Nat → U8) (k : Nat) : wordByte (wordOf b (k / 4)) (k % 4) = b k := by
  have h := wordByte_packWord (fun i => b (k / 4 * 4 + i)) (k % 4) (Nat.mod_lt _ (by omega))
  have hk : k / 4 * 4 + k % 4 = k := by omega
  simpa [wordOf, hk] using h

/-- Bytes stored as words are those of the words. -/
theorem byteAt_fill (m : Mem U32) (base n : Nat) (f : Nat → U32) {k : Nat} (hk : k < n * 4) :
    byteAt (m.fill base n f) base k = wordByte (f (k / 4)) (k % 4) := by
  rw [byteAt, fill_at m _ (by omega)]

/-- Bytes stored as packed words are read back unchanged. -/
theorem byteAt_fill_wordOf (m : Mem U32) (base n : Nat) (b : Nat → U8) {k : Nat}
    (hk : k < n * 4) : byteAt (m.fill base n (wordOf b)) base k = b k := by
  rw [byteAt_fill m _ _ _ hk, wordByte_wordOf]

/-- The bytes from the word `base + a` on are those behind the first `4 a` bytes. -/
theorem byteAt_add (m : Mem U32) (base a k : Nat) : byteAt m base (a * 4 + k) = byteAt m (base + a) k := by
  have hdiv : (a * 4 + k) / 4 = a + k / 4 := by omega
  have hmod : (a * 4 + k) % 4 = k % 4 := by omega
  rw [byteAt, byteAt, hdiv, hmod, Nat.add_assoc]

theorem byteAt_congr {m m' : Mem U32} {base k : Nat} (h : m (base + k / 4) = m' (base + k / 4)) :
    byteAt m base k = byteAt m' base k := by
  rw [byteAt, byteAt, h]

/-! ### Two memories, byte by byte. -/

/-- The `n` bytes from the word `base` on are the same in both memories. -/
def BytesAgree (base n : Nat) (m m' : Mem U32) : Prop := ∀ k, k < n → byteAt m base k = byteAt m' base k

theorem BytesAgree.trans {base n : Nat} {m₁ m₂ m₃ : Mem U32} (h₁ : BytesAgree base n m₁ m₂)
    (h₂ : BytesAgree base n m₂ m₃) : BytesAgree base n m₁ m₃ :=
  fun k hk => (h₁ k hk).trans (h₂ k hk)

theorem AgreeOn.bytes {base hi n : Nat} {m m' : Mem U32} (h : AgreeOn base hi m m')
    (hn : base + (n + 3) / 4 ≤ hi) : BytesAgree base n m m' :=
  fun k hk => byteAt_congr (h _ (Nat.le_add_right _ _) (by omega))

/-- Where a byte of `m` is that of `m'`, the byte of `n` is that of `n'`. -/
def Carries (m m' n n' : Mem U32) : Prop :=
  ∀ j k, k < 4 → wordByte (m j) k = wordByte (m' j) k → wordByte (n j) k = wordByte (n' j) k

theorem Carries.refl (m m' : Mem U32) : Carries m m' m m' := fun _ _ _ h => h

theorem Carries.trans {m m' n n' p p' : Mem U32} (h₁ : Carries m m' n n') (h₂ : Carries n n' p p') :
    Carries m m' p p' :=
  fun j k hk hm => h₂ j k hk (h₁ j k hk hm)

theorem Carries.bytes {m m' n n' : Mem U32} (h : Carries m m' n n') {base len : Nat}
    (hm : BytesAgree base len m m') : BytesAgree base len n n' :=
  fun k hk => h _ _ (Nat.mod_lt _ (by omega)) (hm k hk)

theorem Carries.agreeOn {m m' n n' : Mem U32} (h : Carries m m' n n') {lo hi : Nat}
    (hm : AgreeOn lo hi m m') : AgreeOn lo hi n n' := by
  intro j hlo hhi
  have hbyte : ∀ k, k < 4 → wordByte (n j) k = wordByte (n' j) k :=
    fun k hk => h j k hk (by rw [hm j hlo hhi])
  rw [← packWord_wordByte (n j), ← packWord_wordByte (n' j), hbyte 0 (by omega), hbyte 1 (by omega),
    hbyte 2 (by omega), hbyte 3 (by omega)]

/-- Words that are stored with the same value on both sides, or left alone on both. -/
theorem carries_of_words {m m' n n' : Mem U32} (h : ∀ j, n j = n' j ∨ (n j = m j ∧ n' j = m' j)) :
    Carries m m' n n' := by
  intro j k _ hm
  rcases h j with hsame | ⟨hn, hn'⟩
  · rw [hsame]
  · rw [hn, hn', hm]

/-- The same store on both sides. -/
theorem set_carries (m m' : Mem U32) (i : Nat) (v : U32) : Carries m m' (m.set i v) (m'.set i v) := by
  refine carries_of_words fun j => ?_
  by_cases hj : j = i
  · exact .inl (by rw [hj, set_same, set_same])
  · exact .inr ⟨set_other m v hj, set_other m' v hj⟩

theorem fill_carries (m m' : Mem U32) (base n : Nat) (f : Nat → U32) :
    Carries m m' (m.fill base n f) (m'.fill base n f) := by
  refine carries_of_words fun j => ?_
  by_cases hj : base ≤ j ∧ j < base + n
  · exact .inl (by rw [fill_inside m f hj, fill_inside m' f hj])
  · exact .inr ⟨fill_outside m f hj, fill_outside m' f hj⟩

end Mem

/-- Overwrite the byte string `b` with the list `l` from offset `off` on. -/
def putBytes (b : Nat → U8) (off : Nat) (l : List U8) : Nat → U8 :=
  fun i => if off ≤ i ∧ i < off + l.length then l.getD (i - off) 0 else b i

theorem putBytes_inside (b : Nat → U8) {off i : Nat} (l : List U8)
    (h : off ≤ i ∧ i < off + l.length) : putBytes b off l i = l.getD (i - off) 0 := by
  simp [putBytes, h]

theorem putBytes_outside (b : Nat → U8) {off i : Nat} (l : List U8)
    (h : ¬ (off ≤ i ∧ i < off + l.length)) : putBytes b off l i = b i := by
  simp [putBytes, h]

/-- Two lists, one behind the other. -/
theorem putBytes_append (b : Nat → U8) (off : Nat) (l m : List U8) :
    putBytes (putBytes b off l) (off + l.length) m = putBytes b off (l ++ m) := by
  funext k
  by_cases hm : off + l.length ≤ k ∧ k < off + l.length + m.length
  · rw [putBytes_inside _ _ hm, putBytes_inside _ _ (by rw [List.length_append]; omega),
      List.getD_append_right _ _ _ _ (by omega)]
    congr 1
    omega
  · rw [putBytes_outside _ _ hm]
    by_cases hl : off ≤ k ∧ k < off + l.length
    · rw [putBytes_inside _ _ hl, putBytes_inside _ _ (by rw [List.length_append]; omega),
        List.getD_append _ _ _ _ (by omega)]
    · rw [putBytes_outside _ _ hl, putBytes_outside _ _ (by rw [List.length_append]; omega)]

/-! ## §4. The first values of a function, as a list. -/

theorem getD_map_range {α : Type} (f : Nat → α) (d : α) {k n : Nat} (h : k < n) :
    ((List.range n).map f).getD k d = f k := by
  rw [List.getD_eq_getElem _ _ (by simpa using h), List.getElem_map, List.getElem_range]

theorem take_map_range {α : Type} (f : Nat → α) (n k : Nat) :
    ((List.range n).map f).take k = (List.range (min k n)).map f := by
  rw [← List.map_take, List.take_range]

theorem drop_map_range {α : Type} (f : Nat → α) (a n : Nat) :
    ((List.range (a + n)).map f).drop a = (List.range n).map (fun i => f (a + i)) := by
  rw [List.range_add, List.map_append, List.drop_left' (by simp), List.map_map]
  rfl

/-- The first values, two more, and the rest. -/
theorem map_range_split {α : Type} (f : Nat → α) {a n : Nat} (h : a + 2 ≤ n) :
    (List.range n).map f
      = (List.range a).map f ++ ([f a, f (a + 1)] ++ (List.range' (a + 2) (n - (a + 2))).map f) := by
  obtain ⟨m, rfl⟩ : ∃ m, n = a + 2 + m := ⟨n - (a + 2), by omega⟩
  rw [Nat.add_sub_cancel_left, List.range_add, List.map_append, List.range_succ, List.range_succ,
    List.range'_eq_map_range]
  simp

/-- A list of known length that agrees with a function is the list of its values. -/
theorem take_eq_map_range {α : Type} {f : Nat → α} {d : α} {l : List α} {n : Nat} (hn : n ≤ l.length)
    (h : ∀ k, k < n → l.getD k d = f k) : l.take n = (List.range n).map f := by
  apply List.ext_getElem (by simp [hn])
  intro k hk _
  have hkn : k < n := by
    rw [List.length_take] at hk
    omega
  rw [List.getElem_take, List.getElem_map, List.getElem_range, ← h k hkn,
    List.getD_eq_getElem _ _ (by omega)]

end Hw
