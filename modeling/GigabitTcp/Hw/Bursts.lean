/-
  GigabitTcp.Hw.Bursts — the bursts of a wire, and registers that keep the head of one.

  A wire carries an element or nothing in each cycle; a burst is a maximal run of cycles with
  elements.  A recorder counts the cycles of the burst up to `sat`, writes the element to the
  place that the counter shows if the memory has such a place, and freezes when a burst of
  `freeze` elements or more has ended.

  Main result:
    * `Recorder.run_keeps` — what a recorder holds after any run: the head of the first long burst.
-/
import GigabitTcp.Hw.Machine
import GigabitTcp.Hw.Mem

namespace Hw

variable {α : Type}

/-! ## §1. Bursts. -/

/-- The bursts that have ended, and the elements of the one that goes on. -/
structure Bursts (α : Type) where
  ended : List (List α) := []
  current : List α := []

namespace Bursts

/-- One cycle of the wire. -/
def next (l : Bursts α) : Option α → Bursts α
  | some a => { l with current := l.current ++ [a] }
  | none => { ended := if l.current = [] then l.ended else l.ended ++ [l.current] }

/-- The bursts of a wire. -/
def of (xs : List (Option α)) : Bursts α := xs.foldl next {}

theorem of_snoc (xs : List (Option α)) (x : Option α) : of (xs ++ [x]) = (of xs).next x := by
  rw [of, List.foldl_append]
  rfl

/-- The first burst of at least `n` elements that has ended. -/
def firstLong (n : Nat) (l : Bursts α) : Option (List α) := l.ended.find? fun f => n ≤ f.length

theorem firstLong_some (n : Nat) (l : Bursts α) (a : α) : (l.next (some a)).firstLong n = l.firstLong n := rfl

theorem firstLong_none {n : Nat} (hn : 0 < n) (l : Bursts α) :
    (l.next none).firstLong n
      = (l.firstLong n).or (if n ≤ l.current.length then some l.current else none) := by
  unfold firstLong next
  by_cases hnil : l.current = []
  · have hshort : ¬ n ≤ l.current.length := by
      rw [hnil, List.length_nil]
      omega
    simp only [if_pos hnil, if_neg hshort, Option.or_none]
  · simp only [if_neg hnil]
    rw [List.find?_append, List.find?_singleton]
    simp

/-- A long burst that has ended stays the first one. -/
theorem firstLong_append {n : Nat} (hn : 0 < n) {xs : List (Option α)} {f : List α}
    (h : (of xs).firstLong n = some f) (ys : List (Option α)) :
    (of (xs ++ ys)).firstLong n = some f := by
  induction ys using List.reverseRecOn with
  | nil => rwa [List.append_nil]
  | append_singleton ys y ih =>
      rw [← List.append_assoc, of_snoc]
      cases y with
      | some a => rw [firstLong_some, ih]
      | none => rw [firstLong_none hn, ih, Option.some_or]

end Bursts

/-! ## §2. Recorders. -/

/-- A recorder with `n` places. -/
structure Recorder (α : Type) where
  run : Nat
  mem : Mem α
  done : Bool

namespace Recorder

/-- One cycle of the wire. -/
def next (n sat freeze : Nat) (s : Recorder α) (x : Option α) : Recorder α :=
  if s.done then s
  else
    match x with
    | none => { s with run := 0, done := freeze ≤ s.run }
    | some a =>
        { s with
          run := if s.run < sat then s.run + 1 else s.run
          mem := if s.run < n then s.mem.set s.run a else s.mem }

/-- The memory holds the head of the burst; the place at which the counter stops is written
again by every later element. -/
def Holds (n sat : Nat) (f : List α) (mem : Mem α) : Prop :=
  ∀ k, k < n → (k < sat → ∀ a, f[k]? = some a → mem k = a) ∧
    (k = sat → k < f.length → f.getLast? = some (mem k))

/-- What a recorder holds when the wire has shown these bursts. -/
def Keeps (n sat freeze : Nat) (l : Bursts α) (s : Recorder α) : Prop :=
  match l.firstLong freeze with
  | some f => s.done = true ∧ Holds n sat f s.mem
  | none => s.done = false ∧ s.run = min l.current.length sat ∧ Holds n sat l.current s.mem

/-- **One more element**. -/
theorem Holds.snoc {n sat : Nat} {f : List α} {mem : Mem α} (h : Holds n sat f mem) (a : α) :
    Holds n sat (f ++ [a])
      (if min f.length sat < n then mem.set (min f.length sat) a else mem) := by
  intro k hk
  obtain ⟨hfront, hlast⟩ := h k hk
  constructor
  · intro hlt b hb
    by_cases hold : k < f.length
    · have hother : k ≠ min f.length sat := by omega
      rw [List.getElem?_append_left hold] at hb
      by_cases hroom : min f.length sat < n
      · rw [if_pos hroom, Mem.set_other mem a hother]
        exact hfront hlt b hb
      · rw [if_neg hroom]
        exact hfront hlt b hb
    · have hlen : k = f.length := by
        obtain ⟨hin, -⟩ := List.getElem?_eq_some_iff.mp hb
        rw [List.length_append, List.length_singleton] at hin
        omega
      have hplace : min f.length sat = k := by omega
      rw [hlen, List.getElem?_concat_length] at hb
      rw [hplace, if_pos hk]
      have hset : mem.set k a k = a := by simp [Mem.set]
      rw [hset]
      exact Option.some.inj hb
  · intro hsat hlen
    rw [List.length_append, List.length_singleton] at hlen
    have hplace : min f.length sat = k := by omega
    rw [hplace, if_pos hk, List.getLast?_concat]
    simp [Mem.set]

/-- **One cycle.** -/
theorem Keeps.next {n sat freeze : Nat} (hpos : 0 < freeze) (hle : freeze ≤ sat) {l : Bursts α}
    {s : Recorder α} (h : Keeps n sat freeze l s) (x : Option α) :
    Keeps n sat freeze (l.next x) (s.next n sat freeze x) := by
  unfold Keeps at h
  cases hlong : l.firstLong freeze with
  | some f =>
      -- frozen: what has ended stays the first long burst
      rw [hlong] at h
      have hframe : (l.next x).firstLong freeze = some f := by
        cases x with
        | some a => rw [Bursts.firstLong_some, hlong]
        | none => rw [Bursts.firstLong_none hpos, hlong, Option.some_or]
      unfold Keeps Recorder.next
      rw [hframe, if_pos h.1]
      exact h
  | none =>
      rw [hlong] at h
      obtain ⟨hdone, hrun, hholds⟩ := h
      have hgoes : ¬ s.done = true := by simp [hdone]
      unfold Recorder.next
      rw [if_neg hgoes]
      cases x with
      | some a =>
          unfold Keeps
          rw [Bursts.firstLong_some, hlong]
          refine ⟨hdone, ?_, ?_⟩
          · show (if s.run < sat then s.run + 1 else s.run) = min (l.current ++ [a]).length sat
            rw [hrun, List.length_append, List.length_singleton]
            split <;> omega
          · show Holds n sat (l.current ++ [a]) (if s.run < n then s.mem.set s.run a else s.mem)
            rw [hrun]
            exact hholds.snoc a
      | none =>
          unfold Keeps
          rw [Bursts.firstLong_none hpos, hlong, Option.none_or]
          by_cases hfreeze : freeze ≤ l.current.length
          · rw [if_pos hfreeze]
            refine ⟨?_, hholds⟩
            show decide (freeze ≤ s.run) = true
            rw [hrun, decide_eq_true_eq]
            omega
          · rw [if_neg hfreeze]
            refine ⟨?_, (Nat.zero_min sat).symm, ?_⟩
            · show decide (freeze ≤ s.run) = false
              rw [hrun, decide_eq_false_iff_not]
              omega
            · intro k _
              exact ⟨fun _ _ ha => (Option.some_ne_none _ ha.symm).elim,
                fun _ hlen => absurd hlen (Nat.not_lt_zero k)⟩

/-- A recorder on a wire. -/
def run_of (n sat freeze : Nat) (s : Recorder α) (xs : List (Option α)) : Recorder α :=
  xs.foldl (Recorder.next n sat freeze) s

/-- **What a recorder holds**: as long as no long burst has ended, the head of the burst that goes
on; behind the end of the first long one, its head for ever. -/
theorem run_keeps (n sat freeze : Nat) (hpos : 0 < freeze) (hle : freeze ≤ sat) (mem : Mem α)
    (xs : List (Option α)) :
    Keeps n sat freeze (Bursts.of xs) (run_of n sat freeze { run := 0, mem, done := false } xs) := by
  induction xs using List.reverseRecOn with
  | nil =>
      refine ⟨rfl, (Nat.zero_min sat).symm, ?_⟩
      intro k _
      exact ⟨fun _ _ ha => (Option.some_ne_none _ ha.symm).elim,
                fun _ hlen => absurd hlen (Nat.not_lt_zero k)⟩
  | append_singleton xs x ih =>
      rw [Bursts.of_snoc, run_of, List.foldl_append]
      exact ih.next hpos hle x

end Recorder

end Hw
