/-
  GigabitTcp.Hw.Logged — array programs that log the cells they access.

  A logged computation returns its result together with the array cells it loaded or stored,
  in program order.  A program is written once in this form, loop for loop; forgetting the
  log gives its meaning (`val_bind`, `val_loop`), and the log gives its index ranges
  (`log_bind`, `log_loop`).  `Within` says that every access stays inside the bounds of its
  array; the `within_*` rules decide it piece by piece.
-/
import GigabitTcp.Hw.Mem

namespace Hw

/-- A result and the accesses made on the way: array name and index. -/
structure Logged (ν α : Type) where
  val : α
  log : List (ν × Nat)

namespace Logged

variable {ν α β : Type}

/-! ## §1. Programs. -/

/-- Run `x`, then `f` on its result. -/
def bind (x : Logged ν α) (f : α → Logged ν β) : Logged ν β :=
  ⟨(f x.val).val, x.log ++ (f x.val).log⟩

instance : Monad (Logged ν) where
  pure a := ⟨a, []⟩
  bind := bind

/-- Read cell `i` of the array `a` with contents `m`. -/
def load (a : ν) (m : Mem α) (i : Nat) : Logged ν α := ⟨m i, [(a, i)]⟩

/-- Write cell `i` of the array `a` with contents `m`. -/
def store (a : ν) (m : Mem α) (i : Nat) (v : α) : Logged ν (Mem α) := ⟨m.set i v, [(a, i)]⟩

/-- The loop that runs `f` for the loop counters `is`. -/
def loop (f : Nat → α → Logged ν α) : List Nat → α → Logged ν α
  | [], x => pure x
  | i :: is, x => f i x >>= loop f is

@[simp] theorem val_pure (x : α) : (pure x : Logged ν α).val = x := rfl
@[simp] theorem log_pure (x : α) : (pure x : Logged ν α).log = [] := rfl
@[simp] theorem val_bind (x : Logged ν α) (f : α → Logged ν β) : (x >>= f).val = (f x.val).val := by
  cases x
  rfl
@[simp] theorem log_bind (x : Logged ν α) (f : α → Logged ν β) :
    (x >>= f).log = x.log ++ (f x.val).log := by
  cases x
  rfl
@[simp] theorem val_load (a : ν) (m : Mem α) (i : Nat) : (load a m i).val = m i := rfl
@[simp] theorem log_load (a : ν) (m : Mem α) (i : Nat) : (load a m i).log = [(a, i)] := rfl
@[simp] theorem val_store (a : ν) (m : Mem α) (i : Nat) (v : α) :
    (store a m i v).val = m.set i v := rfl
@[simp] theorem log_store (a : ν) (m : Mem α) (i : Nat) (v : α) :
    (store a m i v).log = [(a, i)] := rfl

/-- Without its log a loop is a fold. -/
theorem val_loop (f : Nat → α → Logged ν α) : ∀ (is : List Nat) (x : α),
    (loop f is x).val = is.foldl (fun x i => (f i x).val) x
  | [], _ => rfl
  | i :: is, x => val_loop f is (f i x).val

/-- A loop whose rounds access cells that do not depend on the data. -/
theorem log_loop {f : Nat → α → Logged ν α} {g : Nat → List (ν × Nat)}
    (h : ∀ i x, (f i x).log = g i) : ∀ (is : List Nat) (x : α), (loop f is x).log = is.flatMap g
  | [], _ => rfl
  | i :: is, x => by
      show (f i x).log ++ (loop f is (f i x).val).log = _
      rw [h, log_loop h is, List.flatMap_cons]

/-! ### The counted loops of array code. -/

theorem val_fillLoop (a : ν) (m : Mem α) (base n : Nat) (f : Nat → α) :
    (loop (fun i m => store a m (base + i) (f i)) (List.range n) m).val = m.fill base n f := by
  rw [val_loop]
  exact Mem.foldl_set_eq_fill m base n f

theorem val_copyLoop (a d : ν) (src m : Mem α) (first base n : Nat) :
    (loop (fun i m => do let w ← load a src (first + i); store d m (base + i) w) (List.range n) m).val
      = m.fill base n (fun i => src (first + i)) := by
  rw [val_loop]
  exact Mem.foldl_set_eq_fill m base n fun i => src (first + i)

theorem val_shiftLoop (a : ν) (m : Mem α) (src d n : Nat) (hd : 0 < d) :
    (loop (fun i m => store a m (src + d + i) (m (src + i))) (List.range n).reverse m).val
      = m.moveUp src d n := by
  rw [val_loop]
  exact Mem.foldr_set_eq_moveUp m src d hd n

/-! ## §2. Bounds. -/

/-- Every access stays inside `[lo, hi)` of its array. -/
def Within (bounds : ν → Nat × Nat) (log : List (ν × Nat)) : Prop :=
  ∀ x ∈ log, (bounds x.1).1 ≤ x.2 ∧ x.2 < (bounds x.1).2

instance (bounds : ν → Nat × Nat) (log : List (ν × Nat)) : Decidable (Within bounds log) :=
  inferInstanceAs (Decidable (∀ x ∈ log, _))

variable {bounds : ν → Nat × Nat}

@[simp] theorem within_nil : Within bounds ([] : List (ν × Nat)) := by
  intro x hx
  cases hx

@[simp] theorem within_cons (x : ν × Nat) (log : List (ν × Nat)) :
    Within bounds (x :: log)
      ↔ ((bounds x.1).1 ≤ x.2 ∧ x.2 < (bounds x.1).2) ∧ Within bounds log := by
  unfold Within
  exact List.forall_mem_cons

@[simp] theorem within_append (l m : List (ν × Nat)) :
    Within bounds (l ++ m) ↔ Within bounds l ∧ Within bounds m := by
  unfold Within
  exact List.forall_mem_append

theorem within_flatMap (is : List Nat) (g : Nat → List (ν × Nat)) :
    Within bounds (is.flatMap g) ↔ ∀ i ∈ is, Within bounds (g i) := by
  unfold Within
  constructor
  · intro h i hi x hx
    exact h x (List.mem_flatMap.mpr ⟨i, hi, hx⟩)
  · intro h x hx
    obtain ⟨i, hi, hx⟩ := List.mem_flatMap.mp hx
    exact h i hi x hx

/-- A loop stays in bounds when each of its rounds does, whatever the data. -/
theorem within_loop {f : Nat → α → Logged ν α} {is : List Nat}
    (h : ∀ i ∈ is, ∀ x, Within bounds (f i x).log) (x : α) : Within bounds (loop f is x).log := by
  induction is generalizing x with
  | nil => exact within_nil
  | cons i is ih =>
      show Within bounds ((f i x).log ++ (loop f is (f i x).val).log)
      rw [within_append]
      exact ⟨h i List.mem_cons_self x, ih (fun j hj => h j (List.mem_cons_of_mem i hj)) _⟩

end Logged

end Hw
