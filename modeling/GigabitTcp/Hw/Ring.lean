/-
  GigabitTcp.Hw.Ring — first-in first-out queues in a ring of `2 ^ w` cells.

  A ring is a memory with a write and a read pointer of `w` bits that wrap around.  The
  occupancy is their difference, and the cells from the read pointer on, that many, are the
  contents.  In one clock cycle a word may be put in at the write pointer and a word may be
  taken out at the read pointer.

  Main results:
    * `step_conserves` — contents and what is put in are what is taken out and the contents,
    * `toNat_occ_step` — the occupancy counts them,
    * `step_mem`       — no word in the ring is overwritten.
-/
import GigabitTcp.Hw.Mem

namespace Hw

/-- A ring buffer: the cells, the cell to write next and the cell to read next. -/
structure Ring (w : Nat) (α : Type) where
  mem : Mem α
  wptr : BitVec w
  rptr : BitVec w

namespace Ring

variable {w : Nat} {α : Type}

/-- The number of words in the ring. -/
def occ (r : Ring w α) : BitVec w := r.wptr - r.rptr

/-- The word at the read pointer. -/
def front (r : Ring w α) : α := r.mem r.rptr.toNat

/-- Both pointers back to the first cell. -/
def clear (r : Ring w α) : Ring w α := { r with wptr := 0, rptr := 0 }

/-- One cycle: `put` goes in at the write pointer, and if `take` the front goes out. -/
def step (r : Ring w α) (put : Option α) (take : Bool) : Ring w α :=
  { mem := match put with
      | some x => r.mem.set r.wptr.toNat x
      | none => r.mem
    wptr := if put.isSome then r.wptr + 1 else r.wptr
    rptr := if take then r.rptr + 1 else r.rptr }

/-- The words in the ring, oldest first. -/
def contents (r : Ring w α) : List α :=
  (List.range r.occ.toNat).map (fun k => r.mem (r.rptr + BitVec.ofNat w k).toNat)

@[simp] theorem length_contents (r : Ring w α) : r.contents.length = r.occ.toNat := by
  simp [contents]

@[simp] theorem occ_clear (r : Ring w α) : r.clear.occ = 0 := BitVec.sub_self _

@[simp] theorem contents_clear (r : Ring w α) : r.clear.contents = [] := by
  have h : r.clear.contents.length = 0 := by
    rw [length_contents, occ_clear]
    exact BitVec.toNat_zero
  exact List.eq_nil_of_length_eq_zero h

/-! ## §1. Putting in and taking out. -/

/-- The write pointer is not one of the cells in use. -/
theorem wptr_ne (r : Ring w α) {k : Nat} (hk : k < r.occ.toNat) :
    (r.rptr + BitVec.ofNat w k).toNat ≠ r.wptr.toNat := by
  have hw := r.wptr.isLt
  have hr := r.rptr.isLt
  have hocc : r.occ.toNat = (2 ^ w - r.rptr.toNat + r.wptr.toNat) % 2 ^ w := BitVec.toNat_sub _ _
  have hlt : r.occ.toNat < 2 ^ w := r.occ.isLt
  intro h
  rw [BitVec.toNat_add, BitVec.toNat_ofNat, Nat.mod_eq_of_lt (by omega : k < 2 ^ w)] at h
  rcases Nat.lt_or_ge (r.rptr.toNat + k) (2 ^ w) with hin | hwrap
  · rw [Nat.mod_eq_of_lt hin] at h
    have : r.occ.toNat = k := by
      rw [hocc, ← h, show 2 ^ w - r.rptr.toNat + (r.rptr.toNat + k) = k + 2 ^ w by omega,
        Nat.add_mod_right, Nat.mod_eq_of_lt (by omega)]
    omega
  · rw [Nat.mod_eq_sub_mod hwrap, Nat.mod_eq_of_lt (by omega)] at h
    have : r.occ.toNat = k := by
      rw [hocc, ← h, show 2 ^ w - r.rptr.toNat + (r.rptr.toNat + k - 2 ^ w) = k by omega,
        Nat.mod_eq_of_lt (by omega)]
    omega

theorem toNat_one {w : Nat} (h : 1 < 2 ^ w) : (1 : BitVec w).toNat = 1 := by
  show 1 % 2 ^ w = 1
  exact Nat.mod_eq_of_lt h

theorem toNat_occ_put (r : Ring w α) (x : α) (h : r.occ.toNat + 1 < 2 ^ w) :
    (r.step (some x) false).occ.toNat = r.occ.toNat + 1 := by
  have hocc : (r.step (some x) false).occ = r.occ + 1 := by
    show r.wptr + 1 - r.rptr = r.wptr - r.rptr + 1
    rw [BitVec.sub_eq_add_neg, BitVec.sub_eq_add_neg, BitVec.add_assoc, BitVec.add_comm 1,
      ← BitVec.add_assoc]
  rw [hocc, BitVec.toNat_add, toNat_one (by omega), Nat.mod_eq_of_lt h]

theorem contents_put (r : Ring w α) (x : α) (h : r.occ.toNat + 1 < 2 ^ w) :
    (r.step (some x) false).contents = r.contents ++ [x] := by
  unfold contents
  rw [toNat_occ_put r x h, List.range_succ, List.map_append]
  refine congrArg₂ (· ++ ·) (List.map_congr_left fun k hk => ?_) ?_
  · exact Mem.set_other _ _ (r.wptr_ne (List.mem_range.mp hk))
  · -- the new word stands at the old write pointer
    have hat : r.rptr + BitVec.ofNat w r.occ.toNat = r.wptr := by
      rw [BitVec.ofNat_toNat, BitVec.setWidth_eq]
      show r.rptr + (r.wptr - r.rptr) = r.wptr
      rw [BitVec.add_comm, BitVec.sub_add_cancel]
    show [(r.mem.set r.wptr.toNat x) (r.rptr + BitVec.ofNat w r.occ.toNat).toNat] = [x]
    rw [hat, Mem.set_same]

theorem toNat_occ_take (r : Ring w α) (h : 0 < r.occ.toNat) :
    (r.step none true).occ.toNat + 1 = r.occ.toNat := by
  have hlt : r.occ.toNat < 2 ^ w := r.occ.isLt
  have hocc : r.occ = (r.step none true).occ + 1 := by
    show r.wptr - r.rptr = r.wptr - (r.rptr + 1) + 1
    rw [BitVec.sub_eq_add_neg r.wptr (r.rptr + 1), BitVec.neg_add, BitVec.sub_eq_add_neg (-r.rptr),
      ← BitVec.add_assoc, ← BitVec.sub_eq_add_neg (r.wptr + -r.rptr), BitVec.sub_add_cancel,
      ← BitVec.sub_eq_add_neg]
  have hless : (r.step none true).occ.toNat + 1 < 2 ^ w := by
    by_contra hfull
    -- a full ring would have occupancy zero before
    have hlast : (r.step none true).occ.toNat + 1 = 2 ^ w := by
      have := (r.step none true).occ.isLt
      omega
    rw [hocc, BitVec.toNat_add, toNat_one (by omega), hlast, Nat.mod_self] at h
    exact absurd h (Nat.lt_irrefl 0)
  rw [hocc, BitVec.toNat_add, toNat_one (by omega), Nat.mod_eq_of_lt hless]

theorem contents_take (r : Ring w α) (h : 0 < r.occ.toNat) :
    r.contents = r.front :: (r.step none true).contents := by
  have hocc := r.toNat_occ_take h
  unfold contents
  rw [← hocc, List.range_succ_eq_map, List.map_cons, List.map_map]
  refine congrArg₂ List.cons ?_ (List.map_congr_left fun k _ => ?_)
  · show r.mem (r.rptr + BitVec.ofNat w 0).toNat = r.mem r.rptr.toNat
    rw [BitVec.add_zero]
  · show r.mem (r.rptr + BitVec.ofNat w (k + 1)).toNat = r.mem (r.rptr + 1 + BitVec.ofNat w k).toNat
    rw [add_ofNat_succ]

/-! ## §2. One cycle. -/

/-- A cycle puts in first and takes out then; the front is that of before, since the ring has
something to take. -/
theorem step_eq (r : Ring w α) (put : Option α) (take : Bool) :
    r.step put take = (r.step put false).step none take := by
  cases put <;> cases take <;> rfl

/-- **The occupancy** counts what goes in and what goes out. -/
theorem toNat_occ_step (r : Ring w α) {put : Option α} {take : Bool}
    (hput : put.isSome = true → r.occ.toNat + 1 < 2 ^ w) (htake : take = true → 0 < r.occ.toNat) :
    (r.step put take).occ.toNat + take.toNat = r.occ.toNat + put.toList.length := by
  cases put with
  | none =>
      cases take with
      | false => rfl
      | true => exact r.toNat_occ_take (htake rfl)
  | some x =>
      have hmore := r.toNat_occ_put x (hput rfl)
      cases take with
      | false => exact hmore
      | true =>
          rw [step_eq]
          have hless := (r.step (some x) false).toNat_occ_take (by omega)
          show _ + 1 = _ + 1
          omega

/-- **Conservation**: contents and what goes in are what goes out and the contents then. -/
theorem step_conserves (r : Ring w α) {put : Option α} {take : Bool}
    (hput : put.isSome = true → r.occ.toNat + 1 < 2 ^ w) (htake : take = true → 0 < r.occ.toNat) :
    r.contents ++ put.toList
      = (if take then [r.front] else []) ++ (r.step put take).contents := by
  cases put with
  | none =>
      cases take with
      | false => exact List.append_nil _
      | true =>
          show r.contents ++ [] = r.front :: (r.step none true).contents
          rw [List.append_nil, r.contents_take (htake rfl)]
  | some x =>
      have hmore := r.contents_put x (hput rfl)
      cases take with
      | false => exact hmore.symm
      | true =>
          -- the word that goes in does not touch the front
          have hfront : (r.step (some x) false).front = r.front := by
            have h := r.wptr_ne (htake rfl)
            rw [BitVec.add_zero] at h
            exact Mem.set_other _ _ h
          have hocc := r.toNat_occ_put x (hput rfl)
          have hless := (r.step (some x) false).contents_take (by omega)
          show r.contents ++ [x] = r.front :: (r.step (some x) true).contents
          rw [← hmore, hless, hfront, ← step_eq]

/-- A cycle leaves the words in the ring where they are, the one it takes out included. -/
theorem step_mem (r : Ring w α) (put : Option α) (take : Bool) {k : Nat} (hk : k < r.occ.toNat) :
    (r.step put take).mem (r.rptr + BitVec.ofNat w k).toNat
      = r.mem (r.rptr + BitVec.ofNat w k).toNat := by
  cases put with
  | none => rfl
  | some x => exact Mem.set_other _ _ (r.wptr_ne hk)

end Ring

end Hw
