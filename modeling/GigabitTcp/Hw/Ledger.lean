/-
  GigabitTcp.Hw.Ledger — first-in first-out service of many keys, kept in a ledger.

  A ledger is the list of what happened, oldest first: a key begins anew (`opened`), items
  are taken over for a key (`put`), items are given out for a key (`took`).  The account of
  a key holds what was taken over and what was given out since the key last began.

  `Backed pending log` says that, key by key, what was taken over is what was given out,
  followed by `pending`.  The three rules `Backed.opened`, `Backed.put` and `Backed.took`
  say what an implementation has to show for each kind of note, and `Backed.in_order` is what
  it gets: nothing is given out that was not taken over for the same key, in that order.
-/
import Mathlib.Data.List.Basic

namespace Hw

variable {κ α : Type}

/-! ## §1. Ledgers and accounts. -/

/-- A note in the ledger. -/
inductive Note (κ α : Type) where
  /-- The key begins anew. -/
  | opened (k : κ)
  /-- The items `l` are taken over for `k`. -/
  | put (k : κ) (l : List α)
  /-- The items `l` are given out for `k`. -/
  | took (k : κ) (l : List α)
  deriving Repr, DecidableEq

/-- What was taken over and what was given out for one key. -/
structure Account (α : Type) where
  put : List α := []
  took : List α := []
  deriving Repr, DecidableEq

/-- The key a note is about. -/
def Note.key : Note κ α → κ
  | .opened k => k
  | .put k _ => k
  | .took k _ => k

variable [DecidableEq κ]

/-- One note in the account of `k`. -/
def Account.note (k : κ) (a : Account α) : Note κ α → Account α
  | .opened j => if j = k then {} else a
  | .put j l => if j = k then { a with put := a.put ++ l } else a
  | .took j l => if j = k then { a with took := a.took ++ l } else a

theorem Account.note_opened (k : κ) (a : Account α) : a.note k (.opened k) = {} :=
  if_pos rfl

theorem Account.note_put (k : κ) (a : Account α) (l : List α) :
    a.note k (.put k l) = { a with put := a.put ++ l } :=
  if_pos rfl

theorem Account.note_took (k : κ) (a : Account α) (l : List α) :
    a.note k (.took k l) = { a with took := a.took ++ l } :=
  if_pos rfl

/-- A note about another key leaves the account alone. -/
theorem Account.note_other {k : κ} {n : Note κ α} (a : Account α) (h : k ≠ n.key) :
    a.note k n = a := by
  cases n with
  | opened j => exact if_neg (Ne.symm h)
  | put j l => exact if_neg (Ne.symm h)
  | took j l => exact if_neg (Ne.symm h)

/-- The account of `k` in a ledger. -/
def account (k : κ) (log : List (Note κ α)) : Account α :=
  log.foldl (Account.note k) {}

theorem account_append (k : κ) (log : List (Note κ α)) (n : Note κ α) :
    account k (log ++ [n]) = (account k log).note k n := by
  unfold account
  rw [List.foldl_append]
  rfl

/-! ## §2. Backed ledgers. -/

/-- For every key, what was taken over is what was given out and what is still pending. -/
def Backed (pending : κ → List α) (log : List (Note κ α)) : Prop :=
  ∀ k, (account k log).put = (account k log).took ++ pending k

theorem Backed.nil {pending : κ → List α} (h : ∀ k, pending k = []) :
    Backed pending ([] : List (Note κ α)) := by
  intro k
  rw [h k]
  rfl

/-- Given out is a prefix of taken over. -/
theorem Backed.in_order {pending : κ → List α} {log : List (Note κ α)} (h : Backed pending log)
    (k : κ) : (account k log).took <+: (account k log).put :=
  ⟨pending k, (h k).symm⟩

theorem Backed.congr {pending pending' : κ → List α} {log : List (Note κ α)}
    (h : Backed pending log) (heq : ∀ k, pending' k = pending k) : Backed pending' log := by
  intro k
  rw [heq k]
  exact h k

/-- A note that brings the account of its own key in order keeps the ledger backed. -/
theorem Backed.snoc {pending pending' : κ → List α} {log : List (Note κ α)} {n : Note κ α}
    (h : Backed pending log)
    (hself : ((account n.key log).note n.key n).put
      = ((account n.key log).note n.key n).took ++ pending' n.key)
    (hother : ∀ j, j ≠ n.key → pending' j = pending j) : Backed pending' (log ++ [n]) := by
  intro j
  rw [account_append]
  by_cases hj : j = n.key
  · subst hj
    exact hself
  · rw [Account.note_other _ hj, hother j hj]
    exact h j

/-- A key may begin anew when nothing is pending for it afterwards. -/
theorem Backed.opened {pending pending' : κ → List α} {log : List (Note κ α)} {k : κ}
    (h : Backed pending log) (hk : pending' k = []) (hother : ∀ j, j ≠ k → pending' j = pending j) :
    Backed pending' (log ++ [.opened k]) := by
  refine h.snoc ?_ hother
  show ((account k log).note k (.opened k)).put = ((account k log).note k (.opened k)).took ++ pending' k
  rw [Account.note_opened, hk]
  rfl

/-- What is taken over goes behind what is pending. -/
theorem Backed.put {pending pending' : κ → List α} {log : List (Note κ α)} {k : κ} {l : List α}
    (h : Backed pending log) (hk : pending' k = pending k ++ l)
    (hother : ∀ j, j ≠ k → pending' j = pending j) : Backed pending' (log ++ [.put k l]) := by
  refine h.snoc ?_ hother
  show ((account k log).note k (.put k l)).put = ((account k log).note k (.put k l)).took ++ pending' k
  rw [Account.note_put, hk]
  show (account k log).put ++ l = (account k log).took ++ (pending k ++ l)
  rw [h k, List.append_assoc]

/-- What is given out comes from the front of what is pending. -/
theorem Backed.took {pending pending' : κ → List α} {log : List (Note κ α)} {k : κ} {l : List α}
    (h : Backed pending log) (hk : pending k = l ++ pending' k)
    (hother : ∀ j, j ≠ k → pending' j = pending j) : Backed pending' (log ++ [.took k l]) := by
  refine h.snoc ?_ hother
  show ((account k log).note k (.took k l)).put = ((account k log).note k (.took k l)).took ++ pending' k
  rw [Account.note_took]
  show (account k log).put = (account k log).took ++ l ++ pending' k
  rw [h k, hk, List.append_assoc]

end Hw
