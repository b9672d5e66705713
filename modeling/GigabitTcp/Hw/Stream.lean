/-
  GigabitTcp.Hw.Stream — sending what was taken in as one numbered stream, and ending it.

  A sender takes items in and sends them on in frames; a frame carries the number of its
  first item, and the last frame ends the stream.  A stream is closed in order if, behind
  every last frame, no items follow, and everything taken in before it was sent, in order
  and numbered without a gap up to the number at which the stream ends (`ClosesInOrder`).

  `Streaming log pos pending` is the invariant of a sender that has not closed yet: what was
  taken in is what was sent, followed by `pending`, and the next item has number `pos`.  The
  rules `Streaming.taken`, `Streaming.sent` and `Streaming.close` say what an implementation
  has to show for each note.  Many streams are kept in one log by their keys (`dialogue`).
-/
import Mathlib.Data.List.Basic

namespace Hw

variable {κ α : Type} {w : Nat}

/-! ## §1. Numbered items. -/

/-- The items with their numbers, the first one being `s`. -/
def numbered : BitVec w → List α → List (BitVec w × α)
  | _, [] => []
  | s, x :: l => (s, x) :: numbered (s + 1) l

/-- The number behind `n` items. -/
theorem ofNat_succ_add (s : BitVec w) (n : Nat) :
    s + 1 + BitVec.ofNat w n = s + BitVec.ofNat w (n + 1) := by
  rw [BitVec.add_assoc, Nat.add_comm n 1, BitVec.ofNat_add]
  rfl

theorem numbered_append (s : BitVec w) (l m : List α) :
    numbered s (l ++ m) = numbered s l ++ numbered (s + BitVec.ofNat w l.length) m := by
  induction l generalizing s with
  | nil =>
      show numbered s m = numbered (s + BitVec.ofNat w 0) m
      rw [BitVec.add_zero]
  | cons x l ih =>
      show (s, x) :: numbered (s + 1) (l ++ m) = (s, x) :: (numbered (s + 1) l ++ _)
      rw [ih, ofNat_succ_add]
      rfl

/-! ## §2. Streams. -/

/-- A frame: the number of its first item, its items, and whether it ends the stream. -/
structure StreamFrame (w : Nat) (α : Type) where
  seq : BitVec w
  items : List α
  last : Bool
  deriving Repr, DecidableEq

/-- The number behind the items of the frame. -/
def StreamFrame.stop (f : StreamFrame w α) : BitVec w := f.seq + BitVec.ofNat w f.items.length

/-- A note about one stream. -/
inductive StreamNote (w : Nat) (α : Type) where
  /-- The items `l` are taken in. -/
  | taken (l : List α)
  /-- The frame `f` is sent. -/
  | sent (f : StreamFrame w α)
  deriving Repr, DecidableEq

/-- The items a note takes in. -/
def StreamNote.takes : StreamNote w α → List α
  | .taken l => l
  | .sent _ => []

/-- The numbered items a note sends. -/
def StreamNote.sends : StreamNote w α → List (BitVec w × α)
  | .taken _ => []
  | .sent f => numbered f.seq f.items

/-- **Closed in order**: everything taken in before a last frame is sent with it or before it,
numbered without a gap up to the end of that frame, and no items are sent behind it. -/
def ClosesInOrder (log : List (StreamNote w α)) : Prop :=
  ∀ before f behind, log = before ++ .sent f :: behind → f.last = true →
    (before ++ [StreamNote.sent f]).flatMap StreamNote.sends
        = numbered (f.stop - BitVec.ofNat w (before.flatMap StreamNote.takes).length)
          (before.flatMap StreamNote.takes)
      ∧ ∀ g, .sent g ∈ behind → g.items = []

/-- The stream is open: what was taken in is what was sent, followed by `pending`, and the
next item has number `pos`. -/
structure Streaming (log : List (StreamNote w α)) (pos : BitVec w) (pending : List α) : Prop where
  unclosed : ∀ f, .sent f ∈ log → f.last = false
  backed : ∃ base done, log.flatMap StreamNote.sends = numbered base done
    ∧ log.flatMap StreamNote.takes = done ++ pending ∧ pos = base + BitVec.ofNat w done.length

theorem Streaming.nil (pos : BitVec w) : Streaming ([] : List (StreamNote w α)) pos [] := by
  refine ⟨nofun, pos, [], rfl, rfl, ?_⟩
  show pos = pos + BitVec.ofNat w 0
  rw [BitVec.add_zero]

/-- Items are taken in. -/
theorem Streaming.taken {log : List (StreamNote w α)} {pos : BitVec w} {pending : List α}
    (h : Streaming log pos pending) (l : List α) :
    Streaming (log ++ [.taken l]) pos (pending ++ l) := by
  obtain ⟨hopen, base, done, hsends, htakes, hpos⟩ := h
  refine ⟨fun f hf => ?_, base, done, ?_, ?_, hpos⟩
  · rw [List.mem_append, List.mem_singleton] at hf
    rcases hf with hf | hf
    · exact hopen f hf
    · cases hf
  · rw [List.flatMap_append, hsends]
    exact List.append_nil _
  · rw [List.flatMap_append, htakes, List.append_assoc]
    show done ++ (pending ++ (l ++ [])) = _
    rw [List.append_nil]

/-- The sends and the position behind one more frame. -/
theorem Streaming.backed_sent {log : List (StreamNote w α)} {pos : BitVec w} {f : StreamFrame w α}
    {pending : List α} (h : Streaming log pos (f.items ++ pending)) (hseq : f.seq = pos) :
    ∃ base done, (log ++ [StreamNote.sent f]).flatMap StreamNote.sends = numbered base done
      ∧ log.flatMap StreamNote.takes = done ++ pending
      ∧ f.stop = base + BitVec.ofNat w done.length := by
  obtain ⟨_, base, done, hsends, htakes, hpos⟩ := h
  refine ⟨base, done ++ f.items, ?_, ?_, ?_⟩
  · rw [List.flatMap_append, hsends, numbered_append, ← hpos, ← hseq]
    show _ ++ (numbered f.seq f.items ++ []) = _
    rw [List.append_nil]
  · rw [htakes, List.append_assoc]
  · unfold StreamFrame.stop
    rw [hseq, hpos, List.length_append, BitVec.ofNat_add, BitVec.add_assoc]

/-- The front of what is pending is sent. -/
theorem Streaming.sent {log : List (StreamNote w α)} {pos : BitVec w} {f : StreamFrame w α}
    {pending : List α} (h : Streaming log pos (f.items ++ pending)) (hseq : f.seq = pos)
    (hlast : f.last = false) : Streaming (log ++ [.sent f]) f.stop pending := by
  obtain ⟨base, done, hsends, htakes, hstop⟩ := h.backed_sent hseq
  refine ⟨fun g hg => ?_, base, done, hsends, ?_, hstop⟩
  · rw [List.mem_append, List.mem_singleton] at hg
    rcases hg with hg | hg
    · exact h.unclosed g hg
    · cases hg
      exact hlast
  · rw [List.flatMap_append, htakes]
    exact List.append_nil _

/-- An open stream has no last frame yet. -/
theorem Streaming.closesInOrder {log : List (StreamNote w α)} {pos : BitVec w} {pending : List α}
    (h : Streaming log pos pending) : ClosesInOrder log := by
  rintro before f behind rfl hlast
  have hopen := h.unclosed f (List.mem_append_right before List.mem_cons_self)
  rw [hlast] at hopen
  cases hopen

/-- All that is pending is sent with the last frame. -/
theorem Streaming.close {log : List (StreamNote w α)} {pos : BitVec w} {f : StreamFrame w α}
    (h : Streaming log pos f.items) (hseq : f.seq = pos) : ClosesInOrder (log ++ [.sent f]) := by
  rw [← List.append_nil f.items] at h
  obtain ⟨base, done, hsends, htakes, hstop⟩ := h.backed_sent hseq
  rw [List.append_nil] at htakes
  intro before g behind hlog hlast
  -- the last frame is the last note: an earlier one would have closed the stream
  have hend : behind = [] ∧ before = log ∧ g = f := by
    rcases List.eq_nil_or_concat behind with hnil | ⟨behind', n, hbehind⟩
    · subst hnil
      obtain ⟨hbefore, hg⟩ := List.append_inj' hlog rfl
      exact ⟨rfl, hbefore.symm, by cases hg; rfl⟩
    · rw [hbehind, List.concat_eq_append, ← List.cons_append, ← List.append_assoc] at hlog
      obtain ⟨hbefore, -⟩ := List.append_inj' hlog rfl
      have hopen := h.unclosed g (by
        rw [hbefore]
        exact List.mem_append_right before List.mem_cons_self)
      rw [hlast] at hopen
      cases hopen
  obtain ⟨rfl, rfl, rfl⟩ := hend
  refine ⟨?_, nofun⟩
  rw [hsends, htakes, hstop, BitVec.add_sub_cancel]

/-! ## §3. Many streams in one log. -/

/-- A note about the stream of a key. -/
inductive DialogueNote (κ : Type) (w : Nat) (α : Type) where
  /-- The stream of `k` begins anew. -/
  | opened (k : κ)
  | noted (k : κ) (n : StreamNote w α)
  deriving Repr, DecidableEq

/-- The key a note is about. -/
def DialogueNote.about : DialogueNote κ w α → κ
  | .opened k => k
  | .noted k _ => k

variable [DecidableEq κ]

/-- One note in the stream of `k`. -/
def DialogueNote.enter (k : κ) (l : List (StreamNote w α)) :
    DialogueNote κ w α → List (StreamNote w α)
  | .opened j => if j = k then [] else l
  | .noted j n => if j = k then l ++ [n] else l

/-- The notes about the stream of `k` since it last began. -/
def dialogue (k : κ) (log : List (DialogueNote κ w α)) : List (StreamNote w α) :=
  log.foldl (DialogueNote.enter k) []

theorem dialogue_opened (k : κ) (log : List (DialogueNote κ w α)) :
    dialogue k (log ++ [.opened k]) = [] := by
  unfold dialogue
  rw [List.foldl_append]
  exact if_pos rfl

theorem dialogue_noted (k : κ) (log : List (DialogueNote κ w α)) (n : StreamNote w α) :
    dialogue k (log ++ [.noted k n]) = dialogue k log ++ [n] := by
  unfold dialogue
  rw [List.foldl_append]
  exact if_pos rfl

/-- A note about another key. -/
theorem dialogue_other {k : κ} (log : List (DialogueNote κ w α)) {n : DialogueNote κ w α}
    (h : n.about ≠ k) : dialogue k (log ++ [n]) = dialogue k log := by
  unfold dialogue
  rw [List.foldl_append]
  cases n with
  | opened j => exact if_neg h
  | noted j n => exact if_neg h

end Hw
