/-
  GigabitTcp.Hw.Matcher — incremental matchers that forget the byte of a mismatch.

  A matcher reads a stream letter by letter and stands, between two letters, in the state of the
  word that it is in the middle of.  At a letter that does not go on with this word it falls
  back to its first state and does not look at the letter again.  If that letter was the first
  one of the next word, the next word is missed: of words that stand back to back every
  second one is seen.

  Main result:
    * `GivesUp.odd_iff` — the matcher is inside a word exactly if an odd number of words stands
      back to back before it.
-/
import Mathlib.Data.List.Basic

namespace Hw

namespace Matcher

variable {σ α : Type} {B : List α → Prop}

/-- `l` ends in `n` words of `B` back to back, and no word of `B` stands before them. -/
inductive BackToBack (B : List α → Prop) : List α → Nat → Prop where
  | none {l : List α} (hnone : ∀ p, p <:+ l → ¬ B p) : BackToBack B l 0
  | more {l p : List α} {n : Nat} (hl : BackToBack B l n) (hp : B p) : BackToBack B (l ++ p) (n + 1)

/-- Words can be taken off the end until there is none. -/
theorem exists_backToBack (hnil : ¬ B []) (l : List α) : ∃ n, BackToBack B l n := by
  induction hlen : l.length using Nat.strongRecOn generalizing l with
  | ind len ih =>
      by_cases h : ∃ p, p <:+ l ∧ B p
      · obtain ⟨p, ⟨a, rfl⟩, hp⟩ := h
        have hpos : 0 < p.length := by
          rw [List.length_pos_iff]
          rintro rfl
          exact hnil hp
        rw [List.length_append] at hlen
        obtain ⟨n, hn⟩ := ih a.length (by omega) a rfl
        exact ⟨n + 1, .more hn hp⟩
      · exact ⟨0, .none fun p hp hB => h ⟨p, hp, hB⟩⟩

/-- The matcher with the steps `δ` and the first state `q₀` is inside a word exactly behind the
words of `B`; inside a word it gives up at another one and misses it. -/
structure GivesUp (δ : σ → α → σ) (q₀ : σ) (B : List α → Prop) : Prop where
  spelled : ∀ l, l.foldl δ q₀ ≠ q₀ → ∃ a p, l = a ++ p ∧ B p ∧ a.foldl δ q₀ = q₀
  begins : ∀ p, B p → p.foldl δ q₀ ≠ q₀
  misses : ∀ q p, q ≠ q₀ → B p → p.foldl δ q = q₀

/-- **Every second word**: inside a word exactly behind an odd number of them. -/
theorem GivesUp.odd_iff {δ : σ → α → σ} {q₀ : σ} (h : GivesUp δ q₀ B) {l : List α} {n : Nat}
    (hl : BackToBack B l n) : l.foldl δ q₀ ≠ q₀ ↔ n % 2 = 1 := by
  induction hl with
  | none hnone =>
      refine ⟨fun hin => ?_, nofun⟩
      obtain ⟨a, p, rfl, hp, -⟩ := h.spelled _ hin
      exact absurd hp (hnone p (List.suffix_append a p))
  | @more l p n _ hp ih =>
      rw [List.foldl_append]
      by_cases hin : l.foldl δ q₀ = q₀
      · have heven : ¬ n % 2 = 1 := fun hodd => ih.mpr hodd hin
        rw [hin]
        refine ⟨fun _ => by omega, fun _ => h.begins p hp⟩
      · have hodd := ih.mp hin
        refine ⟨fun hno => absurd (h.misses _ p hin hp) hno, fun hodd' => by omega⟩

end Matcher

end Hw
