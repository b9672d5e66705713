/-
  GigabitTcp.Hw.Serial — start-stop serial lines and the receivers that sample them.

  A byte travels as ten cells of equal length: a low start cell, the eight data bits with the
  least significant one first, and a high stop cell.  A receiver has no clock in common with
  the sender.  It waits for a start, then looks at the line at instants of its own, and is
  ready again at the tenth of them.

  Main results:
    * `Sampler.line_received` — a receiver each of whose ten instants falls into its cell receives
      exactly the bytes of the line, whatever tells it the start, as long as a fall of the line
      does and a high line does not,
    * `Sampler.carried_received` — what it has received of an endless wave at each cycle,
    * `Carries.merge`          — two senders that take turns on one line.
-/
import GigabitTcp.Hw.Machine
import GigabitTcp.Hw.Words

namespace Hw

namespace Serial

/-! ## §1. Cells, frames and lines. -/

/-- The level of cell `k` of the frame that carries `b`. -/
def cell (b : U8) : Nat → Bool
  | 0 => false
  | k + 1 => if k < 8 then b.getLsbD k else true

@[simp] theorem cell_zero (b : U8) : cell b 0 = false := rfl

/-- From the ninth cell on the line is high. -/
theorem cell_stop (b : U8) {k : Nat} (hk : 9 ≤ k) : cell b k = true := by
  cases k with
  | zero => omega
  | succ k =>
      show (if k < 8 then b.getLsbD k else true) = true
      rw [if_neg (by omega)]

theorem cell_data (b : U8) {k : Nat} (hk : k < 8) : cell b (k + 1) = b.getLsbD k := by
  show (if k < 8 then b.getLsbD k else true) = _
  rw [if_pos hk]

/-- The frame of `b` with ten cells of `P` cycles each. -/
def frame (P : Nat) (b : U8) : List Bool :=
  (List.range (10 * P)).map fun i => cell b (i / P)

/-- A line that carries the bytes `sent`, each behind a number of idle cycles. -/
def line (P : Nat) : List (Nat × U8) → List Bool
  | [] => []
  | (idle, b) :: sent => List.replicate idle true ++ (frame P b ++ line P sent)

/-- From cycle `n` on the line shows the ten cells of `b`. -/
def FrameAt (tx : Nat → Bool) (P n : Nat) (b : U8) : Prop :=
  ∀ k j, k < 10 → j < P → tx (n + k * P + j) = cell b k

/-! ## §2. Receivers. -/

/-- A rule for receivers: which two successive levels tell a start, the number of cycles from
there to the first instant, and the number of cycles from one instant to the next. -/
structure Rule where
  starts : Bool → Bool → Bool
  first : Nat
  gap : Nat

/-- A receiver: the level of the last cycle and, while it is in a frame, the cycles to the next
instant with the levels seen at the instants before. -/
structure Sampler where
  prev : Bool
  busy : Option (Nat × List Bool)

/-- The byte that the levels at the instants spell; the first one was the start cell. -/
def spelled (seen : List Bool) : U8 := (BitVec.ofBoolListLE seen.tail).setWidth 8

theorem getLsbD_spelled (seen : List Bool) {k : Nat} (hk : k < 8) :
    (spelled seen).getLsbD k = seen.getD (k + 1) false := by
  rw [spelled, BitVec.getLsbD_setWidth, BitVec.getLsbD_ofBoolListLE]
  cases seen <;> simp [hk]

/-- The levels of the first nine cells spell the byte. -/
theorem spelled_cells (b : U8) : spelled ((List.range 9).map (cell b)) = b := by
  apply BitVec.eq_of_getLsbD_eq
  intro k hk
  have hget : ((List.range 9).map (cell b)).getD (k + 1) false = cell b (k + 1) := by
    have hlt : k + 1 < 9 := by omega
    simp [List.getD_eq_getElem?_getD, hlt]
  rw [getLsbD_spelled _ hk, hget, cell_data b hk]

/-- The byte with these bits. -/
def assembled (bit : Nat → Bool) : U8 := spelled (false :: (List.range 8).map bit)

theorem getLsbD_assembled (bit : Nat → Bool) {k : Nat} (hk : k < 8) :
    (assembled bit).getLsbD k = bit k := by
  rw [assembled, getLsbD_spelled _ hk]
  simp [List.getD_eq_getElem?_getD, hk]

/-- A byte is assembled from its bits. -/
theorem assembled_eq {bit : Nat → Bool} {b : U8} (h : ∀ k, k < 8 → bit k = b.getLsbD k) :
    assembled bit = b := by
  apply BitVec.eq_of_getLsbD_eq
  intro k hk
  rw [getLsbD_assembled bit hk, h k hk]

namespace Sampler

variable (R : Rule)

/-- One cycle with the line at level `x`; at the tenth instant a byte is received. -/
def step : Machine Sampler Bool (Option U8) := fun s x =>
  match s.busy with
  | none => ({ prev := x, busy := if R.starts s.prev x then some (R.first, []) else none }, none)
  | some (wait, seen) =>
      if wait = 1 then
        if seen.length = 9 then ({ prev := x, busy := none }, some (spelled seen))
        else ({ prev := x, busy := some (R.gap, seen ++ [x]) }, none)
      else ({ prev := x, busy := some (wait - 1, seen) }, none)

/-- The level of the cycle is what the receiver keeps of it. -/
theorem prev_step (s : Sampler) (x : Bool) : (step R s x).1.prev = x := by
  unfold step
  split
  · rfl
  · split
    · split <;> rfl
    · rfl

/-- The bytes received in a run. -/
def received : Sampler → List Bool → List U8 :=
  Machine.record (step R) fun s x => (step R s x).2.toList

variable {R}

/-- Ready for a start, with the line high. -/
def Ready (s : Sampler) : Prop := s.prev = true ∧ s.busy = none

/-- What a receiver has to get right at cells of `P` cycles: a fall is a start and a high line
is none, and each of its ten instants falls into its own cell. -/
structure Fits (R : Rule) (P : Nat) : Prop where
  fall : R.starts true false = true
  high : ∀ x, R.starts x true = false
  first_pos : 0 < R.first
  gap_pos : 0 < R.gap
  inside : ∀ k, k < 10 → k * P ≤ R.first + k * R.gap ∧ R.first + k * R.gap < (k + 1) * P

/-! ## §3. One frame. -/

/-- Where the receiver stands after the first `i` cycles of the frame of `b`, and what it has
received in them. -/
inductive Within (R : Rule) (b : U8) (i : Nat) (s : Sampler) (bytes : List U8) : Prop where
  | before (hi : i = 0) (hready : s.Ready) (hbytes : bytes = [])
  | sampling (n wait : Nat) (hn : n < 10) (hwait : 0 < wait) (hi : 0 < i)
      (hat : i + wait = R.first + n * R.gap + 1)
      (hbusy : s.busy = some (wait, (List.range n).map (cell b))) (hbytes : bytes = [])
  | behind (hi : R.first + 9 * R.gap < i) (hready : s.Ready) (hbytes : bytes = [b])

/-- The cell of a cycle. -/
theorem div_eq_of_inside {i k P : Nat} (hlo : k * P ≤ i) (hhi : i < (k + 1) * P) : i / P = k :=
  Nat.div_eq_of_lt_le hlo hhi

/-- **One cycle of a frame.** -/
theorem Within.step {P : Nat} (hfits : Fits R P) {b : U8} {i : Nat} (hi : i < 10 * P) {s : Sampler}
    {bytes : List U8} (h : Within R b i s bytes) :
    Within R b (i + 1) (step R s (cell b (i / P))).1
      (bytes ++ (step R s (cell b (i / P))).2.toList) := by
  cases h with
  | before h0 hready hbytes =>
      obtain ⟨hprev, hbusy⟩ := hready
      subst h0
      have hpos := hfits.first_pos
      refine .sampling 0 R.first (by omega) hpos (by omega) (by omega) ?_ ?_
      · simp [Sampler.step, hbusy, hprev, hfits.fall]
      · simp [Sampler.step, hbusy, hbytes]
  | sampling n wait hn hwait hi0 hat hbusy hbytes =>
      obtain ⟨hlo, hhi⟩ := hfits.inside n hn
      by_cases hw : wait = 1
      · subst hw
        have hcell : i / P = n := div_eq_of_inside (by omega) (by omega)
        by_cases h9 : n = 9
        · -- the tenth instant: the byte is complete, and the line has reached the stop cell
          subst h9
          refine .behind (by omega) ⟨?_, ?_⟩ ?_
          · simp [Sampler.step, hbusy, hcell, cell_stop]
          · simp [Sampler.step, hbusy]
          · simp [Sampler.step, hbusy, hbytes, spelled_cells]
        · have hnext : (n + 1) * R.gap = n * R.gap + R.gap := Nat.succ_mul n R.gap
          refine .sampling (n + 1) R.gap (by omega) hfits.gap_pos (by omega) (by omega) ?_ ?_
          · simp [Sampler.step, hbusy, h9, hcell, List.range_succ]
          · simp [Sampler.step, hbusy, h9, hbytes]
      · refine .sampling n (wait - 1) hn (by omega) (by omega) (by omega) ?_ ?_
        · simp [Sampler.step, hbusy, hw]
        · simp [Sampler.step, hbusy, hw, hbytes]
  | behind hlate hready hbytes =>
      obtain ⟨-, hbusy⟩ := hready
      have hlast := (hfits.inside 9 (by omega)).1
      have hhigh : cell b (i / P) = true := by
        rw [div_eq_of_inside (k := 9) (by omega) (by omega)]
        exact cell_stop b (by omega)
      rw [hhigh]
      refine .behind (by omega) ⟨?_, ?_⟩ ?_
      · simp [Sampler.step, hbusy]
      · simp [Sampler.step, hbusy, hfits.high]
      · simp [Sampler.step, hbusy, hbytes]

theorem received_append (s : Sampler) (xs ys : List Bool) :
    received R s (xs ++ ys) = received R s xs ++ received R ((step R).after s xs) ys :=
  Machine.record_append _ s xs ys

theorem received_singleton (s : Sampler) (x : Bool) : received R s [x] = (step R s x).2.toList := by
  show (step R s x).2.toList ++ [] = _
  rw [List.append_nil]

/-- The first cycles of a frame. -/
theorem within_frame {P : Nat} (hfits : Fits R P) (b : U8) {s : Sampler} (hs : s.Ready) :
    ∀ i, i ≤ 10 * P →
      Within R b i ((step R).after s ((List.range i).map fun j => cell b (j / P)))
        (received R s ((List.range i).map fun j => cell b (j / P))) := by
  intro i
  induction i with
  | zero => intro _; exact .before rfl hs rfl
  | succ i ih =>
      intro hi
      have hstep := (ih (by omega)).step hfits (by omega)
      rw [List.range_succ, List.map_append, Machine.after_append, received_append]
      show Within R b (i + 1) (step R _ _).1 (_ ++ received R _ [_])
      rw [received_singleton]
      exact hstep

/-- **A frame**: the receiver receives its byte and is ready again before the next one. -/
theorem frame_received {P : Nat} (hfits : Fits R P) (b : U8) {s : Sampler} (hs : s.Ready) :
    ((step R).after s (frame P b)).Ready ∧ received R s (frame P b) = [b] := by
  have hpos := hfits.first_pos
  have hlast := (hfits.inside 9 (by omega)).2
  have h := within_frame hfits b hs (10 * P) (Nat.le_refl _)
  change Within R b (10 * P) ((step R).after s (frame P b)) (received R s (frame P b)) at h
  cases h with
  | before h0 _ _ => omega
  | sampling n wait hn hwait _ hat _ _ =>
      have hle : n * R.gap ≤ 9 * R.gap := Nat.mul_le_mul_right R.gap (by omega)
      omega
  | behind _ hready hbytes => exact ⟨hready, hbytes⟩

/-! ## §4. Whole lines. -/

/-- A high line starts nothing. -/
theorem idle_received {P : Nat} (hfits : Fits R P) :
    ∀ (n : Nat) {s : Sampler}, s.Ready →
      ((step R).after s (List.replicate n true)).Ready ∧ received R s (List.replicate n true) = []
  | 0, _, hs => ⟨hs, rfl⟩
  | n + 1, s, hs => by
      have hready : (step R s true).1.Ready ∧ (step R s true).2 = none := by
        simp [step, Ready, hs.2, hfits.high]
      obtain ⟨hend, hnone⟩ := idle_received hfits n hready.1
      refine ⟨hend, ?_⟩
      show (step R s true).2.toList ++ received R (step R s true).1 (List.replicate n true) = []
      rw [hready.2, hnone]
      rfl

/-- **Every line is received**, byte by byte. -/
theorem line_received {P : Nat} (hfits : Fits R P) :
    ∀ (sent : List (Nat × U8)) {s : Sampler}, s.Ready →
      ((step R).after s (line P sent)).Ready ∧ received R s (line P sent) = sent.map Prod.snd
  | [], _, hs => ⟨hs, rfl⟩
  | (idle, b) :: sent, s, hs => by
      obtain ⟨hready, hnone⟩ := idle_received hfits idle hs
      obtain ⟨hready', hb⟩ := frame_received hfits b hready
      obtain ⟨hend, hrest⟩ := line_received hfits sent hready'
      rw [line, Machine.after_append, Machine.after_append, received_append, received_append, hnone,
        hb, hrest]
      exact ⟨hend, rfl⟩

end Sampler

/-! ## §5. Endless waves. -/

/-- The wave `tx` carries the byte `starts n` from cycle `n` on, one byte at a time, and is high
wherever it carries none. -/
structure Carries (P : Nat) (tx : Nat → Bool) (starts : Nat → Option U8) : Prop where
  frame : ∀ n b, starts n = some b → FrameAt tx P n b
  apart : ∀ n k, starts n ≠ none → 0 < k → k < 10 * P → starts (n + k) = none
  high : ∀ n, (∀ m, m ≤ n → n < m + 10 * P → starts m = none) → tx n = true

/-- The level of a wave within a frame. -/
theorem FrameAt.level {tx : Nat → Bool} {P m : Nat} {b : U8} (h : FrameAt tx P m b) {i : Nat}
    (hi : i < 10 * P) : tx (m + i) = cell b (i / P) := by
  have hP : 0 < P := by omega
  have hk : i / P < 10 := (Nat.div_lt_iff_lt_mul hP).mpr hi
  have hat := h (i / P) (i % P) hk (Nat.mod_lt i hP)
  rw [← hat, Nat.add_assoc, Nat.mul_comm, Nat.div_add_mod]

/-- Cycles in which nothing starts add nothing to what started. -/
theorem filterMap_range_of_none {α : Type} {f : Nat → Option α} {a b : Nat} (hab : a ≤ b)
    (h : ∀ k, a ≤ k → k < b → f k = none) :
    (List.range b).filterMap f = (List.range a).filterMap f := by
  induction b, hab using Nat.le_induction with
  | base => rfl
  | succ b hab ih =>
      have hnone : f b = none := h b hab (Nat.lt_succ_self b)
      rw [List.range_succ, List.filterMap_append, ih fun k hlo hhi => h k hlo (by omega)]
      simp [hnone]

/-- What starts in `K` periods of `N` cycles, with one start at the head of each of them. -/
theorem filterMap_range_periods {α : Type} {f : Nat → Option α} {g : Nat → α} {b N : Nat} :
    ∀ K, (∀ j, j < K → f (b + N * j) = some (g j)) →
      (∀ j k, j < K → 0 < k → k < N → f (b + N * j + k) = none) → 0 < N →
      (List.range (b + N * K)).filterMap f = (List.range b).filterMap f ++ (List.range K).map g := by
  intro K hstart hnone hN
  induction K with
  | zero => simp
  | succ K ih =>
      have hone : (List.range (b + N * K + 1)).filterMap f
          = (List.range (b + N * K)).filterMap f ++ [g K] := by
        rw [List.range_succ, List.filterMap_append]
        simp [hstart K (Nat.lt_succ_self K)]
      have hquiet : ∀ m, b + N * K + 1 ≤ m → m < b + N * (K + 1) → f m = none := by
        intro m hlo hhi
        rw [Nat.mul_succ] at hhi
        have := hnone K (m - (b + N * K)) (Nat.lt_succ_self K) (by omega) (by omega)
        rwa [show b + N * K + (m - (b + N * K)) = m by omega] at this
      rw [filterMap_range_of_none (by rw [Nat.mul_succ]; omega) hquiet, hone,
        ih (fun j hj => hstart j (by omega)) (fun j k hj => hnone j k (by omega)), List.append_assoc,
        List.range_succ, List.map_append]
      rfl

namespace Sampler

variable {R : Rule} {P : Nat} {tx : Nat → Bool} {starts : Nat → Option U8}

/-- The first `n` cycles of a wave. -/
def wave (tx : Nat → Bool) (n : Nat) : List Bool := (List.range n).map tx

theorem wave_succ (tx : Nat → Bool) (n : Nat) : wave tx (n + 1) = wave tx n ++ [tx n] := by
  rw [wave, List.range_succ, List.map_append]
  rfl

/-- Where a listener stands behind the first `n` cycles, and what it has received. -/
inductive Hears (R : Rule) (P : Nat) (starts : Nat → Option U8) (n : Nat) (s : Sampler)
    (bytes : List U8) : Prop where
  | between (hquiet : ∀ m, m < n → n < m + 10 * P → starts m = none) (hready : s.Ready)
      (hbytes : bytes = (List.range n).filterMap starts)
  | inside (m i : Nat) (b : U8) (got : List U8) (hn : n = m + i) (hi : 0 < i) (hlt : i < 10 * P)
      (hstart : starts m = some b) (hwithin : Within R b i s got)
      (hbytes : bytes = (List.range m).filterMap starts ++ got)

/-- **One cycle of a wave.** -/
theorem Hears.step (hfits : Fits R P) (hcarries : Carries P tx starts) {n : Nat} {s : Sampler}
    {bytes : List U8} (h : Hears R P starts n s bytes) :
    Hears R P starts (n + 1) (Sampler.step R s (tx n)).1
      (bytes ++ (Sampler.step R s (tx n)).2.toList) := by
  have hP : 0 < P := by have := hfits.inside 0 (by omega); omega
  cases h with
  | between hquiet hready hbytes =>
      cases hstart : starts n with
      | none =>
          have hhigh : tx n = true := by
            refine hcarries.high n ?_
            intro m hle hlt
            rcases Nat.lt_or_eq_of_le hle with hm | hm
            · exact hquiet m hm hlt
            · rw [hm, hstart]
          have hidle := idle_received hfits 1 hready
          have hnone : (Sampler.step R s true).2.toList = [] := by
            simpa [received_singleton] using hidle.2
          rw [hhigh, hnone, List.append_nil]
          refine .between ?_ hidle.1 ?_
          · intro m hm hlt
            rcases Nat.lt_or_eq_of_le (Nat.le_of_lt_succ hm) with hm' | hm'
            · exact hquiet m hm' (by omega)
            · rw [hm', hstart]
          · rw [hbytes, List.range_succ, List.filterMap_append]
            simp [hstart]
      | some b =>
          have hlow : tx n = cell b (0 / P) :=
            (hcarries.frame n b hstart).level (i := 0) (by omega)
          have hbegin := (Within.before rfl hready rfl : Within R b 0 s []).step hfits (by omega)
          rw [← hlow, List.nil_append] at hbegin
          exact .inside n 1 b _ rfl (by omega) (by omega) hstart hbegin (by rw [hbytes])
  | inside m i b got hn hi hlt hstart hwithin hbytes =>
      have hlevel : tx n = cell b (i / P) := by
        rw [hn]
        exact (hcarries.frame m b hstart).level hlt
      have hnext := hwithin.step hfits hlt
      rw [← hlevel] at hnext
      by_cases hend : i + 1 < 10 * P
      · refine .inside m (i + 1) b _ (by omega) (by omega) hend hstart hnext ?_
        rw [hbytes, List.append_assoc]
      · -- the end of the stop cell
        have hlast : i + 1 = 10 * P := by omega
        have hinst := (hfits.inside 9 (by omega)).2
        have hone : starts m ≠ none := by rw [hstart]; simp
        have hnone : ∀ k, m + 1 ≤ k → k < m + 10 * P → starts k = none := by
          intro k hlo hhi
          have := hcarries.apart m (k - m) hone (by omega) (by omega)
          rwa [show m + (k - m) = k by omega] at this
        cases hnext with
        | before h0 _ _ => omega
        | sampling j wait hj hwait _ hat _ _ =>
            have hle : j * R.gap ≤ 9 * R.gap := Nat.mul_le_mul_right R.gap (by omega)
            omega
        | behind _ hready hgot =>
            refine .between ?_ hready ?_
            · intro k hk hlate
              exact hnone k (by omega) (by omega)
            · rw [hbytes, List.append_assoc, hgot, show n + 1 = m + 10 * P by omega,
                filterMap_range_of_none (show m + 1 ≤ m + 10 * P by omega) hnone, List.range_succ,
                List.filterMap_append]
              simp [hstart]

theorem Hears.run (hfits : Fits R P) (hcarries : Carries P tx starts) {s : Sampler} (hs : s.Ready) :
    ∀ n, Hears R P starts n ((Sampler.step R).after s (wave tx n)) (received R s (wave tx n)) := by
  intro n
  induction n with
  | zero =>
      refine .between ?_ hs rfl
      intro m hm
      exact absurd hm (Nat.not_lt_zero m)
  | succ n ih =>
      have hstep := ih.step hfits hcarries
      rw [wave_succ, Machine.after_append, received_append, received_singleton]
      exact hstep

/-- **What a listener has received** behind `n` cycles: the bytes whose tenth instant is among
them, in the order of their starts. -/
theorem carried_received (hfits : Fits R P) (hcarries : Carries P tx starts) {s : Sampler}
    (hs : s.Ready) (n : Nat) :
    received R s (wave tx n)
      = (List.range (n - (R.first + 9 * R.gap))).filterMap starts := by
  have hinst := (hfits.inside 9 (by omega)).2
  cases Hears.run hfits hcarries hs n with
  | between hquiet _ hbytes =>
      rw [hbytes]
      refine filterMap_range_of_none (Nat.sub_le _ _) ?_
      intro k hlo hhi
      exact hquiet k hhi (by omega)
  | inside m i b got hn hi hlt hstart hwithin hbytes =>
      have hone : starts m ≠ none := by rw [hstart]; simp
      -- where the tenth instant lies tells whether the byte has been received
      have hgot : got = if R.first + 9 * R.gap < i then [b] else [] := by
        cases hwithin with
        | before h0 _ _ => omega
        | sampling j wait hj hwait _ hat _ hnil =>
            have hle : j * R.gap ≤ 9 * R.gap := Nat.mul_le_mul_right R.gap (by omega)
            rw [hnil, if_neg (by omega)]
        | behind hlate _ hb => rw [hb, if_pos hlate]
      rw [hbytes, hgot]
      by_cases hlate : R.first + 9 * R.gap < i
      · have hnone : ∀ k, m + 1 ≤ k → k < n - (R.first + 9 * R.gap) → starts k = none := by
          intro k hlo hhi
          have := hcarries.apart m (k - m) hone (by omega) (by omega)
          rwa [show m + (k - m) = k by omega] at this
        rw [if_pos hlate, filterMap_range_of_none (by omega) hnone, List.range_succ,
          List.filterMap_append]
        simp [hstart]
      · rw [if_neg hlate, List.append_nil]
        refine filterMap_range_of_none (by omega) ?_
        intro k hlo hhi
        by_contra hk
        have := hcarries.apart k (m - k) hk (by omega) (by omega)
        rw [show k + (m - k) = m by omega] at this
        exact hone this

/-- **Cycle by cycle**: a byte is received at its tenth instant. -/
theorem carried_step (hfits : Fits R P) (hcarries : Carries P tx starts) {s : Sampler}
    (hs : s.Ready) (n : Nat) :
    (Sampler.step R ((Sampler.step R).after s (wave tx n)) (tx n)).2.toList
      = if n < R.first + 9 * R.gap then [] else (starts (n - (R.first + 9 * R.gap))).toList := by
  have hnow := carried_received hfits hcarries hs n
  have hnext := carried_received hfits hcarries hs (n + 1)
  rw [wave_succ, received_append, received_singleton, hnow] at hnext
  by_cases hearly : n < R.first + 9 * R.gap
  · rw [show n + 1 - (R.first + 9 * R.gap) = n - (R.first + 9 * R.gap) by omega] at hnext
    rw [if_pos hearly]
    exact List.append_right_eq_self.mp hnext
  · rw [show n + 1 - (R.first + 9 * R.gap) = n - (R.first + 9 * R.gap) + 1 by omega, List.range_succ,
      List.filterMap_append] at hnext
    rw [if_neg hearly, List.append_cancel_left hnext]
    cases hstart : starts (n - (R.first + 9 * R.gap)) <;> simp [hstart]

end Sampler

/-! ### Waves from schedules. -/

/-- A schedule some cycles later. -/
def later {α : Type} (d : Nat) (starts : Nat → Option α) (n : Nat) : Option α :=
  if n < d then none else starts (n - d)

@[simp] theorem later_add {α : Type} (d : Nat) (starts : Nat → Option α) (n : Nat) :
    later d starts (n + d) = starts n := by
  rw [later, if_neg (by omega), Nat.add_sub_cancel]

theorem later_ne_none {α : Type} {d : Nat} {starts : Nat → Option α} {n : Nat}
    (h : later d starts n ≠ none) : d ≤ n ∧ starts (n - d) ≠ none := by
  unfold later at h
  by_cases hlt : n < d
  · rw [if_pos hlt] at h
    exact absurd rfl h
  · rw [if_neg hlt] at h
    exact ⟨by omega, h⟩

theorem later_later {α : Type} (d e : Nat) (starts : Nat → Option α) :
    later d (later e starts) = later (e + d) starts := by
  funext n
  unfold later
  by_cases hd : n < d
  · rw [if_pos hd, if_pos (by omega)]
  · rw [if_neg hd]
    by_cases he : n - d < e
    · rw [if_pos he, if_pos (by omega)]
    · rw [if_neg he, if_neg (by omega), show n - d - e = n - (e + d) by omega]

/-- What starts later, up to a cycle. -/
theorem filterMap_later {α : Type} (d : Nat) (starts : Nat → Option α) (n : Nat) :
    (List.range n).filterMap (later d starts) = (List.range (n - d)).filterMap starts := by
  induction n with
  | zero => simp
  | succ n ih =>
      rw [List.range_succ, List.filterMap_append, ih]
      by_cases hlt : n < d
      · have hnone : later d starts n = none := if_pos hlt
        rw [show n + 1 - d = n - d by omega]
        simp only [List.filterMap_cons, hnone, List.filterMap_nil, List.append_nil]
      · have hsome : later d starts n = starts (n - d) := if_neg hlt
        rw [show n + 1 - d = n - d + 1 by omega, List.range_succ, List.filterMap_append]
        simp only [List.filterMap_cons, hsome, List.filterMap_nil]

/-- **A delayed wave** carries the delayed schedule. -/
theorem Carries.delay {P : Nat} {tx : Nat → Bool} {starts : Nat → Option U8} (h : Carries P tx starts)
    (d : Nat) : Carries P (fun n => if n < d then true else tx (n - d)) (later d starts) := by
  refine ⟨?_, ?_, ?_⟩
  · intro n b hb k j hk hj
    have hone : later d starts n ≠ none := by rw [hb]; simp
    obtain ⟨hle, -⟩ := later_ne_none hone
    rw [later, if_neg (by omega)] at hb
    have hat := h.frame (n - d) b hb k j hk hj
    rw [show n - d + k * P + j = n + k * P + j - d by omega] at hat
    show (if n + k * P + j < d then true else tx (n + k * P + j - d)) = _
    rw [if_neg (by omega), hat]
  · intro n k hn hk hlt
    obtain ⟨hle, hstart⟩ := later_ne_none hn
    have hnone := h.apart (n - d) k hstart hk hlt
    rw [later, if_neg (by omega), show n + k - d = n - d + k by omega, hnone]
  · intro n hquiet
    show (if n < d then true else tx (n - d)) = true
    by_cases hlt : n < d
    · rw [if_pos hlt]
    · rw [if_neg hlt]
      refine h.high (n - d) ?_
      intro m hle hm
      have := hquiet (m + d) (by omega) (by omega)
      rwa [later_add] at this

/-- The wave of a schedule: the level of the byte that is on its way, and high without one. -/
def shown (P : Nat) (starts : Nat → Option U8) (n : Nat) : Bool :=
  ((List.range (10 * P)).findSome? fun k =>
    if n < k then none else (starts (n - k)).map fun b => cell b (k / P)).getD true

/-- **Every schedule has a wave**, if its bytes are far enough apart. -/
theorem carries_shown {P : Nat} {starts : Nat → Option U8}
    (hapart : ∀ n k, starts n ≠ none → 0 < k → k < 10 * P → starts (n + k) = none) :
    Carries P (shown P starts) starts := by
  refine ⟨?_, hapart, ?_⟩
  · intro n b hb k j hk hj
    have hone : starts n ≠ none := by rw [hb]; simp
    have hlt : k * P + j < 10 * P := by
      have : k * P ≤ 9 * P := Nat.mul_le_mul_right P (by omega)
      omega
    obtain ⟨p, hp⟩ : ∃ p, p = k * P + j := ⟨_, rfl⟩
    have hcell : p / P = k := by
      rw [hp, Nat.add_comm, Nat.add_mul_div_right _ _ (by omega), Nat.div_eq_of_lt hj, Nat.zero_add]
    rw [Nat.add_assoc, ← hp]
    -- the start that is nearest behind the cycle is the one of the byte
    have hfind : (List.range (10 * P)).findSome? (fun l =>
        if n + p < l then none else (starts (n + p - l)).map fun b => cell b (l / P))
          = some (cell b k) := by
      obtain ⟨rest, hsplit⟩ : ∃ rest, List.range (10 * P) = List.range p ++ p :: rest := by
        obtain ⟨q, hq⟩ : ∃ q, 10 * P = p + (q + 1) := ⟨10 * P - (p + 1), by omega⟩
        refine ⟨(List.range q).map fun l => p + (l + 1), ?_⟩
        rw [hq, List.range_add, List.range_succ_eq_map, List.map_cons, List.map_map]
        rfl
      have hbefore : (List.range p).findSome? (fun l =>
          if n + p < l then none else (starts (n + p - l)).map fun b => cell b (l / P)) = none := by
        rw [List.findSome?_eq_none_iff]
        intro l hl
        rw [List.mem_range] at hl
        have hnone := hapart n (p - l) hone (by omega) (by omega)
        rw [if_neg (by omega), show n + p - l = n + (p - l) by omega, hnone]
        rfl
      rw [hsplit, List.findSome?_append, hbefore, Option.none_or, List.findSome?_cons, if_neg (by omega),
        Nat.add_sub_cancel, hb, hcell]
      rfl
    rw [shown, hfind]
    rfl
  · intro n hquiet
    have hnone : (List.range (10 * P)).findSome? (fun k =>
        if n < k then none else (starts (n - k)).map fun b => cell b (k / P)) = none := by
      rw [List.findSome?_eq_none_iff]
      intro k hk
      rw [List.mem_range] at hk
      by_cases hlt : n < k
      · rw [if_pos hlt]
      · rw [if_neg hlt, hquiet (n - k) (Nat.sub_le _ _) (by omega)]
        rfl
    rw [shown, hnone]
    rfl

/-! ## §6. Two senders on one line. -/

/-- A line that shows the one wave while `sel` is set and the other one otherwise. -/
def mux (sel tx tx' : Nat → Bool) (n : Nat) : Bool := if sel n then tx n else tx' n

/-- Two senders take turns: the frames of each fall into its own cycles of the line. -/
structure TakeTurns (P : Nat) (sel : Nat → Bool) (starts starts' : Nat → Option U8) : Prop where
  on : ∀ n k, starts n ≠ none → k < 10 * P → sel (n + k) = true
  off : ∀ n k, starts' n ≠ none → k < 10 * P → sel (n + k) = false

/-- **Senders that take turns** put the bytes of both on the line. -/
theorem Carries.merge {P : Nat} {tx tx' : Nat → Bool} {starts starts' : Nat → Option U8}
    {sel : Nat → Bool} (h : Carries P tx starts) (h' : Carries P tx' starts')
    (hturns : TakeTurns P sel starts starts') :
    Carries P (mux sel tx tx') fun n => (starts n).or (starts' n) := by
  have hlt : ∀ {k j : Nat}, k < 10 → j < P → k * P + j < 10 * P := by
    intro k j hk hj
    have : k * P ≤ 9 * P := Nat.mul_le_mul_right P (by omega)
    omega
  refine ⟨?_, ?_, ?_⟩
  · intro n b hb k j hk hj
    show (if sel (n + k * P + j) then tx (n + k * P + j) else tx' (n + k * P + j)) = cell b k
    rw [Nat.add_assoc]
    cases hs : starts n with
    | some c =>
        have hon := hturns.on n (k * P + j) (by rw [hs]; simp) (hlt hk hj)
        have hc : c = b := by simpa [hs] using hb
        rw [if_pos hon, ← Nat.add_assoc, ← hc]
        exact h.frame n c hs k j hk hj
    | none =>
        have hs' : starts' n = some b := by simpa [hs] using hb
        have hoff := hturns.off n (k * P + j) (by rw [hs']; simp) (hlt hk hj)
        rw [if_neg (by simp [hoff]), ← Nat.add_assoc]
        exact h'.frame n b hs' k j hk hj
  · intro n k hn hk hlast
    have hcases : starts n ≠ none ∨ starts' n ≠ none := by
      by_contra hno
      rw [not_or, not_not, not_not] at hno
      exact hn (by rw [hno.1, hno.2]; rfl)
    have hself : 0 < 10 * P := by omega
    rcases hcases with hs | hs'
    · have hnone := h.apart n k hs hk hlast
      have hother : starts' (n + k) = none := by
        by_contra hno
        have hon := hturns.on n k hs hlast
        have hoff := hturns.off (n + k) 0 hno hself
        rw [Nat.add_zero, hon] at hoff
        cases hoff
      rw [hnone, hother]
      rfl
    · have hnone := h'.apart n k hs' hk hlast
      have hother : starts (n + k) = none := by
        by_contra hno
        have hoff := hturns.off n k hs' hlast
        have hon := hturns.on (n + k) 0 hno hself
        rw [Nat.add_zero, hoff] at hon
        cases hon
      rw [hnone, hother]
      rfl
  · intro n hquiet
    have hsplit : ∀ m, m ≤ n → n < m + 10 * P → starts m = none ∧ starts' m = none := by
      intro m hle hm
      exact Option.or_eq_none_iff.mp (hquiet m hle hm)
    have hhigh := h.high n fun m hle hm => (hsplit m hle hm).1
    have hhigh' := h'.high n fun m hle hm => (hsplit m hle hm).2
    show (if sel n then tx n else tx' n) = true
    rw [hhigh, hhigh', ite_self]

end Serial

end Hw
