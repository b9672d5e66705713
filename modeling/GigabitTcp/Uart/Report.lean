/-
  GigabitTcp.Uart.Report — what `net_stats` sends.

  A command is taken when nothing is sent and none waits.  A million cycles later the report
  takes the line from the console, sends its text byte by byte without a pause, and gives the
  line back behind the last stop cell.  The bits of a byte are read from the wires one by one,
  each at the end of the cell before its own; the registers of a command stand still meanwhile.

  Main results:
    * `cell_run`         — the ten cells of a byte,
    * `carries_report`   — the transmitter's line as a wave that carries bytes,
    * `startsAt_text`    — the starts behind a command, and the text they spell,
    * `net_report_heard` — a listener's record of the merged line.
-/
import GigabitTcp.NetStatsReport
import GigabitTcp.Hw.Hex
import GigabitTcp.Uart.Receivers

namespace GigabitTcp

open Hw Hw.Serial

namespace NetStatsModule

/-! ## §1. One cycle of the transmitter. -/

section Step

variable (s : NetStatsModule) (i : NetStatsIn)

/-- What a command latches is nothing that is sent. -/
theorem latch_tx :
    s.latch.txIdx = s.report.txIdx ∧ s.latch.txCell = s.report.txCell ∧
      s.latch.txCnt8 = s.report.txCnt8 ∧ s.latch.txActive = s.report.txActive ∧
      s.latch.txLine = s.report.txLine := by
  unfold latch
  split
  · exact ⟨rfl, rfl, rfl, rfl, rfl⟩
  · exact ⟨rfl, rfl, rfl, rfl, rfl⟩

/-- The transmitter is free and its line high. -/
structure Free (r : NetReport) : Prop where
  active : r.txActive = false
  line : r.txLine = true

/-- The transmitter is `t` cycles into cell `c` of byte `j`, with its line at `x`. -/
structure Cell (j : BitVec 6) (c t : Nat) (x : Bool) (r : NetReport) : Prop where
  active : r.txActive = true
  idx : r.txIdx = j
  cell : r.txCell.toNat = c
  cnt : r.txCnt8.toNat = t
  line : r.txLine = x

variable {s}

/-- A free transmitter waits for the end of the quiet time. -/
theorem Free.step (h : Free s.report) :
    (s.nextReport i).txActive = decide (s.report.quietCnt = 1) ∧
      (s.report.quietCnt ≠ 1 → Free (s.nextReport i)) ∧
      (s.report.quietCnt = 1 → Cell 0 0 0 false (s.nextReport i)) := by
  obtain ⟨-, -, -, hactive, hline⟩ := latch_tx s
  have hidle : (!s.report.txActive) = true := by rw [h.active]; rfl
  unfold nextReport
  simp only [if_pos hidle]
  by_cases hquiet : s.report.quietCnt = 1
  · simp only [if_pos hquiet]
    refine ⟨by simp [hquiet], fun hno => absurd hquiet hno, fun _ => ⟨rfl, rfl, rfl, rfl, rfl⟩⟩
  · simp only [if_neg hquiet]
    refine ⟨?_, fun _ => ⟨hactive.trans h.active, hline.trans h.line⟩, fun hyes => absurd hyes hquiet⟩
    rw [hactive, h.active, decide_eq_false hquiet]

/-- **One cycle within a cell.** -/
theorem Cell.hold {j : BitVec 6} {c t : Nat} {x : Bool} (h : Cell j c t x s.report) (ht : t < 5207) :
    Cell j c (t + 1) x (s.nextReport i) := by
  obtain ⟨hidx, hcell, -, hactive, hline⟩ := latch_tx s
  have hbusy : ¬ (!s.report.txActive) = true := by simp [h.active]
  have hcnt : s.report.txCnt8 ≠ 5207 := by
    intro heq
    have := h.cnt
    rw [heq] at this
    exact absurd this (Nat.ne_of_gt ht)
  unfold nextReport
  simp only [if_neg hbusy, if_neg hcnt]
  refine ⟨hactive.trans h.active, hidx.trans h.idx, ?_, ?_, hline.trans h.line⟩
  · exact (congrArg BitVec.toNat hcell).trans h.cell
  · have := h.cnt
    show (s.report.txCnt8 + 1).toNat = t + 1
    bv_omega

/-- **The end of a cell**: the next one shows the next bit, or the stop level. -/
theorem Cell.turn {j : BitVec 6} {c : Nat} {x : Bool} (h : Cell j c 5207 x s.report) (hc : c < 9) :
    Cell j (c + 1) 0 (if c = 8 then true else (s.report.txByte i).getLsbD c) (s.nextReport i) := by
  have hbusy : ¬ (!s.report.txActive) = true := by simp [h.active]
  have hcnt : s.report.txCnt8 = 5207 := BitVec.eq_of_toNat_eq h.cnt
  have hcell := h.cell
  have h9 : s.report.txCell ≠ 9 := by bv_omega
  have h8 : s.report.txCell = 8 ↔ c = 8 := by bv_omega
  unfold nextReport cellDone
  simp only [if_neg hbusy, if_pos hcnt, if_neg h9]
  refine ⟨h.active, h.idx, ?_, rfl, ?_⟩
  · show (s.report.txCell + 1).toNat = c + 1
    bv_omega
  · show (if s.report.txCell = 8 then true
      else (s.report.txByte i).getLsbD (s.report.txCell.toNat % 8)) = _
    by_cases hlast : c = 8
    · rw [if_pos (h8.mpr hlast), if_pos hlast]
    · rw [if_neg (mt h8.mp hlast), if_neg hlast, hcell, Nat.mod_eq_of_lt (by omega)]

/-- **The end of a byte**: the next one, or the end of the report. -/
theorem Cell.last {j : BitVec 6} {x : Bool} (h : Cell j 9 5207 x s.report) :
    (j = s.report.txLast → Free (s.nextReport i)) ∧
      (j ≠ s.report.txLast → Cell (j + 1) 0 0 false (s.nextReport i)) := by
  have hbusy : ¬ (!s.report.txActive) = true := by simp [h.active]
  have hcnt : s.report.txCnt8 = 5207 := BitVec.eq_of_toNat_eq h.cnt
  have h9 : s.report.txCell = 9 := BitVec.eq_of_toNat_eq h.cell
  unfold nextReport cellDone
  simp only [if_neg hbusy, if_pos hcnt, if_pos h9, h.idx]
  constructor
  · intro hlast
    simp only [if_pos hlast]
    exact ⟨rfl, rfl⟩
  · intro hlast
    simp only [if_neg hlast]
    exact ⟨h.active, rfl, rfl, rfl, rfl⟩

end Step

/-! ## §2. The line of a run. -/

section Runs

variable (s : NetStatsModule) (i : Nat → NetStatsIn)

/-- The registers at cycle `n` of a run. -/
abbrev run : Nat → NetStatsModule := netStatsModule.trace s i

/-- A byte begins: its start cell is in its first cycle. -/
def begins (r : NetReport) : Bool := r.txActive && r.txCell == 0 && r.txCnt8 == 0 && !r.txLine

/-- The byte that begins in cycle `n`, with each bit as it is read when its turn comes. -/
def sentByte (n : Nat) : U8 :=
  assembled fun k => ((run s i (n + 5208 * k + 5207)).report.txByte (i (n + 5208 * k + 5207))).getLsbD k

/-- The byte whose start cell begins in cycle `n`. -/
def startsAt (n : Nat) : Option U8 := if begins (run s i n).report then some (sentByte s i n) else none

variable {s i}

theorem begins_iff {r : NetReport} : begins r = true ↔ Cell r.txIdx 0 0 false r := by
  unfold begins
  constructor
  · intro h
    simp only [Bool.and_eq_true, beq_iff_eq, Bool.not_eq_true'] at h
    obtain ⟨⟨⟨hactive, hcell⟩, hcnt⟩, hline⟩ := h
    exact ⟨hactive, rfl, by rw [hcell]; rfl, by rw [hcnt]; rfl, hline⟩
  · intro h
    have hcell : r.txCell = 0 := BitVec.eq_of_toNat_eq h.cell
    have hcnt : r.txCnt8 = 0 := BitVec.eq_of_toNat_eq h.cnt
    simp [h.active, hcell, hcnt, h.line]

/-- **A byte on its way**: for ten cells the line shows it. -/
theorem cell_run {n : Nat} {j : BitVec 6} (h : Cell j 0 0 false (run s i n).report) :
    ∀ p, p < 52080 →
      Cell j (p / 5208) (p % 5208) (cell (sentByte s i n) (p / 5208)) (run s i (n + p)).report := by
  intro p
  induction p with
  | zero => intro _; exact h
  | succ p ih =>
      intro hp
      have hat := ih (by omega)
      show Cell _ _ _ _ ((run s i (n + p)).nextReport (i (n + p)))
      by_cases hturn : p % 5208 = 5207
      · rw [hturn] at hat
        have hcell : (p + 1) / 5208 = p / 5208 + 1 := by omega
        have hcnt : (p + 1) % 5208 = 0 := by omega
        have hnext := hat.turn (i (n + p)) (by omega)
        rw [hcell, hcnt]
        by_cases h8 : p / 5208 = 8
        · rw [if_pos h8] at hnext
          rw [cell_stop _ (by omega)]
          exact hnext
        · rw [if_neg h8] at hnext
          have hread : n + 5208 * (p / 5208) + 5207 = n + p := by omega
          rw [cell_data _ (by omega), sentByte, getLsbD_assembled _ (by omega), hread]
          exact hnext
      · have hcell : (p + 1) / 5208 = p / 5208 := by omega
        have hcnt : (p + 1) % 5208 = p % 5208 + 1 := by omega
        rw [hcell, hcnt]
        exact hat.hold (i (n + p)) (by omega)

/-- The end of a byte. -/
theorem cell_run_end {n p : Nat} {j : BitVec 6} (h : Cell j 0 0 false (run s i n).report)
    (hp : p + 1 = 52080) :
    (j = (run s i (n + p)).report.txLast → Free (run s i (n + p + 1)).report) ∧
      (j ≠ (run s i (n + p)).report.txLast → Cell (j + 1) 0 0 false (run s i (n + p + 1)).report) := by
  have hat := cell_run h p (by omega)
  rw [show p / 5208 = 9 by omega, show p % 5208 = 5207 by omega] at hat
  exact hat.last (i (n + p))

/-- At each cycle the transmitter is free, or within the byte that began last. -/
theorem free_or_cell (hs : Free s.report) (m : Nat) :
    Free (run s i m).report ∨
      ∃ n p, m = n + p ∧ p < 52080 ∧ begins (run s i n).report = true := by
  induction m with
  | zero => exact .inl hs
  | succ m ih =>
      rcases ih with hfree | ⟨n, p, hm, hp, hbegin⟩
      · obtain ⟨-, hstay, hgo⟩ := hfree.step (i m)
        by_cases hquiet : (run s i m).report.quietCnt = 1
        · have hcell := hgo hquiet
          have hidx := hcell.idx
          rw [← hidx] at hcell
          exact .inr ⟨m + 1, 0, rfl, by omega, begins_iff.mpr hcell⟩
        · exact .inl (hstay hquiet)
      · by_cases hlast : p + 1 < 52080
        · exact .inr ⟨n, p + 1, by omega, hlast, hbegin⟩
        · obtain ⟨hfree, hnext⟩ := cell_run_end (begins_iff.mp hbegin) (p := p) (by omega)
          rw [hm]
          by_cases hidx : (run s i n).report.txIdx = (run s i (n + p)).report.txLast
          · exact .inl (hfree hidx)
          · have hcell := hnext hidx
            have hidx' := hcell.idx
            rw [← hidx'] at hcell
            exact .inr ⟨n + p + 1, 0, rfl, by omega, begins_iff.mpr hcell⟩

theorem startsAt_ne_none {n : Nat} : startsAt s i n ≠ none ↔ begins (run s i n).report = true := by
  unfold startsAt
  by_cases h : begins (run s i n).report = true
  · simp [h]
  · simp [h]

/-- **The line of the report** carries the bytes that begin, and is high between them. -/
theorem carries_report (hs : Free s.report) :
    Carries 5208 (fun n => (run s i n).report.txLine) (startsAt s i) := by
  refine ⟨?_, ?_, ?_⟩
  · intro n b hb k t hk ht
    have hbegin : begins (run s i n).report = true := startsAt_ne_none.mp (by rw [hb]; simp)
    have hbyte : b = sentByte s i n := by
      unfold startsAt at hb
      rw [if_pos hbegin] at hb
      exact (Option.some.inj hb).symm
    have hat := (cell_run (begins_iff.mp hbegin) (k * 5208 + t) (by omega)).line
    rw [show (k * 5208 + t) / 5208 = k by omega, ← hbyte] at hat
    rw [Nat.add_assoc]
    exact hat
  · intro n k hn hk hlt
    have hat := cell_run (begins_iff.mp (startsAt_ne_none.mp hn)) k hlt
    by_contra hother
    have hbegin := begins_iff.mp (startsAt_ne_none.mp hother)
    have hcell := hat.cell.symm.trans hbegin.cell
    have hcnt := hat.cnt.symm.trans hbegin.cnt
    omega
  · intro n hquiet
    rcases free_or_cell hs n with hfree | ⟨m, p, hn, hp, hbegin⟩
    · exact hfree.line
    · exact absurd (hquiet m (by omega) (by omega)) (startsAt_ne_none.mpr hbegin)

/-- The report has the line exactly while it sends a byte. -/
theorem active_of_startsAt {n k : Nat} (hn : startsAt s i n ≠ none) (hk : k < 52080) :
    (run s i (n + k)).report.txActive = true :=
  (cell_run (begins_iff.mp (startsAt_ne_none.mp hn)) k hk).active

end Runs

/-! ## §3. From a command to the end of its report. -/

/-- The registers that a command latches are the same. -/
structure Keeps (L r : NetReport) : Prop where
  rx : r.latRx = L.latRx
  tx : r.latTx = L.latTx
  txd : r.latTxd = L.latTxd
  raw : r.latRaw = L.latRaw
  rxd : r.latRxd = L.latRxd
  mode : r.mode = L.mode

theorem Keeps.refl (r : NetReport) : Keeps r r := ⟨rfl, rfl, rfl, rfl, rfl, rfl⟩

theorem Keeps.trans {L r t : NetReport} (h : Keeps L r) (h' : Keeps r t) : Keeps L t :=
  ⟨h'.rx.trans h.rx, h'.tx.trans h.tx, h'.txd.trans h.txd, h'.raw.trans h.raw, h'.rxd.trans h.rxd,
    h'.mode.trans h.mode⟩

theorem Keeps.txLast {L r : NetReport} (h : Keeps L r) : r.txLast = L.txLast := by
  unfold NetReport.txLast
  rw [h.mode]

/-- What is latched and how long it waits is decided before the transmitter moves. -/
theorem nextReport_latch (s : NetStatsModule) (i : NetStatsIn) :
    Keeps s.latch (s.nextReport i) ∧ (s.nextReport i).quietCnt = s.latch.quietCnt := by
  unfold nextReport
  dsimp only
  split
  · split
    · exact ⟨⟨rfl, rfl, rfl, rfl, rfl, rfl⟩, rfl⟩
    · exact ⟨Keeps.refl _, rfl⟩
  · split
    · exact ⟨⟨rfl, rfl, rfl, rfl, rfl, rfl⟩, rfl⟩
    · exact ⟨⟨rfl, rfl, rfl, rfl, rfl, rfl⟩, rfl⟩

/-- Without a command the latched registers stay and the quiet time runs out. -/
theorem latch_of_not_takes {s : NetStatsModule} (h : s.takes = false) :
    Keeps s.report s.latch ∧ s.latch.quietCnt.toNat = s.report.quietCnt.toNat - 1 := by
  have hno : ¬ s.takes = true := by simp [h]
  unfold latch
  simp only [if_neg hno]
  refine ⟨⟨rfl, rfl, rfl, rfl, rfl, rfl⟩, ?_⟩
  show (if 0 < s.report.quietCnt then s.report.quietCnt - 1 else s.report.quietCnt).toNat = _
  by_cases hpos : 0 < s.report.quietCnt
  · rw [if_pos hpos]
    bv_omega
  · rw [if_neg hpos]
    bv_omega

/-- A command is not taken while one waits or is answered. -/
theorem not_takes {s : NetStatsModule} (h : s.report.txActive = true ∨ s.report.quietCnt ≠ 0) :
    s.takes = false := by
  unfold takes
  rcases h with hactive | hquiet
  · simp [hactive]
  · have hq : (s.report.quietCnt == 0) = false := beq_eq_false_iff_ne.mpr hquiet
    rw [hq, Bool.and_false]

theorem takes_iff {s : NetStatsModule} : s.takes = true ↔
    s.go = true ∧ s.report.txActive = false ∧ s.report.quietCnt = 0 := by
  unfold takes
  rw [Bool.and_eq_true, Bool.and_eq_true, Bool.not_eq_true', beq_iff_eq, and_assoc]

section Runs

variable {s : NetStatsModule} {i : Nat → NetStatsIn}

/-- The first cycle of the report to the command of cycle `n`. -/
def reportBegin (n : Nat) : Nat := n + 1000001

/-- The first cycle behind it. -/
def reportEnd (s : NetStatsModule) (i : Nat → NetStatsIn) (n : Nat) : Nat :=
  reportBegin n + 52080 * ((run s i n).latch.txLast.toNat + 1)

/-- A report is no longer than 36 bytes. -/
theorem reportEnd_le (s : NetStatsModule) (i : Nat → NetStatsIn) (n : Nat) :
    reportEnd s i n ≤ n + 2874881 := by
  have hlast : ∀ r : NetReport, r.txLast.toNat ≤ 35 := by
    intro r
    unfold NetReport.txLast
    split_ifs <;> decide
  have := hlast (run s i n).latch
  unfold reportEnd reportBegin
  omega

/-- **The quiet time**: the transmitter is free for a million cycles. -/
theorem waits_run {n : Nat} (hfree : Free (run s i n).report) (htakes : (run s i n).takes = true) :
    ∀ k, k < 1000000 →
      Free (run s i (n + 1 + k)).report ∧ Keeps (run s i n).latch (run s i (n + 1 + k)).report ∧
        (run s i (n + 1 + k)).report.quietCnt.toNat = 1000000 - k := by
  intro k
  induction k with
  | zero =>
      intro _
      have hquiet : (run s i n).report.quietCnt ≠ 1 := by
        rw [(takes_iff.mp htakes).2.2]
        decide
      obtain ⟨hkeeps, hcnt⟩ := nextReport_latch (run s i n) (i n)
      refine ⟨(hfree.step (i n)).2.1 hquiet, hkeeps, ?_⟩
      show ((run s i n).nextReport (i n)).quietCnt.toNat = _
      have hload : (run s i n).latch.quietCnt = 1000000 := by
        unfold latch
        rw [if_pos htakes]
      rw [hcnt, hload]
      rfl
  | succ k ih =>
      intro hk
      obtain ⟨hfree', hkeeps', hcnt'⟩ := ih (by omega)
      have hone : (run s i (n + 1 + k)).report.quietCnt ≠ 1 := by bv_omega
      have hzero : (run s i (n + 1 + k)).report.quietCnt ≠ 0 := by bv_omega
      obtain ⟨hstay, hless⟩ := latch_of_not_takes (not_takes (.inr hzero))
      obtain ⟨hkeeps, hcnt⟩ := nextReport_latch (run s i (n + 1 + k)) (i (n + 1 + k))
      refine ⟨(hfree'.step (i (n + 1 + k))).2.1 hone, (hkeeps'.trans hstay).trans hkeeps, ?_⟩
      show ((run s i (n + 1 + k)).nextReport (i (n + 1 + k))).quietCnt.toNat = _
      rw [hcnt, hless, hcnt']
      omega

/-- The end of the quiet time: the first byte begins. -/
theorem report_begins {n : Nat} (hfree : Free (run s i n).report) (htakes : (run s i n).takes = true) :
    Cell 0 0 0 false (run s i (reportBegin n)).report ∧
      Keeps (run s i n).latch (run s i (reportBegin n)).report ∧
        (run s i (reportBegin n)).report.quietCnt.toNat = 0 := by
  obtain ⟨m, hm⟩ : ∃ m, m = n + 1 + 999999 := ⟨_, rfl⟩
  obtain ⟨hfree', hkeeps', hcnt'⟩ := waits_run hfree htakes 999999 (by omega)
  rw [← hm] at hfree' hkeeps' hcnt'
  have hone : (run s i m).report.quietCnt = 1 := by bv_omega
  have hzero : (run s i m).report.quietCnt ≠ 0 := by rw [hone]; decide
  obtain ⟨hstay, hless⟩ := latch_of_not_takes (not_takes (.inr hzero))
  obtain ⟨hkeeps, hcnt⟩ := nextReport_latch (run s i m) (i m)
  have hbegin : reportBegin n = m + 1 := by
    unfold reportBegin
    omega
  rw [hbegin]
  refine ⟨(hfree'.step (i m)).2.2 hone, (hkeeps'.trans hstay).trans hkeeps, ?_⟩
  show ((run s i m).nextReport (i m)).quietCnt.toNat = 0
  rw [hcnt, hless, hcnt']

/-- While a byte is sent, the latched registers stay. -/
theorem keeps_run {L : NetReport} {n : Nat} {j : BitVec 6}
    (h : Cell j 0 0 false (run s i n).report) (hkeeps : Keeps L (run s i n).report)
    (hquiet : (run s i n).report.quietCnt.toNat = 0) :
    ∀ p, p ≤ 52080 → Keeps L (run s i (n + p)).report ∧
      (run s i (n + p)).report.quietCnt.toNat = 0 := by
  intro p
  induction p with
  | zero => intro _; exact ⟨hkeeps, hquiet⟩
  | succ p ih =>
      intro hp
      obtain ⟨hkeeps', hcnt'⟩ := ih (by omega)
      have hactive := (cell_run h p (by omega)).active
      obtain ⟨hstay, hless⟩ := latch_of_not_takes (not_takes (.inl hactive))
      obtain ⟨hnext, hcnt⟩ := nextReport_latch (run s i (n + p)) (i (n + p))
      refine ⟨(hkeeps'.trans hstay).trans hnext, ?_⟩
      show ((run s i (n + p)).nextReport (i (n + p))).quietCnt.toNat = 0
      rw [hcnt, hless, hcnt']

/-- **The bytes of a report** begin one behind the other. -/
theorem report_bytes {n : Nat} (hfree : Free (run s i n).report) (htakes : (run s i n).takes = true) :
    ∀ j, j ≤ (run s i n).latch.txLast.toNat →
      Cell (BitVec.ofNat 6 j) 0 0 false (run s i (reportBegin n + 52080 * j)).report ∧
        Keeps (run s i n).latch (run s i (reportBegin n + 52080 * j)).report ∧
          (run s i (reportBegin n + 52080 * j)).report.quietCnt.toNat = 0 := by
  intro j
  induction j with
  | zero => intro _; exact report_begins hfree htakes
  | succ j ih =>
      intro hj
      obtain ⟨hcell, hkeeps, hquiet⟩ := ih (by omega)
      obtain ⟨p, hp⟩ : ∃ p, p + 1 = 52080 := ⟨52079, rfl⟩
      have hstay := keeps_run hcell hkeeps hquiet p (by omega)
      have hend := keeps_run hcell hkeeps hquiet (p + 1) (by omega)
      have hmore : BitVec.ofNat 6 j ≠ (run s i (reportBegin n + 52080 * j + p)).report.txLast := by
        rw [hstay.1.txLast]
        intro heq
        have hval := congrArg BitVec.toNat heq
        rw [BitVec.toNat_ofNat] at hval
        omega
      have hnext := (cell_run_end hcell hp).2 hmore
      rw [show reportBegin n + 52080 * (j + 1) = reportBegin n + 52080 * j + p + 1 by omega]
      rw [show BitVec.ofNat 6 (j + 1) = BitVec.ofNat 6 j + 1 by rw [BitVec.ofNat_add]; rfl]
      exact ⟨hnext, hend⟩

/-- **The end of a report**: the line goes back to the console. -/
theorem report_ends {n : Nat} (hfree : Free (run s i n).report) (htakes : (run s i n).takes = true) :
    Free (run s i (reportEnd s i n)).report ∧ (run s i (reportEnd s i n)).report.quietCnt.toNat = 0 := by
  obtain ⟨last, hlast⟩ : ∃ last, last = (run s i n).latch.txLast.toNat := ⟨_, rfl⟩
  obtain ⟨hcell, hkeeps, hquiet⟩ := report_bytes hfree htakes last (by omega)
  obtain ⟨p, hp⟩ : ∃ p, p + 1 = 52080 := ⟨52079, rfl⟩
  have hstay := keeps_run hcell hkeeps hquiet p (by omega)
  have hend := keeps_run hcell hkeeps hquiet (p + 1) (by omega)
  have hlast' : BitVec.ofNat 6 last = (run s i (reportBegin n + 52080 * last + p)).report.txLast := by
    rw [hstay.1.txLast, hlast, BitVec.ofNat_toNat, BitVec.setWidth_eq]
  have hnext := (cell_run_end hcell hp).1 hlast'
  rw [show reportEnd s i n = reportBegin n + 52080 * last + p + 1 by rw [reportEnd, ← hlast]; omega]
  exact ⟨hnext, hend.2⟩

/-- **At each cycle** nothing waits and nothing is sent, or a command is being answered. -/
theorem idle_or_answering (hs : Free s.report) (hquiet : s.report.quietCnt = 0) (m : Nat) :
    (Free (run s i m).report ∧ (run s i m).report.quietCnt = 0) ∨
      ∃ n, Free (run s i n).report ∧ (run s i n).takes = true ∧ n < m ∧ m < reportEnd s i n := by
  induction m with
  | zero => exact .inl ⟨hs, hquiet⟩
  | succ m ih =>
      rcases ih with ⟨hfree, hzero⟩ | ⟨n, hfree, htakes, hlo, hhi⟩
      · cases htakes : (run s i m).takes with
        | true =>
            have hlate : m + 1 < reportEnd s i m := by
              unfold reportEnd reportBegin
              omega
            exact .inr ⟨m, hfree, htakes, by omega, hlate⟩
        | false =>
            have hone : (run s i m).report.quietCnt ≠ 1 := by rw [hzero]; decide
            obtain ⟨-, hless⟩ := latch_of_not_takes htakes
            obtain ⟨-, hcnt⟩ := nextReport_latch (run s i m) (i m)
            refine .inl ⟨(hfree.step (i m)).2.1 hone, ?_⟩
            show ((run s i m).nextReport (i m)).quietCnt = 0
            rw [hcnt]
            bv_omega
      · by_cases hend : m + 1 < reportEnd s i n
        · exact .inr ⟨n, hfree, htakes, by omega, hend⟩
        · obtain ⟨hfree', hzero⟩ := report_ends hfree htakes
          rw [show m + 1 = reportEnd s i n by omega]
          exact .inl ⟨hfree', BitVec.eq_of_toNat_eq hzero⟩

end Runs

/-! ## §4. The text of a report. -/

/-- Byte `j` of the report of the registers `L`, with the wires `w`. -/
def textByte (L : NetReport) (w : NetStatsIn) (j : Nat) : U8 :=
  ({ L with txIdx := BitVec.ofNat 6 j } : NetReport).txByte w

/-- The text that a report is meant to be. -/
def reportText (L : NetReport) (w : NetStatsIn) : List U8 :=
  if L.mode = 1 then [0x74, 0x78, 0x64, 0x3D] ++ Hex.text 32 L.latTxd
  else if L.mode = 3 then [0x72, 0x61, 0x77, 0x3D] ++ Hex.text 32 L.latRaw
  else if L.mode = 2 then [0x72, 0x78, 0x64, 0x3D] ++ Hex.text 16 L.latRxd
  else
    [0x72, 0x78, 0x3D] ++ Hex.text 4 L.latRx ++ [0x20, 0x74, 0x78, 0x3D] ++ Hex.text 4 L.latTx
      ++ [0x20, 0x4C, 0x3D, if w.statLock then 0x31 else 0x30, 0x20, 0x52, 0x3D]
      ++ Hex.text 2 (w.dbg0.extractLsb' 8 8) ++ [0x20, 0x54, 0x3D] ++ Hex.text 2 (w.dbg0.extractLsb' 0 8)
      ++ [0x20, 0x59, 0x3D, if w.dbg1 then 0x31 else 0x30, 0x0D, 0x0A]

/-- The wires that a report of the counters reads while it is sent. -/
def SameWires (w w' : NetStatsIn) : Prop :=
  w.statLock = w'.statLock ∧ w.dbg0 = w'.dbg0 ∧ w.dbg1 = w'.dbg1

theorem txByte_of_keeps {L r : NetReport} {j : Nat} (h : Keeps L r) (hidx : r.txIdx = BitVec.ofNat 6 j)
    (w : NetStatsIn) : r.txByte w = textByte L w j := by
  unfold textByte NetReport.txByte NetReport.netText
  simp only [hidx, h.rx, h.tx, h.txd, h.raw, h.rxd, h.mode]

theorem textByte_wires {L : NetReport} {w w' : NetStatsIn} (h : L.mode = 0 → SameWires w w') (j : Nat) :
    textByte L w j = textByte L w' j := by
  unfold textByte NetReport.txByte NetReport.netText
  by_cases h1 : L.mode = 1
  · simp only [if_pos h1]
  · by_cases h3 : L.mode = 3
    · simp only [if_neg h1, if_pos h3]
    · by_cases h2 : L.mode = 2
      · simp only [if_neg h1, if_neg h3, if_pos h2]
      · have h0 : L.mode = 0 := by bv_omega
        obtain ⟨hlock, hdbg0, hdbg1⟩ := h h0
        simp only [if_neg h1, if_neg h3, if_neg h2, hlock, hdbg0, hdbg1]

/-- A capture is its name and its digits. -/
theorem captureText {w : Nat} (name : List U8) (hname : name.length = 4) {n : Nat} (hn : n + 4 ≤ 64)
    (v : BitVec w) :
    (List.range (4 + n)).map (fun j => NetReport.captureByte name n v (BitVec.ofNat 6 j))
      = name ++ Hex.text n v := by
  rw [List.range_add, List.map_append, List.map_map]
  refine congrArg₂ (· ++ ·) ?_ ?_
  · refine List.ext_getElem (by simp [hname]) ?_
    intro k hk hk'
    have hlt : k < 4 := by rwa [hname] at hk'
    have hidx : (BitVec.ofNat 6 k).toNat = k := by
      rw [BitVec.toNat_ofNat]
      omega
    have hfront : BitVec.ofNat 6 k < 4 := by bv_omega
    rw [List.getElem_map, List.getElem_range, NetReport.captureByte, if_pos hfront, hidx,
      List.getD_eq_getElem?_getD, List.getElem?_eq_getElem hk']
    rfl
  · refine List.map_congr_left ?_
    intro k hk
    rw [List.mem_range] at hk
    have hidx : (BitVec.ofNat 6 (4 + k)).toNat = 4 + k := by
      rw [BitVec.toNat_ofNat]
      omega
    have hge : ¬ BitVec.ofNat 6 (4 + k) < 4 := by bv_omega
    show NetReport.captureByte name n v (BitVec.ofNat 6 (4 + k)) = _
    rw [NetReport.captureByte, if_neg hge, hidx, Nat.add_sub_cancel_left]
    rfl

/-- A list with one more element behind it, read position by position. -/
theorem map_getD_range {α : Type} (l : List α) (d : α) :
    (List.range (l.length + 1)).map (fun j => l.getD j d) = l ++ [d] := by
  rw [List.range_succ, List.map_append]
  refine congrArg₂ (· ++ ·) ?_ ?_
  · refine List.ext_getElem (by simp) ?_
    intro k hk hk'
    simp [List.getD_eq_getElem?_getD, hk']
  · simp [List.getD_eq_getElem?_getD]

/-- Two digits of a word of four. -/
theorem hexText_half (v : U16) :
    Hex.text 2 (v.extractLsb' 8 8) = [hexDigit 4 v 0, hexDigit 4 v 1] ∧
      Hex.text 2 (v.extractLsb' 0 8) = [hexDigit 4 v 2, hexDigit 4 v 3] := by
  have hpart : ∀ lo k, k ≤ 4 → (v.extractLsb' lo 8).extractLsb' k 4 = v.extractLsb' (lo + k) 4 := by
    intro lo k hk
    apply BitVec.eq_of_getLsbD_eq
    intro j hj
    have hin : k + j < 8 := by omega
    simp only [BitVec.getLsbD_extractLsb', hin, decide_true, Bool.true_and, Nat.add_assoc]
  have htwo : ∀ x : U8, Hex.text 2 x = [Hex.digit (x.extractLsb' 4 4), Hex.digit (x.extractLsb' 0 4)] :=
    fun _ => rfl
  rw [htwo, htwo, hpart 8 4 (by omega), hpart 8 0 (by omega), hpart 0 4 (by omega), hpart 0 0 (by omega)]
  exact ⟨rfl, rfl⟩

/-- **The bytes of a report** are its text. -/
theorem reportText_eq (L : NetReport) (w : NetStatsIn) :
    (List.range (L.txLast.toNat + 1)).map (textByte L w) = reportText L w := by
  by_cases h1 : L.mode = 1
  · have hlast : L.txLast = 35 := by simp [NetReport.txLast, h1]
    have hbyte : ∀ j, textByte L w j
        = NetReport.captureByte [0x74, 0x78, 0x64, 0x3D] 32 L.latTxd (BitVec.ofNat 6 j) :=
      fun j => if_pos h1
    rw [reportText, if_pos h1, hlast, List.map_congr_left fun j _ => hbyte j]
    exact captureText _ rfl (by omega) L.latTxd
  · by_cases h3 : L.mode = 3
    · have hlast : L.txLast = 35 := by simp [NetReport.txLast, h3]
      have hbyte : ∀ j, textByte L w j
          = NetReport.captureByte [0x72, 0x61, 0x77, 0x3D] 32 L.latRaw (BitVec.ofNat 6 j) :=
        fun j => (if_neg h1).trans (if_pos h3)
      rw [reportText, if_neg h1, if_pos h3, hlast, List.map_congr_left fun j _ => hbyte j]
      exact captureText _ rfl (by omega) L.latRaw
    · by_cases h2 : L.mode = 2
      · have hlast : L.txLast = 19 := by simp [NetReport.txLast, h2]
        have hbyte : ∀ j, textByte L w j
            = NetReport.captureByte [0x72, 0x78, 0x64, 0x3D] 16 L.latRxd (BitVec.ofNat 6 j) :=
          fun j => (if_neg h1).trans ((if_neg h3).trans (if_pos h2))
        rw [reportText, if_neg h1, if_neg h3, if_pos h2, hlast, List.map_congr_left fun j _ => hbyte j]
        exact captureText _ rfl (by omega) L.latRxd
      · have h0 : L.mode = 0 := by bv_omega
        have hlast : L.txLast = 34 := by simp [NetReport.txLast, h0]
        have hbyte : ∀ j, j ∈ List.range 35 → textByte L w j = (L.netText w).getD j 0x0A := by
          intro j hj
          rw [List.mem_range] at hj
          have hidx : (BitVec.ofNat 6 j).toNat = j := by
            rw [BitVec.toNat_ofNat]
            omega
          refine ((if_neg h1).trans ((if_neg h3).trans (if_neg h2))).trans ?_
          show (L.netText w).getD (BitVec.ofNat 6 j).toNat 0x0A = _
          rw [hidx]
        obtain ⟨hhigh, hlow⟩ := hexText_half w.dbg0
        rw [reportText, if_neg h1, if_neg h3, if_neg h2, hlast, hhigh, hlow]
        refine (List.map_congr_left hbyte).trans ?_
        exact map_getD_range (L.netText w) 0x0A

/-! ### Reading a report. -/

/-- The numbers in a report of the counters. -/
theorem reportText_counters {L : NetReport} (h : L.mode = 0) (w : NetStatsIn) :
    Hex.readHex? (((reportText L w).drop 3).take 4) = some L.latRx.toNat ∧
      Hex.readHex? (((reportText L w).drop 11).take 4) = some L.latTx.toNat := by
  have hrx := Hex.readHex?_text_word (n := 4) L.latRx
  have htx := Hex.readHex?_text_word (n := 4) L.latTx
  rw [reportText, h]
  exact ⟨hrx, htx⟩

/-- The number in a report of a capture. -/
theorem reportText_capture {L : NetReport} (w : NetStatsIn) :
    (L.mode = 1 → Hex.readHex? ((reportText L w).drop 4) = some L.latTxd.toNat) ∧
      (L.mode = 2 → Hex.readHex? ((reportText L w).drop 4) = some L.latRxd.toNat) ∧
      (L.mode = 3 → Hex.readHex? ((reportText L w).drop 4) = some L.latRaw.toNat) := by
  refine ⟨?_, ?_, ?_⟩
  · intro h
    rw [reportText, h]
    exact Hex.readHex?_text_word (n := 32) L.latTxd
  · intro h
    rw [reportText, h]
    exact Hex.readHex?_text_word (n := 16) L.latRxd
  · intro h
    rw [reportText, h]
    exact Hex.readHex?_text_word (n := 32) L.latRaw

/-! ## §5. The merged line. -/

section Runs

variable {s : NetStatsModule} {i : Nat → NetStatsIn}

/-- **The bytes on the line** are those of the text. -/
theorem startsAt_text {n : Nat} (hfree : Free (run s i n).report) (htakes : (run s i n).takes = true)
    {w : NetStatsIn}
    (hwires : (run s i n).latch.mode = 0 →
      ∀ m, reportBegin n ≤ m → m < reportEnd s i n → SameWires (i m) w)
    {j : Nat} (hj : j ≤ (run s i n).latch.txLast.toNat) :
    startsAt s i (reportBegin n + 52080 * j) = some (textByte (run s i n).latch w j) := by
  obtain ⟨hcell, hkeeps, hquiet⟩ := report_bytes hfree htakes j hj
  have hidx := hcell.idx
  have hbegin : begins (run s i (reportBegin n + 52080 * j)).report = true := by
    rw [begins_iff, hidx]
    exact hcell
  have hbyte : sentByte s i (reportBegin n + 52080 * j) = textByte (run s i n).latch w j := by
    refine assembled_eq ?_
    intro k hk
    rw [Nat.add_assoc (reportBegin n + 52080 * j)]
    have hkeeps' := (keeps_run hcell hkeeps hquiet (5208 * k + 5207) (by omega)).1
    have hidx' := (cell_run hcell (5208 * k + 5207) (by omega)).idx
    rw [txByte_of_keeps hkeeps' hidx']
    refine congrArg (BitVec.getLsbD · k) (textByte_wires ?_ j)
    intro h0
    refine hwires h0 _ (by omega) ?_
    unfold reportEnd
    omega
  rw [startsAt, if_pos hbegin, hbyte]

/-- A frame of the console stays clear of every report. -/
def StaysClear (s : NetStatsModule) (i : Nat → NetStatsIn) (console : Nat → Option U8) : Prop :=
  ∀ n m, (run s i n).takes = true → console m ≠ none →
    m + 52080 ≤ reportBegin n ∨ reportEnd s i n ≤ m

/-- The report has the line only while a command is answered. -/
theorem takes_of_active (hs : Free s.report) (hquiet : s.report.quietCnt = 0) {m : Nat}
    (h : (run s i m).report.txActive = true) :
    ∃ n, (run s i n).takes = true ∧ reportBegin n ≤ m ∧ m < reportEnd s i n := by
  rcases idle_or_answering hs hquiet m with ⟨hfree, -⟩ | ⟨n, hfree, htakes, hlo, hhi⟩
  · rw [hfree.active] at h
    cases h
  · refine ⟨n, htakes, ?_, hhi⟩
    by_contra hearly
    have hwait := (waits_run hfree htakes (m - (n + 1)) (by unfold reportBegin at hearly; omega)).1
    rw [show n + 1 + (m - (n + 1)) = m by omega] at hwait
    rw [hwait.active] at h
    cases h

/-- The line of the pin: the report, or the console. -/
theorem uartTxOut_mux :
    (fun n => (run s i n).uartTxOut (i n)) =
      mux (fun n => (run s i n).report.txActive) (fun n => (run s i n).report.txLine)
        fun n => (i n).uartTxIn := rfl

/-- **The merged line** carries the bytes of the reports and of the console. -/
theorem carries_merged (hs : Free s.report) (hquiet : s.report.quietCnt = 0)
    {console : Nat → Option U8} (hconsole : Carries 5208 (fun n => (i n).uartTxIn) console)
    (hclear : StaysClear s i console) :
    Carries 5208 (fun n => (run s i n).uartTxOut (i n)) fun n => (startsAt s i n).or (console n) := by
  rw [uartTxOut_mux]
  refine (carries_report hs).merge hconsole ⟨?_, ?_⟩
  · intro n k hn hk
    exact active_of_startsAt hn hk
  · intro n k hn hk
    cases hactive : (run s i (n + k)).report.txActive with
    | false => rfl
    | true =>
        obtain ⟨m, htakes, hlo, hhi⟩ := takes_of_active hs hquiet hactive
        have := hclear m n htakes hn
        omega

/-- **What starts on the merged line during a report**: its text, and nothing else. -/
theorem merged_text (hs : Free s.report) {console : Nat → Option U8} (hclear : StaysClear s i console)
    {n : Nat} (hfree : Free (run s i n).report) (htakes : (run s i n).takes = true) {w : NetStatsIn}
    (hwires : (run s i n).latch.mode = 0 →
      ∀ m, reportBegin n ≤ m → m < reportEnd s i n → SameWires (i m) w) :
    (List.range (reportEnd s i n)).filterMap (fun m => (startsAt s i m).or (console m))
      = (List.range (reportBegin n)).filterMap (fun m => (startsAt s i m).or (console m))
        ++ reportText (run s i n).latch w := by
  have hquiet : ∀ m, reportBegin n ≤ m → m < reportEnd s i n → console m = none := by
    intro m hlo hhi
    by_contra hno
    have := hclear n m htakes hno
    omega
  rw [← reportText_eq]
  refine filterMap_range_periods (f := fun m => (startsAt s i m).or (console m)) _ ?_ ?_ (by omega)
  · intro j hj
    show (startsAt s i _).or (console _) = _
    rw [startsAt_text hfree htakes hwires (by omega)]
    rfl
  · intro j k hj hpos hk
    have hstart : startsAt s i (reportBegin n + 52080 * j) ≠ none := by
      rw [startsAt_text hfree htakes hwires (by omega)]
      simp
    show (startsAt s i _).or (console _) = none
    rw [(carries_report hs).apart _ k hstart hpos hk, hquiet _ (by omega) (by unfold reportEnd; omega)]
    rfl

/-- A command finds the transmitter free. -/
theorem free_of_takes (hs : Free s.report) (hquiet : s.report.quietCnt = 0) {n : Nat}
    (htakes : (run s i n).takes = true) : Free (run s i n).report := by
  rcases idle_or_answering hs hquiet n with ⟨hfree, -⟩ | ⟨m, hfree, hm, hlo, hhi⟩
  · exact hfree
  · obtain ⟨-, hactive, hzero⟩ := takes_iff.mp htakes
    by_cases hwaits : n < reportBegin m
    · have hcnt := (waits_run hfree hm (n - (m + 1)) (by unfold reportBegin at hwaits; omega)).2.2
      rw [show m + 1 + (n - (m + 1)) = n by omega, hzero] at hcnt
      unfold reportBegin at hwaits
      simp at hcnt
      omega
    · -- within the bytes of the report the transmitter is busy
      obtain ⟨d, hd⟩ : ∃ d, n = reportBegin m + d := ⟨n - reportBegin m, by omega⟩
      have hj : d / 52080 ≤ (run s i m).latch.txLast.toNat := by
        unfold reportEnd at hhi
        omega
      have hcell := (report_bytes hfree hm (d / 52080) hj).1
      have hbusy := (cell_run hcell (d % 52080) (Nat.mod_lt _ (by omega))).active
      rw [show reportBegin m + 52080 * (d / 52080) + d % 52080 = n by omega, hactive] at hbusy
      cases hbusy

/-- **A listener hears the text of a report** between its beginning and its end. -/
theorem heard_report {R : Rule} {a : Sampler} (hfits : Sampler.Fits R 5208) (ha : a.Ready)
    (hs : Free s.report) (hquiet : s.report.quietCnt = 0) {console : Nat → Option U8}
    (hconsole : Carries 5208 (fun n => (i n).uartTxIn) console) (hclear : StaysClear s i console)
    {n : Nat} (htakes : (run s i n).takes = true) {w : NetStatsIn}
    (hwires : (run s i n).latch.mode = 0 →
      ∀ m, reportBegin n ≤ m → m < reportEnd s i n → SameWires (i m) w) :
    let heard := fun N => Sampler.received R a (Sampler.wave (fun m => (run s i m).uartTxOut (i m)) N)
    heard (reportEnd s i n + (R.first + 9 * R.gap))
      = heard (reportBegin n + (R.first + 9 * R.gap)) ++ reportText (run s i n).latch w := by
  intro heard
  have hcarries := carries_merged hs hquiet hconsole hclear
  have hend := Sampler.carried_received hfits hcarries ha (reportEnd s i n + (R.first + 9 * R.gap))
  have hbegin := Sampler.carried_received hfits hcarries ha (reportBegin n + (R.first + 9 * R.gap))
  rw [Nat.add_sub_cancel] at hend hbegin
  show Sampler.received R a _ = Sampler.received R a _ ++ _
  rw [hend, hbegin]
  exact merged_text hs hclear (free_of_takes hs hquiet htakes) htakes hwires

end Runs

end NetStatsModule

open NetStatsModule

/-- **A command is answered by one report, which a listener hears whole.**

On every run from registers in which nothing is sent and no command waits, as behind a reset: if
the console's line carries bytes and none of its frames lies across a report, then a receiver
whose ten instants fall into their cells hears, from the beginning to the end of the report that
a command of cycle `n` calls for, exactly the text of the registers latched in that cycle.  The
counters and captures read back from the text are those of that cycle; the wires that are not
latched must stand still while they are sent. -/
theorem net_report_heard (s₀ : NetStatsModule) (i : Nat → NetStatsIn) (console : Nat → Option U8)
    (R : Rule) (a : Sampler) (n : Nat) (w : NetStatsIn) (hfree₀ : Free s₀.report)
    (hquiet₀ : s₀.report.quietCnt = 0) (hfits : Sampler.Fits R 5208) (ha : a.Ready)
    (hconsole : Carries 5208 (fun n => (i n).uartTxIn) console)
    (hclear : StaysClear s₀ i console) (htakes : (run s₀ i n).takes = true)
    (hwires : (run s₀ i n).latch.mode = 0 →
      ∀ m, reportBegin n ≤ m → m < reportEnd s₀ i n → SameWires (i m) w) :
    let s := run s₀ i
    let heard := fun N => Sampler.received R a (Sampler.wave (fun m => (s m).uartTxOut (i m)) N)
    let delay := R.first + 9 * R.gap
    let text := reportText (s n).latch w
    heard (reportEnd s₀ i n + delay) = heard (reportBegin n + delay) ++ text ∧
      ((s n).latch.mode = 0 →
        Hex.readHex? ((text.drop 3).take 4) = some (s n).rxFrames.cnt.toNat ∧
          Hex.readHex? ((text.drop 11).take 4) = some (s n).txFrames.cnt.toNat) ∧
      ((s n).latch.mode = 1 → Hex.readHex? (text.drop 4) = some (s n).txcap.s2.toNat) ∧
      ((s n).latch.mode = 2 → Hex.readHex? (text.drop 4) = some (s n).rxcap.s2.toNat) ∧
      ((s n).latch.mode = 3 → Hex.readHex? (text.drop 4) = some (s n).rawcap.s2.toNat) := by
  intro s heard delay text
  have hlatch : (s n).latch.latRx = (s n).rxFrames.cnt ∧ (s n).latch.latTx = (s n).txFrames.cnt ∧
      (s n).latch.latTxd = (s n).txcap.s2 ∧ (s n).latch.latRxd = (s n).rxcap.s2 ∧
      (s n).latch.latRaw = (s n).rawcap.s2 := by
    unfold latch
    rw [if_pos htakes]
    exact ⟨rfl, rfl, rfl, rfl, rfl⟩
  obtain ⟨hrx, htx, htxd, hrxd, hraw⟩ := hlatch
  obtain ⟨hread1, hread2, hread3⟩ := reportText_capture (L := (s n).latch) w
  refine ⟨?_, ?_, ?_, ?_, ?_⟩
  · exact heard_report hfits ha hfree₀ hquiet₀ hconsole hclear htakes hwires
  · intro h0
    rw [← hrx, ← htx]
    exact reportText_counters h0 w
  · rw [← htxd]
    exact hread1
  · rw [← hrxd]
    exact hread2
  · rw [← hraw]
    exact hread3

/-- Wires at rest. -/
def restingWires : NetStatsIn :=
  { uartRx := true, uartTxIn := true, rxToggle := false, txToggle := false, statLock := true, txCap := 0
    rxCap := 0, rawCap := 0, dbg0 := 0, dbg1 := true }

/-- The pulse of `?net` stands in the register, and the lines rest. -/
theorem net_report_heard_net :
    let s₀ : NetStatsModule := { brx := { netGo := true } }
    let i : Nat → NetStatsIn := fun _ => restingWires
    let heard := fun N => Sampler.received uartConsoleRule { prev := true, busy := none }
      (Sampler.wave (fun m => (run s₀ i m).uartTxOut (i m)) N)
    heard (reportEnd s₀ i 0 + (2604 + 9 * 5208))
      = heard (reportBegin 0 + (2604 + 9 * 5208)) ++ reportText (run s₀ i 0).latch restingWires :=
  (net_report_heard { brx := { netGo := true } } (fun _ => restingWires) (fun _ => none)
    uartConsoleRule { prev := true, busy := none } 0 restingWires ⟨rfl, rfl⟩ rfl
    (uartRule_fits rfl (by simp) (by omega) (by omega)) ⟨rfl, rfl⟩
    ⟨by simp, by simp, fun _ _ => rfl⟩ (by intro n m _ hno; exact absurd rfl hno) rfl
    (fun _ m _ _ => ⟨rfl, rfl, rfl⟩)).1

end GigabitTcp
