/-
  GigabitTcp.Uart.Output — what `uart_console` sends.

  The transmitter starts a byte in a cycle in which it is free: the byte that the receiver
  completes in that very cycle, or else the next byte of the response queue.  A response enters
  the queue only when the queue is empty.  From the cycle of its start on a byte is on its way
  for 52080 cycles, and where it stands shows in the two counters.

  Main results:
    * `echo_completed`          — an echo is the byte completed in the same cycle,
    * `queue_conserves`         — what a cycle loads and starts is what the queue gains and loses,
    * `Sending.step`            — the two counters count the cycles of a byte,
    * `uart_console_output`     — the bytes sent, their order and their waveform.
-/
import GigabitTcp.Hw.Serial
import GigabitTcp.Uart.Cycle

namespace GigabitTcp

open Hw Hw.Serial

namespace UartConsole

/-! ## §1. What a cycle starts and loads. -/

/-- Where a byte to be sent comes from. -/
inductive TxSource where
  | echo | resp
  deriving Repr, DecidableEq

/-- The byte that the transmitter starts to send with these registers. -/
def txStart (s : UartConsole) : Option (TxSource × U8) :=
  if s.txActive then none
  else if s.txPending then some (.echo, s.txHold)
  else if s.respRemain = 0 then none
  else some (.resp, s.respTop)

/-- The byte that the transmitter starts to send in a cycle. -/
def started (s : UartConsole) (rx : Bool) : Option (TxSource × U8) := (s.afterRx rx).txStart

/-- The byte of a start, if it comes from the response queue. -/
def respPart : Option (TxSource × U8) → List U8
  | some (.resp, b) => [b]
  | _ => []

/-- The response that enters the queue in a cycle. -/
def loaded (s : UartConsole) (rx : Bool) : Option (List U8) :=
  match s.completed rx with
  | some b => if (b = 13 ∨ b = 10) ∧ s.respRemain = 0 then some (response s.cmdSt).1 else none
  | none => none

/-- Byte `i` of the response queue. -/
def respByte (respSr : BitVec 192) (i : Nat) : U8 := respSr.extractLsb' (184 - 8 * i) 8

/-- The bytes in the response queue. -/
def queue (s : UartConsole) : List U8 :=
  (List.range s.respRemain.toNat).map (respByte s.respSr)

theorem queue_eq_nil_iff (s : UartConsole) : s.queue = [] ↔ s.respRemain = 0 := by
  rw [queue, List.map_eq_nil_iff, List.range_eq_nil]
  constructor
  · intro h
    exact BitVec.eq_of_toNat_eq h
  · intro h
    rw [h]
    rfl

/-- The shift register moves each byte one place up. -/
theorem respByte_shiftLeft (respSr : BitVec 192) {i : Nat} (hi : i < 23) :
    respByte (respSr <<< 8) i = respByte respSr (i + 1) := by
  apply BitVec.eq_of_getLsbD_eq
  intro j hj
  have hlo : ¬ 184 - 8 * i + j < 8 := by omega
  have hhi : 184 - 8 * i + j < 192 := by omega
  have hat : 184 - 8 * i + j - 8 = 184 - 8 * (i + 1) + j := by omega
  simp only [respByte, BitVec.getLsbD_extractLsb', BitVec.getLsbD_shiftLeft, hj, hlo, hhi, hat,
    decide_true, decide_false, Bool.true_and, Bool.not_false]

/-- The queue gives out its first byte. -/
theorem queue_pop {s : UartConsole} (hle : s.respRemain.toNat ≤ 24) (h0 : s.respRemain ≠ 0) :
    s.queue = s.respTop ::
      ({ s with respSr := s.respSr <<< 8, respRemain := s.respRemain - 1 } : UartConsole).queue := by
  obtain ⟨n, hn⟩ : ∃ n, s.respRemain.toNat = n + 1 := ⟨s.respRemain.toNat - 1, by bv_omega⟩
  have hpred : (s.respRemain - 1).toNat = n := by bv_omega
  simp only [queue, hn, hpred, List.range_succ_eq_map, List.map_cons, List.map_map]
  refine congrArg (s.respTop :: ·) (List.map_congr_left ?_)
  intro i hi
  rw [List.mem_range] at hi
  exact (respByte_shiftLeft s.respSr (by omega)).symm

/-- Each response fills the queue with its own text. -/
theorem queue_response (cmdSt : BitVec 7) :
    (response cmdSt).2.toNat ≤ 24 ∧
      (List.range (response cmdSt).2.toNat).map (respByte (leftAligned (response cmdSt).1))
        = (response cmdSt).1 := by
  unfold response
  split
  · decide +kernel
  · split
    · decide +kernel
    · split
      · decide +kernel
      · split
        · decide +kernel
        · decide +kernel

/-! ## §2. One cycle of the queue. -/

/-- What holds between two cycles: no echo waits, and the queue fits the shift register. -/
structure Settled (s : UartConsole) : Prop where
  pending : s.txPending = false
  remain : s.respRemain.toNat ≤ 24

/-- The receiver writes no register of the transmitter. -/
theorem afterRx_tx (s : UartConsole) (rx : Bool) :
    (s.afterRx rx).txActive = s.txActive ∧ (s.afterRx rx).txByte = s.txByte ∧
      (s.afterRx rx).tcnt = s.tcnt ∧ (s.afterRx rx).tnum = s.tnum ∧
      (s.afterRx rx).txOut = s.txOut := by
  by_cases hstop : (s.shiftIn rx).AtStop
  · rw [afterRx, rxSide_stop hstop, rxComplete_eq]
    exact ⟨rfl, rfl, rfl, rfl, rfl⟩
  · obtain ⟨_, _, _, _, hquiet⟩ := rxSide_quiet hstop
    rw [afterRx, hquiet]
    exact ⟨rfl, rfl, rfl, rfl, rfl⟩

/-- A byte goes to the echo in the cycle in which it is complete, if the transmitter is free. -/
theorem afterRx_pending {s : UartConsole} (hs : s.Settled) (rx : Bool) :
    (s.afterRx rx).txPending = (decide s.AtStop && !s.txActive) ∧
      (s.AtStop → s.txActive = false → (s.afterRx rx).txHold = s.rxByte) := by
  have hiff := atStop_shiftIn s rx
  by_cases hstop : s.AtStop
  · rw [afterRx, rxSide_stop (hiff.mpr hstop), rxComplete_eq]
    show (if s.txActive then s.txPending else true) = _ ∧
      (_ → _ → (if s.txActive then s.txHold else s.rxByte) = _)
    cases hactive : s.txActive <;> simp [hs.pending, hstop]
  · obtain ⟨_, _, _, _, hquiet⟩ := rxSide_quiet (fun h => hstop (hiff.mp h))
    rw [afterRx, hquiet]
    refine ⟨?_, fun h => absurd h hstop⟩
    show s.txPending = _
    simp [hs.pending, hstop]

/-- A response enters an empty queue, and nothing else does. -/
theorem queue_afterRx (s : UartConsole) (rx : Bool) :
    s.queue ++ (s.loaded rx).getD [] = (s.afterRx rx).queue ∧
      (s.respRemain.toNat ≤ 24 → (s.afterRx rx).respRemain.toNat ≤ 24) := by
  have hiff := atStop_shiftIn s rx
  rw [loaded, completed_eq]
  by_cases hstop : s.AtStop
  · rw [afterRx, rxSide_stop (hiff.mpr hstop), rxComplete_eq, if_pos hstop]
    by_cases hload : (s.rxByte = 13 ∨ s.rxByte = 10) ∧ s.respRemain = 0
    · have hempty : s.queue = [] := (queue_eq_nil_iff s).mpr hload.2
      obtain ⟨hle, htext⟩ := queue_response s.cmdSt
      have hload' : ((s.shiftIn rx).rxByte = 13 ∨ (s.shiftIn rx).rxByte = 10) ∧
          (s.shiftIn rx).respRemain = 0 := hload
      simp only [queue, if_pos hload, if_pos hload'] at hempty ⊢
      rw [hempty]
      exact ⟨htext.symm, fun _ => hle⟩
    · have hload' : ¬ (((s.shiftIn rx).rxByte = 13 ∨ (s.shiftIn rx).rxByte = 10) ∧
          (s.shiftIn rx).respRemain = 0) := hload
      simp only [queue, if_neg hload, if_neg hload']
      exact ⟨List.append_nil _, fun h => h⟩
  · obtain ⟨_, _, _, _, hquiet⟩ := rxSide_quiet (fun h => hstop (hiff.mp h))
    rw [afterRx, hquiet, if_neg hstop]
    exact ⟨List.append_nil _, fun h => h⟩

/-- The transmitter takes a byte of the queue exactly when it starts to send it. -/
theorem queue_txSide {s : UartConsole} (hle : s.respRemain.toNat ≤ 24) :
    s.queue = respPart s.txStart ++ s.txSide.queue ∧ s.txSide.respRemain.toNat ≤ 24 := by
  unfold txStart
  cases txBranch s with
  | echo hactive hpending heq =>
      rw [heq, hactive, hpending]
      exact ⟨rfl, hle⟩
  | resp hactive hpending hremain heq =>
      rw [heq, hactive, hpending, if_neg hremain]
      refine ⟨queue_pop hle hremain, ?_⟩
      show (s.respRemain - 1).toNat ≤ 24
      bv_omega
  | rest hactive hpending hremain heq =>
      rw [heq, hactive, hpending, if_pos hremain]
      exact ⟨rfl, hle⟩
  | drive hactive _ heq =>
      rw [heq, hactive]
      exact ⟨rfl, hle⟩
  | hold hactive _ heq =>
      rw [heq, hactive]
      exact ⟨rfl, hle⟩

/-- **One cycle of the queue**: what it holds and what is loaded is what is started and what
it holds then. -/
theorem queue_conserves {s : UartConsole} (hs : s.Settled) (rx : Bool) :
    s.queue ++ (s.loaded rx).getD [] = respPart (s.started rx) ++ (uartConsoleMachine s rx).1.queue := by
  obtain ⟨hload, hle⟩ := queue_afterRx s rx
  rw [hload, step_eq]
  exact (queue_txSide (hle hs.remain)).1

/-- The transmitter leaves no echo behind that it could have taken. -/
theorem txSide_pending {s : UartConsole} (h : s.txActive = true → s.txPending = false) :
    s.txSide.txPending = false := by
  cases txBranch s with
  | echo _ _ heq => rw [heq]
  | resp _ hpending _ heq => rw [heq, ← hpending]
  | rest _ hpending _ heq => rw [heq, ← hpending]
  | drive hactive _ heq => rw [heq]; exact h hactive
  | hold hactive _ heq => rw [heq]; exact h hactive

theorem Settled.step {s : UartConsole} (hs : s.Settled) (rx : Bool) :
    (uartConsoleMachine s rx).1.Settled := by
  obtain ⟨hpending, -⟩ := afterRx_pending hs rx
  obtain ⟨-, hle⟩ := queue_afterRx s rx
  rw [step_eq]
  refine ⟨txSide_pending ?_, (queue_txSide (hle hs.remain)).2⟩
  intro hactive
  rw [(afterRx_tx s rx).1] at hactive
  rw [hpending, hactive]
  simp

/-! ## §3. One cycle of the transmitter. -/

/-- A busy transmitter starts nothing. -/
theorem started_of_busy {s : UartConsole} (rx : Bool) (hactive : s.txActive = true) :
    s.started rx = none := by
  have h := (afterRx_tx s rx).1.trans hactive
  simp [started, txStart, h]

/-- **An echo is the byte completed in the same cycle.** -/
theorem echo_completed {s : UartConsole} (hs : s.Settled) (rx : Bool) {b : U8}
    (h : s.started rx = some (.echo, b)) : s.completed rx = some b := by
  obtain ⟨hpending, hhold⟩ := afterRx_pending hs rx
  unfold started txStart at h
  rw [(afterRx_tx s rx).1, hpending] at h
  cases hactive : s.txActive with
  | true => simp [hactive] at h
  | false =>
      by_cases hstop : s.AtStop
      · rw [completed_eq, if_pos hstop, ← hhold hstop hactive]
        simpa [hactive, hstop] using h
      · simp [hactive, hstop] at h

/-- The level of the line `e + 1` cycles behind the start of `b`. -/
def level (b : U8) (e : Nat) : Bool := if e < 2604 then true else cell b ((e - 2604) / 5208)

/-- The transmitter has been sending `b` for `e` cycles. -/
structure Sending (b : U8) (e : Nat) (s : UartConsole) : Prop where
  active : s.txActive = true
  byte : s.txByte = b
  cnt : s.tcnt.toNat = e % 5208
  num : s.tnum.toNat = (e + 2604) / 5208
  out : s.txOut = level b e

/-- The transmitter is free and the line high. -/
structure Free (s : UartConsole) : Prop where
  active : s.txActive = false
  out : s.txOut = true

theorem sending_of_txStart {s : UartConsole} {src : TxSource} {b : U8}
    (h : s.txStart = some (src, b)) : Sending b 0 s.txSide := by
  unfold txStart at h
  cases txBranch s with
  | echo hactive hpending heq =>
      simp only [hactive, hpending, Bool.false_eq_true, if_false, if_true, Option.some.injEq,
        Prod.mk.injEq] at h
      rw [heq]
      exact ⟨rfl, h.2, rfl, rfl, rfl⟩
  | resp hactive hpending hremain heq =>
      simp only [hactive, hpending, hremain, Bool.false_eq_true, if_false, Option.some.injEq,
        Prod.mk.injEq] at h
      rw [heq]
      exact ⟨rfl, h.2, rfl, rfl, rfl⟩
  | rest hactive hpending hremain _ => simp [hactive, hpending, hremain] at h
  | drive hactive _ _ => simp [hactive] at h
  | hold hactive _ _ => simp [hactive] at h

/-- A free transmitter that starts nothing had nothing to send. -/
theorem free_of_txStart {s : UartConsole} (hactive : s.txActive = false) (h : s.txStart = none) :
    s.respRemain = 0 ∧ s.txSide.Free := by
  unfold txStart at h
  cases txBranch s with
  | echo _ hpending _ => simp [hactive, hpending] at h
  | resp _ hpending hremain _ =>
      simp only [hactive, hpending, if_neg hremain] at h
      cases h
  | rest _ _ hremain heq =>
      rw [heq]
      exact ⟨hremain, hactive, rfl⟩
  | drive hbusy _ _ => rw [hactive] at hbusy; cases hbusy
  | hold hbusy _ _ => rw [hactive] at hbusy; cases hbusy

/-- The cell that is driven next. -/
theorem txDrive_out (s : UartConsole) {k : Nat} (hnum : s.tnum.toNat = k) :
    s.txDrive.txOut = cell s.txByte k := by
  show (if s.tnum = 0 then false else if s.tnum ≤ 8 then (s.txByte >>> (s.tnum - 1).toNat).getLsbD 0
    else true) = _
  cases k with
  | zero =>
      have h0 : s.tnum = 0 := BitVec.eq_of_toNat_eq hnum
      rw [if_pos h0, cell_zero]
  | succ k =>
      have h0 : s.tnum ≠ 0 := by bv_omega
      have hpred : (s.tnum - 1).toNat = k := by bv_omega
      by_cases h8 : s.tnum ≤ 8
      · rw [if_neg h0, if_pos h8, hpred, cell_data _ (by bv_omega), BitVec.getLsbD_ushiftRight,
          Nat.add_zero]
      · rw [if_neg h0, if_neg h8, cell_stop _ (by bv_omega)]

/-- **One cycle of a byte**: it is sent for one cycle more, or ends behind its stop cell. -/
theorem Sending.txSide {b : U8} {e : Nat} {s : UartConsole} (h : Sending b e s) (he : e < 52080) :
    if e + 1 < 52080 then Sending b (e + 1) s.txSide else s.txSide.Free := by
  obtain ⟨hactive, hbyte, hcnt, hnum, hout⟩ := h
  by_cases hhalf : s.tcnt = bpsHalf
  · -- a cell begins: the counter stands at 2603
    have hat : e % 5208 = 2603 := by rw [← hcnt, hhalf]; rfl
    have hlt : e + 1 < 52080 := by omega
    have hle : s.tnum ≤ 9 := by bv_omega
    rw [if_pos hlt, txSide_drive hactive hhalf]
    refine ⟨hactive, hbyte, ?_, ?_, ?_⟩
    · show (2604 : BitVec 13).toNat = (e + 1) % 5208
      have : (e + 1) % 5208 = 2604 := by omega
      rw [this]
      rfl
    · show (if s.tnum ≤ 9 then s.tnum + 1 else s.tnum).toNat = (e + 1 + 2604) / 5208
      rw [if_pos hle]
      bv_omega
    · show s.txDrive.txOut = _
      have hcell : (e + 1 - 2604) / 5208 = (e + 2604) / 5208 := by omega
      have hge : ¬ e + 1 < 2604 := by omega
      rw [txDrive_out s hnum, hbyte, level, if_neg hge, hcell]
  · have hne : e % 5208 ≠ 2603 := by
      intro heq
      exact hhalf (BitVec.eq_of_toNat_eq (hcnt.trans heq))
    have hdiv : s.tcnt = bpsDiv ↔ e % 5208 = 5207 := by
      rw [← hcnt]
      exact eq_ofNat_iff (n := 5207) (by omega) (by omega) s.tcnt
    have hten : s.tnum = 10 ↔ (e + 2604) / 5208 = 10 := by
      rw [← hnum]
      bv_omega
    rw [txSide_hold hactive hhalf]
    by_cases hlt : e + 1 < 52080
    · rw [if_pos hlt]
      refine ⟨?_, hbyte, ?_, ?_, ?_⟩
      · have hgoes : ¬ s.tcnt = bpsDiv ∨ ¬ s.tnum = 10 := by
          rw [hdiv, hten]
          omega
        simpa using hgoes
      · show (uartTick s.tcnt).toNat = (e + 1) % 5208
        rw [toNat_uartTick (by omega) (by omega), hcnt]
        split <;> omega
      · show s.tnum.toNat = (e + 1 + 2604) / 5208
        rw [hnum]
        omega
      · show s.txOut = level b (e + 1)
        rw [hout]
        unfold level
        by_cases hidle : e < 2604
        · rw [if_pos hidle, if_pos (by omega)]
        · have hcell : (e + 1 - 2604) / 5208 = (e - 2604) / 5208 := by omega
          rw [if_neg hidle, if_neg (by omega), hcell]
    · -- the end of the stop cell
      have hend : e = 52079 := by omega
      subst hend
      rw [if_neg hlt]
      constructor
      · have hends : s.tcnt = bpsDiv ∧ s.tnum = 10 := ⟨hdiv.mpr (by omega), hten.mpr (by omega)⟩
        simp [hends]
      · show s.txOut = true
        have hstop : level b 52079 = cell b 9 := rfl
        rw [hout, hstop, cell_stop b (by omega)]

theorem Sending.step {b : U8} {e : Nat} {s : UartConsole} (h : Sending b e s) (he : e < 52080)
    (rx : Bool) :
    if e + 1 < 52080 then Sending b (e + 1) (uartConsoleMachine s rx).1
      else (uartConsoleMachine s rx).1.Free := by
  obtain ⟨hactive, hbyte, hcnt, hnum, hout⟩ := afterRx_tx s rx
  rw [step_eq]
  apply Sending.txSide _ he
  refine ⟨hactive.trans h.active, hbyte.trans h.byte, ?_, ?_, hout.trans h.out⟩
  · rw [hcnt, h.cnt]
  · rw [hnum, h.num]

/-- A start is the first cycle of a byte. -/
theorem sending_of_started {s : UartConsole} {rx : Bool} {src : TxSource} {b : U8}
    (h : s.started rx = some (src, b)) : Sending b 0 (uartConsoleMachine s rx).1 :=
  sending_of_txStart h

/-- A free transmitter that starts nothing stays free, and the queue is empty. -/
theorem Free.step {s : UartConsole} (h : s.Free) {rx : Bool} (hnone : s.started rx = none) :
    s.queue = [] ∧ (uartConsoleMachine s rx).1.Free := by
  have hactive : (s.afterRx rx).txActive = false := (afterRx_tx s rx).1.trans h.active
  obtain ⟨hremain, hfree⟩ := free_of_txStart hactive hnone
  have hempty : (s.afterRx rx).queue = [] := (queue_eq_nil_iff _).mpr hremain
  rw [← (queue_afterRx s rx).1] at hempty
  exact ⟨(List.append_eq_nil_iff.mp hempty).1, hfree⟩

/-- A response is loaded in a cycle that starts no byte of the queue. -/
theorem loaded_whole {s : UartConsole} (hs : s.Settled) {rx : Bool} {r : List U8}
    (h : s.loaded rx = some r) : s.queue = [] ∧ (uartConsoleMachine s rx).1.queue = r := by
  have hstop : s.AtStop := by
    by_contra hno
    simp [loaded, completed_eq, hno] at h
  have hempty : s.queue = [] := by
    rw [queue_eq_nil_iff]
    by_contra hremain
    simp [loaded, completed_eq, hstop] at h
    exact hremain h.1.2
  have hnone : respPart (s.started rx) = [] := by
    obtain ⟨hpending, -⟩ := afterRx_pending hs rx
    unfold started txStart
    rw [(afterRx_tx s rx).1, hpending]
    cases s.txActive <;> simp [hstop, respPart]
  have hkeep := queue_conserves hs rx
  rw [hempty, h, hnone] at hkeep
  exact ⟨hempty, hkeep.symm⟩

/-! ## §4. Whole runs. -/

section Runs

variable (s : UartConsole) (rx : Nat → Bool)

/-- The registers at cycle `n` of a run. -/
abbrev run : Nat → UartConsole := uartConsoleMachine.trace s rx

/-- The byte started in cycle `n`. -/
abbrev startedAt (n : Nat) : Option (TxSource × U8) := (run s rx n).started (rx n)

variable {s rx}

theorem settled_run (hs : s.Settled) (n : Nat) : (run s rx n).Settled :=
  Machine.trace_induct (C := fun _ _ => True) uartConsoleMachine (fun _ rx h _ => h.step rx) hs rx
    (fun _ => trivial) n

/-- A byte is on its way for 52080 cycles. -/
theorem sending_run {n : Nat} {src : TxSource} {b : U8} (h : startedAt s rx n = some (src, b)) :
    ∀ e, e < 52080 → Sending b e (run s rx (n + 1 + e)) := by
  intro e
  induction e with
  | zero => intro _; exact sending_of_started h
  | succ e ih =>
      intro he
      have hstep := (ih (by omega)).step (by omega) (rx (n + 1 + e))
      rwa [if_pos he] at hstep

/-- No other byte is started meanwhile. -/
theorem started_spaced {n n' : Nat} (hn : startedAt s rx n ≠ none) (hn' : startedAt s rx n' ≠ none)
    (hlt : n < n') : n + 52081 ≤ n' := by
  by_contra hclose
  obtain ⟨⟨src, b⟩, hb⟩ := Option.ne_none_iff_exists'.mp hn
  have hsending := sending_run hb (n' - (n + 1)) (by omega)
  rw [show n + 1 + (n' - (n + 1)) = n' by omega] at hsending
  exact hn' (started_of_busy (rx n') hsending.active)

variable (rx)

/-- At each cycle the transmitter is free, or somewhere in the byte it started last. -/
theorem free_or_sending (hs : s.Free) (m : Nat) :
    (run s rx m).Free ∨ ∃ n e src b, m = n + 1 + e ∧ e < 52080 ∧ startedAt s rx n = some (src, b) ∧
      Sending b e (run s rx m) := by
  induction m with
  | zero => exact .inl hs
  | succ m ih =>
      rcases ih with hfree | ⟨n, e, src, b, hm, he, hstart, hsending⟩
      · cases hstart : startedAt s rx m with
        | none => exact .inl (hfree.step hstart).2
        | some start =>
            obtain ⟨src, b⟩ := start
            exact .inr ⟨m, 0, src, b, rfl, by omega, hstart, sending_of_started hstart⟩
      · have hstep := hsending.step he (rx m)
        by_cases hlt : e + 1 < 52080
        · rw [if_pos hlt] at hstep
          exact .inr ⟨n, e + 1, src, b, by omega, hlt, hstart, hstep⟩
        · rw [if_neg hlt] at hstep
          exact .inl hstep

/-- **The line** is high but for the first nine cells of the bytes started. -/
theorem line_level (hs : s.Free) (m : Nat) :
    (run s rx (m + 1)).txOut = true ∨ ∃ n src b, n + 2604 ≤ m ∧ m < n + 52080 ∧
      startedAt s rx n = some (src, b) ∧ (run s rx (m + 1)).txOut = cell b ((m - (n + 2604)) / 5208) := by
  rcases free_or_sending rx hs (m + 1) with hfree | ⟨n, e, src, b, hm, he, hstart, hsending⟩
  · exact .inl hfree.out
  · by_cases hidle : e < 2604
    · exact .inl (by rw [hsending.out, level, if_pos hidle])
    · refine .inr ⟨n, src, b, by omega, by omega, hstart, ?_⟩
      rw [hsending.out, level, if_neg hidle, show e - 2604 = m - (n + 2604) by omega]

variable {rx}

/-- **The frame of a byte** begins 2604 cycles behind its start. -/
theorem frame_run (hs : s.Free) {n : Nat} {src : TxSource} {b : U8}
    (h : startedAt s rx n = some (src, b)) :
    FrameAt (fun m => (run s rx (m + 1)).txOut) 5208 (n + 2604) b := by
  intro k j hk hj
  show (run s rx (n + 2604 + k * 5208 + j + 1)).txOut = cell b k
  by_cases he : 2604 + k * 5208 + j < 52080
  · have hsending := sending_run h (2604 + k * 5208 + j) he
    have hcell : (2604 + k * 5208 + j - 2604) / 5208 = k := by omega
    rw [show n + 2604 + k * 5208 + j + 1 = n + 1 + (2604 + k * 5208 + j) by omega, hsending.out, level,
      if_neg (by omega), hcell]
  · -- the second half of the stop cell: the next byte may have been started, but is not on the line
    have h9 : k = 9 := by omega
    subst h9
    rw [cell_stop b (by omega)]
    rcases line_level rx hs (n + 2604 + 9 * 5208 + j) with hhigh | ⟨n', src', b', hlo, hhi, hstart, -⟩
    · exact hhigh
    · exfalso
      have hn : startedAt s rx n ≠ none := by rw [h]; simp
      have hn' : startedAt s rx n' ≠ none := by rw [hstart]; simp
      rcases Nat.lt_trichotomy n n' with hlt | heq | hgt
      · have := started_spaced hn hn' hlt
        omega
      · omega
      · omega

/-! ### How long a response waits. -/

/-- The bytes completed in the `len` cycles from `n` on. -/
def completions (s : UartConsole) (rx : Nat → Bool) (n len : Nat) : Nat :=
  ((List.range len).filterMap fun k => (run s rx (n + k)).completed (rx (n + k))).length

theorem completions_succ (n len : Nat) :
    completions s rx n (len + 1) = completions s rx n len
      + ((run s rx (n + len)).completed (rx (n + len))).toList.length := by
  rw [completions, completions, List.range_succ, List.filterMap_append, List.length_append]
  congr 1

/-- The cycles until the transmitter is free. -/
def Busy (s : UartConsole) (w : Nat) : Prop :=
  (w = 0 ∧ s.Free) ∨ ∃ e b, w + e = 52080 ∧ e < 52080 ∧ Sending b e s

/-- **One cycle of a waiting response**: the transmitter comes one cycle closer to being free, or it
takes a byte of the queue, or the receiver completes a byte that takes its place. -/
theorem Busy.step {s : UartConsole} (hs : s.Settled) {w : Nat} (h : Busy s w) (rx : Bool)
    (hwaits : s.queue ≠ []) :
    ∃ w', Busy (uartConsoleMachine s rx).1 w' ∧
      w' + 52081 * (uartConsoleMachine s rx).1.queue.length + 1
        ≤ w + 52081 * s.queue.length + 52081 * (s.completed rx).toList.length := by
  have hload : s.loaded rx = none := by
    cases hl : s.loaded rx with
    | none => rfl
    | some r => exact absurd (loaded_whole hs hl).1 hwaits
  have hkeep := queue_conserves hs rx
  rw [hload, Option.getD_none, List.append_nil] at hkeep
  rcases h with ⟨hw, hfree⟩ | ⟨e, b, hw, he, hsending⟩
  · cases hstart : s.started rx with
    | none => exact absurd (hfree.step hstart).1 hwaits
    | some start =>
        obtain ⟨src, b⟩ := start
        refine ⟨52080, .inr ⟨0, b, by omega, by omega, sending_of_started hstart⟩, ?_⟩
        cases src with
        | echo =>
            rw [echo_completed hs rx hstart, hkeep, hstart]
            simp [respPart]
            omega
        | resp =>
            rw [hkeep, hstart]
            simp [respPart]
            omega
  · have hnone : s.started rx = none := started_of_busy rx hsending.active
    have hsame : (uartConsoleMachine s rx).1.queue = s.queue := by
      rw [hkeep, hnone]
      rfl
    have hstep := hsending.step he rx
    rw [hsame]
    by_cases hlt : e + 1 < 52080
    · rw [if_pos hlt] at hstep
      exact ⟨w - 1, .inr ⟨e + 1, b, by omega, hlt, hstep⟩, by omega⟩
    · rw [if_neg hlt] at hstep
      exact ⟨0, .inl ⟨rfl, hstep⟩, by omega⟩

theorem Busy.run (hs : s.Settled) {n w : Nat} (h : Busy (run s rx n) w) :
    ∀ len, (∀ k, k ≤ len → (run s rx (n + k)).queue ≠ []) →
      ∃ w', Busy (run s rx (n + len)) w' ∧
        w' + 52081 * (run s rx (n + len)).queue.length + len
          ≤ w + 52081 * (run s rx n).queue.length + 52081 * completions s rx n len := by
  intro len
  induction len with
  | zero => intro _; exact ⟨w, h, Nat.le_add_right _ _⟩
  | succ len ih =>
      intro hwaits
      obtain ⟨w₁, hbusy, hle⟩ := ih (fun k hk => hwaits k (by omega))
      obtain ⟨w₂, hbusy', hle'⟩ :=
        hbusy.step (settled_run hs (n + len)) (rx (n + len)) (hwaits len (by omega))
      refine ⟨w₂, hbusy', ?_⟩
      rw [completions_succ]
      show w₂ + 52081 * (uartConsoleMachine (UartConsole.run s rx (n + len)) (rx (n + len))).1.queue.length
        + (len + 1) ≤ _
      omega

/-- **A response goes out**: it waits at most for its own bytes and for one byte more for each one
that the receiver completes meanwhile. -/
theorem queue_drains (hs : s.Settled) (hfree : s.Free) (n len : Nat)
    (hlen : 52081 * ((run s rx n).queue.length + completions s rx n len + 1) ≤ len) :
    ∃ k, k ≤ len ∧ (run s rx (n + k)).queue = [] := by
  by_contra hno
  have hwaits : ∀ k, k ≤ len → (run s rx (n + k)).queue ≠ [] := fun k hk heq => hno ⟨k, hk, heq⟩
  obtain ⟨w, hw, hbusy⟩ : ∃ w, w ≤ 52080 ∧ Busy (run s rx n) w := by
    rcases free_or_sending rx hfree n with hf | ⟨_, e, _, b, _, he, _, hsending⟩
    · exact ⟨0, by omega, .inl ⟨rfl, hf⟩⟩
    · exact ⟨52080 - e, by omega, .inr ⟨e, b, by omega, he, hsending⟩⟩
  obtain ⟨w', -, hle⟩ := hbusy.run hs len hwaits
  omega

end Runs

/-! ## §5. The console behind a reset. -/

theorem settled_reset (s : UartConsole) (rx : Bool) :
    (uartConsole s { rstN := false, rx }).1.Settled := ⟨rfl, Nat.zero_le 24⟩

theorem free_reset (s : UartConsole) (rx : Bool) : (uartConsole s { rstN := false, rx }).1.Free :=
  ⟨rfl, rfl⟩

/-- What starts is what the register `tx_active` rises with. -/
theorem started_eq (s : UartConsole) (rx : Bool) :
    (s.started rx).map Prod.snd =
      if !s.txActive && (uartConsoleMachine s rx).1.txActive then
        some (uartConsoleMachine s rx).1.txByte else none := by
  cases hactive : s.txActive with
  | true =>
      rw [started_of_busy rx hactive]
      rfl
  | false =>
      cases hstart : s.started rx with
      | none =>
          have hidle : (s.afterRx rx).txActive = false := (afterRx_tx s rx).1.trans hactive
          have hfree := (free_of_txStart hidle hstart).2.active
          rw [step_eq, hfree]
          rfl
      | some start =>
          obtain ⟨src, b⟩ := start
          have hsending := sending_of_started hstart
          rw [hsending.active, hsending.byte]
          rfl

/-- The texts that a response can have. -/
def responses : List (List U8) := [helpText, macText, ipText, statText, unknownText]

theorem response_mem (cmdSt : BitVec 7) : (response cmdSt).1 ∈ responses := by
  unfold response responses
  split_ifs <;> simp

theorem loaded_mem {s : UartConsole} {rx : Bool} {r : List U8} (h : s.loaded rx = some r) :
    r ∈ responses := by
  unfold loaded at h
  split at h
  · split at h
    · rw [← Option.some.inj h]
      exact response_mem s.cmdSt
    · cases h
  · cases h

end UartConsole

open UartConsole

/-- **What the console sends**, on every line behind a reset.

Each byte started is an echo of the byte completed in the same cycle or the next byte of the
response queue.  The bytes started from the queue, with those still in it, are the responses
loaded so far, each of them one of the five texts and loaded whole into an empty queue; and
however many bytes come in meanwhile, the queue runs empty once the transmitter has had time
for its bytes and for as many others as were completed.

Each byte started at cycle `n` stands on `tx` from cycle `n + 2604` on as ten cells of 5208 cycles
with a stop cell at the end, the frames do not overlap, and behind the stop cell and before the
first frame `tx` is high. -/
theorem uart_console_output (s₀ : UartConsole) (rx₀ : Bool) (rx : Nat → Bool) :
    let s := uartConsoleMachine.trace (uartConsole s₀ { rstN := false, rx := rx₀ }).1 rx
    let tx := fun n => (uartConsoleMachine (s n) (rx n)).2.tx
    let started := fun n => (s n).started (rx n)
    let completed := fun n => (s n).completed (rx n)
    let loaded := fun n => (s n).loaded (rx n)
    (∀ n, (started n).map Prod.snd =
      if !(s n).txActive && (s (n + 1)).txActive then some (s (n + 1)).txByte else none) ∧
    (∀ n b, started n = some (.echo, b) → completed n = some b) ∧
    (∀ n r, loaded n = some r → (s n).respRemain = 0 ∧ (s (n + 1)).queue = r ∧ r ∈ responses) ∧
    (∀ n, (List.range n).flatMap (fun k => respPart (started k)) ++ (s n).queue
      = (List.range n).flatMap fun k => (loaded k).getD []) ∧
    (∀ n len, 52081 * ((s n).queue.length
        + ((List.range len).filterMap fun k => completed (n + k)).length + 1) ≤ len →
      ∃ k, k ≤ len ∧ (s (n + k)).queue = []) ∧
    (∀ n src b, started n = some (src, b) → FrameAt tx 5208 (n + 2604) b) ∧
    (∀ n n', started n ≠ none → started n' ≠ none → n < n' → n + 52081 ≤ n') ∧
    ∀ m, (∀ n, n + 2604 ≤ m → m < n + 2604 + 52080 → started n = none) → tx m = true := by
  intro s tx started completed loaded
  have hsettled : (s 0).Settled := settled_reset s₀ rx₀
  have hfree : (s 0).Free := free_reset s₀ rx₀
  refine ⟨?_, ?_, ?_, ?_, ?_, ?_, ?_, ?_⟩
  · intro n
    exact started_eq (s n) (rx n)
  · intro n b h
    exact echo_completed (settled_run hsettled n) (rx n) h
  · intro n r h
    obtain ⟨hempty, hwhole⟩ := loaded_whole (settled_run hsettled n) h
    exact ⟨(queue_eq_nil_iff (s n)).mp hempty, hwhole, loaded_mem h⟩
  · intro n
    exact Machine.trace_conserves uartConsoleMachine (q := queue)
      (f := fun s rx => (s.loaded rx).getD []) (g := fun s rx => respPart (s.started rx))
      (fun k => queue_conserves (settled_run hsettled k) (rx k)) n
  · intro n len hlen
    exact queue_drains hsettled hfree n len hlen
  · intro n src b h
    exact frame_run hfree h
  · intro n n' hn hn' hlt
    exact started_spaced hn hn' hlt
  · intro m hquiet
    rcases line_level rx hfree m with hhigh | ⟨n, src, b, hlo, hhi, hstart, -⟩
    · exact hhigh
    · have hnone : startedAt (s 0) rx n = none := hquiet n hlo (by omega)
      rw [hnone] at hstart
      cases hstart

end GigabitTcp
