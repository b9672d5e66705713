/-
  GigabitTcp.Uart.Typed — from the pin `rs232_rx` to the pin `rs232_tx`.

  A wave on the pin that carries typed bytes reaches the console and `net_stats` two cycles
  later.  Each byte is completed at its tenth instant; the console then starts its echo, and
  when the last four bytes are a command, `net_stats` takes it with the next edge.  The report
  waits long enough for the echo of the command to end.

  Main results:
    * `UartConsole.echoes_typed`    — a console that is given time echoes every byte,
    * `NetStats.go_typed`           — the commands that `net_stats` sees,
    * `typed_commands_reported`     — what a listener hears of the pin.
-/
import GigabitTcp.Uart.Listener
import GigabitTcp.Uart.Report
import GigabitTcp.Wrapper1gUart

namespace GigabitTcp

open Hw Hw.Serial

theorem eq_of_toList_eq {α : Type} {x y : Option α} (h : x.toList = y.toList) : x = y := by
  cases x <;> cases y <;> simp_all

/-! ## §1. The console. -/

namespace UartConsole

variable {s : UartConsole} {rx : Nat → Bool}

/-- The receiver of a run is the sampler on the wave. -/
theorem samples_run {a : Sampler} (h : s.Samples a) (rx : Nat → Bool) :
    ∀ n, (run s rx n).Samples ((Sampler.step uartConsoleRule).after a (Sampler.wave rx n)) := by
  intro n
  induction n with
  | zero => exact h
  | succ n ih =>
      rw [Sampler.wave_succ, Machine.after_append]
      exact (ih.step (rx n)).1

/-- A byte is completed at its tenth instant. -/
theorem completed_typed {a : Sampler} (h : s.Samples a) (ha : a.Ready) {P : Nat} (hlo : 4948 ≤ P)
    (hhi : P ≤ 5497) {typed : Nat → Option U8} (htyped : Carries P rx typed) (n : Nat) :
    (run s rx n).completed (rx n) = later 49476 typed n := by
  have hfits : Sampler.Fits uartConsoleRule P := uartRule_fits rfl (by simp) hlo hhi
  have hstep := ((samples_run h rx n).step (rx n)).2
  rw [Sampler.carried_step hfits htyped ha n] at hstep
  change _ = if n < 49476 then [] else (typed (n - 49476)).toList at hstep
  unfold later
  by_cases hlt : n < 49476
  · rw [if_pos hlt] at hstep ⊢
    exact Option.toList_eq_nil_iff.mp hstep
  · rw [if_neg hlt] at hstep ⊢
    exact eq_of_toList_eq hstep

/-- Without an Enter no response is ever loaded. -/
theorem queue_without_enter (hs : s.Settled) (hempty : s.queue = [])
    (henter : ∀ n b, (run s rx n).completed (rx n) = some b → b ≠ 13 ∧ b ≠ 10) :
    ∀ n, (run s rx n).queue = [] ∧ (run s rx n).loaded (rx n) = none := by
  have hload : ∀ n, (run s rx n).loaded (rx n) = none := by
    intro n
    unfold loaded
    cases hb : (run s rx n).completed (rx n) with
    | none => rfl
    | some b =>
        have hno : ¬ (b = 13 ∨ b = 10) := not_or.mpr (henter n b hb)
        exact if_neg fun h => hno h.1
  intro n
  refine ⟨?_, hload n⟩
  induction n with
  | zero => exact hempty
  | succ n ih =>
      have hsettled : (run s rx n).Settled := settled_run hs n
      have hkeep := queue_conserves hsettled (rx n)
      rw [ih, hload n] at hkeep
      exact (List.append_eq_nil_iff.mp hkeep.symm).2

/-- What is started then is the echo of the byte completed in the cycle. -/
theorem started_of_no_enter (hs : s.Settled) (hempty : s.queue = [])
    (henter : ∀ n b, (run s rx n).completed (rx n) = some b → b ≠ 13 ∧ b ≠ 10) (n : Nat) :
    startedAt s rx n = if (run s rx n).txActive then none
      else ((run s rx n).completed (rx n)).map fun b => (TxSource.echo, b) := by
  obtain ⟨hqueue, hload⟩ := queue_without_enter hs hempty henter n
  have hkeep := (queue_afterRx (run s rx n) (rx n)).1
  rw [hqueue, hload] at hkeep
  have hremain : ((run s rx n).afterRx (rx n)).respRemain = 0 := (queue_eq_nil_iff _).mp hkeep.symm
  obtain ⟨hpending, hhold⟩ := afterRx_pending (settled_run hs n) (rx n)
  show ((run s rx n).afterRx (rx n)).txStart = _
  unfold txStart
  rw [(afterRx_tx (run s rx n) (rx n)).1, hpending, hremain, completed_eq]
  cases hactive : (run s rx n).txActive with
  | true => rfl
  | false =>
      by_cases hstop : (run s rx n).AtStop
      · simp [hstop, hhold hstop hactive]
      · simp [hstop]

/-- **A console that is given time echoes every byte.** -/
theorem echoes_typed (hs : s.Settled) (hfree : s.Free) (hempty : s.queue = [])
    (henter : ∀ n b, (run s rx n).completed (rx n) = some b → b ≠ 13 ∧ b ≠ 10)
    (hslow : ∀ n k, (run s rx n).completed (rx n) ≠ none → 0 < k → k ≤ 52080 →
      (run s rx (n + k)).completed (rx (n + k)) = none) (n : Nat) :
    (startedAt s rx n).map Prod.snd = (run s rx n).completed (rx n) := by
  rw [started_of_no_enter hs hempty henter n]
  cases hactive : (run s rx n).txActive with
  | false => simp
  | true =>
      -- the byte on its way was completed too short a time ago for another one
      rcases free_or_sending rx hfree n with hidle | ⟨m, e, src, b, hn, he, hstart, -⟩
      · rw [hidle.active] at hactive
        cases hactive
      · rw [started_of_no_enter hs hempty henter m] at hstart
        have hone : (run s rx m).completed (rx m) ≠ none := by
          intro hnone
          rw [hnone] at hstart
          split at hstart
          · cases hstart
          · cases hstart
        have hnone := hslow m (1 + e) hone (by omega) (by omega)
        rw [show m + (1 + e) = n by omega] at hnone
        rw [hnone]
        rfl

end UartConsole

/-! ## §2. The commands of `net_stats`. -/

namespace NetStats

/-- `?net`, `?txd`, `?rxd` and `?raw` with their modes. -/
def commands : List (List U8 × BitVec 2) :=
  [([0x3F, 0x6E, 0x65, 0x74], 0), ([0x3F, 0x74, 0x78, 0x64], 1), ([0x3F, 0x72, 0x78, 0x64], 2),
    ([0x3F, 0x72, 0x61, 0x77], 3)]

/-- The mode of the command that the bytes so far end with. -/
def commandMode (bytes : List U8) : Option (BitVec 2) :=
  (commands.find? fun c => c.1 <:+ bytes).map Prod.snd

/-- Four bytes push everything else out of the history. -/
theorem pushByte_four (acc : U32) (a b c d : U8) :
    pushByte (pushByte (pushByte (pushByte acc a) b) c) d = packWord a b c d := by
  have ha : a.toNat < 256 := a.isLt
  have hb : b.toNat < 256 := b.isLt
  have hc : c.toNat < 256 := c.isLt
  have hd : d.toNat < 256 := d.isLt
  apply BitVec.eq_of_toNat_eq
  simp only [toNat_pushByte (show 8 ≤ 32 by omega), toNat_packWord]
  omega

/-- Fewer bytes leave a zero in front. -/
theorem foldl_pushByte_short {l : List U8} (h : l.length < 4) :
    (l.foldl pushByte (0 : U32)).toNat < 2 ^ 24 := by
  have hbound : ∀ (l : List U8) (acc : U32) (k : Nat), acc.toNat < 256 ^ k → k + l.length ≤ 3 →
      (l.foldl pushByte acc).toNat < 256 ^ (k + l.length) := by
    intro l
    induction l with
    | nil => intro acc k hacc _; exact hacc
    | cons b l ih =>
        intro acc k hacc hk
        rw [List.length_cons] at hk ⊢
        have hb : b.toNat < 256 := b.isLt
        have hpush : (pushByte acc b).toNat < 256 ^ (k + 1) := by
          rw [toNat_pushByte (by omega), Nat.pow_succ]
          exact Nat.lt_of_le_of_lt (Nat.mod_le _ _) (by omega)
        have hrest := ih (pushByte acc b) (k + 1) hpush (by omega)
        rwa [show k + (l.length + 1) = k + 1 + l.length by omega]
  have h0 := hbound l 0 0 (by simp) (by omega)
  have hpow : 256 ^ (0 + l.length) ≤ 256 ^ 3 := Nat.pow_le_pow_right (by omega) (by omega)
  exact Nat.lt_of_lt_of_le h0 hpow

/-- **The history tells the last four bytes.** -/
theorem history_iff {l : List U8} {a b c d : U8} (ha : a ≠ 0) :
    l.foldl pushByte (0 : U32) = packWord a b c d ↔ [a, b, c, d] <:+ l := by
  constructor
  · intro h
    by_cases hshort : l.length < 4
    · have hlt := foldl_pushByte_short hshort
      have hpos : 0 < a.toNat := by bv_omega
      rw [h, toNat_packWord] at hlt
      omega
    · obtain ⟨front, last, rfl, hlen⟩ : ∃ front last, l = front ++ last ∧ last.length = 4 :=
        ⟨l.take (l.length - 4), l.drop (l.length - 4), (List.take_append_drop _ l).symm, by simp; omega⟩
      obtain ⟨a', b', c', d', rfl⟩ := List.length_eq_four.mp hlen
      rw [List.foldl_append] at h
      have hword : packWord a' b' c' d' = packWord a b c d := (pushByte_four _ a' b' c' d').symm.trans h
      have h0 := congrArg (wordByte · 0) hword
      have h1 := congrArg (wordByte · 1) hword
      have h2 := congrArg (wordByte · 2) hword
      have h3 := congrArg (wordByte · 3) hword
      simp only [wordByte_packWord_zero, wordByte_packWord_one, wordByte_packWord_two,
        wordByte_packWord_three] at h0 h1 h2 h3
      rw [h0, h1, h2, h3]
      exact List.suffix_append front _
  · rintro ⟨front, rfl⟩
    rw [List.foldl_append]
    exact pushByte_four _ a b c d

variable {s : NetStats} {uartRx : Nat → Bool}

/-- The receiver of a run is the sampler on the wave. -/
theorem samples_run {a : Sampler} (h : s.Samples a) (uartRx : Nat → Bool) :
    ∀ n, (netStatsMachine.trace s uartRx n).Samples
      ((Sampler.step netStatsRule).after a (Sampler.wave uartRx n)) := by
  intro n
  induction n with
  | zero => exact h
  | succ n ih =>
      rw [Sampler.wave_succ, Machine.after_append]
      exact (ih.step (uartRx n)).1

/-- A byte is completed at its tenth instant. -/
theorem completed_typed {a : Sampler} (h : s.Samples a) (ha : a.Ready) {P : Nat} (hlo : 4948 ≤ P)
    (hhi : P ≤ 5497) {typed : Nat → Option U8} (htyped : Carries P uartRx typed) (n : Nat) :
    (netStatsMachine.trace s uartRx n).completed = later 49476 typed n := by
  have hfits : Sampler.Fits netStatsRule P := uartRule_fits rfl (by simp) hlo hhi
  have hstep := ((samples_run h uartRx n).step (uartRx n)).2
  rw [Sampler.carried_step hfits htyped ha n] at hstep
  change _ = if n < 49476 then [] else (typed (n - 49476)).toList at hstep
  unfold later
  by_cases hlt : n < 49476
  · rw [if_pos hlt] at hstep ⊢
    exact Option.toList_eq_nil_iff.mp hstep
  · rw [if_neg hlt] at hstep ⊢
    exact eq_of_toList_eq hstep

/-- The history behind the bytes completed so far. -/
theorem cmdHist_run (hempty : s.cmdHist = 0) (n : Nat) :
    (netStatsMachine.trace s uartRx n).cmdHist
      = ((List.range n).filterMap fun k => (netStatsMachine.trace s uartRx k).completed).foldl
          pushByte 0 := by
  induction n with
  | zero => exact hempty
  | succ n ih =>
      show ((netStatsMachine.trace s uartRx n).next (uartRx n)).cmdHist = _
      rw [cmdHist_next, ih, List.range_succ, List.filterMap_append, List.foldl_append]
      cases hc : (netStatsMachine.trace s uartRx n).completed <;> simp [hc]

/-- The pulses behind an edge tell a byte completed with it, and what the history is then. -/
theorem go_next (s : NetStats) (uartRx : Bool) :
    let t := s.next uartRx
    let done := s.completed.isSome
    t.netGo = (done && t.cmdHist == packWord 0x3F 0x6E 0x65 0x74) ∧
      t.txdGo = (done && t.cmdHist == packWord 0x3F 0x74 0x78 0x64) ∧
      t.rxdGo = (done && t.cmdHist == packWord 0x3F 0x72 0x78 0x64) ∧
      t.rawGo = (done && t.cmdHist == packWord 0x3F 0x72 0x61 0x77) := by
  intro t done
  by_cases hstop : s.AtStop
  · obtain ⟨hactive, hcnt, hbitn⟩ := hstop
    have hdone : done = true := by
      show s.completed.isSome = true
      rw [completed, if_pos ⟨hactive, hcnt, hbitn⟩]
      rfl
    have ht : t = { s.clear.byteDone with brxCnt := 2604 } := by
      show s.next uartRx = _
      rw [next_middle hactive hcnt, middle_stop (s := s.clear) hbitn]
    have hsees : ∀ (c : BitVec 24) (b : U8) (w : U32), w.toNat = c.toNat * 256 + b.toNat →
        (s.cmdHist.setWidth 24 == c && s.brxShift == b) = (pushByte s.cmdHist s.brxShift == w) := by
      intro c b w hw
      have hb : b.toNat < 256 := b.isLt
      have hx : s.brxShift.toNat < 256 := s.brxShift.isLt
      have hc : c.toNat < 2 ^ 24 := c.isLt
      have hpush := toNat_pushByte (show 8 ≤ 32 by omega) s.cmdHist s.brxShift
      rw [Bool.eq_iff_iff, Bool.and_eq_true, beq_iff_eq, beq_iff_eq, beq_iff_eq]
      constructor
      · rintro ⟨h, h'⟩
        have hval := congrArg BitVec.toNat h
        rw [BitVec.toNat_setWidth] at hval
        apply BitVec.eq_of_toNat_eq
        rw [hpush, h', hw]
        omega
      · intro h
        have hval := congrArg BitVec.toNat h
        rw [hpush, hw] at hval
        refine ⟨BitVec.eq_of_toNat_eq ?_, BitVec.eq_of_toNat_eq (by omega)⟩
        rw [BitVec.toNat_setWidth]
        omega
    rw [ht, hdone]
    simp only [Bool.true_and]
    exact ⟨hsees _ _ _ (by decide), hsees _ _ _ (by decide), hsees _ _ _ (by decide),
      hsees _ _ _ (by decide)⟩
  · have hdone : done = false := by
      show s.completed.isSome = false
      rw [completed, if_neg hstop]
      rfl
    have hclear : t.netGo = false ∧ t.txdGo = false ∧ t.rxdGo = false ∧ t.rawGo = false := by
      show (s.next uartRx).netGo = false ∧ (s.next uartRx).txdGo = false ∧
        (s.next uartRx).rxdGo = false ∧ (s.next uartRx).rawGo = false
      cases hactive : s.brxActive with
      | false =>
          cases uartRx with
          | false => rw [next_start hactive rfl]; exact ⟨rfl, rfl, rfl, rfl⟩
          | true => rw [next_idle hactive rfl]; exact ⟨rfl, rfl, rfl, rfl⟩
      | true =>
          by_cases hcnt : s.brxCnt = 2603
          · have hbitn : s.clear.brxBitn ≤ 8 := by
              have h : ¬ 8 < s.brxBitn := fun h => hstop ⟨hactive, hcnt, h⟩
              show s.brxBitn ≤ 8
              bv_omega
            rw [next_middle hactive hcnt, middle_bit hbitn]
            exact ⟨rfl, rfl, rfl, rfl⟩
          · rw [next_wait hactive hcnt]
            exact ⟨rfl, rfl, rfl, rfl⟩
    rw [hdone]
    exact hclear

/-- **The pulses of a run**: the cycle behind the last byte of a command. -/
theorem go_typed (hempty : s.cmdHist = 0) {typed : Nat → Option U8}
    (hcompleted : ∀ n, (netStatsMachine.trace s uartRx n).completed = typed n) (n : Nat) :
    let t := netStatsMachine.trace s uartRx (n + 1)
    let bytes := (List.range (n + 1)).filterMap typed
    let go := fun c => (typed n).isSome && decide (c <:+ bytes)
    t.netGo = go [0x3F, 0x6E, 0x65, 0x74] ∧ t.txdGo = go [0x3F, 0x74, 0x78, 0x64] ∧
      t.rxdGo = go [0x3F, 0x72, 0x78, 0x64] ∧ t.rawGo = go [0x3F, 0x72, 0x61, 0x77] := by
  intro t bytes go
  have hhist : t.cmdHist = bytes.foldl pushByte 0 := by
    have h : (netStatsMachine.trace s uartRx (n + 1)).cmdHist = _ := cmdHist_run hempty (n + 1)
    simp only [hcompleted] at h
    exact h
  have hpulse : ∀ a b c d : U8, a ≠ 0 →
      ((typed n).isSome && t.cmdHist == packWord a b c d) = go [a, b, c, d] := by
    intro a b c d ha
    rw [hhist]
    show _ = ((typed n).isSome && decide ([a, b, c, d] <:+ bytes))
    refine congrArg ((typed n).isSome && ·) ?_
    rw [Bool.eq_iff_iff, beq_iff_eq, decide_eq_true_eq]
    exact history_iff ha
  have hnext := go_next (netStatsMachine.trace s uartRx n) (uartRx n)
  rw [hcompleted n] at hnext
  obtain ⟨hnet, htxd, hrxd, hraw⟩ := hnext
  exact ⟨hnet.trans (hpulse _ _ _ _ (by decide)), htxd.trans (hpulse _ _ _ _ (by decide)),
    hrxd.trans (hpulse _ _ _ _ (by decide)), hraw.trans (hpulse _ _ _ _ (by decide))⟩

end NetStats

/-! ## §3. The board-clock side of the wrapper. -/

namespace Wrapper1gUart

section Runs

variable (inp : Nat → Wrapper1gUartIn)

/-- The registers at cycle `n` behind a reset. -/
abbrev run : Nat → Wrapper1gUart := wrapper1gUart.trace {} inp

/-- The line of both receivers. -/
abbrev lineAt (n : Nat) : Bool := (run inp n).uartRx

/-- The wires into `net_stats`. -/
abbrev statsAt (n : Nat) : NetStatsIn := (run inp n).statsIn (inp n)

variable {inp}

theorem brx_run (n : Nat) :
    (NetStatsModule.run {} (statsAt inp) n).brx = netStatsMachine.trace {} (lineAt inp) n := by
  induction n with
  | zero => rfl
  | succ n ih =>
      show (NetStatsModule.run {} (statsAt inp) n).brx.next (lineAt inp n) = _
      rw [ih]
      rfl

variable (hreset : ∀ n, (inp n).resetN = true)

include hreset

theorem run_succ (n : Nat) : run inp (n + 1) = (run inp n).next (inp n) := by
  show (wrapper1gUart (run inp n) (inp n)).1 = _
  rw [wrapper1gUart, if_pos (hreset n)]

/-- The console of a run is the console on the line. -/
theorem uart_run (n : Nat) : (run inp n).uart = UartConsole.run {} (lineAt inp) n := by
  induction n with
  | zero => rfl
  | succ n ih =>
      rw [run_succ hreset n]
      show (uartConsole (run inp n).uart { rstN := true, rx := lineAt inp n }).1 = _
      rw [ih]
      rfl

/-- So is `net_stats`. -/
theorem netStats_run (n : Nat) : (run inp n).netStats = NetStatsModule.run {} (statsAt inp) n := by
  induction n with
  | zero => rfl
  | succ n ih =>
      rw [run_succ hreset n]
      show (run inp n).netStats.next (statsAt inp n) = _
      rw [ih]
      rfl

/-- The synchronizer delays the pin by two cycles. -/
theorem lineAt_eq (n : Nat) :
    lineAt inp n = if n < 2 then true else (inp (n - 2)).rs232Rx := by
  have hstep : ∀ m, (run inp (m + 1)).uartSyncSr.getLsbD 0 = (inp m).rs232Rx ∧
      (run inp (m + 1)).uartSyncSr.getLsbD 1 = (run inp m).uartSyncSr.getLsbD 0 := by
    intro m
    rw [run_succ hreset m]
    simp [next, GigabitTcp.uartSyncSr]
  have hhigh : (3 : BitVec 2).getLsbD 0 = true ∧ (3 : BitVec 2).getLsbD 1 = true := by decide
  cases n with
  | zero => exact hhigh.2
  | succ n =>
      cases n with
      | zero => exact (hstep 0).2.trans hhigh.1
      | succ n =>
          rw [if_neg (by omega), show n + 1 + 1 - 2 = n by omega]
          exact (hstep (n + 1)).2.trans (hstep n).1

/-- The bytes on the line, two cycles behind the pin. -/
theorem carries_line {P : Nat} {typed : Nat → Option U8}
    (htyped : Carries P (fun n => (inp n).rs232Rx) typed) : Carries P (lineAt inp) (later 2 typed) := by
  have hdelay := htyped.delay 2
  have hline : lineAt inp = fun n => if n < 2 then true else (inp (n - 2)).rs232Rx := by
    funext n
    exact lineAt_eq hreset n
  rwa [← hline] at hdelay

/-- The console's line is an input of `net_stats`. -/
theorem uartTxIn_run :
    (fun n => (statsAt inp n).uartTxIn) = fun n => (UartConsole.run {} (lineAt inp) (n + 1)).txOut := by
  funext n
  show (uartConsole (run inp n).uart { rstN := true, rx := lineAt inp n }).2.tx = _
  rw [uart_run hreset n]
  rfl

theorem rs232Tx_run :
    (fun n => ((run inp n).out (inp n)).rs232Tx)
      = fun n => (NetStatsModule.run {} (statsAt inp) n).uartTxOut (statsAt inp n) := by
  funext n
  show (run inp n).netStats.uartTxOut (statsAt inp n) = _
  rw [netStats_run hreset n]

end Runs

end Wrapper1gUart

/-! ## §4. Someone types. -/

/-- The bytes typed up to cycle `m`. -/
def typedUpTo (typed : Nat → Option U8) (m : Nat) : List U8 := (List.range (m + 1)).filterMap typed

/-- The last byte of a command for `net_stats` is typed in cycle `m`. -/
def CommandAt (typed : Nat → Option U8) (m : Nat) (c : BitVec 2) : Prop :=
  typed m ≠ none ∧ NetStats.commandMode (typedUpTo typed m) = some c

/-- Someone who types no Enter, one byte in 52081 cycles at most, and waits for the report behind
each command. -/
structure Types (P : Nat) (pin : Nat → Bool) (typed : Nat → Option U8) : Prop where
  carries : Carries P pin typed
  noEnter : ∀ m b, typed m = some b → b ≠ 13 ∧ b ≠ 10
  slowly : ∀ m k, typed m ≠ none → 0 < k → k ≤ 52080 → typed (m + k) = none
  waits : ∀ m c k, CommandAt typed m c → 0 < k → k < 2874881 → typed (m + k) = none

namespace Wrapper1gUart

section Runs

variable {inp : Nat → Wrapper1gUartIn} (hreset : ∀ n, (inp n).resetN = true) {P : Nat} (hlo : 4948 ≤ P)
  (hhi : P ≤ 5497) {typed : Nat → Option U8} (htypes : Types P (fun n => (inp n).rs232Rx) typed)

include hreset hlo hhi htypes

/-- **The echo**: what the console shows is what was typed, 52082 cycles later. -/
theorem shownAt_typed : UartConsole.shownAt {} (lineAt inp) = later 52082 typed := by
  have hline := carries_line hreset htypes.carries
  let a : Sampler := { prev := true, busy := none }
  have hhigh : (3 : BitVec 2).getLsbD 0 = true := by decide
  have hsamples : ({} : UartConsole).Samples a := .idle hhigh rfl rfl
  have hcompleted : ∀ n, (UartConsole.run {} (lineAt inp) n).completed (lineAt inp n)
      = later 49478 typed n := by
    intro n
    rw [UartConsole.completed_typed hsamples ⟨rfl, rfl⟩ hlo hhi hline n, later_later]
  have hsettled : ({} : UartConsole).Settled := ⟨rfl, by decide⟩
  have hechoes : ∀ n, (UartConsole.startedAt {} (lineAt inp) n).map Prod.snd = later 49478 typed n := by
    intro n
    rw [UartConsole.echoes_typed hsettled ⟨rfl, rfl⟩ rfl ?_ ?_ n, hcompleted n]
    · intro m b hb
      rw [hcompleted m] at hb
      have hone : later 49478 typed m ≠ none := by rw [hb]; simp
      obtain ⟨hle, -⟩ := later_ne_none hone
      rw [later, if_neg (by omega)] at hb
      exact htypes.noEnter _ b hb
    · intro m k hm hk hlt
      rw [hcompleted m] at hm
      obtain ⟨hle, htyped⟩ := later_ne_none hm
      rw [hcompleted (m + k), later, if_neg (by omega), show m + k - 49478 = m - 49478 + k by omega]
      exact htypes.slowly _ k htyped hk hlt
  rw [UartConsole.shownAt, funext hechoes, later_later]

/-- **The commands that `net_stats` sees** are those typed, 49479 cycles later. -/
theorem go_run (n : Nat) :
    let t := (NetStatsModule.run {} (statsAt inp) (n + 1)).brx
    let go := fun c => (later 49478 typed n).isSome && decide (c <:+ typedUpTo typed (n - 49478))
    t.netGo = go [0x3F, 0x6E, 0x65, 0x74] ∧ t.txdGo = go [0x3F, 0x74, 0x78, 0x64] ∧
      t.rxdGo = go [0x3F, 0x72, 0x78, 0x64] ∧ t.rawGo = go [0x3F, 0x72, 0x61, 0x77] := by
  intro t go
  have hline := carries_line hreset htypes.carries
  let a : Sampler := { prev := true, busy := none }
  have hsamples : ({} : NetStats).Samples a := .idle rfl rfl
  have hcompleted : ∀ n, (netStatsMachine.trace {} (lineAt inp) n).completed = later 49478 typed n := by
    intro n
    rw [NetStats.completed_typed hsamples ⟨rfl, rfl⟩ hlo hhi hline n, later_later]
  have hgo := NetStats.go_typed rfl hcompleted n
  rw [← brx_run] at hgo
  have hbytes : ∀ c : List U8,
      ((later 49478 typed n).isSome && decide (c <:+ (List.range (n + 1)).filterMap (later 49478 typed)))
        = go c := by
    intro c
    show _ = ((later 49478 typed n).isSome && decide (c <:+ typedUpTo typed (n - 49478)))
    by_cases hlt : n < 49478
    · have hnone : later 49478 typed n = none := if_pos hlt
      simp only [hnone, Option.isSome_none, Bool.false_and]
    · rw [filterMap_later, show n + 1 - 49478 = n - 49478 + 1 by omega]
      rfl
  simp only [hbytes] at hgo
  exact hgo

/-- A command that is taken was typed. -/
theorem command_of_takes {n : Nat} (h : (NetStatsModule.run {} (statsAt inp) n).takes = true) :
    ∃ m c, n = m + 49479 ∧ CommandAt typed m c := by
  obtain ⟨hgo, -, -⟩ := NetStatsModule.takes_iff.mp h
  cases n with
  | zero => cases hgo
  | succ n =>
      obtain ⟨hnet, htxd, hrxd, hraw⟩ := go_run hreset hlo hhi htypes n
      unfold NetStatsModule.go at hgo
      rw [hnet, htxd, hrxd, hraw, ← Bool.and_or_distrib_left, ← Bool.and_or_distrib_left,
        ← Bool.and_or_distrib_left, Bool.and_eq_true] at hgo
      obtain ⟨hsome, hends⟩ := hgo
      have hone : later 49478 typed n ≠ none := by
        intro hnone
        rw [hnone] at hsome
        cases hsome
      obtain ⟨hle, htyped⟩ := later_ne_none hone
      have hmode : (NetStats.commandMode (typedUpTo typed (n - 49478))).isSome = true := by
        simp only [Bool.or_eq_true, decide_eq_true_eq] at hends
        unfold NetStats.commandMode
        rw [Option.isSome_map, List.find?_isSome]
        rcases hends with ((h | h) | h) | h
        · exact ⟨_, List.mem_cons_self, decide_eq_true h⟩
        · exact ⟨_, List.mem_cons_of_mem _ List.mem_cons_self, decide_eq_true h⟩
        · exact ⟨_, List.mem_cons_of_mem _ (List.mem_cons_of_mem _ List.mem_cons_self), decide_eq_true h⟩
        · exact ⟨_, List.mem_cons_of_mem _ (List.mem_cons_of_mem _ (List.mem_cons_of_mem _
            List.mem_cons_self)), decide_eq_true h⟩
      obtain ⟨c, hc⟩ := Option.isSome_iff_exists.mp hmode
      exact ⟨n - 49478, c, by omega, htyped, hc⟩

/-- A command that was typed is seen, with its mode. -/
theorem go_of_command {m n : Nat} {c : BitVec 2} (h : CommandAt typed m c) (hn : n = m + 49479) :
    let t := NetStatsModule.run {} (statsAt inp) n
    t.go = true ∧
      (if t.brx.netGo then 0 else if t.brx.txdGo then 1 else if t.brx.rxdGo then 2 else 3 : BitVec 2) = c := by
  obtain ⟨n, rfl⟩ : ∃ n', n = n' + 1 := ⟨m + 49478, by omega⟩
  have hback : n - 49478 = m := by omega
  have hsome : (later 49478 typed n).isSome = true := by
    rw [later, if_neg (by omega), hback]
    exact Option.isSome_iff_ne_none.mpr h.1
  obtain ⟨hnet, htxd, hrxd, hraw⟩ := go_run hreset hlo hhi htypes n
  intro t
  have hmode := h.2
  unfold NetStats.commandMode NetStats.commands at hmode
  simp only [hsome, hback, Bool.true_and] at hnet htxd hrxd hraw
  unfold NetStatsModule.go
  rw [hnet, htxd, hrxd, hraw]
  -- the first command that the bytes end with is the mode of the report
  by_cases h0 : [0x3F, 0x6E, 0x65, 0x74] <:+ typedUpTo typed m
  · simp only [List.find?_cons, h0, decide_true, Option.map_some, Option.some.injEq] at hmode
    rw [decide_eq_true h0]
    exact ⟨rfl, hmode⟩
  · by_cases h1 : [0x3F, 0x74, 0x78, 0x64] <:+ typedUpTo typed m
    · simp only [List.find?_cons, h0, h1, decide_true, decide_false, Option.map_some,
        Option.some.injEq] at hmode
      rw [decide_eq_false h0, decide_eq_true h1]
      exact ⟨rfl, hmode⟩
    · by_cases h2 : [0x3F, 0x72, 0x78, 0x64] <:+ typedUpTo typed m
      · simp only [List.find?_cons, h0, h1, h2, decide_true, decide_false, Option.map_some,
          Option.some.injEq] at hmode
        rw [decide_eq_false h0, decide_eq_false h1, decide_eq_true h2]
        exact ⟨rfl, hmode⟩
      · by_cases h3 : [0x3F, 0x72, 0x61, 0x77] <:+ typedUpTo typed m
        · simp only [List.find?_cons, h0, h1, h2, h3, decide_true, decide_false, Option.map_some,
            Option.some.injEq] at hmode
          rw [decide_eq_false h0, decide_eq_false h1, decide_eq_false h2, decide_eq_true h3]
          exact ⟨rfl, hmode⟩
        · simp only [List.find?_cons, h0, h1, h2, h3, decide_false, List.find?_nil, Option.map_none] at hmode
          cases hmode

/-- **Every command is taken**: the report of the last one is over. -/
theorem takes_of_command {m n : Nat} {c : BitVec 2} (h : CommandAt typed m c) (hn : n = m + 49479) :
    (NetStatsModule.run {} (statsAt inp) n).takes = true := by
  obtain ⟨hgo, -⟩ := go_of_command hreset hlo hhi htypes h hn
  rw [NetStatsModule.takes_iff]
  have hfree : NetStatsModule.Free ({} : NetStatsModule).report := ⟨rfl, rfl⟩
  rcases NetStatsModule.idle_or_answering (i := statsAt inp) hfree rfl n with
    ⟨hidle, hquiet⟩ | ⟨n', -, htakes, hlt, hend⟩
  · exact ⟨hgo, hidle.active, hquiet⟩
  · exfalso
    obtain ⟨m', c', hn', hcommand⟩ := command_of_takes hreset hlo hhi htypes htakes
    have hle := NetStatsModule.reportEnd_le {} (statsAt inp) n'
    have hnone := htypes.waits m' c' (m - m') hcommand (by omega) (by omega)
    rw [show m' + (m - m') = m by omega] at hnone
    exact h.1 hnone

/-- The echo stays clear of the reports. -/
theorem staysClear_typed : NetStatsModule.StaysClear {} (statsAt inp) (later 52082 typed) := by
  intro n k htakes hk
  obtain ⟨m, c, hn, hcommand⟩ := command_of_takes hreset hlo hhi htypes htakes
  obtain ⟨hle, htyped⟩ := later_ne_none hk
  have hend := NetStatsModule.reportEnd_le {} (statsAt inp) n
  by_cases hbefore : k - 52082 ≤ m
  · refine .inl ?_
    show k + 52080 ≤ n + 1000001
    omega
  · refine .inr ?_
    by_contra hearly
    have hnone := htypes.waits m c (k - 52082 - m) hcommand (by omega) (by omega)
    rw [show m + (k - 52082 - m) = k - 52082 by omega] at hnone
    exact htyped hnone

/-- Up to the report of the first command the pin shows the echo. -/
theorem echo_before_first {m n : Nat} {c : BitVec 2} (h : CommandAt typed m c) (hn : n = m + 49479)
    (hfirst : ∀ m' c', m' < m → ¬ CommandAt typed m' c') :
    (List.range (NetStatsModule.reportBegin n)).filterMap
        (fun k => (NetStatsModule.startsAt {} (statsAt inp) k).or (later 52082 typed k))
      = typedUpTo typed m := by
  have hfree : NetStatsModule.Free ({} : NetStatsModule).report := ⟨rfl, rfl⟩
  have hnone : ∀ k, k < NetStatsModule.reportBegin n →
      NetStatsModule.startsAt {} (statsAt inp) k = none := by
    intro k hk
    by_contra hstart
    have hactive := NetStatsModule.active_of_startsAt hstart (show 0 < 52080 by omega)
    obtain ⟨n', htakes, hlo', -⟩ := NetStatsModule.takes_of_active hfree rfl hactive
    obtain ⟨m', c', hn', hcommand⟩ := command_of_takes hreset hlo hhi htypes htakes
    unfold NetStatsModule.reportBegin at hk hlo'
    exact hfirst m' c' (by omega) hcommand
  have hecho : (List.range (NetStatsModule.reportBegin n)).filterMap
      (fun k => (NetStatsModule.startsAt {} (statsAt inp) k).or (later 52082 typed k))
        = (List.range (NetStatsModule.reportBegin n)).filterMap (later 52082 typed) := by
    refine List.filterMap_congr ?_
    intro k hk
    rw [hnone k (List.mem_range.mp hk)]
    rfl
  rw [hecho, filterMap_later, typedUpTo]
  refine filterMap_range_of_none (by unfold NetStatsModule.reportBegin; omega) ?_
  intro k hk hlt
  unfold NetStatsModule.reportBegin at hlt
  have := htypes.waits m c (k - m) h (by omega) (by omega)
  rwa [show m + (k - m) = k by omega] at this

end Runs

end Wrapper1gUart

open Wrapper1gUart NetStatsModule

/-- **From pin to pin.**  Someone types bytes at any rate up to the console's own, with cells from
4948 to 5497 cycles, no Enter among them, and waits for the report behind each of the commands
`?net`, `?txd`, `?rxd` and `?raw`.  Then every command is taken with its own mode, and a listener
at the other pin hears its report whole, with the counters and captures of the cycle in which it
was taken, if the wires that `?net` does not latch stand still meanwhile; up to the first report he
hears each byte typed, once and in order. -/
theorem typed_commands_reported (inp : Nat → Wrapper1gUartIn) (P : Nat) (typed : Nat → Option U8)
    (R : Rule) (a : Sampler) (m n : Nat) (c : BitVec 2) (w : NetStatsIn)
    (hreset : ∀ n, (inp n).resetN = true) (hlo : 4948 ≤ P) (hhi : P ≤ 5497)
    (htypes : Types P (fun n => (inp n).rs232Rx) typed) (hfits : Sampler.Fits R 5208) (ha : a.Ready)
    (hcommand : CommandAt typed m c) (hn : n = m + 49479)
    (hwires : c = 0 → ∀ k, reportBegin n ≤ k → k < n + 2874881 →
      SameWires ((wrapper1gUart.trace {} inp k).statsIn (inp k)) w) :
    let s := wrapper1gUart.trace {} inp
    let heard := fun N => Sampler.received R a (Sampler.wave (fun k => ((s k).out (inp k)).rs232Tx) N)
    let delay := R.first + 9 * R.gap
    let L := (s n).netStats.latch
    let first := reportBegin n
    (s n).netStats.takes = true ∧ L.mode = c ∧
      heard (first + 52080 * (reportText L w).length + delay) = heard (first + delay) ++ reportText L w ∧
      ((∀ m' c', m' < m → ¬ CommandAt typed m' c') → heard (first + delay) = typedUpTo typed m) := by
  intro s heard delay L first
  have htakes := takes_of_command hreset hlo hhi htypes hcommand hn
  have hstats : (s n).netStats = NetStatsModule.run {} (statsAt inp) n :=
    netStats_run hreset n
  have hfree : Free ({} : NetStatsModule).report := ⟨rfl, rfl⟩
  have hclear := staysClear_typed hreset hlo hhi htypes
  have hconsole : Carries 5208 (fun n => (statsAt inp n).uartTxIn) (later 52082 typed) := by
    rw [uartTxIn_run hreset, ← shownAt_typed hreset hlo hhi htypes]
    exact UartConsole.carries_run ⟨rfl, rfl⟩
  have hmode : L.mode = c := by
    show (s n).netStats.latch.mode = c
    rw [hstats, latch, if_pos htakes]
    exact (go_of_command hreset hlo hhi htypes hcommand hn).2
  have hlength : (reportText L w).length = L.txLast.toNat + 1 := by
    rw [← reportText_eq, List.length_map, List.length_range]
  have hheard : ∀ N, heard N = Sampler.received R a
      (Sampler.wave (fun k => (NetStatsModule.run {} (statsAt inp) k).uartTxOut (statsAt inp k)) N) := by
    intro N
    show Sampler.received R a (Sampler.wave (fun k => ((s k).out (inp k)).rs232Tx) N) = _
    rw [rs232Tx_run hreset]
  have hend : first + 52080 * (reportText L w).length = reportEnd {} (statsAt inp) n := by
    rw [hlength]
    show _ = reportBegin n
      + 52080 * ((NetStatsModule.run {} (statsAt inp) n).latch.txLast.toNat + 1)
    rw [← hstats]
  refine ⟨?_, hmode, ?_, ?_⟩
  · rw [hstats]
    exact htakes
  · rw [hheard, hheard, hend]
    have hreport := heard_report (w := w) hfits ha hfree rfl hconsole hclear htakes ?_
    · rw [← hstats] at hreport
      exact hreport
    · intro h0 k hk hlt
      rw [← hstats] at h0
      have hle := NetStatsModule.reportEnd_le {} (statsAt inp) n
      exact hwires (hmode.symm.trans h0) k hk (by omega)
  · intro hfirst
    have hcarries := carries_merged hfree rfl hconsole hclear
    have hbegin := Sampler.carried_received hfits hcarries ha (reportBegin n + (R.first + 9 * R.gap))
    rw [Nat.add_sub_cancel] at hbegin
    rw [hheard]
    refine hbegin.trans ?_
    exact echo_before_first hreset hlo hhi htypes hcommand hn hfirst

/-! ### `?net`, typed at 833 bytes a second. -/

/-- One byte every 60000 cycles. -/
def typedNet (n : Nat) : Option U8 :=
  if n % 60000 = 0 then ([0x3F, 0x6E, 0x65, 0x74] : List U8)[n / 60000]? else none

/-- The board at rest but for the pin. -/
def typedNetIn (n : Nat) : Wrapper1gUartIn :=
  { resetN := true, rs232Rx := shown 5208 typedNet n, rxTgl := false, txTgl := false, delayReady := true
    mmcmRefLocked := true, txCap := 0, rxCap := 0, rawCap := 0, rxOcc := 0, txOcc := 0
    netRxReady := true }

theorem typedNet_ne_none {n : Nat} (h : typedNet n ≠ none) : n % 60000 = 0 ∧ n / 60000 < 4 := by
  unfold typedNet at h
  by_cases hmod : n % 60000 = 0
  · rw [if_pos hmod] at h
    refine ⟨hmod, ?_⟩
    by_contra hge
    exact h (List.getElem?_eq_none (by simpa using hge))
  · rw [if_neg hmod] at h
    exact absurd rfl h

/-- The bytes typed up to the `j`-th one. -/
theorem typedUpTo_typedNet {j : Nat} (hj : j < 4) :
    typedUpTo typedNet (60000 * j)
      = (List.range (j + 1)).map fun k => ([0x3F, 0x6E, 0x65, 0x74] : List U8).getD k 0 := by
  have hstart : ∀ k, k < j + 1 →
      typedNet (0 + 60000 * k) = some (([0x3F, 0x6E, 0x65, 0x74] : List U8).getD k 0) := by
    intro k hk
    have hmod : (0 + 60000 * k) % 60000 = 0 := by omega
    have hdiv : (0 + 60000 * k) / 60000 = k := by omega
    have hlt : k < ([0x3F, 0x6E, 0x65, 0x74] : List U8).length := by
      show k < 4
      omega
    rw [typedNet, if_pos hmod, hdiv, List.getD_eq_getElem?_getD, List.getElem?_eq_getElem hlt]
    rfl
  have hnone : ∀ k l, k < j + 1 → 0 < l → l < 60000 → typedNet (0 + 60000 * k + l) = none := by
    intro k l _ hpos hl
    by_contra hne
    have := (typedNet_ne_none hne).1
    omega
  have hall := filterMap_range_periods (b := 0) (j + 1) hstart hnone (by omega)
  have hlast : (List.range (0 + 60000 * (j + 1))).filterMap typedNet
      = (List.range (60000 * j + 1)).filterMap typedNet := by
    refine filterMap_range_of_none (by omega) ?_
    intro k hlo hhi
    have := hnone j (k - 60000 * j) (by omega) (by omega) (by omega)
    rwa [show 0 + 60000 * j + (k - 60000 * j) = k by omega] at this
  rw [typedUpTo, ← hlast, hall]
  rfl

/-- The command is complete with its fourth byte, and not before. -/
theorem commandAt_typedNet {m : Nat} {c : BitVec 2} (h : CommandAt typedNet m c) : m = 60000 * 3 := by
  obtain ⟨hone, hmode⟩ := h
  obtain ⟨hmod, hlt⟩ := typedNet_ne_none hone
  obtain ⟨j, rfl⟩ : ∃ j, m = 60000 * j := ⟨m / 60000, by omega⟩
  have hj : j < 4 := by omega
  rw [typedUpTo_typedNet hj] at hmode
  have hearly : ∀ j, j < 3 → NetStats.commandMode
      ((List.range (j + 1)).map fun k => ([0x3F, 0x6E, 0x65, 0x74] : List U8).getD k 0) = none := by
    decide
  by_contra hne
  rw [hearly j (by omega)] at hmode
  cases hmode

theorem types_typedNet : Types 5208 (fun n => (typedNetIn n).rs232Rx) typedNet := by
  have hapart : ∀ m k, typedNet m ≠ none → 0 < k → k < 60000 → typedNet (m + k) = none := by
    intro m k hm hpos hk
    by_contra hne
    have h := (typedNet_ne_none hm).1
    have h' := (typedNet_ne_none hne).1
    omega
  have hshown : Carries 5208 (shown 5208 typedNet) typedNet := by
    refine carries_shown ?_
    intro m k hm hpos hk
    exact hapart m k hm hpos (by omega)
  have hpin : (fun n => (typedNetIn n).rs232Rx) = shown 5208 typedNet := by
    funext n
    simp only [typedNetIn]
  rw [hpin]
  refine ⟨hshown, ?_, fun m k hm hpos hk => hapart m k hm hpos (by omega), ?_⟩
  · intro m b hb
    have hmem : b ∈ ([0x3F, 0x6E, 0x65, 0x74] : List U8) := by
      unfold typedNet at hb
      by_cases hmod : m % 60000 = 0
      · rw [if_pos hmod] at hb
        exact List.mem_of_getElem? hb
      · rw [if_neg hmod] at hb
        cases hb
    simp only [List.mem_cons, List.not_mem_nil, or_false] at hmem
    rcases hmem with rfl | rfl | rfl | rfl <;> decide
  · intro m c k hcommand hpos _
    have hm := commandAt_typedNet hcommand
    by_contra hne
    have := typedNet_ne_none hne
    omega

/-- The listener hears the four bytes and the report of the counters. -/
theorem typed_commands_reported_net :
    let s := wrapper1gUart.trace {} typedNetIn
    let heard := fun N => Sampler.received uartConsoleRule { prev := true, busy := none }
      (Sampler.wave (fun k => ((s k).out (typedNetIn k)).rs232Tx) N)
    ∃ n L, L = (s n).netStats.latch ∧ L.mode = 0 ∧
      heard (reportBegin n + (2604 + 9 * 5208)) = [0x3F, 0x6E, 0x65, 0x74] ∧
      heard (reportBegin n + 52080 * (reportText L ((s 0).statsIn (typedNetIn 0))).length + (2604 + 9 * 5208))
        = heard (reportBegin n + (2604 + 9 * 5208)) ++ reportText L ((s 0).statsIn (typedNetIn 0)) := by
  intro s heard
  have hbytes : typedUpTo typedNet (60000 * 3) = [0x3F, 0x6E, 0x65, 0x74] :=
    typedUpTo_typedNet (by omega)
  have hcommand : CommandAt typedNet (60000 * 3) 0 := by
    refine ⟨by decide, ?_⟩
    rw [hbytes]
    decide
  obtain ⟨n, hn⟩ : ∃ n, n = 60000 * 3 + 49479 := ⟨_, rfl⟩
  have h := typed_commands_reported typedNetIn 5208 typedNet uartConsoleRule
    { prev := true, busy := none } (60000 * 3) n 0 ((s 0).statsIn (typedNetIn 0)) (fun _ => rfl) (by omega)
    (by omega) types_typedNet UartConsole.uartConsoleRule_fits ⟨rfl, rfl⟩ hcommand hn
    (fun _ k _ _ => ⟨rfl, rfl, rfl⟩)
  obtain ⟨-, hmode, hreport, hecho⟩ := h
  refine ⟨n, _, rfl, hmode, ?_, hreport⟩
  rw [← hbytes]
  refine hecho ?_
  intro m' c' hlt h'
  have := commandAt_typedNet h'
  omega

end GigabitTcp
