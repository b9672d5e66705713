/-
  GigabitTcp.Uart.Commands — which lines `uart_console` takes for a command.

  The console does not keep the line; `cmd_st` tells which beginning of a command the bytes so
  far end with.  At a byte that does not go on with it, `cmd_st` goes back to 0, and this byte
  is lost: a `?` in the middle of a command ends the one and does not begin the next.

  Main results:
    * `nextCmd_givesUp`             — the matcher sees every second one of the beginnings that stand
                                      back to back,
    * `answers_iff`                 — the lines that are answered by what they end with,
    * `uart_console_commands_iff`   — the same in every run of the console,
    * `uart_console_commands_twice` — a second `?` hides the command behind it.
-/
import GigabitTcp.Hw.Matcher
import GigabitTcp.Uart.Output
import GigabitTcp.Uart.Receivers
import Mathlib.Data.List.DropRight
import Mathlib.Data.List.Infix

namespace GigabitTcp

open Hw Hw.Matcher Hw.Serial

namespace UartConsole

/-! ## §1. Lines and commands. -/

/-- The bytes since the last Enter. -/
def sinceEnter (bytes : List U8) : List U8 := bytes.rtakeWhile fun b => !decide (b = 13 ∨ b = 10)

/-- `?help`, `?mac`, `?ip` and `?stat` with their responses. -/
def commands : List (List U8 × List U8) :=
  [([0x3F, 0x68, 0x65, 0x6C, 0x70], helpText), ([0x3F, 0x6D, 0x61, 0x63], macText),
    ([0x3F, 0x69, 0x70], ipText), ([0x3F, 0x73, 0x74, 0x61, 0x74], statText)]

/-- `r` is the response of the command that the line ends with, and `?` if there is none. -/
def Answers (line r : List U8) : Prop :=
  (∀ c ∈ commands, c.1 <:+ line → r = c.2) ∧ ((∀ c ∈ commands, ¬ c.1 <:+ line) → r = unknownText)

instance (line r : List U8) : Decidable (Answers line r) := inferInstanceAs (Decidable (_ ∧ _))

/-- A command or the beginning of one. -/
def IsBeginning (p : List U8) : Prop := p ≠ [] ∧ ∃ c ∈ commands, p <+: c.1

instance (p : List U8) : Decidable (IsBeginning p) := inferInstanceAs (Decidable (_ ∧ _))

/-- Directly before the command that closes the line there is an even number of commands and
beginnings of commands. -/
def FreshCommand (line : List U8) : Prop :=
  ∀ c ∈ commands, ∀ a, line = a ++ c.1 → ∃ n, BackToBack IsBeginning a n ∧ n % 2 = 0

theorem sinceEnter_snoc (bytes : List U8) (b : U8) :
    sinceEnter (bytes ++ [b]) = if b = 13 ∨ b = 10 then [] else sinceEnter bytes ++ [b] := by
  unfold sinceEnter
  rw [List.rtakeWhile_concat]
  by_cases h : b = 13 ∨ b = 10
  · rw [if_pos h, decide_eq_true h, Bool.not_true, if_neg Bool.false_ne_true]
  · rw [if_neg h, decide_eq_false h, Bool.not_false, if_pos rfl]

/-! ## §2. The matcher. -/

/-- The matcher on a line. -/
def matched (line : List U8) : BitVec 7 := line.foldl nextCmd 0

/-- The beginning that `cmd_st` stands for. -/
def spell (cmdSt : BitVec 7) : List U8 :=
  match cmdSt with
  | 1#7 => [0x3F]
  | 2#7 => [0x3F, 0x68]
  | 3#7 => [0x3F, 0x68, 0x65]
  | 4#7 => [0x3F, 0x68, 0x65, 0x6C]
  | 5#7 => [0x3F, 0x68, 0x65, 0x6C, 0x70]
  | 11#7 => [0x3F, 0x6D]
  | 12#7 => [0x3F, 0x6D, 0x61]
  | 13#7 => [0x3F, 0x6D, 0x61, 0x63]
  | 21#7 => [0x3F, 0x69]
  | 22#7 => [0x3F, 0x69, 0x70]
  | 31#7 => [0x3F, 0x73]
  | 32#7 => [0x3F, 0x73, 0x74]
  | 33#7 => [0x3F, 0x73, 0x74, 0x61]
  | 34#7 => [0x3F, 0x73, 0x74, 0x61, 0x74]
  | _ => []

/-- The steps of the matcher that do not end in 0. -/
def advances : List (BitVec 7 × U8 × BitVec 7) :=
  [(0, 0x3F, 1), (1, 0x68, 2), (1, 0x6D, 11), (1, 0x69, 21), (1, 0x73, 31), (2, 0x65, 3), (3, 0x6C, 4),
    (4, 0x70, 5), (11, 0x61, 12), (12, 0x63, 13), (21, 0x70, 22), (31, 0x74, 32), (32, 0x61, 33),
    (33, 0x74, 34)]

theorem mem_advances {q q' : BitVec 7} {b : U8} (h : nextCmd q b = q') (hne : q' ≠ 0) :
    (q, b, q') ∈ advances := by
  unfold nextCmd at h
  split at h
  all_goals first
    | exact absurd h.symm hne
    | (split_ifs at h <;> first | exact absurd h.symm hne | (subst_vars; decide))

/-- A byte that goes on with a beginning makes it longer. -/
theorem spell_nextCmd (q : BitVec 7) (b : U8) (h : nextCmd q b ≠ 0) :
    spell (nextCmd q b) = spell q ++ [b] ∧ IsBeginning (spell (nextCmd q b)) := by
  have hall : (advances.all fun e => spell e.2.2 = spell e.1 ++ [e.2.1] ∧ IsBeginning (spell e.2.2)) = true := by
    decide
  exact of_decide_eq_true (List.all_eq_true.mp hall _ (mem_advances rfl h))

/-- In the middle of a command a `?` is lost. -/
theorem nextCmd_question {q : BitVec 7} (h : q ≠ 0) : nextCmd q 0x3F = 0 := by
  unfold nextCmd
  split <;> simp_all

/-- The bytes of a beginning behind its `?` match nothing by themselves. -/
theorem beginning_cases {p : List U8} (h : IsBeginning p) :
    matched p ≠ 0 ∧ ∃ t, p = 0x3F :: t ∧ matched t = 0 := by
  obtain ⟨hne, c, hc, hp⟩ := h
  have hall : ∀ c ∈ commands, ∀ p ∈ c.1.inits, p ≠ [] →
      matched p ≠ 0 ∧ p = 0x3F :: p.tail ∧ matched p.tail = 0 := by decide
  obtain ⟨hin, hhead, htail⟩ := hall c hc p ((List.mem_inits p c.1).mpr hp) hne
  exact ⟨hin, p.tail, hhead, htail⟩

/-- Inside a beginning the matcher knows which one it is, and that it came to it from outside. -/
theorem matched_spelled (l : List U8) (h : matched l ≠ 0) :
    ∃ a, l = a ++ spell (matched l) ∧ IsBeginning (spell (matched l)) ∧ matched a = 0 := by
  induction l using List.reverseRecOn with
  | nil => exact absurd rfl h
  | append_singleton l b ih =>
      have hsnoc : matched (l ++ [b]) = nextCmd (matched l) b := by
        unfold matched
        rw [List.foldl_append]
        rfl
      rw [hsnoc] at h ⊢
      obtain ⟨hspell, hbegins⟩ := spell_nextCmd (matched l) b h
      by_cases hin : matched l = 0
      · refine ⟨l, ?_, hbegins, hin⟩
        rw [hspell, hin]
        rfl
      · obtain ⟨a, hl, -, ha⟩ := ih hin
        refine ⟨a, ?_, hbegins, ha⟩
        rw [hspell, ← List.append_assoc, ← hl]

/-- **The matcher gives up** at a mismatch without a second look at the byte. -/
theorem nextCmd_givesUp : GivesUp nextCmd 0 IsBeginning := by
  refine ⟨fun l hl => ?_, fun p hp => (beginning_cases hp).1, fun q p hq hp => ?_⟩
  · obtain ⟨a, hsplit, hbegins, ha⟩ := matched_spelled l hl
    exact ⟨a, _, hsplit, hbegins, ha⟩
  · obtain ⟨-, t, rfl, ht⟩ := beginning_cases hp
    rw [List.foldl_cons, nextCmd_question hq]
    exact ht

/-! ## §3. The response to a line. -/

/-- The response that Enter loads behind a line. -/
def lineResponse (line : List U8) : List U8 := (response (matched line)).1

/-- A response other than `?` belongs to a command that the line ends with. -/
theorem lineResponse_cases (line : List U8) : lineResponse line = unknownText ∨
    ∃ c ∈ commands, c.1 <:+ line := by
  have hends : ∀ q : BitVec 7, matched line = q → q ≠ 0 → spell q <:+ line := by
    rintro q rfl hq
    obtain ⟨a, hl, -, -⟩ := matched_spelled line hq
    exact ⟨a, hl.symm⟩
  have hcmd : ∀ q : BitVec 7, matched line = q → q ≠ 0 → (∃ c ∈ commands, c.1 = spell q) →
      ∃ c ∈ commands, c.1 <:+ line := by
    rintro q hq h0 ⟨c, hc, hspell⟩
    exact ⟨c, hc, hspell ▸ hends q hq h0⟩
  unfold lineResponse response
  split_ifs with h5 h13 h22 h34
  · exact .inr (hcmd 5 h5 (by decide) (by decide))
  · exact .inr (hcmd 13 h13 (by decide) (by decide))
  · exact .inr (hcmd 22 h22 (by decide) (by decide))
  · exact .inr (hcmd 34 h34 (by decide) (by decide))
  · exact .inl rfl

/-- The response behind a command: its own one if the matcher was outside, `?` otherwise. -/
theorem lineResponse_append {c : List U8 × List U8} (hc : c ∈ commands) (a : List U8) :
    lineResponse (a ++ c.1) = if matched a = 0 then c.2 else unknownText := by
  have hfresh : ∀ c ∈ commands, (response (matched c.1)).1 = c.2 := by decide
  have hbegins : ∀ c ∈ commands, IsBeginning c.1 := by decide
  have hsplit : matched (a ++ c.1) = c.1.foldl nextCmd (matched a) := List.foldl_append
  unfold lineResponse
  rw [hsplit]
  by_cases hin : matched a = 0
  · rw [if_pos hin, hin]
    exact hfresh c hc
  · rw [if_neg hin, nextCmd_givesUp.misses _ _ hin (hbegins c hc)]
    rfl

/-- **A line is answered** by the command that it ends with exactly if the command is fresh. -/
theorem answers_iff (line : List U8) : Answers line (lineResponse line) ↔ FreshCommand line := by
  have hneq : ∀ c ∈ commands, c.2 ≠ unknownText := by decide
  -- outside a beginning exactly behind an even number of them
  have heven : ∀ a, matched a = 0 ↔ ∃ n, BackToBack IsBeginning a n ∧ n % 2 = 0 := by
    intro a
    constructor
    · intro ha
      obtain ⟨n, hn⟩ := exists_backToBack (B := IsBeginning) (fun h => h.1 rfl) a
      refine ⟨n, hn, ?_⟩
      have hodd : ¬ n % 2 = 1 := fun h => (nextCmd_givesUp.odd_iff hn).mpr h ha
      omega
    · rintro ⟨n, hn, hmod⟩
      by_contra hin
      have hodd := (nextCmd_givesUp.odd_iff hn).mp hin
      omega
  constructor
  · rintro ⟨hcmd, -⟩ c hc a rfl
    rw [← heven]
    by_contra hin
    have hr := hcmd c hc (List.suffix_append a c.1)
    rw [lineResponse_append hc, if_neg hin] at hr
    exact hneq c hc hr.symm
  · intro hfresh
    constructor
    · intro c hc
      rintro ⟨a, rfl⟩
      rw [lineResponse_append hc, if_pos ((heven a).mpr (hfresh c hc a rfl))]
    · intro hnone
      rcases lineResponse_cases line with h | ⟨c, hc, hends⟩
      · exact h
      · exact absurd hends (hnone c hc)

/-! ## §4. Runs. -/

/-- One cycle of `cmd_st`. -/
theorem cmdSt_step (s : UartConsole) (rx : Bool) : (uartConsoleMachine s rx).1.cmdSt
    = (s.completed rx).elim s.cmdSt fun b => if b = 13 ∨ b = 10 then 0 else nextCmd s.cmdSt b := by
  obtain ⟨-, -, -, -, -, -, hcmd⟩ := txSide_rx (s.afterRx rx)
  rw [step_eq, hcmd, completed_eq]
  by_cases hstop : s.AtStop
  · rw [afterRx, rxSide_stop ((atStop_shiftIn s rx).mpr hstop), rxComplete_eq, if_pos hstop]
    rfl
  · obtain ⟨_, _, _, _, hquiet⟩ := rxSide_quiet (s := s.shiftIn rx) hstop
    rw [afterRx, hquiet, if_neg hstop]
    rfl

/-- In every run from reset `cmd_st` is the matcher on the line since the last Enter. -/
theorem cmdSt_after (rxs : List Bool) :
    (uartConsoleMachine.after {} rxs).cmdSt = matched (sinceEnter (received {} rxs)) := by
  refine Machine.Along.invariant_record (C := fun _ _ => True) (l := [])
    (P := fun (s : UartConsole) bytes => s.cmdSt = matched (sinceEnter bytes))
    (fun s bytes rx h _ => ?_) rxs rfl (Machine.Along.of_all (fun _ _ => trivial) _ _)
  rw [cmdSt_step, h]
  cases s.completed rx with
  | none =>
      rw [Option.toList_none, List.append_nil]
      rfl
  | some b =>
      rw [Option.toList_some, sinceEnter_snoc]
      by_cases henter : b = 13 ∨ b = 10
      · rw [if_pos henter]
        exact if_pos henter
      · rw [if_neg henter]
        refine (if_neg henter).trans ?_
        unfold matched
        rw [List.foldl_append]
        rfl

theorem settled_after (rxs : List Bool) : (uartConsoleMachine.after {} rxs).Settled :=
  Machine.invariant_after (fun _ rx h => h.step rx) (settled_reset {} true) rxs

/-- **Enter** with an empty response queue loads the response to the line. -/
theorem queue_after_enter {rxs : List Bool} {rx : Bool} {b : U8} (henter : b = 13 ∨ b = 10)
    (hdone : (uartConsoleMachine.after {} rxs).completed rx = some b)
    (hidle : (uartConsoleMachine.after {} rxs).respRemain = 0) :
    (uartConsoleMachine.after {} (rxs ++ [rx])).queue
      = lineResponse (sinceEnter (received {} rxs)) := by
  have hloaded : (uartConsoleMachine.after {} rxs).loaded rx
      = some (lineResponse (sinceEnter (received {} rxs))) := by
    unfold loaded lineResponse
    rw [hdone, ← cmdSt_after]
    exact if_pos ⟨henter, hidle⟩
  rw [Machine.after_append]
  exact (loaded_whole (settled_after rxs) hloaded).2

/-! ## §5. Lines on the wire. -/

/-- Before the first Enter there is no response. -/
theorem queue_of_no_enter (rxs : List Bool) (h : ∀ b ∈ received {} rxs, ¬ (b = 13 ∨ b = 10)) :
    (uartConsoleMachine.after {} rxs).respRemain = 0 := by
  have hrun : (uartConsoleMachine.after {} rxs).Settled ∧
      ((∀ b ∈ received {} rxs, ¬ (b = 13 ∨ b = 10)) → (uartConsoleMachine.after {} rxs).queue = []) := by
    refine Machine.Along.invariant_record (C := fun _ _ => True) (l := [])
      (P := fun (s : UartConsole) bytes => s.Settled ∧ ((∀ b ∈ bytes, ¬ (b = 13 ∨ b = 10)) → s.queue = []))
      (fun s bytes rx hs _ => ⟨hs.1.step rx, fun hbytes => ?_⟩) rxs
      ⟨settled_reset {} true, fun _ => rfl⟩ (Machine.Along.of_all (fun _ _ => trivial) _ _)
    have hempty := hs.2 fun b hb => hbytes b (List.mem_append_left _ hb)
    have hnone : s.loaded rx = none := by
      unfold loaded
      cases hdone : s.completed rx with
      | none => rfl
      | some b =>
          have hb := hbytes b (List.mem_append_right _ (by rw [hdone]; exact List.mem_singleton_self b))
          exact if_neg fun hload => hb hload.1
    have hkeep := queue_conserves hs.1 rx
    rw [hempty, hnone] at hkeep
    exact (List.append_eq_nil_iff.mp hkeep.symm).2
  exact (queue_eq_nil_iff _).mp (hrun.2 h)

/-- The wire with the bytes of a line and a carriage return. -/
def typed (bytes : List U8) : List Bool := line 5208 ((bytes ++ [13]).map fun b => (8, b))

/-- A line that is typed behind a reset is received, and its Enter finds an empty queue. -/
theorem typed_enter (bytes : List U8) (h : ∀ b ∈ bytes, ¬ (b = 13 ∨ b = 10)) :
    ∃ xs x ys, typed bytes = xs ++ x :: ys ∧ received {} xs = bytes ∧
      (uartConsoleMachine.after {} xs).completed x = some 13 ∧
      (uartConsoleMachine.after {} xs).respRemain = 0 := by
  have hready : Sampler.Ready { prev := true, busy := none } := ⟨rfl, rfl⟩
  have hsamples : ({} : UartConsole).Samples { prev := true, busy := none } := .idle rfl rfl rfl
  have hfits : Sampler.Fits uartConsoleRule 5208 :=
    uartRule_fits rfl (by decide) (by omega) (by omega)
  have hall : received {} (typed bytes) = bytes ++ [13] := by
    rw [received_eq hsamples, typed, (Sampler.line_received hfits _ hready).2, List.map_map]
    exact List.map_id _
  obtain ⟨xs, x, ys, hsplit, hline, hdone⟩ := Machine.exists_of_record_concat hall
  exact ⟨xs, x, ys, hsplit, hline, hdone, queue_of_no_enter xs (by rw [received, hline]; exact h)⟩

/-! ## §6. The responses. -/

/-- In every run from reset: an Enter that finds the response queue empty loads the response of
the command that the line ends with, or `?` if there is none, exactly if an even number of commands
and beginnings of commands stands directly before this command. -/
theorem uart_console_commands_iff (rxs : List Bool) (rx : Bool) (b : U8) (henter : b = 13 ∨ b = 10)
    (hdone : (uartConsoleMachine.after {} rxs).completed rx = some b)
    (hidle : (uartConsoleMachine.after {} rxs).respRemain = 0) :
    Answers (sinceEnter (received {} rxs)) (uartConsoleMachine.after {} (rxs ++ [rx])).queue
      ↔ FreshCommand (sinceEnter (received {} rxs)) := by
  rw [queue_after_enter henter hdone hidle]
  exact answers_iff _

/-- `?mac` behind a reset. -/
theorem uart_console_commands_mac : ∃ xs x ys, typed [0x3F, 0x6D, 0x61, 0x63] = xs ++ x :: ys ∧
    (uartConsoleMachine.after {} (xs ++ [x])).queue = macText := by
  obtain ⟨xs, x, ys, hsplit, hline, hdone, hidle⟩ := typed_enter [0x3F, 0x6D, 0x61, 0x63] (by decide)
  refine ⟨xs, x, ys, hsplit, ?_⟩
  have hiff := uart_console_commands_iff xs x 13 (.inl rfl) hdone hidle
  rw [hline] at hiff
  have hfresh : FreshCommand (sinceEnter [0x3F, 0x6D, 0x61, 0x63]) := by
    rw [← answers_iff]
    decide
  exact (hiff.mpr hfresh).1 ([0x3F, 0x6D, 0x61, 0x63], macText) (by decide) (by decide)

/-- `??help` behind a reset: the line ends with `?help` and is answered with `?`. -/
theorem uart_console_commands_twice :
    let bytes : List U8 := [0x3F, 0x3F, 0x68, 0x65, 0x6C, 0x70]
    ∃ xs x ys, typed bytes = xs ++ x :: ys ∧ sinceEnter (received {} xs) = bytes ∧
      (uartConsoleMachine.after {} xs).completed x = some 13 ∧
      (uartConsoleMachine.after {} xs).respRemain = 0 ∧
      ¬ Answers bytes (uartConsoleMachine.after {} (xs ++ [x])).queue := by
  intro bytes
  obtain ⟨xs, x, ys, hsplit, hline, hdone, hidle⟩ := typed_enter bytes (by decide)
  have hsince : sinceEnter (received {} xs) = bytes := by rw [hline]; decide
  refine ⟨xs, x, ys, hsplit, hsince, hdone, hidle, ?_⟩
  rw [queue_after_enter (.inl rfl) hdone hidle, hsince]
  decide

end UartConsole

end GigabitTcp
