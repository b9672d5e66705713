/-
  GigabitTcp.Uart.Listener — who listens to `uart_console` hears what it starts.

  The console's line is an endless wave that carries the bytes started, each from 2604 cycles
  behind its start on.  Every receiver whose ten instants fall into their cells of 5208 cycles
  has therefore received, at each cycle, exactly the bytes started long enough ago, in order:
  nothing is lost, doubled or made up on the line, whatever comes in meanwhile.

  Main results:
    * `UartConsole.carries_run`  — the line of a run as a wave that carries bytes,
    * `uart_console_heard`       — a listener's record, cycle by cycle,
    * `uart_consoles_linked`     — one console's line into another console.
-/
import GigabitTcp.Uart.Output
import GigabitTcp.Uart.Receivers

namespace GigabitTcp

open Hw Hw.Serial

namespace UartConsole

section Runs

variable (s : UartConsole) (rx : Nat → Bool)

/-- The byte whose start cell begins in cycle `n`: it was started 2604 cycles ago. -/
def shownAt : Nat → Option U8 := later 2604 fun k => (startedAt s rx k).map Prod.snd

variable {s rx}

theorem shownAt_ne_none {n : Nat} (h : shownAt s rx n ≠ none) :
    2604 ≤ n ∧ startedAt s rx (n - 2604) ≠ none := by
  obtain ⟨hle, hstart⟩ := later_ne_none h
  refine ⟨hle, ?_⟩
  intro hnone
  rw [hnone] at hstart
  exact hstart rfl

/-- **The line of a run** carries the bytes started, one at a time, and is high between them. -/
theorem carries_run (hfree : s.Free) :
    Carries 5208 (fun m => (run s rx (m + 1)).txOut) (shownAt s rx) := by
  refine ⟨?_, ?_, ?_⟩
  · intro n b hb
    have hone : shownAt s rx n ≠ none := by rw [hb]; simp
    obtain ⟨hle, -⟩ := shownAt_ne_none hone
    rw [shownAt, later, if_neg (by omega), Option.map_eq_some_iff] at hb
    obtain ⟨⟨src, b'⟩, hstart, rfl⟩ := hb
    have hframe := frame_run hfree hstart
    rwa [Nat.sub_add_cancel hle] at hframe
  · intro n k hn hk hlt
    obtain ⟨hle, hstart⟩ := shownAt_ne_none hn
    by_contra hother
    obtain ⟨-, hstart'⟩ := shownAt_ne_none hother
    have hfar := started_spaced hstart hstart' (by omega)
    omega
  · intro n hquiet
    rcases line_level rx hfree n with hhigh | ⟨m, src, b, hlo, hhi, hstart, -⟩
    · exact hhigh
    · have hnone := hquiet (m + 2604) hlo (by omega)
      rw [shownAt, later_add, hstart] at hnone
      cases hnone

end Runs

/-- What a listener has received of the console's line, behind a reset. -/
theorem heard_run (s₀ : UartConsole) (rx₀ : Bool) (rx : Nat → Bool) {R : Rule}
    (hfits : Sampler.Fits R 5208) {a : Sampler} (ha : a.Ready) (n : Nat) :
    let s := uartConsoleMachine.trace (uartConsole s₀ { rstN := false, rx := rx₀ }).1 rx
    let tx := fun n => (uartConsoleMachine (s n) (rx n)).2.tx
    Sampler.received R a ((List.range n).map tx)
      = (List.range (n - (2604 + (R.first + 9 * R.gap)))).filterMap
          fun k => ((s k).started (rx k)).map Prod.snd := by
  intro s tx
  have hcarries : Carries 5208 tx (shownAt (s 0) rx) := carries_run (free_reset s₀ rx₀)
  have hheard := Sampler.carried_received hfits hcarries ha n
  have hbytes := filterMap_later 2604 (fun k => (startedAt (s 0) rx k).map Prod.snd)
    (n - (R.first + 9 * R.gap))
  rw [show n - (R.first + 9 * R.gap) - 2604 = n - (2604 + (R.first + 9 * R.gap)) by omega] at hbytes
  exact hheard.trans hbytes

/-- The console's own cell length suits its receiver. -/
theorem uartConsoleRule_fits : Sampler.Fits uartConsoleRule 5208 :=
  uartRule_fits rfl (by simp) (by omega) (by omega)

end UartConsole

open UartConsole

/-- **Who listens to the console hears what it starts**, on every line behind a reset.

A receiver whose ten instants fall into their own cells of 5208 cycles has received, behind `n`
cycles, the bytes that the console started up to the time from a start to the tenth instant
before, in the order of their starts and each of them once. -/
theorem uart_console_heard (s₀ : UartConsole) (rx₀ : Bool) (rx : Nat → Bool) (R : Rule)
    (hfits : Sampler.Fits R 5208) (a : Sampler) (ha : a.Ready) (n : Nat) :
    let s := uartConsoleMachine.trace (uartConsole s₀ { rstN := false, rx := rx₀ }).1 rx
    let tx := fun n => (uartConsoleMachine (s n) (rx n)).2.tx
    Sampler.received R a ((List.range n).map tx)
      = (List.range (n - (2604 + (R.first + 9 * R.gap)))).filterMap
          fun k => ((s k).started (rx k)).map Prod.snd := by
  exact heard_run s₀ rx₀ rx hfits ha n

/-- The receiver of `net_stats`, on the console's line while the pin is high. -/
theorem uart_console_heard_net_stats :
    let s := uartConsoleMachine.trace (uartConsole {} { rstN := false, rx := true }).1 fun _ => true
    let tx := fun n => (uartConsoleMachine (s n) true).2.tx
    Sampler.received netStatsRule { prev := true, busy := none } ((List.range 100000).map tx)
      = (List.range (100000 - (2604 + (2604 + 9 * 5208)))).filterMap
          fun k => ((s k).started true).map Prod.snd :=
  uart_console_heard {} true (fun _ => true) netStatsRule
    (uartRule_fits rfl (by simp) (by omega) (by omega)) { prev := true, busy := none } ⟨rfl, rfl⟩ 100000

/-- **One console's line into another console**, both behind a reset.  The second one completes, byte by
byte, what the first one starts, 52080 cycles later, whatever its own queue and transmitter do
meanwhile. -/
theorem uart_consoles_linked (s₀ t₀ : UartConsole) (rx₀ : Bool) (rx : Nat → Bool) (n : Nat) :
    let s := uartConsoleMachine.trace (uartConsole s₀ { rstN := false, rx := rx₀ }).1 rx
    let tx := fun n => (uartConsoleMachine (s n) (rx n)).2.tx
    (uartConsole t₀ { rstN := false, rx := true }).1.received ((List.range n).map tx)
      = (List.range (n - 52080)).filterMap fun k => ((s k).started (rx k)).map Prod.snd := by
  intro s tx
  let a : Sampler := { prev := true, busy := none }
  have ha : a.Ready := ⟨rfl, rfl⟩
  have hsync : (3 : BitVec 2).getLsbD 0 = true := by decide
  rw [UartConsole.received_eq (a := a) (.idle hsync rfl rfl)]
  exact heard_run s₀ rx₀ rx uartConsoleRule_fits ha n

end GigabitTcp
