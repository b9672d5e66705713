/-
  GigabitTcp.Wrapper1gUart — the board-clock side of `wrapper_1g.v`.

  One step is one edge of `fpga_gclk`.  The pin `rs232_rx` goes through `uart_sync_sr` into the
  console and into `net_stats`; the console's line goes through `net_stats` to the pin
  `rs232_tx`.  What comes from `gmii_clk` is an input, sampled at the edge.
-/
import GigabitTcp.NetStatsReport
import GigabitTcp.UartConsole
import GigabitTcp.Wrapper1g

namespace GigabitTcp

open Hw

/-- `uart_sync_sr`, `uart_console`, `net_stats` and `rx_act_cnt`. -/
structure Wrapper1gUart where
  uartSyncSr : BitVec 2 := 3
  uart : UartConsole := {}
  netStats : NetStatsModule := {}
  rxActCnt : BitVec 27 := 0
  deriving Repr, DecidableEq

/-- The pin, and the wires from the other clock domain. -/
structure Wrapper1gUartIn where
  resetN : Bool
  rs232Rx : Bool
  rxTgl : Bool
  txTgl : Bool
  delayReady : Bool
  mmcmRefLocked : Bool
  txCap : BitVec 128
  rxCap : BitVec 64
  rawCap : BitVec 128
  rxOcc : BitVec 12
  txOcc : BitVec 11
  netRxReady : Bool
  deriving Repr, DecidableEq

structure Wrapper1gUartOut where
  rs232Tx : Bool
  ledD0 : Bool
  ledD1 : Bool
  ledD2 : Bool
  ledD3 : Bool
  deriving Repr, DecidableEq

namespace Wrapper1gUart

variable (s : Wrapper1gUart) (i : Wrapper1gUartIn)

/-- The line behind the synchronizer. -/
def uartRx : Bool := s.uartSyncSr.getLsbD 1

/-- The console, which is called once in each cycle. -/
def console : UartConsole × UartConsoleOut := uartConsole s.uart { rstN := true, rx := s.uartRx }

/-- The wires into `net_stats`. -/
def statsIn : NetStatsIn :=
  { uartRx := s.uartRx, uartTxIn := s.console.2.tx, rxToggle := i.rxTgl, txToggle := i.txTgl
    statLock := i.delayReady && i.mmcmRefLocked, txCap := i.txCap, rxCap := i.rxCap, rawCap := i.rawCap
    dbg0 := i.rxOcc.setWidth 8 ++ i.txOcc.setWidth 8, dbg1 := i.netRxReady }

/-- The registers behind the edge. -/
def next : Wrapper1gUart :=
  { uartSyncSr := (GigabitTcp.uartSyncSr s.uartSyncSr i.rs232Rx).1
    uart := s.console.1
    netStats := s.netStats.next (s.statsIn i)
    rxActCnt := if s.console.2.rxDone then 100000000
      else if 0 < s.rxActCnt then s.rxActCnt - 1 else s.rxActCnt }

/-- The pin `rs232_tx` and the LEDs. -/
def out : Wrapper1gUartOut :=
  { rs232Tx := s.netStats.uartTxOut (s.statsIn i), ledD0 := 0 < s.rxActCnt
    ledD1 := s.console.2.respActive, ledD2 := i.delayReady, ledD3 := i.mmcmRefLocked }

end Wrapper1gUart

/-- The board-clock side, reset included; the reset is asynchronous. -/
def wrapper1gUart : Machine Wrapper1gUart Wrapper1gUartIn Wrapper1gUartOut :=
  fun s i => if i.resetN then (s.next i, s.out i) else ({}, Wrapper1gUart.out {} i)

end GigabitTcp
