/-
  GigabitTcp.Wrapper1gStats — what `wrapper_1g.v` records for `net_stats`, and both clocks.

  The toggles and the captures run on `gmii_clk` and look at the wires of the bridges before the
  edge; the captured bytes are memories that no reset clears.  `net_stats` reads all of them
  with its own clock: the two clocks have no order, so a run of the board is a sequence of edges
  of either one.
-/
import GigabitTcp.Wrapper1gUart
import GigabitTcp.Hw.Mem

namespace GigabitTcp

open Hw

/-! ## §1. Captures. -/

/-- A capture of the head of a frame: `*_run`, `*_cap`, `*_cap_done`. -/
structure FrameCapture (w : Nat) where
  run : BitVec w
  cap : Mem U8
  done : Bool

/-- The registers behind the edge.  The counter stops at `sat`, there are `n` bytes of memory,
and a run that ends at `freeze` or behind freezes the capture. -/
def FrameCapture.next {w : Nat} (n : Nat) (sat freeze : BitVec w) (s : FrameCapture w)
    (byte : Option U8) : FrameCapture w :=
  if s.done then s
  else
    match byte with
    | none => { s with run := 0, done := freeze ≤ s.run }
    | some b =>
        { s with
          run := if s.run < sat then s.run + 1 else s.run
          cap := if s.run.toNat < n then s.cap.set s.run.toNat b else s.cap }

/-- The capture of the IP's stream: `raw_n`, `raw_cap`, `raw_done`. -/
structure RawCapture where
  rawN : BitVec 5
  rawCap : Mem U8
  rawDone : Bool

def RawCapture.next (s : RawCapture) (netTxValid : Bool) (netTxData : U16) : RawCapture :=
  if s.rawDone then s
  else if netTxValid ∧ s.rawN ≤ 15 then
    { rawN := s.rawN + 1, rawCap := s.rawCap.set s.rawN.toNat (netTxData.setWidth 8)
      rawDone := s.rawN == 15 }
  else s

/-- `n` bytes of memory as one port of `net_stats`, byte 0 in the lowest bits. -/
def capPort (n : Nat) (cap : Mem U8) : BitVec (8 * n) :=
  ((List.range n).map cap).reverse.foldl pushByte 0

/-! ## §2. The registers on `gmii_clk`. -/

/-- `rx_tgl`, `tx_tgl`, `e_txen_d1` and the captures. -/
structure Wrapper1gStats where
  rxTgl : Bool
  txTgl : Bool
  eTxenD1 : Bool
  raw : RawCapture
  tx : FrameCapture 5
  rx : FrameCapture 4

namespace Wrapper1gStats

variable (s : Wrapper1gStats)

/-- The reset values; the memories are not reset. -/
def reset : Wrapper1gStats :=
  { rxTgl := false, txTgl := false, eTxenD1 := false
    raw := { rawN := 0, rawCap := s.raw.rawCap, rawDone := false }
    tx := { run := 0, cap := s.tx.cap, done := false }
    rx := { run := 0, cap := s.rx.cap, done := false } }

/-- The registers behind the edge; `w` are those of the bridges before it. -/
def next (w : Wrapper1g) (i : Wrapper1gIn) : Wrapper1gStats :=
  { rxTgl := s.rxTgl ^^ (w.rx.rxDvD1 && !w.rx.rxDvD2)
    txTgl := s.txTgl ^^ (w.gmiiTxenSel && !s.eTxenD1)
    eTxenD1 := w.tx.eTxen
    raw := s.raw.next i.netTxValid i.netTxData
    tx := s.tx.next 16 31 15 (if w.tx.eTxen then some w.tx.eTxd else none)
    rx := s.rx.next 8 7 7 (if w.rx.rxDvD2 then some w.rx.rxD2 else none) }

end Wrapper1gStats

/-! ## §3. The board. -/

structure Board where
  gmii : Wrapper1g
  stats : Wrapper1gStats
  uart : Wrapper1gUart

/-- One edge of `gmii_clk` or of `fpga_gclk`, with the wires that come in from outside. -/
inductive BoardEdge where
  | gmii (i : Wrapper1gIn)
  | gclk (rs232Rx delayReady mmcmRefLocked netRxReady : Bool)
  deriving Repr, DecidableEq

namespace Board

/-- The reset holds all the registers. -/
def reset (b : Board) : Board := { gmii := b.gmii.reset, stats := b.stats.reset, uart := {} }

/-- The wires into the board-clock side. -/
def uartIn (b : Board) (rs232Rx delayReady mmcmRefLocked netRxReady : Bool) : Wrapper1gUartIn :=
  { resetN := true, rs232Rx, rxTgl := b.stats.rxTgl, txTgl := b.stats.txTgl, delayReady, mmcmRefLocked
    txCap := capPort 16 b.stats.tx.cap, rxCap := capPort 8 b.stats.rx.cap
    rawCap := capPort 16 b.stats.raw.rawCap, rxOcc := b.gmii.rx.rxOcc, txOcc := b.gmii.tx.txOcc
    netRxReady }

/-- The registers behind an edge, out of reset. -/
def next (b : Board) : BoardEdge → Board
  | .gmii i => { b with gmii := b.gmii.next i, stats := b.stats.next b.gmii i }
  | .gclk rs232Rx delayReady mmcmRefLocked netRxReady =>
      { b with uart := b.uart.next (b.uartIn rs232Rx delayReady mmcmRefLocked netRxReady) }

end Board

/-- The board out of reset. -/
def board : Machine Board BoardEdge Unit := fun b e => (b.next e, ())

end GigabitTcp
