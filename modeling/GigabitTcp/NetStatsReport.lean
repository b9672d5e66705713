/-
  GigabitTcp.NetStatsReport — the rest of `net_stats.v`: counters, captures and the report.

  One step is one edge of `clk50` out of reset.  The always blocks are structures of their own
  which read the registers of the others as they stand before the edge: the toggle counters, the
  two-stage registers of the captures, and the transmitter that sends the report.  The receiver
  is in `NetStats`.
-/
import GigabitTcp.NetStats

namespace GigabitTcp

open Hw

/-! ## §1. Frame counters and captures. -/

/-- A toggle from the other clock domain: `*_t1, *_t2, *_t3` and `*_cnt`. -/
structure ToggleCounter where
  t1 : Bool := false
  t2 : Bool := false
  t3 : Bool := false
  cnt : U16 := 0
  deriving Repr, DecidableEq

/-- The registers behind the edge: a change of the level counts. -/
def ToggleCounter.next (s : ToggleCounter) (toggle : Bool) : ToggleCounter :=
  { t1 := toggle, t2 := s.t1, t3 := s.t2, cnt := if s.t2 ^^ s.t3 then s.cnt + 1 else s.cnt }

/-- `*cap_s1` and `*cap_s2`. -/
structure CaptureSync (w : Nat) where
  s1 : BitVec w := 0
  s2 : BitVec w := 0
  deriving Repr, DecidableEq

def CaptureSync.next {w : Nat} (s : CaptureSync w) (cap : BitVec w) : CaptureSync w :=
  { s1 := cap, s2 := s.s1 }

/-! ## §2. The wires into the module. -/

structure NetStatsIn where
  uartRx : Bool
  uartTxIn : Bool
  rxToggle : Bool
  txToggle : Bool
  statLock : Bool
  txCap : BitVec 128
  rxCap : BitVec 64
  rawCap : BitVec 128
  dbg0 : U16
  dbg1 : Bool
  deriving Repr, DecidableEq

/-! ## §3. The report. -/

/-- The registers of the report with their reset values. -/
structure NetReport where
  latRx : U16 := 0
  latTx : U16 := 0
  latTxd : BitVec 128 := 0
  latRaw : BitVec 128 := 0
  latRxd : BitVec 64 := 0
  mode : BitVec 2 := 0
  quietCnt : BitVec 20 := 0
  txIdx : BitVec 6 := 0
  txCell : BitVec 4 := 0
  txCnt8 : U16 := 0
  txActive : Bool := false
  txLine : Bool := true
  deriving Repr, DecidableEq

/-- `hex_asc`. -/
def hexAsc (n : BitVec 4) : U8 := if n < 10 then 0x30 + n.setWidth 8 else 0x37 + n.setWidth 8

/-- Digit `k` of the `n` hexadecimal digits of `v`, the highest one first. -/
def hexDigit {w : Nat} (n : Nat) (v : BitVec w) (k : Nat) : U8 :=
  hexAsc (v.extractLsb' (4 * (n - 1 - k)) 4)

namespace NetReport

/-- A capture as `name` and its `n` digits; what lies behind the last one shows it again. -/
def captureByte {w : Nat} (name : List U8) (n : Nat) (v : BitVec w) (txIdx : BitVec 6) : U8 :=
  if txIdx < 4 then name.getD txIdx.toNat 0 else hexDigit n v (txIdx.toNat - 4)

variable (s : NetReport) (i : NetStatsIn)

/-- `rx=XXXX tx=YYYY L=Z R=XX T=XX Y=Z`; the fields behind `L=` are wires, not latched. -/
def netText : List U8 :=
  [0x72, 0x78, 0x3D,
    hexDigit 4 s.latRx 0, hexDigit 4 s.latRx 1, hexDigit 4 s.latRx 2, hexDigit 4 s.latRx 3, 0x20,
    0x74, 0x78, 0x3D,
    hexDigit 4 s.latTx 0, hexDigit 4 s.latTx 1, hexDigit 4 s.latTx 2, hexDigit 4 s.latTx 3, 0x20,
    0x4C, 0x3D, if i.statLock then 0x31 else 0x30, 0x20,
    0x52, 0x3D, hexDigit 4 i.dbg0 0, hexDigit 4 i.dbg0 1, 0x20,
    0x54, 0x3D, hexDigit 4 i.dbg0 2, hexDigit 4 i.dbg0 3, 0x20,
    0x59, 0x3D, if i.dbg1 then 0x31 else 0x30, 0x0D]

/-- `tx_byte`. -/
def txByte : U8 :=
  if s.mode = 1 then captureByte [0x74, 0x78, 0x64, 0x3D] 32 s.latTxd s.txIdx
  else if s.mode = 3 then captureByte [0x72, 0x61, 0x77, 0x3D] 32 s.latRaw s.txIdx
  else if s.mode = 2 then captureByte [0x72, 0x78, 0x64, 0x3D] 16 s.latRxd s.txIdx
  else (s.netText i).getD s.txIdx.toNat 0x0A

/-- `tx_last`. -/
def txLast : BitVec 6 := if s.mode = 0 then 34 else if s.mode = 2 then 19 else 35

end NetReport

/-- The module out of reset: one structure for each of its always blocks, where the frame
counters and the captures have one for each signal. -/
structure NetStatsModule where
  brx : NetStats := {}
  rxFrames : ToggleCounter := {}
  txFrames : ToggleCounter := {}
  txcap : CaptureSync 128 := {}
  rxcap : CaptureSync 64 := {}
  rawcap : CaptureSync 128 := {}
  report : NetReport := {}
  deriving Repr, DecidableEq

namespace NetStatsModule

variable (s : NetStatsModule) (i : NetStatsIn)

/-- One of the pulses of the receiver. -/
def go : Bool := s.brx.netGo || s.brx.txdGo || s.brx.rxdGo || s.brx.rawGo

/-- A command is taken: nothing is being sent, and no command waits. -/
def takes : Bool := s.go && !s.report.txActive && s.report.quietCnt == 0

/-- The registers that a command latches. -/
def latch : NetReport :=
  if s.takes then
    { s.report with
      latRx := s.rxFrames.cnt, latTx := s.txFrames.cnt, latTxd := s.txcap.s2
      latRxd := s.rxcap.s2, latRaw := s.rawcap.s2
      mode := if s.brx.netGo then 0 else if s.brx.txdGo then 1 else if s.brx.rxdGo then 2 else 3
      quietCnt := 1000000 }
  else
    { s.report with
      quietCnt := if 0 < s.report.quietCnt then s.report.quietCnt - 1 else s.report.quietCnt }

/-- The end of a cell: the next cell, the next byte, or the end of the report. -/
def cellDone (r : NetReport) : NetReport :=
  if r.txCell = 9 then
    if r.txIdx = r.txLast then { r with txCnt8 := 0, txCell := 0, txActive := false, txLine := true }
    else { r with txCnt8 := 0, txCell := 0, txIdx := r.txIdx + 1, txLine := false }
  else
    { r with
      txCnt8 := 0, txCell := r.txCell + 1
      txLine := if r.txCell = 8 then true else (r.txByte i).getLsbD (r.txCell.toNat % 8) }

/-- The registers of the report behind the edge.  What a command latches and what is sent are
different registers; the comparisons read the ones before the edge. -/
def nextReport : NetReport :=
  let r := s.report
  let t := s.latch
  if !r.txActive then
    if r.quietCnt = 1 then
      { t with txActive := true, txIdx := 0, txCell := 0, txCnt8 := 0, txLine := false }
    else t
  else if r.txCnt8 = 5207 then
    let d := cellDone i r
    { t with
      txCnt8 := d.txCnt8, txCell := d.txCell, txIdx := d.txIdx, txActive := d.txActive, txLine := d.txLine }
  else { t with txCnt8 := r.txCnt8 + 1 }

/-- The registers behind the edge. -/
def next : NetStatsModule :=
  { brx := s.brx.next i.uartRx
    rxFrames := s.rxFrames.next i.rxToggle
    txFrames := s.txFrames.next i.txToggle
    txcap := s.txcap.next i.txCap
    rxcap := s.rxcap.next i.rxCap
    rawcap := s.rawcap.next i.rawCap
    report := s.nextReport i }

/-- `uart_tx_out`: the report takes the line from the console while it is sent. -/
def uartTxOut : Bool := if s.report.txActive then s.report.txLine else i.uartTxIn

end NetStatsModule

/-- The module out of reset, with its line. -/
def netStatsModule : Machine NetStatsModule NetStatsIn Bool := fun s i => (s.next i, s.uartTxOut i)

end GigabitTcp
