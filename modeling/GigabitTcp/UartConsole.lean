/-
  GigabitTcp.UartConsole — the UART command console of `uart_console.cpp`.

  One call of `uart_console` is one 50 MHz cycle: it shifts the line in, runs the receiver with
  the command matcher behind it, then the transmitter.  The function statics are the state; an
  `ap_uint<1>` is a Boolean.  The three parts of the body and the branches of the receiver are
  definitions of their own.
-/
import GigabitTcp.Hw.Machine
import GigabitTcp.Hw.Words

namespace GigabitTcp

open Hw

/-! ## §1. State and ports. -/

/-- 50 MHz / 9600: the counters run from 0 to `bpsDiv`. -/
def bpsDiv : BitVec 13 := 5207

/-- The middle of a bit. -/
def bpsHalf : BitVec 13 := 2603

/-- The statics of `uart_console` with their initial values. -/
structure UartConsole where
  syncSr : BitVec 2 := 3
  rxActive : Bool := false
  rcnt : BitVec 13 := 0
  rnum : BitVec 4 := 0
  rxByte : U8 := 0
  txHold : U8 := 0
  txPending : Bool := false
  txActive : Bool := false
  tcnt : BitVec 13 := 0
  tnum : BitVec 4 := 0
  txByte : U8 := 0
  txOut : Bool := true
  respSr : BitVec 192 := 0
  respRemain : BitVec 5 := 0
  cmdSt : BitVec 7 := 0
  rxDoneP : Bool := false
  deriving Repr, DecidableEq

structure UartConsoleIn where
  rstN : Bool
  rx : Bool
  deriving Repr, DecidableEq

structure UartConsoleOut where
  tx : Bool
  rxDone : Bool
  respActive : Bool
  deriving Repr, DecidableEq

namespace UartConsole

/-! ## §2. Commands and responses. -/

/-- The step of the command matcher on a byte that is not Enter. -/
def nextCmd (cmdSt : BitVec 7) (rxByte : U8) : BitVec 7 :=
  match cmdSt with
  | 0#7 => if rxByte = 0x3F then 1 else 0
  | 1#7 =>
      if rxByte = 0x68 then 2
      else if rxByte = 0x6D then 11
      else if rxByte = 0x69 then 21
      else if rxByte = 0x73 then 31
      else 0
  | 2#7 => if rxByte = 0x65 then 3 else 0
  | 3#7 => if rxByte = 0x6C then 4 else 0
  | 4#7 => if rxByte = 0x70 then 5 else 0
  | 11#7 => if rxByte = 0x61 then 12 else 0
  | 12#7 => if rxByte = 0x63 then 13 else 0
  | 21#7 => if rxByte = 0x70 then 22 else 0
  | 31#7 => if rxByte = 0x74 then 32 else 0
  | 32#7 => if rxByte = 0x61 then 33 else 0
  | 33#7 => if rxByte = 0x74 then 34 else 0
  | _ => 0

/-- `?help ?mac ?ip ?stat` -/
def helpText : List U8 :=
  [0x3F, 0x68, 0x65, 0x6C, 0x70, 0x20, 0x3F, 0x6D, 0x61, 0x63, 0x20, 0x3F, 0x69, 0x70, 0x20,
    0x3F, 0x73, 0x74, 0x61, 0x74, 0x0D, 0x0A]

/-- `MAC: 00:0A:35:01:FE:C0` -/
def macText : List U8 :=
  [0x4D, 0x41, 0x43, 0x3A, 0x20, 0x30, 0x30, 0x3A, 0x30, 0x41, 0x3A, 0x33, 0x35, 0x3A, 0x30, 0x31,
    0x3A, 0x46, 0x45, 0x3A, 0x43, 0x30, 0x0D, 0x0A]

/-- `IP: 192.168.100.2` -/
def ipText : List U8 :=
  [0x49, 0x50, 0x3A, 0x20, 0x31, 0x39, 0x32, 0x2E, 0x31, 0x36, 0x38, 0x2E, 0x31, 0x30, 0x30, 0x2E,
    0x32, 0x0D, 0x0A]

/-- `UART 9600-8N1 @50MHz` -/
def statText : List U8 :=
  [0x55, 0x41, 0x52, 0x54, 0x20, 0x39, 0x36, 0x30, 0x30, 0x2D, 0x38, 0x4E, 0x31, 0x20, 0x40, 0x35,
    0x30, 0x4D, 0x48, 0x7A, 0x0D, 0x0A]

/-- `?` -/
def unknownText : List U8 := [0x3F, 0x0D, 0x0A]

/-- The characters of a response in `resp_sr`: the first one in bits 191 to 184, the next one
eight bits below, and so on. -/
def leftAligned (text : List U8) : BitVec 192 :=
  text.zipIdx.foldl (fun sr c => sr ||| (c.1.setWidth 192).shiftLeft (184 - 8 * c.2)) 0

/-- The response to Enter, and the value of `resp_remain`. -/
def response (cmdSt : BitVec 7) : List U8 × BitVec 5 :=
  if cmdSt = 5 then (helpText, 22)
  else if cmdSt = 13 then (macText, 24)
  else if cmdSt = 22 then (ipText, 19)
  else if cmdSt = 34 then (statText, 22)
  else (unknownText, 3)

variable (s : UartConsole)

/-! ## §3. The receiver. -/

/-- The line one cycle ago, after the shift. -/
def prev1 : Bool := s.syncSr.getLsbD 0

/-- The line two cycles ago, after the shift. -/
def prev2 : Bool := s.syncSr.getLsbD 1

/-- The head of the body: the pulse is taken back and the line shifted in. -/
def shiftIn (rx : Bool) : UartConsole :=
  { s with rxDoneP := false, syncSr := (s.syncSr <<< 1) ||| (BitVec.ofBool rx).setWidth 2 }

/-- Enter: a response is loaded if the last one has been handed over. -/
def enter : UartConsole :=
  let s := if s.respRemain = 0 then
      { s with respSr := leftAligned (response s.cmdSt).1, respRemain := (response s.cmdSt).2 }
    else s
  { s with cmdSt := 0 }

/-- The middle of the stop bit: the byte goes to the echo if the transmitter is free, and to the
command matcher. -/
def rxComplete : UartConsole :=
  let s := if !s.txActive then { s with txHold := s.rxByte, txPending := true } else s
  let s := { s with rxDoneP := true }
  let s := if s.rxByte = 13 ∨ s.rxByte = 10 then s.enter
    else { s with cmdSt := nextCmd s.cmdSt s.rxByte }
  { s with rxActive := false }

/-- The middle of a bit. -/
def rxMiddle : UartConsole :=
  let s := if 1 ≤ s.rnum ∧ s.rnum ≤ 8 then
      { s with rxByte := s.rxByte ||| ((BitVec.ofBool s.prev1).setWidth 8 <<< (s.rnum - 1).toNat) }
    else s
  if s.rnum = 9 then s.rxComplete else { s with rnum := s.rnum + 1 }

/-- The receiver. -/
def rxSide : UartConsole :=
  if !s.rxActive then
    if s.prev2 && !s.prev1 then { s with rxActive := true, rxByte := 0, rcnt := 0, rnum := 0 } else s
  else
    let s := if s.rcnt = bpsHalf then s.rxMiddle else s
    if s.rcnt = bpsDiv then { s with rcnt := 0 } else { s with rcnt := s.rcnt + 1 }

/-! ## §4. The transmitter. -/

/-- The first byte of the response queue. -/
def respTop : U8 := s.respSr.extractLsb' 184 8

/-- A free transmitter takes the echo first, then the response queue. -/
def txFree : UartConsole :=
  let s := { s with txOut := true }
  if s.txPending then
    { s with txActive := true, txPending := false, txByte := s.txHold, tcnt := 0, tnum := 0 }
  else if 0 < s.respRemain then
    { s with
      txActive := true, txByte := s.respTop, respSr := s.respSr <<< 8
      respRemain := s.respRemain - 1, tcnt := 0, tnum := 0 }
  else s

/-- The next cell goes on the line. -/
def txDrive : UartConsole :=
  { s with
    txOut := if s.tnum = 0 then false
      else if s.tnum ≤ 8 then (s.txByte >>> (s.tnum - 1).toNat).getLsbD 0
      else true
    tnum := if s.tnum ≤ 9 then s.tnum + 1 else s.tnum }

/-- The transmitter in a byte, which ends with its stop cell. -/
def txBusy : UartConsole :=
  let s := if s.tcnt = bpsHalf then s.txDrive else s
  if s.tcnt = bpsDiv then { s with tcnt := 0, txActive := !(s.tnum == 10) }
  else { s with tcnt := s.tcnt + 1 }

/-- The transmitter. -/
def txSide : UartConsole := if !s.txActive then s.txFree else s.txBusy

end UartConsole

/-! ## §5. The console. -/

/-- `uart_console`: one cycle. -/
def uartConsole (s : UartConsole) (i : UartConsoleIn) : UartConsole × UartConsoleOut :=
  if !i.rstN then ({}, { tx := true, rxDone := false, respActive := false })
  else
    let t := ((s.shiftIn i.rx).rxSide).txSide
    (t, { tx := t.txOut, rxDone := s.rxDoneP, respActive := 0 < s.respRemain })

/-- The console out of reset. -/
def uartConsoleMachine : Machine UartConsole Bool UartConsoleOut :=
  fun s rx => uartConsole s { rstN := true, rx }

end GigabitTcp
