/-
  GigabitTcp.NetStats — the byte receiver of `net_stats.v`.

  One step is one edge of `clk50` out of reset.  The registers that are assigned without blocking
  all read the values before the edge.  Only the receiver with its command history is here: it reads
  nothing of the report that it triggers, which is in `NetStatsReport`.
-/
import GigabitTcp.Hw.Machine
import GigabitTcp.Hw.Words

namespace GigabitTcp

open Hw

/-- The registers of the byte receiver with their reset values. -/
structure NetStats where
  brxCnt : U16 := 0
  brxBitn : BitVec 4 := 0
  brxShift : U8 := 0
  brxActive : Bool := false
  cmdHist : U32 := 0
  netGo : Bool := false
  txdGo : Bool := false
  rxdGo : Bool := false
  rawGo : Bool := false
  deriving Repr, DecidableEq

namespace NetStats

variable (s : NetStats) (uartRx : Bool)

/-- A command: the three bytes of the history before the current one, and the current one. -/
def sees (before : BitVec 24) (last : U8) : Bool :=
  s.cmdHist.setWidth 24 == before && s.brxShift == last

/-- The stop bit: the byte enters the history. -/
def byteDone : NetStats :=
  { s with
    cmdHist := pushByte s.cmdHist s.brxShift
    netGo := s.sees 0x3F6E65 0x74
    txdGo := s.sees 0x3F7478 0x64
    rxdGo := s.sees 0x3F7278 0x64
    rawGo := s.sees 0x3F7261 0x77
    brxActive := false }

/-- The middle of a bit. -/
def middle : NetStats :=
  let t := if s.brxBitn = 0 then s
    else if s.brxBitn ≤ 8 then
      { s with brxShift := BitVec.ofBool uartRx ++ s.brxShift.extractLsb' 1 7 }
    else s.byteDone
  if s.brxBitn < 9 then { t with brxBitn := s.brxBitn + 1 } else t

/-- The registers behind the edge. -/
def next : NetStats :=
  let t := { s with netGo := false, txdGo := false, rxdGo := false, rawGo := false }
  if !s.brxActive then
    if !uartRx then { t with brxActive := true, brxCnt := 0, brxBitn := 0 } else t
  else
    { (if s.brxCnt = 2603 then t.middle uartRx else t) with
      brxCnt := if s.brxCnt = 5207 then 0 else s.brxCnt + 1 }

end NetStats

/-- The byte receiver out of reset; it puts out nothing that the line's other listeners see. -/
def netStatsMachine : Machine NetStats Bool Unit := fun s uartRx => (s.next uartRx, ())

end GigabitTcp
