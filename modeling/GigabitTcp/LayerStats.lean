/-
  GigabitTcp.LayerStats — packet statistics and the status text of `layer_stats.cpp`.

  The text goes to `msg_stream` byte by byte; a byte that finds the stream full is dropped,
  so the text of a pass is cut at the room the stream has in that pass.
-/
import GigabitTcp.LayerArp

namespace GigabitTcp

open Hw

/-- The statics of `layer_stats.cpp`. -/
structure Stats where
  rxPkt : U32 := 0
  txPkt : U32 := 0
  rxByte : U32 := 0
  txByte : U32 := 0
  arpRx : U32 := 0
  icmpRx : U32 := 0
  dhcpEv : U32 := 0
  igmpRx : U32 := 0
  timer : U32 := 0
  dhcpFlag : Bool := false
  dhcpIp : U32 := 0
  forceArp : Bool := false
  deriving Repr, DecidableEq

/-- `stats_event`. -/
def statsEvent (st : Stats) (ev : U8) (len : U16) : Stats :=
  if ev = 0 then { st with rxPkt := st.rxPkt + 1, rxByte := st.rxByte + len.setWidth 32 }
  else if ev = 1 then { st with txPkt := st.txPkt + 1, txByte := st.txByte + len.setWidth 32 }
  else if ev = 2 then { st with arpRx := st.arpRx + 1 }
  else if ev = 3 then { st with icmpRx := st.icmpRx + 1 }
  else if ev = 4 then { st with dhcpEv := st.dhcpEv + 1 }
  else if ev = 5 then { st with igmpRx := st.igmpRx + 1 }
  else st

/-- `stats_dhcp_done`. -/
def statsDhcpDone (st : Stats) (ip : U32) : Stats := { st with dhcpFlag := true, dhcpIp := ip }

/-! ## §1. The text. -/

def ascii (s : List Char) : List U8 := s.map (fun c => BitVec.ofNat 8 c.toNat)

/-- `'0' + d`. -/
def digit (d : Nat) : U8 := BitVec.ofNat 8 (0x30 + d)

/-- The digits `pd` stores to `b[]`, least significant first; a 32-bit value has at most ten. -/
def pdDigits : Nat → Nat → List U8
  | 0, _ => []
  | fuel + 1, v => if v = 0 then [] else digit (v % 10) :: pdDigits fuel (v / 10)

/-- `pd`. -/
def pd (v : U32) : List U8 :=
  if v = 0 then ascii ['0'] else (pdDigits 10 v.toNat).reverse

/-- One octet of the dotted-decimal loops: a hundreds digit above 99, a tens digit if more
than 9 is left, a units digit. -/
def octetText (b : Nat) : List U8 :=
  let r1 := if 99 < b then ([digit (b / 100)], b % 100) else ([], b)
  let r2 := if 9 < r1.2 then ([digit (r1.2 / 10)], r1.2 % 10) else ([], r1.2)
  r1.1 ++ r2.1 ++ [digit r2.2]

/-- `pi`, and the address loop of `stats_report`. -/
def ipText (ip : U32) : List U8 :=
  let o := fun k => (lsByte ip k).toNat
  octetText (o 3) ++ ascii ['.'] ++ octetText (o 2) ++ ascii ['.'] ++ octetText (o 1)
    ++ ascii ['.'] ++ octetText (o 0)

/-- `ph`. -/
def ph (v : U8) : List U8 :=
  let h := fun d => (ascii ['0', '1', '2', '3', '4', '5', '6', '7', '8', '9',
    'A', 'B', 'C', 'D', 'E', 'F']).getD d 0
  [h (v.toNat / 16), h (v.toNat % 16)]

/-- One line of `arp_dump`. -/
def arpDumpLine (e : ArpEntry) : List U8 :=
  let m := fun k => ph (lsByte e.mac k)
  ascii [' '] ++ ipText e.ip ++ ascii [' ', '-', '>', ' ']
    ++ m 5 ++ ascii [':'] ++ m 4 ++ ascii [':'] ++ m 3 ++ ascii [':'] ++ m 2
    ++ ascii [':'] ++ m 1 ++ ascii [':'] ++ m 0 ++ ascii ['\n']

/-- `arp_dump`. -/
def arpDump (arp : ArpTables) : List U8 :=
  let entries := ((List.range l1Size).map arp.l1Cache).filter (·.valid)
  if entries = [] then ascii ['(', 'e', 'm', 'p', 't', 'y', ')', '\n']
  else entries.flatMap arpDumpLine

/-- The text `stats_report` sends when it reports; `icmp_rx` and the others are counters. -/
def statsText (st : Stats) (arp : ArpTables) (doArp : Bool) (buf39Err : U16) : List U8 :=
  (if st.dhcpFlag then ascii ['D', 'H', 'C', 'P', ':'] ++ ipText st.dhcpIp ++ ascii ['\n'] else [])
    ++ ascii ['R', 'X', ':'] ++ pd st.rxPkt ++ ascii ['p', 'k', 't', ' '] ++ pd st.rxByte
    ++ ascii ['B', ' ', 'T', 'X', ':'] ++ pd st.txPkt ++ ascii ['p', 'k', ' '] ++ pd st.txByte
    ++ ascii ['B', ' ', 'A', ':'] ++ pd st.arpRx ++ ascii [' ', 'I', ':'] ++ pd st.icmpRx
    ++ ascii [' ', 'G', ':'] ++ pd st.igmpRx ++ ascii [' ', 'D', ':'] ++ pd st.dhcpEv
    ++ ascii [' ', '3', '9', ':'] ++ pd (buf39Err.setWidth 32) ++ ascii ['\n']
    ++ (if doArp || 0 < st.arpRx then ascii ['A', 'R', 'P', ':', '\n'] ++ arpDump arp else [])

/-- `stats_report`: the statics and the bytes written to `msg_stream`, which has room for
`room` bytes. -/
def statsReport (rst : Bool) (room : Nat) (st : Stats) (arp : ArpTables) (doArp : Bool)
    (buf39Err : U16) : Stats × List U8 :=
  if !rst then ({ dhcpIp := st.dhcpIp, forceArp := st.forceArp }, [])
  else
    let st := { st with timer := st.timer + 1 }
    if st.timer < 100000000 ∧ ¬ st.dhcpFlag ∧ ¬ doArp then (st, [])
    else
      ({ st with timer := 0, dhcpFlag := false, forceArp := false },
        (statsText st arp doArp buf39Err).take room)

end GigabitTcp
