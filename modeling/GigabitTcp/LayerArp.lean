/-
  GigabitTcp.LayerArp — the two-level ARP cache and the ARP frames of `layer_arp.cpp`.

  L1 has eight entries with three-bit ages, L2 is a table of 256 entries that receives what
  L1 evicts.  The tables, the transmit buffer and the request mailbox are what the protocol
  handlers share; they travel together as `Shared`.
-/
import GigabitTcp.EthUtils

namespace GigabitTcp

open Hw

def l1Size : Nat := 8
def l2Size : Nat := 256

/-- `l1_cache`, `l1_age` and `l2_table`. -/
structure ArpTables where
  l1Cache : Mem ArpEntry := fun _ => {}
  /-- 0 = newest, 7 = oldest. -/
  l1Age : Mem (BitVec 3) := fun _ => 0
  l2Table : Mem ArpEntry := fun _ => {}

/-- What the handlers share: the buffer MAC TX reads, the mailbox and the ARP tables. -/
structure Shared where
  buffer : Mem U32 := fun _ => 0
  txReq : MacTxReq := {}
  arp : ArpTables := {}

/-- Fill the mailbox; `insert_vlan` and `vlan_tci` are left as they are. -/
def Shared.issue (sh : Shared) (dstMac : U48) (ethertype : U16) (bufAddr : Nat) (bufLen : U16) :
    Shared :=
  { sh with txReq := { sh.txReq with
      dstMac, ethertype, bufAddr := BitVec.ofNat 10 bufAddr, bufLen, request := true } }

/-! ## §1. The cache. -/

/-- `l1_lru_touch`: the touched entry becomes newest, entries not older than it age by one. -/
def l1LruTouch (t : ArpTables) (idx : Nat) : ArpTables :=
  -- entries of the same age move on together with the younger ones
  let oldAge := t.l1Age idx
  { t with l1Age := fun i =>
      if i < l1Size then
        if i = idx then 0 else if t.l1Age i ≤ oldAge then t.l1Age i + 1 else t.l1Age i
      else t.l1Age i }

/-- Index of the first valid entry for `ip` among the first `n`. -/
def findEntry (table : Mem ArpEntry) (n : Nat) (ip : U32) : Option Nat :=
  (List.range n).find? (fun i => (table i).valid && (table i).ip == ip)

/-- `l1_lookup`. -/
def l1Lookup (t : ArpTables) (ip : U32) : Option (U48 × ArpTables) :=
  (findEntry t.l1Cache l1Size ip).map (fun i => ((t.l1Cache i).mac, l1LruTouch t i))

/-- The victim search of `l1_insert`: the first invalid entry, else the last entry whose age
is maximal. -/
def l1Victim (t : ArpTables) : List Nat → BitVec 3 → Nat → Nat
  | [], _, victim => victim
  | i :: is, maxAge, victim =>
      if !(t.l1Cache i).valid then i
      else if maxAge ≤ t.l1Age i then l1Victim t is (t.l1Age i) i
      else l1Victim t is maxAge victim

/-- The write-back of `l1_insert`: into the first free L2 slot, nowhere if L2 is full. -/
def l2WriteBack (t : ArpTables) (e : ArpEntry) : ArpTables :=
  match (List.range l2Size).find? (fun i => !(t.l2Table i).valid) with
  | some i => { t with l2Table := t.l2Table.set i e }
  | none => t

/-- `l1_insert`. -/
def l1Insert (t : ArpTables) (ip : U32) (mac : U48) : ArpTables :=
  let victim := l1Victim t (List.range l1Size) 0 0
  -- an entry that is driven out goes to the L2 table
  let t := if (t.l1Cache victim).valid then l2WriteBack t (t.l1Cache victim) else t
  let t := { t with l1Cache := t.l1Cache.set victim { ip, mac, valid := true } }
  l1LruTouch t victim

/-- `arp_lookup`: the MAC found, and the tables after the LRU update and the promotion. -/
def arpLookup (t : ArpTables) (ip : U32) : Option U48 × ArpTables :=
  match l1Lookup t ip with
  | some (mac, t) => (some mac, t)
  | none =>
      match findEntry t.l2Table l2Size ip with
      -- a hit in L2 is promoted to L1, and stays in L2
      | some i => (some (t.l2Table i).mac, l1Insert t ip (t.l2Table i).mac)
      | none => (none, t)

/-- `arp_update`. -/
def arpUpdate (t : ArpTables) (ip : U32) (mac : U48) : ArpTables :=
  match findEntry t.l1Cache l1Size ip with
  | some i =>
      l1LruTouch { t with l1Cache := t.l1Cache.set i { t.l1Cache i with mac } } i
  | none => l1Insert t ip mac

/-! ## §2. ARP frames. -/

/-- The 28 bytes of an ARP packet from the board. -/
def arpPacket (opcode : U8) (targetMac targetIp : List U8) : List U8 :=
  [0x00, 0x01, 0x08, 0x00, 6, 4, 0x00, opcode] ++ boardMacBytes ++ boardIpBytes
    ++ targetMac ++ targetIp

/-- Write an ARP packet to the scratch region. -/
def writeArpPacket (buffer : Mem U32) (l : List U8) : Mem U32 :=
  buffer.fill txScratchBase 7 (Mem.wordOf (fun k => l.getD k 0))

/-- `arp_send_request`. -/
def arpSendRequest (sh : Shared) (ip : U32) : Shared :=
  let sh := { sh with
    buffer := writeArpPacket sh.buffer (arpPacket 1 [0, 0, 0, 0, 0, 0] (wordBytes 4 ip)) }
  sh.issue broadcastMac ethertypeArp txScratchBase arpPayloadBytes

/-- The fields `arp_rx_process` reads from the staged frame. -/
structure ArpFields where
  opcode : U16
  senderMac : U48
  senderIp : U32
  targetIp : U32

def arpFields (frameBuf : Mem U32) : ArpFields :=
  let b := frameBuf.byteAt 0
  { opcode := be16 (b 6) (b 7)
    senderMac := [b 8, b 9, b 10, b 11, b 12, b 13].foldl pushByte 0
    senderIp := packWord (b 14) (b 15) (b 16) (b 17)
    targetIp := packWord (b 24) (b 25) (b 26) (b 27) }

/-- The reply copies the sender's addresses into the target fields. -/
def arpReply (sh : Shared) (frameBuf : Mem U32) : Shared :=
  let b := frameBuf.byteAt 0
  let reply := arpPacket 2 [b 8, b 9, b 10, b 11, b 12, b 13] [b 14, b 15, b 16, b 17]
  let sh := { sh with buffer := writeArpPacket sh.buffer reply }
  sh.issue (arpFields frameBuf).senderMac ethertypeArp txScratchBase arpPayloadBytes

/-- `arp_rx_process`. -/
def arpRxProcess (resetN : Bool) (macRx : MacRx) (frameBuf : Mem U32) (sh : Shared) : Shared :=
  if !resetN then
    { sh with arp :=
        { l1Cache := fun i =>
            if i < l1Size then { sh.arp.l1Cache i with valid := false } else sh.arp.l1Cache i
          l1Age := fun i => if i < l1Size then 0 else sh.arp.l1Age i
          l2Table := fun i =>
            if i < l2Size then { sh.arp.l2Table i with valid := false } else sh.arp.l2Table i } }
  else if !macRx.valid || macRx.ethertype != ethertypeArp then sh
  else
    let f := arpFields frameBuf
    -- every ARP frame is learned from, requests and replies alike
    let sh := { sh with arp := arpUpdate sh.arp f.senderIp f.senderMac }
    if f.opcode = arpRequest ∧ f.targetIp = boardIp then arpReply sh frameBuf else sh

end GigabitTcp
