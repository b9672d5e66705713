/-
  GigabitTcp.LayerMac — the two byte-serial state machines of `layer_mac.cpp`.

  `macRxProcess` takes at most one byte a pass from the receive stream; `macTxProcess` puts
  at most one byte a pass on the transmit stream.  The function statics of the source are
  the machine states `MacRxFsm` and `MacTxFsm`; each `case` of the two switches is a
  definition of its own.  Streams are FIFOs whose writes never block.
-/
import GigabitTcp.EthUtils
import GigabitTcp.Hw.Machine

namespace GigabitTcp

open Hw

/-! ## §1. MAC RX. -/

inductive MacRxState where
  | idle | preamble | header | vlan | payload
  deriving Repr, DecidableEq

/-- The statics of `mac_rx_process`. -/
structure MacRxFsm where
  state : MacRxState := .idle
  byteCnt : U8 := 0
  dstMacAcc : U64 := 0
  srcMacAcc : U64 := 0
  ethAcc : U16 := 0
  savedEthertype : U16 := 0
  savedDstMac : U48 := 0
  savedSrcMac : U48 := 0
  wrWord : U32 := 0
  wrByte : U8 := 0
  nwords : U10 := 0
  vlanHdrRem : U8 := 0
  deriving Repr, DecidableEq

/-- What one pass of `mac_rx_process` hands out: the words written to `frame_fifo`, in
order, and the frame metadata. -/
structure MacRxOut where
  frameWords : List U32 := []
  rx : MacRx := {}
  deriving Repr, DecidableEq

def macRxIdle (s : MacRxFsm) (data : U8) : MacRxFsm × MacRxOut :=
  -- every pass with a byte in IDLE clears the accumulators
  let s := { s with
    byteCnt := 0, dstMacAcc := 0, srcMacAcc := 0, ethAcc := 0, wrWord := 0, wrByte := 0,
    nwords := 0, vlanHdrRem := 0 }
  if data = 0x55 then ({ s with state := .preamble, byteCnt := 1 }, {}) else (s, {})

def macRxPreamble (s : MacRxFsm) (data : U8) : MacRxFsm × MacRxOut :=
  let s := { s with byteCnt := s.byteCnt + 1 }
  -- the delimiter counts behind seven bytes; a short run is broken off
  if data = 0xD5 ∧ 8 ≤ s.byteCnt then ({ s with state := .header, byteCnt := 0 }, {})
  else if data ≠ 0x55 ∧ s.byteCnt < 7 then ({ s with state := .idle }, {})
  else (s, {})

/-- The second EtherType byte: a tag, or the end of the header and the MAC filter. -/
def macRxEthertype (s : MacRxFsm) (data : U8) : MacRxFsm × MacRxOut :=
  let s := { s with ethAcc := s.ethAcc ||| data.setWidth 16 }
  if s.ethAcc = tpidVlan ∨ s.ethAcc = tpidQinq then
    -- the `break` here skips the `byte_cnt++` below
    ({ s with state := .vlan, byteCnt := 0, vlanHdrRem := 2 }, {})
  else
    let s := { s with
      savedDstMac := s.dstMacAcc.setWidth 48, savedSrcMac := s.srcMacAcc.setWidth 48,
      savedEthertype := s.ethAcc }
    let isBroadcast := s.savedDstMac == broadcastMac
    let isUnicast := s.savedDstMac == boardMac
    let s :=
      if isUnicast || isBroadcast then { s with state := .payload, byteCnt := 0 }
      else { s with state := .idle }
    ({ s with byteCnt := s.byteCnt + 1 }, { rx := { isBroadcast, isUnicast } })

def macRxHeader (s : MacRxFsm) (data : U8) : MacRxFsm × MacRxOut :=
  if s.byteCnt < 6 then
    ({ s with dstMacAcc := pushByte s.dstMacAcc data, byteCnt := s.byteCnt + 1 }, {})
  else if s.byteCnt < 12 then
    ({ s with srcMacAcc := pushByte s.srcMacAcc data, byteCnt := s.byteCnt + 1 }, {})
  else if s.byteCnt = 12 then
    ({ s with ethAcc := data.setWidth 16 <<< 8, byteCnt := s.byteCnt + 1 }, {})
  else if s.byteCnt = 13 then macRxEthertype s data
  else ({ s with byteCnt := s.byteCnt + 1 }, {})

def macRxVlan (s : MacRxFsm) : MacRxFsm × MacRxOut :=
  let s := { s with vlanHdrRem := s.vlanHdrRem - 1 }
  -- behind the TCI the EtherType follows, at the place of the tag's own
  if s.vlanHdrRem = 0 then ({ s with state := .header, byteCnt := 12, ethAcc := 0 }, {})
  else (s, {})

/-- Shift a payload byte into the word; a full word goes to the FIFO. -/
def macRxPush (s : MacRxFsm) (data : U8) : MacRxFsm × List U32 :=
  let s := { s with wrWord := pushByte s.wrWord data, wrByte := s.wrByte + 1 }
  if s.wrByte = 4 then
    ({ s with nwords := s.nwords + 1, wrByte := 0, wrWord := 0 }, [s.wrWord])
  else (s, [])

/-- End of frame: flush a partial word, left-aligned. -/
def macRxFlush (s : MacRxFsm) : MacRxFsm × List U32 :=
  if s.wrByte > 0 then
    ({ s with nwords := s.nwords + 1 }, [s.wrWord <<< ((4 - s.wrByte.toNat) * 8)])
  else (s, [])

def macRxPayload (s : MacRxFsm) (data : U8) (last : Bool) : MacRxFsm × MacRxOut :=
  let (s, full) := macRxPush s data
  if last then
    -- `mac_rx` is filled in on this pass only
    let (s, rest) := macRxFlush s
    ({ s with state := .idle },
      { frameWords := full ++ rest,
        rx := { ethertype := s.savedEthertype, dstMac := s.savedDstMac,
                srcMac := s.savedSrcMac, valid := true, nwords := s.nwords } })
  else (s, { frameWords := full })

/-- `mac_rx_process`: `rx` is the head of `rx_stream`, `none` when the stream is empty. -/
def macRxProcess (s : MacRxFsm) (resetN : Bool) (rx : Option GmiiByte) : MacRxFsm × MacRxOut :=
  if !resetN then ({}, {})
  else
    match rx with
    | none => (s, {})
    | some b =>
        match s.state with
        | .idle => macRxIdle s b.data
        | .preamble => macRxPreamble s b.data
        | .header => macRxHeader s b.data
        | .vlan => macRxVlan s
        | .payload => macRxPayload s b.data b.last

/-- MAC RX out of reset, as a machine over the passes. -/
def macRxCycle : Machine MacRxFsm (Option GmiiByte) MacRxOut :=
  fun s rx => macRxProcess s true rx

/-! ## §2. MAC TX. -/

inductive MacTxState where
  | idle | send55 | sendMac | sendData | sendCrc
  deriving Repr, DecidableEq

/-- The statics of `mac_tx_process`. -/
structure MacTxFsm where
  state : MacTxState := .idle
  byteCnt : U8 := 0
  sentBytes : U16 := 0
  crcReg : U32 := 0xFFFFFFFF
  dstMac : U48 := 0
  ethertype : U16 := 0
  reqWbase : U10 := 0
  reqBytes : U16 := 0
  doVlan : Bool := false
  vlanTci : U16 := 0
  deriving Repr, DecidableEq

/-- What one pass of `mac_tx_process` hands out: the mailbox, the byte written to
`tx_stream`, and the `tx_busy` flag. -/
structure MacTxOut where
  txReq : MacTxReq
  byte : Option GmiiByte := none
  busy : Bool
  deriving Repr, DecidableEq

def preamble : List U8 := [0x55, 0x55, 0x55, 0x55, 0x55, 0x55, 0x55, 0xD5]

/-- `hdr_total`. -/
def macTxHdrTotal (s : MacTxFsm) : U8 := if s.doVlan then 18 else 14

/-- The header byte of `MAC_TX_SENDMAC`. -/
def macTxHdrByte (s : MacTxFsm) : U8 :=
  if s.byteCnt < 6 then (s.dstMac >>> ((5 - s.byteCnt.toNat) * 8)).setWidth 8
  else if s.byteCnt < 12 then boardMacBytes.getD (s.byteCnt.toNat - 6) 0
  else if s.doVlan ∧ s.byteCnt < 16 then
    if s.byteCnt = 12 then (tpidVlan >>> 8).setWidth 8
    else if s.byteCnt = 13 then tpidVlan.setWidth 8
    else if s.byteCnt = 14 then (s.vlanTci >>> 8).setWidth 8
    else s.vlanTci.setWidth 8
  else if (s.doVlan ∧ s.byteCnt = 16) ∨ (¬ s.doVlan ∧ s.byteCnt = 12) then
    (s.ethertype >>> 8).setWidth 8
  else s.ethertype.setWidth 8

/-- The data byte of `MAC_TX_SENDDATA`; beyond `req_bytes` it is zero padding. -/
def macTxDataByte (s : MacTxFsm) (buffer : Mem U32) : U8 :=
  if s.sentBytes < s.reqBytes then
    wordByte (buffer (s.reqWbase.toNat + s.sentBytes.toNat / 4)) (s.sentBytes.toNat % 4)
  else 0

/-- `tx_payload`. -/
def macTxPayloadLen (s : MacTxFsm) : U16 := if s.reqBytes < 46 then 46 else s.reqBytes

/-- The FCS byte of `MAC_TX_SENDCRC`, least significant first. -/
def macTxFcsByte (s : MacTxFsm) : U8 :=
  let fcs := s.crcReg ^^^ 0xFFFFFFFF#32
  if s.byteCnt = 0 then fcs.setWidth 8
  else if s.byteCnt = 1 then (fcs >>> 8).setWidth 8
  else if s.byteCnt = 2 then (fcs >>> 16).setWidth 8
  else (fcs >>> 24).setWidth 8

/-- `MAC_TX_IDLE`: latch a waiting request. -/
def macTxIdle (s : MacTxFsm) (txReq : MacTxReq) : MacTxFsm × MacTxReq :=
  let s := { s with crcReg := 0xFFFFFFFF }
  if txReq.request then
    ({ s with
        dstMac := txReq.dstMac, ethertype := txReq.ethertype, reqWbase := txReq.bufAddr,
        reqBytes := txReq.bufLen, doVlan := txReq.insertVlan, vlanTci := txReq.vlanTci,
        sentBytes := 0, state := .send55, byteCnt := 0 },
      { txReq with request := false })
  else (s, txReq)

def macTxSend55 (s : MacTxFsm) : MacTxFsm × GmiiByte :=
  let b : GmiiByte := { data := preamble.getD s.byteCnt.toNat 0, last := false }
  let s := { s with byteCnt := s.byteCnt + 1 }
  (if s.byteCnt = 8 then { s with byteCnt := 0, state := .sendMac } else s, b)

def macTxSendMac (s : MacTxFsm) : MacTxFsm × GmiiByte :=
  let bd := macTxHdrByte s
  let s := { s with crcReg := crc32Byte bd s.crcReg, byteCnt := s.byteCnt + 1 }
  (if s.byteCnt = macTxHdrTotal s then { s with byteCnt := 0, state := .sendData } else s,
    { data := bd, last := false })

def macTxSendData (s : MacTxFsm) (buffer : Mem U32) : MacTxFsm × GmiiByte :=
  let bd := macTxDataByte s buffer
  let s := { s with crcReg := crc32Byte bd s.crcReg, sentBytes := s.sentBytes + 1 }
  (if s.sentBytes = macTxPayloadLen s then { s with byteCnt := 0, state := .sendCrc } else s,
    { data := bd, last := false })

def macTxSendCrc (s : MacTxFsm) : MacTxFsm × GmiiByte :=
  let b : GmiiByte := { data := macTxFcsByte s, last := s.byteCnt == 3 }
  let s := { s with byteCnt := s.byteCnt + 1 }
  (if s.byteCnt = 4 then { s with byteCnt := 0, state := .idle } else s, b)

/-- `mac_tx_process`. -/
def macTxProcess (s : MacTxFsm) (resetN : Bool) (txReq : MacTxReq) (buffer : Mem U32) :
    MacTxFsm × MacTxOut :=
  let busy := s.state != .idle || txReq.request
  if !resetN then
    ({ s with state := .idle, byteCnt := 0, sentBytes := 0, crcReg := 0xFFFFFFFF },
      { txReq := { txReq with request := false }, busy := false })
  else
    match s.state with
    | .idle =>
        let (s, txReq) := macTxIdle s txReq
        (s, { txReq, busy })
    | .send55 =>
        let (s, b) := macTxSend55 s
        (s, { txReq, byte := some b, busy })
    | .sendMac =>
        let (s, b) := macTxSendMac s
        (s, { txReq, byte := some b, busy })
    | .sendData =>
        let (s, b) := macTxSendData s buffer
        (s, { txReq, byte := some b, busy })
    | .sendCrc =>
        let (s, b) := macTxSendCrc s
        (s, { txReq, byte := some b, busy })

/-- MAC TX out of reset, as a machine that is shown the mailbox and the buffer each pass. -/
def macTxCycle : Machine MacTxFsm (MacTxReq × Mem U32) MacTxOut :=
  fun s i => macTxProcess s true i.1 i.2

end GigabitTcp
