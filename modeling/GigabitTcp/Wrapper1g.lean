/-
  GigabitTcp.Wrapper1g — the registers of `wrapper_1g.v` on `gmii_clk`, and its UART line.

  One step of a machine is one clock edge: it takes the registers and the wires that come in
  to the registers behind the edge, and puts out what the wires carry before it.  The wrapper
  has three parts that share no register but `ip_enable` and `tx_draining`: the RX FIFO bridge,
  the TX FIFO bridge and the demo frame generator.  The network IP stands outside; its stream
  handshake is an input.

  A FIFO word is `{last, data}`, the type `GmiiByte` of the IP's streams.
-/
import GigabitTcp.EthTypes
import GigabitTcp.Hw.Ring
import GigabitTcp.Hw.Machine

namespace GigabitTcp

open Hw

/-! ## §1. The RX FIFO bridge. -/

/-- `rx_d1, rx_d2, rx_dv_d1, rx_dv_d2` and `rx_fifo` with its pointers. -/
structure RxBridge where
  rxD1 : U8
  rxD2 : U8
  rxDvD1 : Bool
  rxDvD2 : Bool
  rxFifo : Ring 12 GmiiByte

/-- The wires into the RX bridge. -/
structure RxBridgeIn where
  eRxd : U8
  eRxdv : Bool
  netRxReady : Bool
  deriving Repr, DecidableEq

namespace RxBridge

variable (s : RxBridge) (i : RxBridgeIn)

/-- The reset values; `rx_fifo` itself is not reset. -/
def reset : RxBridge :=
  { rxD1 := 0, rxD2 := 0, rxDvD1 := false, rxDvD2 := false, rxFifo := s.rxFifo.clear }

/-- `rx_occ`. -/
def rxOcc : BitVec 12 := s.rxFifo.occ

def rxPush : Bool := s.rxDvD2 && s.rxOcc < 3900

/-- `dv` falls right after this byte. -/
def rxLastIn : Bool := s.rxDvD2 && !s.rxDvD1

def netRxValid : Bool := 0 < s.rxOcc

/-- `net_rx_data`. -/
def netRxData : GmiiByte := s.rxFifo.front

def rxPop : Bool := s.netRxValid && i.netRxReady

/-- The word that is written to `rx_fifo` on this edge. -/
def rxPushWord : Option GmiiByte :=
  if s.rxPush then some { data := s.rxD2, last := s.rxLastIn } else none

/-- The registers behind the edge. -/
def next : RxBridge :=
  { rxD1 := i.eRxd, rxD2 := s.rxD1, rxDvD1 := i.eRxdv, rxDvD2 := s.rxDvD1
    rxFifo := s.rxFifo.step s.rxPushWord (s.rxPop i) }

end RxBridge

/-- The RX bridge out of reset; it puts out the word that the IP takes. -/
def rxBridgeMachine : Machine RxBridge RxBridgeIn (Option GmiiByte) :=
  fun s i => (s.next i, if s.rxPop i then some s.netRxData else none)

/-! ## §2. The TX FIFO bridge. -/

/-- `tx_fifo` with its pointers, `tx_frame_cnt`, `tx_draining` and `tx_gap`. -/
structure TxBridge where
  txFifo : Ring 11 GmiiByte
  txFrameCnt : BitVec 11
  txDraining : Bool
  txGap : BitVec 4

/-- The wires into the TX bridge. -/
structure TxBridgeIn where
  ipEnable : Bool
  netTxValid : Bool
  netTxData : U16
  deriving Repr, DecidableEq

namespace TxBridge

variable (s : TxBridge) (i : TxBridgeIn)

/-- The reset values; `tx_fifo` itself is not reset. -/
def reset : TxBridge :=
  { txFifo := s.txFifo.clear, txFrameCnt := 0, txDraining := false, txGap := 12 }

/-- `tx_occ`. -/
def txOcc : BitVec 11 := s.txFifo.occ

def netTxReady : Bool := s.txOcc < 1900

def txPush : Bool := i.ipEnable && i.netTxValid && s.netTxReady

/-- `tx_push_word`, if `tx_push`. -/
def txPushWord : Option GmiiByte :=
  if s.txPush i then some { data := i.netTxData.setWidth 8, last := i.netTxData.getLsbD 8 } else none

def txEmitLast : Bool := s.txDraining && s.txFifo.front.last

def txPushLast : Bool := s.txPush i && i.netTxData.getLsbD 8

/-- The word that is emitted while `tx_draining`. -/
def txEmitWord : Option GmiiByte := if s.txDraining then some s.txFifo.front else none

/-- The last byte of the last complete frame leaves. -/
def txStops : Bool := s.txDraining && s.txFifo.front.last && s.txFrameCnt == 1

/-- A complete frame waits and the gap is over. -/
def txStarts : Bool := !s.txDraining && 0 < s.txFrameCnt && s.txGap == 0

/-- The registers behind the edge. -/
def next : TxBridge :=
  { txFifo := s.txFifo.step (s.txPushWord i) s.txDraining
    txDraining := if s.txDraining then !s.txStops else s.txStarts
    txGap := if s.txDraining then (if s.txStops then 12 else s.txGap)
      else if 0 < s.txGap then s.txGap - 1 else s.txGap
    txFrameCnt :=
      if s.txPushLast i && !s.txEmitLast then s.txFrameCnt + 1
      else if !s.txPushLast i && s.txEmitLast then s.txFrameCnt - 1
      else s.txFrameCnt }

/-- `e_txen`. -/
def eTxen : Bool := s.txDraining

/-- `e_txd`. -/
def eTxd : U8 := if s.txDraining then s.txFifo.front.data else 0

end TxBridge

/-- What the TX bridge accepts and emits in a cycle. -/
structure TxBridgeOut where
  accepted : Option GmiiByte
  emitted : Option GmiiByte
  deriving Repr, DecidableEq

/-- The TX bridge out of reset. -/
def txBridgeMachine : Machine TxBridge TxBridgeIn TxBridgeOut :=
  fun s i => (s.next i, { accepted := s.txPushWord i, emitted := s.txEmitWord })

/-! ## §3. The demo frame generator. -/

/-- `eth_crc32`. -/
def ethCrc32 (crc : U32) (data : U8) : U32 :=
  (List.range 8).foldl (fun c _ => if c.getLsbD 0 then (c >>> 1) ^^^ 0xEDB88320#32 else c >>> 1)
    (crc ^^^ data.setWidth 32)

/-- `demo_byte`: an ARP request of 192.168.0.2 for 192.168.0.3 behind its preamble. -/
def demoByte (idx : BitVec 7) : U8 :=
  ([0x55, 0x55, 0x55, 0x55, 0x55, 0x55, 0x55, 0xD5] ++ List.replicate 6 0xFF
    ++ [0x00, 0x0A, 0x35, 0x01, 0xFE, 0xC0, 0x08, 0x06]
    ++ [0x00, 0x01, 0x08, 0x00, 0x06, 0x04, 0x00, 0x01, 0x00, 0x0A, 0x35, 0x01, 0xFE, 0xC0]
    ++ [0xC0, 0xA8, 0x00, 0x02] ++ List.replicate 6 0xFF ++ [0xC0, 0xA8, 0x00, 0x03]).getD idx.toNat 0

structure DemoGen where
  demoCnt : BitVec 27
  demoIdx : BitVec 7
  demoSending : Bool
  demoCrc : U32
  deriving Repr, DecidableEq

namespace DemoGen

/-- The reset values. -/
def reset : DemoGen := { demoCnt := 0, demoIdx := 0, demoSending := false, demoCrc := 0xFFFFFFFF }

variable (s : DemoGen)

/-- Once a second. -/
def demoTick : Bool := s.demoCnt == 124999999

/-- A demo frame begins behind this edge. -/
def demoStarts (txDraining : Bool) : Bool := s.demoTick && !txDraining && !s.demoSending

/-- The registers behind the edge. -/
def next (txDraining : Bool) : DemoGen :=
  let demoCnt := if 124999999 ≤ s.demoCnt then 0 else s.demoCnt + 1
  if s.demoStarts txDraining then
    { demoCnt, demoSending := true, demoIdx := 0, demoCrc := 0xFFFFFFFF }
  else if s.demoSending then
    { demoCnt
      demoCrc := if 8 ≤ s.demoIdx ∧ s.demoIdx < 68 then ethCrc32 s.demoCrc (demoByte s.demoIdx)
        else s.demoCrc
      demoSending := !(s.demoIdx == 71)
      demoIdx := s.demoIdx + 1 }
  else { s with demoCnt }

/-- `demo_out`: the frame, and its FCS with the least significant byte first. -/
def demoOut : U8 :=
  let demoFcs := ~~~ s.demoCrc
  if s.demoIdx < 68 then demoByte s.demoIdx
  else if s.demoIdx = 68 then demoFcs.setWidth 8
  else if s.demoIdx = 69 then (demoFcs >>> 8).setWidth 8
  else if s.demoIdx = 70 then (demoFcs >>> 16).setWidth 8
  else (demoFcs >>> 24).setWidth 8

end DemoGen

/-! ## §4. The wrapper. -/

structure Wrapper1g where
  rx : RxBridge
  tx : TxBridge
  demo : DemoGen
  ipEnable : Bool

/-- The wires into the wrapper: the reset, GMII RX, and the IP's ends of the two streams. -/
structure Wrapper1gIn where
  resetN : Bool
  eRxd : U8
  eRxdv : Bool
  netRxReady : Bool
  netTxValid : Bool
  netTxData : U16
  deriving Repr, DecidableEq

/-- What the wrapper drives: GMII TX and the IP's ends of the two streams. -/
structure Wrapper1gOut where
  gmiiTxd : U8
  gmiiTxen : Bool
  netRxValid : Bool
  netRxData : GmiiByte
  netTxReady : Bool
  deriving Repr, DecidableEq

namespace Wrapper1g

variable (s : Wrapper1g)

/-- The reset is asynchronous: it holds the registers at these values. -/
def reset : Wrapper1g :=
  { rx := s.rx.reset, tx := s.tx.reset, demo := .reset, ipEnable := false }

/-- The wires into the TX bridge. -/
def txIn (i : Wrapper1gIn) : TxBridgeIn :=
  { ipEnable := s.ipEnable, netTxValid := i.netTxValid, netTxData := i.netTxData }

/-- The registers behind the edge. -/
def next (i : Wrapper1gIn) : Wrapper1g :=
  { rx := s.rx.next { eRxd := i.eRxd, eRxdv := i.eRxdv, netRxReady := i.netRxReady }
    tx := s.tx.next (s.txIn i)
    demo := s.demo.next s.tx.txDraining
    ipEnable := true }

/-- `gmii_txd_sel`: the demo frame has priority. -/
def gmiiTxdSel : U8 := if s.demo.demoSending then s.demo.demoOut else s.tx.eTxd

/-- `gmii_txen_sel`. -/
def gmiiTxenSel : Bool := if s.demo.demoSending then true else s.tx.eTxen

/-- The wires out of the wrapper. -/
def out : Wrapper1gOut :=
  { gmiiTxd := s.gmiiTxdSel, gmiiTxen := s.gmiiTxenSel, netRxValid := s.rx.netRxValid
    netRxData := s.rx.netRxData, netTxReady := s.tx.netTxReady }

end Wrapper1g

/-- The wrapper, reset included. -/
def wrapper1g : Machine Wrapper1g Wrapper1gIn Wrapper1gOut :=
  fun s i => if i.resetN then (s.next i, s.out) else (s.reset, s.reset.out)

/-! ## §5. The UART line. -/

/-- `uart_sync_sr` out of reset, on `fpga_gclk`: two registers take the pin `rs232_rx` in, and the
second one is the line of both UART receivers. -/
def uartSyncSr : Machine (BitVec 2) Bool Bool :=
  fun uartSyncSr rs232Rx =>
    ((uartSyncSr <<< 1) ||| (BitVec.ofBool rs232Rx).setWidth 2, uartSyncSr.getLsbD 1)

end GigabitTcp
