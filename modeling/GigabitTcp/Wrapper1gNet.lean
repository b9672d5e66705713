/-
  GigabitTcp.Wrapper1gNet — `wrapper_1g.v` with the network IP in it.

  The two bridges and the IP `udp_echo` hand each other bytes over AXI streams.  An AXI stream
  moves a word on an edge on which it is valid and ready; between the bridge and the pass that reads or
  writes it the word waits in the IP.  How many edges a pass takes is left open: a run is a
  sequence of edges and passes in any order, and on every edge the IP may be ready, or offer
  its next word, or not.
-/
import GigabitTcp.Wrapper1g
import GigabitTcp.UdpEcho

namespace GigabitTcp

open Hw

/-- A byte of `tx_stream` on the 16 wires of `net_tx_data`. -/
def GmiiByte.tdata (b : GmiiByte) : U16 := (BitVec.ofBool b.last).setWidth 16 <<< 8 ||| b.data.setWidth 16

structure Wrapper1gNet where
  gmii : Wrapper1g
  /-- What the IP has taken from the RX bridge and no pass has read. -/
  rxStream : List GmiiByte
  net : UdpEcho
  /-- What passes have written and the TX bridge has not taken. -/
  txStream : List GmiiByte

/-- An edge of `gmii_clk`, or a pass of the IP. -/
inductive Wrapper1gNetIn where
  /-- The PHY's wires, and whether the IP is ready and offers a word. -/
  | edge (eRxd : U8) (eRxdv rxReady txValid : Bool)
  /-- Whether the pass finds the next word, and what else it sees. -/
  | pass (finds : Bool) (uninit : Uninit) (msgRoom : Nat)

/-- Who drives the wire. -/
inductive Driver where
  | bridge | demo
  deriving Repr, DecidableEq

namespace Wrapper1g

/-- The byte on the wire, who drives it, and whether its frame ends with it. -/
def phyTx (s : Wrapper1g) : Option (Driver × GmiiByte) :=
  if s.demo.demoSending then some (.demo, { data := s.demo.demoOut, last := s.demo.demoIdx == 71 })
  else s.tx.txEmitWord.map fun w => (.bridge, w)

/-- It is what `gmii_txd_sel` and `gmii_txen_sel` say. -/
theorem phyTx_data (s : Wrapper1g) :
    s.phyTx.map (fun b => b.2.data) = if s.gmiiTxenSel then some s.gmiiTxdSel else none := by
  unfold phyTx gmiiTxenSel gmiiTxdSel TxBridge.txEmitWord TxBridge.eTxen TxBridge.eTxd
  cases s.demo.demoSending <;> cases s.tx.txDraining <;> simp

end Wrapper1g

namespace Wrapper1gNet

/-- After configuration: the wrapper is reset and nothing is on its way. -/
def start (w : Wrapper1g) : Wrapper1gNet := { gmii := w.reset, rxStream := [], net := {}, txStream := [] }

variable (s : Wrapper1gNet)

/-- The wires into the wrapper. -/
def gmiiIn (eRxd : U8) (eRxdv rxReady txValid : Bool) : Wrapper1gIn :=
  { resetN := true, eRxd, eRxdv, netRxReady := rxReady
    netTxValid := txValid && !s.txStream.isEmpty
    netTxData := (s.txStream.head?.map GmiiByte.tdata).getD 0 }

/-- The word that the IP takes on an edge. -/
def takenWord (rxReady : Bool) : Option GmiiByte :=
  if s.gmii.rx.netRxValid && rxReady then some s.gmii.rx.netRxData else none

/-- `net_tx_valid && net_tx_ready`. -/
def txHandshake (txValid : Bool) : Bool := txValid && !s.txStream.isEmpty && s.gmii.tx.netTxReady

/-- What a pass sees; `reset_n` is `ip_enable`. -/
def passIn (finds : Bool) (uninit : Uninit) (msgRoom : Nat) : PassIn :=
  { resetN := s.gmii.ipEnable
    rx := if s.gmii.ipEnable && finds then s.rxStream.head? else none
    uninit, msgRoom }

/-- One edge or one pass, out of reset. -/
def next (pacing : U32) : Wrapper1gNetIn → Wrapper1gNet
  | .edge eRxd eRxdv rxReady txValid =>
      { s with
        gmii := s.gmii.next (s.gmiiIn eRxd eRxdv rxReady txValid)
        rxStream := s.rxStream ++ (s.takenWord rxReady).toList
        txStream := if s.txHandshake txValid then s.txStream.tail else s.txStream }
  | .pass finds uninit msgRoom =>
      let i := s.passIn finds uninit msgRoom
      let r := udpEcho pacing s.net i
      { s with
        rxStream := if i.rx.isSome then s.rxStream.tail else s.rxStream
        net := r.1
        txStream := s.txStream ++ r.2.tx.toList }

end Wrapper1gNet

/-- The byte that the PHY is given on an edge, and the byte that the IP writes in a pass. -/
structure Wrapper1gNetOut where
  phyTx : Option (Driver × GmiiByte)
  netTx : Option GmiiByte
  deriving Repr, DecidableEq

namespace Wrapper1gNet

variable (s : Wrapper1gNet)

def out (pacing : U32) : Wrapper1gNetIn → Wrapper1gNetOut
  | .edge .. => { phyTx := s.gmii.phyTx, netTx := none }
  | .pass finds uninit msgRoom =>
      { phyTx := none, netTx := (udpEcho pacing s.net (s.passIn finds uninit msgRoom)).2.tx }

end Wrapper1gNet

/-- The wrapper with its IP. -/
def wrapper1gNet (pacing : U32) : Machine Wrapper1gNet Wrapper1gNetIn Wrapper1gNetOut :=
  fun s i => (s.next pacing i, s.out pacing i)

end GigabitTcp
