/-
  GigabitTcp.Wrapper.FrameCounts — the frame counters of `net_stats` across two clocks.

  `gmii_clk` flips a toggle, `fpga_gclk` samples it and counts the changes.  For the RX counter a
  flip is the beginning of a frame on the wire.  For the TX counter it is a cycle in which GMII TX
  carries a byte and the bridge carried none in the cycle before: once for a frame of the bridge,
  but in every cycle of a demo frame, because `e_txen_d1` follows the bridge and not the wire.

  Main results:
    * `toggles_run`            — a toggle counter of the board is a crossing of `Hw.Toggle`,
    * `board_frames_counted`   — the counters for any order of the two clocks,
    * `flips_demo`             — a demo frame flips the toggle 72 times.
-/
import GigabitTcp.Hw.Toggle
import GigabitTcp.Wrapper.Demo
import GigabitTcp.Wrapper.RxQueue
import GigabitTcp.Wrapper1gStats

namespace GigabitTcp

open Hw Machine

/-! ## §1. Toggle counters as crossings. -/

/-- The toggle counter of `net_stats` counts like the crossing, up to its sixteen bits. -/
structure ToggleCount (toggle : Bool) (s : ToggleCounter) (c : Crossing) : Prop where
  level : toggle = c.level
  t1 : s.t1 = c.t1
  t2 : s.t2 = c.t2
  t3 : s.t3 = c.t3
  cnt : s.cnt = BitVec.ofNat 16 c.count

theorem ToggleCount.flip {toggle : Bool} {s : ToggleCounter} {c : Crossing} (h : ToggleCount toggle s c)
    (x : Bool) : ToggleCount (toggle ^^ x) s (if x then c.next .flip else c) := by
  cases x with
  | false =>
      rw [Bool.xor_false, if_neg Bool.false_ne_true]
      exact h
  | true =>
      rw [Bool.xor_true, if_pos rfl]
      exact ⟨congrArg Bool.not h.level, h.t1, h.t2, h.t3, h.cnt⟩

theorem ToggleCount.sample {toggle : Bool} {s : ToggleCounter} {c : Crossing}
    (h : ToggleCount toggle s c) : ToggleCount toggle (s.next toggle) (c.next .sample) := by
  refine ⟨h.level, h.level, h.t1, h.t2, ?_⟩
  show (if s.t2 ^^ s.t3 then s.cnt + 1 else s.cnt) = BitVec.ofNat 16 (c.count + (c.t2 ^^ c.t3).toNat)
  rw [← h.t2, ← h.t3, h.cnt, BitVec.ofNat_add]
  cases (s.t2 ^^ s.t3) <;> simp

namespace Board

/-! ## §2. The edges of a run. -/

/-- The next edge of `gmii_clk` flips `rx_tgl`. -/
def rxFlips (b : Board) : Bool := b.gmii.rx.rxDvD1 && !b.gmii.rx.rxDvD2

/-- The next edge of `gmii_clk` flips `tx_tgl`. -/
def txFlips (b : Board) : Bool := b.gmii.gmiiTxenSel && !b.stats.eTxenD1

/-- The edges of a run as a toggle sees them, where `flips` tells the edges that flip it. -/
def crossingEdges (flips : Board → Bool) : Board → List BoardEdge → List CrossingEdge :=
  board.record fun b e =>
    match e with
    | .gmii _ => if flips b then [.flip] else []
    | .gclk _ _ _ _ => [.sample]

variable {b : Board}

/-- **A run of the board** is a run of the crossing, for each of the two toggles. -/
theorem toggles_run (b : Board) (es : List BoardEdge) {c c' : Crossing}
    (hrx : ToggleCount b.stats.rxTgl b.uart.netStats.rxFrames c)
    (htx : ToggleCount b.stats.txTgl b.uart.netStats.txFrames c') :
    ToggleCount (board.after b es).stats.rxTgl (board.after b es).uart.netStats.rxFrames
        (Crossing.machine.after c (crossingEdges rxFlips b es)) ∧
      ToggleCount (board.after b es).stats.txTgl (board.after b es).uart.netStats.txFrames
        (Crossing.machine.after c' (crossingEdges txFlips b es)) := by
  induction es generalizing b c c' with
  | nil => exact ⟨hrx, htx⟩
  | cons e es ih =>
      cases e with
      | gmii i =>
          have hrx' := hrx.flip (rxFlips b)
          have htx' := htx.flip (txFlips b)
          have hnext := ih (b.next (.gmii i)) hrx' htx'
          have hedges : ∀ (flips : Board → Bool) (d : Crossing),
              Crossing.machine.after d (crossingEdges flips b (.gmii i :: es))
                = Crossing.machine.after (if flips b then d.next .flip else d)
                    (crossingEdges flips (b.next (.gmii i)) es) := by
            intro flips d
            show Crossing.machine.after d ((if flips b then [CrossingEdge.flip] else []) ++ _) = _
            cases flips b <;> rfl
          rw [hedges, hedges]
          exact hnext
      | gclk rs232Rx delayReady mmcmRefLocked netRxReady =>
          exact ih (b.next (.gclk rs232Rx delayReady mmcmRefLocked netRxReady)) hrx.sample htx.sample

theorem crossingEdges_append (flips : Board → Bool) (b : Board) (es fs : List BoardEdge) :
    crossingEdges flips b (es ++ fs)
      = crossingEdges flips b es ++ crossingEdges flips (board.after b es) fs :=
  Machine.record_append _ b es fs

/-! ## §3. What flips. -/

/-- The inputs of the RX bridge in a run. -/
def rxInputs (es : List BoardEdge) : List RxBridgeIn :=
  es.flatMap fun e =>
    match e with
    | .gmii i => [{ eRxd := i.eRxd, eRxdv := i.eRxdv, netRxReady := i.netRxReady }]
    | .gclk _ _ _ _ => []

theorem rxInputs_snoc (es : List BoardEdge) (e : BoardEdge) :
    rxInputs (es ++ [e]) = rxInputs es ++ rxInputs [e] := List.flatMap_append

/-- The RX bridge of a run is the RX bridge on the wire. -/
theorem rx_after (b : Board) (es : List BoardEdge) :
    (board.after b es).gmii.rx = rxBridgeMachine.after b.gmii.rx (rxInputs es) := by
  induction es generalizing b with
  | nil => rfl
  | cons e es ih =>
      cases e with
      | gmii i => exact ih (b.next (.gmii i))
      | gclk _ _ _ _ => exact ih _

/-- The frames that have begun on the wire. -/
def framesBegun (is : List RxBridgeIn) : Nat := (wireBursts is).closed.length

/-- A frame begins where `rx_dv` rises. -/
theorem framesBegun_snoc (is : List RxBridgeIn) (i : RxBridgeIn) :
    framesBegun (is ++ [i]) = framesBegun is
        + (i.eRxdv && !(wireAt is (is.length + 1)).eRxdv).toNat ∧
      ((wireBursts (is ++ [i])).current = [] ↔ i.eRxdv = false) := by
  -- the burst that goes on is empty exactly behind an idle cycle
  have hcurrent : (wireBursts is).current = [] ↔ (wireAt is (is.length + 1)).eRxdv = false := by
    cases is using List.reverseRecOn with
    | nil => exact ⟨fun _ => rfl, fun _ => rfl⟩
    | append_singleton is x =>
        rw [List.length_append, List.length_singleton, wireAt_last, wireBursts_snoc]
        unfold WireBursts.next
        cases x.eRxdv <;> simp
  rw [framesBegun, framesBegun, wireBursts_snoc]
  unfold WireBursts.next WireBursts.closed
  cases hdv : i.eRxdv with
  | false => simp
  | true =>
      cases hlast : (wireAt is (is.length + 1)).eRxdv with
      | false =>
          rw [hlast] at hcurrent
          simp [hcurrent.mpr rfl]
      | true =>
          have hne : (wireBursts is).current ≠ [] := by
            intro hnil
            rw [hcurrent.mp hnil] at hlast
            cases hlast
          simp [hne]

/-- **The flips of `rx_tgl`** are the frames that have begun, without the cycle that stands in the
first register. -/
theorem flips_rx (b : Board) (es : List BoardEdge) :
    Crossing.flips (crossingEdges rxFlips b.reset es) = framesBegun (rxInputs es).dropLast := by
  induction es using List.reverseRecOn with
  | nil => rfl
  | append_singleton es e ih =>
      rw [crossingEdges_append, rxInputs_snoc]
      show List.count _ (_ ++ _) = _
      rw [List.count_append]
      change Crossing.flips _ + _ = _
      rw [ih]
      cases e with
      | gclk _ _ _ _ =>
          show framesBegun (rxInputs es).dropLast + 0 = framesBegun (rxInputs es ++ []).dropLast
          rw [List.append_nil, Nat.add_zero]
      | gmii i =>
          have hlate := rxBridge_late b.gmii.rx (rxInputs es)
          have hrx := rx_after b.reset es
          change (board.after b.reset es).gmii.rx
            = rxBridgeMachine.after b.gmii.rx.reset (rxInputs es) at hrx
          rw [← hrx] at hlate
          have hflip : List.count CrossingEdge.flip
              (crossingEdges rxFlips (board.after b.reset es) [.gmii i])
                = (rxFlips (board.after b.reset es)).toNat := by
            show List.count _ ((if rxFlips (board.after b.reset es) then [CrossingEdge.flip] else []) ++ [])
              = _
            cases rxFlips (board.after b.reset es) <;> rfl
          have hdrop : (rxInputs es ++ rxInputs [.gmii i]).dropLast = rxInputs es := List.dropLast_concat
          rw [hflip, hdrop]
          unfold rxFlips
          rw [hlate.d1.2, hlate.d2.2]
          -- the last input of the wire is the one that the registers have not compared yet
          cases hin : rxInputs es using List.reverseRecOn with
          | nil => rfl
          | append_singleton is x =>
              rw [List.dropLast_concat, (framesBegun_snoc is x).1, List.length_append, List.length_singleton,
                wireAt_last, wireAt_snoc x (by omega)]

/-- The bridge begins to drain: a burst of one frame or of several without a gap. -/
def burstBegins (b : Board) : Bool := b.gmii.tx.txDraining && !b.stats.eTxenD1

/-- Where no demo frame is sent, `tx_tgl` flips once for each burst of the bridge. -/
theorem txFlips_of_no_demo {b : Board} (h : b.gmii.demo.demoSending = false) :
    b.txFlips = b.burstBegins := by
  unfold txFlips burstBegins Wrapper1g.gmiiTxenSel TxBridge.eTxen
  rw [h]
  rfl

/-- The demo generator is at byte `n` of its frame, and the bridge rests. -/
structure DemoAt (n : Nat) (b : Board) : Prop where
  sending : b.gmii.demo.demoSending = true
  idx : b.gmii.demo.demoIdx.toNat = n
  resting : b.gmii.tx.txDraining = false
  before : b.stats.eTxenD1 = false

theorem DemoAt.txFlips {n : Nat} {b : Board} (h : DemoAt n b) : b.txFlips = true := by
  unfold Board.txFlips Wrapper1g.gmiiTxenSel
  rw [h.sending, h.before]
  rfl

theorem DemoAt.next {n : Nat} {b : Board} (h : DemoAt n b) (hn : n < 71)
    (hrests : b.gmii.tx.txStarts = false) (i : Wrapper1gIn) : DemoAt (n + 1) (b.next (.gmii i)) := by
  have hne : (b.gmii.demo.demoIdx == 71) = false := by
    rw [beq_eq_false_iff_ne]
    intro heq
    have := h.idx
    rw [heq] at this
    exact absurd this (Nat.ne_of_gt hn)
  have hstarts : b.gmii.demo.demoStarts b.gmii.tx.txDraining = false := by
    unfold DemoGen.demoStarts
    rw [h.sending]
    simp
  refine ⟨?_, ?_, ?_, ?_⟩
  · show (b.gmii.demo.next b.gmii.tx.txDraining).demoSending = true
    rw [DemoGen.demoSending_next, h.sending, hne]
    rfl
  · have hidx := h.idx
    show (b.gmii.demo.next b.gmii.tx.txDraining).demoIdx.toNat = n + 1
    unfold DemoGen.next
    rw [hstarts, h.sending]
    show (b.gmii.demo.demoIdx + 1).toNat = n + 1
    bv_omega
  · show (b.gmii.tx.next (b.gmii.txIn i)).txDraining = false
    rw [TxBridge.txDraining_next, h.resting, hrests]
    rfl
  · exact h.resting

/-- **A demo frame flips the toggle in each of its cycles.** -/
theorem flips_demo : ∀ (is : List Wrapper1gIn) {n : Nat} {b : Board}, DemoAt n b → n + is.length = 72 →
    Along board (fun b _ => b.gmii.tx.txStarts = false) b (is.map .gmii) →
      crossingEdges txFlips b (is.map .gmii) = List.replicate is.length .flip
  | [], _, _, _, _, _ => rfl
  | i :: is, n, b, h, hlen, hrests => by
      obtain ⟨hstart, hrest⟩ := hrests
      have htail : crossingEdges txFlips (b.next (.gmii i)) (is.map .gmii)
          = List.replicate is.length .flip := by
        cases is with
        | nil => rfl
        | cons j js =>
            rw [List.length_cons, List.length_cons] at hlen
            exact flips_demo (j :: js) (h.next (by omega) hstart i) (by rw [List.length_cons]; omega) hrest
      show (if txFlips b then [CrossingEdge.flip] else [])
        ++ crossingEdges txFlips (b.next (.gmii i)) (is.map .gmii) = _
      rw [h.txFlips, htail]
      rfl

theorem crossingEdges_congr {flips flips' : Board → Bool} {C : Board → BoardEdge → Prop}
    (h : ∀ b e, C b e → flips b = flips' b) {b : Board} {es : List BoardEdge}
    (hC : Along board C b es) : crossingEdges flips b es = crossingEdges flips' b es := by
  induction es generalizing b with
  | nil => rfl
  | cons e es ih =>
      have hrest : crossingEdges flips (b.next e) es = crossingEdges flips' (b.next e) es := ih hC.2
      cases e with
      | gmii i =>
          show (if flips b then [CrossingEdge.flip] else []) ++ crossingEdges flips (b.next (.gmii i)) es
            = (if flips' b then [CrossingEdge.flip] else []) ++ crossingEdges flips' (b.next (.gmii i)) es
          rw [h b _ hC.1, hrest]
      | gclk rs232Rx delayReady mmcmRefLocked netRxReady =>
          exact congrArg ([CrossingEdge.sample] ++ ·) hrest

end Board

open Board

/-- **The frame counters across the two clocks.**  The edges of `gmii_clk` and `fpga_gclk` come in
any order, and behind them three edges of `fpga_gclk`.

The RX counter then stands, up to its sixteen bits, at the number of frames that have begun on
the wire less two for each lost pair: a beginning whose flip takes back one that no edge of
`fpga_gclk` has sampled.  No pair is lost exactly if an edge of `fpga_gclk` lies between any two
beginnings.  The TX counter stands at the flips of its toggle in the same way.  As long as no demo
frame is sent these are the bursts of the bridge. -/
theorem board_frames_counted (b : Board) (es : List BoardEdge)
    (rs232Rx delayReady mmcmRefLocked netRxReady : Fin 3 → Bool) :
    let edge := fun k => BoardEdge.gclk (rs232Rx k) (delayReady k) (mmcmRefLocked k) (netRxReady k)
    let stats := (board.after b.reset (es ++ [edge 0, edge 1, edge 2])).uart.netStats
    let rx := crossingEdges rxFlips b.reset es
    let tx := crossingEdges txFlips b.reset es
    stats.rxFrames.cnt + BitVec.ofNat 16 (2 * Crossing.lost {} rx)
        = BitVec.ofNat 16 (framesBegun (rxInputs es).dropLast) ∧
      (Crossing.lost {} rx = 0 ↔ rx.IsChain Crossing.Apart) ∧
      stats.txFrames.cnt + BitVec.ofNat 16 (2 * Crossing.lost {} tx)
        = BitVec.ofNat 16 (Crossing.flips tx) ∧
      (Crossing.lost {} tx = 0 ↔ tx.IsChain Crossing.Apart) ∧
      (Along board (fun b _ => b.gmii.demo.demoSending = false) b.reset es →
        tx = crossingEdges burstBegins b.reset es) := by
  intro edge stats rx tx
  have hcount : ∀ (toggle : Bool) (s : ToggleCounter) (edges : List CrossingEdge),
      ToggleCount toggle s (Crossing.machine.after {} (edges ++ [.sample, .sample, .sample])) →
        s.cnt + BitVec.ofNat 16 (2 * Crossing.lost {} edges) = BitVec.ofNat 16 (Crossing.flips edges) := by
    intro toggle s edges h
    have hbalance := Crossing.balance {} (edges ++ [.sample, .sample, .sample])
    have hsettled : (Crossing.machine.after {} (edges ++ [.sample, .sample, .sample])).onWay = 0 := by
      rw [Machine.after_append]
      exact Crossing.settled _
    have hflips : Crossing.flips (edges ++ [.sample, .sample, .sample]) = Crossing.flips edges := by
      show List.count _ (_ ++ _) = List.count _ _
      rw [List.count_append]
      rfl
    have hlost : Crossing.lost {} (edges ++ [.sample, .sample, .sample]) = Crossing.lost {} edges :=
      Crossing.lost_append_samples {} edges
    have hstart : ({} : Crossing).count + ({} : Crossing).onWay = 0 := rfl
    rw [hsettled, hflips, hlost, hstart] at hbalance
    rw [h.cnt, ← BitVec.ofNat_add]
    exact congrArg (BitVec.ofNat 16) (by omega)
  have hstart : ∀ t : Bool, t = false → ToggleCount t {} {} := fun t ht => ⟨ht, rfl, rfl, rfl, rfl⟩
  obtain ⟨hrx, htx⟩ := toggles_run b.reset (es ++ [edge 0, edge 1, edge 2]) (hstart _ rfl) (hstart _ rfl)
  rw [crossingEdges_append] at hrx htx
  have hflips := flips_rx b es
  refine ⟨?_, Crossing.lost_eq_zero_iff rx, ?_, Crossing.lost_eq_zero_iff tx, ?_⟩
  · rw [← hflips]
    exact hcount _ _ rx hrx
  · exact hcount _ _ tx htx
  · intro hno
    exact crossingEdges_congr (fun _ _ h => txFlips_of_no_demo h) hno

end GigabitTcp
