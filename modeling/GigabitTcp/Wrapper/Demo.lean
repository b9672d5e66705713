/-
  GigabitTcp.Wrapper.Demo — the demo generator and the TX bridge share GMII TX.

  The demo generator looks at `tx_draining` before it starts, the bridge does not look at
  `demo_sending`.  If the bridge starts while a demo frame is on the wire, or on the edge on
  which one starts, its bytes are taken out of the FIFO behind the multiplexer.

  Main results:
    * `wrapper1g_exclusive_iff` — when the two are never on the wire together,
    * `wrapper1g_collides`      — a frame that becomes complete at the tick.
-/
import GigabitTcp.Wrapper1g

namespace GigabitTcp

open Hw Machine

/-! ## §1. One cycle. -/

namespace Wrapper1g

/-- Both want the wire. -/
def Collides (s : Wrapper1g) : Prop := s.demo.demoSending = true ∧ s.tx.txDraining = true

instance (s : Wrapper1g) : Decidable s.Collides := inferInstanceAs (Decidable (_ ∧ _))

/-- The demo generator will be sending behind this edge, if the wire is not the bridge's. -/
def demoOnWire (s : Wrapper1g) : Bool :=
  if s.demo.demoSending then !(s.demo.demoIdx == 71) else s.demo.demoTick

/-- A byte of the bridge is on the wire, unless the demo generator is sending. -/
theorem gmiiTx_eq (s : Wrapper1g) (h : ¬ s.Collides) (hdrain : s.tx.txDraining = true) :
    s.gmiiTxenSel = true ∧ s.gmiiTxdSel = s.tx.txFifo.front.data := by
  have hidle : s.demo.demoSending = false := by
    by_contra hsending
    exact h ⟨by simpa using hsending, hdrain⟩
  unfold gmiiTxenSel gmiiTxdSel TxBridge.eTxen TxBridge.eTxd
  rw [hidle, if_pos hdrain]
  exact ⟨hdrain, rfl⟩

end Wrapper1g

theorem DemoGen.demoSending_next (d : DemoGen) (txDraining : Bool) :
    (d.next txDraining).demoSending
      = if d.demoSending then !(d.demoIdx == 71) else d.demoTick && !txDraining := by
  unfold DemoGen.next DemoGen.demoStarts
  cases hs : d.demoSending <;> cases ht : d.demoTick <;> cases txDraining <;> simp

theorem TxBridge.txDraining_next (b : TxBridge) (i : TxBridgeIn) :
    (b.next i).txDraining = if b.txDraining then !b.txStops else b.txStarts := rfl

/-- **One edge**: from a cycle without a collision, there is one behind the edge exactly if
the bridge starts while the demo generator is on the wire, or comes to it. -/
theorem Wrapper1g.collides_next {s : Wrapper1g} (i : Wrapper1gIn) (h : ¬ s.Collides) :
    (s.next i).Collides ↔ s.tx.txStarts = true ∧ s.demoOnWire = true := by
  show (s.demo.next s.tx.txDraining).demoSending = true ∧ (s.tx.next (s.txIn i)).txDraining = true ↔ _
  rw [DemoGen.demoSending_next, TxBridge.txDraining_next]
  unfold demoOnWire
  cases hdrain : s.tx.txDraining with
  | false =>
      -- the demo generator sees a free wire, and nothing else decides
      simp [and_comm]
  | true =>
      -- the bridge is on the wire: the demo generator is idle and stays so
      have hidle : s.demo.demoSending = false := by
        by_contra hsending
        exact h ⟨by simpa using hsending, hdrain⟩
      have hstarts : s.tx.txStarts = false := by
        unfold TxBridge.txStarts
        rw [hdrain]
        rfl
      rw [hidle, hstarts]
      simp

/-! ## §2. Runs. -/

theorem wrapper1g_of_run {s : Wrapper1g} {i : Wrapper1gIn} (hr : i.resetN = true) :
    (wrapper1g s i).1 = s.next i := by
  unfold wrapper1g
  rw [if_pos hr]

theorem wrapper1g_of_reset {s : Wrapper1g} {i : Wrapper1gIn} (hr : i.resetN = false) :
    (wrapper1g s i).1 = s.reset := by
  unfold wrapper1g
  rw [hr]
  rfl

/-- In every run from reset: the two are never on the wire together, and every byte that the
bridge takes out of the FIFO is on the wire, exactly if the bridge never starts to drain while
a demo frame goes out or on the edge on which one starts. -/
theorem wrapper1g_exclusive_iff (s : Wrapper1g) (inp : Nat → Wrapper1gIn) :
    let t := wrapper1g.trace s.reset inp
    (∀ n, ¬ ((t n).demo.demoSending = true ∧ (t n).tx.txDraining = true)
        ∧ ((t n).tx.txDraining = true →
          (t n).gmiiTxenSel = true ∧ (t n).gmiiTxdSel = (t n).tx.txFifo.front.data))
      ↔ ∀ n, (inp n).resetN = true → (t n).tx.txStarts = true →
          if (t n).demo.demoSending then (t n).demo.demoIdx = 71 else (t n).demo.demoTick = false := by
  intro t
  have hnext : ∀ n, (inp n).resetN = true → t (n + 1) = (t n).next (inp n) :=
    fun n hr => wrapper1g_of_run hr
  have honWire : ∀ n, ((t n).demoOnWire = true
      ↔ ¬ if (t n).demo.demoSending then (t n).demo.demoIdx = 71 else (t n).demo.demoTick = false) := by
    intro n
    unfold Wrapper1g.demoOnWire
    split <;> simp
  constructor
  · intro hexcl n hr hstarts
    -- a start in such a cycle would collide behind the next edge
    by_contra hdemo
    have hcollides := (Wrapper1g.collides_next (inp n) (hexcl n).1).mpr ⟨hstarts, (honWire n).mpr hdemo⟩
    rw [← hnext n hr] at hcollides
    exact (hexcl (n + 1)).1 hcollides
  · intro hapart
    have hexcl : ∀ n, ¬ (t n).Collides := by
      intro n
      induction n with
      | zero => exact fun h => Bool.noConfusion h.1
      | succ n ih =>
          cases hr : (inp n).resetN with
          | true =>
              rw [hnext n hr, Wrapper1g.collides_next (inp n) ih]
              exact fun h => (honWire n).mp h.2 (hapart n hr h.1)
          | false =>
              -- the reset takes both off the wire
              have hreset : t (n + 1) = (t n).reset := wrapper1g_of_reset hr
              rw [hreset]
              exact fun h => Bool.noConfusion h.1
    exact fun n => ⟨hexcl n, (t n).gmiiTx_eq (hexcl n)⟩

/-! ## §3. A collision. -/

/-- The wrapper after power-up. -/
def Wrapper1g.init : Wrapper1g :=
  { rx := { rxD1 := 0, rxD2 := 0, rxDvD1 := false, rxDvD2 := false
            rxFifo := { mem := fun _ => { data := 0, last := false }, wptr := 0, rptr := 0 } }
    tx := { txFifo := { mem := fun _ => { data := 0, last := false }, wptr := 0, rptr := 0 }
            txFrameCnt := 0, txDraining := false, txGap := 0 }
    demo := .reset
    ipEnable := false }

/-- Nothing happens but that the IP sends a frame of one byte in the cycle before the tick. -/
def frameAtTick (n : Nat) : Wrapper1gIn :=
  { resetN := true, eRxd := 0, eRxdv := false, netRxReady := true
    netTxValid := n = 124999998, netTxData := 0x1AA }

/-- Nothing sent, for `n` cycles. -/
structure Wrapper1g.Waits (s : Wrapper1g) (n : Nat) : Prop where
  demoCnt : s.demo.demoCnt.toNat = n
  demoSending : s.demo.demoSending = false
  txFifo : s.tx.txFifo.occ = 0
  txFrameCnt : s.tx.txFrameCnt = 0
  txDraining : s.tx.txDraining = false
  txGap : s.tx.txGap.toNat = 12 - n
  ipEnable : s.ipEnable = decide (0 < n)

/-- The bridge has nothing to send. -/
theorem Wrapper1g.Waits.txStarts {s : Wrapper1g} {n : Nat} (h : s.Waits n) : s.tx.txStarts = false := by
  unfold TxBridge.txStarts
  rw [h.txFrameCnt]
  simp

/-- The gap counter runs down. -/
theorem Wrapper1g.Waits.txGap_next {s : Wrapper1g} {n : Nat} (h : s.Waits n) (i : TxBridgeIn) :
    (s.tx.next i).txGap.toNat = 12 - (n + 1) := by
  unfold TxBridge.next
  dsimp only
  rw [h.txDraining, if_neg Bool.false_ne_true]
  have hgap := h.txGap
  by_cases hpos : 0 < s.tx.txGap
  · have hone : (1 : BitVec 4) ≤ s.tx.txGap := hpos
    rw [if_pos hpos, BitVec.toNat_sub_of_le hone, hgap]
    show 12 - n - 1 = _
    omega
  · rw [if_neg hpos, hgap]
    have : ¬ 0 < s.tx.txGap.toNat := hpos
    omega

/-- The second counter runs up. -/
theorem Wrapper1g.Waits.demoCnt_next {s : Wrapper1g} {n : Nat} (h : s.Waits n) (hn : n < 124999999) :
    (s.demo.next false).demoCnt.toNat = n + 1 ∧ (s.demo.next false).demoSending = false := by
  have htick : s.demo.demoTick = false := by
    unfold DemoGen.demoTick
    rw [beq_eq_false_iff_ne]
    intro hcnt
    have := h.demoCnt
    rw [hcnt] at this
    exact absurd hn (by rw [← this]; decide)
  have hcnt : (s.demo.next false).demoCnt = s.demo.demoCnt + 1 := by
    have hless : ¬ 124999999 ≤ s.demo.demoCnt := by
      rw [BitVec.le_def, h.demoCnt]
      exact Nat.not_le.mpr hn
    unfold DemoGen.next DemoGen.demoStarts
    rw [h.demoSending, htick]
    exact if_neg hless
  constructor
  · rw [hcnt, BitVec.toNat_add, h.demoCnt]
    show (n + 1) % 134217728 = n + 1
    omega
  · rw [DemoGen.demoSending_next, h.demoSending, htick]
    rfl

/-- One cycle of waiting. -/
theorem Wrapper1g.Waits.next {s : Wrapper1g} {n : Nat} (h : s.Waits n) (hn : n < 124999999)
    {i : Wrapper1gIn} (hquiet : i.netTxValid = false) : (s.next i).Waits (n + 1) := by
  -- the IP offers nothing, so neither FIFO nor frame count moves
  have hnopush : s.tx.txPush (s.txIn i) = false := by
    unfold TxBridge.txPush txIn
    rw [hquiet, Bool.and_false]
    rfl
  have hdemo : (s.next i).demo = s.demo.next false := by
    show s.demo.next s.tx.txDraining = _
    rw [h.txDraining]
  obtain ⟨hcnt, hsending⟩ := h.demoCnt_next hn
  refine ⟨?_, ?_, ?_, ?_, ?_, h.txGap_next _, ?_⟩
  · rw [hdemo, hcnt]
  · rw [hdemo, hsending]
  · show (s.tx.txFifo.step (s.tx.txPushWord _) s.tx.txDraining).occ = 0
    unfold TxBridge.txPushWord
    rw [hnopush, h.txDraining]
    exact h.txFifo
  · show (TxBridge.next _ _).txFrameCnt = 0
    unfold TxBridge.next TxBridge.txPushLast TxBridge.txEmitLast
    rw [hnopush, h.txDraining]
    exact h.txFrameCnt
  · show (TxBridge.next _ _).txDraining = false
    rw [TxBridge.txDraining_next, h.txDraining, h.txStarts]
    rfl
  · exact (decide_eq_true (Nat.succ_pos n)).symm

theorem wrapper1g_waits (n : Nat) (hn : n ≤ 124999998) :
    (wrapper1g.trace Wrapper1g.init.reset frameAtTick n).Waits n := by
  induction n with
  | zero => exact ⟨rfl, rfl, rfl, rfl, rfl, rfl, rfl⟩
  | succ n ih =>
      have hquiet : (frameAtTick n).netTxValid = false := by
        unfold frameAtTick
        rw [decide_eq_false_iff_not]
        omega
      exact (ih (by omega)).next (by omega) hquiet

/-- A frame of one byte arrives. -/
theorem Wrapper1g.Waits.frame {s : Wrapper1g} {n : Nat} (h : s.Waits n) (hn : 12 ≤ n)
    {i : Wrapper1gIn} (hvalid : i.netTxValid = true) (hlast : i.netTxData.getLsbD 8 = true) :
    (s.next i).tx.txStarts = true := by
  have hpush : s.tx.txPush (s.txIn i) = true := by
    unfold TxBridge.txPush txIn TxBridge.netTxReady TxBridge.txOcc
    rw [h.txFifo, hvalid, h.ipEnable, decide_eq_true (by omega : 0 < n)]
    rfl
  -- the byte is its own last one, so a whole frame is there
  have hcnt : (s.next i).tx.txFrameCnt = 1 := by
    show (TxBridge.next _ _).txFrameCnt = 1
    unfold TxBridge.next TxBridge.txPushLast TxBridge.txEmitLast
    rw [hpush, h.txDraining, h.txFrameCnt]
    show (if (true && i.netTxData.getLsbD 8 && !(false && _)) = true then _ else _) = _
    rw [hlast]
    rfl
  -- and the gap of the frame before it is long over
  have hgap : (s.next i).tx.txGap = 0 := by
    have := h.txGap_next (s.txIn i)
    refine BitVec.eq_of_toNat_eq ?_
    show (s.tx.next _).txGap.toNat = 0
    omega
  have hdrain : (s.next i).tx.txDraining = false := by
    show (TxBridge.next _ _).txDraining = false
    rw [TxBridge.txDraining_next, h.txDraining, h.txStarts]
    rfl
  unfold TxBridge.txStarts
  rw [hcnt, hgap, hdrain]
  rfl

/-- The second is over behind a cycle of waiting. -/
theorem Wrapper1g.Waits.tick {s : Wrapper1g} (h : s.Waits 124999998) (i : Wrapper1gIn) :
    (s.next i).demo.demoSending = false ∧ (s.next i).demo.demoTick = true := by
  obtain ⟨hcnt, hsending⟩ := h.demoCnt_next (by decide)
  have hdemo : (s.next i).demo = s.demo.next false := by
    show s.demo.next s.tx.txDraining = _
    rw [h.txDraining]
  rw [hdemo]
  refine ⟨hsending, ?_⟩
  unfold DemoGen.demoTick
  rw [beq_iff_eq]
  exact BitVec.eq_of_toNat_eq hcnt

theorem collides_of_waits {s : Wrapper1g} (h : s.Waits 124999998) {i : Wrapper1gIn}
    (hvalid : i.netTxValid = true) (hlast : i.netTxData.getLsbD 8 = true) (j : Wrapper1gIn) :
    ((s.next i).next j).Collides := by
  obtain ⟨hidle, htick⟩ := h.tick i
  have hapart : ¬ (s.next i).Collides := by
    rintro ⟨hsending, -⟩
    rw [hidle] at hsending
    cases hsending
  refine (Wrapper1g.collides_next j hapart).mpr ⟨h.frame (by decide) hvalid hlast, ?_⟩
  unfold Wrapper1g.demoOnWire
  rw [hidle]
  exact htick

/-- The frame is complete when the second is over: both start on the same edge. -/
theorem wrapper1g_collides :
    let t := wrapper1g.trace Wrapper1g.init.reset frameAtTick
    (t 125000000).demo.demoSending = true ∧ (t 125000000).tx.txDraining = true := by
  intro t
  have hstep : ∀ n, t (n + 1) = (t n).next (frameAtTick n) := fun n => wrapper1g_of_run rfl
  have hframe : (frameAtTick 124999998).netTxValid = true := by
    unfold frameAtTick
    rw [decide_eq_true_eq]
  have hboth := collides_of_waits (wrapper1g_waits 124999998 (Nat.le_refl _)) hframe rfl
    (frameAtTick 124999999)
  rw [← hstep 124999998, ← hstep 124999999] at hboth
  exact hboth

end GigabitTcp
