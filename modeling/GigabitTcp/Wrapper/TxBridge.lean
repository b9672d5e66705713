/-
  GigabitTcp.Wrapper.TxBridge — the TX FIFO bridge of `wrapper_1g.v`.

  The bridge collects the words of the IP in `tx_fifo` and counts the complete frames in it.
  It drains only while there is a complete frame, so a frame leaves without a hole; it stops
  to drain, and waits for the inter-frame gap, when the last complete frame has left.

  Main results:
    * `txBridge_contiguous` — every run keeps the frame count, the order and the contiguity,
    * `txBridge_gap_iff`    — the gap follows a frame exactly if no other frame was complete,
    * `txBridge_no_gap`     — two complete frames leave without a gap.
-/
import GigabitTcp.Wrapper1g

namespace GigabitTcp

open Hw Machine

/-! ## §1. The invariant. -/

/-- The frame counter counts the last-marked words in the FIFO, the FIFO keeps below its
threshold, and only complete frames are drained. -/
structure TxBridge.Inv (s : TxBridge) : Prop where
  counted : s.txFrameCnt.toNat = s.txFifo.contents.countP (·.last)
  fits : s.txFifo.occ.toNat ≤ 1900
  complete : s.txDraining = true → 1 ≤ s.txFrameCnt.toNat

namespace TxBridge

variable {s : TxBridge} (i : TxBridgeIn)

theorem inv_reset (s : TxBridge) : s.reset.Inv := by
  refine ⟨?_, ?_, nofun⟩
  · show _ = s.txFifo.clear.contents.countP _
    rw [Ring.contents_clear]
    rfl
  · show s.txFifo.clear.occ.toNat ≤ 1900
    rw [Ring.occ_clear]
    decide

/-- A push finds room. -/
theorem txPushWord_room (h : (s.txPushWord i).isSome = true) : s.txFifo.occ.toNat < 1900 := by
  unfold txPushWord txPush netTxReady at h
  split at h
  · rename_i hpush
    simp only [Bool.and_eq_true, decide_eq_true_eq, BitVec.lt_def] at hpush
    exact hpush.2
  · cases h

/-- 1900 words leave room in a ring of 2048. -/
theorem txPushWord_fits (h : (s.txPushWord i).isSome = true) : s.txFifo.occ.toNat + 1 < 2 ^ 11 := by
  have hroom := txPushWord_room i h
  omega

/-- A bridge that drains has a word to emit. -/
theorem Inv.nonempty (h : s.Inv) (hdrain : s.txDraining = true) : 0 < s.txFifo.occ.toNat := by
  have hone := h.complete hdrain
  have hle : s.txFifo.contents.countP (·.last) ≤ s.txFifo.contents.length := List.countP_le_length
  rw [Ring.length_contents, ← h.counted] at hle
  omega

/-- **Conservation**: what waits and what is accepted is what is emitted and what waits then. -/
theorem Inv.conserves (h : s.Inv) :
    s.txFifo.contents ++ (s.txPushWord i).toList
      = s.txEmitWord.toList ++ (s.next i).txFifo.contents := by
  have hemit : s.txEmitWord.toList = if s.txDraining then [s.txFifo.front] else [] := by
    unfold txEmitWord
    split <;> rfl
  rw [hemit]
  exact s.txFifo.step_conserves (txPushWord_fits i) h.nonempty

/-- The last-marked words among what is accepted and emitted. -/
theorem countP_txPushWord :
    (s.txPushWord i).toList.countP (·.last) = (s.txPushLast i).toNat := by
  unfold txPushWord txPushLast
  cases s.txPush i with
  | false => rfl
  | true =>
      show List.countP _ [_] = _
      rw [List.countP_singleton]
      cases i.netTxData.getLsbD 8 <;> rfl

theorem countP_txEmitWord : s.txEmitWord.toList.countP (·.last) = s.txEmitLast.toNat := by
  unfold txEmitWord txEmitLast
  cases s.txDraining with
  | false => rfl
  | true =>
      show List.countP _ [_] = _
      rw [List.countP_singleton]
      cases s.txFifo.front.last <;> rfl

/-- The counter in numbers: a frame that is completed and a frame that leaves. -/
theorem Inv.toNat_cnt (h : s.Inv) :
    (s.next i).txFrameCnt.toNat + s.txEmitLast.toNat = s.txFrameCnt.toNat + (s.txPushLast i).toNat := by
  have hle : s.txFifo.contents.countP (·.last) ≤ s.txFifo.contents.length := List.countP_le_length
  rw [Ring.length_contents, ← h.counted] at hle
  have hfits := h.fits
  unfold next
  dsimp only
  cases hp : s.txPushLast i with
  | true =>
      cases he : s.txEmitLast with
      | true => rfl
      | false =>
          show (s.txFrameCnt + 1).toNat + 0 = s.txFrameCnt.toNat + 1
          rw [BitVec.toNat_add]
          show (s.txFrameCnt.toNat + 1) % 2 ^ 11 + 0 = _
          omega
  | false =>
      cases he : s.txEmitLast with
      | true =>
          -- a word that leaves belongs to a complete frame
          have hdrain : s.txDraining = true := by
            unfold txEmitLast at he
            rw [Bool.and_eq_true] at he
            exact he.1
          have hone := h.complete hdrain
          show (s.txFrameCnt - 1).toNat + 1 = s.txFrameCnt.toNat + 0
          rw [BitVec.toNat_sub_of_le (by rw [BitVec.le_def]; exact hone)]
          show s.txFrameCnt.toNat - 1 + 1 = _
          omega
      | false => rfl

/-- **One cycle** keeps the invariant. -/
theorem Inv.next (h : s.Inv) : (s.next i).Inv := by
  have hcnt := h.toNat_cnt i
  refine ⟨?_, ?_, ?_⟩
  · -- the last-marked words move with the words
    have hcons := congrArg (List.countP (fun w : GmiiByte => w.last)) (h.conserves i)
    rw [List.countP_append, List.countP_append, countP_txPushWord, countP_txEmitWord, ← h.counted] at hcons
    omega
  · have hocc : (s.next i).txFifo.occ.toNat + s.txDraining.toNat
        = s.txFifo.occ.toNat + (s.txPushWord i).toList.length :=
      s.txFifo.toNat_occ_step (txPushWord_fits i) h.nonempty
    have hfits := h.fits
    -- a push that finds room ends at 1900 at most; without a push nothing is added
    cases hp : s.txPushWord i with
    | none =>
        rw [hp, Option.toList_none, List.length_nil] at hocc
        omega
    | some x =>
        have hroom := txPushWord_room i (by rw [hp]; rfl)
        rw [hp, Option.toList_some, List.length_singleton] at hocc
        omega
  · intro hdrain
    unfold TxBridge.next at hdrain
    dsimp only at hdrain
    by_cases hnow : s.txDraining = true
    · -- it goes on: the word was not the last one of the only complete frame
      rw [if_pos hnow] at hdrain
      have hone := h.complete hnow
      have hmore : s.txEmitLast = true → s.txFrameCnt.toNat ≠ 1 := by
        intro hlast hc
        have hstops : s.txStops = true := by
          unfold txStops
          unfold txEmitLast at hlast
          rw [hlast, Bool.true_and, beq_iff_eq]
          exact BitVec.eq_of_toNat_eq hc
        rw [hstops] at hdrain
        cases hdrain
      cases he : s.txEmitLast with
      | true =>
          have := hmore he
          rw [he, Bool.toNat_true] at hcnt
          omega
      | false =>
          rw [he, Bool.toNat_false] at hcnt
          omega
    · -- it starts: a complete frame waits
      rw [if_neg hnow] at hdrain
      have hnoemit : s.txEmitLast = false := by
        unfold txEmitLast
        rw [Bool.not_eq_true] at hnow
        rw [hnow, Bool.false_and]
      have hwaits : 0 < s.txFrameCnt := by
        unfold txStarts at hdrain
        simp only [Bool.and_eq_true, decide_eq_true_eq] at hdrain
        exact hdrain.1.2
      rw [BitVec.lt_def] at hwaits
      rw [hnoemit, Bool.toNat_false] at hcnt
      show 1 ≤ (s.next i).txFrameCnt.toNat
      have hpos : 0 < s.txFrameCnt.toNat := hwaits
      omega

end TxBridge

/-! ## §2. Order and contiguity. -/

/-- What a run has accepted is what it has emitted and what waits. -/
structure TxBridge.Ordered (s : TxBridge) (os : List TxBridgeOut) : Prop where
  inv : s.Inv
  order : os.filterMap (·.accepted) = os.filterMap (·.emitted) ++ s.txFifo.contents

theorem TxBridge.Ordered.next {s : TxBridge} {os : List TxBridgeOut} (h : s.Ordered os)
    (i : TxBridgeIn) : (txBridgeMachine s i).1.Ordered (os ++ [(txBridgeMachine s i).2]) := by
  have hcons := h.inv.conserves i
  refine ⟨h.inv.next i, ?_⟩
  have haccepted : [(txBridgeMachine s i).2].filterMap (·.accepted) = (s.txPushWord i).toList := by
    show [_].filterMap _ = _
    cases hp : s.txPushWord i <;> simp [txBridgeMachine, hp]
  have hemitted : [(txBridgeMachine s i).2].filterMap (·.emitted) = s.txEmitWord.toList := by
    cases hp : s.txEmitWord <;> simp [txBridgeMachine, hp]
  rw [List.filterMap_append, List.filterMap_append, haccepted, hemitted, h.order, List.append_assoc,
    hcons, List.append_assoc]
  rfl

theorem txBridge_ordered (s : TxBridge) (is : List TxBridgeIn) :
    (txBridgeMachine.after s.reset is).Ordered (txBridgeMachine.outs s.reset is) := by
  have hstart : s.reset.Ordered [] := ⟨s.inv_reset, (Ring.contents_clear s.txFifo).symm⟩
  exact Along.invariant_io (C := fun _ _ => True) (P := fun t _ os => TxBridge.Ordered t os)
    (fun t _ os i h _ => h.next i) [] [] is hstart (Along.of_all (fun _ _ => trivial) _ _)

/-- **Inside a frame** the bridge goes on draining. -/
theorem TxBridge.draining_of_not_last {s : TxBridge} (i : TxBridgeIn) (hdrain : s.txDraining = true)
    (hlast : s.txFifo.front.last = false) : (s.next i).txDraining = true := by
  unfold TxBridge.next TxBridge.txStops
  dsimp only
  rw [if_pos hdrain, hlast, Bool.and_false, Bool.false_and]
  rfl

/-- As long as no last-marked word leaves, the bridge drains. -/
theorem txBridge_draining : ∀ (js : List TxBridgeIn) {s : TxBridge}, s.txDraining = true →
    (∀ o ∈ txBridgeMachine.outs s js, ∀ w, o.emitted = some w → w.last = false) →
      (txBridgeMachine.after s js).txDraining = true
  | [], _, hdrain, _ => hdrain
  | j :: js, s, hdrain, hinside => by
      have hword : s.txEmitWord = some s.txFifo.front := by
        unfold TxBridge.txEmitWord
        rw [if_pos hdrain]
      have hlast : s.txFifo.front.last = false :=
        hinside _ List.mem_cons_self s.txFifo.front hword
      have hnext := TxBridge.draining_of_not_last j hdrain hlast
      exact txBridge_draining js hnext (fun o ho => hinside o (List.mem_cons_of_mem _ ho))

/-- In every run from reset the frame counter is right, the occupancy keeps below 1901, the
words leave in order, each once, and a frame that has begun to leave does so without a hole
and without an underrun. -/
theorem txBridge_contiguous (s : TxBridge) (is : List TxBridgeIn) :
    let t := txBridgeMachine.after s.reset is
    let os := txBridgeMachine.outs s.reset is
    t.txFrameCnt.toNat = t.txFifo.contents.countP (·.last)
      ∧ t.txOcc.toNat ≤ 1900
      ∧ (t.txDraining = true → 1 ≤ t.txFrameCnt.toNat)
      ∧ os.filterMap (·.accepted) = os.filterMap (·.emitted) ++ t.txFifo.contents
      ∧ ∀ js, t.txDraining = true →
        (∀ o ∈ txBridgeMachine.outs t js, ∀ w, o.emitted = some w → w.last = false) →
          (txBridgeMachine.after t js).txDraining = true
            ∧ 0 < (txBridgeMachine.after t js).txOcc.toNat := by
  intro t os
  obtain ⟨hinv, horder⟩ := txBridge_ordered s is
  refine ⟨hinv.counted, hinv.fits, hinv.complete, horder, fun js hdrain hinside => ?_⟩
  -- the longer run is a run from reset too, so the invariant holds there as well
  have hlater : (txBridgeMachine.after t js).txDraining = true := txBridge_draining js hdrain hinside
  have hinv' : (txBridgeMachine.after t js).Inv := by
    have h := (txBridge_ordered s (is ++ js)).inv
    rwa [after_append] at h
  exact ⟨hlater, hinv'.nonempty hlater⟩

/-! ## §3. The inter-frame gap. -/

/-- While the gap counter runs, nothing is emitted, and it runs down. -/
theorem TxBridge.gap_next {s : TxBridge} (i : TxBridgeIn) (hquiet : s.txDraining = false)
    (hgap : 0 < s.txGap.toNat) :
    (s.next i).txDraining = false ∧ (s.next i).txGap.toNat + 1 = s.txGap.toNat := by
  have hpos : 0 < s.txGap := hgap
  have hrunning : (s.txGap == 0) = false := by
    rw [beq_eq_false_iff_ne]
    intro h
    rw [h] at hgap
    exact absurd hgap (by decide)
  unfold TxBridge.next TxBridge.txStarts
  dsimp only
  rw [hquiet, hrunning, if_neg Bool.false_ne_true, if_neg Bool.false_ne_true, if_pos hpos, Bool.and_false]
  refine ⟨rfl, ?_⟩
  have hone : (1 : BitVec 4) ≤ s.txGap := hgap
  rw [BitVec.toNat_sub_of_le hone]
  show s.txGap.toNat - 1 + 1 = _
  omega

/-- The gap after the only complete frame. -/
theorem TxBridge.gap_after_stop (inp : Nat → TxBridgeIn) {s : TxBridge} {n : Nat}
    (hstops : (txBridgeMachine.trace s inp n).txStops = true) : ∀ k, k ≤ 12 →
      (txBridgeMachine.trace s inp (n + 1 + k)).txDraining = false
        ∧ (txBridgeMachine.trace s inp (n + 1 + k)).txGap.toNat + k = 12 := by
  intro k
  induction k with
  | zero =>
      -- the edge on which the last word leaves loads the counter
      intro _
      have hdrain : (txBridgeMachine.trace s inp n).txDraining = true := by
        unfold TxBridge.txStops at hstops
        simp only [Bool.and_eq_true] at hstops
        exact hstops.1.1
      show (TxBridge.next _ _).txDraining = false ∧ (TxBridge.next _ _).txGap.toNat + 0 = 12
      unfold TxBridge.next
      dsimp only
      rw [if_pos hdrain, if_pos hdrain, hstops]
      exact ⟨rfl, rfl⟩
  | succ k ih =>
      intro hk
      obtain ⟨hquiet, hgap⟩ := ih (by omega)
      obtain ⟨hquiet', hgap'⟩ := TxBridge.gap_next (inp (n + 1 + k)) hquiet (by omega)
      have hstep : txBridgeMachine.trace s inp (n + 1 + (k + 1))
          = (txBridgeMachine.trace s inp (n + 1 + k)).next (inp (n + 1 + k)) := rfl
      rw [hstep]
      exact ⟨hquiet', by omega⟩

/-- In every run from reset: the wire is quiet for 12 cycles behind every frame exactly if
every frame leaves while it is the only complete one in the FIFO. -/
theorem txBridge_gap_iff (s : TxBridge) (inp : Nat → TxBridgeIn) :
    let t := txBridgeMachine.trace s.reset inp
    (∀ n, (t n).txEmitLast = true → ∀ k, k < 12 → (t (n + 1 + k)).eTxen = false)
      ↔ ∀ n, (t n).txEmitLast = true → (t n).txFrameCnt = 1 := by
  intro t
  constructor
  · intro hgap n hlast
    by_contra hmore
    -- the next frame follows at once
    have hdrain : (t n).txDraining = true := by
      unfold TxBridge.txEmitLast at hlast
      rw [Bool.and_eq_true] at hlast
      exact hlast.1
    have hgoes : (t (n + 1)).txDraining = true := by
      show (TxBridge.next _ _).txDraining = true
      unfold TxBridge.next TxBridge.txStops
      dsimp only
      rw [if_pos hdrain, show ((t n).txFrameCnt == 1) = false from beq_eq_false_iff_ne.mpr hmore,
        Bool.and_false]
      rfl
    have hquiet : (t (n + 1)).txDraining = false := hgap n hlast 0 (by omega)
    rw [hgoes] at hquiet
    cases hquiet
  · intro honly n hlast k hk
    have hstops : (t n).txStops = true := by
      have hone := honly n hlast
      unfold TxBridge.txEmitLast at hlast
      unfold TxBridge.txStops
      rw [hlast, hone]
      rfl
    exact (TxBridge.gap_after_stop inp hstops k (by omega)).1

/-- Two frames of two words each come in one after the other. -/
def twoFrames (n : Nat) : TxBridgeIn :=
  { ipEnable := true, netTxValid := n < 4, netTxData := if n % 2 = 0 then 0x0AA else 0x1BB }

/-- The second frame follows the first one without a gap. -/
theorem txBridge_no_gap :
    let s : TxBridge := { txFifo := { mem := fun _ => { data := 0, last := false }, wptr := 0, rptr := 0 }
                          txFrameCnt := 0, txDraining := false, txGap := 0 }
    let t := txBridgeMachine.trace s.reset twoFrames
    (t 14).txEmitLast = true ∧ (t 15).eTxen = true := by
  decide +kernel

end GigabitTcp
