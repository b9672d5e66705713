/-
  GigabitTcp.Wrapper.Settles — what the TX bridge lets out in the end.

  The bridge drains only whole frames, and takes no word while 1900 are in its FIFO.  So a frame of
  more than 1900 bytes never becomes whole: it stays in the FIFO up to the next reset, and everything
  behind it waits.  Every frame before it leaves, if the IP offers its words long enough.

  Main results:
    * `Settled.next`, `rank_next` — an edge settles the bridge a bit further,
    * `wire_settles`              — what is on the wire then.
-/
import GigabitTcp.Wrapper.Wire

namespace GigabitTcp

open Hw Machine

/-- An edge on which the IP offers its next word, if it has one. -/
def Wrapper1gNetIn.offers : Wrapper1gNetIn → Bool
  | .edge _ _ _ txValid => txValid
  | .pass .. => false

namespace Wrapper1gNet

variable (s : Wrapper1gNet)

/-- The words on their way to the wire. -/
def pending : Nat := s.gmii.tx.txFifo.contents.length + s.txStream.length

/-- There is no whole frame in the FIFO, and the bridge takes no word that could make one whole. -/
structure Settled : Prop where
  txDraining : s.gmii.tx.txDraining = false
  txFrameCnt : s.gmii.tx.txFrameCnt = 0
  blocked : s.txHandshake true = false

/-- A word that leaves outweighs the gap it may leave behind. -/
def rank : Nat :=
  14 * s.pending + s.txStream.length + s.gmii.tx.txGap.toNat + (!s.gmii.tx.txDraining).toNat

theorem rank_le : s.rank ≤ 15 * s.pending + 16 := by
  have hgap : s.gmii.tx.txGap.toNat < 2 ^ 4 := s.gmii.tx.txGap.isLt
  have hflag : (!s.gmii.tx.txDraining).toNat ≤ 1 := Bool.toNat_le _
  unfold rank pending
  omega

end Wrapper1gNet

section Settle

variable {pacing : U32} {s : Wrapper1gNet} {ps : List PassIn} {words : List GmiiByte}

/-- The words move on. -/
theorem Wired.length_next (h : Wired pacing s ps words) (eRxd : U8) (eRxdv rxReady : Bool) :
    let t := s.next pacing (.edge eRxd eRxdv rxReady true)
    t.txStream.length + (s.txHandshake true).toNat = s.txStream.length
      ∧ t.pending + s.gmii.tx.txDraining.toNat = s.pending := by
  intro t
  have hstream : t.txStream.length + (s.txHandshake true).toNat = s.txStream.length := by
    show (if s.txHandshake true then s.txStream.tail else s.txStream).length + _ = _
    cases hshake : s.txHandshake true with
    | true =>
        obtain ⟨b, rest, hwords⟩ := Wrapper1gNet.txStream_of_handshake hshake
        rw [if_pos rfl, hwords]
        rfl
    | false => rfl
  have hpush : (if s.txHandshake true then s.txStream.head? else none).toList.length
      = (s.txHandshake true).toNat := by
    cases hshake : s.txHandshake true with
    | true =>
        obtain ⟨b, rest, hwords⟩ := Wrapper1gNet.txStream_of_handshake hshake
        rw [if_pos rfl, hwords]
        rfl
    | false => rfl
  have hemit : s.gmii.tx.txEmitWord.toList.length = s.gmii.tx.txDraining.toNat := by
    unfold TxBridge.txEmitWord
    cases s.gmii.tx.txDraining <;> rfl
  have hconserves := congrArg List.length
    (h.bridge.conserves (s.gmii.txIn (s.gmiiIn eRxd eRxdv rxReady true)))
  rw [h.pushes, List.length_append, List.length_append, hpush, hemit] at hconserves
  refine ⟨hstream, ?_⟩
  show (s.gmii.tx.next (s.gmii.txIn _)).txFifo.contents.length + t.txStream.length + _ = _
  unfold Wrapper1gNet.pending
  omega

/-- A bridge that has settled stays as it is. -/
theorem Settled.next (h : Wired pacing s ps words) (hs : s.Settled) (eRxd : U8) (eRxdv rxReady : Bool) :
    (s.next pacing (.edge eRxd eRxdv rxReady true)).Settled := by
  have hconserves := h.bridge.conserves (s.gmii.txIn (s.gmiiIn eRxd eRxdv rxReady true))
  have hcounted := (h.bridge.next (s.gmii.txIn (s.gmiiIn eRxd eRxdv rxReady true))).counted
  rw [h.pushes, hs.blocked] at hconserves
  unfold TxBridge.txEmitWord at hconserves
  rw [hs.txDraining, if_neg Bool.false_ne_true, if_neg Bool.false_ne_true, Option.toList_none,
    List.append_nil, List.nil_append] at hconserves
  rw [← hconserves, ← h.bridge.counted] at hcounted
  have hocc : (s.gmii.tx.next (s.gmii.txIn (s.gmiiIn eRxd eRxdv rxReady true))).txOcc = s.gmii.tx.txOcc := by
    apply BitVec.eq_of_toNat_eq
    have hlen := congrArg List.length hconserves
    rw [Ring.length_contents, Ring.length_contents] at hlen
    exact hlen.symm
  refine ⟨?_, (BitVec.eq_of_toNat_eq hcounted).trans hs.txFrameCnt, ?_⟩
  · show (TxBridge.next _ _).txDraining = false
    rw [TxBridge.txDraining_next, hs.txDraining, if_neg Bool.false_ne_true]
    unfold TxBridge.txStarts
    rw [hs.txFrameCnt]
    simp
  · have hblocked := hs.blocked
    unfold Wrapper1gNet.txHandshake TxBridge.netTxReady at hblocked ⊢
    show (true && !(if s.txHandshake true then s.txStream.tail else s.txStream).isEmpty
      && decide ((s.gmii.tx.next (s.gmii.txIn _)).txOcc < 1900)) = false
    rw [hs.blocked, if_neg Bool.false_ne_true, hocc]
    exact hblocked

/-- Another bridge comes closer to it. -/
theorem rank_next (h : Wired pacing s ps words) (hs : ¬ s.Settled) (eRxd : U8) (eRxdv rxReady : Bool) :
    (s.next pacing (.edge eRxd eRxdv rxReady true)).rank < s.rank := by
  obtain ⟨hstream, hpending⟩ := h.length_next eRxd eRxdv rxReady
  generalize ht : s.next pacing (.edge eRxd eRxdv rxReady true) = t at *
  have hbridge : t.gmii.tx = s.gmii.tx.next (s.gmii.txIn (s.gmiiIn eRxd eRxdv rxReady true)) := by
    rw [← ht]
    rfl
  generalize s.gmii.txIn (s.gmiiIn eRxd eRxdv rxReady true) = i at hbridge
  unfold Wrapper1gNet.rank
  cases hdrain : s.gmii.tx.txDraining with
  | true =>
      -- a word leaves, and at most a gap comes for it
      rw [hdrain, Bool.toNat_true] at hpending
      have hgap : t.gmii.tx.txGap.toNat + (!t.gmii.tx.txDraining).toNat ≤ s.gmii.tx.txGap.toNat + 13 := by
        rw [hbridge]
        unfold TxBridge.next
        dsimp only
        rw [if_pos hdrain, if_pos hdrain]
        cases s.gmii.tx.txStops with
        | true =>
            show 12 + 1 ≤ _
            omega
        | false =>
            show s.gmii.tx.txGap.toNat + 0 ≤ _
            omega
      omega
  | false =>
      rw [hdrain, Bool.toNat_false] at hpending
      rw [Bool.not_false, Bool.toNat_true]
      by_cases hgap : 0 < s.gmii.tx.txGap.toNat
      · obtain ⟨hquiet, hless⟩ := TxBridge.gap_next i hdrain hgap
        rw [← hbridge] at hquiet hless
        rw [hquiet, Bool.not_false, Bool.toNat_true]
        omega
      · have hzero : s.gmii.tx.txGap = 0 := BitVec.eq_of_toNat_eq (by show _ = 0; omega)
        have hgap' : t.gmii.tx.txGap.toNat = 0 := by
          rw [hbridge]
          unfold TxBridge.next
          dsimp only
          rw [hdrain, if_neg Bool.false_ne_true, hzero]
          rfl
        by_cases hcnt : s.gmii.tx.txFrameCnt = 0
        · -- no whole frame: the bridge takes a word
          have htakes : s.txHandshake true = true := by
            by_contra hblocked
            exact hs ⟨hdrain, hcnt, by simpa using hblocked⟩
          rw [htakes, Bool.toNat_true] at hstream
          have hflag : (!t.gmii.tx.txDraining).toNat ≤ 1 := Bool.toNat_le _
          omega
        · -- it starts to drain
          have hstarts : t.gmii.tx.txDraining = true := by
            rw [hbridge, TxBridge.txDraining_next, hdrain, if_neg Bool.false_ne_true]
            unfold TxBridge.txStarts
            have hpos : 0 < s.gmii.tx.txFrameCnt :=
              BitVec.lt_def.mpr (Nat.pos_of_ne_zero fun h => hcnt (BitVec.eq_of_toNat_eq h))
            rw [hdrain, hzero, decide_eq_true hpos]
            rfl
          rw [hstarts, Bool.not_true, Bool.toNat_false]
          omega

/-- What has left a bridge that has settled. -/
theorem Settled.cut (h : Wired pacing s ps words) (hs : s.Settled) :
    cutFrames GmiiByte.last words
      = ((cutFrames GmiiByte.last (netWords pacing ps)).1.takeWhile (·.length ≤ 1900), []) := by
  have hpart := h.fits.free hs.txDraining
  have hplain : ∀ y ∈ s.gmii.tx.txFifo.contents, y.last = false := by
    have hnone := h.bridge.counted
    rw [hs.txFrameCnt] at hnone
    intro y hy
    have := List.countP_eq_zero.mp hnone.symm y hy
    simpa using this
  have hsent : netWords pacing ps = (cutFrames GmiiByte.last words).1.flatten
      ++ (s.gmii.tx.txFifo.contents ++ s.txStream) := by
    rw [h.sent]
    conv_lhs => rw [← cutFrames_flatten GmiiByte.last words]
    rw [hpart, List.append_nil]
  -- the next frame is longer than what the FIFO takes
  have hlong : (cutFrames GmiiByte.last (s.gmii.tx.txFifo.contents ++ s.txStream)).1.takeWhile
      (·.length ≤ 1900) = [] := by
    cases hnext : (cutFrames GmiiByte.last (s.gmii.tx.txFifo.contents ++ s.txStream)).1 with
    | nil => rfl
    | cons g gs =>
        have hlen := length_lt_of_cutFrames hplain hnext
        have hblocked := hs.blocked
        unfold Wrapper1gNet.txHandshake at hblocked
        cases hstream : s.txStream with
        | nil =>
            rw [hstream] at hnext
            have hnone : cutFrames GmiiByte.last ([].flatten ++ s.gmii.tx.txFifo.contents) = ([], _) :=
              cutFrames_frames (by simp) hplain
            rw [List.flatten_nil, List.nil_append] at hnone
            rw [List.append_nil, hnone] at hnext
            cases hnext
        | cons b rest =>
            rw [hstream] at hblocked
            have hfull : ¬ s.gmii.tx.txOcc < 1900 := by
              unfold TxBridge.netTxReady at hblocked
              simpa using hblocked
            rw [BitVec.lt_def] at hfull
            have hocc : s.gmii.tx.txFifo.contents.length = s.gmii.tx.txOcc.toNat := Ring.length_contents _
            have hmany : ¬ g.length ≤ 1900 := by
              have : (1900 : BitVec 11).toNat = 1900 := rfl
              omega
            rw [List.takeWhile_cons, if_neg (by simpa using hmany)]
  have hframes := (cutFrames_delimited GmiiByte.last words).1
  rw [hsent, cutFrames_append hframes, List.takeWhile_append_of_pos (by simpa using h.fits.frames), hlong,
    List.append_nil, ← hpart]

end Settle

/-- **What gets out.**  Let the run `is` be followed by edges on which the IP offers its words,
more than 15 for each word on its way, and let the bridge never start into a demo frame.  Then it
has put on the wire, whole and in order, the frames that the stack has written up to the first one
of more than 1900 bytes, and nothing else. -/
theorem wire_settles (pacing : U32) (w : Wrapper1g) (is js : List Wrapper1gNetIn)
    (hapart : Along (wrapper1gNet pacing) StartsApart (.start w) (is ++ js))
    (hoffers : ∀ i ∈ js, i.offers = true)
    (hlong : 15 * ((wrapper1gNet pacing).after (.start w) is).pending + 16 < js.length) :
    let os := (wrapper1gNet pacing).outs (.start w) (is ++ js)
    cutFrames GmiiByte.last (ofBridge (onPhy os))
      = ((cutFrames GmiiByte.last (written os)).1.takeWhile (·.length ≤ 1900), []) := by
  intro os
  obtain ⟨ps, hwired, hwritten⟩ := (onBoard_run w (is ++ js) hapart).wired
  have hstart := (onBoard_run w is (Along.append.mp hapart).1).wired
  have hsettled : ((wrapper1gNet pacing).after (.start w) (is ++ js)).Settled := by
    rw [after_append]
    refine Along.settles (M := wrapper1gNet pacing) (C := fun _ i => i.offers = true)
      (I := fun s => ∃ ps words, Wired pacing s ps words) Wrapper1gNet.rank ?_ ?_ ?_ ?_ js
      (Along.of_inputs hoffers) ((Wrapper1gNet.rank_le _).trans_lt hlong)
    · rintro s i ⟨ps, words, h⟩ -
      cases i with
      | edge eRxd eRxdv rxReady txValid => exact ⟨_, _, h.edge eRxd eRxdv rxReady txValid⟩
      | pass finds uninit msgRoom => exact ⟨_, _, h.pass finds uninit msgRoom⟩
    · rintro s (⟨eRxd, eRxdv, rxReady, txValid⟩ | _) ⟨ps, words, h⟩ hs hi
      · cases (hi : txValid = true)
        exact Settled.next h hs eRxd eRxdv rxReady
      · cases hi
    · rintro s (⟨eRxd, eRxdv, rxReady, txValid⟩ | _) ⟨ps, words, h⟩ hi
      · cases (hi : txValid = true)
        exact or_iff_not_imp_left.mpr fun hs => rank_next h hs eRxd eRxdv rxReady
      · cases hi
    · obtain ⟨qs, h, -⟩ := hstart
      exact ⟨qs, _, h⟩
  rw [← hwritten]
  exact Settled.cut hwired hsettled

/-- The periodic frame has left, the two bytes of the next one wait. -/
theorem wire_settles_hello :
    let os := (wrapper1gNet 1).outs (.start .init) (helloRun ++ List.replicate 47 (.edge 0 false true true))
    (written os).length = 76
      ∧ ((cutFrames GmiiByte.last (ofBridge (onPhy os))).1.map List.length) = [74]
      ∧ cutFrames GmiiByte.last (ofBridge (onPhy os))
        = ((cutFrames GmiiByte.last (written os)).1.takeWhile (·.length ≤ 1900), []) := by
  have hapart : Along (wrapper1gNet 1) StartsApart (.start .init)
      (helloRun ++ List.replicate 47 (.edge 0 false true true)) := by decide +kernel
  refine ⟨by decide +kernel, by decide +kernel, wire_settles 1 .init _ _ hapart ?_ (by decide +kernel)⟩
  intro i hi
  rw [List.eq_of_mem_replicate hi]
  rfl

end GigabitTcp
