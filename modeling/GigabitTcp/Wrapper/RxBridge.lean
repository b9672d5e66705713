/-
  GigabitTcp.Wrapper.RxBridge — the RX FIFO bridge of `wrapper_1g.v`.

  The bridge decides for each byte whether there is room for it.  If the decision changes in
  the middle of a frame, a part of the frame is lost, its last mark perhaps, and the IP sees
  the head of one frame run into the tail of another.

  Main results:
    * `rxBridge_whole_frames` — whole frames, as long as the decision is kept inside a frame,
    * `rxBridge_merges`       — a burst that overruns the FIFO runs into the next one.
-/
import GigabitTcp.Wrapper1g
import GigabitTcp.Mac.RxDecode

namespace GigabitTcp

open Hw Machine

/-! ## §1. Frames on the wire. -/

/-- The bursts of `rx_dv`: the complete ones, and the bytes of the one that goes on. -/
structure WireBursts where
  frames : List (List U8) := []
  current : List U8 := []

/-- The complete bursts if the next cycle is idle. -/
def WireBursts.closed (w : WireBursts) : List (List U8) :=
  if w.current = [] then w.frames else w.frames ++ [w.current]

def WireBursts.next (w : WireBursts) (i : RxBridgeIn) : WireBursts :=
  if i.eRxdv then { w with current := w.current ++ [i.eRxd] } else { frames := w.closed }

/-- The bursts that the inputs of a run bring. -/
def wireBursts (is : List RxBridgeIn) : WireBursts := is.foldl WireBursts.next {}

theorem wireBursts_append (is js : List RxBridgeIn) :
    wireBursts (is ++ js) = js.foldl WireBursts.next (wireBursts is) := List.foldl_append

theorem WireBursts.frames_next (w : WireBursts) (i : RxBridgeIn) :
    w.frames.Sublist (w.next i).frames := by
  unfold WireBursts.next
  split
  · exact List.Sublist.refl _
  · show w.frames.Sublist w.closed
    unfold WireBursts.closed
    split
    · exact List.Sublist.refl _
    · exact List.sublist_append_left _ _

/-- The words are whole frames of the wire, in order, and the head of one that goes on. -/
def WholeFrames (frames : List (List U8)) (words : List GmiiByte) : Prop :=
  ∃ fs tail, List.Sublist fs frames ∧ words = fs.flatMap gmiiFrame ++ tail
    ∧ ∀ w ∈ tail, w.last = false

/-- A proper prefix of a frame carries no last mark. -/
theorem no_last_inside {f : List U8} {p rest : List GmiiByte} (h : gmiiFrame f = p ++ rest)
    (hrest : rest ≠ []) : ∀ w ∈ p, w.last = false := by
  induction f generalizing p with
  | nil =>
      have hp : p = [] := (List.append_eq_nil_iff.mp h.symm).1
      rw [hp]
      exact nofun
  | cons b bs ih =>
      cases p with
      | nil => exact nofun
      | cons x p =>
          cases bs with
          | nil =>
              -- the only word is the last one
              have hlen := congrArg List.length h
              rw [show gmiiFrame [b] = [{ data := b, last := true }] from rfl, List.length_singleton,
                List.length_append, List.length_cons] at hlen
              have := List.length_pos_iff.mpr hrest
              omega
          | cons c bs =>
              rw [gmiiFrame_cons_cons, List.cons_append, List.cons.injEq] at h
              intro w hw
              rcases List.mem_cons.mp hw with rfl | hw
              · rw [← h.1]
                rfl
              · exact ih h.2 w hw

/-- What has been taken out of whole frames so far is whole frames and a head. -/
theorem prefix_of_frames : ∀ (fs : List (List U8)) (tail words rest : List GmiiByte),
    (∀ w ∈ tail, w.last = false) → words ++ rest = fs.flatMap gmiiFrame ++ tail →
      ∃ gs t, gs <+: fs ∧ words = gs.flatMap gmiiFrame ++ t ∧ ∀ w ∈ t, w.last = false
  | [], tail, words, rest, htail, h => by
      refine ⟨[], words, List.nil_prefix, rfl, fun w hw => htail w ?_⟩
      rw [List.flatMap_nil, List.nil_append] at h
      rw [← h]
      exact List.mem_append_left _ hw
  | f :: fs, tail, words, rest, htail, h => by
      rw [List.flatMap_cons, List.append_assoc] at h
      rcases List.append_eq_append_iff.mp h with ⟨p, hp, _⟩ | ⟨p, hp, hrest⟩
      · -- the words end inside `f`
        by_cases hpe : p = []
        · rw [hpe, List.append_nil] at hp
          refine ⟨[f], [], ⟨fs, rfl⟩, ?_, nofun⟩
          rw [← hp, List.append_nil, List.flatMap_cons, List.flatMap_nil, List.append_nil]
        · exact ⟨[], words, List.nil_prefix, rfl, no_last_inside hp hpe⟩
      · -- they reach beyond `f`: the rest of them is taken out of the other frames
        obtain ⟨gs, t, hgs, hwords, hlast⟩ := prefix_of_frames fs tail p rest htail hrest.symm
        refine ⟨f :: gs, t, List.cons_prefix_cons.mpr ⟨rfl, hgs⟩, ?_, hlast⟩
        rw [hp, hwords, List.flatMap_cons, List.append_assoc]

/-! ## §2. One cycle. -/

/-- Inside a frame the threshold is not crossed: with 3899 words in the FIFO the IP takes one
while a byte is put in, and with 3900 it takes none. -/
def RxBridge.KeepsAdmission (s : RxBridge) (i : RxBridgeIn) : Prop :=
  s.rxDvD2 = true → s.rxDvD1 = true →
    (s.rxOcc = 3899 → i.netRxReady = true) ∧ (s.rxOcc = 3900 → i.netRxReady = false)

instance (s : RxBridge) (i : RxBridgeIn) : Decidable (s.KeepsAdmission i) :=
  inferInstanceAs (Decidable (_ → _ → _ ∧ _))

namespace RxBridge

variable {s : RxBridge} (i : RxBridgeIn)

theorem rxPop_nonempty (h : s.rxPop i = true) : 0 < s.rxFifo.occ.toNat := by
  unfold rxPop netRxValid at h
  simp only [Bool.and_eq_true, decide_eq_true_eq, BitVec.lt_def] at h
  exact h.1

theorem rxPushWord_room (h : s.rxPushWord.isSome = true) : s.rxFifo.occ.toNat < 3900 := by
  unfold rxPushWord rxPush at h
  split at h
  · rename_i hpush
    simp only [Bool.and_eq_true, decide_eq_true_eq, BitVec.lt_def] at hpush
    exact hpush.2
  · cases h

/-- 3900 words leave room in a ring of 4096. -/
theorem rxPushWord_fits (h : s.rxPushWord.isSome = true) : s.rxFifo.occ.toNat + 1 < 2 ^ 12 := by
  have hroom := rxPushWord_room h
  omega

/-- The word that the IP takes in this cycle. -/
def rxPopWord (s : RxBridge) (i : RxBridgeIn) : Option GmiiByte :=
  if s.rxPop i then some s.netRxData else none

/-- **Conservation**. -/
theorem conserves : s.rxFifo.contents ++ s.rxPushWord.toList
    = (s.rxPopWord i).toList ++ (s.next i).rxFifo.contents := by
  have hpop : (s.rxPopWord i).toList = if s.rxPop i then [s.rxFifo.front] else [] := by
    unfold rxPopWord
    split <;> rfl
  rw [hpop]
  exact s.rxFifo.step_conserves rxPushWord_fits (rxPop_nonempty i)

theorem toNat_occ_next : (s.next i).rxFifo.occ.toNat + (s.rxPop i).toNat
    = s.rxFifo.occ.toNat + s.rxPushWord.toList.length :=
  s.rxFifo.toNat_occ_step rxPushWord_fits (rxPop_nonempty i)

/-- Whether a byte is admitted. -/
theorem rxPushWord_eq (hdv : s.rxDvD2 = true) : s.rxPushWord
    = if s.rxFifo.occ.toNat < 3900 then some { data := s.rxD2, last := !s.rxDvD1 } else none := by
  have hocc : (decide (s.rxOcc < 3900) = true) ↔ s.rxFifo.occ.toNat < 3900 := by
    rw [decide_eq_true_eq, BitVec.lt_def]
    rfl
  unfold rxPushWord rxPush rxLastIn
  rw [hdv, Bool.true_and, Bool.true_and]
  by_cases h : s.rxFifo.occ.toNat < 3900
  · rw [if_pos (hocc.mpr h), if_pos h]
  · rw [if_neg (fun hd => h (hocc.mp hd)), if_neg h]

theorem rxPushWord_idle (hdv : s.rxDvD2 = false) : s.rxPushWord = none := by
  unfold rxPushWord rxPush
  rw [hdv, Bool.false_and]
  rfl

/-- The FIFO never holds more than 3900 words. -/
theorem occ_next_le (h : s.rxFifo.occ.toNat ≤ 3900) : (s.next i).rxFifo.occ.toNat ≤ 3900 := by
  have hocc := s.toNat_occ_next i
  cases hp : s.rxPushWord with
  | none =>
      rw [hp, Option.toList_none, List.length_nil] at hocc
      omega
  | some x =>
      have hroom := rxPushWord_room (s := s) (by rw [hp]; rfl)
      rw [hp, Option.toList_some, List.length_singleton] at hocc
      omega

/-- **The decision is kept**: the next byte of the frame is admitted exactly if this one is. -/
theorem admission_next (hdv : s.rxDvD2 = true) (hmore : s.rxDvD1 = true)
    (hfits : s.rxFifo.occ.toNat ≤ 3900) (hkeeps : s.KeepsAdmission i) :
    s.rxFifo.occ.toNat < 3900 ↔ (s.next i).rxFifo.occ.toNat < 3900 := by
  obtain ⟨hfull, hover⟩ := hkeeps hdv hmore
  have hocc := s.toNat_occ_next i
  rw [rxPushWord_eq hdv] at hocc
  have hready : ∀ n : Nat, 0 < n → s.rxFifo.occ.toNat = n → s.rxPop i = i.netRxReady := by
    intro n hn h
    have hvalid : s.netRxValid = true := by
      unfold netRxValid
      rw [decide_eq_true_eq, BitVec.lt_def]
      show 0 < s.rxFifo.occ.toNat
      omega
    unfold rxPop
    rw [hvalid, Bool.true_and]
  by_cases hroom : s.rxFifo.occ.toNat < 3900
  · -- only the push at 3899 could close the FIFO, and there the IP takes a word
    rw [if_pos hroom, Option.toList_some, List.length_singleton] at hocc
    by_cases hlast : s.rxFifo.occ.toNat = 3899
    · have htakes := hfull (BitVec.eq_of_toNat_eq hlast)
      rw [hready 3899 (by omega) hlast, htakes, Bool.toNat_true] at hocc
      omega
    · have := Bool.toNat_le (s.rxPop i)
      omega
  · -- only a pop at 3900 could open it, and there the IP takes none
    rw [if_neg hroom, Option.toList_none, List.length_nil] at hocc
    have hat : s.rxFifo.occ.toNat = 3900 := by omega
    have hkept := hover (BitVec.eq_of_toNat_eq hat)
    rw [hready 3900 (by omega) hat, hkept, Bool.toNat_false] at hocc
    omega

end RxBridge

/-! ## §3. Runs. -/

/-- An idle cycle of the wire. -/
def idleWire : RxBridgeIn := { eRxd := 0, eRxdv := false, netRxReady := false }

/-- Where the bridge stands: `seen` has gone past `rx_d2`, the wires `x₂` and `x₁` are in the
two registers, and what the FIFO has been given are whole frames of `seen`, and the bytes of
the frame that goes on if this frame is admitted. -/
structure RxBridge.Tracks (s : RxBridge) (is : List RxBridgeIn) (words : List GmiiByte)
    (seen : List RxBridgeIn) (x₂ x₁ : RxBridgeIn) (fs : List (List U8)) : Prop where
  wire : idleWire :: idleWire :: is = seen ++ [x₂, x₁]
  d2 : s.rxD2 = x₂.eRxd ∧ s.rxDvD2 = x₂.eRxdv
  d1 : s.rxD1 = x₁.eRxd ∧ s.rxDvD1 = x₁.eRxdv
  fits : s.rxFifo.occ.toNat ≤ 3900
  inside : x₂.eRxdv = true → fs.Sublist (wireBursts seen).frames
    ∧ words ++ s.rxFifo.contents = fs.flatMap gmiiFrame
      ++ (if s.rxFifo.occ.toNat < 3900 then (wireBursts seen).current.map plainByte else [])
  between : x₂.eRxdv = false → fs.Sublist (wireBursts seen).closed
    ∧ words ++ s.rxFifo.contents = fs.flatMap gmiiFrame

/-- The wire that leaves `rx_d2`. -/
theorem wireBursts_snoc (seen : List RxBridgeIn) (x : RxBridgeIn) :
    wireBursts (seen ++ [x]) = (wireBursts seen).next x := wireBursts_append seen [x]

/-- **One cycle** on which the decision is kept. -/
theorem RxBridge.Tracks.next {s : RxBridge} {is seen : List RxBridgeIn} {words : List GmiiByte}
    {x₂ x₁ : RxBridgeIn} {fs : List (List U8)} (h : s.Tracks is words seen x₂ x₁ fs)
    (i : RxBridgeIn) (hkeeps : s.KeepsAdmission i) :
    ∃ fs', (s.next i).Tracks (is ++ [i]) (words ++ (s.rxPopWord i).toList) (seen ++ [x₂]) x₁ i fs' := by
  have hwire : idleWire :: idleWire :: (is ++ [i]) = seen ++ [x₂] ++ [x₁, i] := by
    have hw := congrArg (· ++ [i]) h.wire
    simpa using hw
  have hfits := RxBridge.occ_next_le (s := s) i h.fits
  have hcons : words ++ (s.rxPopWord i).toList ++ (s.next i).rxFifo.contents
      = words ++ s.rxFifo.contents ++ s.rxPushWord.toList := by
    rw [List.append_assoc, List.append_assoc, RxBridge.conserves]
  have hd2 : (s.next i).rxD2 = x₁.eRxd ∧ (s.next i).rxDvD2 = x₁.eRxdv := h.d1
  -- the new invariant from what the FIFO has been given then
  have hmake : ∀ fs', (x₁.eRxdv = true → fs'.Sublist (wireBursts (seen ++ [x₂])).frames
        ∧ words ++ s.rxFifo.contents ++ s.rxPushWord.toList = fs'.flatMap gmiiFrame
          ++ (if (s.next i).rxFifo.occ.toNat < 3900 then
            (wireBursts (seen ++ [x₂])).current.map plainByte else [])) →
      (x₁.eRxdv = false → fs'.Sublist (wireBursts (seen ++ [x₂])).closed
        ∧ words ++ s.rxFifo.contents ++ s.rxPushWord.toList = fs'.flatMap gmiiFrame) →
      (s.next i).Tracks (is ++ [i]) (words ++ (s.rxPopWord i).toList) (seen ++ [x₂]) x₁ i fs' := by
    intro fs' hin hout
    rw [← hcons] at hin hout
    exact ⟨hwire, hd2, ⟨rfl, rfl⟩, hfits, hin, hout⟩
  cases hdv : x₂.eRxdv with
  | false =>
      -- no byte at the FIFO: the frame before it is complete
      obtain ⟨hsub, hwords⟩ := h.between hdv
      have hnone : s.rxPushWord = none := RxBridge.rxPushWord_idle (h.d2.2.trans hdv)
      have hbursts : wireBursts (seen ++ [x₂]) = { frames := (wireBursts seen).closed } := by
        rw [wireBursts_snoc]
        unfold WireBursts.next
        rw [hdv]
        rfl
      refine ⟨fs, hmake fs (fun _ => ?_) (fun _ => ?_)⟩
      · rw [hbursts, hnone, Option.toList_none, List.append_nil]
        refine ⟨hsub, ?_⟩
        rw [hwords, List.map_nil, ite_self, List.append_nil]
      · rw [hbursts, hnone, Option.toList_none, List.append_nil]
        exact ⟨hsub, hwords⟩
  | true =>
      obtain ⟨hsub, hwords⟩ := h.inside hdv
      have hat : s.rxDvD2 = true := h.d2.2.trans hdv
      have hpush := RxBridge.rxPushWord_eq (s := s) hat
      have hbursts : wireBursts (seen ++ [x₂])
          = { wireBursts seen with current := (wireBursts seen).current ++ [x₂.eRxd] } := by
        rw [wireBursts_snoc]
        unfold WireBursts.next
        rw [hdv]
        rfl
      have hclosed : (wireBursts (seen ++ [x₂])).closed
          = (wireBursts seen).frames ++ [(wireBursts seen).current ++ [x₂.eRxd]] := by
        rw [hbursts]
        unfold WireBursts.closed
        exact if_neg (by simp)
      by_cases hroom : s.rxFifo.occ.toNat < 3900
      · rw [if_pos hroom] at hpush hwords
        cases hmore : x₁.eRxdv with
        | true =>
            -- an admitted byte inside the frame
            have hnext := (RxBridge.admission_next i hat (h.d1.2.trans hmore) h.fits hkeeps).mp hroom
            refine ⟨fs, hmake fs (fun _ => ?_) (fun hno => by rw [hmore] at hno; cases hno)⟩
            rw [hbursts, hwords, hpush, if_pos hnext, h.d1.2, hmore, h.d2.1]
            refine ⟨hsub, ?_⟩
            rw [Option.toList_some, List.map_append, List.append_assoc]
            rfl
        | false =>
            -- the last byte: the frame is in the FIFO as a whole
            refine ⟨fs ++ [(wireBursts seen).current ++ [x₂.eRxd]],
              hmake _ (fun hno => by rw [hmore] at hno; cases hno) (fun _ => ?_)⟩
            rw [hclosed, hwords, hpush, h.d1.2, hmore, h.d2.1]
            refine ⟨List.Sublist.append hsub (List.Sublist.refl _), ?_⟩
            rw [List.flatMap_append, List.flatMap_singleton, gmiiFrame_append _ (by simp),
              Option.toList_some, List.append_assoc]
            rfl
      · -- the frame is dropped as a whole
        rw [if_neg hroom] at hpush hwords
        rw [List.append_nil] at hwords
        cases hmore : x₁.eRxdv with
        | true =>
            have hnext := mt (RxBridge.admission_next i hat (h.d1.2.trans hmore) h.fits hkeeps).mpr hroom
            refine ⟨fs, hmake fs (fun _ => ?_) (fun hno => by rw [hmore] at hno; cases hno)⟩
            rw [hbursts, hwords, hpush, if_neg hnext]
            exact ⟨hsub, rfl⟩
        | false =>
            refine ⟨fs, hmake fs (fun hno => by rw [hmore] at hno; cases hno) (fun _ => ?_)⟩
            rw [hclosed, hwords, hpush]
            exact ⟨hsub.trans (List.sublist_append_left _ _), List.append_nil _⟩

/-- The frames that the FIFO has been given are frames of the wire. -/
theorem RxBridge.Tracks.frames {s : RxBridge} {is seen : List RxBridgeIn} {words : List GmiiByte}
    {x₂ x₁ : RxBridgeIn} {fs : List (List U8)} (h : s.Tracks is words seen x₂ x₁ fs) :
    fs.Sublist (wireBursts is).frames
      ∧ ∃ tail, words ++ s.rxFifo.contents = fs.flatMap gmiiFrame ++ tail ∧ ∀ w ∈ tail, w.last = false := by
  have hbursts : wireBursts is = ((wireBursts seen).next x₂).next x₁ := by
    have hw := congrArg wireBursts h.wire
    rw [wireBursts_append] at hw
    exact hw
  rw [hbursts]
  have hlater := ((wireBursts seen).next x₂).frames_next x₁
  -- between frames every word belongs to a whole one; inside, the head of one is open
  cases hdv : x₂.eRxdv with
  | false =>
      obtain ⟨hsub, hwords⟩ := h.between hdv
      have hclosed : ((wireBursts seen).next x₂).frames = (wireBursts seen).closed := by
        unfold WireBursts.next
        rw [hdv]
        rfl
      rw [hclosed] at hlater
      exact ⟨hsub.trans hlater, [], by rw [hwords, List.append_nil], nofun⟩
  | true =>
      obtain ⟨hsub, hwords⟩ := h.inside hdv
      refine ⟨hsub.trans (((wireBursts seen).frames_next x₂).trans hlater), _, hwords, ?_⟩
      intro w hw
      split at hw
      · obtain ⟨b, _, rfl⟩ := List.mem_map.mp hw
        rfl
      · cases hw

theorem popped_snoc (t : RxBridge) (i : RxBridgeIn) (os : List (Option GmiiByte)) :
    (os ++ [(rxBridgeMachine t i).2]).reduceOption = os.reduceOption ++ (t.rxPopWord i).toList := by
  rw [List.reduceOption_append]
  exact congrArg (_ ++ ·) (List.reduceOption_singleton _)

/-- What has been popped in a run, and what the FIFO holds, are frames of the wire. -/
theorem rxBridge_tracks (s : RxBridge) (is : List RxBridgeIn)
    (hkeeps : Along rxBridgeMachine RxBridge.KeepsAdmission s.reset is) :
    ∃ fs : List (List U8), fs.Sublist (wireBursts is).frames ∧ ∃ tail,
      (rxBridgeMachine.outs s.reset is).reduceOption ++ (rxBridgeMachine.after s.reset is).rxFifo.contents
        = fs.flatMap gmiiFrame ++ tail ∧ ∀ w ∈ tail, w.last = false := by
  have hempty : s.reset.rxFifo.contents = [] := Ring.contents_clear s.rxFifo
  have hocc : s.reset.rxFifo.occ = 0 := Ring.occ_clear s.rxFifo
  have hstart : ∃ seen x₂ x₁ fs, s.reset.Tracks [] [] seen x₂ x₁ fs := by
    refine ⟨[], idleWire, idleWire, [], rfl, ⟨rfl, rfl⟩, ⟨rfl, rfl⟩, ?_, nofun,
      fun _ => ⟨List.Sublist.refl _, ?_⟩⟩
    · rw [hocc]
      decide
    · rw [hempty]
      rfl
  obtain ⟨seen, x₂, x₁, fs, hend⟩ := Along.invariant_io
    (P := fun t is os => ∃ seen x₂ x₁ fs, RxBridge.Tracks t is os.reduceOption seen x₂ x₁ fs)
    (fun t is os i h hC => by
      obtain ⟨seen, x₂, x₁, fs, h⟩ := h
      obtain ⟨fs', h'⟩ := h.next i hC
      refine ⟨seen ++ [x₂], x₁, i, fs', ?_⟩
      rw [popped_snoc]
      exact h')
    [] [] is hstart hkeeps
  exact ⟨fs, hend.frames⟩

/-- In every run from reset in which the threshold is not crossed inside a frame, the IP takes
whole frames of the wire, in order, and perhaps the head of one more. -/
theorem rxBridge_whole_frames (s : RxBridge) (is : List RxBridgeIn)
    (hkeeps : Along rxBridgeMachine RxBridge.KeepsAdmission s.reset is) :
    WholeFrames (wireBursts is).frames (rxBridgeMachine.outs s.reset is).reduceOption := by
  obtain ⟨fs, hsub, tail, hwords, htail⟩ := rxBridge_tracks s is hkeeps
  -- the words popped so far are a prefix of what the FIFO has been given
  obtain ⟨gs, t, hgs, hpopped, hlast⟩ := prefix_of_frames fs tail _ _ htail hwords
  exact ⟨gs, t, hgs.sublist.trans hsub, hpopped, hlast⟩

/-! ## §4. An overrun. -/

/-- The bridge after power-up. -/
def RxBridge.init : RxBridge :=
  { rxD1 := 0, rxD2 := 0, rxDvD1 := false, rxDvD2 := false
    rxFifo := { mem := fun _ => { data := 0, last := false }, wptr := 0, rptr := 0 } }

/-- Two bytes, an idle cycle and a third byte, with an IP that is always ready. -/
def shortBursts : List RxBridgeIn :=
  [⟨1, true, true⟩, ⟨2, true, true⟩, ⟨0, false, true⟩, ⟨3, true, true⟩, ⟨0, false, true⟩,
    ⟨0, false, true⟩, ⟨0, false, true⟩]

theorem rxBridge_whole_frames_short : WholeFrames (wireBursts shortBursts).frames
    (rxBridgeMachine.outs RxBridge.init.reset shortBursts).reduceOption :=
  rxBridge_whole_frames RxBridge.init shortBursts (by decide)

/-- A cycle in which nothing is taken. -/
theorem RxBridge.contents_next {s : RxBridge} {i : RxBridgeIn}
    (h : i.netRxReady = false ∨ s.rxFifo.contents = []) :
    s.rxPopWord i = none ∧ (s.next i).rxFifo.contents = s.rxFifo.contents ++ s.rxPushWord.toList := by
  have hnone : s.rxPopWord i = none := by
    apply if_neg
    intro hpop
    rcases h with hready | hempty
    · unfold rxPop at hpop
      rw [hready, Bool.and_false] at hpop
      cases hpop
    · have hocc := rxPop_nonempty i hpop
      rw [← Ring.length_contents, hempty] at hocc
      cases hocc
  have hcons := s.conserves i
  rw [hnone] at hcons
  exact ⟨hnone, hcons.symm⟩

/-- A cycle in which the IP takes the oldest word. -/
theorem RxBridge.contents_next_of_ready {s : RxBridge} {i : RxBridgeIn} {x : GmiiByte}
    {l : List GmiiByte} (hready : i.netRxReady = true) (hl : s.rxFifo.contents = x :: l) :
    s.rxPopWord i = some x ∧ (s.next i).rxFifo.contents = l ++ s.rxPushWord.toList := by
  have hocc : s.rxFifo.occ.toNat = l.length + 1 := by
    rw [← Ring.length_contents, hl]
    rfl
  have htakes : s.rxPop i = true := by
    unfold rxPop netRxValid
    rw [hready, Bool.and_true, decide_eq_true_eq, BitVec.lt_def]
    show 0 < s.rxFifo.occ.toNat
    omega
  have hword : s.rxPopWord i = some s.netRxData := if_pos htakes
  have hcons := s.conserves i
  rw [hword, hl, Option.toList_some, List.singleton_append, List.cons_append, List.cons.injEq] at hcons
  rw [hword, hcons.1]
  exact ⟨rfl, hcons.2.symm⟩

/-- Inside a burst of zero bytes, with the FIFO holding `l`. -/
structure RxBridge.Zeros (s : RxBridge) (l : List GmiiByte) : Prop where
  d2 : s.rxD2 = 0 ∧ s.rxDvD2 = true
  d1 : s.rxD1 = 0 ∧ s.rxDvD1 = true
  contents : s.rxFifo.contents = l

/-- The IP does not take them: they pile up. -/
theorem RxBridge.Zeros.fill {s : RxBridge} {l : List GmiiByte} (h : s.Zeros l) (n : Nat)
    (hroom : l.length + n ≤ 3900) :
    (rxBridgeMachine.after s (List.replicate n ⟨0, true, false⟩)).Zeros (l ++ List.replicate n ⟨0, false⟩)
      ∧ rxBridgeMachine.outs s (List.replicate n ⟨0, true, false⟩) = List.replicate n none := by
  induction n generalizing s l with
  | zero =>
      refine ⟨?_, rfl⟩
      rw [List.replicate_zero, List.replicate_zero, List.append_nil]
      exact h
  | succ n ih =>
      have hocc : s.rxFifo.occ.toNat < 3900 := by
        rw [← Ring.length_contents, h.contents]
        omega
      obtain ⟨hnone, hl⟩ := contents_next (s := s) (i := ⟨0, true, false⟩) (Or.inl rfl)
      rw [rxPushWord_eq h.d2.2, if_pos hocc, h.d2.1, h.d1.2, h.contents] at hl
      have hnext : (s.next ⟨0, true, false⟩).Zeros (l ++ [⟨0, false⟩]) := ⟨h.d1, ⟨rfl, rfl⟩, hl⟩
      obtain ⟨hend, houts⟩ := ih hnext (by rw [List.length_append, List.length_singleton]; omega)
      rw [List.append_assoc] at hend
      refine ⟨hend, ?_⟩
      rw [List.replicate_succ, outs_cons, List.replicate_succ]
      exact congrArg₂ List.cons hnone houts

/-- Nothing at the FIFO's door, and `l` inside. -/
structure RxBridge.Quiet (s : RxBridge) (l : List GmiiByte) : Prop where
  d2 : s.rxDvD2 = false
  d1 : s.rxDvD1 = false
  contents : s.rxFifo.contents = l

/-- The end of the burst finds the FIFO full: no last mark goes in. -/
theorem RxBridge.Zeros.overflow {s : RxBridge} {l : List GmiiByte} (h : s.Zeros l)
    (hfull : l.length = 3900) :
    (rxBridgeMachine.after s (List.replicate 2 ⟨0, false, false⟩)).Quiet l
      ∧ rxBridgeMachine.outs s (List.replicate 2 ⟨0, false, false⟩) = [none, none] := by
  have hrefused : ∀ t : RxBridge, t.rxDvD2 = true → t.rxFifo.contents = l →
      t.rxPopWord ⟨0, false, false⟩ = none ∧ (t.next ⟨0, false, false⟩).rxFifo.contents = l := by
    intro t hdv hl
    have hocc : ¬ t.rxFifo.occ.toNat < 3900 := by
      rw [← Ring.length_contents, hl, hfull]
      exact Nat.lt_irrefl _
    obtain ⟨hnone, hl'⟩ := contents_next (s := t) (i := ⟨0, false, false⟩) (Or.inl rfl)
    rw [rxPushWord_eq hdv, if_neg hocc, hl, Option.toList_none, List.append_nil] at hl'
    exact ⟨hnone, hl'⟩
  obtain ⟨hout, hl⟩ := hrefused s h.d2.2 h.contents
  obtain ⟨hout', hl'⟩ := hrefused (s.next ⟨0, false, false⟩) h.d1.2 hl
  exact ⟨⟨rfl, rfl, hl'⟩, congrArg₂ (fun x y => [x, y]) hout hout'⟩

/-- On an idle wire the IP takes everything. -/
theorem RxBridge.Quiet.drain {s : RxBridge} {l : List GmiiByte} (h : s.Quiet l) :
    (rxBridgeMachine.after s (List.replicate l.length ⟨0, false, true⟩)).Quiet []
      ∧ rxBridgeMachine.outs s (List.replicate l.length ⟨0, false, true⟩) = l.map some := by
  induction l generalizing s with
  | nil => exact ⟨h, rfl⟩
  | cons x l ih =>
      obtain ⟨hword, hl⟩ := contents_next_of_ready (i := ⟨0, false, true⟩) rfl h.contents
      rw [rxPushWord_idle h.d2, Option.toList_none, List.append_nil] at hl
      have hnext : (s.next ⟨0, false, true⟩).Quiet l := ⟨h.d1, rfl, hl⟩
      obtain ⟨hend, houts⟩ := ih hnext
      refine ⟨hend, ?_⟩
      rw [List.length_cons, List.replicate_succ, outs_cons, List.map_cons]
      exact congrArg₂ List.cons hword houts

/-- A burst of one byte through an empty FIFO. -/
theorem RxBridge.Quiet.single {s : RxBridge} (h : s.Quiet []) (b : U8) :
    rxBridgeMachine.outs s [⟨b, true, true⟩, ⟨0, false, true⟩, ⟨0, false, true⟩, ⟨0, false, true⟩]
      = [none, none, none, some ⟨b, true⟩] := by
  obtain ⟨hout₀, hl₁⟩ := contents_next (i := ⟨b, true, true⟩) (Or.inr h.contents)
  rw [rxPushWord_idle h.d2, h.contents] at hl₁
  obtain ⟨hout₁, hl₂⟩ := contents_next (i := ⟨0, false, true⟩) (Or.inr hl₁)
  rw [rxPushWord_idle (s := s.next ⟨b, true, true⟩) h.d1, hl₁] at hl₂
  -- the byte is at the FIFO's door
  obtain ⟨hout₂, hl₃⟩ := contents_next (i := ⟨0, false, true⟩) (Or.inr hl₂)
  have hocc : ((s.next ⟨b, true, true⟩).next ⟨0, false, true⟩).rxFifo.occ.toNat < 3900 := by
    rw [← Ring.length_contents, hl₂]
    decide
  rw [rxPushWord_eq (s := (s.next ⟨b, true, true⟩).next ⟨0, false, true⟩) rfl, if_pos hocc, hl₂] at hl₃
  obtain ⟨hout₃, -⟩ := contents_next_of_ready (i := ⟨0, false, true⟩) rfl hl₃
  exact congrArg₂ List.cons hout₀ (congrArg₂ List.cons hout₁
    (congrArg₂ List.cons hout₂ (congrArg₂ List.cons hout₃ rfl)))

/-- The bytes of a burst. -/
theorem WireBursts.foldl_burst (b : U8) (r : Bool) (n : Nat) (w : WireBursts) :
    (List.replicate n ⟨b, true, r⟩).foldl WireBursts.next w
      = { w with current := w.current ++ List.replicate n b } := by
  induction n generalizing w with
  | zero => rw [List.replicate_zero, List.replicate_zero, List.append_nil]; rfl
  | succ n ih =>
      rw [List.replicate_succ, List.foldl_cons, ih, List.replicate_succ, List.append_cons]
      rfl

/-- Idle cycles. -/
theorem WireBursts.foldl_idle (b : U8) (r : Bool) (n : Nat) (w : WireBursts) :
    (List.replicate (n + 1) ⟨b, false, r⟩).foldl WireBursts.next w = { frames := w.closed } := by
  induction n generalizing w with
  | zero => rfl
  | succ n ih => rw [List.replicate_succ, List.foldl_cons, ih]; rfl

/-- A burst that the IP lets pile up, two idle cycles, then the IP takes `n` words, and a burst
of one byte. -/
def overrun (n : Nat) : List RxBridgeIn :=
  List.replicate 2 ⟨0, true, false⟩ ++ List.replicate n ⟨0, true, false⟩
    ++ List.replicate 2 ⟨0, false, false⟩ ++ List.replicate n ⟨0, false, true⟩
    ++ [⟨1, true, true⟩, ⟨0, false, true⟩, ⟨0, false, true⟩, ⟨0, false, true⟩]

/-- The wire brings two frames. -/
theorem wireBursts_overrun (n : Nat) :
    (wireBursts (overrun (n + 1))).frames = [List.replicate (n + 3) 0, [1]] := by
  have hbytes : List.replicate 2 (0 : U8) ++ List.replicate (n + 1) 0 = List.replicate (n + 3) 0 := by
    rw [List.replicate_append_replicate, Nat.add_comm 2]
  unfold overrun wireBursts
  rw [List.foldl_append, List.foldl_append, List.foldl_append, List.foldl_append,
    WireBursts.foldl_burst, WireBursts.foldl_burst, WireBursts.foldl_idle, WireBursts.foldl_idle,
    List.nil_append, hbytes]
  rfl

/-- What the IP takes, if the burst overruns the FIFO by two bytes. -/
theorem rxBridge_overrun {n : Nat} (hn : n = 3900) :
    (rxBridgeMachine.outs RxBridge.init.reset (overrun n)).reduceOption
      = List.replicate n ⟨0, false⟩ ++ [⟨1, true⟩] := by
  have hstart : (rxBridgeMachine.after RxBridge.init.reset (List.replicate 2 ⟨0, true, false⟩)).Zeros [] :=
    ⟨⟨rfl, rfl⟩, ⟨rfl, rfl⟩, rfl⟩
  have hbefore : rxBridgeMachine.outs RxBridge.init.reset (List.replicate 2 ⟨0, true, false⟩)
      = [none, none] := rfl
  -- the phases of the run: two bytes on their way in, `n` that pile up, the two that are lost,
  -- then the IP takes all `n` words, and the last byte follows
  obtain ⟨hzeros, hfill⟩ := hstart.fill n (by rw [List.length_nil]; omega)
  rw [List.nil_append] at hzeros
  obtain ⟨hquiet, hover⟩ := hzeros.overflow (by rw [List.length_replicate, hn])
  obtain ⟨hempty, hdrain⟩ := hquiet.drain
  rw [List.length_replicate] at hempty hdrain
  unfold overrun
  simp only [outs_append, after_append]
  rw [hbefore, hfill, hover, hdrain, hempty.single]
  have htaken : ((List.replicate n (⟨0, false⟩ : GmiiByte)).map some).reduceOption
      = List.replicate n ⟨0, false⟩ := by
    unfold List.reduceOption
    rw [List.filterMap_map]
    exact List.filterMap_some
  rw [List.reduceOption_append, List.reduceOption_append, List.reduceOption_append,
    List.reduceOption_append, List.reduceOption_replicate_none, htaken]
  rfl

/-- **The head of one frame runs into the next one**. -/
theorem rxBridge_merges : ¬ WholeFrames (wireBursts (overrun 3900)).frames
    (rxBridgeMachine.outs RxBridge.init.reset (overrun 3900)).reduceOption := by
  rw [rxBridge_overrun rfl, wireBursts_overrun 3899]
  rintro ⟨fs, tail, hsub, hwords, htail⟩
  -- the last word closes a frame
  have hnil : tail = [] := by
    by_contra hne
    have hlast := congrArg List.getLast? hwords
    rw [List.getLast?_append_of_ne_nil _ hne, List.getLast?_concat] at hlast
    have := htail _ (List.mem_of_getLast? hlast.symm)
    cases this
  -- and no choice of the wire's frames has that many words
  have hlen := congrArg List.length hwords
  rw [hnil, List.append_nil, List.length_append, List.length_replicate, List.length_flatMap] at hlen
  simp only [length_gmiiFrame] at hlen
  rcases List.sublist_cons_iff.mp hsub with h | ⟨r, rfl, h⟩
  · rcases List.sublist_cons_iff.mp h with hr | ⟨r, rfl, hr⟩
    · rw [List.sublist_nil.mp hr] at hlen
      cases hlen
    · rw [List.sublist_nil.mp hr] at hlen
      cases hlen
  · rw [List.map_cons, List.sum_cons, List.length_replicate, List.length_singleton] at hlen
    omega

end GigabitTcp
