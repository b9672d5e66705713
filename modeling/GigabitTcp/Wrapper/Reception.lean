/-
  GigabitTcp.Wrapper.Reception — from GMII RX to the reports of MAC RX.

  The RX bridge delays and queues the bytes of the wire, the passes of the IP read them one
  by one or find nothing, MAC RX parses what they read.  As long as the FIFO does not cross its
  threshold inside a frame, and the wire brings frames for the board or strings that MAC RX
  skips, every report is one of a frame on the wire, in the order of the wire and once.

  Main results:
    * `Received.edge`, `Received.pass` — one step,
    * `wire_frames_reported`           — every run,
    * `fitsFrameFifo_run`              — the passes that find room in `frame_fifo`,
    * `wire_frames_all_reported`       — a run in which both FIFOs have room for every byte.
-/
import GigabitTcp.Wrapper1gNet
import GigabitTcp.Wrapper.RxBridge
import GigabitTcp.Wrapper.Demo
import GigabitTcp.Mac.RxIsolation
import GigabitTcp.Stack.Staging

namespace GigabitTcp

open Hw Machine

/-! ## §1. What a run shows. -/

/-- The depth that the `STREAM` pragma gives `frame_fifo`. -/
def frameFifoDepth : Nat := 512

namespace Wrapper1gNet

/-- GMII RX. -/
def phyRx : Wrapper1gNetIn → List RxBridgeIn
  | .edge eRxd eRxdv rxReady _ => [{ eRxd, eRxdv, netRxReady := rxReady }]
  | .pass .. => []

/-- The byte that a pass reads. -/
def readBy (s : Wrapper1gNet) : Wrapper1gNetIn → List GmiiByte
  | .edge .. => []
  | .pass finds uninit msgRoom => (s.passIn finds uninit msgRoom).rx.toList

/-- The frame that MAC RX reports in a pass. -/
def reportedBy (s : Wrapper1gNet) : Wrapper1gNetIn → List MacRx
  | .edge .. => []
  | .pass finds uninit msgRoom => [s.net.frameIn (s.passIn finds uninit msgRoom)].filter MacRx.valid

/-- A pass finds room in `frame_fifo` for the words it pushes. -/
def FitsFrameFifo (s : Wrapper1gNet) : Wrapper1gNetIn → Prop
  | .edge .. => True
  | .pass finds uninit msgRoom =>
      (s.net.frameFifo ++ s.net.pushedIn (s.passIn finds uninit msgRoom)).length ≤ frameFifoDepth

/-- The RX FIFO does not cross its threshold inside a frame. -/
def KeepsFrames (s : Wrapper1gNet) : Wrapper1gNetIn → Prop
  | .edge eRxd eRxdv rxReady _ => s.gmii.rx.KeepsAdmission { eRxd, eRxdv, netRxReady := rxReady }
  | .pass .. => True

instance (s : Wrapper1gNet) (i : Wrapper1gNetIn) : Decidable (s.KeepsFrames i) :=
  match i with
  | .edge .. => inferInstanceAs (Decidable (RxBridge.KeepsAdmission _ _))
  | .pass .. => .isTrue trivial

end Wrapper1gNet

open Wrapper1gNet

/-! ## §2. MAC RX and `frame_fifo`, byte by byte. -/

/-- MAC RX and `frame_fifo` behind a byte. -/
def stagedByte (p : MacRxFsm × List U32) (b : GmiiByte) : MacRxFsm × List U32 :=
  let r := macRxByte p.1 b
  (r.1, if r.2.rx.valid then (p.2 ++ r.2.frameWords).drop r.2.rx.nwords.toNat else p.2 ++ r.2.frameWords)

/-- Inside a frame words are pushed, and none is popped. -/
theorem stagedByte_plain (s : MacRxFsm) (fifo : List U32) {bs : List GmiiByte}
    (h : ∀ b ∈ bs, b.last = false) :
    bs.foldl stagedByte (s, fifo)
      = (macRxByte.after s bs, fifo ++ (macRxByte.outs s bs).flatMap MacRxOut.frameWords) := by
  induction bs generalizing s fifo with
  | nil => exact congrArg (Prod.mk s) (List.append_nil fifo).symm
  | cons b bs ih =>
      obtain ⟨hb, hbs⟩ := List.forall_mem_cons.mp h
      have hsilent : ¬ (macRxByte s b).2.rx.valid = true := by
        intro hvalid
        have hlast := (macRx_valid_end s b hvalid).1
        rw [hb] at hlast
        cases hlast
      have hbyte : stagedByte (s, fifo) b = ((macRxByte s b).1, fifo ++ (macRxByte s b).2.frameWords) :=
        congrArg (Prod.mk _) (if_neg hsilent)
      rw [List.foldl_cons, hbyte, ih _ _ hbs, after_cons, outs_cons, List.flatMap_cons, List.append_assoc]

section Frame

variable {s : MacRxFsm} (hs : s.state = .idle) {f : TaggedFrame} (hacc : macAccepts f.dst)
  (hshort : f.payload.length ≤ 2048)

include hs hacc hshort in
/-- No byte of a frame for the board finds `frame_fifo` full. -/
theorem stagedByte_fits {words rest : List GmiiByte} {b : GmiiByte}
    (h : gmiiFrame f.bytes = words ++ b :: rest) :
    ((words.foldl stagedByte (s, [])).2
      ++ (macRxByte (words.foldl stagedByte (s, [])).1 b).2.frameWords).length ≤ frameFifoDepth := by
  have hframe := (macRx_frame hs f hacc).words
  have hcount : (packWords f.payload).length ≤ frameFifoDepth := by
    rw [length_packWords]
    unfold frameFifoDepth
    omega
  rw [stagedByte_plain s [] (no_last_inside h (List.cons_ne_nil b rest)), List.nil_append]
  dsimp only
  rw [h, outs_append, outs_cons, List.flatMap_append, List.flatMap_cons, ← List.append_assoc] at hframe
  rw [← hframe, List.length_append] at hcount
  omega

include hs hacc hshort in
/-- Behind the last byte it is empty. -/
theorem stagedByte_frame :
    ∃ t : MacRxFsm, t.state = .idle ∧ (gmiiFrame f.bytes).foldl stagedByte (s, []) = (t, []) := by
  have hframe := macRx_frame hs f hacc
  have hcount : f.report.nwords.toNat = (packWords f.payload).length := by
    rw [length_packWords]
    simp only [TaggedFrame.report, BitVec.toNat_ofNat]
    omega
  obtain ⟨init, x, hbytes, -⟩ := f.gmiiFrame_ends
  have hplain : ∀ b ∈ init.map plainByte, b.last = false := by
    intro b hb
    obtain ⟨_, -, rfl⟩ := List.mem_map.mp hb
    rfl
  have hidle := hframe.idle
  have hwords := hframe.words
  have hreport := hframe.report
  rw [hbytes, after_append] at hidle
  rw [hbytes, outs_append] at hwords hreport
  have hlast := List.forall₂_drop_append _ _ _ hreport
  rw [length_outs, List.drop_left, outs_cons, List.forall₂_cons] at hlast
  have hrep : (macRxByte (macRxByte.after s (init.map plainByte)) { data := x, last := true }).2.rx
      = f.report :=
    hlast.1
  rw [List.flatMap_append, outs_cons, outs_nil, List.flatMap_singleton] at hwords
  rw [hbytes, List.foldl_append, stagedByte_plain s [] hplain, List.nil_append, List.foldl_cons,
    List.foldl_nil]
  refine ⟨_, hidle, Prod.ext rfl ?_⟩
  -- the words of the frame are popped
  show (if (macRxByte _ _).2.rx.valid then _ else _ : List U32) = []
  rw [hrep, if_pos (show f.report.valid = true from rfl), hwords, hcount, List.drop_length]

end Frame

/-- Words that frames for the board are made of: no pass finds `frame_fifo` full. -/
theorem frameFifo_fits : ∀ (frames : List TaggedFrame) (s : MacRxFsm) (words rest : List GmiiByte) (b : GmiiByte),
    s.state = .idle → (∀ f ∈ frames, macAccepts f.dst ∧ f.payload.length ≤ 2048) →
    (frames.map TaggedFrame.bytes).flatMap gmiiFrame = words ++ b :: rest →
    ((words.foldl stagedByte (s, [])).2
      ++ (macRxByte (words.foldl stagedByte (s, [])).1 b).2.frameWords).length ≤ frameFifoDepth
  | [], _, words, rest, b, _, _, h => by simp at h
  | f :: frames, s, words, rest, b, hs, hfs, h => by
      obtain ⟨⟨hacc, hshort⟩, hrest⟩ := List.forall_mem_cons.mp hfs
      rw [List.map_cons, List.flatMap_cons] at h
      -- the words reach to the end of `f`, or beyond
      have hbeyond : ∀ p, words = gmiiFrame f.bytes ++ p →
          (frames.map TaggedFrame.bytes).flatMap gmiiFrame = p ++ b :: rest →
          ((words.foldl stagedByte (s, [])).2
            ++ (macRxByte (words.foldl stagedByte (s, [])).1 b).2.frameWords).length ≤ frameFifoDepth := by
        intro p hp htail
        obtain ⟨t, ht, hf⟩ := stagedByte_frame hs hacc hshort
        rw [hp, List.foldl_append, hf]
        exact frameFifo_fits frames t p rest b ht hrest htail
      rcases List.append_eq_append_iff.mp h with ⟨p, hp, htail⟩ | ⟨p, hp, htail⟩
      · exact hbeyond p hp htail
      · cases p with
        | nil => exact hbeyond [] (by rw [hp, List.append_nil, List.append_nil]) htail.symm
        | cons c p =>
            obtain ⟨rfl, -⟩ := List.cons.inj htail
            exact stagedByte_fits hs hacc hshort hp

/-- Nor is it filled further between the bytes. -/
theorem frameFifo_stays (frames : List TaggedFrame) {s : MacRxFsm} (hs : s.state = .idle)
    (hfs : ∀ f ∈ frames, macAccepts f.dst ∧ f.payload.length ≤ 2048) {words rest : List GmiiByte}
    (h : (frames.map TaggedFrame.bytes).flatMap gmiiFrame = words ++ rest) :
    (words.foldl stagedByte (s, [])).2.length ≤ frameFifoDepth := by
  cases words using List.reverseRecOn with
  | nil => exact Nat.zero_le _
  | append_singleton words b =>
      have hfits := frameFifo_fits frames s words rest b hs hfs (by rw [h, List.append_assoc]; rfl)
      rw [List.foldl_append, List.foldl_cons, List.foldl_nil]
      generalize words.foldl stagedByte (s, []) = p at hfits ⊢
      unfold stagedByte
      dsimp only
      split
      · rw [List.length_drop]
        exact (Nat.sub_le _ _).trans hfits
      · exact hfits

/-! ## §3. One step. -/

/-- **The way of a byte**: what has left the RX bridge has been read by a pass, or it stands in
the stream between them.  MAC RX and `frame_fifo` are where these bytes have taken them. -/
structure Received (bridge : RxBridge) (s : Wrapper1gNet) (wire : List RxBridgeIn) (words : List GmiiByte)
    (reports : List MacRx) : Prop where
  rx : s.gmii.rx = rxBridgeMachine.after bridge wire
  popped : (rxBridgeMachine.outs bridge wire).reduceOption = words ++ s.rxStream
  macRx : s.net.macRx = macRxByte.after {} words
  fifo : (s.net.macRx, s.net.frameFifo) = words.foldl stagedByte ({}, [])
  reports : reports = framesOf (macRxByte.outs {} words)
  held : s.gmii.ipEnable = false → words = []

section Received

variable {bridge : RxBridge} {s : Wrapper1gNet} {wire : List RxBridgeIn} {words : List GmiiByte}
  {reports : List MacRx}

theorem Received.edge (h : Received bridge s wire words reports) (pacing : U32) (eRxd : U8)
    (eRxdv rxReady txValid : Bool) :
    Received bridge (s.next pacing (.edge eRxd eRxdv rxReady txValid))
      (wire ++ [{ eRxd, eRxdv, netRxReady := rxReady }]) words reports := by
  refine ⟨?_, ?_, h.macRx, h.fifo, h.reports, nofun⟩
  · rw [after_append, ← h.rx]
    rfl
  · rw [outs_append, ← h.rx, outs_cons, outs_nil, popped_snoc, h.popped, List.append_assoc]
    rfl

/-- The byte that a pass reads goes through MAC RX. -/
theorem Received.pass (h : Received bridge s wire words reports) (pacing : U32) (finds : Bool) (uninit : Uninit)
    (msgRoom : Nat) :
    Received bridge (s.next pacing (.pass finds uninit msgRoom)) wire
      (words ++ s.readBy (.pass finds uninit msgRoom)) (reports ++ s.reportedBy (.pass finds uninit msgRoom)) := by
  have hmac := udpEcho_macRx pacing s.net (s.passIn finds uninit msgRoom)
  have hfifo := udpEcho_frameFifo pacing s.net (s.passIn finds uninit msgRoom)
  have hreport := frameIn_eq s.net (s.passIn finds uninit msgRoom)
  have hreset : (s.passIn finds uninit msgRoom).resetN = s.gmii.ipEnable := rfl
  have hstream : (if (s.passIn finds uninit msgRoom).rx.isSome then s.rxStream.tail else s.rxStream)
      = s.rxStream.drop (s.passIn finds uninit msgRoom).rx.toList.length := by
    cases (s.passIn finds uninit msgRoom).rx <;> simp
  have hread : s.rxStream = (s.passIn finds uninit msgRoom).rx.toList
      ++ s.rxStream.drop (s.passIn finds uninit msgRoom).rx.toList.length := by
    unfold Wrapper1gNet.passIn
    dsimp only
    cases s.rxStream with
    | nil => cases (s.gmii.ipEnable && finds) <;> rfl
    | cons b rest => cases (s.gmii.ipEnable && finds) <;> rfl
  have hheld : s.gmii.ipEnable = false → (s.passIn finds uninit msgRoom).rx = none := by
    intro hdisabled
    unfold Wrapper1gNet.passIn
    rw [hdisabled]
    rfl
  unfold readBy reportedBy
  dsimp only
  rw [hreport, hreset]
  unfold UdpEcho.pushedIn at hfifo
  rw [hreport] at hfifo
  rw [hreset] at hmac hfifo
  refine ⟨h.rx, ?_, ?_, ?_, ?_, ?_⟩
  · show _ = _ ++ (if (s.passIn finds uninit msgRoom).rx.isSome then s.rxStream.tail else s.rxStream)
    rw [hstream, List.append_assoc, ← hread]
    exact h.popped
  · show (udpEcho pacing s.net _).1.macRx = _
    rw [hmac, h.macRx, after_append]
    cases henable : s.gmii.ipEnable with
    | true => cases (s.passIn finds uninit msgRoom).rx <;> rfl
    | false =>
        -- in reset nothing is read
        rw [hheld henable, h.held henable]
        rfl
  · show ((udpEcho pacing s.net _).1.macRx, (udpEcho pacing s.net _).1.frameFifo) = _
    rw [hmac, hfifo, List.foldl_append, ← h.fifo]
    cases henable : s.gmii.ipEnable with
    | true =>
        cases (s.passIn finds uninit msgRoom).rx with
        | none => exact Prod.ext rfl (List.append_nil s.net.frameFifo)
        | some b => rfl
    | false =>
        have hstart := h.fifo
        rw [h.held henable] at hstart
        obtain ⟨hm, hf⟩ := Prod.mk.inj hstart
        rw [hheld henable, hm, hf]
        rfl
  · rw [outs_append, h.reports, h.macRx]
    unfold framesOf
    rw [List.map_append, List.filter_append]
    congr 1
    cases henable : s.gmii.ipEnable with
    | true => cases (s.passIn finds uninit msgRoom).rx <;> rfl
    | false =>
        rw [hheld henable]
        rfl
  · intro hdisabled
    rw [h.held hdisabled, hheld hdisabled]
    rfl

end Received

/-! ## §4. Runs. -/

section Runs

variable (pacing : U32) (w : Wrapper1g)

/-- The wire, the bytes read and the reports of a run from configuration on. -/
theorem received_run (is : List Wrapper1gNetIn) :
    Received w.rx.reset ((wrapper1gNet pacing).after (.start w) is) (is.flatMap phyRx)
      ((wrapper1gNet pacing).record readBy (.start w) is)
      ((wrapper1gNet pacing).record reportedBy (.start w) is) := by
  induction is using List.reverseRecOn with
  | nil => exact ⟨rfl, rfl, rfl, rfl, rfl, fun _ => rfl⟩
  | append_singleton is i ih =>
      rw [after_append, List.flatMap_append, List.flatMap_singleton, record_append, record_append]
      cases i with
      | edge eRxd eRxdv rxReady txValid =>
          have hnext := ih.edge pacing eRxd eRxdv rxReady txValid
          show Received _ _ _ (_ ++ []) (_ ++ [])
          rw [List.append_nil, List.append_nil]
          exact hnext
      | pass finds uninit msgRoom =>
          have hnext := ih.pass pacing finds uninit msgRoom
          show Received _ _ (_ ++ []) (_ ++ (_ ++ [])) (_ ++ (_ ++ []))
          rw [List.append_nil, List.append_nil, List.append_nil]
          exact hnext

/-- A run whose passes read frames for the board of at most 2048 bytes. -/
theorem fitsFrameFifo_run (is : List Wrapper1gNetIn) {frames : List TaggedFrame}
    (hfs : ∀ f ∈ frames, macAccepts f.dst ∧ f.payload.length ≤ 2048)
    (hread : (frames.map TaggedFrame.bytes).flatMap gmiiFrame
      = (wrapper1gNet pacing).record readBy (.start w) is) :
    Along (wrapper1gNet pacing) FitsFrameFifo (.start w) is := by
  rw [Along.iff_at_steps]
  rintro js i ks rfl
  have hfifo := (received_run pacing w js).fifo
  rw [record_append] at hread
  generalize (wrapper1gNet pacing).record readBy (.start w) js = words at hfifo hread
  generalize (wrapper1gNet pacing).after (.start w) js = s at hfifo hread ⊢
  cases i with
  | edge => trivial
  | pass finds uninit msgRoom =>
      change _ = words ++ ((s.passIn finds uninit msgRoom).rx.toList ++ _) at hread
      have hstays := frameFifo_stays frames (s := {}) rfl hfs hread
      rw [← hfifo] at hstays
      show (s.net.frameFifo ++ (macRxProcess s.net.macRx s.gmii.ipEnable
        (s.passIn finds uninit msgRoom).rx).2.frameWords).length ≤ frameFifoDepth
      cases henable : s.gmii.ipEnable with
      | false => exact (congrArg List.length (List.append_nil _)).le.trans hstays
      | true =>
          cases hrx : (s.passIn finds uninit msgRoom).rx with
          | none => exact (congrArg List.length (List.append_nil _)).le.trans hstays
          | some b =>
              rw [hrx] at hread
              have hfits := frameFifo_fits frames {} words _ b rfl hfs hread
              rw [← hfifo] at hfits
              exact hfits

/-- A condition on the edges is one on the RX bridge. -/
theorem along_rx {D : Wrapper1gNet → Wrapper1gNetIn → Prop} {C : RxBridge → RxBridgeIn → Prop}
    (hD : ∀ s eRxd eRxdv rxReady txValid, D s (.edge eRxd eRxdv rxReady txValid) →
      C s.gmii.rx { eRxd, eRxdv, netRxReady := rxReady }) (is : List Wrapper1gNetIn) :
    Along (wrapper1gNet pacing) D (.start w) is → Along rxBridgeMachine C w.rx.reset (is.flatMap phyRx) := by
  induction is using List.reverseRecOn with
  | nil => exact fun _ => trivial
  | append_singleton is i ih =>
      intro halong
      obtain ⟨hbefore, hnow⟩ := Along.append.mp halong
      rw [List.flatMap_append, List.flatMap_singleton]
      refine Along.append.mpr ⟨ih hbefore, ?_⟩
      rw [← (received_run pacing w is).rx]
      cases i with
      | edge eRxd eRxdv rxReady txValid => exact ⟨hD _ _ _ _ _ hnow.1, trivial⟩
      | pass finds uninit msgRoom => trivial

end Runs

/-- A part of a frame is not reported. -/
theorem framesOf_plain : ∀ (bs : List GmiiByte) (s : MacRxFsm), (∀ b ∈ bs, b.last = false) →
    framesOf (macRxByte.outs s bs) = []
  | [], _, _ => rfl
  | b :: bs, s, h => by
      obtain ⟨hb, hbs⟩ := List.forall_mem_cons.mp h
      have hsilent : (macRxByte s b).2.rx.valid = false := by
        by_contra hvalid
        have hlast := (macRx_valid_end s b (by simpa using hvalid)).1
        rw [hb] at hlast
        cases hlast
      have hrest := framesOf_plain bs (macRxByte s b).1 hbs
      unfold framesOf at hrest ⊢
      rw [outs_cons, List.map_cons, List.filter_cons_of_neg (by simpa using hsilent)]
      exact hrest

theorem delivers_report (f : TaggedFrame) (hdst : macAccepts f.dst) :
    (delivers {} (gmiiFrame f.bytes)).1 = [f.report] := by
  obtain ⟨init, x, hends, -⟩ := f.gmiiFrame_ends
  have hmarks : (gmiiFrame f.bytes).filter GmiiByte.last = [{ data := x, last := true }] := by
    rw [hends, List.filter_append, List.filter_eq_nil_iff.mpr]
    · rfl
    · intro b hb
      obtain ⟨_, -, rfl⟩ := List.mem_map.mp hb
      exact Bool.false_ne_true
  rw [(macRx_frame rfl f hdst).delivers, hmarks]
  rfl

/-- Frames for the board are reported, skipped strings are not. -/
theorem reports_of_frames (fs : List (List U8)) (hfs : ∀ f ∈ fs, FrameOk f) :
    ∃ frames : List TaggedFrame, (frames.map TaggedFrame.bytes).Sublist fs
      ∧ (∀ f ∈ frames, macAccepts f.dst)
      ∧ fs.flatMap (fun f => (delivers {} (gmiiFrame f)).1) = frames.map TaggedFrame.report := by
  induction fs with
  | nil => exact ⟨[], .slnil, nofun, rfl⟩
  | cons f fs ih =>
      obtain ⟨hf, hrest⟩ := List.forall_mem_cons.mp hfs
      obtain ⟨frames, hsub, hacc, hreports⟩ := ih hrest
      rw [List.flatMap_cons, hreports]
      rcases hf with ⟨fr, hdst, rfl⟩ | hskip
      · refine ⟨fr :: frames, hsub.cons_cons _, List.forall_mem_cons.mpr ⟨hdst, hacc⟩, ?_⟩
        rw [delivers_report fr hdst]
        rfl
      · obtain ⟨_, -, hrun⟩ := macRx_skipped hskip (gmiiFrame f) {} (gmiiFrame_data f) rfl
        refine ⟨frames, hsub.cons _, hacc, ?_⟩
        rw [hrun.delivers]
        rfl

/-- **What MAC RX reports.**  In every run of the board, edges and passes in any order, in which the RX
FIFO does not cross its threshold inside a frame and the wire brings frames for the board or strings
that MAC RX skips, the reports are those of frames for the board on the wire, in the order of the
wire and each once. -/
theorem wire_frames_reported (pacing : U32) (w : Wrapper1g) (is : List Wrapper1gNetIn)
    (hkeeps : Along (wrapper1gNet pacing) KeepsFrames (.start w) is)
    (hframes : ∀ f ∈ (wireBursts (is.flatMap phyRx)).frames, FrameOk f) :
    ∃ frames : List TaggedFrame, (frames.map TaggedFrame.bytes).Sublist (wireBursts (is.flatMap phyRx)).frames
      ∧ (∀ f ∈ frames, macAccepts f.dst)
      ∧ (wrapper1gNet pacing).record reportedBy (.start w) is = frames.map TaggedFrame.report := by
  have hrun := received_run pacing w is
  have hadmits := along_rx pacing w (C := RxBridge.KeepsAdmission) (fun _ _ _ _ _ h => h) is hkeeps
  obtain ⟨fs, hsub, tail, hwords, htail⟩ := rxBridge_tracks w.rx _ hadmits
  rw [hrun.popped, List.append_assoc] at hwords
  -- what has been read are whole frames and a part of one
  obtain ⟨gs, part, hgs, hread, hpart⟩ := prefix_of_frames fs tail _ _ htail hwords
  have hsub' := hgs.sublist.trans hsub
  have hok : ∀ f ∈ gs, FrameOk f := fun f hf => hframes f (hsub'.subset hf)
  have hdelivered := congrArg Prod.fst (delivers_append {} (gs.flatMap gmiiFrame) part)
  rw [delivers_flatMap gs rfl hok] at hdelivered
  obtain ⟨frames, hboard, hacc, hreports⟩ := reports_of_frames gs hok
  refine ⟨frames, hboard.trans hsub', hacc, ?_⟩
  rw [hrun.reports, hread, ← hreports]
  refine hdelivered.trans ?_
  show _ ++ framesOf (macRxByte.outs _ part) = _
  rw [framesOf_plain part _ hpart, List.append_nil]

/-- A short frame of another station. -/
def shortTagged : TaggedFrame where
  dst := boardMac
  src := 0x020304050607
  tags := []
  ethertype := ethertypeIpv4
  payload := [1, 2, 3, 4]
  notTag := ethertypeIpv4_notTag
  nonempty := by decide

/-- It comes in on 26 edges, and passes read it. -/
def shortFrameRun : List Wrapper1gNetIn :=
  shortTagged.bytes.map (fun b => .edge b true true false) ++ List.replicate 4 (.edge 0 false true false)
    ++ List.replicate 30 (.pass true .zero 0)

theorem shortFrameRun_bursts : (wireBursts (shortFrameRun.flatMap phyRx)).frames = [shortTagged.bytes] := by
  decide +kernel

theorem wire_frames_reported_short :
    let reports := (wrapper1gNet 625000000).record reportedBy (.start .init) shortFrameRun
    reports.map MacRx.srcMac = [0x020304050607]
      ∧ ∃ frames : List TaggedFrame,
        (frames.map TaggedFrame.bytes).Sublist (wireBursts (shortFrameRun.flatMap phyRx)).frames
          ∧ (∀ f ∈ frames, macAccepts f.dst) ∧ reports = frames.map TaggedFrame.report := by
  have hkeeps : Along (wrapper1gNet 625000000) KeepsFrames (.start .init) shortFrameRun := by decide +kernel
  refine ⟨by decide +kernel, wire_frames_reported 625000000 .init shortFrameRun hkeeps fun f hf => ?_⟩
  rw [shortFrameRun_bursts] at hf
  rw [List.mem_singleton.mp hf]
  exact .inl ⟨shortTagged, .inl rfl, rfl⟩

/-! ## §5. Enough room. -/

/-- There is room in the RX FIFO for a byte that comes. -/
def RxBridge.HasRoom (s : RxBridge) : Prop := s.rxDvD2 = true → s.rxOcc.toNat < 3900

instance (s : RxBridge) : Decidable s.HasRoom := inferInstanceAs (Decidable (_ → _))

def Wrapper1gNet.HasRoom (s : Wrapper1gNet) : Wrapper1gNetIn → Prop
  | .edge .. => s.gmii.rx.HasRoom
  | .pass .. => True

instance (s : Wrapper1gNet) (i : Wrapper1gNetIn) : Decidable (s.HasRoom i) :=
  match i with
  | .edge .. => inferInstanceAs (Decidable (RxBridge.HasRoom _))
  | .pass .. => .isTrue trivial

/-- Where the bridge stands, as in `RxBridge.Tracks`, if it has taken everything. -/
structure RxBridge.TakesAll (s : RxBridge) (is : List RxBridgeIn) (words : List GmiiByte)
    (seen : List RxBridgeIn) (x₂ x₁ : RxBridgeIn) : Prop where
  wire : idleWire :: idleWire :: is = seen ++ [x₂, x₁]
  d2 : s.rxD2 = x₂.eRxd ∧ s.rxDvD2 = x₂.eRxdv
  d1 : s.rxD1 = x₁.eRxd ∧ s.rxDvD1 = x₁.eRxdv
  given : words ++ s.rxFifo.contents =
    if x₂.eRxdv then (wireBursts seen).frames.flatMap gmiiFrame ++ (wireBursts seen).current.map plainByte
    else (wireBursts seen).closed.flatMap gmiiFrame

theorem WireBursts.next_idle (b : WireBursts) {x : RxBridgeIn} (hx : x.eRxdv = false) :
    b.next x = { frames := b.closed } := by
  unfold WireBursts.next
  rw [hx]
  rfl

/-- **One cycle** with room. -/
theorem RxBridge.TakesAll.next {s : RxBridge} {is seen : List RxBridgeIn} {words : List GmiiByte}
    {x₂ x₁ : RxBridgeIn} (h : s.TakesAll is words seen x₂ x₁) (hroom : s.HasRoom) (i : RxBridgeIn) :
    (s.next i).TakesAll (is ++ [i]) (words ++ (s.rxPopWord i).toList) (seen ++ [x₂]) x₁ i := by
  refine ⟨by simpa using congrArg (· ++ [i]) h.wire, h.d1, ⟨rfl, rfl⟩, ?_⟩
  rw [List.append_assoc, ← RxBridge.conserves, ← List.append_assoc, h.given, wireBursts_snoc]
  cases hdv : x₂.eRxdv with
  | false =>
      -- between bursts nothing is put in
      rw [RxBridge.rxPushWord_idle (h.d2.2.trans hdv), WireBursts.next_idle _ hdv,
        if_neg Bool.false_ne_true, Option.toList_none, List.append_nil]
      cases x₁.eRxdv with
      | true => exact (List.append_nil _).symm
      | false => rfl
  | true =>
      have hat : s.rxDvD2 = true := h.d2.2.trans hdv
      have hnext : (wireBursts seen).next x₂
          = { wireBursts seen with current := (wireBursts seen).current ++ [x₂.eRxd] } := by
        unfold WireBursts.next
        rw [hdv]
        rfl
      have hfree : s.rxFifo.occ.toNat < 3900 := hroom hat
      have hpush := RxBridge.rxPushWord_eq hat
      rw [if_pos hfree, h.d1.2, h.d2.1] at hpush
      rw [hpush, hnext, if_pos rfl, Option.toList_some, List.append_assoc]
      cases x₁.eRxdv with
      | true =>
          rw [if_pos rfl, List.map_append]
          rfl
      | false =>
          -- the last byte closes the burst
          have hclosed : ({ wireBursts seen with current := (wireBursts seen).current ++ [x₂.eRxd] }
              : WireBursts).closed = (wireBursts seen).frames ++ [(wireBursts seen).current ++ [x₂.eRxd]] := by
            unfold WireBursts.closed
            exact if_neg (by simp)
          rw [if_neg Bool.false_ne_true, hclosed, List.flatMap_append, List.flatMap_singleton,
            gmiiFrame_append _ (by simp)]
          rfl

/-- With room all the time and nothing left on its way, everything on the wire has been popped. -/
theorem rxBridge_takes_all (s : RxBridge) (is : List RxBridgeIn)
    (hroom : Along rxBridgeMachine (fun t _ => t.HasRoom) s.reset is)
    (hempty : (rxBridgeMachine.after s.reset is).rxFifo.contents = [])
    (hidle : (rxBridgeMachine.after s.reset is).rxDvD2 = false
      ∧ (rxBridgeMachine.after s.reset is).rxDvD1 = false) :
    (rxBridgeMachine.outs s.reset is).reduceOption = (wireBursts is).frames.flatMap gmiiFrame := by
  have hstart : ∃ seen x₂ x₁, s.reset.TakesAll [] [] seen x₂ x₁ :=
    ⟨[], idleWire, idleWire, rfl, ⟨rfl, rfl⟩, ⟨rfl, rfl⟩, Ring.contents_clear s.rxFifo⟩
  obtain ⟨seen, x₂, x₁, hend⟩ := Along.invariant_io
    (P := fun t is os => ∃ seen x₂ x₁, RxBridge.TakesAll t is os.reduceOption seen x₂ x₁)
    (fun t is os i h hC => by
      obtain ⟨seen, x₂, x₁, h⟩ := h
      refine ⟨seen ++ [x₂], x₁, i, ?_⟩
      rw [popped_snoc]
      exact h.next hC i)
    [] [] is hstart hroom
  have hgiven := hend.given
  have hbursts : wireBursts is = ((wireBursts seen).next x₂).next x₁ := by
    have hw := congrArg wireBursts hend.wire
    rw [wireBursts_append] at hw
    exact hw
  have hx₂ : x₂.eRxdv = false := hend.d2.2.symm.trans hidle.1
  have hx₁ : x₁.eRxdv = false := hend.d1.2.symm.trans hidle.2
  rw [hx₂, if_neg Bool.false_ne_true] at hgiven
  rw [hempty, List.append_nil] at hgiven
  rw [hbursts, WireBursts.next_idle _ hx₁, WireBursts.next_idle _ hx₂]
  exact hgiven

/-- **Every frame is reported.**  In every run of the board in which the RX FIFO has room for every byte
and the wire brings frames for the board with at most 2048 bytes behind the EtherType, MAC RX has
reported them all, in their order and each once, when nothing is left on its way from the wire to the
passes; and no pass has had to wait for room in `frame_fifo`. -/
theorem wire_frames_all_reported (pacing : U32) (w : Wrapper1g) (is : List Wrapper1gNetIn)
    (frames : List TaggedFrame) (hframes : (wireBursts (is.flatMap phyRx)).frames = frames.map TaggedFrame.bytes)
    (hboard : ∀ f ∈ frames, macAccepts f.dst ∧ f.payload.length ≤ 2048)
    (hroom : Along (wrapper1gNet pacing) Wrapper1gNet.HasRoom (.start w) is)
    (hdone : let s := (wrapper1gNet pacing).after (.start w) is
      s.gmii.rx.rxDvD1 = false ∧ s.gmii.rx.rxDvD2 = false ∧ s.gmii.rx.rxFifo.contents = [] ∧ s.rxStream = []) :
    (wrapper1gNet pacing).record reportedBy (.start w) is = frames.map TaggedFrame.report
      ∧ Along (wrapper1gNet pacing) FitsFrameFifo (.start w) is := by
  have hrun := received_run pacing w is
  obtain ⟨hd1, hd2, hempty, hstream⟩ := hdone
  rw [hrun.rx] at hd1 hd2 hempty
  have hpopped := rxBridge_takes_all w.rx _
    (along_rx pacing w (C := fun t _ => t.HasRoom) (fun _ _ _ _ _ h => h) is hroom) hempty ⟨hd2, hd1⟩
  rw [hrun.popped, hstream, List.append_nil, hframes] at hpopped
  have hok : ∀ f ∈ frames.map TaggedFrame.bytes, FrameOk f := by
    intro f hf
    obtain ⟨t, ht, rfl⟩ := List.mem_map.mp hf
    exact .inl ⟨t, (hboard t ht).1, rfl⟩
  have hdelivered := congrArg Prod.fst (delivers_flatMap (s := {}) _ rfl hok)
  refine ⟨?_, fitsFrameFifo_run pacing w is hboard hpopped.symm⟩
  rw [hrun.reports, hpopped]
  refine hdelivered.trans ?_
  calc (frames.map TaggedFrame.bytes).flatMap (fun f => (delivers {} (gmiiFrame f)).1)
      = frames.flatMap (fun f => (delivers {} (gmiiFrame f.bytes)).1) := List.flatMap_map _ _ _
    _ = frames.flatMap (fun f => [f.report]) :=
        List.flatMap_congr fun f hf => delivers_report f (hboard f hf).1
    _ = frames.map TaggedFrame.report := List.map_eq_flatMap.symm

theorem wire_frames_all_reported_short :
    (wrapper1gNet 625000000).record reportedBy (.start .init) shortFrameRun = [shortTagged.report]
      ∧ Along (wrapper1gNet 625000000) FitsFrameFifo (.start .init) shortFrameRun := by
  have hroom : Along (wrapper1gNet 625000000) Wrapper1gNet.HasRoom (.start .init) shortFrameRun := by
    decide +kernel
  refine wire_frames_all_reported 625000000 .init shortFrameRun [shortTagged] shortFrameRun_bursts ?_ hroom
    (by decide +kernel)
  intro f hf
  rw [List.mem_singleton.mp hf]
  exact ⟨.inl rfl, by decide⟩

end GigabitTcp
