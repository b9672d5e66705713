/-
  GigabitTcp.Mac.RxIsolation — when one frame leaves no trace in the parsing of the next.

  `last` marks the end of a frame on the stream, but MAC RX looks at it in PAYLOAD only.  A
  frame that ends anywhere else leaves the machine in PREAMBLE, HEADER or VLAN, where the
  next frame is taken for its continuation; and what follows the header of a foreign frame
  is scanned for a preamble again.  So isolation is not a law of the machine, but a property
  of the frames, and this file says of which: the frames for the board, complete with at
  least one payload byte, and the byte strings that the scanner in IDLE skips to the end
  (`Skipped`, a grammar of bytes).

      FrameAlone f  ↔  FrameOk f          (one frame from IDLE)
      Isolated fs   ↔  every frame is ok  (any sequence of frames)

  Main results:
    * `macRx_skipped`        — a skipped string is read quietly, back to IDLE,
    * `macRx_scan_cases`     — what IDLE makes of any byte string,
    * `macRx_isolated_iff`   — the exact condition, for whole sequences,
    * `macRx_frames_interfere` — frames for which isolation fails.
-/
import GigabitTcp.Mac.RxDecode

namespace GigabitTcp

open Hw Machine

/-! ## §1. Byte strings that the scanner skips. -/

/-- PREAMBLE holds over these bytes, entered with the counter at `n` (modulo 256): below 7
only 0x55 may follow, from 8 on anything but the delimiter. -/
def SyncRun : U8 → List U8 → Prop
  | _, [] => True
  | n, b :: bs => (n + 1 < 7 → b = 0x55) ∧ (8 ≤ n + 1 → b ≠ 0xD5) ∧ SyncRun (n + 1) bs

/-- The counter behind a 0x55 and the bytes of `run`. -/
def syncCount (run : List U8) : U8 := 1 + BitVec.ofNat 8 run.length

/-- A byte string that IDLE reads to its end without delivering anything. -/
inductive Skipped : List U8 → Prop where
  | nil : Skipped []
  /-- Anything but 0x55. -/
  | skip {b : U8} {bs : List U8} (hb : b ≠ 0x55) (h : Skipped bs) : Skipped (b :: bs)
  /-- A preamble that breaks off early. -/
  | abort {run : List U8} {b : U8} {bs : List U8} (hrun : SyncRun 1 run) (hb : b ≠ 0x55)
      (hcnt : syncCount run + 1 < 7) (h : Skipped bs) : Skipped (0x55 :: (run ++ b :: bs))
  /-- The header of a foreign frame, complete up to its EtherType. -/
  | foreign {run : List U8} {dst src : U48} {tags : List VlanTag} {ethertype : U16} {bs : List U8}
      (hrun : SyncRun 1 run) (hcnt : 8 ≤ syncCount run + 1) (hdst : ¬ macAccepts dst)
      (hety : ethertype ≠ tpidVlan ∧ ethertype ≠ tpidQinq) (h : Skipped bs) :
      Skipped (0x55 :: (run ++ 0xD5 :: (headerBytes dst src tags ethertype ++ bs)))

/-- PREAMBLE stays over a run. -/
theorem macRx_sync_run (s : MacRxFsm) :
    ∀ (bs : List GmiiByte) (n : U8), SyncRun n (bs.map GmiiByte.data) →
      QuietRun (s.inPreamble n) bs (s.inPreamble (n + BitVec.ofNat 8 bs.length))
  | [], n, _ => by simpa using Runs.nil (s.inPreamble n)
  | b :: bs, n, h => by
      obtain ⟨hlow, hhigh, hrest⟩ := h
      have hstep : macRxByte (s.inPreamble n) b = (s.inPreamble (n + 1), {}) := by
        rw [macRxByte_preamble rfl]
        exact (if_neg (fun h => hhigh h.2 h.1)).trans (if_neg (fun h => h.1 (hlow h.2)))
      rw [List.length_cons, add_ofNat_succ]
      exact QuietRun.step hstep (macRx_sync_run s bs (n + 1) hrest)

/-- A byte other than 0x55 breaks a short preamble off. -/
theorem macRx_abort (s : MacRxFsm) {n : U8} (hn : n + 1 < 7) {b : GmiiByte} (hb : b.data ≠ 0x55) :
    macRxByte (s.inPreamble n) b = ({ s.inPreamble (n + 1) with state := .idle }, {}) := by
  have h8 : ¬ 8 ≤ n + 1 := by bv_omega
  rw [macRxByte_preamble rfl]
  exact (if_neg (fun h => h8 h.2)).trans (if_pos ⟨hb, hn⟩)

/-- IDLE ignores what is not 0x55. -/
theorem macRx_ignore {s : MacRxFsm} (hs : s.state = .idle) {b : GmiiByte} (hb : b.data ≠ 0x55) :
    macRxByte s b = ({ s.inPreamble 0 with state := .idle }, {}) := by
  rw [macRxByte_idle hs]
  refine (if_neg hb).trans ?_
  rw [hs]
  rfl

/-- **A skipped string is read quietly**, from IDLE back to IDLE. -/
theorem macRx_skipped {bytes : List U8} (h : Skipped bytes) :
    ∀ (bs : List GmiiByte) (s : MacRxFsm), bs.map GmiiByte.data = bytes → s.state = .idle →
      ∃ t, t.state = .idle ∧ QuietRun s bs t := by
  induction h with
  | nil =>
      intro bs s hbs hs
      obtain rfl : bs = [] := by simpa using hbs
      exact ⟨s, hs, .nil s⟩
  | skip hb _ ih =>
      intro bs s hbs hs
      obtain ⟨b, rest, rfl, rfl, hrest⟩ := List.map_eq_cons_iff.mp hbs
      obtain ⟨u, hu, hrun⟩ := ih rest { s.inPreamble 0 with state := .idle } hrest rfl
      exact ⟨u, hu, QuietRun.step (macRx_ignore hs hb) hrun⟩
  | abort hrun hb hcnt _ ih =>
      intro bs s hbs hs
      obtain ⟨b0, rest, rfl, hb0, hrest⟩ := List.map_eq_cons_iff.mp hbs
      obtain ⟨run, tail, rfl, rfl, htail⟩ := List.map_eq_append_iff.mp hrest
      obtain ⟨b, bs, rfl, rfl, hbs'⟩ := List.map_eq_cons_iff.mp htail
      rw [syncCount, List.length_map] at hcnt
      -- too few bytes 55h, and the byte that breaks them off
      have habort := macRx_abort s hcnt hb
      obtain ⟨u, hu, hlast⟩ := ih bs { s.inPreamble _ with state := .idle } hbs' rfl
      exact ⟨u, hu, QuietRun.step (macRx_first hs hb0)
        ((macRx_sync_run s run 1 hrun).append (QuietRun.step habort hlast))⟩
  | foreign hrun hcnt hdst hety _ ih =>
      intro bs s hbs hs
      obtain ⟨b0, rest, rfl, hb0, hrest⟩ := List.map_eq_cons_iff.mp hbs
      obtain ⟨run, tail, rfl, rfl, htail⟩ := List.map_eq_append_iff.mp hrest
      obtain ⟨b, bs, rfl, hb, hbs'⟩ := List.map_eq_cons_iff.mp htail
      obtain ⟨hdr, bs, rfl, hhdr, hbs''⟩ := List.map_eq_append_iff.mp hbs'
      rw [syncCount, List.length_map] at hcnt
      -- a header for somebody else: the filter drops it at the EtherType
      have hfields := macRx_fields s _ _ _ _ hety hdr hhdr
      obtain ⟨u, hu, hlast⟩ := ih bs _ hbs'' ((macRxFiltered_state _ _ _).trans (if_neg hdst))
      exact ⟨u, hu, QuietRun.step (macRx_first hs hb0)
        ((macRx_sync_run s run 1 hrun).append
          (QuietRun.step (macRx_sfd s hcnt hb) (hfields.append hlast)))⟩

/-! ## §2. What IDLE makes of any byte string. -/

/-- PREAMBLE over arbitrary bytes: it holds to the end, or some first byte ends it. -/
theorem syncRun_cases : ∀ (bs : List GmiiByte) (n : U8),
    SyncRun n (bs.map GmiiByte.data) ∨
    ∃ run b rest, bs = run ++ b :: rest ∧ SyncRun n (run.map GmiiByte.data)
      ∧ ((8 ≤ n + BitVec.ofNat 8 run.length + 1 ∧ b.data = 0xD5)
        ∨ (n + BitVec.ofNat 8 run.length + 1 < 7 ∧ b.data ≠ 0x55))
  | [], _ => .inl trivial
  | b :: bs, n => by
      by_cases hsfd : 8 ≤ n + 1 ∧ b.data = 0xD5
      · exact .inr ⟨[], b, bs, rfl, trivial, .inl (by simpa using hsfd)⟩
      by_cases hstop : n + 1 < 7 ∧ b.data ≠ 0x55
      · exact .inr ⟨[], b, bs, rfl, trivial, .inr (by simpa using hstop)⟩
      have hlow : n + 1 < 7 → b.data = 0x55 := fun h => not_not.mp (fun hb => hstop ⟨h, hb⟩)
      have hhigh : 8 ≤ n + 1 → b.data ≠ 0xD5 := fun h hb => hsfd ⟨h, hb⟩
      rcases syncRun_cases bs (n + 1) with hall | ⟨run, c, rest, rfl, hrun, hend⟩
      · exact .inl ⟨hlow, hhigh, hall⟩
      · refine .inr ⟨b :: run, c, rest, rfl, ⟨hlow, hhigh, hrun⟩, ?_⟩
        rw [List.length_cons, add_ofNat_succ]
        exact hend

/-- Two bytes are those of a 16-bit value. -/
theorem wordBytes_be16 (b0 b1 : U8) : wordBytes 2 (be16 b0 b1) = [b0, b1] := by
  have h0 : b0.toNat < 256 := b0.isLt
  have h1 : b1.toNat < 256 := b1.isLt
  have hhi : lsByte (be16 b0 b1) 1 = b0 := by
    apply BitVec.eq_of_toNat_eq
    rw [toNat_lsByte, toNat_be16]
    omega
  have hlo : lsByte (be16 b0 b1) 0 = b1 := by
    apply BitVec.eq_of_toNat_eq
    rw [toNat_lsByte, toNat_be16]
    omega
  rw [wordBytes_two, hhi, hlo]

/-- The bytes `p` are tags and an EtherType. -/
def TagsAndType (p : List U8) (tags : List VlanTag) (ethertype : U16) : Prop :=
  p = tags.flatMap VlanTag.bytes ++ wordBytes 2 ethertype
    ∧ ethertype ≠ tpidVlan ∧ ethertype ≠ tpidQinq

/-- From the EtherType position: tags and an EtherType, or the frame ends inside them. -/
theorem macRx_tags_cases (s : MacRxFsm) (dst src : U64) : ∀ bs : List GmiiByte,
    (∃ tags ethertype p rest, bs = p ++ rest ∧ TagsAndType (p.map GmiiByte.data) tags ethertype)
      ∨ (macRxByte.after (s.inHeader 12 dst src 0) bs).state ≠ .idle
  | [] => .inr (by simp [MacRxFsm.inHeader])
  | [b0] => .inr (by rw [after_cons, macRx_eth0]; simp [MacRxFsm.inHeader])
  | b0 :: b1 :: bs => by
      by_cases htpid : be16 b0.data b1.data = tpidVlan ∨ be16 b0.data b1.data = tpidQinq
      case neg =>
        refine .inl ⟨[], be16 b0.data b1.data, [b0, b1], bs, rfl, ?_, not_or.mp htpid⟩
        simp [wordBytes_be16]
      -- a tag: two more bytes, then the EtherType position again
      match bs with
      | [] =>
          right
          rw [after_cons, macRx_eth0, after_cons, macRx_tpid s dst src htpid]
          simp [MacRxFsm.inVlan]
      | [b2] =>
          right
          rw [after_cons, macRx_eth0, after_cons, macRx_tpid s dst src htpid, after_cons,
            macRx_tci0]
          simp [MacRxFsm.inVlan]
      | b2 :: b3 :: bs =>
          rcases macRx_tags_cases s dst src bs with ⟨tags, ety, p, rest, rfl, hp, hety⟩ | hend
          · let tag : VlanTag := ⟨be16 b0.data b1.data, be16 b2.data b3.data, htpid⟩
            have htag : tag.bytes = [b0.data, b1.data, b2.data, b3.data] := by
              simp [tag, VlanTag.bytes, wordBytes_be16]
            refine .inl ⟨tag :: tags, ety, b0 :: b1 :: b2 :: b3 :: p, rest, rfl, ?_, hety⟩
            simp only [List.map_cons, hp, List.flatMap_cons, htag, List.cons_append,
              List.nil_append]
          · right
            rw [show b0 :: b1 :: b2 :: b3 :: bs = [b0, b1, b2, b3] ++ bs from rfl, after_append,
              (macRx_tag s dst src htpid).1]
            exact hend

/-- Six bytes are those of an address. -/
theorem exists_mac (bs : List U8) (h : bs.length = 6) : ∃ v : U48, bs = wordBytes 6 v := by
  refine ⟨bs.foldl pushByte 0, ?_⟩
  have hread := wordBytes_foldl_pushByte (w := 48) bs (by omega)
  rw [h] at hread
  exact hread.symm

/-- Behind the delimiter: a complete header, or the frame ends inside it. -/
theorem macRx_fields_cases (s : MacRxFsm) (bs : List GmiiByte) :
    (∃ dst src tags ethertype p rest, bs = p ++ rest
      ∧ p.map GmiiByte.data = headerBytes dst src tags ethertype
      ∧ ethertype ≠ tpidVlan ∧ ethertype ≠ tpidQinq)
      ∨ (macRxByte.after (s.inHeader 0 0 0 0) bs).state ≠ .idle := by
  by_cases h6 : bs.length < 6
  · right
    rw [(macRx_dst s 0 0 bs 0 0 (by simp; omega)).1]
    simp [MacRxFsm.inHeader]
  -- a destination and more
  obtain ⟨bsDst, bs, rfl, hlenDst⟩ := exists_append_of_le_length (n := 6) bs (by omega)
  obtain ⟨dst, hdst⟩ := exists_mac (bsDst.map GmiiByte.data) (by simpa using hlenDst)
  have hrunDst := macRx_dst s 0 0 bsDst 0 0 (by simp [hlenDst])
  rw [hdst, foldl_pushByte_mac, hlenDst] at hrunDst
  by_cases h12 : bs.length < 6
  · right
    rw [after_append, hrunDst.1, (macRx_src s _ 0 bs _ 0 (by simp) (by simp; omega)).1]
    simp [MacRxFsm.inHeader]
  -- a source address and more
  obtain ⟨bsSrc, bs, rfl, hlenSrc⟩ := exists_append_of_le_length (n := 6) bs (by omega)
  obtain ⟨src, hsrc⟩ := exists_mac (bsSrc.map GmiiByte.data) (by simpa using hlenSrc)
  have hrunSrc := macRx_src s (dst.setWidth 64) 0 bsSrc 6 0 (by simp) (by simp [hlenSrc])
  rw [hsrc, foldl_pushByte_mac, hlenSrc] at hrunSrc
  rcases macRx_tags_cases s (dst.setWidth 64) (src.setWidth 64) bs with
    ⟨tags, ety, p, rest, rfl, hp, hety⟩ | hend
  · refine .inl ⟨dst, src, tags, ety, bsDst ++ (bsSrc ++ p), rest, by simp, ?_, hety⟩
    simp only [List.map_append, hdst, hsrc, hp, headerBytes, List.append_assoc]
  · right
    rw [after_append, hrunDst.1, after_append]
    rw [show (0 : U8) + BitVec.ofNat 8 6 = 6 from rfl, hrunSrc.1]
    exact hend

/-- A skipped string, and behind it a preamble, the delimiter and a header for the board. -/
def OpensFrame (bytes : List U8) : Prop :=
  ∃ front run dst src tags ethertype,
    bytes = front ++ 0x55 :: (run ++ 0xD5 :: headerBytes dst src tags ethertype)
    ∧ Skipped front ∧ SyncRun 1 run ∧ 8 ≤ syncCount run + 1 ∧ macAccepts dst
    ∧ ethertype ≠ tpidVlan ∧ ethertype ≠ tpidQinq

theorem Skipped.append {xs ys : List U8} (hx : Skipped xs) (hy : Skipped ys) : Skipped (xs ++ ys) := by
  induction hx with
  | nil => exact hy
  | skip hb _ ih => exact .skip hb ih
  | abort hrun hb hcnt _ ih =>
      rw [List.cons_append, List.append_assoc, List.cons_append]
      exact .abort hrun hb hcnt ih
  | foreign hrun hcnt hdst hety _ ih =>
      rw [List.cons_append, List.append_assoc, List.cons_append, List.append_assoc]
      exact .foreign hrun hcnt hdst hety ih

theorem OpensFrame.prepend {xs ys : List U8} (hx : Skipped xs) (h : OpensFrame ys) :
    OpensFrame (xs ++ ys) := by
  obtain ⟨front, run, dst, src, tags, ety, rfl, hfront, hrest⟩ := h
  exact ⟨xs ++ front, run, dst, src, tags, ety, (List.append_assoc ..).symm, hx.append hfront, hrest⟩

/-- The string does not end in IDLE, or a part of it is delivered as a frame. -/
def Harmful (s : MacRxFsm) (bs : List GmiiByte) : Prop :=
  (macRxByte.after s bs).state ≠ .idle ∨
  ∃ p rest t, bs = p ++ rest ∧ rest ≠ [] ∧ OpensFrame (p.map GmiiByte.data) ∧ QuietRun s p t
    ∧ t.state = .payload ∧ t = t.filling 0 0

theorem Harmful.prepend {s t : MacRxFsm} {p bs : List GmiiByte} (hp : QuietRun s p t)
    (hskip : Skipped (p.map GmiiByte.data)) (h : Harmful t bs) : Harmful s (p ++ bs) := by
  rcases h with hend | ⟨q, rest, u, rfl, hne, hopens, hq, hu⟩
  · left
    rw [after_append, hp.1]
    exact hend
  · refine .inr ⟨p ++ q, rest, u, (List.append_assoc ..).symm, hne, ?_, hp.append hq, hu⟩
    rw [List.map_append]
    exact hopens.prepend hskip

/-- **IDLE before any byte string**: the string is skipped, or it is harmful. -/
theorem macRx_scan_cases : ∀ (n : Nat) (bs : List GmiiByte) (s : MacRxFsm), bs.length ≤ n →
    s.state = .idle → Skipped (bs.map GmiiByte.data) ∨ Harmful s bs
  | _, [], _, _, _ => .inl .nil
  | n + 1, b :: bs, s, hn, hs => by
      rw [List.length_cons] at hn
      by_cases hb : b.data = 0x55
      case neg =>
        have hrun : QuietRun s [b] _ := QuietRun.step (macRx_ignore hs hb) (.nil _)
        rcases macRx_scan_cases n bs { s.inPreamble 0 with state := .idle } (by omega) rfl with
          hskip | hharm
        · exact .inl (.skip hb hskip)
        · exact .inr (hharm.prepend hrun (.skip hb .nil))
      have hfirst := macRx_first hs hb
      rcases syncRun_cases bs 1 with hall | ⟨run, c, rest, rfl, hrun, hend⟩
      · -- the frame ends inside its preamble
        right; left
        rw [after_cons, hfirst, (macRx_sync_run s bs 1 hall).1]
        simp [MacRxFsm.inPreamble]
      have hsync := QuietRun.step hfirst (macRx_sync_run s run 1 hrun)
      rw [List.length_append, List.length_cons] at hn
      rcases hend with ⟨hcnt, hc⟩ | ⟨hcnt, hc⟩
      case inr =>
        -- the preamble breaks off: IDLE again, behind it
        have hstop := hsync.append (QuietRun.step (macRx_abort s hcnt hc) (.nil _))
        have hshort : syncCount (run.map GmiiByte.data) + 1 < 7 := by
          rw [syncCount, List.length_map]
          exact hcnt
        rcases macRx_scan_cases n rest
          { s.inPreamble (1 + BitVec.ofNat 8 run.length + 1) with state := .idle } (by omega) rfl
          with hskip | hharm
        · left
          simp only [List.map_cons, List.map_append, hb]
          exact .abort hrun hc hshort hskip
        · right
          rw [show b :: (run ++ c :: rest) = (b :: run ++ [c]) ++ rest by simp]
          refine hharm.prepend hstop ?_
          simp only [List.cons_append, List.map_cons, List.map_append, hb]
          exact .abort hrun hc hshort .nil
      -- the delimiter: a header follows
      have hdelim := hsync.append (QuietRun.step (macRx_sfd s hcnt hc) (.nil _))
      rcases macRx_fields_cases s rest with ⟨dst, src, tags, ety, p, rest, rfl, hp, hety⟩ | hopen
      case inr =>
        right; left
        rw [show b :: (run ++ c :: rest) = (b :: run ++ [c]) ++ rest by simp, after_append,
          hdelim.1]
        exact hopen
      have hlead := hdelim.append (macRx_fields s dst src tags ety hety p hp)
      have hsplit : b :: (run ++ c :: (p ++ rest)) = (b :: run ++ [c] ++ p) ++ rest := by simp
      rw [List.length_append] at hn
      have hstate := macRxFiltered_state dst src ety
      have hlong : 8 ≤ syncCount (run.map GmiiByte.data) + 1 := by
        rw [syncCount, List.length_map]
        exact hcnt
      have hbytes : (b :: run ++ [c] ++ p).map GmiiByte.data
          = 0x55 :: (run.map GmiiByte.data ++ 0xD5 :: headerBytes dst src tags ety) := by
        simp only [List.map_append, List.map_cons, List.cons_append, List.nil_append,
          List.append_assoc, hb, hc, hp]
      by_cases hacc : macAccepts dst
      · right
        rw [if_pos hacc] at hstate
        rw [hsplit]
        by_cases hrest : rest = []
        · left
          rw [hrest, List.append_nil, hlead.1, hstate]
          simp
        · exact .inr ⟨_, rest, _, rfl, hrest, ⟨[], _, dst, src, tags, ety, hbytes, .nil, hrun, hlong,
            hacc, hety⟩, hlead, hstate, rfl⟩
      · rw [if_neg hacc] at hstate
        rcases macRx_scan_cases n rest _ (by omega) hstate with hskip | hharm
        · left
          simp only [List.map_cons, List.map_append, hb, hc, hp]
          exact .foreign hrun hlong hacc hety hskip
        · right
          rw [hsplit]
          refine hharm.prepend hlead ?_
          rw [hbytes, ← List.append_nil (headerBytes dst src tags ety)]
          exact .foreign hrun hlong hacc hety .nil

/-! ## §3. One frame. -/

/-- The frame starts with a preamble and the address of the board or of broadcast. -/
def StartsForBoard (f : List U8) : Prop :=
  ∃ dst rest, macAccepts dst ∧ f = preamble ++ (wordBytes 6 dst ++ rest)

/-- The `valid` pulses raised while a frame is read from `s`. -/
def pulses (s : MacRxFsm) (f : List U8) : Nat :=
  (macRxByte.outs s (gmiiFrame f)).countP (fun o => o.rx.valid)

/-- What the law of isolation asks of a frame read from `s`. -/
structure FrameAlone (s : MacRxFsm) (f : List U8) : Prop where
  idle : (macRxByte.after s (gmiiFrame f)).state = .idle
  once : pulses s f ≤ 1
  own : 0 < pulses s f → StartsForBoard f

/-- The condition on the bytes: a complete frame for the board, or a skipped string. -/
def FrameOk (f : List U8) : Prop :=
  (∃ t : TaggedFrame, macAccepts t.dst ∧ t.bytes = f) ∨ Skipped f

/-- The metadata comes with a last byte only, and MAC RX goes back to IDLE with it. -/
theorem macRx_valid_end (s : MacRxFsm) (b : GmiiByte) (h : (macRxByte s b).2.rx.valid = true) :
    b.last = true ∧ (macRxByte s b).1.state = .idle := by
  cases hst : s.state with
  | idle =>
      rw [macRxByte_idle hst, macRxIdle] at h
      split at h <;> cases h
  | preamble =>
      rw [macRxByte_preamble hst, macRxPreamble] at h
      split at h
      · cases h
      · split at h <;> cases h
  | header =>
      rw [macRxByte_header hst, macRxHeader, macRxEthertype] at h
      split_ifs at h
  | vlan =>
      rw [macRxByte_vlan hst, macRxVlan] at h
      split at h
      all_goals cases h
  | payload =>
      rw [macRxByte_payload hst, macRxPayload] at h ⊢
      cases hl : b.last with
      | true => exact ⟨rfl, rfl⟩
      | false => rw [hl] at h; cases h

/-- Pulses need last bytes. -/
theorem countP_valid_le : ∀ (bs : List GmiiByte) (s : MacRxFsm),
    (macRxByte.outs s bs).countP (fun o => o.rx.valid) ≤ bs.countP GmiiByte.last
  | [], _ => Nat.le_refl _
  | b :: bs, s => by
      have ih := countP_valid_le bs (macRxByte s b).1
      rw [outs_cons, List.countP_cons, List.countP_cons]
      split
      · rename_i hvalid
        rw [if_pos (macRx_valid_end s b hvalid).1]
        omega
      · omega

theorem countP_last_gmiiFrame : ∀ f : List U8, (gmiiFrame f).countP GmiiByte.last ≤ 1
  | [] => Nat.zero_le _
  | [_] => Nat.le_refl _
  | b :: c :: bs => by
      rw [gmiiFrame_cons_cons, List.countP_cons_of_neg (by simp [plainByte])]
      exact countP_last_gmiiFrame (c :: bs)

/-- A frame that raises a pulse ends in IDLE. -/
theorem idle_of_pulse : ∀ (f : List U8) (s : MacRxFsm),
    0 < (macRxByte.outs s (gmiiFrame f)).countP (fun o => o.rx.valid) →
      (macRxByte.after s (gmiiFrame f)).state = .idle
  | [], _, h => absurd h (Nat.lt_irrefl 0)
  | [b], s, h => by
      obtain ⟨o, ho, hvalid⟩ := List.countP_pos_iff.mp h
      obtain rfl := List.mem_singleton.mp ho
      exact (macRx_valid_end s _ hvalid).2
  | b :: c :: bs, s, h => by
      rw [gmiiFrame_cons_cons, outs_cons, List.countP_cons] at h
      rw [gmiiFrame_cons_cons, after_cons]
      refine idle_of_pulse (c :: bs) _ ?_
      -- the first byte is not the last one
      have hplain : (macRxByte s (plainByte b)).2.rx.valid = false := by
        by_contra hno
        have hlast := (macRx_valid_end s (plainByte b) (by simpa using hno)).1
        cases hlast
      rw [hplain, if_neg Bool.false_ne_true, Nat.add_zero] at h
      exact h

/-- From any state, a frame raises `valid` at most once. -/
theorem pulses_le_one (s : MacRxFsm) (f : List U8) : pulses s f ≤ 1 :=
  le_trans (countP_valid_le _ s) (countP_last_gmiiFrame f)

theorem exists_last_gmiiFrame : ∀ f : List U8, f ≠ [] → ∃ b ∈ gmiiFrame f, b.last = true
  | [], h => absurd rfl h
  | [b], _ => ⟨⟨b, true⟩, by simp [gmiiFrame], rfl⟩
  | b :: c :: bs, _ => by
      obtain ⟨d, hd, hlast⟩ := exists_last_gmiiFrame (c :: bs) (List.cons_ne_nil c bs)
      exact ⟨d, List.mem_cons_of_mem _ hd, hlast⟩

theorem report_of_last {rep : MacRx} {bs : List GmiiByte} {os : List MacRxOut}
    (h : List.Forall₂ (ReportsAtEnd rep) bs os) {b : GmiiByte} (hb : b ∈ bs) (hlast : b.last = true) :
    ∃ o ∈ os, o.rx = rep := by
  induction h with
  | nil => cases hb
  | @cons c o cs os hco _ ih =>
      rcases List.mem_cons.mp hb with rfl | hb
      · rw [ReportsAtEnd, if_pos hlast] at hco
        exact ⟨o, List.mem_cons_self, hco⟩
      · obtain ⟨o', ho', hrep⟩ := ih hb
        exact ⟨o', List.mem_cons_of_mem _ ho', hrep⟩

/-- A quiet run raises none. -/
theorem QuietRun.no_pulse {s t : MacRxFsm} {f : List U8} (h : QuietRun s (gmiiFrame f) t) :
    pulses s f = 0 := by
  rw [pulses, List.countP_eq_zero]
  intro o ho
  simp [(h.outs_all o ho).2]

/-- The part of a frame behind `p` is a frame. -/
theorem gmiiFrame_suffix : ∀ (f : List U8) (p rest : List GmiiByte),
    gmiiFrame f = p ++ rest → rest ≠ [] → rest = gmiiFrame (rest.map GmiiByte.data)
  | f, [], rest, h, _ => by
      rw [List.nil_append] at h
      rw [← h, gmiiFrame_data]
  | [], _ :: _, _, h, _ => by simp [gmiiFrame] at h
  | [b], c :: p, rest, h, hne => by
      simp only [gmiiFrame, List.cons_append, List.cons.injEq, List.nil_eq_append_iff] at h
      exact absurd h.2.2 hne
  | b :: c :: bs, d :: p, rest, h, hne => by
      rw [gmiiFrame_cons_cons, List.cons_append, List.cons.injEq] at h
      exact gmiiFrame_suffix (c :: bs) p rest h.2 hne

/-- A frame that reaches PAYLOAD in front of its end raises a pulse there. -/
theorem pulses_pos {s t : MacRxFsm} {f : List U8} {p rest : List GmiiByte}
    (hsplit : gmiiFrame f = p ++ rest) (hne : rest ≠ []) (hend : macRxByte.after s p = t)
    (hpay : t.state = .payload) (hfresh : t = t.filling 0 0) : 0 < pulses s f := by
  have hrest := gmiiFrame_suffix f p rest hsplit hne
  have hdel := macRx_payload hpay (rest.map GmiiByte.data) (by simpa using hne)
  rw [← hfresh, ← hrest] at hdel
  obtain ⟨b, hb, hlast⟩ := exists_last_gmiiFrame (rest.map GmiiByte.data) (by simpa using hne)
  rw [← hrest] at hb
  obtain ⟨o, ho, hrx⟩ := report_of_last hdel.report hb hlast
  refine List.countP_pos_iff.mpr ⟨o, ?_, by rw [hrx]; rfl⟩
  rw [hsplit, outs_append, hend]
  exact List.mem_append_right _ ho

/-- A frame that starts for the board and ends in IDLE is complete. -/
theorem tagged_of_startsForBoard {s : MacRxFsm} (hs : s.state = .idle) {f : List U8}
    (hstart : StartsForBoard f) (hidle : (macRxByte.after s (gmiiFrame f)).state = .idle) :
    ∃ t : TaggedFrame, macAccepts t.dst ∧ t.bytes = f := by
  obtain ⟨dst, rest, hacc, rfl⟩ := hstart
  have hrest : wordBytes 6 dst ++ rest ≠ [] := by
    intro h
    simpa using congrArg List.length h
  rw [gmiiFrame_append _ hrest, after_append, (macRx_preamble hs).1] at hidle
  rcases macRx_fields_cases s (gmiiFrame (wordBytes 6 dst ++ rest)) with
    ⟨dst', src, tags, ety, p, payload, hsplit, hp, hety⟩ | hopen
  case inr => exact absurd hidle hopen
  -- the destination read is the destination sent
  have hdata : wordBytes 6 dst ++ rest = headerBytes dst' src tags ety ++ payload.map GmiiByte.data := by
    have h := congrArg (List.map GmiiByte.data) hsplit
    rw [gmiiFrame_data, List.map_append, hp] at h
    exact h
  have hdst : dst = dst' := by
    simp only [headerBytes, List.append_assoc] at hdata
    have h6 := List.append_inj_left hdata (by simp)
    have hfold := congrArg (List.foldl pushByte (0 : U64)) h6
    rw [foldl_pushByte_mac, foldl_pushByte_mac] at hfold
    have h48 := congrArg (BitVec.setWidth 48) hfold
    simpa using h48
  subst hdst
  have hrun := macRx_fields s dst src tags ety hety p hp
  have hpayload : payload ≠ [] := by
    rintro rfl
    rw [hsplit, List.append_nil, hrun.1, macRxFiltered_state, if_pos hacc] at hidle
    cases hidle
  refine ⟨⟨dst, src, tags, ety, payload.map GmiiByte.data, hety, by simpa using hpayload⟩, hacc, ?_⟩
  rw [TaggedFrame.bytes, TaggedFrame.lead, List.append_assoc, hdata]

/-- **One frame from IDLE**: the law holds exactly for the frames of the condition. -/
theorem frameAlone_iff {s : MacRxFsm} (hs : s.state = .idle) (f : List U8) :
    FrameAlone s f ↔ FrameOk f := by
  constructor
  · intro h
    by_cases hstart : StartsForBoard f
    · exact .inl (tagged_of_startsForBoard hs hstart h.idle)
    · right
      have hpulse : pulses s f = 0 := Nat.eq_zero_of_not_pos (fun hp => hstart (h.own hp))
      rcases macRx_scan_cases _ (gmiiFrame f) s (le_refl _) hs with hskip | hend | hpart
      · rwa [gmiiFrame_data] at hskip
      · exact absurd h.idle hend
      · obtain ⟨p, rest, t, hsplit, hne, -, hrun, hpay, hfresh⟩ := hpart
        have hpos := pulses_pos hsplit hne hrun.1 hpay hfresh
        omega
  · rintro (⟨t, hacc, rfl⟩ | hskip)
    · have hdel := macRx_frame hs t hacc
      refine ⟨hdel.idle, pulses_le_one s _, fun _ => ⟨t.dst, wordBytes 6 t.src
        ++ (t.tags.flatMap VlanTag.bytes ++ (wordBytes 2 t.ethertype ++ t.payload)), hacc, ?_⟩⟩
      simp only [TaggedFrame.bytes, TaggedFrame.lead, headerBytes, List.append_assoc]
    · obtain ⟨t, ht, hrun⟩ := macRx_skipped hskip (gmiiFrame f) s (gmiiFrame_data f) hs
      refine ⟨by rw [hrun.1]; exact ht, pulses_le_one s f, fun hp => ?_⟩
      rw [hrun.no_pulse] at hp
      exact absurd hp (lt_irrefl 0)

/-! ## §4. Sequences of frames. -/

/-- The metadata raised in a run. -/
def framesOf (os : List MacRxOut) : List MacRx := (os.map MacRxOut.rx).filter MacRx.valid

/-- The words pushed in a run. -/
def wordsOf (os : List MacRxOut) : List U32 := os.flatMap MacRxOut.frameWords

/-- What is delivered while `bs` is read from `s`: metadata and words. -/
def delivers (s : MacRxFsm) (bs : List GmiiByte) : List MacRx × List U32 :=
  (framesOf (macRxByte.outs s bs), wordsOf (macRxByte.outs s bs))

theorem delivers_append (s : MacRxFsm) (bs cs : List GmiiByte) :
    delivers s (bs ++ cs)
      = ((delivers s bs).1 ++ (delivers (macRxByte.after s bs) cs).1,
          (delivers s bs).2 ++ (delivers (macRxByte.after s bs) cs).2) := by
  simp only [delivers, framesOf, wordsOf, outs_append, List.map_append, List.filter_append,
    List.flatMap_append]

/-- Metadata that comes with last bytes only: as much of it as there are last bytes. -/
theorem framesOf_eq {rep : MacRx} (hrep : rep.valid = true) {bs : List GmiiByte}
    {os : List MacRxOut} (h : List.Forall₂ (ReportsAtEnd rep) bs os) :
    framesOf os = (bs.filter GmiiByte.last).map (fun _ => rep) := by
  induction h with
  | nil => rfl
  | @cons b o bs os hbo _ ih =>
      simp only [framesOf, ReportsAtEnd] at ih hbo ⊢
      cases hlast : b.last with
      | true => simp_all
      | false => simp_all

theorem QuietRun.delivers {s t : MacRxFsm} {bs : List GmiiByte} (h : QuietRun s bs t) :
    delivers s bs = ([], []) := by
  have hall := h.outs_all
  simp only [GigabitTcp.delivers, framesOf, wordsOf, Prod.mk.injEq, List.filter_eq_nil_iff,
    List.flatMap_eq_nil_iff, List.forall_mem_map]
  exact ⟨fun o ho => by simp [(hall o ho).2], fun o ho => (hall o ho).1⟩

theorem Delivered.delivers {s : MacRxFsm} {f : TaggedFrame}
    (h : Delivered s (gmiiFrame f.bytes) (packWords f.payload) f.report) :
    delivers s (gmiiFrame f.bytes)
      = (((gmiiFrame f.bytes).filter GmiiByte.last).map (fun _ => f.report), packWords f.payload) :=
  Prod.ext (framesOf_eq rfl h.report) h.words

/-- What a frame of the condition delivers does not depend on the IDLE state before it. -/
theorem delivers_of_frameOk {s t : MacRxFsm} (hs : s.state = .idle) (ht : t.state = .idle)
    {f : List U8} (hf : FrameOk f) : delivers s (gmiiFrame f) = delivers t (gmiiFrame f) := by
  rcases hf with ⟨fr, hacc, rfl⟩ | hskip
  · rw [(macRx_frame hs fr hacc).delivers, (macRx_frame ht fr hacc).delivers]
  · obtain ⟨_, _, hrun⟩ := macRx_skipped hskip (gmiiFrame f) s (gmiiFrame_data f) hs
    obtain ⟨_, _, hrun'⟩ := macRx_skipped hskip (gmiiFrame f) t (gmiiFrame_data f) ht
    rw [hrun.delivers, hrun'.delivers]

/-- Each frame of a sequence meets the law, in the state the frames before it left. -/
def IsolatedFrom : MacRxFsm → List (List U8) → Prop
  | _, [] => True
  | s, f :: fs => FrameAlone s f ∧ IsolatedFrom (macRxByte.after s (gmiiFrame f)) fs

/-- **The law of isolation** for the frames `fs` read from `s`: each frame on its own, and
together they deliver what each of them delivers alone. -/
structure Isolated (s : MacRxFsm) (fs : List (List U8)) : Prop where
  each : IsolatedFrom s fs
  frames : (delivers s (fs.flatMap gmiiFrame)).1 = fs.flatMap (fun f => (delivers {} (gmiiFrame f)).1)
  words : (delivers s (fs.flatMap gmiiFrame)).2 = fs.flatMap (fun f => (delivers {} (gmiiFrame f)).2)

theorem isolatedFrom_iff : ∀ (fs : List (List U8)) {s : MacRxFsm}, s.state = .idle →
    (IsolatedFrom s fs ↔ ∀ f ∈ fs, FrameOk f)
  | [], _, _ => by simp [IsolatedFrom]
  | f :: fs, s, hs => by
      rw [List.forall_mem_cons, IsolatedFrom]
      constructor
      · rintro ⟨hf, hfs⟩
        exact ⟨(frameAlone_iff hs f).mp hf, (isolatedFrom_iff fs hf.idle).mp hfs⟩
      · rintro ⟨hf, hfs⟩
        have halone := (frameAlone_iff hs f).mpr hf
        exact ⟨halone, (isolatedFrom_iff fs halone.idle).mpr hfs⟩

/-- Frames of the condition deliver one after the other what each delivers alone. -/
theorem delivers_flatMap : ∀ (fs : List (List U8)) {s : MacRxFsm}, s.state = .idle →
    (∀ f ∈ fs, FrameOk f) →
      delivers s (fs.flatMap gmiiFrame)
        = (fs.flatMap (fun f => (delivers {} (gmiiFrame f)).1),
            fs.flatMap (fun f => (delivers {} (gmiiFrame f)).2))
  | [], _, _, _ => rfl
  | f :: fs, s, hs, h => by
      rw [List.forall_mem_cons] at h
      have halone := (frameAlone_iff hs f).mpr h.1
      rw [List.flatMap_cons, delivers_append, delivers_flatMap fs halone.idle h.2,
        delivers_of_frameOk hs (t := {}) rfl h.1]
      rfl

/-- **When frames are isolated**: exactly when each of them is a complete frame for the board
or a byte string that IDLE skips. -/
theorem macRx_isolated_iff (s : MacRxFsm) (hs : s.state = .idle) (fs : List (List U8)) :
    Isolated s fs ↔ ∀ f ∈ fs, FrameOk f := by
  constructor
  · intro h
    exact (isolatedFrom_iff fs hs).mp h.each
  · intro h
    have hdel := delivers_flatMap fs hs h
    exact ⟨(isolatedFrom_iff fs hs).mpr h, congrArg Prod.fst hdel, congrArg Prod.snd hdel⟩

/-! ## §5. Frames that interfere. -/

/-- A frame for the board, cut off inside its destination address. -/
def truncatedFrame : List U8 := preamble ++ [0x00, 0x0A, 0x35]

/-- A short frame for the board. -/
def shortFrame : List U8 :=
  preamble ++ headerBytes boardMac 0x020304050607 [] ethertypeIpv4 ++ [1, 2, 3, 4]

/-- Noise between two complete frames does not join them. -/
theorem macRx_isolated_short_frames : Isolated {} [shortFrame, [0x00, 0xFF], shortFrame] := by
  have hshort : FrameOk shortFrame :=
    .inl ⟨⟨boardMac, 0x020304050607, [], ethertypeIpv4, [1, 2, 3, 4], by decide, by decide⟩,
      .inl rfl, by decide⟩
  have hnoise : FrameOk [0x00, 0xFF] := .inr (.skip (by decide) (.skip (by decide) .nil))
  refine (macRx_isolated_iff {} rfl _).mpr ?_
  rintro f (_ | ⟨_, _ | ⟨_, _ | ⟨_, hnil⟩⟩⟩)
  · exact hshort
  · exact hnoise
  · exact hshort
  · cases hnil

/-- A frame for another station that carries a frame for the board as its payload. -/
def tunnelFrame : List U8 :=
  preamble ++ headerBytes 0x020304050607 0x020304050608 [] ethertypeIpv4 ++ shortFrame

/-- A truncated frame leaves HEADER behind and the next frame is lost; bytes inside a filtered
frame are delivered as a frame. -/
theorem macRx_frames_interfere :
    ¬ Isolated {} [truncatedFrame, shortFrame]
      ∧ (macRxByte.after {} (gmiiFrame truncatedFrame)).state = .header
      ∧ (delivers {} (gmiiFrame truncatedFrame ++ gmiiFrame shortFrame)).1 = []
      ∧ (delivers {} (gmiiFrame shortFrame)).1.length = 1
      ∧ ¬ Isolated {} [tunnelFrame]
      ∧ delivers {} (gmiiFrame tunnelFrame) = delivers {} (gmiiFrame shortFrame) := by
  have htrunc : (macRxByte.after {} (gmiiFrame truncatedFrame)).state = .header := by decide
  have htunnel : delivers {} (gmiiFrame tunnelFrame) = delivers {} (gmiiFrame shortFrame) := by
    decide
  refine ⟨fun h => ?_, htrunc, by decide, by decide, fun h => ?_, htunnel⟩
  · have hidle := h.each.1.idle
    rw [htrunc] at hidle
    cases hidle
  · obtain ⟨dst, rest, hacc, hstart⟩ := h.each.1.own (by decide)
    have h6 : wordBytes 6 (0x020304050607 : U48) = wordBytes 6 dst := by
      have htake := congrArg (fun l => (l.drop 8).take 6) hstart
      have hown : (tunnelFrame.drop 8).take 6 = wordBytes 6 (0x020304050607 : U48) := by decide
      rw [← hown]
      simpa [preamble] using htake
    rcases hacc with rfl | rfl
    · revert h6; decide
    · revert h6; decide

end GigabitTcp
