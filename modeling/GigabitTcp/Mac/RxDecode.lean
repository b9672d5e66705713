/-
  GigabitTcp.Mac.RxDecode — what MAC RX makes of one frame.

  The receiver reads a frame one byte a pass, through the states PREAMBLE, HEADER, VLAN and
  PAYLOAD, and shares its counters between them.  Each part of a frame gets one run lemma,
  stated on the bytes of that part alone:

      preamble  →  destination  →  source  →  tag, tag, …  →  EtherType  →  payload

  and the runs are chained by `Runs.append`.  A tag returns to HEADER with `byte_cnt = 12`,
  so the state before the first tag and after any number of tags is the same
  (`macRx_tags`).  The payload is read four bytes at a time, the way `packWords` recurses
  (`macRx_payload`).

  Main results:
    * `macRx_header`          — from IDLE through the second EtherType byte: the filter decides,
    * `macRx_payload`         — the words pushed are the packing of the payload,
    * `macRx_decodes_board`   — a whole frame, interleaved with passes that read nothing.
-/
import GigabitTcp.LayerMac

namespace GigabitTcp

open Hw Machine

/-! ## §1. Frames on the wire. -/

/-- A byte that does not end a frame. -/
def plainByte (b : U8) : GmiiByte := { data := b, last := false }

/-- A byte string as one frame: `last` on its final byte only. -/
def gmiiFrame : List U8 → List GmiiByte
  | [] => []
  | [b] => [{ data := b, last := true }]
  | b :: bs => plainByte b :: gmiiFrame bs

/-- An 802.1Q or 802.1ad tag. -/
structure VlanTag where
  tpid : U16
  tci : U16
  isTag : tpid = tpidVlan ∨ tpid = tpidQinq

/-- The four bytes of a tag. -/
def VlanTag.bytes (t : VlanTag) : List U8 := wordBytes 2 t.tpid ++ wordBytes 2 t.tci

/-- A frame with any number of tags. -/
structure TaggedFrame where
  dst : U48
  src : U48
  tags : List VlanTag
  ethertype : U16
  payload : List U8
  notTag : ethertype ≠ tpidVlan ∧ ethertype ≠ tpidQinq
  nonempty : payload ≠ []

theorem tpidVlan_isTag : tpidVlan = tpidVlan ∨ tpidVlan = tpidQinq := .inl rfl

theorem ethertypeIpv4_notTag : ethertypeIpv4 ≠ tpidVlan ∧ ethertypeIpv4 ≠ tpidQinq := by decide

theorem ethertypeArp_notTag : ethertypeArp ≠ tpidVlan ∧ ethertypeArp ≠ tpidQinq := by decide

/-- The destinations the filter of the MAC accepts. -/
def macAccepts (dst : U48) : Prop := dst = boardMac ∨ dst = broadcastMac

instance (dst : U48) : Decidable (macAccepts dst) := inferInstanceAs (Decidable (_ ∨ _))

/-- The addresses, the tags and the EtherType. -/
def headerBytes (dst src : U48) (tags : List VlanTag) (ethertype : U16) : List U8 :=
  wordBytes 6 dst ++ wordBytes 6 src ++ tags.flatMap VlanTag.bytes ++ wordBytes 2 ethertype

/-- Everything in front of the payload. -/
def TaggedFrame.lead (f : TaggedFrame) : List U8 :=
  preamble ++ headerBytes f.dst f.src f.tags f.ethertype

def TaggedFrame.bytes (f : TaggedFrame) : List U8 := f.lead ++ f.payload

/-- The metadata MAC RX reports with a frame. -/
def TaggedFrame.report (f : TaggedFrame) : MacRx :=
  { ethertype := f.ethertype, srcMac := f.src, dstMac := f.dst, valid := true
    nwords := BitVec.ofNat 10 ((f.payload.length + 3) / 4) }

theorem gmiiFrame_cons_cons (b c : U8) (bs : List U8) :
    gmiiFrame (b :: c :: bs) = plainByte b :: gmiiFrame (c :: bs) := rfl

theorem gmiiFrame_append (xs : List U8) {ys : List U8} (hys : ys ≠ []) :
    gmiiFrame (xs ++ ys) = xs.map plainByte ++ gmiiFrame ys := by
  induction xs with
  | nil => rfl
  | cons x xs ih =>
      obtain ⟨z, zs, hz⟩ : ∃ z zs, xs ++ ys = z :: zs :=
        List.exists_cons_of_ne_nil (by simp [hys])
      rw [List.cons_append, hz, gmiiFrame_cons_cons, ← hz, ih]
      rfl

/-- The data bytes of a frame. -/
theorem gmiiFrame_data : ∀ bs : List U8, (gmiiFrame bs).map GmiiByte.data = bs
  | [] => rfl
  | [_] => rfl
  | b :: c :: bs => by
      rw [gmiiFrame_cons_cons, List.map_cons, gmiiFrame_data (c :: bs)]
      rfl

theorem length_gmiiFrame (bs : List U8) : (gmiiFrame bs).length = bs.length := by
  rw [← List.length_map GmiiByte.data, gmiiFrame_data]

/-- A frame ends with its only marked byte. -/
theorem TaggedFrame.gmiiFrame_ends (f : TaggedFrame) :
    ∃ (init : List U8) (x : U8), gmiiFrame f.bytes = init.map plainByte ++ [{ data := x, last := true }]
      ∧ init.length + 1 = f.bytes.length := by
  have hne : f.bytes ≠ [] := by
    unfold TaggedFrame.bytes
    exact fun hnil => f.nonempty (List.append_eq_nil_iff.mp hnil).2
  obtain ⟨init, x, hbytes⟩ : ∃ init x, f.bytes = init ++ [x] :=
    ⟨_, _, (List.dropLast_append_getLast hne).symm⟩
  refine ⟨init, x, ?_, ?_⟩
  · rw [hbytes, gmiiFrame_append _ (List.cons_ne_nil _ _)]
    rfl
  · rw [hbytes, List.length_append, List.length_singleton]

/-! ## §2. Passes and quiet outputs. -/

/-- MAC RX on the passes that read a byte. -/
abbrev macRxByte : Machine MacRxFsm GmiiByte MacRxOut := macRxCycle.present

/-- Nothing is delivered: no word and no frame. -/
def MacRxOut.Quiet (o : MacRxOut) : Prop := o.frameWords = [] ∧ o.rx.valid = false

/-- A run that delivers nothing. -/
abbrev QuietRun (s : MacRxFsm) (bs : List GmiiByte) (s' : MacRxFsm) : Prop :=
  macRxByte.Runs (fun _ o => o.Quiet) s bs s'

theorem macRxCycle_none (s : MacRxFsm) : macRxCycle s none = (s, {}) := rfl

theorem macRxByte_idle {s : MacRxFsm} (hs : s.state = .idle) (b : GmiiByte) :
    macRxByte s b = macRxIdle s b.data := by
  simp [macRxByte, present, macRxCycle, macRxProcess, hs]

theorem macRxByte_preamble {s : MacRxFsm} (hs : s.state = .preamble) (b : GmiiByte) :
    macRxByte s b = macRxPreamble s b.data := by
  simp [macRxByte, present, macRxCycle, macRxProcess, hs]

theorem macRxByte_header {s : MacRxFsm} (hs : s.state = .header) (b : GmiiByte) :
    macRxByte s b = macRxHeader s b.data := by
  simp [macRxByte, present, macRxCycle, macRxProcess, hs]

theorem macRxByte_vlan {s : MacRxFsm} (hs : s.state = .vlan) (b : GmiiByte) :
    macRxByte s b = macRxVlan s := by
  simp [macRxByte, present, macRxCycle, macRxProcess, hs]

theorem macRxByte_payload {s : MacRxFsm} (hs : s.state = .payload) (b : GmiiByte) :
    macRxByte s b = macRxPayload s b.data b.last := by
  simp [macRxByte, present, macRxCycle, macRxProcess, hs]

theorem quiet_default : MacRxOut.Quiet {} := ⟨rfl, rfl⟩

theorem QuietRun.step {s s' : MacRxFsm} {b : GmiiByte} {bs : List GmiiByte} {t : MacRxFsm}
    (hb : macRxByte s b = (t, {})) (h : QuietRun t bs s') : QuietRun s (b :: bs) s' :=
  Runs.cons (by rw [hb]; exact quiet_default) (by rw [hb]; exact h)

/-! ## §3. The preamble. -/

/-- PREAMBLE after `n` bytes (as counted), entered from the IDLE state `s`. -/
def MacRxFsm.inPreamble (s : MacRxFsm) (n : U8) : MacRxFsm :=
  { state := .preamble, byteCnt := n, savedEthertype := s.savedEthertype
    savedDstMac := s.savedDstMac, savedSrcMac := s.savedSrcMac }

/-- HEADER with its accumulators, entered from the IDLE state `s`. -/
def MacRxFsm.inHeader (s : MacRxFsm) (n : U8) (dst src : U64) (eth : U16) : MacRxFsm :=
  { state := .header, byteCnt := n, dstMacAcc := dst, srcMacAcc := src, ethAcc := eth
    savedEthertype := s.savedEthertype, savedDstMac := s.savedDstMac
    savedSrcMac := s.savedSrcMac }

/-- The first 0x55 clears what an earlier frame left, except its saved header. -/
theorem macRx_first {s : MacRxFsm} (hs : s.state = .idle) {b : GmiiByte} (hb : b.data = 0x55) :
    macRxByte s b = (s.inPreamble 1, {}) := by
  rw [macRxByte_idle hs]
  simp [macRxIdle, hb, MacRxFsm.inPreamble]

/-- Every further 0x55 is counted. -/
theorem macRx_more (s : MacRxFsm) (n : U8) {b : GmiiByte} (hb : b.data = 0x55) :
    macRxByte (s.inPreamble n) b = (s.inPreamble (n + 1), {}) := by
  rw [macRxByte_preamble rfl]
  simp [macRxPreamble, hb, MacRxFsm.inPreamble]

/-- The delimiter is accepted from the eighth byte on. -/
theorem macRx_sfd (s : MacRxFsm) {n : U8} (hn : 8 ≤ n + 1) {b : GmiiByte} (hb : b.data = 0xD5) :
    macRxByte (s.inPreamble n) b = (s.inHeader 0 0 0 0, {}) := by
  rw [macRxByte_preamble rfl]
  simp only [macRxPreamble, MacRxFsm.inPreamble, hb, hn, and_self, if_true]
  rfl

theorem macRx_preamble_run (s : MacRxFsm) :
    ∀ (bs : List GmiiByte) (n : U8), (∀ b ∈ bs, b.data = 0x55) →
      QuietRun (s.inPreamble n) bs (s.inPreamble (n + BitVec.ofNat 8 bs.length))
  | [], n, _ => by simpa using Runs.nil (s.inPreamble n)
  | b :: bs, n, h => by
      have ih := macRx_preamble_run s bs (n + 1) (fun c hc => h c (by simp [hc]))
      rw [List.length_cons, add_ofNat_succ]
      exact QuietRun.step (macRx_more s n (h b (by simp))) ih

/-- **The preamble**: from IDLE, whatever an earlier frame left in the statics. -/
theorem macRx_preamble {s : MacRxFsm} (hs : s.state = .idle) :
    QuietRun s (preamble.map plainByte) (s.inHeader 0 0 0 0) := by
  refine QuietRun.step (macRx_first hs rfl) ?_
  have hrun := macRx_preamble_run s (List.replicate 6 (plainByte 0x55)) 1 (by simp [plainByte])
  have hsfd : QuietRun (s.inPreamble 7) [plainByte 0xD5] (s.inHeader 0 0 0 0) :=
    QuietRun.step (macRx_sfd s (by decide) rfl) (.nil _)
  exact Runs.append hrun hsfd

/-! ## §4. The addresses. -/

/-- Bytes 0..5 of the header are shifted into the destination. -/
theorem macRx_dst (s : MacRxFsm) (src : U64) (eth : U16) :
    ∀ (bs : List GmiiByte) (n : U8) (dst : U64), n.toNat + bs.length ≤ 6 →
      QuietRun (s.inHeader n dst src eth) bs
        (s.inHeader (n + BitVec.ofNat 8 bs.length) ((bs.map GmiiByte.data).foldl pushByte dst)
          src eth)
  | [], n, dst, _ => by simpa using Runs.nil (s.inHeader n dst src eth)
  | b :: bs, n, dst, h => by
      simp only [List.length_cons] at h
      have hn : n < 6 := by rw [BitVec.lt_def]; simp; omega
      have hnext : (n + 1).toNat = n.toNat + 1 := by
        rw [BitVec.toNat_add]; simp; omega
      have ih := macRx_dst s src eth bs (n + 1) (pushByte dst b.data) (by omega)
      rw [List.length_cons, add_ofNat_succ]
      refine QuietRun.step ?_ ih
      rw [macRxByte_header rfl]
      simp only [macRxHeader, MacRxFsm.inHeader, hn, if_true]

/-- Bytes 6..11 of the header are shifted into the source. -/
theorem macRx_src (s : MacRxFsm) (dst : U64) (eth : U16) :
    ∀ (bs : List GmiiByte) (n : U8) (src : U64), 6 ≤ n.toNat → n.toNat + bs.length ≤ 12 →
      QuietRun (s.inHeader n dst src eth) bs
        (s.inHeader (n + BitVec.ofNat 8 bs.length) dst
          ((bs.map GmiiByte.data).foldl pushByte src) eth)
  | [], n, src, _, _ => by simpa using Runs.nil (s.inHeader n dst src eth)
  | b :: bs, n, src, h6, h => by
      rw [List.length_cons] at h
      have hn6 : ¬ n < 6 := by rw [BitVec.lt_def]; simp; omega
      have hn : n < 12 := by rw [BitVec.lt_def]; simp; omega
      have hnext : (n + 1).toNat = n.toNat + 1 := by
        rw [BitVec.toNat_add]; simp; omega
      have ih := macRx_src s dst eth bs (n + 1) (pushByte src b.data) (by omega) (by omega)
      rw [List.length_cons, add_ofNat_succ]
      refine QuietRun.step ?_ ih
      rw [macRxByte_header rfl]
      simp only [macRxHeader, MacRxFsm.inHeader, hn, hn6, if_true, if_false]

/-! ## §5. Tags and the EtherType. -/

/-- VLAN with `rem` tag bytes to skip. -/
def MacRxFsm.inVlan (s : MacRxFsm) (rem : U8) (dst src : U64) (eth : U16) : MacRxFsm :=
  { state := .vlan, dstMacAcc := dst, srcMacAcc := src, ethAcc := eth
    savedEthertype := s.savedEthertype, savedDstMac := s.savedDstMac
    savedSrcMac := s.savedSrcMac, vlanHdrRem := rem }

/-- The statics after the filter decided: PAYLOAD, or IDLE for a foreign destination. -/
def macRxFiltered (dst src : U64) (eth : U16) : MacRxFsm :=
  { state := if macAccepts (dst.setWidth 48) then .payload else .idle
    byteCnt := if macAccepts (dst.setWidth 48) then 1 else 14
    dstMacAcc := dst, srcMacAcc := src, ethAcc := eth
    savedEthertype := eth, savedDstMac := dst.setWidth 48, savedSrcMac := src.setWidth 48 }

theorem macRx_eth0 (s : MacRxFsm) (dst src : U64) (eth : U16) (b : GmiiByte) :
    macRxByte (s.inHeader 12 dst src eth) b
      = (s.inHeader 13 dst src (b.data.setWidth 16 <<< 8), {}) := by
  rw [macRxByte_header rfl]
  rfl

/-- A TPID leads to VLAN. -/
theorem macRx_tpid (s : MacRxFsm) (dst src : U64) {b0 : U8} {b1 : GmiiByte}
    (h : be16 b0 b1.data = tpidVlan ∨ be16 b0 b1.data = tpidQinq) :
    macRxByte (s.inHeader 13 dst src (b0.setWidth 16 <<< 8)) b1
      = (s.inVlan 2 dst src (be16 b0 b1.data), {}) := by
  rw [macRxByte_header rfl]
  show macRxEthertype _ _ = _
  simp only [macRxEthertype, MacRxFsm.inHeader]
  exact if_pos h

theorem macRx_tci0 (s : MacRxFsm) (dst src : U64) (eth : U16) (b : GmiiByte) :
    macRxByte (s.inVlan 2 dst src eth) b = (s.inVlan 1 dst src eth, {}) := by
  rw [macRxByte_vlan rfl]
  simp [macRxVlan, MacRxFsm.inVlan]

theorem macRx_tci1 (s : MacRxFsm) (dst src : U64) (eth : U16) (b : GmiiByte) :
    macRxByte (s.inVlan 1 dst src eth) b = (s.inHeader 12 dst src 0, {}) := by
  rw [macRxByte_vlan rfl]
  simp [macRxVlan, MacRxFsm.inVlan, MacRxFsm.inHeader]

/-- **One tag**: back in HEADER at the EtherType position. -/
theorem macRx_tag (s : MacRxFsm) (dst src : U64) {b0 b1 b2 b3 : GmiiByte}
    (h : be16 b0.data b1.data = tpidVlan ∨ be16 b0.data b1.data = tpidQinq) :
    QuietRun (s.inHeader 12 dst src 0) [b0, b1, b2, b3] (s.inHeader 12 dst src 0) :=
  QuietRun.step (macRx_eth0 s dst src 0 b0)
    (QuietRun.step (macRx_tpid s dst src h)
      (QuietRun.step (macRx_tci0 s dst src _ b2)
        (QuietRun.step (macRx_tci1 s dst src _ b3) (.nil _))))

/-- The two bytes of a value, as HEADER puts them together. -/
theorem be16_wordBytes (v : U16) : be16 (lsByte v 1) (lsByte v 0) = v := by
  apply BitVec.eq_of_toNat_eq
  have hv : v.toNat < 2 ^ 16 := v.isLt
  rw [toNat_be16, toNat_lsByte, toNat_lsByte]
  omega

theorem wordBytes_two {w : Nat} (v : BitVec w) : wordBytes 2 v = [lsByte v 1, lsByte v 0] := rfl

/-- **Any number of tags**: the state before the first tag is the state after the last. -/
theorem macRx_tags (s : MacRxFsm) (dst src : U64) :
    ∀ (tags : List VlanTag) (bs : List GmiiByte),
      bs.map GmiiByte.data = tags.flatMap VlanTag.bytes →
      QuietRun (s.inHeader 12 dst src 0) bs (s.inHeader 12 dst src 0)
  | [], bs, h => by
      obtain rfl : bs = [] := by simpa using h
      exact .nil _
  | t :: tags, bs, h => by
      rw [List.flatMap_cons, List.map_eq_append_iff] at h
      obtain ⟨tag, rest, rfl, htag, hrest⟩ := h
      have hbytes : t.bytes = [lsByte t.tpid 1, lsByte t.tpid 0, lsByte t.tci 1, lsByte t.tci 0] :=
        rfl
      rw [hbytes] at htag
      simp only [List.map_eq_cons_iff, List.map_eq_nil_iff] at htag
      obtain ⟨b0, _, rfl, h0, b1, _, rfl, h1, b2, _, rfl, _, b3, _, rfl, _, rfl⟩ := htag
      have hpid : be16 b0.data b1.data = tpidVlan ∨ be16 b0.data b1.data = tpidQinq := by
        rw [h0, h1, be16_wordBytes]
        exact t.isTag
      exact Runs.append (macRx_tag s dst src hpid) (macRx_tags s dst src tags rest hrest)

/-- The EtherType closes the header and the filter decides. -/
theorem macRx_ethertype (s : MacRxFsm) (dst src : U64) {b0 b1 : GmiiByte}
    (h : ¬ (be16 b0.data b1.data = tpidVlan ∨ be16 b0.data b1.data = tpidQinq)) :
    QuietRun (s.inHeader 12 dst src 0) [b0, b1]
      (macRxFiltered dst src (be16 b0.data b1.data)) := by
  have hstep : macRxByte (s.inHeader 13 dst src (b0.data.setWidth 16 <<< 8)) b1
      = (macRxFiltered dst src (be16 b0.data b1.data),
          { rx := { isBroadcast := dst.setWidth 48 == broadcastMac,
                    isUnicast := dst.setWidth 48 == boardMac } }) := by
    rw [macRxByte_header rfl]
    show macRxEthertype _ _ = _
    refine (if_neg h).trans ?_
    -- the filter asks for the board's address or for broadcast
    by_cases hacc : macAccepts (dst.setWidth 48)
    · have hor : (dst.setWidth 48 == boardMac || dst.setWidth 48 == broadcastMac) = true := by
        simpa [macAccepts] using hacc
      simp only [MacRxFsm.inHeader, hor, if_true, macRxFiltered, hacc]
      rfl
    · have hor : (dst.setWidth 48 == boardMac || dst.setWidth 48 == broadcastMac) = false := by
        simpa [macAccepts] using hacc
      simp only [MacRxFsm.inHeader, hor, macRxFiltered, hacc, if_false]
      rfl
  refine QuietRun.step (macRx_eth0 s dst src 0 b0) (Runs.cons ?_ ?_)
  · rw [hstep]
    exact ⟨rfl, rfl⟩
  · rw [hstep]
    exact .nil _

/-! ## §6. The payload. -/

/-- PAYLOAD with `n` bytes collected in the word `w`. -/
def MacRxFsm.filling (s : MacRxFsm) (w : U32) (n : U8) : MacRxFsm :=
  { s with wrWord := w, wrByte := n }

/-- One more full word. -/
def MacRxFsm.counted (s : MacRxFsm) : MacRxFsm :=
  { s with nwords := s.nwords + 1, wrWord := 0, wrByte := 0 }

/-- The metadata of a frame that ends with `nwords` words. -/
def MacRxFsm.reportWith (s : MacRxFsm) (nwords : U10) : MacRx :=
  { ethertype := s.savedEthertype, dstMac := s.savedDstMac, srcMac := s.savedSrcMac
    valid := true, nwords }

/-- A byte that fills the word only in part. -/
theorem macRx_push {s : MacRxFsm} (hs : s.state = .payload) (w : U32) {n : U8} (hn : n + 1 ≠ 4)
    (b : U8) :
    macRxByte (s.filling w n) (plainByte b) = (s.filling (pushByte w b) (n + 1), {}) := by
  rw [macRxByte_payload (s := s.filling w n) hs]
  simp only [macRxPayload, macRxPush, MacRxFsm.filling, plainByte, hn, if_false,
    Bool.false_eq_true]

/-- The fourth byte sends the word off. -/
theorem macRx_full {s : MacRxFsm} (hs : s.state = .payload) (w : U32) {n : U8}
    (hn : n + 1 = 4) (b : U8) :
    macRxByte (s.filling w n) (plainByte b)
      = (s.counted, { frameWords := [pushByte w b] }) := by
  rw [macRxByte_payload (s := s.filling w n) hs]
  simp only [macRxPayload, macRxPush, MacRxFsm.filling, plainByte, hn, if_true,
    Bool.false_eq_true, if_false]
  rfl

/-- The last byte of a frame flushes the partial word, left-aligned. -/
theorem macRx_last {s : MacRxFsm} (hs : s.state = .payload) (w : U32) {n : U8} (hn : n < 3)
    (b : U8) :
    macRxByte (s.filling w n) { data := b, last := true }
      = ({ s with state := .idle, wrWord := pushByte w b, wrByte := n + 1, nwords := s.nwords + 1 },
          { frameWords := [pushByte w b <<< ((4 - (n + 1).toNat) * 8)]
            rx := s.reportWith (s.nwords + 1) }) := by
  have hn4 : n + 1 ≠ 4 := by bv_omega
  have hpos : n + 1 > 0 := by bv_omega
  rw [macRxByte_payload (s := s.filling w n) hs]
  simp only [macRxPayload, macRxPush, macRxFlush, MacRxFsm.filling, hn4, if_false, if_true, hpos]
  rfl

/-- The last byte of a frame completes a word: nothing is left to flush. -/
theorem macRx_last_full {s : MacRxFsm} (hs : s.state = .payload) (w : U32) {n : U8}
    (hn : n + 1 = 4) (b : U8) :
    macRxByte (s.filling w n) { data := b, last := true }
      = ({ s.counted with state := .idle },
          { frameWords := [pushByte w b], rx := s.reportWith (s.nwords + 1) }) := by
  rw [macRxByte_payload (s := s.filling w n) hs]
  simp only [macRxPayload, macRxPush, macRxFlush, MacRxFsm.filling, hn, if_true]
  rfl

/-- A partial word, shifted to the left end, is padded with zero bytes on the right. -/
theorem pushByte_align_one (b0 : U8) :
    pushByte (0 : U32) b0 <<< 24 = packWord b0 0 0 0 := by
  apply BitVec.eq_of_toNat_eq
  have h0 : b0.toNat < 256 := b0.isLt
  simp only [BitVec.toNat_shiftLeft, toNat_pushByte (show 8 ≤ 32 by omega), toNat_packWord,
    Nat.shiftLeft_eq]
  simp
  omega

theorem pushByte_align_two (b0 b1 : U8) :
    pushByte (pushByte (0 : U32) b0) b1 <<< 16 = packWord b0 b1 0 0 := by
  apply BitVec.eq_of_toNat_eq
  have h0 : b0.toNat < 256 := b0.isLt
  have h1 : b1.toNat < 256 := b1.isLt
  simp only [BitVec.toNat_shiftLeft, toNat_pushByte (show 8 ≤ 32 by omega), toNat_packWord,
    Nat.shiftLeft_eq]
  simp
  omega

theorem pushByte_align_three (b0 b1 b2 : U8) :
    pushByte (pushByte (pushByte (0 : U32) b0) b1) b2 <<< 8 = packWord b0 b1 b2 0 := by
  apply BitVec.eq_of_toNat_eq
  have h0 : b0.toNat < 256 := b0.isLt
  have h1 : b1.toNat < 256 := b1.isLt
  have h2 : b2.toNat < 256 := b2.isLt
  simp only [BitVec.toNat_shiftLeft, toNat_pushByte (show 8 ≤ 32 by omega), toNat_packWord,
    Nat.shiftLeft_eq]
  simp
  omega

/-- The frame metadata comes with the byte that ends the frame, and with no other. -/
def ReportsAtEnd (rep : MacRx) (b : GmiiByte) (o : MacRxOut) : Prop :=
  if b.last then o.rx = rep else o.rx.valid = false

/-- What a run over a whole payload shows: back in IDLE, these words, this report. -/
structure Delivered (s : MacRxFsm) (bs : List GmiiByte) (words : List U32) (rep : MacRx) : Prop where
  idle : (macRxByte.after s bs).state = .idle
  words : (macRxByte.outs s bs).flatMap MacRxOut.frameWords = words
  report : List.Forall₂ (ReportsAtEnd rep) bs (macRxByte.outs s bs)

/-- The last byte of a frame, by what its pass puts out. -/
theorem Delivered.last {s t : MacRxFsm} {b : U8} {words : List U32} {rep : MacRx}
    (h : macRxByte s { data := b, last := true } = (t, { frameWords := words, rx := rep }))
    (ht : t.state = .idle) : Delivered s [{ data := b, last := true }] words rep := by
  refine ⟨?_, ?_, ?_⟩
  · rw [after_cons, h]
    exact ht
  · rw [outs_cons, h]
    simp
  · rw [outs_cons, h]
    exact .cons rfl .nil

/-- A byte before the last one adds the words its pass puts out. -/
theorem Delivered.more {s t : MacRxFsm} {b : U8} {bs : List GmiiByte} {full words : List U32}
    {rep : MacRx} (h : macRxByte s (plainByte b) = (t, { frameWords := full }))
    (ht : Delivered t bs words rep) : Delivered s (plainByte b :: bs) (full ++ words) rep := by
  refine ⟨?_, ?_, ?_⟩
  · rw [after_cons, h]
    exact ht.idle
  · rw [outs_cons, h, List.flatMap_cons, ht.words]
  · rw [outs_cons, h]
    exact .cons rfl ht.report

/-- A byte that fills no word adds nothing. -/
theorem Delivered.push {s : MacRxFsm} (hs : s.state = .payload) {w : U32} {n : U8}
    (hn : n + 1 ≠ 4) {b : U8} {bs : List GmiiByte} {words : List U32} {rep : MacRx}
    (h : Delivered (s.filling (pushByte w b) (n + 1)) bs words rep) :
    Delivered (s.filling w n) (plainByte b :: bs) words rep :=
  h.more (macRx_push hs w hn b)

/-- **The payload**, four bytes at a time. -/
theorem macRx_payload {s : MacRxFsm} (hs : s.state = .payload) :
    ∀ payload : List U8, payload ≠ [] →
      Delivered (s.filling 0 0) (gmiiFrame payload) (packWords payload)
        (s.reportWith (s.nwords + BitVec.ofNat 10 ((payload.length + 3) / 4)))
  | [], h => absurd rfl h
  | [b0], _ => by
      have h := macRx_last hs 0 (n := 0) (by decide) b0
      rw [show ((4 - (0 + 1 : U8).toNat) * 8) = 24 from rfl, pushByte_align_one] at h
      rw [show ([b0].length + 3) / 4 = 1 by simp]
      have hlast := Delivered.last h rfl
      exact hlast
  | [b0, b1], _ => by
      have h := macRx_last hs (pushByte 0 b0) (n := 0 + 1) (by decide) b1
      rw [show ((4 - (0 + 1 + 1 : U8).toNat) * 8) = 16 from rfl, pushByte_align_two] at h
      rw [show ([b0, b1].length + 3) / 4 = 1 by simp]
      have hlast := Delivered.last h rfl
      exact .push hs (by decide) hlast
  | [b0, b1, b2], _ => by
      have h := macRx_last hs (pushByte (pushByte 0 b0) b1) (n := 0 + 1 + 1) (by decide) b2
      rw [show ((4 - (0 + 1 + 1 + 1 : U8).toNat) * 8) = 8 from rfl, pushByte_align_three] at h
      rw [show ([b0, b1, b2].length + 3) / 4 = 1 by simp]
      have hlast := Delivered.last h rfl
      exact .push hs (by decide) (.push hs (by decide) hlast)
  | [b0, b1, b2, b3], _ => by
      have h := macRx_last_full hs (pushByte (pushByte (pushByte 0 b0) b1) b2)
        (n := 0 + 1 + 1 + 1) (by decide) b3
      rw [packWord_eq_pushByte] at h
      rw [show ([b0, b1, b2, b3].length + 3) / 4 = 1 by simp]
      have hlast := Delivered.last h rfl
      exact .push hs (by decide) (.push hs (by decide) (.push hs (by decide) hlast))
  | b0 :: b1 :: b2 :: b3 :: b4 :: rest, _ => by
      have hfull := macRx_full hs (pushByte (pushByte (pushByte 0 b0) b1) b2)
        (n := 0 + 1 + 1 + 1) (by decide) b3
      rw [packWord_eq_pushByte] at hfull
      -- one full word is counted, and the rest is a shorter payload
      have ih := macRx_payload (s := s.counted) hs (b4 :: rest) (by simp)
      have hlen : s.nwords + BitVec.ofNat 10 (((b0 :: b1 :: b2 :: b3 :: b4 :: rest).length + 3) / 4)
          = s.counted.nwords + BitVec.ofNat 10 (((b4 :: rest).length + 3) / 4) := by
        rw [show ((b0 :: b1 :: b2 :: b3 :: b4 :: rest).length + 3) / 4
          = ((b4 :: rest).length + 3) / 4 + 1 by simp only [List.length_cons]; omega,
          add_ofNat_succ]
        rfl
      rw [hlen]
      exact .push hs (by decide) (.push hs (by decide) (.push hs (by decide)
        (Delivered.more hfull ih)))

/-! ## §7. Whole frames. -/

/-- The six bytes of an address, shifted into a cleared 64-bit accumulator. -/
theorem foldl_pushByte_mac (v : U48) :
    (wordBytes 6 v).foldl pushByte (0 : U64) = v.setWidth 64 := by
  have hv : v.toNat < 2 ^ 48 := v.isLt
  have hfold := toNat_foldl_pushByte (show 8 ≤ 64 by omega) v 6 0 (by simp; omega)
  apply BitVec.eq_of_toNat_eq
  rw [hfold, BitVec.toNat_setWidth]
  simp
  omega

/-- **Behind the delimiter**: addresses, tags and EtherType are read, and the filter has
decided. -/
theorem macRx_fields (s : MacRxFsm) (dst src : U48) (tags : List VlanTag) (ethertype : U16)
    (hety : ethertype ≠ tpidVlan ∧ ethertype ≠ tpidQinq) (bs : List GmiiByte)
    (h : bs.map GmiiByte.data = headerBytes dst src tags ethertype) :
    QuietRun (s.inHeader 0 0 0 0) bs
      (macRxFiltered (dst.setWidth 64) (src.setWidth 64) ethertype) := by
  rw [headerBytes, List.append_assoc, List.append_assoc, List.map_eq_append_iff] at h
  obtain ⟨bsDst, _, rfl, hdst, h⟩ := h
  obtain ⟨bsSrc, _, rfl, hsrc, h⟩ := List.map_eq_append_iff.mp h
  obtain ⟨bsTag, bsEty, rfl, htag, hlast⟩ := List.map_eq_append_iff.mp h
  simp only [wordBytes_two, List.map_eq_cons_iff, List.map_eq_nil_iff] at hlast
  obtain ⟨b0, _, rfl, h0, b1, _, rfl, h1, rfl⟩ := hlast
  have hlenDst : bsDst.length = 6 := by simpa using congrArg List.length hdst
  have hlenSrc : bsSrc.length = 6 := by simpa using congrArg List.length hsrc
  have hrunDst := macRx_dst s 0 0 bsDst 0 0 (by simp [hlenDst])
  have hrunSrc := macRx_src s (dst.setWidth 64) 0 bsSrc 6 0 (by simp) (by simp [hlenSrc])
  rw [hdst, foldl_pushByte_mac, hlenDst] at hrunDst
  rw [hsrc, foldl_pushByte_mac, hlenSrc] at hrunSrc
  have hval : be16 b0.data b1.data = ethertype := by rw [h0, h1, be16_wordBytes]
  have hnot : ¬ (be16 b0.data b1.data = tpidVlan ∨ be16 b0.data b1.data = tpidQinq) := by
    rw [hval]
    exact not_or.mpr hety
  have hrunEty := macRx_ethertype s (dst.setWidth 64) (src.setWidth 64) hnot
  rw [hval] at hrunEty
  exact hrunDst.append (hrunSrc.append ((macRx_tags s _ _ tags bsTag htag).append hrunEty))

theorem map_plainByte_data (bs : List U8) : (bs.map plainByte).map GmiiByte.data = bs := by
  simp [Function.comp_def, plainByte]

/-- **From IDLE through the second EtherType byte**: nothing is delivered, and the filter has
decided. -/
theorem macRx_header {s : MacRxFsm} (hs : s.state = .idle) (f : TaggedFrame) :
    QuietRun s (f.lead.map plainByte)
      (macRxFiltered (f.dst.setWidth 64) (f.src.setWidth 64) f.ethertype) := by
  rw [TaggedFrame.lead, List.map_append]
  exact (macRx_preamble hs).append
    (macRx_fields s f.dst f.src f.tags f.ethertype f.notTag _ (map_plainByte_data _))

/-- The filter on the destination that was shifted in. -/
theorem macRxFiltered_state (dst src : U48) (ethertype : U16) :
    (macRxFiltered (dst.setWidth 64) (src.setWidth 64) ethertype).state
      = if macAccepts dst then .payload else .idle := by
  simp [macRxFiltered]

/-- A quiet lead in front of a delivered payload: the whole is delivered the same way. -/
theorem Delivered.after_quiet {s t : MacRxFsm} {lead : List U8} {bs : List GmiiByte}
    {words : List U32} {rep : MacRx} (hlead : QuietRun s (lead.map plainByte) t)
    (h : Delivered t bs words rep) : Delivered s (lead.map plainByte ++ bs) words rep := by
  have hall := hlead.outs_all
  obtain ⟨rfl, hquiet⟩ := hlead
  have hwords : (macRxByte.outs s (lead.map plainByte)).flatMap MacRxOut.frameWords = [] := by
    rw [List.flatMap_eq_nil_iff]
    intro o ho
    exact (hall o ho).1
  refine ⟨?_, ?_, ?_⟩
  · rw [after_append]
    exact h.idle
  · rw [outs_append, List.flatMap_append, hwords, h.words, List.nil_append]
  · rw [outs_append]
    refine List.rel_append ?_ h.report
    rw [List.forall₂_map_left_iff] at hquiet ⊢
    exact hquiet.imp (fun b o ho => ho.2)

/-- A frame for the board, read without empty passes. -/
theorem macRx_frame {s : MacRxFsm} (hs : s.state = .idle) (f : TaggedFrame)
    (hacc : macAccepts f.dst) :
    Delivered s (gmiiFrame f.bytes) (packWords f.payload) f.report := by
  have hlead := macRx_header hs f
  have hpay := macRx_payload
    (s := macRxFiltered (f.dst.setWidth 64) (f.src.setWidth 64) f.ethertype)
    ((macRxFiltered_state _ _ _).trans (if_pos hacc)) f.payload f.nonempty
  have hrep : (macRxFiltered (f.dst.setWidth 64) (f.src.setWidth 64) f.ethertype).reportWith
      ((macRxFiltered (f.dst.setWidth 64) (f.src.setWidth 64) f.ethertype).nwords
        + BitVec.ofNat 10 ((f.payload.length + 3) / 4)) = f.report := by
    simp [MacRxFsm.reportWith, macRxFiltered, TaggedFrame.report]
  rw [hrep] at hpay
  rw [TaggedFrame.bytes, gmiiFrame_append _ f.nonempty]
  exact Delivered.after_quiet hlead hpay

/-- **MAC RX decodes a frame for the board** with any number of tags, whatever earlier frames
left in the statics and however many passes find the stream empty: it is back in IDLE, the
words pushed are the packing of the payload, and the metadata is raised on the pass of the
last byte alone. -/
theorem macRx_decodes_board {s : MacRxFsm} (hs : s.state = .idle) (f : TaggedFrame)
    (hlen : f.payload.length ≤ 2048) (hacc : macAccepts f.dst) (is : List (Option GmiiByte))
    (his : is.reduceOption = gmiiFrame f.bytes) :
    (macRxCycle.after s is).state = .idle
      ∧ (macRxCycle.outs s is).flatMap MacRxOut.frameWords = packWords f.payload
      ∧ (packWords f.payload).length = (f.payload.length + 3) / 4
      ∧ f.report.nwords.toNat = (f.payload.length + 3) / 4
      ∧ List.Forall₂ (fun i o =>
          if i.any GmiiByte.last then o.rx = f.report else o.rx.valid = false)
          is (macRxCycle.outs s is) := by
  have hframe := macRx_frame hs f hacc
  -- the empty passes in between change nothing
  refine ⟨?_, ?_, length_packWords _, ?_, ?_⟩
  · rw [after_reduceOption macRxCycle_none, after_map_some, his]
    exact hframe.idle
  · rw [outs_flatMap_reduceOption macRxCycle_none _ rfl, outs_map_some, his]
    exact hframe.words
  · simp only [TaggedFrame.report, BitVec.toNat_ofNat]
    omega
  · refine forall₂_outs_reduceOption macRxCycle_none (by simp) s is ?_
    rw [his]
    exact hframe.report.imp (fun b o hbo => by simpa [ReportsAtEnd] using hbo)

/-- **A foreign frame up to its EtherType** pushes nothing and reports nothing. -/
theorem macRx_drops_lead {s : MacRxFsm} (hs : s.state = .idle) (f : TaggedFrame)
    (is : List (Option GmiiByte)) (his : is.reduceOption = f.lead.map plainByte) :
    ∀ o ∈ macRxCycle.outs s is, o.Quiet := by
  have hrun := macRx_header hs f
  rw [← his] at hrun
  exact outs_all_reduceOption macRxCycle_none quiet_default s is hrun.outs_all

end GigabitTcp
