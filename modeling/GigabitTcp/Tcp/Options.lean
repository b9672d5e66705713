/-
  GigabitTcp.Tcp.Options — the options of a SYN.

  A SYN that opens a slot may carry the MSS and the window scale of the peer.  The reference
  reads the option bytes of the header as a list of complete options; the loop of
  `tcp_rx_process` walks over the same bytes, but takes the value of an option that does not
  fit into the header from the bytes behind it.

  Main results:
    * `tcpOptRounds_total`  — the loop terminates,
    * `tcpOptLoop_walk`     — the loop reads the complete options, and one incomplete option,
    * `tcp_syn_options_iff` — when a SYN leaves what the reference reads,
    * `tcp_mss_from_padding` — an MSS that is read from behind the header.
-/
import GigabitTcp.Tcp.Table
import GigabitTcp.Hw.Tlv

namespace GigabitTcp

open Hw Machine

/-! ## §1. The reference. -/

/-- MSS and window scale, with the values of a SYN that names neither. -/
structure TcpSynOpts where
  mss : U16 := 460
  wscale : U8 := 0
  deriving Repr, DecidableEq

/-- Take one option: MSS is kind 2 with two bytes, window scale kind 3 with one; a scale above
7 counts as none. -/
def TcpSynOpts.take (r : TcpSynOpts) (o : U8 × List U8) : TcpSynOpts :=
  if o.1 = 2 ∧ 2 ≤ o.2.length then { r with mss := be16 (o.2.getD 0 0) (o.2.getD 1 0) }
  else if o.1 = 3 ∧ 1 ≤ o.2.length then
    { r with wscale := if o.2.getD 0 0 ≤ 7 then o.2.getD 0 0 else 0 }
  else r

/-- The options of a header: kind 0 ends them, kind 1 is padding. -/
def tcpOptions (bytes : List U8) : Tlv := Tlv.walk 0 1 0 bytes

/-- What a SYN with these option bytes says. -/
def tcpSynOptions (bytes : List U8) : TcpSynOpts := (tcpOptions bytes).opts.foldl TcpSynOpts.take {}

/-- The option bytes of the header. -/
def tcpOptionBytes (seg : TcpSeg) (frameBuf : Mem U32) : List U8 :=
  (List.range ((seg.doff.toNat - 5) * 4)).map (frameBuf.byteAt 10)

/-- The options of the record. -/
def TcpConn.synOpts (c : TcpConn) : TcpSynOpts := { mss := c.peerMss, wscale := c.peerWscale }

/-- If the header ends inside an MSS or a window scale option, the bytes in the places of its
value say what holds without it. -/
def TcpOptionsFit (seg : TcpSeg) (frameBuf : Mem U32) : Prop :=
  let opt := frameBuf.byteAt 10
  let bytes := tcpOptionBytes seg frameBuf
  let o := bytes.length - (tcpOptions bytes).cut.length
  (tcpOptions bytes).cut ≠ [] →
    (opt o = 2 → 4 ≤ opt (o + 1) → be16 (opt (o + 2)) (opt (o + 3)) = (tcpSynOptions bytes).mss)
      ∧ (opt o = 3 → 3 ≤ opt (o + 1) →
        (if opt (o + 2) ≤ 7 then opt (o + 2) else 0) = (tcpSynOptions bytes).wscale)

instance (seg : TcpSeg) (frameBuf : Mem U32) : Decidable (TcpOptionsFit seg frameBuf) :=
  inferInstanceAs (Decidable (_ → _ ∧ _))

/-! ## §2. The loop terminates. -/

/-- The loop as a run of rounds, which has no result before a round ends it. -/
def tcpOptRounds (frameBuf : Mem U32) (optEnd : Nat) : Nat → Nat → TcpConn → Option TcpConn
  | 0, _, _ => none
  | n + 1, o, c =>
      match tcpOptRound frameBuf optEnd o c with
      | none => some c
      | some (o', c') => tcpOptRounds frameBuf optEnd n o' c'

/-- **Termination**: each round moves `o` on, so after as many rounds as there are option bytes
one has ended the loop. -/
theorem tcpOptRounds_total (frameBuf : Mem U32) (optEnd fuel o : Nat) (c : TcpConn)
    (hfuel : optEnd ≤ fuel + o) :
    tcpOptRounds frameBuf optEnd (fuel + 1) o c = some (tcpOptLoop frameBuf optEnd fuel o c) := by
  induction fuel generalizing o c with
  | zero =>
      -- behind the options the first round ends the loop
      unfold tcpOptRounds
      cases hround : tcpOptRound frameBuf optEnd o c with
      | none => rfl
      | some r =>
          obtain ⟨o', c'⟩ := r
          have hmore := (tcpOptRound_some hround).2.1
          omega
  | succ fuel ih =>
      rw [tcpOptLoop_succ, tcpOptRounds]
      cases hround : tcpOptRound frameBuf optEnd o c with
      | none => rfl
      | some r =>
          obtain ⟨o', c'⟩ := r
          have hforward := (tcpOptRound_some hround).1
          exact ih o' c' (by omega)

/-! ## §3. What the loop reads. -/

/-- The bytes from `o` up to the end of the options. -/
def tcpOptTail (frameBuf : Mem U32) (optEnd o : Nat) : List U8 :=
  (List.range' o (optEnd - o)).map (frameBuf.byteAt 10)

/-- The option at `o`, with its value as it stands in the frame. -/
def tcpOptAt (frameBuf : Mem U32) (o : Nat) : U8 × List U8 :=
  (frameBuf.byteAt 10 o,
    (List.range' (o + 2) ((frameBuf.byteAt 10 (o + 1)).toNat - 2)).map (frameBuf.byteAt 10))

section Walk

variable {frameBuf : Mem U32} {optEnd o : Nat}

theorem tcpOptTail_cons (h : o < optEnd) :
    tcpOptTail frameBuf optEnd o = frameBuf.byteAt 10 o :: tcpOptTail frameBuf optEnd (o + 1) := by
  unfold tcpOptTail
  rw [show optEnd - o = (optEnd - (o + 1)) + 1 by omega, List.range'_succ, List.map_cons]

theorem tcpOptTail_nil (h : optEnd ≤ o) : tcpOptTail frameBuf optEnd o = [] := by
  unfold tcpOptTail
  rw [show optEnd - o = 0 by omega]
  rfl

theorem length_tcpOptTail : (tcpOptTail frameBuf optEnd o).length = optEnd - o := by
  unfold tcpOptTail
  rw [List.length_map, List.length_range']

theorem drop_tcpOptTail (n : Nat) :
    (tcpOptTail frameBuf optEnd o).drop n = tcpOptTail frameBuf optEnd (o + n) := by
  unfold tcpOptTail
  rw [← List.map_drop, List.drop_range', Nat.mul_one, Nat.sub_sub]

theorem take_tcpOptTail {n : Nat} (h : o + n ≤ optEnd) :
    (tcpOptTail frameBuf optEnd o).take n = (List.range' o n).map (frameBuf.byteAt 10) := by
  unfold tcpOptTail
  rw [← List.map_take, List.take_range'_of_length_ge (by omega)]

/-- What a round takes over of an option is what the reference takes over. -/
theorem tcpTakeOpt_synOpts (c : TcpConn) :
    (tcpTakeOpt frameBuf o c).synOpts = c.synOpts.take (tcpOptAt frameBuf o) := by
  have hmss : 4 ≤ frameBuf.byteAt 10 (o + 1) ↔ 2 ≤ (tcpOptAt frameBuf o).2.length := by
    unfold tcpOptAt
    rw [List.length_map, List.length_range', BitVec.le_def]
    show 4 ≤ _ ↔ _
    omega
  have hscale : 3 ≤ frameBuf.byteAt 10 (o + 1) ↔ 1 ≤ (tcpOptAt frameBuf o).2.length := by
    unfold tcpOptAt
    rw [List.length_map, List.length_range', BitVec.le_def]
    show 3 ≤ _ ↔ _
    omega
  have hvalue : ∀ i, i < (tcpOptAt frameBuf o).2.length →
      (tcpOptAt frameBuf o).2.getD i 0 = frameBuf.byteAt 10 (o + 2 + i) := by
    intro i hi
    unfold tcpOptAt at hi ⊢
    rw [List.length_map, List.length_range'] at hi
    simp [List.getD_eq_getElem?_getD, hi]
  have hkind : (tcpOptAt frameBuf o).1 = frameBuf.byteAt 10 o := rfl
  unfold tcpTakeOpt TcpSynOpts.take
  dsimp only
  rw [hkind]
  by_cases hm : frameBuf.byteAt 10 o = 2 ∧ 4 ≤ frameBuf.byteAt 10 (o + 1)
  · have hm' := And.intro hm.1 (hmss.mp hm.2)
    rw [if_pos hm, if_pos hm', hvalue 0 (by omega), hvalue 1 (by omega)]
    rfl
  · have hm' : ¬ (frameBuf.byteAt 10 o = 2 ∧ 2 ≤ (tcpOptAt frameBuf o).2.length) :=
      fun h => hm ⟨h.1, hmss.mpr h.2⟩
    rw [if_neg hm, if_neg hm']
    by_cases hs : frameBuf.byteAt 10 o = 3 ∧ 3 ≤ frameBuf.byteAt 10 (o + 1)
    · have hs' := And.intro hs.1 (hscale.mp hs.2)
      rw [if_pos hs, if_pos hs', hvalue 0 (by omega)]
      rfl
    · have hs' : ¬ (frameBuf.byteAt 10 o = 3 ∧ 1 ≤ (tcpOptAt frameBuf o).2.length) :=
        fun h => hs ⟨h.1, hscale.mpr h.2⟩
      rw [if_neg hs, if_neg hs']

/-- The options that the loop takes over: the complete ones, and an incomplete one with the
bytes behind the header as the rest of its value. -/
def tcpWalked (frameBuf : Mem U32) (optEnd : Nat) (w : Tlv) (r : TcpSynOpts) : TcpSynOpts :=
  let r := w.opts.foldl TcpSynOpts.take r
  if w.cut = [] then r else r.take (tcpOptAt frameBuf (optEnd - w.cut.length))

/-- **The loop** from `o` on, with enough fuel. -/
theorem tcpOptLoop_walk (fuel : Nat) (c : TcpConn) (hfuel : optEnd ≤ fuel + o) :
    (tcpOptLoop frameBuf optEnd fuel o c).synOpts
      = tcpWalked frameBuf optEnd (tcpOptions (tcpOptTail frameBuf optEnd o)) c.synOpts := by
  unfold tcpOptions
  induction fuel generalizing o c with
  | zero =>
      rw [tcpOptTail_nil (by omega), Tlv.walk_nil]
      rfl
  | succ fuel ih =>
      rw [tcpOptLoop_succ]
      unfold tcpOptRound
      by_cases hmore : o + 1 < optEnd
      · rw [if_pos hmore, tcpOptTail_cons (by omega)]
        dsimp only
        by_cases hend : frameBuf.byteAt 10 o = 0
        · rw [if_pos hend, hend, Tlv.walk_stop]
          rfl
        · rw [if_neg hend]
          by_cases hnop : frameBuf.byteAt 10 o = 1
          · rw [if_pos hnop, hnop, Tlv.walk_pad (by decide)]
            exact ih c (by omega)
          · rw [if_neg hnop, tcpOptTail_cons hmore]
            by_cases hshort : frameBuf.byteAt 10 (o + 1) < 2
            · rw [if_pos hshort, Tlv.walk_short hend hnop hshort]
              rfl
            · rw [if_neg hshort]
              have htwo : 2 ≤ (frameBuf.byteAt 10 (o + 1)).toNat := Nat.not_lt.mp hshort
              have hrest := ih (o := o + (frameBuf.byteAt 10 (o + 1)).toNat) (tcpTakeOpt frameBuf o c)
                (by omega)
              show (tcpOptLoop frameBuf optEnd fuel _ _).synOpts = _
              rw [hrest, tcpTakeOpt_synOpts]
              by_cases hfits : o + (frameBuf.byteAt 10 (o + 1)).toNat ≤ optEnd
              -- the option is complete: its value is in the header
              · rw [Tlv.walk_option hend hnop hshort (by rw [length_tcpOptTail]; omega),
                  drop_tcpOptTail, take_tcpOptTail (by omega),
                  show o + 1 + 1 + ((frameBuf.byteAt 10 (o + 1)).toNat - 2)
                    = o + (frameBuf.byteAt 10 (o + 1)).toNat by omega]
                rfl
              -- the header ends inside the option, and the loop behind it
              · rw [Tlv.walk_cut hend hnop hshort (by rw [length_tcpOptTail]; omega),
                  tcpOptTail_nil (by omega), Tlv.walk_nil]
                unfold tcpWalked
                dsimp only
                rw [if_pos rfl, if_neg (by simp), List.length_cons, List.length_cons,
                  length_tcpOptTail, show optEnd - (optEnd - (o + 1 + 1) + 1 + 1) = o by omega]
                rfl
      · rw [if_neg hmore]
        by_cases hlast : o < optEnd
        -- one byte is left, a kind without a length
        · rw [tcpOptTail_cons hlast, tcpOptTail_nil (by omega), Tlv.walk_kind (by decide)]
          rfl
        · rw [tcpOptTail_nil (by omega), Tlv.walk_nil]
          rfl

end Walk

/-! ## §4. The call. -/

/-- The incomplete option leaves what the complete ones say exactly if its value says that. -/
theorem tcpWalked_iff (seg : TcpSeg) (frameBuf : Mem U32) :
    tcpWalked frameBuf (tcpOptionBytes seg frameBuf).length (tcpOptions (tcpOptionBytes seg frameBuf)) {}
        = tcpSynOptions (tcpOptionBytes seg frameBuf)
      ↔ TcpOptionsFit seg frameBuf := by
  unfold tcpWalked TcpOptionsFit
  dsimp only
  change (if _ then tcpSynOptions _ else (tcpSynOptions _).take _) = _ ↔ _
  generalize (tcpOptionBytes seg frameBuf).length
    - (tcpOptions (tcpOptionBytes seg frameBuf)).cut.length = o
  generalize tcpSynOptions (tcpOptionBytes seg frameBuf) = r
  by_cases hcut : (tcpOptions (tcpOptionBytes seg frameBuf)).cut = []
  · rw [if_pos hcut]
    exact ⟨fun _ hno => absurd hcut hno, fun _ => rfl⟩
  · rw [if_neg hcut]
    -- the options are those of a record that holds `r`
    have htake : (tcpTakeOpt frameBuf o { peerMss := r.mss, peerWscale := r.wscale }).synOpts = _ :=
      tcpTakeOpt_synOpts _
    have hrecord : TcpConn.synOpts { peerMss := r.mss, peerWscale := r.wscale } = r := rfl
    rw [hrecord] at htake
    rw [← htake]
    unfold tcpTakeOpt
    dsimp only
    by_cases hm : frameBuf.byteAt 10 o = 2 ∧ 4 ≤ frameBuf.byteAt 10 (o + 1)
    · rw [if_pos hm]
      constructor
      · intro heq _
        refine ⟨fun _ _ => congrArg TcpSynOpts.mss heq, fun hscale => ?_⟩
        rw [hm.1] at hscale
        exact absurd hscale (by decide)
      · intro hall
        have hvalue := (hall hcut).1 hm.1 hm.2
        unfold TcpConn.synOpts
        dsimp only
        rw [hvalue]
    · rw [if_neg hm]
      by_cases hs : frameBuf.byteAt 10 o = 3 ∧ 3 ≤ frameBuf.byteAt 10 (o + 1)
      · rw [if_pos hs]
        constructor
        · intro heq _
          refine ⟨fun hmss => ?_, fun _ _ => congrArg TcpSynOpts.wscale heq⟩
          rw [hs.1] at hmss
          exact absurd hmss (by decide)
        · intro hall
          have hvalue := (hall hcut).2 hs.1 hs.2
          unfold TcpConn.synOpts
          dsimp only
          rw [hvalue]
      · rw [if_neg hs]
        refine ⟨fun _ _ => ⟨fun hk hln => absurd ⟨hk, hln⟩ hm, fun hk hln => absurd ⟨hk, hln⟩ hs⟩, ?_⟩
        exact fun _ => hrecord

/-- A slot that is opened holds what the loop reads. -/
theorem tcpOpen_synOpts (cid : Nat) (seg : TcpSeg) (frameBuf : Mem U32) (c : TcpConn) :
    (tcpOpen cid seg frameBuf c).synOpts
      = tcpWalked frameBuf (tcpOptionBytes seg frameBuf).length
          (tcpOptions (tcpOptionBytes seg frameBuf)) {} := by
  have hlength : (tcpOptionBytes seg frameBuf).length = (seg.doff.toNat - 5) * 4 := by
    unfold tcpOptionBytes
    rw [List.length_map, List.length_range]
  have htail : tcpOptTail frameBuf ((seg.doff.toNat - 5) * 4) 0 = tcpOptionBytes seg frameBuf := by
    unfold tcpOptTail tcpOptionBytes
    rw [List.range_eq_range', Nat.sub_zero]
  have hloop : ∀ c, (tcpOptLoop frameBuf ((seg.doff.toNat - 5) * 4) ((seg.doff.toNat - 5) * 4) 0 c).synOpts
      = _ := fun c => tcpOptLoop_walk _ c (by omega)
  rw [hlength, ← htail]
  unfold tcpOpen
  dsimp only
  -- the cut of the window does not touch the options
  split
  · exact hloop _
  · exact hloop _

/-- The rest of the call keeps them. -/
theorem tcpReceive_synOpts (un : Uninit) {cid : Nat} {ipRx : IpRx} {seg : TcpSeg} (frameBuf : Mem U32)
    {t : TcpState} (sh : Shared) (hfind : tcpFind t seg.sp ipRx.srcIp = some cid)
    (hfree : (t.conn cid).state = .free) (hopens : seg.opens = true) :
    ((tcpReceive un ipRx seg frameBuf t sh).1.conn cid).synOpts
      = (tcpOpen cid seg frameBuf (t.conn cid)).synOpts := by
  obtain ⟨_, _, _, _, _, _, _, _, hsegment⟩ :=
    tcpOnSegment_statics (tcpOpen cid seg frameBuf (t.conn cid)) seg
  have hsent : ∀ (c : TcpConn) (flags : U8), (tcpSendConn c flags 0).synOpts = c.synOpts := by
    intro c flags
    unfold tcpSendConn
    dsimp only
    split_ifs <;> rfl
  rw [tcpReceive_opened un frameBuf sh hfind hfree hopens, setConn_setConn]
  unfold tcpSwitch
  rw [setConn_same, tcpOpened_state]
  show ((tcpListen un cid seg ipRx _ sh).1.conn cid).synOpts = _
  unfold tcpListen
  rw [if_pos (TcpSeg.opens_syn hopens), tcpSend_conn un _ none 0 _ sh (tcpFind_some hfind).1,
    Mem.set_same, hsent, setConn_same, setConn_same, hsegment]
  rfl

/-- **The options of a SYN**: the loop comes to its end, with at most one round for each option
byte before the last round; and a SYN that takes a free slot leaves there what the reference
reads from exactly the option bytes of its header, if and only if the header does not end inside
an MSS or window scale option that says something else. -/
theorem tcp_syn_options_iff (un : Uninit) (rst : Bool) (ipRx : IpRx) (frameBuf : Mem U32) (t : TcpState)
    (sh : Shared) (cid : Nat) (htarget : tcpTarget rst ipRx frameBuf t = some cid)
    (hfree : (t.conn cid).state = .free) (hopens : (tcpParse ipRx frameBuf).opens = true) :
    let seg := tcpParse ipRx frameBuf
    let optEnd := (tcpOptionBytes seg frameBuf).length
    (∀ c, tcpOptRounds frameBuf optEnd (optEnd + 1) 0 c = some (tcpOptLoop frameBuf optEnd optEnd 0 c))
      ∧ (((tcpRxProcess un rst ipRx frameBuf t sh).1.conn cid).synOpts
            = tcpSynOptions (tcpOptionBytes seg frameBuf)
          ↔ TcpOptionsFit seg frameBuf) := by
  have hfind := tcpTarget_some htarget
  have hecho : tcpForEcho rst ipRx frameBuf = true := by
    by_contra hno
    unfold tcpTarget at htarget
    rw [if_neg hno] at htarget
    cases htarget
  refine ⟨fun c => tcpOptRounds_total _ _ _ 0 c (by omega), ?_⟩
  · rw [(tcpRxProcess_forEcho un t sh hecho).2, tcpReceive_synOpts un frameBuf sh hfind hfree hopens,
      tcpOpen_synOpts]
    exact tcpWalked_iff _ frameBuf

/-- A SYN of 192.168.100.3:5000 with options, and what follows the header in the frame. -/
def optionsFrame (words : List U32) (doff : U8) : Mem U32 :=
  let header : List U32 := [5000#16 ++ tcpPortEcho, 100, 0, (doff <<< 4) ++ tcpSyn ++ 0xFFFF#16, 0]
  fun j => (List.replicate 5 0 ++ header ++ words).getD j 0

/-- The IP fields of that SYN. -/
def optionsIpRx (totalLen : U16) : IpRx :=
  { protocol := ipProtoTcp, srcIp := 0xC0A86403, dstIp := boardIp, valid := true, totalLen }

/-- MSS 1460 and window scale 7 are taken over. -/
theorem tcp_syn_options_taken :
    ((tcpRxProcess .zero true (optionsIpRx 48) (optionsFrame [0x020405B4, 0x03030701] 7) {} {}).1.conn 0).synOpts
      = { mss := 1460, wscale := 7 } :=
  ((tcp_syn_options_iff .zero true (optionsIpRx 48) (optionsFrame [0x020405B4, 0x03030701] 7) {} {} 0
    (by decide +kernel) rfl (by decide +kernel)).2.mpr (by decide +kernel)).trans (by decide +kernel)

/-- Padding, padding, and an MSS option whose value is not in the header: the reference reads
nothing and stays with 460, the loop reads the padding of the frame behind the header. -/
theorem tcp_mss_from_padding :
    let frameBuf := optionsFrame [0x01010204, 0] 6
    let seg := tcpParse (optionsIpRx 44) frameBuf
    tcpOptionBytes seg frameBuf = [1, 1, 2, 4]
      ∧ tcpSynOptions (tcpOptionBytes seg frameBuf) = { mss := 460, wscale := 0 }
      ∧ ((tcpRxProcess .zero true (optionsIpRx 44) frameBuf {} {}).1.conn 0).state = .synRcvd
      ∧ ((tcpRxProcess .zero true (optionsIpRx 44) frameBuf {} {}).1.conn 0).synOpts
        = { mss := 0, wscale := 0 } := by
  refine ⟨by decide +kernel, by decide +kernel, by decide +kernel, by decide +kernel⟩

end GigabitTcp
