/-
  GigabitTcp.Stack.Alike — two stacks that nobody can tell apart.

  Two stacks are alike if they differ only in what no later pass reads: bytes of the buffer
  outside of what is asked to be sent, the fields of an empty mailbox, the latches of an idle
  MAC TX and the statistics.  Alike stacks stay alike and show the same.  A reset pass makes
  two stacks alike if they agree on what it does not clear: the ARP tables and the TCP statics,
  whose reset branches are behind the frame dispatch, `frame_fifo` and `frame_buf`.

  Main results:
    * `udpEcho_reset_alike` — a pass in reset,
    * `udpEcho_alike`       — any pass.
-/
import GigabitTcp.Stack.Staging
import GigabitTcp.Stack.Residue

namespace GigabitTcp

open Hw Machine

/-! ## §1. The shared part. -/

/-- The buffers agree on what the mailbox asks to be sent. -/
def MacTxReq.BytesAgree (req : MacTxReq) (m m' : Mem U32) : Prop :=
  Mem.BytesAgree req.bufAddr.toNat req.bufLen.toNat m m'

/-- No handler asks for a VLAN tag. -/
def MacTxReq.Untagged (req : MacTxReq) : Prop := req.insertVlan = false ∧ req.vlanTci = 0

structure Shared.Alike (sh sh' : Shared) : Prop where
  arp : sh.arp = sh'.arp
  untagged : sh.txReq.Untagged ∧ sh'.txReq.Untagged
  request : sh.txReq.request = sh'.txReq.request
  pending : sh.txReq.request = true →
    sh.txReq = sh'.txReq ∧ sh.txReq.BytesAgree sh.buffer sh'.buffer

/-- A handler takes alike parts to alike parts, and agreeing bytes to agreeing bytes. -/
structure Shared.Follow (sh sh' k k' : Shared) : Prop where
  alike : k.Alike k'
  carries : Mem.Carries sh.buffer sh'.buffer k.buffer k'.buffer

variable {sh sh' : Shared}

theorem Shared.Alike.trans {sh'' : Shared} (h₁ : sh.Alike sh') (h₂ : sh'.Alike sh'') : sh.Alike sh'' where
  arp := h₁.arp.trans h₂.arp
  untagged := ⟨h₁.untagged.1, h₂.untagged.2⟩
  request := h₁.request.trans h₂.request
  pending := by
    intro hreq
    obtain ⟨hsame, hbytes⟩ := h₁.pending hreq
    obtain ⟨hsame', hbytes'⟩ := h₂.pending (h₁.request ▸ hreq)
    exact ⟨hsame.trans hsame', hbytes.trans (by rw [hsame]; exact hbytes')⟩

theorem Shared.Alike.follow (h : sh.Alike sh') : sh.Follow sh' sh sh' := ⟨h, Mem.Carries.refl _ _⟩

theorem Shared.Follow.trans {k k' l l' : Shared} (h₁ : sh.Follow sh' k k') (h₂ : k.Follow k' l l') :
    sh.Follow sh' l l' := ⟨h₂.alike, h₁.carries.trans h₂.carries⟩

/-- Other ARP tables on both sides. -/
theorem Shared.Alike.withArp (h : sh.Alike sh') (arp : ArpTables) :
    sh.Follow sh' { sh with arp } { sh' with arp } :=
  ⟨⟨rfl, h.untagged, h.request, h.pending⟩, Mem.Carries.refl _ _⟩

/-- The same store on both sides, with the mailbox left as it is. -/
theorem Shared.Alike.withBuffer (h : sh.Alike sh') {m m' : Mem U32}
    (hm : Mem.Carries sh.buffer sh'.buffer m m') :
    sh.Follow sh' { sh with buffer := m } { sh' with buffer := m' } :=
  ⟨⟨h.arp, h.untagged, h.request, fun hr => ⟨(h.pending hr).1, hm.bytes (h.pending hr).2⟩⟩, hm⟩

/-- **A request** for bytes that agree. -/
theorem Shared.Alike.issue (h : sh.Alike sh') (dstMac : U48) (ethertype : U16) {bufAddr : Nat}
    (haddr : bufAddr < 1024) {bufLen : U16}
    (hbytes : Mem.BytesAgree bufAddr bufLen.toNat sh.buffer sh'.buffer) :
    sh.Follow sh' (sh.issue dstMac ethertype bufAddr bufLen) (sh'.issue dstMac ethertype bufAddr bufLen) := by
  have haddr' : (BitVec.ofNat 10 bufAddr).toNat = bufAddr := by
    rw [BitVec.toNat_ofNat]
    exact Nat.mod_eq_of_lt haddr
  refine ⟨⟨h.arp, h.untagged, rfl, fun _ => ⟨?_, ?_⟩⟩, Mem.Carries.refl _ _⟩
  · unfold Shared.issue
    dsimp only
    rw [h.untagged.1.1, h.untagged.1.2, h.untagged.2.1, h.untagged.2.2]
  · unfold MacTxReq.BytesAgree Shared.issue
    dsimp only
    rw [haddr']
    exact hbytes

/-- **A frame is written and requested.** -/
theorem Shared.Alike.send (h : sh.Alike sh') {m m' : Mem U32}
    (hm : Mem.Carries sh.buffer sh'.buffer m m') {bufAddr hi : Nat} (hwords : Mem.AgreeOn bufAddr hi m m')
    (haddr : bufAddr < 1024) {bufLen : U16} (hlen : bufAddr + (bufLen.toNat + 3) / 4 ≤ hi)
    (dstMac : U48) (ethertype : U16) :
    sh.Follow sh' ({ sh with buffer := m }.issue dstMac ethertype bufAddr bufLen)
      ({ sh' with buffer := m' }.issue dstMac ethertype bufAddr bufLen) :=
  (h.withBuffer hm).trans
    ((h.withBuffer hm).alike.issue dstMac ethertype haddr (hwords.bytes hlen))

/-- Two stores one after the other, the second one in front of the first. -/
theorem two_fills_agree (m m' : Mem U32) {base n k : Nat} (f g : Nat → U32) :
    Mem.AgreeOn base (base + n + k) ((m.fill (base + n) k f).fill base n g)
      ((m'.fill (base + n) k f).fill base n g) :=
  (Mem.fill_agreeOn _ _ base n g).append
    ((Mem.fill_carries _ _ base n g).agreeOn (Mem.fill_agreeOn _ _ (base + n) k f))

theorem fill_fill_agree (m m' : Mem U32) (base n k : Nat) (f g : Nat → U32) :
    Mem.AgreeOn base (base + n + k) ((m.fill base n f).fill (base + n) k g)
      ((m'.fill base n f).fill (base + n) k g) :=
  ((Mem.fill_carries _ _ (base + n) k g).agreeOn (Mem.fill_agreeOn m m' base n f)).append
    (Mem.fill_agreeOn _ _ (base + n) k g)

/-! ## §2. The handlers. -/

theorem replyMac_alike (h : sh.Alike sh') (ip : U32) :
    (replyMac sh ip).1 = (replyMac sh' ip).1
      ∧ sh.Follow sh' (replyMac sh ip).2 (replyMac sh' ip).2 := by
  unfold replyMac
  dsimp only
  rw [← h.arp]
  exact ⟨rfl, h.withArp _⟩

theorem arpReply_alike (h : sh.Alike sh') (frameBuf : Mem U32) :
    sh.Follow sh' (arpReply sh frameBuf) (arpReply sh' frameBuf) := by
  unfold arpReply writeArpPacket
  exact h.send (Mem.fill_carries _ _ _ _ _) (Mem.fill_agreeOn _ _ _ _ _) (by decide) (by decide) _ _

theorem arpSendRequest_alike (h : sh.Alike sh') (ip : U32) :
    sh.Follow sh' (arpSendRequest sh ip) (arpSendRequest sh' ip) := by
  unfold arpSendRequest writeArpPacket
  exact h.send (Mem.fill_carries _ _ _ _ _) (Mem.fill_agreeOn _ _ _ _ _) (by decide) (by decide) _ _

theorem arpRx_alike (h : sh.Alike sh') (resetN : Bool) (macRx : MacRx) (frameBuf : Mem U32) :
    sh.Follow sh' (arpRxProcess resetN macRx frameBuf sh) (arpRxProcess resetN macRx frameBuf sh') := by
  unfold arpRxProcess
  dsimp only
  rw [← h.arp]
  -- in reset, no ARP frame, a request for the board, anything else that is learned from
  split_ifs
  · exact h.withArp _
  · exact h.follow
  · exact (h.withArp _).trans (arpReply_alike (h.withArp _).alike frameBuf)
  · exact h.withArp _

/-- The checksum of the echo message reads the copied words. -/
theorem icmpChecksum_agree {m m' : Mem U32} (ipRx : IpRx)
    (h : Mem.AgreeOn txScratchBase (txScratchBase + icmpWords ipRx) m m') :
    icmpChecksum (m.byteAt txScratchBase) (icmpTotalLen ipRx).toNat
      = icmpChecksum (m'.byteAt txScratchBase) (icmpTotalLen ipRx).toNat := by
  unfold icmpChecksum
  refine byteChecksum_congr (fun k hk => ?_) 0
  refine Mem.byteAt_congr (h _ (Nat.le_add_right _ _) ?_)
  unfold icmpWords
  omega

/-- The echo message: what was there before does not show. -/
theorem icmpEchoMessage_alike (m m' frameBuf : Mem U32) (ipRx : IpRx) :
    Mem.Carries m m' (icmpEchoMessage m frameBuf ipRx) (icmpEchoMessage m' frameBuf ipRx)
      ∧ Mem.AgreeOn txScratchBase (txScratchBase + icmpWords ipRx) (icmpEchoMessage m frameBuf ipRx)
        (icmpEchoMessage m' frameBuf ipRx) := by
  unfold icmpEchoMessage
  dsimp only
  generalize hw0 : (frameBuf 5 &&& 0x00FFFFFF#32) ||| (icmpEchoReply.setWidth 32 <<< 24) = w0
  -- behind the copy and the first rewrite
  have hcarries := (Mem.fill_carries m m' txScratchBase (icmpWords ipRx) (fun i => frameBuf (5 + i))).trans
    (Mem.set_carries _ _ txScratchBase w0)
  have hcopied := (Mem.set_carries _ _ txScratchBase w0).agreeOn
    (Mem.fill_agreeOn m m' txScratchBase (icmpWords ipRx) (fun i => frameBuf (5 + i)))
  have hfirst : ∀ n : Mem U32, (n.set txScratchBase w0) txScratchBase = w0 := fun n => Mem.set_same n _ _
  rw [hfirst, hfirst]
  -- the checksum field is cleared
  have hcleared := hcarries.trans (Mem.set_carries _ _ txScratchBase (w0 &&& 0xFFFF0000#32))
  have hagree := (Mem.set_carries _ _ txScratchBase (w0 &&& 0xFFFF0000#32)).agreeOn hcopied
  rw [icmpChecksum_agree ipRx hagree, Mem.set_same, Mem.set_same]
  exact ⟨hcleared.trans (Mem.set_carries _ _ _ _), (Mem.set_carries _ _ _ _).agreeOn hagree⟩

theorem icmpReplyFrame_alike (m m' frameBuf : Mem U32) (ipRx : IpRx) :
    Mem.Carries m m' (icmpReplyFrame m frameBuf ipRx) (icmpReplyFrame m' frameBuf ipRx)
      ∧ Mem.AgreeOn txScratchBase (txScratchBase + 5 + icmpWords ipRx) (icmpReplyFrame m frameBuf ipRx)
        (icmpReplyFrame m' frameBuf ipRx) := by
  obtain ⟨hcarries, hagree⟩ := icmpEchoMessage_alike m m' frameBuf ipRx
  -- the message moves up five words, to make room for the header
  have hmoved : Mem.AgreeOn (txScratchBase + 5) (txScratchBase + 5 + icmpWords ipRx)
      ((icmpEchoMessage m frameBuf ipRx).moveUp txScratchBase 5 (icmpWords ipRx))
      ((icmpEchoMessage m' frameBuf ipRx).moveUp txScratchBase 5 (icmpWords ipRx)) := by
    intro j hlo hhi
    unfold Mem.moveUp
    rw [if_pos ⟨hlo, hhi⟩, if_pos ⟨hlo, hhi⟩]
    exact hagree (j - 5) (by omega) (by omega)
  have hkept : Mem.Carries m m' ((icmpEchoMessage m frameBuf ipRx).moveUp txScratchBase 5 (icmpWords ipRx))
      ((icmpEchoMessage m' frameBuf ipRx).moveUp txScratchBase 5 (icmpWords ipRx)) := by
    intro j k hk hj
    by_cases hin : txScratchBase + 5 ≤ j ∧ j < txScratchBase + 5 + icmpWords ipRx
    · rw [hmoved j hin.1 hin.2]
    · unfold Mem.moveUp
      rw [if_neg hin, if_neg hin]
      exact hcarries j k hk hj
  unfold icmpReplyFrame
  refine ⟨hkept.trans (Mem.fill_carries _ _ _ _ _), ?_⟩
  exact (Mem.fill_agreeOn _ _ txScratchBase 5 _).append ((Mem.fill_carries _ _ _ _ _).agreeOn hmoved)

theorem icmpRx_alike (h : sh.Alike sh') (resetN : Bool) (ipRx : IpRx) (frameBuf : Mem U32) :
    sh.Follow sh' (icmpRxProcess resetN ipRx frameBuf sh) (icmpRxProcess resetN ipRx frameBuf sh') := by
  obtain ⟨hcarries, hagree⟩ := icmpReplyFrame_alike sh.buffer sh'.buffer frameBuf ipRx
  unfold icmpRxProcess
  split_ifs
  · exact h.follow
  · have hwritten := h.withBuffer hcarries
    obtain ⟨hmac, harp⟩ := replyMac_alike hwritten.alike ipRx.srcIp
    show sh.Follow sh' ((replyMac _ _).2.issue (replyMac _ _).1 _ _ _) ((replyMac _ _).2.issue (replyMac _ _).1 _ _ _)
    rw [← hmac]
    refine hwritten.trans (harp.trans (harp.alike.issue _ _ (by decide) ?_))
    refine (harp.carries.agreeOn hagree).bytes ?_
    have hlen : (ipHeaderBytes + icmpTotalLen ipRx).toNat ≤ 20 + (icmpTotalLen ipRx).toNat := by
      rw [BitVec.toNat_add]
      exact Nat.mod_le _ _
    unfold icmpWords
    omega
  · exact h.follow

theorem igmpRx_alike (h : sh.Alike sh') (resetN : Bool) (ipRx : IpRx) (frameBuf : Mem U32) :
    sh.Follow sh' (igmpRxProcess resetN ipRx frameBuf sh) (igmpRxProcess resetN ipRx frameBuf sh') := by
  unfold igmpRxProcess
  dsimp only
  split_ifs
  · exact h.follow
  · exact h.send ((Mem.fill_carries _ _ _ _ _).trans (Mem.fill_carries _ _ _ _ _))
      (two_fills_agree _ _ _ _) (by decide) (by decide) _ _
  · exact h.follow

theorem dhcpWriteByte_carries (m m' : Mem U32) (off : Nat) (v : U8) :
    Mem.Carries m m' (dhcpWriteByte m off v) (dhcpWriteByte m' off v) := by
  intro j k hk hj
  unfold dhcpWriteByte
  by_cases hat : j = dhcpBufBase + off / 4
  · -- the byte that is written, or one of the three that stand
    rw [← hat, Mem.set_same, Mem.set_same, wordByte_mask _ _ hk (Nat.mod_lt _ (by omega)),
      wordByte_mask _ _ hk (Nat.mod_lt _ (by omega)), hj]
  · rw [Mem.set_other _ _ hat, Mem.set_other _ _ hat, hj]

theorem dhcpWriteOpt_carries (m m' : Mem U32) (off : Nat) (code len : U8) (d : List U8) :
    (dhcpWriteOpt m off code len d).2 = (dhcpWriteOpt m' off code len d).2
      ∧ Mem.Carries m m' (dhcpWriteOpt m off code len d).1 (dhcpWriteOpt m' off code len d).1 := by
  have hbytes : ∀ (l : List U8) (n n' : Mem U32) (o : Nat), Mem.Carries m m' n n' →
      (l.foldl (fun (b : Mem U32 × Nat) v => (dhcpWriteByte b.1 b.2 v, b.2 + 1)) (n, o)).2
        = (l.foldl (fun (b : Mem U32 × Nat) v => (dhcpWriteByte b.1 b.2 v, b.2 + 1)) (n', o)).2
      ∧ Mem.Carries m m' (l.foldl (fun (b : Mem U32 × Nat) v => (dhcpWriteByte b.1 b.2 v, b.2 + 1)) (n, o)).1
        (l.foldl (fun (b : Mem U32 × Nat) v => (dhcpWriteByte b.1 b.2 v, b.2 + 1)) (n', o)).1 := by
    intro l
    induction l with
    | nil => exact fun n n' o h => ⟨rfl, h⟩
    | cons v l ih =>
        intro n n' o h
        exact ih _ _ _ (h.trans (dhcpWriteByte_carries n n' o v))
  unfold dhcpWriteOpt
  exact hbytes _ _ _ _ ((dhcpWriteByte_carries m m' off code).trans (dhcpWriteByte_carries _ _ _ _))

theorem dhcpWriteOpts_carries (m m' : Mem U32) (opts : List (U8 × U8 × List U8)) :
    Mem.Carries m m' (dhcpWriteOpts m opts) (dhcpWriteOpts m' opts) := by
  have hopts : ∀ (opts : List (U8 × U8 × List U8)) (n n' : Mem U32) (o : Nat), Mem.Carries m m' n n' →
      (opts.foldl (fun (b : Mem U32 × Nat) o => dhcpWriteOpt b.1 b.2 o.1 o.2.1 o.2.2) (n, o)).2
        = (opts.foldl (fun (b : Mem U32 × Nat) o => dhcpWriteOpt b.1 b.2 o.1 o.2.1 o.2.2) (n', o)).2
      ∧ Mem.Carries m m'
        (opts.foldl (fun (b : Mem U32 × Nat) o => dhcpWriteOpt b.1 b.2 o.1 o.2.1 o.2.2) (n, o)).1
        (opts.foldl (fun (b : Mem U32 × Nat) o => dhcpWriteOpt b.1 b.2 o.1 o.2.1 o.2.2) (n', o)).1 := by
    intro opts
    induction opts with
    | nil => exact fun n n' o h => ⟨rfl, h⟩
    | cons opt opts ih =>
        intro n n' o h
        obtain ⟨hoff, hopt⟩ := dhcpWriteOpt_carries n n' o opt.1 opt.2.1 opt.2.2
        rw [List.foldl_cons, List.foldl_cons]
        dsimp only
        rw [show dhcpWriteOpt n' o opt.1 opt.2.1 opt.2.2 = ((dhcpWriteOpt n' o opt.1 opt.2.1 opt.2.2).1,
          (dhcpWriteOpt n o opt.1 opt.2.1 opt.2.2).2) from Prod.ext rfl hoff.symm]
        exact ih _ _ _ (h.trans hopt)
  obtain ⟨hoff, hwritten⟩ := hopts opts m m' 240 (Mem.Carries.refl m m')
  unfold dhcpWriteOpts
  dsimp only
  rw [hoff]
  exact hwritten.trans (dhcpWriteOpt_carries _ _ _ _ _ _).2

theorem dhcpBuildHeader_alike (m m' : Mem U32) (op : U8) (xid ciaddr : U32) :
    Mem.Carries m m' (dhcpBuildHeader m op xid ciaddr) (dhcpBuildHeader m' op xid ciaddr)
      ∧ Mem.AgreeOn dhcpBufBase (dhcpBufBase + dhcpBufWords) (dhcpBuildHeader m op xid ciaddr)
        (dhcpBuildHeader m' op xid ciaddr) := by
  unfold dhcpBuildHeader
  dsimp only
  have hfields : ∀ n n' : Mem U32, Mem.Carries n n' _ _ := fun n n' =>
    ((((((Mem.set_carries n n' dhcpBufBase (packWord op dhcpHtypeEth dhcpHlen 0)).trans
      (Mem.set_carries _ _ (dhcpBufBase + 1) xid)).trans
      (Mem.set_carries _ _ (dhcpBufBase + 2) (dhcpFlagBroadcast <<< 16))).trans
      (Mem.set_carries _ _ (dhcpBufBase + 3) ciaddr)).trans
      (Mem.set_carries _ _ (dhcpBufBase + 7) (packWord (boardMacBytes.getD 0 0) (boardMacBytes.getD 1 0)
        (boardMacBytes.getD 2 0) (boardMacBytes.getD 3 0)))).trans
      (Mem.set_carries _ _ (dhcpBufBase + 8) (packWord (boardMacBytes.getD 4 0) (boardMacBytes.getD 5 0) 0 0))).trans
      (Mem.set_carries _ _ (dhcpBufBase + 59) dhcpMagicCookie)
  exact ⟨(Mem.fill_carries m m' _ _ _).trans (hfields _ _),
    (hfields _ _).agreeOn (Mem.fill_agreeOn m m' dhcpBufBase dhcpBufWords _)⟩

/-- The headers go in front of the message. -/
theorem dhcpBuildHeaders_alike {m m' : Mem U32} {hi : Nat} (h : Mem.AgreeOn dhcpBufBase hi m m')
    (udpLen : U16) (srcIp dstIp : U32) :
    Mem.Carries m m' (dhcpBuildHeaders m udpLen srcIp dstIp) (dhcpBuildHeaders m' udpLen srcIp dstIp)
      ∧ Mem.AgreeOn dhcpFrameBase hi (dhcpBuildHeaders m udpLen srcIp dstIp)
        (dhcpBuildHeaders m' udpLen srcIp dstIp) := by
  unfold dhcpBuildHeaders
  dsimp only
  have hkept : ∀ f g : Nat → U32, Mem.Carries m m' ((m.fill dhcpFrameBase 5 f).fill (dhcpFrameBase + 5) 2 g)
      ((m'.fill dhcpFrameBase 5 f).fill (dhcpFrameBase + 5) 2 g) :=
    fun f g => (Mem.fill_carries m m' _ _ f).trans (Mem.fill_carries _ _ _ _ g)
  exact ⟨hkept _ _, (fill_fill_agree m m' dhcpFrameBase 5 2 _ _).append ((hkept _ _).agreeOn h)⟩

theorem dhcpSend_alike (h : sh.Alike sh') (xid : U32) (opts : List (U8 × U8 × List U8)) :
    sh.Follow sh' (dhcpSend sh xid opts) (dhcpSend sh' xid opts) := by
  obtain ⟨hcarries, hagree⟩ := dhcpBuildHeader_alike sh.buffer sh'.buffer dhcpOpRequest xid 0
  have hoptions := dhcpWriteOpts_carries (dhcpBuildHeader sh.buffer dhcpOpRequest xid 0)
    (dhcpBuildHeader sh'.buffer dhcpOpRequest xid 0) opts
  obtain ⟨hheaders, hframe⟩ := dhcpBuildHeaders_alike (hoptions.agreeOn hagree)
    (udpHeaderBytes + dhcpMsgSize) 0 broadcastIp
  exact h.send ((hcarries.trans hoptions).trans hheaders) hframe (by decide) (by decide) _ _

theorem dhcpTx_alike (h : sh.Alike sh') (resetN : Bool) (d : DhcpClient) :
    (dhcpTxProcess resetN d sh).1 = (dhcpTxProcess resetN d sh').1
      ∧ sh.Follow sh' (dhcpTxProcess resetN d sh).2 (dhcpTxProcess resetN d sh').2 := by
  unfold dhcpTxProcess
  dsimp only
  split_ifs
  · exact ⟨rfl, h.follow⟩
  · exact ⟨rfl, h.follow⟩
  · exact ⟨rfl, dhcpSend_alike h _ _⟩
  · exact ⟨rfl, dhcpSend_alike h _ _⟩
  · exact ⟨rfl, h.follow⟩

/-! ### UDP TX. -/

theorem writeHello_alike (m m' : Mem U32) :
    Mem.Carries m m' (writeHello m) (writeHello m')
      ∧ Mem.AgreeOn (txUdpBase + 7) (txUdpBase + 12) (writeHello m) (writeHello m') :=
  ⟨Mem.fill_carries _ _ _ _ _, Mem.fill_agreeOn _ _ (txUdpBase + 7) 5 _⟩

theorem udpTxResolve_alike (h : sh.Alike sh') (u : UdpTx) (echoSent : Bool) (dstIp : U32) :
    (udpTxResolve u echoSent dstIp sh).1 = (udpTxResolve u echoSent dstIp sh').1
      ∧ (udpTxResolve u echoSent dstIp sh).2.1 = (udpTxResolve u echoSent dstIp sh').2.1
      ∧ sh.Follow sh' (udpTxResolve u echoSent dstIp sh).2.2 (udpTxResolve u echoSent dstIp sh').2.2 := by
  unfold udpTxResolve
  rw [← h.arp]
  cases arpLookup sh.arp dstIp with
  | mk mac arp =>
      cases mac with
      | some mac => exact ⟨rfl, rfl, h.withArp arp⟩
      | none =>
          dsimp only
          split_ifs
          · exact ⟨rfl, rfl, (h.withArp arp).trans (arpSendRequest_alike (h.withArp arp).alike dstIp)⟩
          · exact ⟨rfl, rfl, h.withArp arp⟩

/-- The captured payload, if there is one, is the same in both buffers. -/
def UdpRequest.PayloadAgrees (rq : UdpRequest) (m m' : Mem U32) : Prop :=
  rq.dataReceived = true →
    Mem.AgreeOn (txUdpBase + 7) (txUdpBase + (20 + rq.rxUdpLen.toNat + 3) / 4) m m'

/-- A frame that is sent has the length of the echo, or of the periodic frame. -/
theorem udpTx_alike (h : sh.Alike sh') (pacing : U32) (resetN : Bool) {rq : UdpRequest} (u : UdpTx)
    (hpayload : rq.PayloadAgrees sh.buffer sh'.buffer) :
    (udpTxProcess pacing resetN rq u sh).1 = (udpTxProcess pacing resetN rq u sh').1
      ∧ sh.Follow sh' (udpTxProcess pacing resetN rq u sh).2 (udpTxProcess pacing resetN rq u sh').2 := by
  unfold udpTxProcess
  by_cases hrst : (!resetN) = true
  · rw [if_pos hrst, if_pos hrst]
    exact ⟨rfl, h.follow⟩
  rw [if_neg hrst, if_neg hrst]
  dsimp only
  by_cases hwant : (udpTxArbitrate pacing u rq).1 = true
  · have hno : ¬ (!(udpTxArbitrate pacing u rq).1) = true := by rw [hwant]; decide
    rw [if_neg hno, if_neg hno]
    obtain ⟨hmac, hu, hfollow⟩ := udpTxResolve_alike h (udpTxArbitrate pacing u rq).2 rq.dataReceived
      (if rq.dataReceived then rq.rxSrcIp else helloIp)
    have hlen := (udpTxResolve_lengths (udpTxArbitrate pacing u rq).2 rq.dataReceived
      (if rq.dataReceived then rq.rxSrcIp else helloIp) sh).1.trans (udpTxArbitrate_lengths hwant).1
    rw [← hmac, ← hu]
    generalize udpTxResolve (udpTxArbitrate pacing u rq).2 rq.dataReceived
      (if rq.dataReceived then rq.rxSrcIp else helloIp) sh = r at hlen hfollow ⊢
    generalize udpTxResolve (udpTxArbitrate pacing u rq).2 rq.dataReceived
      (if rq.dataReceived then rq.rxSrcIp else helloIp) sh' = r' at hfollow ⊢
    cases hecho : rq.dataReceived with
    | true =>
        -- the header goes in front of the captured payload
        have hcaptured := hfollow.carries.agreeOn (hpayload hecho)
        rw [hecho] at hlen
        simp only [if_true]
        refine ⟨trivial, hfollow.trans (hfollow.alike.send (Mem.fill_carries _ _ _ _ _)
          ((Mem.fill_agreeOn _ _ txUdpBase 7 _).append ((Mem.fill_carries _ _ _ _ _).agreeOn hcaptured))
          (by decide) ?_ _ _)⟩
        have hshort : (ipHeaderBytes + r.2.1.txDataLen).toNat ≤ 20 + rq.rxUdpLen.toNat := by
          rw [hlen, if_pos rfl, BitVec.toNat_add]
          exact Nat.mod_le _ _
        exact Nat.add_le_add_left (Nat.div_le_div_right (Nat.add_le_add_right hshort 3)) _
    | false =>
        -- the periodic frame: header and text are written here
        rw [hecho] at hlen
        simp only [Bool.false_eq_true, if_false]
        have hheader := Mem.fill_agreeOn r.2.2.buffer r'.2.2.buffer txUdpBase 7
        refine ⟨trivial, hfollow.trans (hfollow.alike.send ((Mem.fill_carries _ _ txUdpBase 7 _).trans
          (writeHello_alike _ _).1) (((writeHello_alike _ _).1.agreeOn (hheader _)).append
            (writeHello_alike _ _).2) (by decide) ?_ _ _)⟩
        rw [hlen, if_neg Bool.false_ne_true]
        decide
  · have hno : (!(udpTxArbitrate pacing u rq).1) = true := by simpa using hwant
    rw [if_pos hno, if_pos hno]
    exact ⟨rfl, h.follow⟩

/-! ### TCP. -/

/-- Two results of a TCP handler: the same statics, and shared parts that follow. -/
structure Shared.TcpFollow (sh sh' : Shared) (r r' : TcpState × Shared) : Prop where
  tcp : r.1 = r'.1
  follow : sh.Follow sh' r.2 r'.2

theorem Shared.Alike.tcpFollow (h : sh.Alike sh') (t : TcpState) :
    sh.TcpFollow sh' (t, sh) (t, sh') := ⟨rfl, h.follow⟩

/-- The statics alone are changed afterwards. -/
theorem Shared.TcpFollow.map {r r' : TcpState × Shared} (h : sh.TcpFollow sh' r r')
    (f : TcpState → TcpState) : sh.TcpFollow sh' (f r.1, r.2) (f r'.1, r'.2) :=
  ⟨congrArg f h.tcp, h.follow⟩

theorem tcpSend_alike (h : sh.Alike sh') (un : Uninit) (cid : Nat) (flags : U8)
    (payload : Option (Nat → U8)) (payLen : U16) (t : TcpState) :
    sh.TcpFollow sh' (tcpSend un cid flags payload payLen t sh)
      (tcpSend un cid flags payload payLen t sh') := by
  unfold tcpSend
  split_ifs
  · exact h.tcpFollow t
  · have hframe : Mem.AgreeOn txUdpBase (txUdpBase + 5 + ((tcpTotal flags payLen).toNat + 3) / 4)
        (tcpWriteFrame un (t.conn cid) flags payload payLen sh.buffer)
        (tcpWriteFrame un (t.conn cid) flags payload payLen sh'.buffer) :=
      fill_fill_agree _ _ txUdpBase 5 _ _ _
    have hcarries : Mem.Carries sh.buffer sh'.buffer
        (tcpWriteFrame un (t.conn cid) flags payload payLen sh.buffer)
        (tcpWriteFrame un (t.conn cid) flags payload payLen sh'.buffer) :=
      (Mem.fill_carries _ _ _ _ _).trans (Mem.fill_carries _ _ _ _ _)
    have hwritten := h.withBuffer hcarries
    obtain ⟨hmac, harp⟩ := replyMac_alike hwritten.alike (t.conn cid).peerIp
    refine ⟨rfl, ?_⟩
    show sh.Follow sh' ((replyMac _ _).2.issue (replyMac _ _).1 _ _ _) ((replyMac _ _).2.issue (replyMac _ _).1 _ _ _)
    rw [← hmac]
    refine hwritten.trans (harp.trans (harp.alike.issue _ _ (by decide) ?_))
    refine (harp.carries.agreeOn hframe).bytes ?_
    -- the request covers no more than what was written
    have hlen : (20 + tcpTotal flags payLen).toNat ≤ 20 + (tcpTotal flags payLen).toNat := by
      rw [BitVec.toNat_add]
      exact Nat.mod_le _ _
    omega

theorem tcpSwitch_alike (h : sh.Alike sh') (un : Uninit) (cid : Nat) (seg : TcpSeg)
    (payload : Nat → U8) (ipRx : IpRx) (t : TcpState) :
    sh.TcpFollow sh' (tcpSwitch un cid seg payload ipRx t sh)
      (tcpSwitch un cid seg payload ipRx t sh') := by
  unfold tcpSwitch
  cases (t.conn cid).state with
  | free => exact h.tcpFollow _
  | listen =>
      show sh.TcpFollow sh' (tcpListen un cid seg ipRx t sh) (tcpListen un cid seg ipRx t sh')
      unfold tcpListen
      split_ifs
      · exact tcpSend_alike h un cid _ none 0 _
      · exact h.tcpFollow t
  | synRcvd => exact h.tcpFollow _
  | established =>
      show sh.TcpFollow sh' (tcpEstablished un cid seg payload t sh) (tcpEstablished un cid seg payload t sh')
      unfold tcpEstablished
      dsimp only
      split_ifs
      all_goals first
        | exact h.tcpFollow _
        | exact (tcpSend_alike h un cid _ none 0 _).map
            (fun t => t.setConn cid { t.conn cid with state := .lastAck })
  | lastAck => exact h.tcpFollow _

theorem tcpRx_alike (h : sh.Alike sh') (un : Uninit) (rst : Bool) (ipRx : IpRx) (frameBuf : Mem U32)
    (t : TcpState) :
    sh.TcpFollow sh' (tcpRxProcess un rst ipRx frameBuf t sh)
      (tcpRxProcess un rst ipRx frameBuf t sh') := by
  by_cases hecho : tcpForEcho rst ipRx frameBuf = true
  · rw [(tcpRxProcess_forEcho un t sh hecho).2, (tcpRxProcess_forEcho un t sh' hecho).2]
    generalize tcpParse ipRx frameBuf = seg
    rcases tcpReceive_cases un ipRx seg frameBuf t with hquiet | ⟨cid, c, -, hswitch⟩
    · rw [hquiet sh, hquiet sh']
      exact h.tcpFollow t
    · rw [hswitch sh, hswitch sh']
      exact tcpSwitch_alike h un cid seg _ ipRx _
  · rcases tcpRxProcess_idle un t hecho with ⟨-, hcall⟩ | ⟨-, hcall⟩ | ⟨-, hcall⟩
    all_goals
      rw [hcall sh, hcall sh']
      exact h.tcpFollow _

theorem tcpRetransmit_alike (h : sh.Alike sh') (un : Uninit) (t : TcpState) :
    sh.TcpFollow sh' (tcpRetransmit un t sh) (tcpRetransmit un t sh') := by
  unfold tcpRetransmit
  dsimp only
  cases (t.conn t.retransCid).state with
  | free => exact (h.tcpFollow t).map (fun t => { t with retransDue := false })
  | listen => exact (h.tcpFollow t).map (fun t => { t with retransDue := false })
  | synRcvd => exact (tcpSend_alike h un _ _ none 0 t).map (fun t => { t with retransDue := false })
  | established =>
      dsimp only
      split_ifs
      · exact (tcpSend_alike h un _ _ _ _ t).map (fun t => { t with retransDue := false })
      · exact (h.tcpFollow t).map (fun t => { t with retransDue := false })
  | lastAck => exact (tcpSend_alike h un _ _ none 0 t).map (fun t => { t with retransDue := false })

theorem tcpFlush_alike (h : sh.Alike sh') (un : Uninit) (t : TcpState) :
    sh.TcpFollow sh' (tcpFlush un t sh) (tcpFlush un t sh') := by
  have hsent := tcpSend_alike h un t.qCid tcpAck
    (some (fun i => t.sendBufs t.qCid (t.qOff.toNat + i))) (tcpChunk t) t
  unfold tcpFlush
  dsimp only
  rw [← hsent.tcp]
  split_ifs
  · exact ⟨rfl, hsent.follow⟩
  · exact ⟨rfl, hsent.follow⟩

theorem tcpMaintenance_alike (h : sh.Alike sh') (un : Uninit) (t : TcpState) :
    sh.TcpFollow sh' (tcpMaintenance un t sh) (tcpMaintenance un t sh') := by
  unfold tcpMaintenance
  rw [h.request]
  split_ifs
  · exact tcpRetransmit_alike h un t
  · exact tcpFlush_alike h un t
  · exact h.tcpFollow t

/-! ## §3. Alike stacks. -/

/-- The latches of an idle MAC TX do not show; a busy one reads agreeing bytes. -/
structure MacTxFsm.Alike (m m' : MacTxFsm) (b b' : Mem U32) : Prop where
  state : m.state = m'.state
  busy : m.state ≠ .idle →
    m = m' ∧ Mem.BytesAgree m.reqWbase.toNat m.reqBytes.toNat b b'

structure UdpEcho.Alike (s s' : UdpEcho) : Prop where
  shared : s.shared.Alike s'.shared
  macTx : s.macTx.Alike s'.macTx s.shared.buffer s'.shared.buffer
  payload : s.request.PayloadAgrees s.shared.buffer s'.shared.buffer
  frameFifo : s.frameFifo = s'.frameFifo
  frameBuf : s.frameBuf = s'.frameBuf
  macRx : s.macRx = s'.macRx
  request : s.request = s'.request
  udpTx : s.udpTx = s'.udpTx
  initDone : s.initDone = s'.initDone
  dhcp : s.dhcp = s'.dhcp
  dhcpDelay : s.dhcpDelay = s'.dhcpDelay
  tcp : s.tcp = s'.tcp

theorem MacTxFsm.Alike.trans {m m' m'' : MacTxFsm} {b b' b'' : Mem U32} (h₁ : m.Alike m' b b')
    (h₂ : m'.Alike m'' b' b'') : m.Alike m'' b b'' where
  state := h₁.state.trans h₂.state
  busy := by
    intro hbusy
    obtain ⟨hsame, hbytes⟩ := h₁.busy hbusy
    obtain ⟨hsame', hbytes'⟩ := h₂.busy (h₁.state ▸ hbusy)
    exact ⟨hsame.trans hsame', hbytes.trans (by rw [hsame]; exact hbytes')⟩

theorem UdpEcho.Alike.trans {s s' s'' : UdpEcho} (h₁ : s.Alike s') (h₂ : s'.Alike s'') : s.Alike s'' where
  shared := h₁.shared.trans h₂.shared
  macTx := h₁.macTx.trans h₂.macTx
  payload := by
    intro hreceived j hlo hhi
    rw [h₁.payload hreceived j hlo hhi]
    rw [h₁.request] at hreceived hhi
    exact h₂.payload hreceived j hlo hhi
  frameFifo := h₁.frameFifo.trans h₂.frameFifo
  frameBuf := h₁.frameBuf.trans h₂.frameBuf
  macRx := h₁.macRx.trans h₂.macRx
  request := h₁.request.trans h₂.request
  udpTx := h₁.udpTx.trans h₂.udpTx
  initDone := h₁.initDone.trans h₂.initDone
  dhcp := h₁.dhcp.trans h₂.dhcp
  dhcpDelay := h₁.dhcpDelay.trans h₂.dhcpDelay
  tcp := h₁.tcp.trans h₂.tcp

/-- MAC TX reads a byte of the request. -/
theorem macTxDataByte_alike {m : MacTxFsm} {b b' : Mem U32}
    (h : Mem.BytesAgree m.reqWbase.toNat m.reqBytes.toNat b b') :
    macTxDataByte m b = macTxDataByte m b' := by
  unfold macTxDataByte
  split_ifs with hmore
  · exact h m.sentBytes.toNat hmore
  · rfl

/-- While it sends, MAC TX looks at the buffer only, and keeps its latches. -/
theorem macTx_busy_alike {m : MacTxFsm} (hbusy : m.state ≠ .idle) {b b' : Mem U32} (req req' : MacTxReq)
    (h : macTxDataByte m b = macTxDataByte m b') :
    (macTxCycle m (req, b)).1 = (macTxCycle m (req', b')).1
      ∧ (macTxCycle m (req, b)).2.byte = (macTxCycle m (req', b')).2.byte
      ∧ (macTxCycle m (req, b)).1.reqWbase = m.reqWbase
      ∧ (macTxCycle m (req, b)).1.reqBytes = m.reqBytes := by
  unfold macTxCycle macTxProcess
  simp only [Bool.not_true, Bool.false_eq_true, if_false]
  cases hs : m.state with
  | idle => exact absurd hs hbusy
  | send55 =>
      unfold macTxSend55
      dsimp only
      split_ifs <;> exact ⟨rfl, rfl, rfl, rfl⟩
  | sendMac =>
      unfold macTxSendMac
      dsimp only
      split_ifs <;> exact ⟨rfl, rfl, rfl, rfl⟩
  | sendData =>
      unfold macTxSendData
      dsimp only
      -- the one place where the buffer is looked at
      rw [h]
      split_ifs <;> exact ⟨rfl, rfl, rfl, rfl⟩
  | sendCrc =>
      unfold macTxSendCrc
      dsimp only
      split_ifs <;> exact ⟨rfl, rfl, rfl, rfl⟩

/-- **MAC TX** sends the same byte and takes the same request. -/
theorem macTx_alike {m m' : MacTxFsm} (h : sh.Alike sh') (hm : m.Alike m' sh.buffer sh'.buffer) :
    let r := macTxCycle m (sh.txReq, sh.buffer)
    let r' := macTxCycle m' (sh'.txReq, sh'.buffer)
    r.2.byte = r'.2.byte ∧ r.2.busy = r'.2.busy
      ∧ Shared.Alike { sh with txReq := r.2.txReq } { sh' with txReq := r'.2.txReq }
      ∧ r.1.Alike r'.1 sh.buffer sh'.buffer := by
  intro r r'
  by_cases hidle : m.state = .idle
  · have hidle' : m'.state = .idle := hm.state ▸ hidle
    have hr : r = ((macTxIdle m sh.txReq).1, { txReq := (macTxIdle m sh.txReq).2, busy := sh.txReq.request }) := by
      show macTxProcess m true sh.txReq sh.buffer = _
      unfold macTxProcess
      rw [hidle]
      rfl
    have hr' : r' = ((macTxIdle m' sh'.txReq).1,
        { txReq := (macTxIdle m' sh'.txReq).2, busy := sh'.txReq.request }) := by
      show macTxProcess m' true sh'.txReq sh'.buffer = _
      unfold macTxProcess
      rw [hidle']
      rfl
    rw [hr, hr']
    refine ⟨rfl, h.request, ?_⟩
    unfold macTxIdle
    by_cases hreq : sh.txReq.request = true
    · -- the latch takes the same request on both sides
      obtain ⟨hsame, hbytes⟩ := h.pending hreq
      rw [← hsame, if_pos hreq, if_pos hreq]
      exact ⟨⟨h.arp, ⟨h.untagged.1, h.untagged.1⟩, rfl, nofun⟩, rfl, fun _ => ⟨rfl, hbytes⟩⟩
    · rw [if_neg hreq, if_neg (by rw [← h.request]; exact hreq)]
      exact ⟨⟨h.arp, h.untagged, h.request, h.pending⟩, hm.state, fun hbusy => absurd hidle hbusy⟩
  · obtain ⟨hsame, hbytes⟩ := hm.busy hidle
    have hreads := macTxDataByte_alike hbytes
    obtain ⟨hnext, hbyte, hbase, hlen⟩ := macTx_busy_alike hidle sh.txReq sh'.txReq hreads
    have hleft := macTxCycle_sending hidle (sh.txReq, sh.buffer)
    have hleft' := macTxCycle_sending hidle (sh'.txReq, sh'.buffer)
    have hr' : r' = macTxCycle m (sh'.txReq, sh'.buffer) := by rw [hsame]
    rw [hr']
    refine ⟨hbyte, hleft.2.trans hleft'.2.symm, ?_, ?_⟩
    · rw [hleft.1, hleft'.1]
      exact h
    · refine ⟨congrArg MacTxFsm.state hnext, fun _ => ⟨hnext, ?_⟩⟩
      rw [hbase, hlen]
      exact hbytes

/-! ## §4. The stages. -/

variable {s s' : UdpEcho}

/-- A handler of the shared part. -/
theorem UdpEcho.Alike.withShared (h : s.Alike s') {k k' : Shared} (hk : s.shared.Follow s'.shared k k') :
    UdpEcho.Alike { s with shared := k } { s' with shared := k' } :=
  { h with
    shared := hk.alike
    macTx := ⟨h.macTx.state, fun hb => ⟨(h.macTx.busy hb).1, hk.carries.bytes (h.macTx.busy hb).2⟩⟩
    payload := fun hd => hk.carries.agreeOn (h.payload hd) }

/-- The DHCP start delay. -/
theorem dhcpDelay_alike (h : s.Alike s') :
    UdpEcho.Alike
      (if !s.dhcp.start && s.dhcp.state = .idle then
        if 100000000 < s.dhcpDelay + 1 then { s with dhcp.start := true, dhcpDelay := 0 }
        else { s with dhcpDelay := s.dhcpDelay + 1 }
      else s)
      (if !s'.dhcp.start && s'.dhcp.state = .idle then
        if 100000000 < s'.dhcpDelay + 1 then { s' with dhcp.start := true, dhcpDelay := 0 }
        else { s' with dhcpDelay := s'.dhcpDelay + 1 }
      else s') := by
  rw [← h.dhcp, ← h.dhcpDelay]
  split_ifs
  · exact { h with dhcp := rfl, dhcpDelay := rfl }
  · exact { h with dhcp := rfl, dhcpDelay := rfl }
  · exact h

/-- The initialisation, in the first pass out of reset. -/
theorem resetOrInit_alike (h : s.Alike s') : (s.resetOrInit true).Alike (s'.resetOrInit true) := by
  unfold UdpEcho.resetOrInit
  rw [Bool.not_true, if_neg Bool.false_ne_true, if_neg Bool.false_ne_true, ← h.initDone]
  by_cases hinit : (!s.initDone) = true
  · have hhello := h.withShared (h.shared.withBuffer (writeHello_alike s.shared.buffer s'.shared.buffer).1)
    have hdone : UdpEcho.Alike
        { s with shared.buffer := writeHello s.shared.buffer, initDone := true }
        { s' with shared.buffer := writeHello s'.shared.buffer, initDone := true } :=
      { hhello with initDone := rfl }
    rw [if_pos hinit, if_pos hinit]
    exact dhcpDelay_alike hdone
  · rw [if_neg hinit, if_neg hinit]
    exact dhcpDelay_alike h

theorem runMacRx_alike (h : s.Alike s') (i : PassIn) :
    (s.runMacRx i).1.Alike (s'.runMacRx i).1 ∧ (s.runMacRx i).2 = (s'.runMacRx i).2 := by
  unfold UdpEcho.runMacRx
  rw [← h.macRx, ← h.frameFifo]
  exact ⟨{ h with macRx := rfl, frameFifo := rfl }, rfl⟩

theorem runMacTx_alike (h : s.Alike s') :
    (s.runMacTx true).1.Alike (s'.runMacTx true).1 ∧ (s.runMacTx true).2 = (s'.runMacTx true).2 := by
  obtain ⟨hbyte, hbusy, hshared, hmac⟩ := macTx_alike h.shared h.macTx
  exact ⟨{ h with shared := hshared, macTx := hmac }, Prod.ext hbyte hbusy⟩

theorem stage_alike (h : s.Alike s') (nwords : Nat) : (s.stage nwords).Alike (s'.stage nwords) := by
  unfold UdpEcho.stage
  rw [← h.frameFifo, ← h.frameBuf]
  exact { h with frameFifo := rfl, frameBuf := rfl }

/-- A captured payload is the same on both sides. -/
theorem captureUdp_alike (h : s.Alike s') (ipRx : IpRx) {udpRx : UdpRx}
    (hlen : udpRx.payloadLen = udpRx.length - udpHeaderBytes) :
    (s.captureUdp ipRx udpRx).Alike (s'.captureUdp ipRx udpRx) := by
  have hcopied := h.withShared (h.shared.withBuffer (Mem.fill_carries s.shared.buffer s'.shared.buffer
    (txUdpBase + 7) (udpCopyWords udpRx) (fun i => s.frameBuf (7 + i))))
  have hwords := Mem.fill_agreeOn s.shared.buffer s'.shared.buffer (txUdpBase + 7) (udpCopyWords udpRx)
    (fun i => s.frameBuf (7 + i))
  -- eight bytes less, but the copy starts two words further on
  have hcovers : txUdpBase + (20 + udpRx.length.toNat + 3) / 4 ≤ txUdpBase + 7 + udpCopyWords udpRx := by
    unfold udpCopyWords
    rw [hlen, BitVec.toNat_sub, show udpHeaderBytes.toNat = 8 from rfl]
    have := udpRx.length.isLt
    omega
  unfold UdpEcho.captureUdp
  rw [← h.frameBuf]
  exact { hcopied with
    frameBuf := rfl, request := rfl, payload := fun _ => hwords.mono (Nat.le_refl _) hcovers }

theorem receiveUdp_alike (h : s.Alike s') (i : PassIn) (ipRx : IpRx) :
    (s.receiveUdp i ipRx).Alike (s'.receiveUdp i ipRx) := by
  unfold UdpEcho.receiveUdp
  rw [← h.frameBuf, ← h.dhcp]
  dsimp only
  by_cases hvalid : (udpRxProcess i.resetN ipRx s.frameBuf).valid = true
  · rw [if_pos hvalid, if_pos hvalid]
    split_ifs
    · exact { h with frameBuf := rfl, dhcp := rfl }
    · exact captureUdp_alike h ipRx (udpRxProcess_payloadLen hvalid)
  · rw [if_neg hvalid, if_neg hvalid]
    exact h

theorem dispatch_alike (h : s.Alike s') (i : PassIn) (rx : MacRx) :
    (s.dispatch i rx).Alike (s'.dispatch i rx) := by
  have htcp := tcpRx_alike h.shared i.uninit i.resetN (ipRxProcess i.resetN rx s.frameBuf) s.frameBuf s.tcp
  unfold UdpEcho.dispatch UdpEcho.receiveIp
  rw [← h.frameBuf, ← h.tcp]
  dsimp only
  split_ifs
  · exact { h.withShared (arpRx_alike h.shared _ _ _) with frameBuf := rfl, tcp := rfl }
  · exact h
  · exact { h.withShared (icmpRx_alike h.shared _ _ _) with frameBuf := rfl, tcp := rfl }
  · exact { h.withShared (igmpRx_alike h.shared _ _ _) with frameBuf := rfl, tcp := rfl }
  · exact { h.withShared htcp.follow with frameBuf := rfl, tcp := htcp.tcp }
  · exact receiveUdp_alike h i _
  · exact h
  · exact h

theorem receive_alike (h : s.Alike s') (i : PassIn) (rx : MacRx) :
    (s.receive i rx).Alike (s'.receive i rx) := by
  unfold UdpEcho.receive
  split
  · exact dispatch_alike (stage_alike h _) i rx
  · exact h

theorem runDhcpTx_alike (h : s.Alike s') (resetN : Bool) :
    (s.runDhcpTx resetN).Alike (s'.runDhcpTx resetN) := by
  obtain ⟨hclient, hfollow⟩ := dhcpTx_alike h.shared resetN s.dhcp
  unfold UdpEcho.runDhcpTx
  rw [← h.shared.request, ← h.dhcp]
  split
  · exact { h.withShared hfollow with dhcp := hclient }
  · exact h

theorem runUdpTx_alike (h : s.Alike s') (pacing : U32) (resetN busy : Bool) :
    (s.runUdpTx pacing resetN busy).Alike (s'.runUdpTx pacing resetN busy) := by
  obtain ⟨hstatics, hfollow⟩ := udpTx_alike h.shared pacing resetN s.udpTx h.payload
  unfold UdpEcho.runUdpTx
  rw [← h.shared.request, ← h.request, ← h.udpTx]
  split
  · exact { h.withShared hfollow with udpTx := hstatics, request := rfl, payload := nofun }
  · exact h

theorem runTcpMaintenance_alike (h : s.Alike s') (un : Uninit) (busy : Bool) :
    (s.runTcpMaintenance un busy).Alike (s'.runTcpMaintenance un busy) := by
  have hrun := tcpMaintenance_alike h.shared un s.tcp
  unfold UdpEcho.runTcpMaintenance
  rw [← h.shared.request, ← h.tcp]
  split
  · exact { h.withShared hrun.follow with tcp := hrun.tcp }
  · exact h

/-- The statistics do not show. -/
theorem runStats_alike (h : s.Alike s') (i j : PassIn) (rx rx' : MacRx) :
    (s.runStats i rx).1.Alike (s'.runStats j rx').1 := by
  obtain ⟨_, _, _, hs⟩ := runStats_eq s i rx
  obtain ⟨_, _, _, hs'⟩ := runStats_eq s' j rx'
  rw [hs, hs']
  exact { h with }

/-! ## §5. The pass. -/

/-- What `tx_stream` and the LEDs show. -/
def PassOut.wires (o : PassOut) : Option GmiiByte × Bool × Bool × Bool × Bool :=
  (o.tx, o.ledD0, o.ledD1, o.ledD2, o.ledD3)

theorem udpEcho_wires (pacing : U32) (s : UdpEcho) (i : PassIn) :
    (udpEcho pacing s i).2.wires
      = (s.txByteIn i, (udpEcho pacing s i).1.dhcp.state == .done, false, false, false) := by
  unfold udpEcho
  rfl

/-- Two stacks agree on what a reset does not clear. -/
structure UdpEcho.SurvivorsAgree (s s' : UdpEcho) : Prop where
  arp : s.shared.arp = s'.shared.arp
  tcp : s.tcp = s'.tcp
  frameFifo : s.frameFifo = s'.frameFifo

/-- In reset, what UDP TX leaves. -/
theorem afterUdp_reset (pacing : U32) (s : UdpEcho) {i : PassIn} (hr : i.resetN = false) :
    s.afterUdp pacing i = { s with
      shared.txReq.request := false
      frameFifo := s.frameFifo ++ []
      macRx := {}
      macTx := { s.macTx with state := .idle, byteCnt := 0, sentBytes := 0, crcReg := 0xFFFFFFFF }
      request := {}, initDone := false, dhcp := { xid := 0x12345678 }, dhcpDelay := 0, udpTx := {} } := by
  obtain ⟨resetN, rx, un, room⟩ := i
  cases hr
  rfl

/-- **A reset pass** makes stacks alike that agree on what it does not clear. -/
theorem udpEcho_reset_alike (pacing : U32) {i : PassIn} (hr : i.resetN = false)
    (h : s.SurvivorsAgree s') (hbuf : s.frameBuf = s'.frameBuf) (htag : s.shared.txReq.Untagged)
    (htag' : s'.shared.txReq.Untagged) :
    (udpEcho pacing s i).1.Alike (udpEcho pacing s' i).1 := by
  -- TCP maintenance and the statistics have no reset branch: they run on, alike
  have hudp : (s.afterUdp pacing i).Alike (s'.afterUdp pacing i) := by
    rw [afterUdp_reset pacing s hr, afterUdp_reset pacing s' hr]
    exact {
      shared := ⟨h.arp, ⟨htag, htag'⟩, rfl, nofun⟩
      macTx := ⟨rfl, fun hb => absurd rfl hb⟩
      payload := nofun
      frameFifo := congrArg (· ++ []) h.frameFifo
      frameBuf := hbuf
      macRx := rfl, request := rfl, udpTx := rfl, initDone := rfl, dhcp := rfl, dhcpDelay := rfl
      tcp := h.tcp }
  have hbusy : s.busyIn i = s'.busyIn i := by
    obtain ⟨resetN, rx, un, room⟩ := i
    cases hr
    rfl
  rw [udpEcho_state, udpEcho_state]
  unfold UdpEcho.afterTcp
  rw [← hbusy]
  exact runStats_alike (runTcpMaintenance_alike hudp _ _) i i _ _

/-- The stages before reception. -/
theorem afterMacTx_alike {i : PassIn} (hr : i.resetN = true) (h : s.Alike s') :
    (s.afterMacTx i).Alike (s'.afterMacTx i) ∧ s.frameIn i = s'.frameIn i
      ∧ s.txByteIn i = s'.txByteIn i ∧ s.busyIn i = s'.busyIn i := by
  have hinit : (s.resetOrInit i.resetN).Alike (s'.resetOrInit i.resetN) := by
    rw [hr]
    exact resetOrInit_alike h
  obtain ⟨hrx, hframe⟩ := runMacRx_alike hinit i
  have htx : (s.afterMacTx i).Alike (s'.afterMacTx i)
      ∧ (s.txByteIn i, s.busyIn i) = (s'.txByteIn i, s'.busyIn i) := by
    unfold UdpEcho.afterMacTx UdpEcho.txByteIn UdpEcho.busyIn
    rw [hr]
    exact runMacTx_alike hrx
  exact ⟨htx.1, hframe, Prod.mk.inj htx.2⟩

theorem udpEcho_run_alike (pacing : U32) {i : PassIn} (hr : i.resetN = true) (h : s.Alike s') :
    (udpEcho pacing s i).1.Alike (udpEcho pacing s' i).1 ∧ s.txByteIn i = s'.txByteIn i := by
  obtain ⟨hmacTx, hframe, hbyte, hbusy⟩ := afterMacTx_alike hr h
  have hreceive : (s.afterReceive i).Alike (s'.afterReceive i) := by
    unfold UdpEcho.afterReceive
    rw [← hframe]
    exact receive_alike hmacTx i _
  refine ⟨?_, hbyte⟩
  rw [udpEcho_state, udpEcho_state]
  unfold UdpEcho.afterTcp UdpEcho.afterUdp
  rw [← hbusy]
  exact runStats_alike (runTcpMaintenance_alike (runUdpTx_alike (runDhcpTx_alike hreceive _) _ _ _) _ _) i i _ _

/-- **One pass** of alike stacks. -/
theorem udpEcho_alike (pacing : U32) (i : PassIn) (h : s.Alike s') :
    (udpEcho pacing s i).1.Alike (udpEcho pacing s' i).1
      ∧ (udpEcho pacing s i).2.wires = (udpEcho pacing s' i).2.wires := by
  rw [udpEcho_wires, udpEcho_wires]
  cases hr : i.resetN with
  | true =>
      obtain ⟨hnext, hbyte⟩ := udpEcho_run_alike pacing hr h
      exact ⟨hnext, by rw [hbyte, hnext.dhcp]⟩
  | false =>
      have hnext := udpEcho_reset_alike pacing hr ⟨h.shared.arp, h.tcp, h.frameFifo⟩ h.frameBuf
        h.shared.untagged.1 h.shared.untagged.2
      have hbyte : s.txByteIn i = s'.txByteIn i := by
        obtain ⟨resetN, rx, un, room⟩ := i
        cases hr
        rfl
      exact ⟨hnext, by rw [hbyte, hnext.dhcp]⟩

end GigabitTcp
