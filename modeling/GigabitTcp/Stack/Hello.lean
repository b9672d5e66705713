/-
  GigabitTcp.Stack.Hello — the periodic frame of `udp_tx_process`.

  A stack that rests counts its passes.  When the counter reaches the pacing constant it posts the
  HELLO datagram, the counter stands still while the frame goes out, and the stack rests again: left
  alone, it puts out one frame in every `pacing + 75` passes, for ever.

  Main results:
    * `arpLookup_again` — a lookup does not change what the next one finds,
    * `Rests.due`       — the pass that posts the frame,
    * `hello_paced`     — any number of periods.
-/
import GigabitTcp.Stack.Rest

namespace GigabitTcp

open Hw Machine

/-! ## §1. Repeated lookups. -/

theorem l1Victim_mem (t : ArpTables) (is : List Nat) (maxAge : BitVec 3) (victim : Nat) :
    l1Victim t is maxAge victim ∈ victim :: is := by
  induction is generalizing maxAge victim with
  | nil => exact List.mem_singleton_self victim
  | cons i is ih =>
      unfold l1Victim
      split_ifs with hfree hold
      · simp
      · exact List.mem_cons_of_mem _ (ih _ _)
      · rcases List.mem_cons.mp (ih maxAge victim) with hsame | hmem
        · rw [hsame]
          exact List.mem_cons_self
        · exact List.mem_cons_of_mem _ (List.mem_cons_of_mem _ hmem)

/-- What was entered is found. -/
theorem findEntry_set {table : Mem ArpEntry} {n v : Nat} (hv : v < n) {ip : U32} (mac : U48)
    (hnone : findEntry table n ip = none) :
    findEntry (table.set v { ip, mac, valid := true }) n ip = some v := by
  cases hfind : findEntry (table.set v { ip, mac, valid := true }) n ip with
  | none =>
      have hno := List.find?_range_eq_none.mp hfind v hv
      simp at hno
  | some k =>
      obtain ⟨hfound, hk, -⟩ := List.find?_range_eq_some.mp hfind
      by_cases hkv : k = v
      · rw [hkv]
      · have hno := List.find?_range_eq_none.mp hnone k (List.mem_range.mp hk)
        rw [Mem.set_other _ _ hkv] at hfound
        rw [hfound] at hno
        cases hno

/-- **A lookup does not change what the next one finds.** -/
theorem arpLookup_again (t : ArpTables) (ip : U32) :
    (arpLookup (arpLookup t ip).2 ip).1 = (arpLookup t ip).1 := by
  cases hl1 : findEntry t.l1Cache l1Size ip with
  | some k =>
      have hhit : arpLookup t ip = (some (t.l1Cache k).mac, l1LruTouch t k) := by
        simp [arpLookup, l1Lookup, hl1]
      have hsame : findEntry (l1LruTouch t k).l1Cache l1Size ip = some k := hl1
      rw [hhit]
      simp only [arpLookup, l1Lookup, hsame, Option.map_some]
      rfl
  | none =>
      cases hl2 : findEntry t.l2Table l2Size ip with
      | none => simp [arpLookup, l1Lookup, hl1, hl2]
      | some k =>
          have hhit : arpLookup t ip = (some (t.l2Table k).mac, l1Insert t ip (t.l2Table k).mac) := by
            simp [arpLookup, l1Lookup, hl1, hl2]
          -- the promoted entry is the only one for its address in L1
          have hvictim : l1Victim t (List.range l1Size) 0 0 < l1Size := by
            rcases List.mem_cons.mp (l1Victim_mem t (List.range l1Size) 0 0) with hzero | hmem
            · rw [hzero]
              decide
            · exact List.mem_range.mp hmem
          have hcache : (l1Insert t ip (t.l2Table k).mac).l1Cache
              = t.l1Cache.set (l1Victim t (List.range l1Size) 0 0)
                { ip, mac := (t.l2Table k).mac, valid := true } := by
            unfold l1Insert l2WriteBack
            dsimp only
            split_ifs
            · split <;> rfl
            · rfl
          have hfound : findEntry (l1Insert t ip (t.l2Table k).mac).l1Cache l1Size ip
              = some (l1Victim t (List.range l1Size) 0 0) := by
            rw [hcache]
            exact findEntry_set hvictim _ hl1
          rw [hhit]
          simp only [arpLookup, l1Lookup, hfound, Option.map_some]
          rw [hcache, Mem.set_same]

/-! ## §2. The frame. -/

/-- The payload of the periodic frame. -/
def helloText : List U8 := "HELLO       PERFXLAB".toList.map fun c => BitVec.ofNat 8 c.toNat

/-- The periodic frame to `mac` with the identification `id`, as a receiver reads it. -/
def HelloFrame (mac : U48) (id : U16) (frame : List U8) : Prop :=
  ∃ packet : List U8, frame = ethernetFrame mac boardMac [] ethertypeIpv4 packet ∧ packet.length = 48
    ∧ be16 (packet.getD 4 0) (packet.getD 5 0) = id
    ∧ Inet.ipv4? packet = some
      { src := boardIp, dst := helloIp, protocol := ipProtoUdp, totalLen := 48, data := packet.drop 20 }
    ∧ Inet.udp? boardIp helloIp (packet.drop 20) = some
      { srcPort := udpPort, dstPort := udpPort, length := 28, data := helloText }

/-- The words that `udp_tx_process` writes spell the text. -/
theorem helloWords_text : (List.range 20).map (fun k => wordByte (helloWords.getD (k / 4) 0) (k % 4))
    = helloText := by decide

theorem udpTxResolve_mac (u : UdpTx) (echoSent : Bool) (dstIp : U32) (sh : Shared) :
    let r := udpTxResolve u echoSent dstIp sh
    r.1 = (arpLookup sh.arp dstIp).1.getD broadcastMac
      ∧ r.2.1.timeCnt = u.timeCnt ∧ r.2.1.txIpId = u.txIpId
      ∧ r.2.2.arp = (arpLookup sh.arp dstIp).2
      ∧ r.2.2.txReq.insertVlan = sh.txReq.insertVlan := by
  unfold udpTxResolve
  cases arpLookup sh.arp dstIp with
  | mk mac arp =>
      cases mac with
      | some mac => simp
      | none =>
          dsimp only
          split_ifs <;> exact ⟨rfl, rfl, rfl, rfl, rfl⟩

/-- **The periodic frame is built**: the counter starts again, and the mailbox asks for 48 bytes
that a receiver reads as the HELLO datagram.  The question for an unknown MAC leaves no trace. -/
theorem udpTx_due {pacing : U32} {u : UdpTx} {rq : UdpRequest} (hnothing : rq.dataReceived = false)
    (hdue : pacing ≤ u.timeCnt + 1) (sh : Shared) (huntagged : sh.txReq.insertVlan = false) :
    let r := udpTxProcess pacing true rq u sh
    r.1.timeCnt = 0 ∧ r.1.txIpId = u.txIpId + 1 ∧ r.2.arp = (arpLookup sh.arp helloIp).2
      ∧ r.2.txReq.request = true ∧ r.2.txReq.insertVlan = false
      ∧ HelloFrame ((arpLookup sh.arp helloIp).1.getD broadcastMac) ((u.txIpId + 1).setWidth 16)
        (txWire r.2.txReq r.2.buffer) := by
  have harbitrate : udpTxArbitrate pacing u rq = (true, { u with
      timeCnt := 0, txIpId := u.txIpId + 1, txDataLen := defaultUdpLength
      txTotal := defaultIpTotalLen }) := by
    unfold udpTxArbitrate
    rw [hnothing, if_neg Bool.false_ne_true]
    dsimp only
    rw [if_pos hdue, if_neg Bool.false_ne_true]
  obtain ⟨hmac, hcnt, hid, harp, htag⟩ := udpTxResolve_mac { u with
      timeCnt := 0, txIpId := u.txIpId + 1, txDataLen := defaultUdpLength
      txTotal := defaultIpTotalLen } false helloIp sh
  obtain ⟨hlen, htotal⟩ := udpTxResolve_lengths { u with
      timeCnt := 0, txIpId := u.txIpId + 1, txDataLen := defaultUdpLength
      txTotal := defaultIpTotalLen } false helloIp sh
  unfold udpTxProcess
  rw [harbitrate, hnothing]
  simp only [Bool.not_true, Bool.false_eq_true, if_false]
  generalize udpTxResolve _ false helloIp sh = resolved at *
  obtain ⟨mac, u', sh'⟩ := resolved
  dsimp only at hmac hcnt hid harp htag hlen htotal
  subst hmac
  generalize hsent : Shared.issue _ _ _ _ _ = sent
  have hbuffer : sent.buffer
      = (sh'.buffer.fill txUdpBase 7 (Mem.wordOf (udpTxHeader u' helloIp udpPort))).fill
        (txUdpBase + 7) 5 (fun i => helloWords.getD i 0) := by
    rw [← hsent]
    rfl
  -- the mailbox, and the bytes in front of it
  have haddr : sent.txReq.bufAddr.toNat = txUdpBase := by
    rw [← hsent]
    rfl
  have hbufLen : sent.txReq.bufLen.toNat = u'.txTotal.toNat := by
    rw [← hsent, htotal]
    show (ipHeaderBytes + u'.txDataLen).toNat = _
    rw [hlen]
    rfl
  have hheader : ∀ k, k < 28 → txByte sent.txReq sent.buffer k = udpTxHeader u' helloIp udpPort k := by
    intro k hk
    unfold txByte
    rw [haddr, hbuffer, Mem.byteAt_congr (Mem.fill_outside _ _ (by omega))]
    exact Mem.byteAt_fill_wordOf _ _ _ _ hk
  have htext : ∀ k, k < 20 → txByte sent.txReq sent.buffer (28 + k)
      = wordByte (helloWords.getD (k / 4) 0) (k % 4) := by
    intro k hk
    unfold txByte
    rw [haddr, show 28 + k = 7 * 4 + k from rfl, Mem.byteAt_add, hbuffer]
    exact Mem.byteAt_fill _ _ _ _ hk
  have htotal' : u'.txTotal.toNat = 48 := by
    rw [htotal]
    rfl
  have hlen' : u'.txDataLen.toNat = 28 := by
    rw [hlen]
    rfl
  have hreads := udpFrame_reads hbufLen (by rw [htotal', hlen']) (by omega) hheader
  rw [htotal', hlen'] at hreads
  rw [htotal'] at hbufLen
  have htags : txTags sent.txReq = [] := by
    unfold txTags
    rw [← hsent]
    show (if sh'.txReq.insertVlan = true then _ else _) = _
    rw [htag, huntagged]
    rfl
  refine ⟨hcnt, hid, ?_, ?_, ?_, macTxReads sent.txReq sent.buffer, ?_, ?_, ?_, hreads.2.1, ?_⟩
  · rw [← hsent]
    exact harp
  · rw [← hsent]
    rfl
  · rw [← hsent]
    exact htag.trans huntagged
  · rw [txWire_eq, htags, ← hsent]
    rfl
  · rw [length_macTxReads, hbufLen]
  · rw [macTxReads_getD _ _ (by omega), macTxReads_getD _ _ (by omega), hheader 4 (by omega),
      hheader 5 (by omega), udpTxHeader_ip _ _ _ (by omega), udpTxHeader_ip _ _ _ (by omega), ← hid]
    exact be16_hi8_lo8 _
  · have hdata : (macTxReads sent.txReq sent.buffer).drop 28 = helloText := by
      rw [macTxReads_eq, hbufLen, show 48 = 28 + 20 from rfl, drop_map_range, ← helloWords_text]
      apply List.map_congr_left
      intro k hk
      exact htext k (List.mem_range.mp hk)
    rw [← hdata]
    exact hreads.2.2

/-! ## §3. Periods. -/

section Periods

variable {pacing : U32} {n : Nat} {s : UdpEcho} {i : PassIn}

/-- **The pass that posts the periodic frame.** -/
theorem Rests.due (h : Rests pacing 0 s) (hreset : i.resetN = true) (hrx : i.rx = none)
    (hmac : s.macRx.state = .idle) (hfifo : s.frameFifo = [])
    (hdue : s.udpTx.timeCnt.toNat + 1 = pacing.toNat) :
    let t := (udpEcho pacing s i).1
    Posted pacing 0 t ∧ t.udpTx.timeCnt = 0 ∧ t.udpTx.txIpId = s.udpTx.txIpId + 1 ∧ t.tcp = s.tcp
      ∧ t.shared.arp = (arpLookup s.shared.arp helloIp).2
      ∧ HelloFrame ((arpLookup s.shared.arp helloIp).1.getD broadcastMac)
        ((s.udpTx.txIpId + 1).setWidth 16) (txWire t.shared.txReq t.shared.buffer)
      ∧ (udpEcho pacing s i).2.tx = none := by
  obtain ⟨hidle, hreq, hbusy, hquiet⟩ := h.macTx (i := i) hreset
  have hreceive : s.afterReceive i = { s with
      macTx := (macTxCycle s.macTx (s.shared.txReq, s.shared.buffer)).1 } := by
    rw [afterReceive_quiet (frameIn_of_rx_none s hrx), h.afterMacTx hreset, hreq, hrx, macRxCycle_none]
    dsimp only
    rw [List.append_nil]
  have hdhcp : s.afterDhcp i = s.afterReceive i := h.afterDhcp hreset
  have hopen : (!(s.afterDhcp i).shared.txReq.request && !s.busyIn i) = true := by
    rw [hdhcp, hreceive, hbusy]
    show (!s.shared.txReq.request && !false) = true
    rw [h.free]
    rfl
  have hreached : pacing ≤ s.udpTx.timeCnt + 1 := by
    have hwrap : pacing.toNat < 2 ^ 32 := pacing.isLt
    rw [BitVec.le_def, BitVec.toNat_add, hdue.symm]
    show _ ≤ (s.udpTx.timeCnt.toNat + 1) % 2 ^ 32
    rw [Nat.mod_eq_of_lt (by omega)]
  obtain ⟨hcnt, hid, harp, hpending, htag, hframe⟩ :=
    udpTx_due h.noEcho hreached s.shared h.untagged
  have hudp : s.afterUdp pacing i = { s.afterReceive i with
      udpTx := (udpTxProcess pacing true s.request s.udpTx s.shared).1
      shared := (udpTxProcess pacing true s.request s.udpTx s.shared).2
      request := { s.request with dataReceived := false } } := by
    unfold UdpEcho.afterUdp UdpEcho.runUdpTx
    rw [if_pos hopen, hdhcp, hreset, hreceive]
  have hkept : s.afterTcp pacing i = s.afterUdp pacing i :=
    h.afterTcp hreset (by rw [hreceive]; exact h.quiet)
  obtain ⟨st, rep, last, hpass⟩ := udpEcho_eq pacing s i
  rw [hkept, hudp, hreceive] at hpass
  intro t
  have ht : t = _ := hpass
  rw [ht]
  refine ⟨⟨⟨h.init, h.dhcp, rfl, h.quiet, htag, ?_⟩, hidle, hpending, hmac, hfifo⟩, hcnt, hid,
    rfl, harp, hframe, hquiet⟩
  show (udpTxProcess pacing true s.request s.udpTx s.shared).1.timeCnt.toNat + 0 < pacing.toNat
  rw [hcnt]
  show 0 < pacing.toNat
  omega

/-- What the TX stream shows in a period: nothing up to the posting pass and in the latch, then the
frame. -/
def helloPeriod (pacing : U32) (frame : List U8) : List (Option GmiiByte) :=
  List.replicate pacing.toNat none ++ none :: (gmiiFrame frame).map some

/-- **One period**, from wherever the counter stands. -/
theorem Ready.period (h : Ready pacing 0 s) {wait : List PassIn}
    (hwait : ∀ j ∈ wait, j.resetN = true ∧ j.rx = none)
    (hlen : s.udpTx.timeCnt.toNat + wait.length = pacing.toNat + 75) :
    let t := (udpEchoMachine pacing).after s wait
    Ready pacing 0 t ∧ t.udpTx.timeCnt = 0 ∧ t.udpTx.txIpId = s.udpTx.txIpId + 1 ∧ t.tcp = s.tcp
      ∧ t.shared.arp = (arpLookup s.shared.arp helloIp).2
      ∧ ∃ frame, HelloFrame ((arpLookup s.shared.arp helloIp).1.getD broadcastMac)
          ((s.udpTx.txIpId + 1).setWidth 16) frame
        ∧ List.replicate s.udpTx.timeCnt.toNat none
          ++ ((udpEchoMachine pacing).outs s wait).map PassOut.tx = helloPeriod pacing frame := by
  have hearly := h.early
  -- the passes up to the posting one, and those of the frame
  obtain ⟨k, hk⟩ : ∃ k, s.udpTx.timeCnt.toNat + k + 1 = pacing.toNat :=
    ⟨pacing.toNat - s.udpTx.timeCnt.toNat - 1, by omega⟩
  obtain ⟨front, i, back, rfl, hfront⟩ : ∃ front i back, wait = front ++ i :: back ∧ front.length = k := by
    have hk' : k < wait.length := by omega
    refine ⟨wait.take k, wait[k], wait.drop (k + 1), ?_, List.length_take_of_le (by omega)⟩
    rw [List.getElem_cons_drop, List.take_append_drop]
  rw [List.length_append, List.length_cons] at hlen
  have hi := hwait i (by simp)
  have hrest : Rests pacing (front.length + 0) s := by
    refine ⟨{ h.toCalm with early := ?_ }, h.idle, h.free⟩
    omega
  obtain ⟨hrest, hmac, hfifo, hshared, htcp, hudp, hout⟩ :=
    hrest.silent front (fun j hj => hwait j (by simp [hj]))
  generalize hu : (udpEchoMachine pacing).after s front = u at *
  have hcount : u.udpTx.timeCnt.toNat + 1 = pacing.toNat := by
    have hwrap : pacing.toNat < 2 ^ 32 := pacing.isLt
    rw [hudp]
    show (s.udpTx.timeCnt + BitVec.ofNat 32 front.length).toNat + 1 = _
    rw [BitVec.toNat_add, BitVec.toNat_ofNat, hfront]
    omega
  obtain ⟨hposted, hcnt, hid, htcp', harp, hframe, hnone⟩ :=
    hrest.due hi.1 hi.2 (hmac ▸ h.macRx) (hfifo.trans h.fifo) hcount
  generalize hv : (udpEcho pacing u i).1 = v at *
  have hwire : (txWire v.shared.txReq v.shared.buffer).length = 74 := by
    obtain ⟨packet, heq, hpacket, -⟩ := hframe
    rw [heq, length_ethernetFrame, hpacket]
    rfl
  obtain ⟨hend, hmac', hfifo', hshared', htcp'', hudp', hout'⟩ := hposted.emitted back
    (fun j hj => hwait j (by simp [hj])) (by rw [hwire]; omega)
  have hafter : (udpEchoMachine pacing).after s (front ++ i :: back)
      = (udpEchoMachine pacing).after v back := by
    rw [after_append, hu, after_cons]
    exact congrArg (fun x => (udpEchoMachine pacing).after x back) hv
  intro t
  have ht : t = _ := hafter
  rw [ht, hudp', hshared', hid, htcp'', htcp', htcp, hcnt]
  rw [hshared] at harp hframe
  have hid' : u.udpTx.txIpId = s.udpTx.txIpId := by rw [hudp]
  rw [hid'] at hframe ⊢
  refine ⟨⟨hend, hmac', hfifo'⟩, rfl, rfl, rfl, harp, _, hframe, ?_⟩
  have houts : ((udpEchoMachine pacing).outs s (front ++ i :: back)).map PassOut.tx
      = List.replicate k none
        ++ none :: none :: (gmiiFrame (txWire v.shared.txReq v.shared.buffer)).map some := by
    rw [outs_append, List.map_append, hout, hfront, hu, outs_cons, List.map_cons]
    refine congrArg (_ ++ ·) (congrArg₂ List.cons hnone ?_)
    rw [← hout', ← hv]
    rfl
  rw [houts, helloPeriod, ← hk, List.replicate_succ', ← List.replicate_append_replicate]
  simp only [List.append_assoc, List.singleton_append]

/-- **The periodic frame is paced.**  A stack that rests and is left alone puts out one frame in
every `pacing + 75` passes and nothing else: the HELLO datagram, to the MAC that the cache has for
its destination or to everybody, with consecutive identifications.  Afterwards it rests. -/
theorem hello_paced (k : Nat) (wait : List PassIn) (hwait : ∀ j ∈ wait, j.resetN = true ∧ j.rx = none)
    (h : Ready pacing 0 s) (hlen : s.udpTx.timeCnt.toNat + wait.length = k * (pacing.toNat + 75)) :
    let t := (udpEchoMachine pacing).after s wait
    ∃ mac frames, s.shared.arp.Resolves helloIp mac
      ∧ List.Forall₂ (fun j => HelloFrame mac ((s.udpTx.txIpId + BitVec.ofNat 32 (j + 1)).setWidth 16))
        (List.range k) frames
      ∧ List.replicate s.udpTx.timeCnt.toNat none
        ++ ((udpEchoMachine pacing).outs s wait).map PassOut.tx = frames.flatMap (helloPeriod pacing)
      ∧ Ready pacing 0 t ∧ t.udpTx.timeCnt = 0 ∧ t.tcp = s.tcp := by
  intro t
  refine ⟨(arpLookup s.shared.arp helloIp).1.getD broadcastMac, ?_⟩
  suffices hrun : ∃ frames, List.Forall₂ (fun j =>
        HelloFrame ((arpLookup s.shared.arp helloIp).1.getD broadcastMac)
          ((s.udpTx.txIpId + BitVec.ofNat 32 (j + 1)).setWidth 16)) (List.range k) frames
      ∧ List.replicate s.udpTx.timeCnt.toNat none
        ++ ((udpEchoMachine pacing).outs s wait).map PassOut.tx = frames.flatMap (helloPeriod pacing)
      ∧ Ready pacing 0 t ∧ t.udpTx.timeCnt = 0 ∧ t.tcp = s.tcp by
    obtain ⟨frames, hrest⟩ := hrun
    exact ⟨frames, arpLookup_resolves _ _, hrest⟩
  induction k generalizing s wait with
  | zero =>
      rw [Nat.zero_mul, Nat.add_eq_zero_iff] at hlen
      obtain rfl := List.eq_nil_of_length_eq_zero hlen.2
      rw [hlen.1]
      exact ⟨[], .nil, rfl, h, BitVec.eq_of_toNat_eq hlen.1, rfl⟩
  | succ k ih =>
      have hearly := h.early
      rw [Nat.succ_mul] at hlen
      -- the first period, and those behind it
      obtain ⟨front, back, rfl, hfront⟩ : ∃ front back, wait = front ++ back
          ∧ s.udpTx.timeCnt.toNat + front.length = pacing.toNat + 75 :=
        ⟨wait.take (pacing.toNat + 75 - s.udpTx.timeCnt.toNat),
          wait.drop (pacing.toNat + 75 - s.udpTx.timeCnt.toNat),
          (List.take_append_drop _ _).symm, by rw [List.length_take_of_le (by omega)]; omega⟩
      rw [List.length_append] at hlen
      obtain ⟨hready, hcnt, hid, htcp, harp, frame, hframe, hout⟩ :=
        h.period (fun j hj => hwait j (List.mem_append_left _ hj)) hfront
      have ht : t = (udpEchoMachine pacing).after ((udpEchoMachine pacing).after s front) back :=
        after_append ..
      rw [ht, outs_append, List.map_append, ← List.append_assoc, hout]
      generalize (udpEchoMachine pacing).after s front = u at *
      obtain ⟨frames, hframes, hout', hready', hcnt', htcp'⟩ := ih (s := u) back
        (fun j hj => hwait j (List.mem_append_right _ hj)) hready (by rw [hcnt]; show 0 + _ = _; omega)
      rw [harp, arpLookup_again, hid] at hframes
      rw [hcnt] at hout'
      refine ⟨frame :: frames, ?_, ?_, hready', hcnt', htcp'.trans htcp⟩
      · rw [List.range_succ_eq_map]
        refine .cons hframe ((List.forall₂_map_left_iff).mpr (hframes.imp ?_))
        intro j f hf
        rwa [BitVec.add_assoc, show (1 : U32) = BitVec.ofNat 32 1 from rfl, ← BitVec.ofNat_add,
          Nat.add_comm 1] at hf
      · rw [List.flatMap_cons, ← hout']
        rfl

end Periods

/-- The frame of the first period goes to everybody. -/
theorem hello_paced_once :
    let wait := List.replicate 625000075 PassIn.quiet
    ∃ frame, HelloFrame broadcastMac 1 frame
      ∧ ((udpEchoMachine 625000000).outs restingStack wait).map PassOut.tx = helloPeriod 625000000 frame := by
  intro wait
  have hready : Ready 625000000 0 restingStack :=
    ⟨⟨⟨rfl, .inr rfl, rfl, restingStack_quiet, rfl, by decide⟩, rfl, rfl⟩, rfl, rfl⟩
  have hwait : ∀ j ∈ wait, j.resetN = true ∧ j.rx = none := by
    intro j hj
    rw [List.eq_of_mem_replicate hj]
    exact ⟨rfl, rfl⟩
  have hlen : wait.length = 625000075 := List.length_replicate ..
  obtain ⟨mac, frames, hmac, hframes, hout, -⟩ := hello_paced 1 wait hwait hready (by rw [hlen]; rfl)
  have hempty : ∀ m, ¬ HasEntry restingStack.shared.arp.l1Cache l1Size helloIp m
      ∧ ¬ HasEntry restingStack.shared.arp.l2Table l2Size helloIp m := by
    intro m
    refine ⟨?_, ?_⟩ <;> rintro ⟨k, -, hk⟩ <;> cases congrArg ArpEntry.valid hk
  rcases hmac with hl1 | ⟨-, hl2 | ⟨-, rfl⟩⟩
  · exact ((hempty _).1 hl1).elim
  · exact ((hempty _).2 hl2).elim
  · cases hframes with
    | cons hframe hnil =>
        cases hnil
        refine ⟨_, hframe, ?_⟩
        rw [List.flatMap_singleton] at hout
        exact hout

end GigabitTcp
