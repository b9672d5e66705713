/-
  GigabitTcp.Tcp.Bounds — every array index of the TCP layer, for arbitrary segments.

  `plen` is an unchecked 16-bit difference, and three copies depend on it: into `payload[]`,
  into the echo queue and, much later, out of the queue into `seg[]` and `buffer`.  The early
  copies are safe by their own guards.  The late ones are safe because of what `TcpBounded`
  says about the statics, which every event keeps.

  Main result:
    * `tcp_bounds` — in every reachable state, whatever arrives, every access is in bounds.
-/
import GigabitTcp.Tcp.Logged
import GigabitTcp.Tcp.EchoQueue
import GigabitTcp.Tcp.Table

namespace GigabitTcp

open Hw Machine Logged

/-! ## §1. What the statics stay within. -/

/-- The queue descriptor, the saved lengths and the slot of the retransmission are in range. -/
structure TcpBounded (t : TcpState) : Prop where
  queue : t.queue.InRange
  saved : ∀ i, (t.conn i).retransLen.toNat ≤ 536
  due : t.retransCid < maxTcpConn

theorem TcpBounded.setConn {t : TcpState} (h : TcpBounded t) (cid : Nat) {c : TcpConn}
    (hc : c.retransLen.toNat ≤ 536) : TcpBounded (t.setConn cid c) := by
  refine ⟨h.queue, fun i => ?_, h.due⟩
  by_cases hi : i = cid
  · rw [hi, setConn_same]
    exact hc
  · rw [setConn_other t c hi]
    exact h.saved i

theorem TcpBounded.enqueue {t : TcpState} (h : TcpBounded t) (cid : Nat) (payload : Nat → U8)
    (payLen : U16) : TcpBounded (tcpQueue cid payload payLen t) := by
  refine ⟨tcpQueue_inRange cid payload payLen h.queue, fun i => ?_, ?_⟩
  · rw [tcpQueue_conn]
    exact h.saved i
  · rw [(tcpQueue_due cid payload payLen t).2]
    exact h.due

/-- A send saves at most a chunk. -/
theorem tcpSendConn_saved {c : TcpConn} (flags : U8) {payLen : U16}
    (hc : c.retransLen.toNat ≤ 536) (hlen : payLen.toNat ≤ 536) :
    (tcpSendConn c flags payLen).retransLen.toNat ≤ 536 := by
  -- a SYN saves nothing, other segments their payload, empty ones leave what is saved
  have hsaved : (tcpSendConn c flags payLen).retransLen
      = if hasFlag flags tcpSyn then 0 else if 0 < payLen then payLen else c.retransLen := by
    unfold tcpSendConn
    dsimp only
    split_ifs <;> rfl
  rw [hsaved]
  split
  · decide
  · split
    · exact hlen
    · exact hc

theorem TcpBounded.send {t : TcpState} (h : TcpBounded t) (un : Uninit) (cid : Nat) (flags : U8)
    (payload : Option (Nat → U8)) {payLen : U16} (sh : Shared) (hlen : payLen.toNat ≤ 536) :
    TcpBounded (tcpSend un cid flags payload payLen t sh).1 := by
  by_cases hcid : cid < maxTcpConn
  · refine ⟨?_, fun i => ?_, ?_⟩
    · rw [tcpSend_queue]
      exact h.queue
    · rw [tcpSend_conn un flags payload payLen t sh hcid]
      by_cases hi : i = cid
      · rw [hi, Mem.set_same]
        exact tcpSendConn_saved flags (h.saved cid) hlen
      · rw [Mem.set_other _ _ hi]
        exact h.saved i
    · rw [(tcpSend_due un cid flags payload payLen t sh).2]
      exact h.due
  -- no such slot: nothing is sent
  · rw [tcpSend_outside un flags payload payLen t sh hcid]
    exact h

theorem toNat_tcpChunk_le {t : TcpState} (h : t.queue.InRange) : (tcpChunk t).toNat ≤ 536 := by
  rw [toNat_tcpChunk h]
  exact Nat.min_le_left _ _

theorem TcpBounded.flush {t : TcpState} (h : TcpBounded t) (un : Uninit) (sh : Shared) :
    TcpBounded (tcpFlush un t sh).1 := by
  -- a chunk is at most `TCP_TX_CHUNK` bytes, however long the queue is
  have hsent := h.send un t.qCid tcpAck (some fun i => t.sendBufs t.qCid (t.qOff.toNat + i)) sh
    (toNat_tcpChunk_le h.queue)
  have hrange := (tcpFlush_spec un sh h.queue).2.2.2.1
  obtain ⟨_, _, hflush⟩ := tcpFlush_statics un t sh
  rw [hflush] at hrange ⊢
  exact ⟨hrange, hsent.saved, hsent.due⟩

theorem TcpBounded.maintenance {t : TcpState} (h : TcpBounded t) (un : Uninit) (sh : Shared) :
    TcpBounded (tcpMaintenance un t sh).1 := by
  have hclear : ∀ t' : TcpState, TcpBounded t' → TcpBounded { t' with retransDue := false } :=
    fun t' h' => ⟨h'.queue, h'.saved, h'.due⟩
  have hzero : (0 : U16).toNat ≤ 536 := by decide
  unfold tcpMaintenance
  split
  · unfold tcpRetransmit
    apply hclear
    cases (t.conn t.retransCid).state with
    | free => exact h
    | listen => exact h
    | synRcvd => exact h.send un _ _ none sh hzero
    | lastAck => exact h.send un _ _ none sh hzero
    | established =>
        dsimp only
        split
        -- what is sent again is what was saved, so it is short enough
        · exact h.send un _ _ _ sh (h.saved _)
        · exact h
  · split
    · exact h.flush un sh
    · exact h

theorem TcpBounded.scanOne {t : TcpState} (h : TcpBounded t) {i : Nat} (hi : i < maxTcpConn) :
    TcpBounded (tcpScanOne t i) := by
  obtain ⟨_, _, _, _, _, _, _, _, hstatics, hcid⟩ := tcpScanOne_statics t i
  rw [hstatics]
  refine ⟨h.queue, (h.setConn i ?_).saved, ?_⟩
  · exact h.saved i
  · rcases hcid with rfl | rfl
    · exact h.due
    · exact hi

theorem TcpBounded.scan {t : TcpState} (h : TcpBounded t) {is : List Nat}
    (his : ∀ i ∈ is, i < maxTcpConn) : TcpBounded (is.foldl tcpScanOne t) := by
  induction is generalizing t with
  | nil => exact h
  | cons i is ih =>
      exact ih (h.scanOne (his i List.mem_cons_self)) (fun j hj => his j (List.mem_cons_of_mem i hj))

/-- Segments save nothing themselves. -/
theorem tcpOnSegment_saved (c : TcpConn) (seg : TcpSeg) :
    (tcpOnSegment c seg).retransLen = c.retransLen := by
  obtain ⟨_, _, _, _, _, _, _, _, hstatics⟩ := tcpOnSegment_statics c seg
  rw [hstatics]

theorem tcpOpen_saved (cid : Nat) (seg : TcpSeg) (frameBuf : Mem U32) (c : TcpConn) :
    (tcpOpen cid seg frameBuf c).retransLen = c.retransLen := by
  obtain ⟨_, _, _, -, hopen⟩ := tcpOpen_statics cid seg frameBuf c
  rw [hopen]

theorem TcpBounded.takeData {t : TcpState} (h : TcpBounded t) (cid : Nat) (seg : TcpSeg)
    (payload : Nat → U8) : TcpBounded (tcpTakeData cid seg payload t) := by
  have hseq := h.setConn cid (c := { t.conn cid with peerSeq := tcpAdvance seg }) (h.saved cid)
  unfold tcpTakeData
  dsimp only
  split
  · exact hseq.enqueue cid payload seg.plen
  · split
    · refine hseq.setConn cid ?_
      exact hseq.saved cid
    · exact hseq

theorem TcpBounded.switch {t : TcpState} (h : TcpBounded t) (un : Uninit) (cid : Nat)
    (seg : TcpSeg) (payload : Nat → U8) (ipRx : IpRx) (sh : Shared) :
    TcpBounded (tcpSwitch un cid seg payload ipRx t sh).1 := by
  have hzero : (0 : U16).toNat ≤ 536 := by decide
  unfold tcpSwitch
  cases (t.conn cid).state with
  | free => exact h
  | listen =>
      dsimp only
      unfold tcpListen
      split
      · refine TcpBounded.send (h.setConn cid ?_) un cid _ none sh hzero
        exact h.saved cid
      · exact h
  | synRcvd =>
      refine h.setConn cid ?_
      unfold tcpSynRcvd
      split <;> exact h.saved cid
  | lastAck =>
      refine h.setConn cid ?_
      unfold tcpLastAck
      split <;> exact h.saved cid
  | established =>
      -- the data goes to the queue, and the FIN is answered without payload
      have hdata := h.takeData cid seg payload
      dsimp only
      rw [tcpEstablished_eq]
      unfold tcpTakeFin
      split
      · have hsent := hdata.send un cid (tcpFin ||| tcpAck) none sh hzero
        refine hsent.setConn cid ?_
        exact hsent.saved cid
      · exact hdata

theorem TcpBounded.receive {t : TcpState} (h : TcpBounded t) (un : Uninit) (ipRx : IpRx)
    (seg : TcpSeg) (frameBuf : Mem U32) (sh : Shared) :
    TcpBounded (tcpReceive un ipRx seg frameBuf t sh).1 := by
  cases hfind : tcpFind t seg.sp ipRx.srcIp with
  | none =>
      rw [tcpReceive_none un frameBuf sh hfind]
      exact h
  | some cid =>
      by_cases hfree : (t.conn cid).state = .free
      · by_cases hopens : seg.opens = true
        · rw [tcpReceive_opened un frameBuf sh hfind hfree hopens]
          have hopened : (tcpOpen cid seg frameBuf (t.conn cid)).retransLen.toNat ≤ 536 := by
            rw [tcpOpen_saved]
            exact h.saved cid
          refine TcpBounded.switch ((h.setConn cid hopened).setConn cid ?_) un cid seg _ ipRx sh
          rw [tcpOnSegment_saved]
          exact hopened
        · rw [tcpReceive_closed un frameBuf sh hfind hfree hopens]
          exact h
      · rw [tcpReceive_live un frameBuf sh hfind hfree]
        refine TcpBounded.switch (h.setConn cid ?_) un cid seg _ ipRx sh
        rw [tcpOnSegment_saved]
        exact h.saved cid

/-- Every event keeps the statics in range. -/
theorem TcpBounded.step {t : TcpState} (h : TcpBounded t) (e : TcpEvent) :
    TcpBounded (tcpMachine t e).1 := by
  cases e with
  | maintenance un sh => exact h.maintenance un sh
  | segment un rst ipRx frameBuf sh =>
      show TcpBounded (tcpRxProcess un rst ipRx frameBuf t sh).1
      by_cases hecho : tcpForEcho rst ipRx frameBuf = true
      · rw [(tcpRxProcess_forEcho un t sh hecho).2]
        exact h.receive un ipRx _ frameBuf sh
      -- not for the echo port: a reset, a timer scan, or nothing
      · rcases tcpRxProcess_idle un t hecho with ⟨-, hcall⟩ | ⟨-, hcall⟩ | ⟨-, hcall⟩
        · rw [hcall]
          refine ⟨h.queue, fun i => ?_, h.due⟩
          dsimp only
          split <;> exact h.saved i
        · rw [hcall]
          exact h.scan (fun i hi => List.mem_range.mp hi)
        · rw [hcall]
          exact h

/-- **The statics in every reachable state.** -/
theorem tcpBounded_after (es : List TcpEvent) : TcpBounded (tcpMachine.after {} es) := by
  have hstart : TcpBounded {} :=
    ⟨⟨by decide, Nat.le_refl _, by decide⟩, fun _ => Nat.zero_le _, by decide⟩
  exact invariant_after (fun t e h => h.step e) hstart es

/-! ## §2. Sending and queueing. -/

/-- One access. -/
theorem within_one {a : TcpArr} {i : Nat} (h : a.bounds.1 ≤ i ∧ i < a.bounds.2) :
    Within TcpArr.bounds [(a, i)] :=
  (within_cons _ _).mpr ⟨h, within_nil⟩

theorem within_conn {i : Nat} (h : i < maxTcpConn) : Within TcpArr.bounds [(TcpArr.tcpConn, i)] :=
  within_one ⟨Nat.zero_le i, h⟩

theorem within_seg {i : Nat} (h : i < 564) : Within TcpArr.bounds [(TcpArr.seg, i)] :=
  within_one ⟨Nat.zero_le i, h⟩

theorem within_frameBuf {i : Nat} (h : i < 400) : Within TcpArr.bounds [(TcpArr.frameBuf, i)] :=
  within_one ⟨Nat.zero_le i, h⟩

theorem within_buffer {i : Nat} (h : 512 ≤ i ∧ i < 768) :
    Within TcpArr.bounds [(TcpArr.buffer, i)] :=
  within_one h

/-- The row of a slot. -/
theorem within_retransBuf {cid i : Nat} (hcid : cid < maxTcpConn) (h : i < 576) :
    Within TcpArr.bounds [(TcpArr.retransBuf cid, i)] := by
  refine within_one ⟨Nat.zero_le i, ?_⟩
  show i < if cid < maxTcpConn then 576 else 0
  rw [if_pos hcid]
  exact h

theorem within_sendBufs {cid i : Nat} (hcid : cid < maxTcpConn) (h : i < 576) :
    Within TcpArr.bounds [(TcpArr.sendBufs cid, i)] := by
  refine within_one ⟨Nat.zero_le i, ?_⟩
  show i < if cid < maxTcpConn then 576 else 0
  rw [if_pos hcid]
  exact h

/-- A subtraction that does not wrap. -/
theorem within_minus {a b : U16} (h : b.toNat ≤ a.toNat) :
    Within TcpArr.bounds (minusLogged a b).log :=
  within_one ⟨Nat.zero_le _, Nat.lt_succ_of_le h⟩

theorem within_storeSeg (m : Mem U8) {off : Nat} {bs : List U8} (h : off + bs.length ≤ 564) :
    Within TcpArr.bounds (storeBytes .seg m off bs).log := by
  refine within_loop (fun i hi m => ?_) m
  rw [List.mem_range] at hi
  exact within_seg (by omega)

/-- The pointer may be read at `0, …, n - 1`. -/
def TcpPointer.Readable (p : TcpPointer) (n : Nat) : Prop :=
  ∀ i, i < n → Within TcpArr.bounds (p.load i).log

theorem within_tcpBuildHdrLogged (b : Mem U8) (sp dp : U16) (seq ack : U32) (f : U8) (w : U16)
    (syn : Bool) : Within TcpArr.bounds (tcpBuildHdrLogged b sp dp seq ack f w syn).log := by
  unfold tcpBuildHdrLogged
  dsimp only
  rw [log_bind, within_append]
  -- the 20 header bytes, then the 8 option bytes of a SYN
  refine ⟨within_storeSeg b ?_, ?_⟩
  · simp only [List.length_append, length_wordBytes, List.length_cons, List.length_nil]
    omega
  · split
    · exact within_storeSeg _ (by decide)
    · exact within_nil

theorem within_tcpCsumLogged (sip dip : U32) (seg : Mem U8) {len : U16} (h : len.toNat ≤ 564) :
    Within TcpArr.bounds (tcpCsumLogged sip dip seg len).log := by
  unfold tcpCsumLogged
  dsimp only
  rw [log_bind, within_append]
  -- whole words, then the odd last byte
  refine ⟨within_loop (fun i hi s => ?_) _, ?_⟩
  · rw [List.mem_range] at hi
    rw [log_bind, log_bind, within_append, within_append]
    exact ⟨within_seg (by omega), within_seg (by omega), within_nil⟩
  · split
    · rw [log_bind, within_append]
      exact ⟨within_seg (by omega), within_nil⟩
    · exact within_nil

theorem toNat_tcpTotal_le (flags : U8) {payLen : U16} (hlen : payLen.toNat ≤ 536) :
    (tcpTotal flags payLen).toNat ≤ 564 := by
  have hmax : tcpMaxHdr.toNat = 28 := rfl
  have hmin : tcpHeaderBytes.toNat = 20 := rfl
  unfold tcpTotal
  rw [BitVec.toNat_add]
  split
  · rw [hmax]
    omega
  · rw [hmin]
    omega

theorem within_tcpFillLogged {payload : Option TcpPointer} {payLen : U16} (seg : Mem U8)
    (hlen : payLen.toNat ≤ 536) (hread : ∀ p ∈ payload, p.Readable payLen.toNat) :
    Within TcpArr.bounds (tcpFillLogged payload payLen seg).log := by
  unfold tcpFillLogged
  cases payload with
  | none => exact within_nil
  | some p =>
      refine within_loop (fun i hi seg => ?_) seg
      rw [List.mem_range] at hi
      rw [log_bind, within_append]
      exact ⟨hread p rfl i hi, within_seg (by omega)⟩

theorem within_tcpSegmentLogged (un : Uninit) (c : TcpConn) (flags : U8)
    {payload : Option TcpPointer} {payLen : U16} (hlen : payLen.toNat ≤ 536)
    (hread : ∀ p ∈ payload, p.Readable payLen.toNat) :
    Within TcpArr.bounds (tcpSegmentLogged un c flags payload payLen).log := by
  unfold tcpSegmentLogged
  dsimp only
  rw [log_bind, log_bind, log_bind, within_append, within_append, within_append]
  refine ⟨within_tcpBuildHdrLogged _ _ _ _ _ _ _ _, within_tcpFillLogged _ hlen hread,
    within_tcpCsumLogged _ _ _ (toNat_tcpTotal_le flags hlen), within_storeSeg _ ?_⟩
  show 16 + 2 ≤ 564
  omega

theorem within_tcpWriteFrameLogged (un : Uninit) (c : TcpConn) (flags : U8)
    {payload : Option TcpPointer} {payLen : U16} (buffer : Mem U32) (hlen : payLen.toNat ≤ 536)
    (hread : ∀ p ∈ payload, p.Readable payLen.toNat) :
    Within TcpArr.bounds (tcpWriteFrameLogged un c flags payload payLen buffer).log := by
  have htotal := toNat_tcpTotal_le flags hlen
  unfold tcpWriteFrameLogged
  dsimp only
  rw [log_bind, log_bind, within_append, within_append]
  -- 5 + 141 words of the TX region; the last word may read up to three bytes past `total`
  refine ⟨within_tcpSegmentLogged un c flags hlen hread, within_loop (fun i hi b => ?_) _,
    within_loop (fun i hi b => ?_) _⟩
  · rw [List.mem_range] at hi
    have hbase : txUdpBase = 512 := rfl
    exact within_buffer (by omega)
  · rw [List.mem_range] at hi
    have hbase : txUdpBase = 512 := rfl
    rw [log_bind, log_bind, log_bind, log_bind, within_append, within_append, within_append,
      within_append]
    exact ⟨within_seg (by omega), within_seg (by omega), within_seg (by omega),
      within_seg (by omega), within_buffer (by omega)⟩

theorem within_tcpSaveRetransLogged (t : TcpState) {cid : Nat} (flags : U8)
    {payload : Option TcpPointer} {payLen : U16} (hcid : cid < maxTcpConn)
    (hlen : payLen.toNat ≤ 536) (hread : ∀ p ∈ payload, p.Readable payLen.toNat) :
    Within TcpArr.bounds (tcpSaveRetransLogged t cid flags payload payLen).log := by
  unfold tcpSaveRetransLogged
  split
  · exact within_nil
  · cases payload with
    | none => exact within_nil
    | some p =>
        dsimp only
        rw [log_bind, within_append]
        refine ⟨within_loop (fun i hi b => ?_) _, within_nil⟩
        rw [List.mem_range] at hi
        rw [log_bind, within_append]
        exact ⟨hread p rfl i hi, within_retransBuf hcid (by omega)⟩

/-- **Sending** at most a chunk from a readable pointer. -/
theorem within_tcpSendLogged (un : Uninit) (cid : Nat) (flags : U8) {payload : Option TcpPointer}
    {payLen : U16} (t : TcpState) (sh : Shared) (hlen : payLen.toNat ≤ 536)
    (hread : ∀ p ∈ payload, p.Readable payLen.toNat) :
    Within TcpArr.bounds (tcpSendLogged un cid flags payload payLen t sh).log := by
  unfold tcpSendLogged
  split
  · exact within_nil
  -- the guard on `cid` holds from here on
  · rename_i hcid
    rw [Nat.not_le] at hcid
    rw [log_bind, log_bind, log_bind, log_bind, within_append, within_append, within_append,
      within_append]
    exact ⟨within_conn hcid, within_tcpWriteFrameLogged un _ flags _ hlen hread,
      within_tcpSaveRetransLogged t flags hcid hlen hread, within_conn hcid, within_nil⟩

/-- SYN, FIN and the like carry no payload. -/
theorem within_tcpSendLogged_none (un : Uninit) (cid : Nat) (flags : U8) (t : TcpState)
    (sh : Shared) : Within TcpArr.bounds (tcpSendLogged un cid flags none 0 t sh).log :=
  within_tcpSendLogged un cid flags t sh (by decide) nofun

/-- **Queueing**: the guard of the copy and the queue's own bound keep it in the row. -/
theorem within_tcpQueueLogged {t : TcpState} (cid : Nat) (payload : Mem U8) (payLen : U16)
    (h : t.queue.InRange) : Within TcpArr.bounds (tcpQueueLogged cid payload payLen t).log := by
  unfold tcpQueueLogged
  by_cases hgo : maxTcpConn ≤ cid ∨ payLen = 0
  · rw [if_pos hgo]
    exact within_nil
  · rw [if_neg hgo]
    have hcid : cid < maxTcpConn := Nat.lt_of_not_le (fun hc => hgo (.inl hc))
    obtain ⟨hrange, -, -⟩ := tcpQueueRestart_spec hcid h
    have hroom := toNat_tcpQueueRoom payLen hrange
    have hfits : (tcpQueueRestart t cid).qLen.toNat ≤ 576 := hrange.fits
    dsimp only
    rw [log_bind, log_bind, within_append, within_append]
    refine ⟨within_minus hfits, within_loop (fun i hi b => ?_) _, within_nil⟩
    rw [List.mem_range] at hi
    -- room is what the row still has, so the copy ends at its end
    have hi' : i < (tcpQueueRoom (tcpQueueRestart t cid) payLen).toNat := hi
    rw [log_bind, within_append]
    refine ⟨within_one ⟨Nat.zero_le _, ?_⟩, within_sendBufs hcid (by omega)⟩
    show 0 + i < 576
    omega

theorem within_tcpRetransmitLogged {t : TcpState} (un : Uninit) (sh : Shared) (h : TcpBounded t) :
    Within TcpArr.bounds (tcpRetransmitLogged un t sh).log := by
  have hsaved := h.saved t.retransCid
  unfold tcpRetransmitLogged
  rw [log_bind, log_bind, within_append, within_append]
  refine ⟨within_conn h.due, ?_, within_nil⟩
  unfold tcpResendLogged
  rw [val_load]
  cases (t.conn t.retransCid).state with
  | free => exact within_nil
  | listen => exact within_nil
  | synRcvd => exact within_tcpSendLogged_none un _ _ t sh
  | lastAck => exact within_tcpSendLogged_none un _ _ t sh
  | established =>
      dsimp only
      split
      -- at most 536 bytes were saved in a row of 576
      · refine within_tcpSendLogged un _ _ t sh hsaved ?_
        rintro p ⟨⟩ i hi
        refine within_retransBuf h.due ?_
        show 0 + i < 576
        omega
      · exact within_nil

theorem within_tcpFlushLogged {t : TcpState} (un : Uninit) (sh : Shared) (h : t.queue.InRange) :
    Within TcpArr.bounds (tcpFlushLogged un t sh).log := by
  have hsent : t.qOff.toNat ≤ t.qLen.toNat := h.sent
  have hfits : t.qLen.toNat ≤ 576 := h.fits
  have hchunk := toNat_tcpChunk h
  have hmax := toNat_tcpChunk_le h
  unfold tcpFlushLogged
  dsimp only
  rw [log_bind, log_bind, within_append, within_append]
  refine ⟨within_minus hsent, within_tcpSendLogged un _ _ t sh hmax ?_, ?_⟩
  -- the chunk ends at `qLen`, and so inside the row
  · rintro p ⟨⟩ i hi
    have hi' : i < (tcpChunk t).toNat := hi
    refine within_sendBufs h.slot ?_
    show t.qOff.toNat + i < 576
    omega
  · rw [apply_ite log, log_pure, log_pure, ite_self]
    exact within_nil

theorem within_tcpMaintenanceLogged {t : TcpState} (un : Uninit) (sh : Shared)
    (h : TcpBounded t) : Within TcpArr.bounds (tcpMaintenanceLogged un t sh).log := by
  unfold tcpMaintenanceLogged
  split
  · exact within_tcpRetransmitLogged un sh h
  · split
    · exact within_tcpFlushLogged un sh h.queue
    · exact within_nil

/-! ## §3. Reception. -/

theorem within_tcpScanOneLogged {i : Nat} (hi : i < maxTcpConn) (t : TcpState) :
    Within TcpArr.bounds (tcpScanOneLogged i t).log := by
  unfold tcpScanOneLogged
  rw [log_bind, within_append]
  refine ⟨within_conn hi, ?_⟩
  dsimp only
  split
  · split
    · rw [log_bind, within_append]
      exact ⟨within_conn hi, within_nil⟩
    · rw [log_bind, within_append]
      exact ⟨within_conn hi, within_nil⟩
  · exact within_nil

/-- The header length field has four bits. -/
theorem tcpParse_doff (ipRx : IpRx) (frameBuf : Mem U32) :
    (tcpParse ipRx frameBuf).doff.toNat < 16 := by
  show (frameBuf.byteAt 5 12 >>> 4 &&& 0xF#8).toNat < 16
  rw [BitVec.toNat_and]
  exact Nat.lt_of_le_of_lt Nat.and_le_right (by decide)

/-- The copy to `payload[]`: longer payloads are not copied at all. -/
theorem within_tcpPayloadLogged (un : Uninit) (frameBuf : Mem U32) {seg : TcpSeg}
    (hdoff : seg.doff.toNat < 16) :
    Within TcpArr.bounds (tcpPayloadLogged un frameBuf seg).log := by
  unfold tcpPayloadLogged
  split
  · rename_i hfits
    have hplen : seg.plen.toNat ≤ 576 := hfits.2
    refine within_loop (fun i hi p => ?_) _
    rw [List.mem_range] at hi
    rw [log_bind, within_append]
    -- at most 15 header words and 144 payload words behind the IP header
    refine ⟨within_frameBuf (by omega), within_one ⟨Nat.zero_le _, ?_⟩⟩
    show 0 + i < 576
    omega
  · exact within_nil

theorem within_tcpFindLogged (t : TcpState) (port : U16) (ip : U32) :
    Within TcpArr.bounds (tcpFindLogged t port ip).log := by
  have hgo : ∀ (is : List Nat), (∀ i ∈ is, i < maxTcpConn) → ∀ free : Option Nat,
      Within TcpArr.bounds (tcpFindLogged.go t port ip is free).log := by
    intro is
    induction is with
    | nil =>
        intro _ free
        exact within_nil
    | cons i is ih =>
        intro his free
        have hrest := ih (fun j hj => his j (List.mem_cons_of_mem i hj))
        unfold tcpFindLogged.go
        rw [log_bind, within_append]
        refine ⟨within_conn (his i List.mem_cons_self), ?_⟩
        split
        · exact within_nil
        · split
          · exact hrest (some i)
          · exact hrest free
  exact hgo _ (fun i hi => List.mem_range.mp hi) none

/-- The option loop reads at most three bytes behind the position it looks at. -/
theorem within_tcpOptLoopLogged (frameBuf : Mem U32) {optEnd : Nat} (hend : optEnd ≤ 40)
    (fuel o : Nat) (c : TcpConn) :
    Within TcpArr.bounds (tcpOptLoopLogged frameBuf optEnd fuel o c).log := by
  -- options end within 40 bytes, and 64 are in the frame buffer
  have hopt : ∀ k, k < 64 → Within TcpArr.bounds (tcpOptLogged frameBuf k).log := by
    intro k hk
    unfold tcpOptLogged
    rw [log_bind, within_append]
    exact ⟨within_frameBuf (by omega), within_nil⟩
  induction fuel generalizing o c with
  | zero => exact within_nil
  | succ fuel ih =>
      unfold tcpOptLoopLogged
      split
      · rw [log_bind, within_append]
        refine ⟨hopt o (by omega), ?_⟩
        split
        · exact within_nil
        · split
          · exact ih _ _
          · rw [log_bind, within_append]
            refine ⟨hopt (o + 1) (by omega), ?_⟩
            split
            · exact within_nil
            · split
              · rw [log_bind, log_bind, within_append, within_append]
                exact ⟨hopt (o + 2) (by omega), hopt (o + 3) (by omega), ih _ _⟩
              · split
                · rw [log_bind, within_append]
                  exact ⟨hopt (o + 2) (by omega), ih _ _⟩
                · exact ih _ _
      · exact within_nil

theorem within_tcpOpenSlotLogged {cid : Nat} {seg : TcpSeg} (frameBuf : Mem U32) (t : TcpState)
    (hcid : cid < maxTcpConn) (hdoff : seg.doff.toNat < 16) :
    Within TcpArr.bounds (tcpOpenSlotLogged cid seg frameBuf t).log := by
  unfold tcpOpenSlotLogged
  rw [log_bind, within_append]
  refine ⟨within_conn hcid, ?_⟩
  split
  · rw [log_bind, log_bind, within_append, within_append]
    refine ⟨?_, within_conn hcid, within_nil⟩
    unfold tcpOpenLogged
    dsimp only
    rw [log_bind, within_append]
    exact ⟨within_tcpOptLoopLogged frameBuf (by omega) _ 0 _, within_nil⟩
  · exact within_nil

theorem within_tcpEstablishedLogged (un : Uninit) {cid : Nat} (seg : TcpSeg) (payload : Mem U8)
    {t : TcpState} (sh : Shared) (hcid : cid < maxTcpConn) (h : t.queue.InRange) :
    Within TcpArr.bounds (tcpEstablishedLogged un cid seg payload t sh).log := by
  unfold tcpEstablishedLogged
  rw [log_bind, log_bind, log_bind, within_append, within_append, within_append]
  refine ⟨within_conn hcid, within_conn hcid, ?_, ?_⟩
  · unfold tcpTakeDataLogged
    split
    · exact within_tcpQueueLogged cid payload seg.plen h
    · split
      · rw [log_bind, log_bind, within_append, within_append]
        exact ⟨within_conn hcid, within_conn hcid, within_nil⟩
      · exact within_nil
  · split
    · rw [log_bind, log_bind, log_bind, within_append, within_append, within_append]
      exact ⟨within_tcpSendLogged_none un cid _ _ sh, within_conn hcid, within_conn hcid,
        within_nil⟩
    · exact within_nil

theorem within_tcpSwitchLogged (un : Uninit) {cid : Nat} (seg : TcpSeg) (payload : Mem U8)
    (ipRx : IpRx) {t : TcpState} (sh : Shared) (hcid : cid < maxTcpConn) (h : t.queue.InRange) :
    Within TcpArr.bounds (tcpSwitchLogged un cid seg payload ipRx t sh).log := by
  unfold tcpSwitchLogged
  rw [log_bind, within_append, val_load]
  refine ⟨within_conn hcid, ?_⟩
  cases (t.conn cid).state with
  | free => exact within_nil
  | listen =>
      dsimp only
      unfold tcpListenLogged
      split
      · rw [log_bind, log_bind, within_append, within_append]
        exact ⟨within_conn hcid, within_conn hcid, within_tcpSendLogged_none un cid _ _ sh⟩
      · exact within_nil
  | synRcvd =>
      dsimp only
      rw [log_bind, within_append]
      exact ⟨within_conn hcid, within_nil⟩
  | established => exact within_tcpEstablishedLogged un seg payload sh hcid h
  | lastAck =>
      dsimp only
      rw [log_bind, within_append]
      exact ⟨within_conn hcid, within_nil⟩

theorem within_tcpReceiveLogged (un : Uninit) (ipRx : IpRx) {seg : TcpSeg} (frameBuf : Mem U32)
    {t : TcpState} (sh : Shared) (hdoff : seg.doff.toNat < 16) (h : t.queue.InRange) :
    Within TcpArr.bounds (tcpReceiveLogged un ipRx seg frameBuf t sh).log := by
  unfold tcpReceiveLogged
  rw [log_bind, log_bind, within_append, within_append, val_tcpFindLogged]
  refine ⟨within_tcpPayloadLogged un frameBuf hdoff, within_tcpFindLogged t _ _, ?_⟩
  cases hfind : tcpFind t seg.sp ipRx.srcIp with
  | none => exact within_nil
  | some cid =>
      -- every slot the search returns exists
      have hcid := (tcpFind_some hfind).1
      dsimp only
      rw [log_bind, log_bind, within_append, within_append, val_tcpOpenSlotLogged]
      refine ⟨within_tcpOpenSlotLogged frameBuf t hcid hdoff, within_conn hcid, ?_⟩
      -- opening a slot leaves the queue alone
      have hopen : (if (t.conn cid).state = .free ∧ seg.opens = true then
          t.setConn cid (tcpOpen cid seg frameBuf (t.conn cid)) else t).queue = t.queue := by
        split <;> rfl
      generalize (if (t.conn cid).state = .free ∧ seg.opens = true then
        t.setConn cid (tcpOpen cid seg frameBuf (t.conn cid)) else t) = t₁ at hopen ⊢
      split
      · exact within_nil
      · rw [log_bind, within_append]
        refine ⟨within_conn hcid, within_tcpSwitchLogged un seg _ ipRx sh hcid ?_⟩
        show t₁.queue.InRange
        rw [hopen]
        exact h

theorem within_tcpRxProcessLogged {t : TcpState} (un : Uninit) (rst : Bool) (ipRx : IpRx)
    (frameBuf : Mem U32) (sh : Shared) (h : t.queue.InRange) :
    Within TcpArr.bounds (tcpRxProcessLogged un rst ipRx frameBuf t sh).log := by
  unfold tcpRxProcessLogged
  split
  · rw [log_bind, within_append]
    refine ⟨within_loop (fun i hi conn => ?_) _, within_nil⟩
    have hcid : i < maxTcpConn := List.mem_range.mp hi
    rw [log_bind, within_append]
    exact ⟨within_conn hcid, within_conn hcid⟩
  · split
    · rw [log_bind, within_append]
      exact ⟨within_loop (fun i hi t => within_tcpScanOneLogged (List.mem_range.mp hi) t) _,
        within_nil⟩
    · rw [log_bind, within_append]
      refine ⟨within_loop (fun i hi _ => ?_) _, ?_⟩
      · rw [List.mem_range] at hi
        exact within_frameBuf (by omega)
      · dsimp only
        split
        · exact within_nil
        · exact within_tcpReceiveLogged un ipRx frameBuf sh (tcpParse_doff ipRx frameBuf) h

/-! ## §4. Reachable states. -/

/-- **Array safety of the TCP layer**: in every state that a run over any segments, resets,
timer scans and maintenance passes reaches, the statics are in range, and whatever call comes
next, every array index is in bounds and no subtraction of the queue code wraps. -/
theorem tcp_bounds (es : List TcpEvent) :
    TcpBounded (tcpMachine.after {} es)
      ∧ ∀ e, (tcpMachineLogged (tcpMachine.after {} es) e).val
          = tcpMachine (tcpMachine.after {} es) e
        ∧ Within TcpArr.bounds (tcpMachineLogged (tcpMachine.after {} es) e).log := by
  have hbounded := tcpBounded_after es
  refine ⟨hbounded, fun e => ⟨val_tcpMachineLogged _ e, ?_⟩⟩
  cases e with
  | segment un rst ipRx frameBuf sh =>
      exact within_tcpRxProcessLogged un rst ipRx frameBuf sh hbounded.queue
  | maintenance un sh => exact within_tcpMaintenanceLogged un sh hbounded

end GigabitTcp
