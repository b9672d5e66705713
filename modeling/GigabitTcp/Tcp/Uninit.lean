/-
  GigabitTcp.Tcp.Uninit — where the left-over of `payload[]` and `seg[]` shows.

  Both arrays are declared without an initial value.  `tcp_send` sums and sends the first
  `total` bytes of `seg[]`, all of which it has written, and stores whole words, so up to three
  bytes behind a payload reach the buffer and not the wire.  `payload[]` shows if a payload is
  not copied, for its length, and the echo queue takes some of it.

  Main results:
    * `tcpSegment_uninit`     — a segment,
    * `tcpRxProcess_uninit`   — reception, for payloads that fit,
    * `tcpMaintenance_uninit` — what is sent from the queue, or again.
-/
import GigabitTcp.Tcp.Payload

namespace GigabitTcp

open Hw

/-! ## §1. What is sent. -/

section Call

variable (un un' : Uninit) (c : TcpConn) {flags : U8} {payload : Option (Nat → U8)} {payLen : U16}
  (hsyn : hasFlag flags tcpSyn = true → payLen = 0) (hnull : payload = none → payLen = 0)

include hsyn hnull in
/-- Header, options and payload are written, whatever was there. -/
theorem tcpUnsummed_uninit {k : Nat} (hk : k < (tcpTotal flags payLen).toNat) :
    tcpUnsummed un c flags payload payLen k = tcpUnsummed un' c flags payload payLen k := by
  by_cases hheader : k < 20
  · rw [tcpUnsummed_header _ _ _ _ _ hheader, tcpUnsummed_header _ _ _ _ _ hheader]
  obtain ⟨i, rfl⟩ : ∃ i, k = 20 + i := ⟨k - 20, by omega⟩
  unfold tcpTotal at hk
  by_cases h : hasFlag flags tcpSyn = true
  · -- the option block
    rw [if_pos h, hsyn h, show (tcpMaxHdr + 0 : U16).toNat = 28 from rfl] at hk
    rw [hsyn h, tcpUnsummed_options _ _ _ h (by omega), tcpUnsummed_options _ _ _ h (by omega)]
  · rw [if_neg h, BitVec.toNat_add, show tcpHeaderBytes.toNat = 20 from rfl] at hk
    have hi : i < payLen.toNat := by omega
    cases payload with
    | none =>
        rw [hnull rfl] at hi
        exact absurd hi (Nat.not_lt_zero i)
    | some p => rw [tcpUnsummed_payload _ _ _ _ hi, tcpUnsummed_payload _ _ _ _ hi]

include hsyn hnull in
/-- **The bytes of a segment**, checksum included. -/
theorem tcpSegment_uninit {k : Nat} (hk : k < (tcpTotal flags payLen).toNat) :
    tcpSegment un c flags payload payLen k = tcpSegment un' c flags payload payLen k := by
  have hsum : tcpCsum boardIp c.peerIp (tcpUnsummed un c flags payload payLen) (tcpTotal flags payLen)
      = tcpCsum boardIp c.peerIp (tcpUnsummed un' c flags payload payLen) (tcpTotal flags payLen) :=
    byteChecksum_congr (fun _ hj => tcpUnsummed_uninit un un' c hsyn hnull hj) _
  rw [tcpSegment_eq, tcpSegment_eq, hsum]
  by_cases hfield : 16 ≤ k ∧ k < 18
  · rw [putBytes_inside _ _ hfield, putBytes_inside _ _ hfield]
  · rw [putBytes_outside _ _ hfield, putBytes_outside _ _ hfield,
      tcpUnsummed_uninit un un' c hsyn hnull hk]

include hsyn hnull in
/-- A frame whose segment ends with a word. -/
theorem tcpWriteFrame_uninit (hwhole : (tcpTotal flags payLen).toNat % 4 = 0) (buffer : Mem U32) :
    tcpWriteFrame un c flags payload payLen buffer = tcpWriteFrame un' c flags payload payLen buffer := by
  unfold tcpWriteFrame
  dsimp only
  refine Mem.fill_congr _ _ fun i hi => ?_
  unfold Mem.wordOf
  have hbyte : ∀ k, k < 4 → tcpSegment un c flags payload payLen (i * 4 + k)
      = tcpSegment un' c flags payload payLen (i * 4 + k) :=
    fun k hk => tcpSegment_uninit un un' c hsyn hnull (by omega)
  rw [show i * 4 = i * 4 + 0 from rfl, hbyte 0 (by omega), hbyte 1 (by omega), hbyte 2 (by omega),
    hbyte 3 (by omega)]

end Call

/-- **A segment without payload**: SYN+ACK, ACK or FIN+ACK. -/
theorem tcpSend_control_uninit (un un' : Uninit) (cid : Nat) (flags : U8) (t : TcpState) (sh : Shared) :
    tcpSend un cid flags none 0 t sh = tcpSend un' cid flags none 0 t sh := by
  have hwhole : (tcpTotal flags 0).toNat % 4 = 0 := by
    unfold tcpTotal
    split
    · rfl
    · rfl
  unfold tcpSend
  dsimp only
  rw [tcpWriteFrame_uninit un un' (t.conn cid) (fun _ => rfl) (fun _ => rfl) hwhole]

/-! ## §2. What is received. -/

/-- The queue takes over no more than the payload, -/
theorem tcpTakesOver_le (t : TcpState) (cid : Nat) (payLen : U16) :
    tcpTakesOver t cid payLen ≤ payLen.toNat := by
  unfold tcpTakesOver tcpQueueRoom
  generalize tcpRxPayload - (tcpQueueRestart t cid).qLen = room
  by_cases hroom : payLen < room
  · exact Nat.le_of_eq (congrArg BitVec.toNat (if_pos hroom))
  · exact (Nat.le_of_eq (congrArg BitVec.toNat (if_neg hroom))).trans (BitVec.not_lt.mp hroom)

/-- and nothing of it if it is full. -/
theorem tcpTakesOver_full {t : TcpState} (h : tcpQueueUsed t = 576) (cid : Nat) (payLen : U16) :
    tcpTakesOver t cid payLen = 0 := by
  have hfull : (tcpQueueRestart t cid).qLen = tcpRxPayload :=
    BitVec.eq_of_toNat_eq ((tcpQueueRestart_qLen t cid).trans h)
  have hno : ¬ payLen < 0#16 := BitVec.not_lt_zero
  unfold tcpTakesOver tcpQueueRoom
  rw [hfull, BitVec.sub_self]
  exact congrArg BitVec.toNat (if_neg hno)

/-- A change of a record leaves the queue alone. -/
theorem tcpTakesOver_setConn (t : TcpState) (i : Nat) (c : TcpConn) (cid : Nat) (payLen : U16) :
    tcpTakesOver (t.setConn i c) cid payLen = tcpTakesOver t cid payLen := by
  have hlen : (tcpQueueRestart (t.setConn i c) cid).qLen = (tcpQueueRestart t cid).qLen :=
    BitVec.eq_of_toNat_eq ((tcpQueueRestart_qLen _ cid).trans (tcpQueueRestart_qLen t cid).symm)
  unfold tcpTakesOver tcpQueueRoom
  rw [hlen]

/-- The queue copies as many bytes as it takes over. -/
theorem tcpQueue_congr {payload payload' : Nat → U8} {cid : Nat} {payLen : U16} {t : TcpState}
    (h : ∀ i, i < tcpTakesOver t cid payLen → payload i = payload' i) :
    tcpQueue cid payload payLen t = tcpQueue cid payload' payLen t := by
  have hfill : ∀ m : Mem U8, m.fill (tcpQueueRestart t cid).qLen.toNat
      (tcpQueueRoom (tcpQueueRestart t cid) payLen).toNat payload
      = m.fill (tcpQueueRestart t cid).qLen.toNat (tcpQueueRoom (tcpQueueRestart t cid) payLen).toNat
        payload' :=
    fun m => Mem.fill_congr m _ h
  unfold tcpQueue
  simp only [hfill]

/-- What the queue takes over of a payload that fits, or finds no room, is the frame's own. -/
theorem tcpPayload_uninit (un un' : Uninit) (frameBuf : Mem U32) {seg : TcpSeg} {t : TcpState}
    (hfits : seg.plen ≤ tcpRxPayload ∨ tcpQueueUsed t = 576) {cid i : Nat}
    (hi : i < tcpTakesOver t cid seg.plen) :
    tcpPayload un frameBuf seg i = tcpPayload un' frameBuf seg i := by
  have hle := tcpTakesOver_le t cid seg.plen
  rcases hfits with hfits | hfull
  · rw [tcpPayload_filled un frameBuf hfits (by omega), tcpPayload_filled un' frameBuf hfits (by omega)]
  · rw [tcpTakesOver_full hfull] at hi
    exact absurd hi (Nat.not_lt_zero i)

/-- The state switch sends segments without payload only, and queues for an established slot. -/
theorem tcpSwitch_uninit (un un' : Uninit) {cid : Nat} {seg : TcpSeg} {payload payload' : Nat → U8}
    (ipRx : IpRx) {t : TcpState} (sh : Shared)
    (h : (t.conn cid).state = .established → 0 < seg.plen →
      ∀ i, i < tcpTakesOver t cid seg.plen → payload i = payload' i) :
    tcpSwitch un cid seg payload ipRx t sh = tcpSwitch un' cid seg payload' ipRx t sh := by
  unfold tcpSwitch
  cases hstate : (t.conn cid).state with
  | free => rfl
  | listen =>
      dsimp only
      unfold tcpListen
      dsimp only
      rw [tcpSend_control_uninit un un']
  | synRcvd => rfl
  | established =>
      dsimp only
      unfold tcpEstablished
      dsimp only
      rw [tcpSend_control_uninit un un']
      by_cases hdata : 0 < seg.plen
      · rw [if_pos hdata, if_pos hdata, tcpQueue_congr fun i hi =>
          h hstate hdata i (by rwa [tcpTakesOver_setConn] at hi)]
      · rw [if_neg hdata, if_neg hdata]
  | lastAck => rfl

/-- **Reception** of a segment that fits `payload[]` or finds no room. -/
theorem tcpRxProcess_uninit (un un' : Uninit) {rst : Bool} {ipRx : IpRx} {frameBuf : Mem U32}
    {t : TcpState} {sh : Shared} (hfits : TcpFitsPayload t (.segment un rst ipRx frameBuf sh)) :
    tcpRxProcess un rst ipRx frameBuf t sh = tcpRxProcess un' rst ipRx frameBuf t sh := by
  by_cases hecho : tcpForEcho rst ipRx frameBuf = true
  · obtain ⟨htarget, hcall⟩ := tcpRxProcess_forEcho un t sh hecho
    rw [hcall, (tcpRxProcess_forEcho un' t sh hecho).2]
    unfold TcpFitsPayload at hfits
    dsimp only at hfits
    rw [htarget] at hfits
    generalize tcpParse ipRx frameBuf = seg at hfits ⊢
    cases hfind : tcpFind t seg.sp ipRx.srcIp with
    | none => rw [tcpReceive_none un frameBuf sh hfind, tcpReceive_none un' frameBuf sh hfind]
    | some cid =>
        by_cases hfree : (t.conn cid).state = .free
        · by_cases hopens : seg.opens = true
          · -- the slot listens in this call, and queues nothing
            rw [tcpReceive_opened un frameBuf sh hfind hfree hopens,
              tcpReceive_opened un' frameBuf sh hfind hfree hopens]
            refine tcpSwitch_uninit un un' ipRx sh fun hest => ?_
            rw [setConn_same, tcpOpened_state] at hest
            cases hest
          · rw [tcpReceive_closed un frameBuf sh hfind hfree hopens,
              tcpReceive_closed un' frameBuf sh hfind hfree hopens]
        · rw [tcpReceive_live un frameBuf sh hfind hfree, tcpReceive_live un' frameBuf sh hfind hfree]
          refine tcpSwitch_uninit un un' ipRx sh fun hest hdata i hi => ?_
          rw [setConn_same, tcpOnSegment_state] at hest
          rw [tcpTakesOver_setConn] at hi
          exact tcpPayload_uninit un un' frameBuf (hfits cid (by rw [hfind]; rfl) hest hdata) hi
  · unfold tcpRxProcess
    dsimp only
    split_ifs with hrst hip hport
    · rfl
    · rfl
    · rfl
    · refine absurd ?_ hecho
      unfold tcpForEcho
      simp only [Bool.not_eq_true, Bool.not_eq_false', Bool.or_eq_false_iff, bne_eq_false_iff_eq] at hrst hip
      simp [hrst, hip.1, hip.2, not_not.mp hport]

/-! ## §3. What is sent from the queue, or again. -/

/-- Two results that differ in bytes of the buffer that nobody asks to be sent. -/
structure TcpSentAlike (r r' : TcpState × Shared) : Prop where
  tcp : r.1 = r'.1
  shared : ∃ buffer, r'.2 = { r.2 with buffer }
    ∧ Mem.BytesAgree r.2.txReq.bufAddr.toNat r.2.txReq.bufLen.toNat r.2.buffer buffer

theorem TcpSentAlike.refl (r : TcpState × Shared) : TcpSentAlike r r :=
  ⟨rfl, r.2.buffer, rfl, fun _ _ => rfl⟩

/-- The statics alone are changed afterwards. -/
theorem TcpSentAlike.map {r r' : TcpState × Shared} (h : TcpSentAlike r r') (f : TcpState → TcpState) :
    TcpSentAlike (f r.1, r.2) (f r'.1, r'.2) :=
  ⟨congrArg f h.tcp, h.shared⟩

/-- **A segment with payload**: what stands behind it in its last word is not sent. -/
theorem tcpSend_data_uninit (un un' : Uninit) (cid : Nat) (payload : Nat → U8) (payLen : U16)
    (t : TcpState) (sh : Shared) :
    TcpSentAlike (tcpSend un cid tcpAck (some payload) payLen t sh)
      (tcpSend un' cid tcpAck (some payload) payLen t sh) := by
  unfold tcpSend replyMac
  dsimp only
  split_ifs
  · exact .refl _
  · have hlen : (20 + tcpTotal tcpAck payLen).toNat ≤ 20 + (tcpTotal tcpAck payLen).toNat := by
      rw [BitVec.toNat_add]
      exact Nat.mod_le _ _
    refine ⟨rfl, tcpWriteFrame un' (t.conn cid) tcpAck (some payload) payLen sh.buffer, rfl, ?_⟩
    unfold Shared.issue
    dsimp only
    rw [show (BitVec.ofNat 10 txUdpBase).toNat = txUdpBase from rfl]
    intro k hk
    have hk' : k < 20 + (tcpTotal tcpAck payLen).toNat := Nat.lt_of_lt_of_le hk hlen
    by_cases hheader : k < 20
    · rw [tcpWriteFrame_header _ _ _ _ _ _ hheader, tcpWriteFrame_header _ _ _ _ _ _ hheader]
    · obtain ⟨j, rfl⟩ : ∃ j, k = 20 + j := ⟨k - 20, by omega⟩
      have hj : j < (tcpTotal tcpAck payLen).toNat := by omega
      rw [tcpWriteFrame_segment _ _ _ _ _ _ hj, tcpWriteFrame_segment _ _ _ _ _ _ hj]
      exact tcpSegment_uninit un un' (t.conn cid) (fun h => absurd (hasFlag_tcpAck_syn ▸ h) Bool.false_ne_true)
        (fun h => absurd h (Option.some_ne_none payload)) hj

theorem tcpRetransmit_uninit (un un' : Uninit) (t : TcpState) (sh : Shared) :
    TcpSentAlike (tcpRetransmit un t sh) (tcpRetransmit un' t sh) := by
  unfold tcpRetransmit
  dsimp only
  rw [tcpSend_control_uninit un un' _ (tcpSyn ||| tcpAck), tcpSend_control_uninit un un' _ (tcpFin ||| tcpAck)]
  cases (t.conn t.retransCid).state with
  | established =>
      dsimp only
      split_ifs
      · exact (tcpSend_data_uninit un un' _ _ _ t sh).map (fun t => { t with retransDue := false })
      · exact .refl _
  | _ => exact .refl _

theorem tcpFlush_uninit (un un' : Uninit) (t : TcpState) (sh : Shared) :
    TcpSentAlike (tcpFlush un t sh) (tcpFlush un' t sh) := by
  have hsent := tcpSend_data_uninit un un' t.qCid (fun i => t.sendBufs t.qCid (t.qOff.toNat + i))
    (tcpChunk t) t sh
  unfold tcpFlush
  dsimp only
  rw [← hsent.tcp]
  split_ifs
  · exact ⟨rfl, hsent.shared⟩
  · exact ⟨rfl, hsent.shared⟩

theorem tcpMaintenance_uninit (un un' : Uninit) (t : TcpState) (sh : Shared) :
    TcpSentAlike (tcpMaintenance un t sh) (tcpMaintenance un' t sh) := by
  unfold tcpMaintenance
  split_ifs
  · exact tcpRetransmit_uninit un un' t sh
  · exact tcpFlush_uninit un un' t sh
  · exact .refl _

end GigabitTcp
