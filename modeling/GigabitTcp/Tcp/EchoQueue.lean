/-
  GigabitTcp.Tcp.EchoQueue — who gets which bytes back from the echo queue.

  One queue descriptor (`qLen`, `qOff`, `qCid`) serves the echo buffers of all connections.
  The ledger of a run records, peer by peer, when a connection is opened, which payload
  bytes `tcp_queue` takes over, and which bytes `tcp_maintenance` sends; what is sent is read
  from the frame in the buffer, destination included.

  Main results:
    * `tcp_echo_faithful` — as long as the queue has one owner at a time, every peer is sent
      a prefix of what was taken over from it since it connected,
    * `tcp_echo_mixed`    — two connections that both have data queued get foreign bytes.
-/
import GigabitTcp.Tcp.Runs
import GigabitTcp.Tcp.Frame
import GigabitTcp.Hw.Ledger

namespace GigabitTcp

open Hw Machine

/-! ## §1. The ledger of a run. -/

/-- The sender of a segment. -/
def tcpSender (ipRx : IpRx) (seg : TcpSeg) : TcpPeer := { ip := ipRx.srcIp, port := seg.sp }

/-- A slot in use that the search returns is its sender's. -/
theorem tcpFind_sender {t : TcpState} {ipRx : IpRx} {seg : TcpSeg} {cid : Nat}
    (hfind : tcpFind t seg.sp ipRx.srcIp = some cid) (hlive : (t.conn cid).state ≠ .free) :
    tcpSender ipRx seg = (t.conn cid).peer := by
  rcases (tcpFind_some hfind).2 with hfree | ⟨hport, hip⟩
  · exact absurd hfree hlive
  · unfold tcpSender TcpConn.peer
    rw [hport, hip]

/-- How many of `payLen` bytes `tcp_queue` takes over for slot `cid`. -/
def tcpTakesOver (t : TcpState) (cid : Nat) (payLen : U16) : Nat :=
  (tcpQueueRoom (tcpQueueRestart t cid) payLen).toNat

/-- What the ledger notes of an event. -/
def tcpNotes (t : TcpState) : TcpEvent → List (Note TcpPeer U8)
  | .segment un rst ipRx frameBuf _ =>
      let seg := tcpParse ipRx frameBuf
      match tcpTarget rst ipRx frameBuf t with
      | none => []
      | some cid =>
          if TcpConnects t cid seg then [.opened (tcpSender ipRx seg)]
          else if (t.conn cid).state = .established ∧ 0 < seg.plen then
            [.put (tcpSender ipRx seg) ((List.range (tcpTakesOver t cid seg.plen)).map
              (tcpPayload un frameBuf seg))]
          else []
  | .maintenance un sh =>
      let sh' := (tcpMaintenance un t sh).2
      if sh.txReq.request = false ∧ sh'.txReq.request = true then
        [.took sh'.tcpDestination sh'.tcpCarried]
      else []

/-! ## §2. The bytes in the queue. -/

/-- The bytes that are queued and not sent. -/
def TcpQueue.bytes (q : TcpQueue) : List U8 :=
  (List.range (q.qLen.toNat - q.qOff.toNat)).map (fun i => q.sendBufs q.qCid (q.qOff.toNat + i))

/-- The descriptor stays inside the buffer of a slot. -/
structure TcpQueue.InRange (q : TcpQueue) : Prop where
  slot : q.qCid < maxTcpConn
  sent : q.qOff.toNat ≤ q.qLen.toNat
  fits : q.qLen.toNat ≤ 576

theorem TcpState.qDrained_iff (t : TcpState) : t.qDrained = true ↔ t.qLen = t.qOff := by
  unfold TcpState.qDrained
  exact beq_iff_eq

/-- A drained queue holds nothing. -/
theorem TcpQueue.bytes_of_drained {t : TcpState} (h : t.qDrained = true) : t.queue.bytes = [] := by
  rw [TcpState.qDrained_iff] at h
  unfold TcpQueue.bytes TcpState.queue
  rw [h, Nat.sub_self]
  rfl

/-- Bytes wait exactly if a maintenance pass has something to flush. -/
theorem TcpQueue.bytes_ne_nil_iff (t : TcpState) : t.queue.bytes ≠ [] ↔ t.qOff < t.qLen := by
  unfold TcpQueue.bytes
  rw [Ne, List.map_eq_nil_iff, List.range_eq_nil, Nat.sub_eq_zero_iff_le, Nat.not_le]
  exact Iff.rfl

/-- The restart leaves the queued bytes alone, and makes a drained queue the slot's own. -/
theorem tcpQueueRestart_spec {t : TcpState} {cid : Nat} (hcid : cid < maxTcpConn)
    (h : t.queue.InRange) :
    (tcpQueueRestart t cid).queue.InRange
      ∧ (tcpQueueRestart t cid).queue.bytes = t.queue.bytes
      ∧ (tcpQueueRestart t cid).qCid = if t.qDrained then cid else t.qCid := by
  unfold tcpQueueRestart
  by_cases hd : t.qDrained = true
  · rw [if_pos hd, if_pos hd, TcpQueue.bytes_of_drained hd]
    refine ⟨⟨hcid, ?_, ?_⟩, rfl, rfl⟩
    · show (0 : U16).toNat ≤ (0 : U16).toNat
      exact Nat.le_refl _
    · show (0 : U16).toNat ≤ 576
      decide
  · rw [if_neg hd, if_neg hd]
    exact ⟨h, rfl, rfl⟩

theorem toNat_tcpQueueRoom {t : TcpState} (payLen : U16) (h : t.queue.InRange) :
    (tcpQueueRoom t payLen).toNat = min payLen.toNat (576 - t.qLen.toNat) := by
  have hfits : t.qLen.toNat ≤ 576 := h.fits
  -- in range the subtraction does not wrap
  have hroom : (tcpRxPayload - t.qLen).toNat = 576 - t.qLen.toNat := by
    rw [BitVec.toNat_sub]
    show (2 ^ 16 - t.qLen.toNat + 576) % 2 ^ 16 = _
    omega
  unfold tcpQueueRoom
  dsimp only
  split
  · rename_i hlt
    rw [BitVec.lt_def, hroom] at hlt
    omega
  · rename_i hlt
    rw [BitVec.lt_def, hroom] at hlt
    rw [hroom]
    omega

/-- `tcp_queue` with something to queue, from the restarted queue on. -/
theorem tcpQueue_eq {t : TcpState} {cid : Nat} (payload : Nat → U8) {payLen : U16}
    (hcid : cid < maxTcpConn) (hlen : 0 < payLen) :
    (tcpQueue cid payload payLen t).queue
      = { (tcpQueueRestart t cid).queue with
          sendBufs := fun i =>
            if i = cid then
              ((tcpQueueRestart t cid).sendBufs i).fill (tcpQueueRestart t cid).qLen.toNat
                (tcpTakesOver t cid payLen) payload
            else (tcpQueueRestart t cid).sendBufs i
          qLen := (tcpQueueRestart t cid).qLen + tcpQueueRoom (tcpQueueRestart t cid) payLen } := by
  have hgo : ¬ (maxTcpConn ≤ cid ∨ payLen = 0) := by
    rintro (h | rfl)
    · omega
    · exact absurd hlen (by decide)
  unfold tcpQueue
  rw [if_neg hgo]
  rfl

/-- The bytes that are taken over do not make `qLen` wrap. -/
theorem toNat_qLen_add_room {t : TcpState} (payLen : U16) (h : t.queue.InRange) :
    (t.qLen + tcpQueueRoom t payLen).toNat = t.qLen.toNat + (tcpQueueRoom t payLen).toNat := by
  have hroom := toNat_tcpQueueRoom payLen h
  have hfits : t.qLen.toNat ≤ 576 := h.fits
  rw [BitVec.toNat_add, hroom]
  omega

/-- The descriptor stays in range, whoever's data is queued. -/
theorem tcpQueue_inRange {t : TcpState} (cid : Nat) (payload : Nat → U8) (payLen : U16)
    (h : t.queue.InRange) : (tcpQueue cid payload payLen t).queue.InRange := by
  by_cases hgo : maxTcpConn ≤ cid ∨ payLen = 0
  · unfold tcpQueue
    rw [if_pos hgo]
    exact h
  · have hcid : cid < maxTcpConn := Nat.lt_of_not_le (fun hc => hgo (.inl hc))
    have hlen : 0 < payLen := (BitVec.pos_iff_ne_zero payLen).mpr (fun hz => hgo (.inr hz))
    obtain ⟨hrange, -, -⟩ := tcpQueueRestart_spec hcid h
    -- at most the room is added, so `qLen` ends at 576 or below
    have hroom := toNat_tcpQueueRoom payLen hrange
    rw [tcpQueue_eq payload hcid hlen]
    generalize tcpQueueRestart t cid = t₁ at hrange hroom ⊢
    have hsent : t₁.qOff.toNat ≤ t₁.qLen.toNat := hrange.sent
    have hfits : t₁.qLen.toNat ≤ 576 := hrange.fits
    have hnew := toNat_qLen_add_room payLen hrange
    refine ⟨hrange.slot, ?_, ?_⟩
    · show t₁.qOff.toNat ≤ (t₁.qLen + tcpQueueRoom t₁ payLen).toNat
      omega
    · show (t₁.qLen + tcpQueueRoom t₁ payLen).toNat ≤ 576
      omega

/-- **Queueing for the owner** puts the bytes that fit behind those that wait. -/
theorem tcpQueue_owner {t : TcpState} {cid : Nat} (payload : Nat → U8) {payLen : U16}
    (hcid : cid < maxTcpConn) (hlen : 0 < payLen) (h : t.queue.InRange)
    (howner : t.qDrained = true ∨ t.qCid = cid) :
    (tcpQueue cid payload payLen t).queue.InRange
      ∧ (tcpQueue cid payload payLen t).qCid = cid
      ∧ (tcpQueue cid payload payLen t).queue.bytes
        = t.queue.bytes ++ (List.range (tcpTakesOver t cid payLen)).map payload := by
  refine ⟨tcpQueue_inRange cid payload payLen h, ?_⟩
  obtain ⟨hrange, hbytes, hqcid⟩ := tcpQueueRestart_spec hcid h
  have hroom := toNat_tcpQueueRoom payLen hrange
  -- after the restart the queue is the slot's, drained before or not
  have hmine : (tcpQueueRestart t cid).qCid = cid := by
    rw [hqcid]
    by_cases hd : t.qDrained = true
    · exact if_pos hd
    · exact (if_neg hd).trans (howner.resolve_left hd)
  rw [← hbytes, show (tcpQueue cid payload payLen t).qCid
    = (tcpQueue cid payload payLen t).queue.qCid from rfl, tcpQueue_eq payload hcid hlen]
  unfold tcpTakesOver
  generalize tcpQueueRestart t cid = t₁ at hrange hbytes hroom hmine ⊢
  have hsent : t₁.qOff.toNat ≤ t₁.qLen.toNat := hrange.sent
  have hfits : t₁.qLen.toNat ≤ 576 := hrange.fits
  have hnew := toNat_qLen_add_room payLen hrange
  refine ⟨hmine, ?_⟩
  unfold TcpQueue.bytes TcpState.queue
  dsimp only
  rw [hnew, hmine, if_pos rfl, Nat.sub_add_comm hsent, List.range_add, List.map_append,
    List.map_map]
  refine congrArg₂ (· ++ ·) ?_ ?_
  · -- the bytes that wait lie below the new ones
    apply List.map_congr_left
    intro i hi
    rw [List.mem_range] at hi
    exact Mem.fill_outside _ _ (by omega)
  -- the new ones are what the copy wrote
  · apply List.map_congr_left
    intro i hi
    rw [List.mem_range] at hi
    show (t₁.sendBufs cid).fill _ _ payload (t₁.qOff.toNat + (t₁.qLen.toNat - t₁.qOff.toNat + i)) = _
    rw [show t₁.qOff.toNat + (t₁.qLen.toNat - t₁.qOff.toNat + i) = t₁.qLen.toNat + i by omega,
      Mem.fill_at _ _ hi]

/-- A full queue takes over nothing, whoever asks. -/
theorem tcpQueue_full {t : TcpState} {cid : Nat} (payload : Nat → U8) {payLen : U16}
    (hcid : cid < maxTcpConn) (hlen : 0 < payLen) (h : t.queue.InRange) (hd : t.qDrained = false)
    (hfull : t.qLen = tcpRxPayload) :
    tcpTakesOver t cid payLen = 0 ∧ (tcpQueue cid payload payLen t).queue = t.queue := by
  -- a full queue is not drained
  have hrestart : tcpQueueRestart t cid = t := by
    unfold tcpQueueRestart
    rw [hd]
    rfl
  have hroom := toNat_tcpQueueRoom payLen h
  rw [hfull, show 576 - tcpRxPayload.toNat = 0 from rfl, Nat.min_zero] at hroom
  have hzero : tcpTakesOver t cid payLen = 0 := by
    unfold tcpTakesOver
    rw [hrestart, hroom]
  refine ⟨hzero, ?_⟩
  rw [tcpQueue_eq payload hcid hlen, hzero, hrestart, BitVec.eq_of_toNat_eq (y := 0#16) hroom]
  simp only [Mem.fill_zero, ite_self]
  rw [BitVec.add_zero]
  rfl

theorem toNat_tcpChunk {t : TcpState} (h : t.queue.InRange) :
    (tcpChunk t).toNat = min 536 (t.qLen.toNat - t.qOff.toNat) := by
  have hsent : t.qOff.toNat ≤ t.qLen.toNat := h.sent
  have hrem : (t.qLen - t.qOff).toNat = t.qLen.toNat - t.qOff.toNat := BitVec.toNat_sub_of_le hsent
  have hmax : tcpTxChunk.toNat = 536 := rfl
  unfold tcpChunk
  dsimp only
  split
  · rename_i hlt
    rw [BitVec.lt_def, hrem, hmax] at hlt
    rw [hmax]
    omega
  · rename_i hlt
    rw [BitVec.lt_def, hrem, hmax] at hlt
    rw [hrem]
    omega

/-- **Flushing** sends the front of the queue to the peer of its owner. -/
theorem tcpFlush_spec (un : Uninit) {t : TcpState} (sh : Shared) (h : t.queue.InRange) :
    (tcpFlush un t sh).2.txReq.request = true
      ∧ (tcpFlush un t sh).2.tcpDestination = (t.conn t.qCid).peer
      ∧ t.queue.bytes = (tcpFlush un t sh).2.tcpCarried ++ (tcpFlush un t sh).1.queue.bytes
      ∧ (tcpFlush un t sh).1.queue.InRange
      ∧ (tcpFlush un t sh).1.qCid = t.qCid := by
  have hchunk := toNat_tcpChunk h
  have hsent : t.qOff.toNat ≤ t.qLen.toNat := h.sent
  have hfits : t.qLen.toNat ≤ 576 := h.fits
  have hslot : t.qCid < maxTcpConn := h.slot
  have hmax : (tcpChunk t).toNat ≤ 576 := by omega
  obtain ⟨hreq, hdest, hcarried⟩ := tcpSend_carries un
    (fun i => t.sendBufs t.qCid (t.qOff.toNat + i)) t sh hslot hmax
  have hqueue := tcpSend_queue un t.qCid tcpAck
    (some fun i => t.sendBufs t.qCid (t.qOff.toNat + i)) (tcpChunk t) t sh
  unfold tcpFlush
  dsimp only
  generalize tcpSend un t.qCid tcpAck (some fun i => t.sendBufs t.qCid (t.qOff.toNat + i))
    (tcpChunk t) t sh = r at hreq hdest hcarried hqueue ⊢
  have hqLen : r.1.qLen = t.qLen := congrArg TcpQueue.qLen hqueue
  have hqOff : r.1.qOff = t.qOff := congrArg TcpQueue.qOff hqueue
  have hqCid : r.1.qCid = t.qCid := congrArg TcpQueue.qCid hqueue
  have hbufs : r.1.sendBufs = t.sendBufs := congrArg TcpQueue.sendBufs hqueue
  -- `qOff` moves to at most `qLen`, without a wrap
  have hnew : (t.qOff + tcpChunk t).toNat = t.qOff.toNat + (tcpChunk t).toNat := by
    rw [BitVec.toNat_add, hchunk]
    omega
  rw [hqLen, hqOff]
  by_cases hall : t.qLen ≤ t.qOff + tcpChunk t
  · -- all of it fits into this chunk
    rw [if_pos hall]
    rw [BitVec.le_def, hnew] at hall
    refine ⟨hreq, hdest, ?_, ⟨?_, Nat.le_refl 0, Nat.zero_le 576⟩, hqCid⟩
    · show t.queue.bytes = r.2.tcpCarried ++ []
      rw [List.append_nil, hcarried]
      show (List.range (t.qLen.toNat - t.qOff.toNat)).map _ = _
      rw [show t.qLen.toNat - t.qOff.toNat = (tcpChunk t).toNat by omega]
      rfl
    · show r.1.qCid < maxTcpConn
      rw [hqCid]
      exact hslot
  -- the rest stays in the buffer behind the moved `qOff`
  · rw [if_neg hall]
    rw [BitVec.le_def, hnew] at hall
    refine ⟨hreq, hdest, ?_, ⟨?_, ?_, ?_⟩, hqCid⟩
    · show t.queue.bytes = r.2.tcpCarried
        ++ (List.range (t.qLen.toNat - (t.qOff + tcpChunk t).toNat)).map
          (fun i => r.1.sendBufs r.1.qCid ((t.qOff + tcpChunk t).toNat + i))
      rw [hcarried, hqCid, hbufs, hnew]
      show (List.range (t.qLen.toNat - t.qOff.toNat)).map _ = _
      rw [show t.qLen.toNat - t.qOff.toNat
        = (tcpChunk t).toNat + (t.qLen.toNat - (t.qOff.toNat + (tcpChunk t).toNat)) by omega,
        List.range_add, List.map_append, List.map_map]
      refine congrArg₂ (· ++ ·) rfl (List.map_congr_left fun i _ => ?_)
      show t.sendBufs t.qCid (t.qOff.toNat + ((tcpChunk t).toNat + i)) = _
      rw [Nat.add_assoc]
    · show r.1.qCid < maxTcpConn
      rw [hqCid]
      exact hslot
    · show (t.qOff + tcpChunk t).toNat ≤ t.qLen.toNat
      omega
    · exact hfits

/-- A maintenance pass without a retransmission flushes what waits, if MAC TX is idle. -/
theorem tcpMaintenance_flush (un : Uninit) {t : TcpState} {sh : Shared}
    (hdue : t.retransDue = false) (hgo : t.qOff < t.qLen ∧ sh.txReq.request = false) :
    tcpMaintenance un t sh = tcpFlush un t sh := by
  unfold tcpMaintenance
  rw [if_neg (by simp [hdue]), if_pos ⟨hgo.1, by simp [hgo.2]⟩]

/-- Otherwise it does nothing. -/
theorem tcpMaintenance_idle (un : Uninit) {t : TcpState} {sh : Shared}
    (hdue : t.retransDue = false) (hno : ¬ (t.qOff < t.qLen ∧ sh.txReq.request = false)) :
    tcpMaintenance un t sh = (t, sh) := by
  unfold tcpMaintenance
  rw [if_neg (by simp [hdue]), if_neg (by simpa using hno)]

/-! ## §3. One owner at a time. -/

/-- The bytes that wait to be sent to `p`. -/
def tcpPending (t : TcpState) (p : TcpPeer) : List U8 :=
  if (t.conn t.qCid).peer = p then t.queue.bytes else []

/-- Nobody else is drawn into the queue while it holds bytes: a connection that is opened
gets neither the owner's slot nor the owner's address, and data for another slot arrives
only when the queue is drained (or full, so that it takes over nothing). -/
def TcpOneOwner (t : TcpState) : TcpEvent → Prop
  | .segment _ rst ipRx frameBuf _ =>
      ∀ cid ∈ tcpTarget rst ipRx frameBuf t,
        (TcpConnects t cid (tcpParse ipRx frameBuf) → t.qDrained = true
          ∨ (t.qCid ≠ cid ∧ (t.conn t.qCid).peer ≠ tcpSender ipRx (tcpParse ipRx frameBuf)))
        ∧ ((t.conn cid).state = .established → 0 < (tcpParse ipRx frameBuf).plen →
          t.qDrained = true ∨ t.qCid = cid ∨ t.qLen = tcpRxPayload)
  | .maintenance _ _ => True

/-- No retransmission is due in a maintenance pass. -/
def TcpNoRetransmission (t : TcpState) : TcpEvent → Prop
  | .segment .. => True
  | .maintenance _ _ => t.retransDue = false

instance (t : TcpState) : ∀ e, Decidable (TcpOneOwner t e)
  | .segment _ rst ipRx frameBuf _ =>
      inferInstanceAs (Decidable (∀ cid ∈ tcpTarget rst ipRx frameBuf t, (_ → _ ∨ _) ∧ (_ → _ → _)))
  | .maintenance .. => inferInstanceAs (Decidable True)

instance (t : TcpState) : ∀ e, Decidable (TcpNoRetransmission t e)
  | .segment .. => inferInstanceAs (Decidable True)
  | .maintenance .. => inferInstanceAs (Decidable (_ = _))

/-- The descriptor is in range and what waits in the queue backs the ledger. -/
structure TcpBacked (t : TcpState) (log : List (Note TcpPeer U8)) : Prop where
  inRange : t.queue.InRange
  backed : Backed (tcpPending t) log

theorem TcpConn.peer_of_core {c d : TcpConn} {state : TcpSt} {peerSeq : U32}
    (h : c.core = { state, peerIp := d.peerIp, peerPort := d.peerPort, peerSeq }) :
    c.peer = d.peer := by
  have hip : c.peerIp = d.peerIp := congrArg TcpCore.peerIp h
  have hport : c.peerPort = d.peerPort := congrArg TcpCore.peerPort h
  unfold TcpConn.peer
  rw [hip, hport]

/-- Nothing waits in a drained queue. -/
theorem tcpPending_of_drained {t : TcpState} (h : t.qDrained = true) (p : TcpPeer) :
    tcpPending t p = [] := by
  unfold tcpPending
  rw [TcpQueue.bytes_of_drained h, ite_self]

/-- The pending bytes are a matter of the queue and of its owner's address. -/
theorem tcpPending_congr {t t' : TcpState} (hqueue : t'.queue = t.queue)
    (hpeer : (t'.conn t.qCid).peer = (t.conn t.qCid).peer) (p : TcpPeer) :
    tcpPending t' p = tcpPending t p := by
  have hqCid : t'.qCid = t.qCid := congrArg TcpQueue.qCid hqueue
  unfold tcpPending
  rw [hqCid, hpeer, hqueue]

/-- An event that leaves the queue and its owner's address alone, and notes nothing. -/
theorem TcpBacked.same {t t' : TcpState} {log : List (Note TcpPeer U8)} (h : TcpBacked t log)
    (hqueue : t'.queue = t.queue) (hpeer : (t'.conn t.qCid).peer = (t.conn t.qCid).peer) :
    TcpBacked t' (log ++ []) := by
  rw [List.append_nil]
  refine ⟨?_, h.backed.congr (tcpPending_congr hqueue hpeer)⟩
  rw [hqueue]
  exact h.inRange

theorem TcpBacked.maintenance {t : TcpState} {log : List (Note TcpPeer U8)} (un : Uninit)
    (sh : Shared) (h : TcpBacked t log) (hdue : t.retransDue = false) :
    TcpBacked (tcpMaintenance un t sh).1 (log ++ tcpNotes t (.maintenance un sh)) := by
  have hcore := tcpMaintenance_core un t sh
  have hpeer : ∀ j, ((tcpMaintenance un t sh).1.conn j).peer = (t.conn j).peer :=
    fun j => TcpConn.peer_of_core (hcore j)
  by_cases hgo : t.qOff < t.qLen ∧ sh.txReq.request = false
  · have hflush := tcpMaintenance_flush un hdue hgo
    obtain ⟨hreq, hdest, hbytes, hrange, hqCid⟩ := tcpFlush_spec un sh h.inRange
    have hnote : tcpNotes t (.maintenance un sh)
        = [.took (tcpFlush un t sh).2.tcpDestination (tcpFlush un t sh).2.tcpCarried] := by
      show (if _ then _ else _) = _
      rw [hflush]
      exact if_pos ⟨hgo.2, hreq⟩
    rw [hflush] at hpeer
    rw [hnote, hflush]
    refine ⟨hrange, h.backed.took ?_ ?_⟩
    · unfold tcpPending
      rw [hqCid, hpeer, hdest, if_pos rfl, if_pos rfl]
      exact hbytes
    · intro p hp
      unfold tcpPending
      rw [hqCid, hpeer, if_neg (hdest ▸ Ne.symm hp), if_neg (hdest ▸ Ne.symm hp)]
  · have hidle := tcpMaintenance_idle un hdue hgo
    -- nothing was posted, so the ledger notes nothing
    have hnote : tcpNotes t (.maintenance un sh) = [] := by
      show (if _ then _ else _) = _
      rw [hidle]
      refine if_neg ?_
      rintro ⟨hno, hyes⟩
      rw [hno] at hyes
      cases hyes
    rw [hnote]
    refine h.same ?_ (hpeer _)
    rw [hidle]

/-- The ledger opens an account for a sender that connects. -/
theorem TcpBacked.connects {t t' : TcpState} {log : List (Note TcpPeer U8)} {cid : Nat}
    {p : TcpPeer} (h : TcpBacked t log) (hqueue : t'.queue = t.queue)
    (hother : ∀ j, j ≠ cid → (t'.conn j).core = (t.conn j).core)
    (howner : t.qDrained = true ∨ (t.qCid ≠ cid ∧ (t.conn t.qCid).peer ≠ p)) :
    TcpBacked t' (log ++ [.opened p]) := by
  have hqCid : t'.qCid = t.qCid := congrArg TcpQueue.qCid hqueue
  refine ⟨by rw [hqueue]; exact h.inRange, ?_⟩
  rcases howner with hd | ⟨hne, hpeer⟩
  -- drained: nothing waits for anybody, before and after
  · have hd' : t'.qDrained = true := by
      rw [TcpState.qDrained_iff] at hd ⊢
      exact (congrArg TcpQueue.qLen hqueue).trans (hd.trans (congrArg TcpQueue.qOff hqueue).symm)
    apply h.backed.opened (tcpPending_of_drained hd' p)
    intro j _
    rw [tcpPending_of_drained hd', tcpPending_of_drained hd]
  -- otherwise the owner is another slot, with another address
  · have hsame := TcpConn.peer_of_core (hother t.qCid hne)
    refine h.backed.opened ?_ fun j _ => tcpPending_congr hqueue hsame j
    unfold tcpPending
    rw [hqCid, hsame, if_neg hpeer]

/-- Data of the queue's owner, or for a full queue. -/
theorem TcpBacked.receives {t t' : TcpState} {log : List (Note TcpPeer U8)} {cid : Nat}
    (payload : Nat → U8) {payLen : U16} (h : TcpBacked t log) (hcid : cid < maxTcpConn)
    (hlen : 0 < payLen) (hqueue : t'.queue = (tcpQueue cid payload payLen t).queue)
    (hpeers : ∀ j, (t'.conn j).peer = (t.conn j).peer)
    (howner : t.qDrained = true ∨ t.qCid = cid ∨ t.qLen = tcpRxPayload) :
    TcpBacked t' (log ++ [.put (t.conn cid).peer
      ((List.range (tcpTakesOver t cid payLen)).map payload)]) := by
  by_cases hmine : t.qDrained = true ∨ t.qCid = cid
  · obtain ⟨hrange, hqCid, hbytes⟩ := tcpQueue_owner payload hcid hlen h.inRange hmine
    have hslot : t'.qCid = cid := (congrArg TcpQueue.qCid hqueue).trans hqCid
    refine ⟨by rw [hqueue]; exact hrange, h.backed.put ?_ ?_⟩
    · -- what waited is the owner's own, or nothing waited
      have hwaited : tcpPending t (t.conn cid).peer = t.queue.bytes := by
        rcases hmine with hd | hq
        · rw [tcpPending_of_drained hd, TcpQueue.bytes_of_drained hd]
        · unfold tcpPending
          rw [hq, if_pos rfl]
      rw [hwaited]
      unfold tcpPending
      rw [hslot, hpeers, if_pos rfl, hqueue, hbytes]
    · intro p hp
      -- nobody else had bytes waiting
      have hnone : tcpPending t p = [] := by
        rcases hmine with hd | hq
        · exact tcpPending_of_drained hd p
        · unfold tcpPending
          rw [hq, if_neg (Ne.symm hp)]
      rw [hnone]
      unfold tcpPending
      rw [hslot, hpeers, if_neg (Ne.symm hp)]
  · have hd : t.qDrained = false := by
      simpa using fun hd => hmine (.inl hd)
    -- another slot's data, but the queue is full
    have hfull : t.qLen = tcpRxPayload :=
      (howner.resolve_left (fun hd => hmine (.inl hd))).resolve_left (fun hq => hmine (.inr hq))
    obtain ⟨hzero, hsame⟩ := tcpQueue_full payload hcid hlen h.inRange hd hfull
    have hq : t'.queue = t.queue := hqueue.trans hsame
    refine ⟨by rw [hq]; exact h.inRange, h.backed.put ?_ fun p _ => tcpPending_congr hq (hpeers _) p⟩
    rw [hzero, tcpPending_congr hq (hpeers _)]
    exact (List.append_nil _).symm

theorem TcpBacked.segment {t : TcpState} {log : List (Note TcpPeer U8)} (un : Uninit) (rst : Bool)
    (ipRx : IpRx) (frameBuf : Mem U32) (sh : Shared) (h : TcpBacked t log)
    (howner : TcpOneOwner t (.segment un rst ipRx frameBuf sh)) :
    TcpBacked (tcpRxProcess un rst ipRx frameBuf t sh).1
      (log ++ tcpNotes t (.segment un rst ipRx frameBuf sh)) := by
  unfold tcpNotes
  dsimp only
  rcases tcpRx_cases un rst ipRx frameBuf t sh with
    ⟨hnone, _, hqueue, hcores⟩ | ⟨cid, htarget, hcid, hother, hstep⟩
  · rw [hnone]
    obtain ⟨state, hcore, _⟩ := hcores t.qCid
    exact h.same hqueue (TcpConn.peer_of_core hcore)
  · obtain ⟨hopen, hdata⟩ := howner cid htarget
    rw [htarget]
    dsimp only
    -- the addresses stay what they are unless the sender connects
    have hpeers : ∀ {state peerSeq}, ((tcpRxProcess un rst ipRx frameBuf t sh).1.conn cid).core
          = { state, peerIp := (t.conn cid).peerIp, peerPort := (t.conn cid).peerPort, peerSeq } →
        ∀ j, ((tcpRxProcess un rst ipRx frameBuf t sh).1.conn j).peer = (t.conn j).peer := by
      intro state peerSeq hcore j
      by_cases hj : j = cid
      · rw [hj]
        exact TcpConn.peer_of_core hcore
      · exact TcpConn.peer_of_core (hother j hj)
    cases hstep with
    | connects hconn hcore hqueue =>
        rw [if_pos hconn]
        exact h.connects hqueue hother (hopen hconn)
    | receives hest hcore hqueue =>
        rw [if_neg (not_tcpConnects _ (by rw [hest]; decide) (by rw [hest]; decide))]
        by_cases hlen : 0 < (tcpParse ipRx frameBuf).plen
        · rw [if_pos hlen] at hqueue
          have hsender := tcpFind_sender (tcpTarget_some htarget)
            (show (t.conn cid).state ≠ .free by rw [hest]; decide)
          rw [if_pos ⟨hest, hlen⟩, hsender]
          exact h.receives _ hcid hlen hqueue (hpeers hcore) (hdata hest hlen)
        -- an ACK without data is not queued
        · rw [if_neg hlen] at hqueue
          rw [if_neg (fun hc => hlen hc.2)]
          exact h.same hqueue (hpeers hcore _)
    | moves hconn hest state _ hcore hqueue =>
        rw [if_neg hconn, if_neg (fun hc => hest hc.1)]
        exact h.same hqueue (hpeers hcore _)

/-! ## §4. Runs. -/

/-- **Echo fidelity**: in every run from the initial state without retransmissions in which
the queue has one owner at a time, every peer has been sent, in order, a prefix of the
bytes that were taken over from it since it last connected. -/
theorem tcp_echo_faithful (es : List TcpEvent)
    (hrun : Along tcpMachine (fun t e => TcpNoRetransmission t e ∧ TcpOneOwner t e) {} es)
    (p : TcpPeer) :
    (account p (tcpMachine.record tcpNotes {} es)).took
      <+: (account p (tcpMachine.record tcpNotes {} es)).put := by
  have hstart : TcpBacked {} [] :=
    ⟨⟨by decide, Nat.le_refl _, by decide⟩, .nil (tcpPending_of_drained rfl)⟩
  have hstep : ∀ t log e, TcpBacked t log → TcpNoRetransmission t e ∧ TcpOneOwner t e →
      TcpBacked (tcpMachine t e).1 (log ++ tcpNotes t e) := by
    intro t log e h hC
    cases e with
    | segment un rst ipRx frameBuf sh => exact h.segment un rst ipRx frameBuf sh hC.2
    | maintenance un sh => exact h.maintenance un sh hC.1
  exact (Along.invariant_record hstep es hstart hrun).backed.in_order p

/-! ## §5. Two peers. -/

/-- The handshake of 192.168.100.`host`:5000; every slot starts at the same SEQ. -/
def tcpHandshake (host : U8) : List TcpEvent :=
  [plainSegment (0xC0A864#24 ++ host) 5000 100 0 tcpSyn [],
    plainSegment (0xC0A864#24 ++ host) 5000 101 0x12345679 tcpAck []]

/-- One byte from 192.168.100.`host`:5000. -/
def tcpOneByte (host byte : U8) : TcpEvent :=
  plainSegment (0xC0A864#24 ++ host) 5000 101 0x12345679 0x18 [byte]

/-- Both peers send while the queue is their own: each gets its byte back. -/
theorem tcp_two_peers_served :
    (account { ip := 0xC0A86403, port := 5000 } (tcpMachine.record tcpNotes {}
        (tcpHandshake 3 ++ tcpHandshake 4 ++ [tcpOneByte 3 0x41, .maintenance .zero {},
          tcpOneByte 4 0x42, .maintenance .zero {}]))).took
      <+: (account { ip := 0xC0A86403, port := 5000 } (tcpMachine.record tcpNotes {}
        (tcpHandshake 3 ++ tcpHandshake 4 ++ [tcpOneByte 3 0x41, .maintenance .zero {},
          tcpOneByte 4 0x42, .maintenance .zero {}]))).put :=
  tcp_echo_faithful _ (by decide +kernel) _

/-- Both peers send before the queue drains: the first one is sent its byte and a byte that
nobody sent, and the byte of the second one is never sent. -/
theorem tcp_echo_mixed :
    ∃ es : List TcpEvent,
      es = tcpHandshake 3 ++ tcpHandshake 4 ++ [tcpOneByte 3 0x41, tcpOneByte 4 0x42,
        .maintenance .zero {}, .maintenance .zero {}]
      ∧ Along tcpMachine TcpNoRetransmission {} es
      ∧ account { ip := 0xC0A86403, port := 5000 } (tcpMachine.record tcpNotes {} es)
        = { put := [0x41], took := [0x41, 0] }
      ∧ account { ip := 0xC0A86404, port := 5000 } (tcpMachine.record tcpNotes {} es)
        = { put := [0x42], took := [] }
      ∧ ¬ ([0x41, 0] : List U8) <+: [0x41] := by
  refine ⟨_, rfl, by decide +kernel, by decide +kernel, by decide +kernel, by decide⟩

end GigabitTcp
