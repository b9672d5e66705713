/-
  GigabitTcp.Tcp.Windows — the send windows, and what `tcp_maintenance` sends.

  `tcp_reno_on_ack` keeps `cwnd` and `flight_size`, and every segment sets `peer_window`; what
  sends data is `tcp_maintenance`, which takes a chunk of the echo queue or a saved segment.
  It does not look at the windows.  So the bytes in flight stay within them exactly if the
  data that is due happens to fit.

  Main results:
    * `tcpMaintenance_data`   — the data a call sends is the data that was due,
    * `tcp_window_iff`        — after any run, the windows are respected exactly if it fits,
    * `tcp_window_ignored`    — a byte is sent to a peer whose window is closed.
-/
import GigabitTcp.Tcp.Streams

namespace GigabitTcp

open Hw Machine

/-! ## §1. What is due. -/

/-- The bytes that are sent and not acknowledged. -/
def TcpConn.unacked (c : TcpConn) : U32 := c.seq - c.lastAckRecv

/-- Within the congestion window and the window of the peer. -/
def TcpConn.WithinWindows (c : TcpConn) : Prop := c.unacked ≤ c.cwnd ∧ c.unacked ≤ c.peerWindow

/-- There is room for `n` more bytes within the windows. -/
def TcpConn.HasWindow (c : TcpConn) (n : U16) : Prop :=
  c.unacked + n.setWidth 32 ≤ c.cwnd ∧ c.unacked + n.setWidth 32 ≤ c.peerWindow

/-- The slot that `tcp_maintenance` sends for. -/
def TcpState.sender (t : TcpState) : Nat := if t.retransDue then t.retransCid else t.qCid

/-- The data that `tcp_maintenance` is due to send: a saved segment of an established
connection, else the next chunk of the queue. -/
def TcpState.dataDue (t : TcpState) : U16 :=
  if t.retransDue then
    if (t.conn t.retransCid).state = .established then (t.conn t.retransCid).retransLen else 0
  else tcpChunk t

/-- A maintenance pass that requests a data segment leaves its connection within the windows. -/
def TcpWindowRespected (t : TcpState) : TcpEvent → Prop
  | .segment _ _ _ _ _ => True
  | .maintenance un sh =>
      let r := tcpMaintenance un t sh
      sh.txReq.request = false → r.2.txReq.request = true → r.2.tcpFlags = tcpAck →
        (r.1.conn t.sender).WithinWindows

/-- The data that is due fits into the windows of its connection. -/
def TcpFitsWindow (t : TcpState) : TcpEvent → Prop
  | .segment _ _ _ _ _ => True
  | .maintenance _ sh =>
      sh.txReq.request = false → 0 < t.dataDue → (t.conn t.sender).HasWindow t.dataDue

/-! ## §2. One call. -/

/-- What `tcp_send` of data does to the windows of its connection: only the position moves. -/
theorem tcpSendConn_hasWindow (c : TcpConn) (n : U16) :
    (tcpSendConn c tcpAck n).WithinWindows ↔ c.HasWindow n := by
  have hseq := tcpSendConn_seq c n
  have hsame : (tcpSendConn c tcpAck n).lastAckRecv = c.lastAckRecv
      ∧ (tcpSendConn c tcpAck n).cwnd = c.cwnd
      ∧ (tcpSendConn c tcpAck n).peerWindow = c.peerWindow := by
    unfold tcpSendConn
    dsimp only
    split_ifs <;> exact ⟨rfl, rfl, rfl⟩
  have hunacked : (tcpSendConn c tcpAck n).unacked = c.unacked + n.setWidth 32 := by
    unfold TcpConn.unacked
    rw [hseq, hsame.1, BitVec.sub_eq_add_neg, BitVec.sub_eq_add_neg, BitVec.add_assoc, BitVec.add_assoc,
      BitVec.add_comm (n.setWidth 32)]
  unfold TcpConn.WithinWindows TcpConn.HasWindow
  rw [hunacked, hsame.2.1, hsame.2.2]

/-- What a data segment of `tcp_send` shows: it is requested, and the record moves on. -/
theorem tcpSend_data (un : Uninit) {cid : Nat} (payload : Nat → U8) {n : U16} (t : TcpState) (sh : Shared)
    (hcid : cid < maxTcpConn) (hlen : n.toNat ≤ 576) :
    (tcpSend un cid tcpAck (some payload) n t sh).2.txReq.request = true
      ∧ (tcpSend un cid tcpAck (some payload) n t sh).2.tcpFlags = tcpAck
      ∧ (tcpSend un cid tcpAck (some payload) n t sh).1.conn cid = tcpSendConn (t.conn cid) tcpAck n := by
  obtain ⟨hreq, -, -, -, -, hflags⟩ := tcpSend_frame un tcpAck (some payload) t sh hcid hlen
  refine ⟨hreq, hflags, ?_⟩
  rw [tcpSend_conn un tcpAck (some payload) n t sh hcid, Mem.set_same]

/-- A retransmission sends the saved segment of an established connection as data; what it
sends in the other states has other flags. -/
theorem tcpRetransmit_data (un : Uninit) {t : TcpState} {sh : Shared} (h : TcpBounded t)
    (hidle : sh.txReq.request = false) (hdue : t.retransDue = true) :
    (0 < t.dataDue ∧ (tcpRetransmit un t sh).2.txReq.request = true
        ∧ (tcpRetransmit un t sh).2.tcpFlags = tcpAck
        ∧ (tcpRetransmit un t sh).1.conn t.sender = tcpSendConn (t.conn t.sender) tcpAck t.dataDue)
      ∨ (t.dataDue = 0 ∧ ¬ ((tcpRetransmit un t sh).2.txReq.request = true
        ∧ (tcpRetransmit un t sh).2.tcpFlags = tcpAck)) := by
  have hsender : t.sender = t.retransCid := if_pos hdue
  have hdata : t.dataDue
      = if (t.conn t.retransCid).state = .established then (t.conn t.retransCid).retransLen else 0 := if_pos hdue
  have hempty : (0 : U16).toNat ≤ 576 := by decide
  rw [hsender, hdata]
  have hquiet : ¬ (sh.txReq.request = true ∧ sh.tcpFlags = tcpAck) := by
    rw [hidle]
    exact fun hno => absurd hno.1 Bool.false_ne_true
  have hother : ∀ flags, flags ≠ tcpAck →
      ¬ ((tcpSend un t.retransCid flags none 0 t sh).2.txReq.request = true
        ∧ (tcpSend un t.retransCid flags none 0 t sh).2.tcpFlags = tcpAck) := by
    rintro flags hne ⟨-, hsame⟩
    rw [(tcpSend_frame un flags none t sh h.due hempty).2.2.2.2.2] at hsame
    exact hne hsame
  unfold tcpRetransmit
  dsimp only
  cases hstate : (t.conn t.retransCid).state with
  | free => exact .inr ⟨if_neg (by decide), hquiet⟩
  | listen => exact .inr ⟨if_neg (by decide), hquiet⟩
  | synRcvd => exact .inr ⟨if_neg (by decide), hother _ (by decide)⟩
  | lastAck => exact .inr ⟨if_neg (by decide), hother _ (by decide)⟩
  | established =>
      rw [if_pos rfl]
      by_cases hlen : 0 < (t.conn t.retransCid).retransLen
      · rw [if_pos hlen]
        have hfits : (t.conn t.retransCid).retransLen.toNat ≤ 576 := by
          have := h.saved t.retransCid
          omega
        obtain ⟨hreq, hflags, hconn⟩ := tcpSend_data un (t.retransBuf t.retransCid) t sh h.due hfits
        exact .inl ⟨hlen, hreq, hflags, hconn⟩
      · rw [if_neg hlen]
        refine .inr ⟨?_, hquiet⟩
        rw [BitVec.lt_def] at hlen
        exact BitVec.eq_of_toNat_eq (by have hzero : (0 : U16).toNat = 0 := rfl; omega)

/-- **A call of `tcp_maintenance`** with a free mailbox: it sends the data that is due, or no
data segment at all. -/
theorem tcpMaintenance_data (un : Uninit) {t : TcpState} {sh : Shared} (h : TcpBounded t)
    (hidle : sh.txReq.request = false) :
    (0 < t.dataDue ∧ (tcpMaintenance un t sh).2.txReq.request = true
        ∧ (tcpMaintenance un t sh).2.tcpFlags = tcpAck
        ∧ (tcpMaintenance un t sh).1.conn t.sender = tcpSendConn (t.conn t.sender) tcpAck t.dataDue)
      ∨ (t.dataDue = 0 ∧ ¬ ((tcpMaintenance un t sh).2.txReq.request = true
        ∧ (tcpMaintenance un t sh).2.tcpFlags = tcpAck)) := by
  cases hdue : t.retransDue with
  | true =>
      have hcall : tcpMaintenance un t sh = tcpRetransmit un t sh :=
        if_pos ⟨hdue, by rw [hidle]; exact Bool.false_ne_true⟩
      rw [hcall]
      exact tcpRetransmit_data un h hidle hdue
  | false =>
      have hsender : t.sender = t.qCid := if_neg (by rw [hdue]; exact Bool.false_ne_true)
      have hdata : t.dataDue = tcpChunk t := if_neg (by rw [hdue]; exact Bool.false_ne_true)
      have hchunk := toNat_tcpChunk h.queue
      have hwaits : t.qOff < t.qLen ↔ 0 < t.qLen.toNat - t.qOff.toNat := by
        rw [BitVec.lt_def]
        omega
      by_cases hgo : t.qOff < t.qLen
      · left
        obtain ⟨qLen, qOff, hflush⟩ := tcpFlush_statics un t sh
        have hfits : (tcpChunk t).toNat ≤ 576 := by omega
        obtain ⟨hreq, hflags, hconn⟩ := tcpSend_data un
          (fun i => t.sendBufs t.qCid (t.qOff.toNat + i)) t sh h.queue.slot hfits
        rw [tcpMaintenance_flush un hdue ⟨hgo, hidle⟩, hflush, hsender, hdata]
        refine ⟨?_, hreq, hflags, hconn⟩
        have hpos := hwaits.mp hgo
        rw [BitVec.lt_def]
        show 0 < (tcpChunk t).toNat
        omega
      · right
        rw [tcpMaintenance_idle un hdue (fun hboth => hgo hboth.1), hdata]
        refine ⟨BitVec.eq_of_toNat_eq ?_, ?_⟩
        · show (tcpChunk t).toNat = 0
          rw [hchunk]
          have hnone := mt hwaits.mpr hgo
          omega
        · rw [hidle]
          exact fun hno => absurd hno.1 Bool.false_ne_true

/-! ## §3. Runs. -/

/-- **In a bounded state** the windows are respected by a call exactly if the data fits. -/
theorem tcpWindowRespected_iff {t : TcpState} (h : TcpBounded t) (e : TcpEvent) :
    TcpWindowRespected t e ↔ TcpFitsWindow t e := by
  cases e with
  | segment un rst ipRx frameBuf sh => exact Iff.rfl
  | maintenance un sh =>
      unfold TcpWindowRespected TcpFitsWindow
      dsimp only
      apply forall_congr'
      intro hidle
      rcases tcpMaintenance_data un h hidle with ⟨hpos, hreq, hflags, hconn⟩ | ⟨hzero, hnone⟩
      · rw [hconn, tcpSendConn_hasWindow]
        exact ⟨fun hall _ => hall hreq hflags, fun hall _ _ => hall hpos⟩
      · refine ⟨fun _ hpos => ?_, fun _ hreq hflags => absurd ⟨hreq, hflags⟩ hnone⟩
        rw [hzero] at hpos
        exact absurd hpos (by decide)

/-- **The sliding window**: after any run, a call of `tcp_maintenance` that sends data leaves
the unacknowledged bytes within `cwnd` and `peer_window` exactly if the data that is due fits
into what is left of both; and so for all calls of a run. -/
theorem tcp_window_iff (es : List TcpEvent) :
    (∀ e, TcpWindowRespected (tcpMachine.after {} es) e ↔ TcpFitsWindow (tcpMachine.after {} es) e)
      ∧ (Along tcpMachine TcpWindowRespected {} es ↔ Along tcpMachine TcpFitsWindow {} es) := by
  have hiff : ∀ js e, TcpWindowRespected (tcpMachine.after {} js) e
      ↔ TcpFitsWindow (tcpMachine.after {} js) e :=
    fun js e => tcpWindowRespected_iff (tcpBounded_after js) e
  exact ⟨hiff es, Along.iff_of_reached hiff es⟩

/-- One byte of 192.168.100.3, which closes its window with it. -/
def tcpClosedWindow : TcpEvent :=
  .segment .zero true
    { protocol := ipProtoTcp, srcIp := 0xC0A86403, dstIp := boardIp, valid := true, totalLen := 41 }
    (fun j => (List.replicate 5 0 ++ [5000#16 ++ tcpPortEcho, 101, 0x12345679, 0x50180000, 0,
      0x41000000]).getD j 0) {}

/-- The byte is echoed into the closed window. -/
theorem tcp_window_ignored :
    let t := tcpMachine.after {} (tcpHandshake 3 ++ [tcpClosedWindow])
    let c := (tcpMaintenance .zero t {}).1.conn 0
    ¬ TcpWindowRespected t (.maintenance .zero {})
      ∧ (tcpMaintenance .zero t {}).2.tcpCarried = [0x41]
      ∧ c.unacked = 1 ∧ c.peerWindow = 0 := by
  intro t c
  have hsent : (tcpMaintenance .zero t {}).2.txReq.request = true
      ∧ (tcpMaintenance .zero t {}).2.tcpFlags = tcpAck := by decide +kernel
  have hclosed : c.unacked = 1 ∧ c.peerWindow = 0 := by decide +kernel
  have hslot : t.sender = 0 := by decide +kernel
  refine ⟨?_, by decide +kernel, hclosed⟩
  intro hall
  have hwithin := (hall rfl hsent.1 hsent.2).2
  rw [hslot] at hwithin
  change c.unacked ≤ c.peerWindow at hwithin
  rw [hclosed.1, hclosed.2] at hwithin
  exact absurd hwithin (by decide)

end GigabitTcp
