/-
  GigabitTcp.Tcp.Fifo — the echo queue of one connection as a bounded queue.

  With a single owner, `tcp_queue` and `tcp_maintenance` are the two operations of a buffer of
  576 bytes that is used from its start again when it is drained, and that leaves in frames of
  at most 536 bytes; the number of a frame is the `seq` of the connection.  The frames are read
  from the transmit buffer.

  Main results:
    * `TcpEchoes.step`    — one call does to the statics what the operation does to the queue,
    * `tcp_echo_fifo`     — conservation, acceptance, chunks and numbers over every run.
-/
import GigabitTcp.Tcp.Streams
import GigabitTcp.Hw.LinearFifo

namespace GigabitTcp

open Hw Machine

/-! ## §1. The calls and what they show. -/

/-- A call for the connection that owns the queue. -/
inductive TcpEchoCall where
  /-- `tcp_queue` with `payLen` bytes of `payload`. -/
  | queue (payload : Nat → U8) (payLen : U16)
  /-- `tcp_maintenance`. -/
  | maintenance (un : Uninit) (sh : Shared)

/-- The calls for slot `cid` as a machine; it puts out the frames that are requested. -/
def tcpEcho (cid : Nat) : Machine TcpState TcpEchoCall (List (StreamFrame 32 U8))
  | t, .queue payload payLen => (tcpQueue cid payload payLen t, [])
  | t, .maintenance un sh =>
      let r := tcpMaintenance un t sh
      (r.1, if r.2.txReq.request then [r.2.tcpFrame] else [])

/-- The payload sizes and mailboxes that a call may come with. -/
def TcpEchoCall.Allowed : TcpEchoCall → Prop
  | .queue _ payLen => 1 ≤ payLen.toNat ∧ payLen.toNat ≤ 576
  | .maintenance _ sh => sh.txReq.request = false

instance : ∀ call : TcpEchoCall, Decidable call.Allowed
  | .queue .. => inferInstanceAs (Decidable (_ ∧ _))
  | .maintenance .. => inferInstanceAs (Decidable (_ = _))

/-- The bytes that a call stores in the echo buffer: from the place the queue stood at to the
new `tcp_q_len`. -/
def tcpStored (cid : Nat) (t : TcpState) : TcpEchoCall → List U8
  | .queue payload payLen =>
      let t' := tcpQueue cid payload payLen t
      (List.range (t'.qLen.toNat - tcpQueueUsed t)).map
        (fun i => t'.sendBufs cid (tcpQueueUsed t + i))
  | .maintenance _ _ => []

/-- What one call has to do. -/
def TcpEchoStep (cid : Nat) (t : TcpState) : TcpEchoCall → Prop
  | .queue payload payLen =>
      tcpStored cid t (.queue payload payLen)
        = (List.range (min (576 - tcpQueueUsed t) payLen.toNat)).map payload
  | .maintenance un sh =>
      (tcpEcho cid t (.maintenance un sh)).2
        = if t.queue.bytes.isEmpty then []
          else [{ seq := (t.conn cid).seq, items := t.queue.bytes.take 536, last := false }]

/-! ## §2. The abstract queue. -/

/-- The queue of the connection, with its buffer and its chunks. -/
abbrev tcpFifo : Machine (LinearFifo 32 U8) (FifoOp U8) (List (StreamFrame 32 U8)) :=
  LinearFifo.step 576 536

/-- The operation that a call stands for. -/
def TcpEchoCall.op : TcpEchoCall → FifoOp U8
  | .queue payload payLen => .put ((List.range payLen.toNat).map payload)
  | .maintenance _ _ => .take

/-- The queue that the statics hold for slot `cid`. -/
def tcpFifoOf (cid : Nat) (t : TcpState) : LinearFifo 32 U8 :=
  { used := t.qLen.toNat, waiting := t.queue.bytes, next := (t.conn cid).seq }

/-- The queue is the connection's own, and no retransmission is due; that the marks are in range
holds in every reachable state (`tcpBounded_after`). -/
structure TcpEchoes (cid : Nat) (t : TcpState) : Prop where
  slot : cid < maxTcpConn
  inRange : t.queue.InRange
  notDue : t.retransDue = false
  owner : t.qDrained = true ∨ t.qCid = cid

variable {cid : Nat} {t : TcpState}

/-- The queue is drained exactly if no byte waits. -/
theorem TcpQueue.bytes_isEmpty (h : t.queue.InRange) : t.queue.bytes.isEmpty = t.qDrained := by
  have hsent : t.qOff.toNat ≤ t.qLen.toNat := h.sent
  cases hd : t.qDrained with
  | true => rw [TcpQueue.bytes_of_drained hd]; rfl
  | false =>
      rw [List.isEmpty_eq_false_iff, TcpQueue.bytes_ne_nil_iff, BitVec.lt_def]
      have hne : t.qLen ≠ t.qOff := by
        rw [Ne, ← TcpState.qDrained_iff, hd]
        exact Bool.false_ne_true
      have hne' : t.qLen.toNat ≠ t.qOff.toNat := fun heq => hne (BitVec.eq_of_toNat_eq heq)
      omega

theorem tcpFifoOf_level (h : t.queue.InRange) : (tcpFifoOf cid t).level = tcpQueueUsed t := by
  unfold LinearFifo.level tcpQueueUsed
  show (if t.queue.bytes.isEmpty = true then 0 else t.qLen.toNat) = _
  rw [TcpQueue.bytes_isEmpty h]

/-- What the abstract queue accepts is what fits. -/
theorem tcpFifoOf_accepts (cid : Nat) (h : t.queue.InRange) (payload : Nat → U8) (n : Nat) :
    (tcpFifoOf cid t).accepts 576 ((List.range n).map payload)
      = (List.range (min (576 - tcpQueueUsed t) n)).map payload := by
  unfold LinearFifo.accepts
  rw [tcpFifoOf_level h, take_map_range]

/-! ## §3. One call. -/

/-- `tcp_queue` behind the bytes that wait. -/
theorem tcpQueue_qLen (payload : Nat → U8) {payLen : U16} (h : TcpEchoes cid t) (hlen : 0 < payLen) :
    (tcpQueue cid payload payLen t).qLen.toNat
      = tcpQueueUsed t + tcpTakesOver t cid payLen := by
  obtain ⟨hrange, -, -⟩ := tcpQueueRestart_spec h.slot h.inRange
  have hnew := toNat_qLen_add_room payLen hrange
  have hqueue := congrArg TcpQueue.qLen (tcpQueue_eq payload h.slot hlen (t := t))
  show (tcpQueue cid payload payLen t).queue.qLen.toNat = _
  rw [hqueue]
  show (_ + _ : U16).toNat = _
  rw [hnew, tcpQueueRestart_qLen]
  rfl

/-- **A call of `tcp_queue`** puts the bytes that fit behind those that wait. -/
theorem TcpEchoes.queue (h : TcpEchoes cid t) (payload : Nat → U8) {payLen : U16}
    (hlen : 0 < payLen) :
    TcpEchoes cid (tcpQueue cid payload payLen t)
      ∧ tcpFifoOf cid (tcpQueue cid payload payLen t)
        = (tcpFifo (tcpFifoOf cid t) (.put ((List.range payLen.toNat).map payload))).1
      ∧ TcpEchoStep cid t (.queue payload payLen) := by
  obtain ⟨hrange, howner, hbytes⟩ := tcpQueue_owner payload h.slot hlen h.inRange h.owner
  have htakes := tcpTakesOver_eq payLen h.slot h.inRange
  have hqLen := tcpQueue_qLen payload h hlen
  have haccepts := tcpFifoOf_accepts cid h.inRange payload payLen.toNat
  rw [Nat.min_comm] at htakes
  refine ⟨⟨h.slot, hrange, (tcpQueue_due cid payload payLen t).1.trans h.notDue, .inr howner⟩, ?_, ?_⟩
  · show LinearFifo.mk _ _ _ = LinearFifo.mk _ _ _
    rw [haccepts, tcpFifoOf_level h.inRange, hqLen, hbytes, htakes, tcpQueue_conn, List.length_map,
      List.length_range]
    rfl
  · show (List.range ((tcpQueue cid payload payLen t).qLen.toNat - tcpQueueUsed t)).map _ = _
    rw [hqLen, Nat.add_sub_cancel_left, htakes]
    apply List.map_congr_left
    intro i hi
    rw [List.mem_range, ← htakes] at hi
    have hbufs := congrArg TcpQueue.sendBufs (tcpQueue_eq payload h.slot hlen (t := t))
    show (tcpQueue cid payload payLen t).queue.sendBufs cid _ = _
    rw [hbufs]
    show (if cid = cid then _ else _ : Mem U8) _ = _
    rw [if_pos rfl, tcpQueueRestart_qLen]
    exact Mem.fill_at _ _ hi

theorem TcpQueue.length_bytes (q : TcpQueue) : q.bytes.length = q.qLen.toNat - q.qOff.toNat := by
  unfold TcpQueue.bytes
  rw [List.length_map, List.length_range]

/-- A flush that sends all of the queue leaves the buffer empty, another one leaves `tcp_q_len`. -/
theorem tcpFlush_qLen (un : Uninit) (sh : Shared) (h : t.queue.InRange) :
    (tcpFlush un t sh).1.qLen.toNat
      = if (t.queue.bytes.drop 536).isEmpty then 0 else t.qLen.toNat := by
  have hchunk := toNat_tcpChunk h
  have hfits : t.qLen.toNat ≤ 576 := h.fits
  have hsent : t.qOff.toNat ≤ t.qLen.toNat := h.sent
  have hqueue := tcpSend_queue un t.qCid tcpAck
    (some fun i => t.sendBufs t.qCid (t.qOff.toNat + i)) (tcpChunk t) t sh
  have hrest : (t.queue.bytes.drop 536).isEmpty = true ↔ t.qLen ≤ t.qOff + tcpChunk t := by
    have hlength : t.queue.bytes.length = t.qLen.toNat - t.qOff.toNat := TcpQueue.length_bytes _
    rw [List.isEmpty_iff_length_eq_zero, List.length_drop, hlength, BitVec.le_def, BitVec.toNat_add]
    omega
  unfold tcpFlush
  dsimp only
  generalize tcpSend un t.qCid tcpAck (some fun i => t.sendBufs t.qCid (t.qOff.toNat + i))
    (tcpChunk t) t sh = r at hqueue ⊢
  have hqLen : r.1.qLen = t.qLen := congrArg TcpQueue.qLen hqueue
  have hqOff : r.1.qOff = t.qOff := congrArg TcpQueue.qOff hqueue
  rw [hqLen, hqOff]
  by_cases hall : t.qLen ≤ t.qOff + tcpChunk t
  · rw [if_pos hall, if_pos (hrest.mpr hall)]
    rfl
  · rw [if_neg hall, if_neg (fun hempty => hall (hrest.mp hempty))]

/-- The front of a list, when its length is given. -/
theorem append_eq_take_drop {α : Type} {l a b : List α} {n : Nat} (h : l = a ++ b)
    (hlen : a.length = min n l.length) : a = l.take n ∧ b = l.drop n := by
  rw [h, List.length_append] at hlen
  rw [h]
  rcases Nat.lt_or_ge a.length n with hlt | hge
  · have hnil : b = [] := List.eq_nil_of_length_eq_zero (by omega)
    rw [hnil, List.append_nil]
    exact ⟨(List.take_of_length_le (by omega)).symm, (List.drop_of_length_le (by omega)).symm⟩
  · have hn : n = a.length := by omega
    rw [hn]
    exact ⟨(List.take_left).symm, (List.drop_left).symm⟩

/-- **A flush** sends the front of the queue as one frame at `seq`. -/
theorem TcpEchoes.flush (h : TcpEchoes cid t) (un : Uninit) (sh : Shared) (hd : t.qDrained = false) :
    TcpEchoes cid (tcpFlush un t sh).1
      ∧ (tcpFlush un t sh).2.txReq.request = true
      ∧ (tcpFlush un t sh).2.tcpFrame = (tcpFifoOf cid t).front 536
      ∧ tcpFifoOf cid (tcpFlush un t sh).1
        = { used := if (t.queue.bytes.drop 536).isEmpty then 0 else t.qLen.toNat
            waiting := t.queue.bytes.drop 536
            next := ((tcpFifoOf cid t).front 536).stop } := by
  have hmine : t.qCid = cid := by
    rcases h.owner with hyes | hmine
    · rw [hd] at hyes
      cases hyes
    · exact hmine
  have hslot : t.qCid < maxTcpConn := h.inRange.slot
  have hchunk := toNat_tcpChunk h.inRange
  have hfits : (tcpChunk t).toNat ≤ 576 := by omega
  have hlength : t.queue.bytes.length = t.qLen.toNat - t.qOff.toNat := TcpQueue.length_bytes _
  have hused := tcpFlush_qLen un sh h.inRange
  obtain ⟨hreq, _, hbytes, hrange, howner⟩ := tcpFlush_spec un sh h.inRange
  obtain ⟨qLen, qOff, hflush⟩ := tcpFlush_statics un t sh
  obtain ⟨_, _, _, _, hseq, hflags⟩ := tcpSend_frame un tcpAck
    (some fun i => t.sendBufs t.qCid (t.qOff.toNat + i)) t sh hslot hfits
  have hcarried := (tcpSend_carries un (fun i => t.sendBufs t.qCid (t.qOff.toNat + i)) t sh
    hslot hfits).2.2
  have hconn := tcpSend_conn un tcpAck (some fun i => t.sendBufs t.qCid (t.qOff.toNat + i))
    (tcpChunk t) t sh hslot
  have hdue := (tcpSend_due un t.qCid tcpAck (some fun i => t.sendBufs t.qCid (t.qOff.toNat + i))
    (tcpChunk t) t sh).1
  -- what leaves is the front, as long as one chunk allows
  have hcount : (tcpFlush un t sh).2.tcpCarried.length = min 536 t.queue.bytes.length := by
    rw [hflush]
    show (tcpSend un t.qCid tcpAck _ (tcpChunk t) t sh).2.tcpCarried.length = _
    rw [hcarried, List.length_map, List.length_range, hchunk, hlength]
  obtain ⟨htake, hdrop⟩ := append_eq_take_drop hbytes hcount
  have hnext : ((tcpFlush un t sh).1.conn cid).seq
      = (t.conn cid).seq + BitVec.ofNat 32 (min 536 t.queue.bytes.length) := by
    rw [hflush]
    show ((tcpSend un t.qCid tcpAck _ (tcpChunk t) t sh).1.conn cid).seq = _
    rw [hconn, hmine, Mem.set_same, tcpSendConn_seq, ← BitVec.ofNat_toNat, hchunk, hlength]
  refine ⟨⟨h.slot, hrange, ?_, .inr (howner.trans hmine)⟩, hreq, ?_, ?_⟩
  · rw [hflush]
    exact hdue.trans h.notDue
  · show StreamFrame.mk _ _ _ = StreamFrame.mk _ _ _
    rw [htake, hflush]
    show StreamFrame.mk (tcpSend un t.qCid tcpAck _ (tcpChunk t) t sh).2.tcpSeq _
      (hasFlag (tcpSend un t.qCid tcpAck _ (tcpChunk t) t sh).2.tcpFlags tcpFin) = _
    rw [hseq, hflags, hmine]
    rfl
  · show LinearFifo.mk _ _ _ = LinearFifo.mk _ _ _
    rw [hused, ← hdrop, hnext]
    show _ = LinearFifo.mk _ _ ((t.conn cid).seq + BitVec.ofNat 32 (t.queue.bytes.take 536).length)
    rw [List.length_take]

/-- **One call** does to the statics what the operation does to the queue, and shows the same. -/
theorem TcpEchoes.step (h : TcpEchoes cid t) {call : TcpEchoCall} (hcall : call.Allowed) :
    TcpEchoes cid (tcpEcho cid t call).1
      ∧ tcpFifoOf cid (tcpEcho cid t call).1 = (tcpFifo (tcpFifoOf cid t) call.op).1
      ∧ (tcpEcho cid t call).2 = (tcpFifo (tcpFifoOf cid t) call.op).2
      ∧ tcpStored cid t call = LinearFifo.takenIn 576 (tcpFifoOf cid t) call.op
      ∧ TcpEchoStep cid t call := by
  cases call with
  | queue payload payLen =>
      have hlen : 0 < payLen := hcall.1
      obtain ⟨hnext, hfifo, hstored⟩ := h.queue payload hlen
      refine ⟨hnext, hfifo, rfl, ?_, hstored⟩
      show tcpStored cid t _ = (tcpFifoOf cid t).accepts 576 _
      rw [tcpFifoOf_accepts cid h.inRange]
      exact hstored
  | maintenance un sh =>
      have hidle : sh.txReq.request = false := hcall
      have hempty := TcpQueue.bytes_isEmpty h.inRange
      have hgo := TcpQueue.bytes_ne_nil_iff t
      cases hd : t.qDrained with
      | true =>
          rw [hd, List.isEmpty_iff] at hempty
          have htake : tcpFifo (tcpFifoOf cid t) .take = (tcpFifoOf cid t, []) :=
            LinearFifo.step_take_drained 576 536 hempty
          unfold TcpEchoStep tcpEcho TcpEchoCall.op
          dsimp only
          rw [tcpMaintenance_idle un h.notDue (fun hboth => hgo.mpr hboth.1 hempty), hidle, htake,
            hempty]
          exact ⟨h, rfl, rfl, rfl, rfl⟩
      | false =>
          rw [hd, List.isEmpty_eq_false_iff] at hempty
          have htake : tcpFifo (tcpFifoOf cid t) .take = _ :=
            LinearFifo.step_take_waiting 576 536 hempty
          obtain ⟨hnext, hreq, hframe, hfifo⟩ := h.flush un sh hd
          unfold TcpEchoStep tcpEcho TcpEchoCall.op
          dsimp only
          have hno : ¬ t.queue.bytes.isEmpty = true := by
            rwa [List.isEmpty_iff]
          rw [tcpMaintenance_flush un h.notDue ⟨hgo.mp hempty, hidle⟩, hreq, hframe, hfifo, htake,
            if_pos rfl, if_neg hno]
          exact ⟨hnext, rfl, rfl, rfl, rfl⟩

/-! ## §4. Runs. -/

/-- **Refinement**: every run of calls does to the statics what the operations do to the queue,
shows the same frames and accepts the same bytes. -/
theorem tcpEcho_refines (h : TcpEchoes cid t) (calls : List TcpEchoCall)
    (hcalls : ∀ call ∈ calls, call.Allowed) :
    TcpEchoes cid ((tcpEcho cid).after t calls)
      ∧ tcpFifoOf cid ((tcpEcho cid).after t calls)
        = tcpFifo.after (tcpFifoOf cid t) (calls.map TcpEchoCall.op)
      ∧ (tcpEcho cid).outs t calls = tcpFifo.outs (tcpFifoOf cid t) (calls.map TcpEchoCall.op)
      ∧ (tcpEcho cid).record (tcpStored cid) t calls
        = tcpFifo.record (LinearFifo.takenIn 576) (tcpFifoOf cid t) (calls.map TcpEchoCall.op) := by
  induction calls generalizing t with
  | nil => exact ⟨h, rfl, rfl, rfl⟩
  | cons call calls ih =>
      obtain ⟨hnext, hfifo, hout, hstored, _⟩ := h.step (hcalls call List.mem_cons_self)
      obtain ⟨hend, hafter, houts, hrecord⟩ :=
        ih hnext fun c hc => hcalls c (List.mem_cons_of_mem call hc)
      rw [hfifo] at hafter houts hrecord
      refine ⟨hend, hafter, ?_, ?_⟩
      · rw [List.map_cons, outs_cons, outs_cons, hout, houts]
      · show tcpStored cid t call ++ _ = LinearFifo.takenIn 576 _ call.op ++ _
        rw [hstored, hrecord]

/-- **The echo queue with one owner**: over every interleaving of `tcp_queue` calls with 1 to
576 bytes and `tcp_maintenance` calls with a free mailbox, for a connection that owns the queue
or finds it drained, with no retransmission due:
the bytes sent so far, followed by those that wait, are those that waited at the start and
those accepted since; the frames follow one another in `seq`; and each call accepts what fits
(`tcp_queue`), or sends one chunk of at most 536 bytes if anything waits (`tcp_maintenance`). -/
theorem tcp_echo_fifo (h : TcpEchoes cid t) (calls : List TcpEchoCall)
    (hcalls : ∀ call ∈ calls, call.Allowed) :
    ((tcpEcho cid).outs t calls).flatten.flatMap StreamFrame.items
        ++ ((tcpEcho cid).after t calls).queue.bytes
      = t.queue.bytes ++ (tcpEcho cid).record (tcpStored cid) t calls
      ∧ FramesFrom (t.conn cid).seq ((tcpEcho cid).outs t calls).flatten
      ∧ Along (tcpEcho cid) (TcpEchoStep cid) t calls := by
  obtain ⟨_, hafter, houts, hrecord⟩ := tcpEcho_refines h calls hcalls
  refine ⟨?_, ?_, ?_⟩
  · have hconserve := LinearFifo.conserves 576 536 (tcpFifoOf cid t) (calls.map TcpEchoCall.op)
    rw [← houts, ← hrecord, ← hafter] at hconserve
    exact hconserve
  · rw [houts]
    exact LinearFifo.contiguous 576 536 (tcpFifoOf cid t) _
  · refine Along.of_invariant (C := fun _ call => call.Allowed) (P := TcpEchoes cid) ?_ h calls
      (Along.of_inputs hcalls)
    intro t call ht hcall
    obtain ⟨hnext, -, -, -, hstep⟩ := ht.step hcall
    exact ⟨hstep, hnext⟩

/-- Two calls of `tcp_queue` with 576 and 4 bytes and one of `tcp_maintenance` in between: the
second one still finds the first 576 places used up. -/
def tcpEchoRun : List TcpEchoCall :=
  [.queue (fun _ => 0x61) 576, .maintenance .zero {}, .queue (fun _ => 0x62) 4, .maintenance .zero {}]

theorem tcp_echo_fifo_truncates :
    (((tcpEcho 0).outs {} tcpEchoRun).flatten.flatMap StreamFrame.items).length
        + ((tcpEcho 0).after {} tcpEchoRun).queue.bytes.length = 576 := by
  have hstart : TcpEchoes 0 {} := ⟨by decide, ⟨by decide, by decide, by decide⟩, rfl, .inl rfl⟩
  have hfifo := (tcp_echo_fifo hstart tcpEchoRun (by decide)).1
  rw [← List.length_append, hfifo]
  decide +kernel

end GigabitTcp
