/-
  GigabitTcp.Tcp.Close — whether the FIN of a connection is behind its data.

  `tcp_rx_process` answers a FIN at once, with the current `seq`; the echo of the data goes
  through the queue and leaves in a later maintenance pass.  The log of a run notes, peer by
  peer, when a connection is opened, the payload of the segments that reach an established
  connection, and the frames that are sent on it, read back from the buffer.

  Main results:
    * `tcp_close_ordered`   — as long as a FIN brings no payload and finds nothing of its
      connection in the queue, every connection is closed in order,
    * `tcp_fin_overtakes`   — a FIN behind one byte of data,
    * `tcp_fin_behind_data` — a FIN that brings data or finds some is always answered too early.
-/
import GigabitTcp.Tcp.Streams

namespace GigabitTcp

open Hw Machine

/-! ## §1. The log of a run. -/

/-- What the log notes of an event; the SYN+ACK belongs to the opening. -/
def tcpCloseNotes (t : TcpState) : TcpEvent → List (DialogueNote TcpPeer 32 U8)
  | .segment un rst ipRx frameBuf sh =>
      let seg := tcpParse ipRx frameBuf
      let sh' := (tcpRxProcess un rst ipRx frameBuf t sh).2
      match tcpTarget rst ipRx frameBuf t with
      | none => []
      | some cid =>
          if TcpConnects t cid seg then [.opened (tcpSender ipRx seg)]
          else if (t.conn cid).state = .established then
            [.noted (tcpSender ipRx seg) (.taken (tcpSegmentBytes seg frameBuf))]
              ++ if hasFlag seg.flags tcpFin then [.noted sh'.tcpDestination (.sent sh'.tcpFrame)]
                else []
          else []
  | .maintenance un sh =>
      let sh' := (tcpMaintenance un t sh).2
      if sh.txReq.request = false ∧ sh'.txReq.request = true then
        [.noted sh'.tcpDestination (.sent sh'.tcpFrame)]
      else []

/-- Nothing of slot `cid` waits in the queue. -/
def tcpNothingWaits (t : TcpState) (cid : Nat) : Prop := t.qDrained = true ∨ t.qCid ≠ cid

instance (t : TcpState) (cid : Nat) : Decidable (tcpNothingWaits t cid) :=
  inferInstanceAs (Decidable (_ ∨ _))

/-- A FIN for an established slot brings no payload and finds nothing of the slot in the
queue; data finds the queue drained or its own, with room for all of it; a reset finds the
queue drained, and no retransmission is due in a maintenance pass. -/
def TcpClosesLast (t : TcpState) : TcpEvent → Prop
  | .segment _ rst ipRx frameBuf _ =>
      (rst = true ∨ t.qDrained = true)
        ∧ ∀ cid ∈ tcpTarget rst ipRx frameBuf t, (t.conn cid).state = .established →
          (0 < (tcpParse ipRx frameBuf).plen → (t.qDrained = true ∨ t.qCid = cid)
              ∧ tcpQueueUsed t + (tcpParse ipRx frameBuf).plen.toNat ≤ 576)
          ∧ (hasFlag (tcpParse ipRx frameBuf).flags tcpFin = true →
            (tcpParse ipRx frameBuf).plen = 0 ∧ tcpNothingWaits t cid)
  | .maintenance _ _ => t.retransDue = false

instance (t : TcpState) : ∀ e, Decidable (TcpClosesLast t e)
  | .segment _ rst ipRx frameBuf _ =>
      inferInstanceAs (Decidable (_ ∧ ∀ cid ∈ tcpTarget rst ipRx frameBuf t,
        _ → (_ → _ ∧ _) ∧ (_ → _ ∧ _)))
  | .maintenance .. => inferInstanceAs (Decidable (_ = _))

theorem tcpNothingWaits.waiting {t : TcpState} {cid : Nat} (h : tcpNothingWaits t cid) :
    tcpWaiting t cid = [] := by
  rcases h with h | h
  · exact tcpWaiting_of_drained h cid
  · exact tcpWaiting_other h

/-! ## §2. Runs. -/

/-- A segment for an established slot, with or without a FIN. -/
theorem TcpStreams.established {t : TcpState} {log : List (DialogueNote TcpPeer 32 U8)} {cid : Nat}
    (un : Uninit) (ipRx : IpRx) {seg : TcpSeg} (frameBuf : Mem U32) (sh : Shared)
    (h : TcpStreams t log) (htable : TcpTable t)
    (hfind : tcpFind t seg.sp ipRx.srcIp = some cid) (hest : (t.conn cid).state = .established)
    (hdata : 0 < seg.plen → (t.qDrained = true ∨ t.qCid = cid)
      ∧ tcpQueueUsed t + seg.plen.toNat ≤ 576)
    (hfin : hasFlag seg.flags tcpFin = true → seg.plen = 0 ∧ tcpNothingWaits t cid) :
    TcpStreams (tcpReceive un ipRx seg frameBuf t sh).1
      (log ++ ([.noted (t.conn cid).peer (.taken (tcpSegmentBytes seg frameBuf))]
        ++ if hasFlag seg.flags tcpFin then
            [.noted (tcpReceive un ipRx seg frameBuf t sh).2.tcpDestination
              (.sent (tcpReceive un ipRx seg frameBuf t sh).2.tcpFrame)]
          else [])) := by
  have hcid := (tcpFind_some hfind).1
  obtain ⟨t₁, hreceive, hother, hest₁, hpeer, hseq, hqueue, -⟩ :=
    tcpReceive_data un ipRx seg frameBuf sh hfind hest
  have halone : ∀ i, i < maxTcpConn → i ≠ cid → TcpSends t i →
      (t.conn cid).peer ≠ (t.conn i).peer := by
    intro i hi hne hsends
    exact htable.peer_ne hcid hi (Ne.symm hne) (by rw [hest]; decide) hsends.ne_free
  -- the note of the payload first, then that of the answer
  have htaken := h.takes un halone hcid hest hdata hother hest₁ hpeer hseq hqueue
  rw [hreceive, ← List.append_assoc]
  by_cases hf : hasFlag seg.flags tcpFin = true
  · -- without payload the queue is as it was, and nothing of the slot waits in it
    obtain ⟨hzero, hnothing⟩ := hfin hf
    have hnone : ¬ 0 < seg.plen := by
      rw [hzero]
      decide
    rw [if_neg hnone] at hqueue
    have hwaiting : tcpWaiting t₁ cid = [] := by
      rw [tcpWaiting_congr hqueue]
      exact hnothing.waiting
    rw [if_pos hf]
    refine htaken.closes un sh ?_ hcid hest₁ hwaiting hf
    intro i hi hne hsends
    have hsends' : TcpSends t i := by
      unfold TcpSends at hsends ⊢
      rwa [hother i hne] at hsends
    rw [hpeer, hother i hne]
    exact halone i hi hne hsends'
  -- without FIN nothing is sent
  · have hsame : tcpTakeFin un cid seg t₁ sh = (t₁, sh) := if_neg hf
    rw [if_neg hf, List.append_nil, hsame]
    exact htaken

/-- A segment that neither opens a connection nor reaches an established one. -/
theorem TcpStreams.moves {t : TcpState} {log : List (DialogueNote TcpPeer 32 U8)} {cid : Nat}
    (un : Uninit) (ipRx : IpRx) {seg : TcpSeg} (frameBuf : Mem U32) (sh : Shared)
    (h : TcpStreams t log) (htable : TcpTable t)
    (hfind : tcpFind t seg.sp ipRx.srcIp = some cid) (hconn : ¬ TcpConnects t cid seg)
    (hest : (t.conn cid).state ≠ .established) :
    TcpStreams (tcpReceive un ipRx seg frameBuf t sh).1 (log ++ []) := by
  have hcid := (tcpFind_some hfind).1
  have hother := fun j => tcpReceive_other un ipRx seg frameBuf t sh hfind (j := j)
  have hstate := tcpReceive_state un ipRx seg frameBuf t sh hfind
  have hseq := tcpReceive_seq un ipRx seg frameBuf (t := t) sh hfind
  obtain ⟨-, hstep⟩ := tcpReceive_step un ipRx seg frameBuf t sh hfind
  generalize (tcpReceive un ipRx seg frameBuf t sh).1 = t' at hother hstate hseq hstep ⊢
  cases hstep with
  | connects hc _ _ => exact absurd hc hconn
  | receives hr _ _ => exact absurd hr hest
  | moves _ _ state _ hcore hqueue =>
      refine h.same hqueue ?_ ?_
      · intro hwaits
        have howner := h.owner hwaits
        -- the owner of waiting bytes is established, so it is another slot
        have hne : t.qCid ≠ cid := by
          rintro rfl
          exact hest howner
        rw [hother _ hne]
        exact howner
      · intro i hsends
        by_cases hic : i = cid
        · subst hic
          -- only `T_SYN_RCVD` leads to a state that sends
          have hsyn : (t.conn i).state = .synRcvd := by
            unfold TcpSends at hsends
            rw [hstate] at hsends
            unfold tcpNextState at hsends
            cases hst : (t.conn i).state with
            | synRcvd => rfl
            | established => exact absurd hst hest
            | listen => exact absurd hst (htable.settled i hcid)
            | free =>
                have hclosed : ¬ seg.opens = true := fun ho => hconn (.inl ⟨hst, ho⟩)
                rw [hst] at hsends
                dsimp only at hsends
                rw [if_neg hclosed] at hsends
                rcases hsends with hs | hs <;> cases hs
            | lastAck =>
                rw [hst] at hsends
                dsimp only at hsends
                split at hsends <;> rcases hsends with hs | hs <;> cases hs
          exact ⟨.inl hsyn, TcpConn.peer_of_core hcore, hseq (.inl hsyn)⟩
        · rw [hother i hic]
          unfold TcpSends at hsends ⊢
          rw [hother i hic] at hsends
          exact ⟨hsends, rfl, rfl⟩

/-- **One call of `tcp_rx_process`.** -/
theorem TcpStreams.segment {t : TcpState} {log : List (DialogueNote TcpPeer 32 U8)} (un : Uninit)
    {rst : Bool} {ipRx : IpRx} {frameBuf : Mem U32} (sh : Shared) (h : TcpStreams t log)
    (htable : TcpTable t) (hlast : TcpClosesLast t (.segment un rst ipRx frameBuf sh)) :
    TcpStreams (tcpRxProcess un rst ipRx frameBuf t sh).1
      (log ++ tcpCloseNotes t (.segment un rst ipRx frameBuf sh)) := by
  obtain ⟨hreset, hclose⟩ := hlast
  unfold tcpCloseNotes
  dsimp only
  by_cases hecho : tcpForEcho rst ipRx frameBuf = true
  · obtain ⟨htarget, hcall⟩ := tcpRxProcess_forEcho un t sh hecho
    rw [htarget] at hclose ⊢
    rw [hcall]
    generalize tcpParse ipRx frameBuf = seg at hclose ⊢
    cases hfind : tcpFind t seg.sp ipRx.srcIp with
    | none =>
        -- all slots are taken by others
        rw [tcpReceive_none un frameBuf sh hfind]
        exact h.same rfl (fun hwaits => h.owner hwaits) (fun i hs => ⟨hs, rfl, rfl⟩)
    | some cid =>
        have hcid := (tcpFind_some hfind).1
        dsimp only
        by_cases hconn : TcpConnects t cid seg
        · rw [if_pos hconn]
          have hfree : (t.conn cid).state = .free := by
            rcases hconn with hc | hc
            · exact hc.1
            · exact absurd hc.1 (htable.settled cid hcid)
          -- the search returned a free slot, so it found no holder
          have hunknown : TcpUnknown t (tcpSender ipRx seg) := by
            intro i hi
            rw [tcpFind_eq_search] at hfind
            exact Slots.search_empty hfind (TcpState.key_eq_none.mpr hfree) i
              (List.mem_range.mpr hi)
          have hother := fun j => tcpReceive_other un ipRx seg frameBuf t sh hfind (j := j)
          obtain ⟨-, hstep⟩ := tcpReceive_step un ipRx seg frameBuf t sh hfind
          cases hstep with
          | connects _ hcore hqueue =>
              refine h.connects hfree hunknown hqueue hother ?_
              have hip := congrArg TcpCore.peerIp hcore
              have hport := congrArg TcpCore.peerPort hcore
              exact congrArg₂ TcpPeer.mk hip hport
          | receives hr _ _ =>
              rw [hfree] at hr
              cases hr
          | moves hno _ _ _ _ _ => exact absurd hconn hno
        · rw [if_neg hconn]
          by_cases hest : (t.conn cid).state = .established
          · obtain ⟨hdata, hfin⟩ := hclose cid hfind hest
            have hsender := tcpFind_sender hfind
              (show (t.conn cid).state ≠ .free by rw [hest]; decide)
            rw [if_pos hest, hsender]
            exact h.established un ipRx frameBuf sh htable hfind hest hdata hfin
          · rw [if_neg hest]
            exact h.moves un ipRx frameBuf sh htable hfind hconn hest
  · obtain ⟨htarget, -, hqueue, hcores⟩ := tcpRxProcess_notForEcho un t sh hecho
    have hseq := tcpRxProcess_notForEcho_seq un t sh hecho
    rw [htarget]
    refine h.same hqueue ?_ ?_
    · intro hwaits
      obtain ⟨state, hcore, hstate⟩ := hcores t.qCid
      -- only the states of the slots can have changed
      rw [show ((tcpRxProcess un rst ipRx frameBuf t sh).1.conn t.qCid).state = state from
        congrArg TcpCore.state hcore]
      rcases hstate with rfl | ⟨hrst, -⟩
      · exact h.owner hwaits
      · -- a reset finds the queue drained
        rw [hrst] at hreset
        exact absurd (TcpQueue.bytes_of_drained (hreset.resolve_left nofun)) hwaits
    · intro i hsends
      obtain ⟨state, hcore, hstate⟩ := hcores i
      have hnew : ((tcpRxProcess un rst ipRx frameBuf t sh).1.conn i).state = state :=
        congrArg TcpCore.state hcore
      refine ⟨?_, TcpConn.peer_of_core hcore, hseq i⟩
      unfold TcpSends at hsends
      rw [hnew] at hsends
      rcases hstate with rfl | ⟨-, rfl⟩
      · exact hsends
      · rcases hsends with hs | hs <;> cases hs

theorem TcpStreams.maintenance {t : TcpState} {log : List (DialogueNote TcpPeer 32 U8)}
    (un : Uninit) (sh : Shared) (h : TcpStreams t log) (htable : TcpTable t)
    (hdue : t.retransDue = false) :
    TcpStreams (tcpMaintenance un t sh).1 (log ++ tcpCloseNotes t (.maintenance un sh)) := by
  unfold tcpCloseNotes
  dsimp only
  by_cases hgo : t.qOff < t.qLen ∧ sh.txReq.request = false
  · obtain ⟨hreq, -⟩ := tcpFlush_spec un sh h.inRange
    rw [tcpMaintenance_flush un hdue hgo, if_pos ⟨hgo.2, hreq⟩]
    exact h.flush un sh htable hgo.1
  -- nothing to flush, or a request is posted already
  · have hnone : ¬ (sh.txReq.request = false ∧ sh.txReq.request = true) := by
      rintro ⟨hno, hyes⟩
      rw [hno] at hyes
      cases hyes
    rw [tcpMaintenance_idle un hdue hgo, if_neg hnone]
    exact h.same rfl (fun hwaits => h.owner hwaits) (fun i hs => ⟨hs, rfl, rfl⟩)

/-- **Close ordering**: in a run in which every FIN comes last, every connection is closed in
order after every prefix of the run. -/
theorem tcp_close_ordered (es : List TcpEvent) (hlast : Along tcpMachine TcpClosesLast {} es) :
    ∀ es₁, es₁ <+: es → ∀ p : TcpPeer,
      ClosesInOrder (dialogue p (tcpMachine.record tcpCloseNotes {} es₁)) := by
  rintro es₁ ⟨es₂, rfl⟩ p
  have hstart : TcpTable {} ∧ TcpStreams {} [] := by
    refine ⟨⟨?_, Slots.Distinct.of_empty fun i _ => rfl⟩, ?_⟩
    · intro i _
      show TcpSt.free ≠ TcpSt.listen
      decide
    · refine ⟨⟨?_, Nat.le_refl 0, Nat.zero_le 576⟩, ?_, ?_, ?_⟩
      · decide
      · intro hwaits
        exact absurd rfl hwaits
      · intro p
        exact (Streaming.nil 0).closesInOrder
      · rintro i _ (hs | hs) <;> cases hs
  -- the table is carried along: it keeps the peers of two slots apart
  have hrun := Along.invariant_record (f := tcpCloseNotes) (C := TcpClosesLast)
    (P := fun t log => TcpTable t ∧ TcpStreams t log) ?_ es₁ hstart (Along.append.mp hlast).1
  · exact hrun.2.closed p
  · rintro t log e ⟨htable, hstreams⟩ he
    refine ⟨htable.step e, ?_⟩
    cases e with
    | segment un rst ipRx frameBuf sh => exact hstreams.segment un sh htable he
    | maintenance un sh => exact hstreams.maintenance un sh htable he

/-- The FIN of 192.168.100.3:5000 behind its first byte of data. -/
def tcpFinBehind : TcpEvent := plainSegment 0xC0A86403 5000 102 0x12345679 0x11 []

/-- With a maintenance pass in between, the byte is echoed before the FIN is answered. -/
theorem tcp_close_ordered_echoed :
    ClosesInOrder (dialogue { ip := 0xC0A86403, port := 5000 } (tcpMachine.record tcpCloseNotes {}
        (tcpHandshake 3 ++ [tcpOneByte 3 0x41, .maintenance .zero {}, tcpFinBehind])))
      ∧ dialogue { ip := 0xC0A86403, port := 5000 } (tcpMachine.record tcpCloseNotes {}
        (tcpHandshake 3 ++ [tcpOneByte 3 0x41, .maintenance .zero {}, tcpFinBehind]))
        = [.taken [0x41], .sent { seq := 0x12345679, items := [0x41], last := false }, .taken [],
          .sent { seq := 0x1234567A, items := [], last := true }] :=
  ⟨tcp_close_ordered _ (by decide +kernel) _ (List.prefix_refl _) _, by decide +kernel⟩

/-- The FIN arrives before the byte is echoed: it is answered with SEQ 12345679h, and the byte
follows with SEQ 1234567Ah. -/
theorem tcp_fin_overtakes :
    ∃ es : List TcpEvent, es = tcpHandshake 3 ++ [tcpOneByte 3 0x41, tcpFinBehind,
        .maintenance .zero {}]
      ∧ dialogue { ip := 0xC0A86403, port := 5000 } (tcpMachine.record tcpCloseNotes {} es)
        = [.taken [0x41], .taken [], .sent { seq := 0x12345679, items := [], last := true },
          .sent { seq := 0x1234567A, items := [0x41], last := false }]
      ∧ ¬ ClosesInOrder (dialogue { ip := 0xC0A86403, port := 5000 }
        (tcpMachine.record tcpCloseNotes {} es)) := by
  have hlog : dialogue { ip := 0xC0A86403, port := 5000 } (tcpMachine.record tcpCloseNotes {}
      (tcpHandshake 3 ++ [tcpOneByte 3 0x41, tcpFinBehind, .maintenance .zero {}]))
      = [.taken [0x41], .taken [], .sent { seq := 0x12345679, items := [], last := true },
        .sent { seq := 0x1234567A, items := [0x41], last := false }] := by
    decide +kernel
  refine ⟨_, rfl, hlog, fun h => ?_⟩
  rw [hlog] at h
  -- the FIN is not the last thing sent, and what follows it is not empty
  have hbehind := (h [.taken [0x41], .taken []] _ _ rfl rfl).2 _ List.mem_cons_self
  cases hbehind

/-! ## §3. A FIN that does not come last. -/

/-- Bytes that wait when the FIN is answered leave in the next maintenance pass. -/
theorem tcpFin_before_flush {t : TcpState} {cid : Nat} (un un' : Uninit) {seg : TcpSeg}
    (sh sh' : Shared) (log : List (StreamNote 32 U8)) (hcid : cid < maxTcpConn)
    (hrange : t.queue.InRange) (hwaits : tcpWaiting t cid ≠ [])
    (hfin : hasFlag seg.flags tcpFin = true) (hdue : t.retransDue = false)
    (hidle : sh'.txReq.request = false) :
    ∃ f, tcpCloseNotes (tcpTakeFin un cid seg t sh).1 (.maintenance un' sh')
        = [.noted (t.conn cid).peer (.sent f)]
      ∧ ¬ ClosesInOrder (log ++ [.sent (tcpTakeFin un cid seg t sh).2.tcpFrame, .sent f]) := by
  obtain ⟨-, hframe⟩ := tcpTakeFin_frame un t sh hcid hfin
  obtain ⟨hqueue, -, -, hpeer, hdue'⟩ := tcpTakeFin_same un t sh hcid hfin
  rw [hdue] at hdue'
  generalize tcpTakeFin un cid seg t sh = r at *
  obtain ⟨t', sh₁⟩ := r
  dsimp only at *
  -- the answer leaves the queue alone, so its owner still has bytes to flush
  have hmine : t.qCid = cid := by
    by_contra hne
    exact hwaits (tcpWaiting_other hne)
  have hmine' : t'.qCid = cid := (congrArg TcpQueue.qCid hqueue).trans hmine
  have hbytes : t'.queue.bytes ≠ [] := by
    unfold tcpWaiting at hwaits
    rw [if_pos hmine] at hwaits
    rwa [hqueue]
  have hrange' : t'.queue.InRange := by
    rw [hqueue]
    exact hrange
  have hgo := (TcpQueue.bytes_ne_nil_iff t').mp hbytes
  have hflush := tcpMaintenance_flush un' hdue' ⟨hgo, hidle⟩
  obtain ⟨hreq, hdest, -⟩ := tcpFlush_spec un' sh' hrange'
  obtain ⟨-, -, -, hlength⟩ := tcpFlush_frame un' sh' hrange'
  refine ⟨(tcpFlush un' t' sh').2.tcpFrame, ?_, ?_⟩
  · unfold tcpCloseNotes
    dsimp only
    rw [hflush, if_pos ⟨hidle, hreq⟩, hdest, hmine', hpeer]
  · intro hclosed
    -- in order, nothing that follows the last frame carries bytes
    have hlast : sh₁.tcpFrame.last = true := by
      rw [hframe]
    have hnone := (hclosed log sh₁.tcpFrame [.sent (tcpFlush un' t' sh').2.tcpFrame] rfl hlast).2 _
      (List.mem_singleton_self _)
    -- the flush carries a chunk of at least one byte
    have hchunk := toNat_tcpChunk hrange'
    rw [hnone, List.length_nil] at hlength
    rw [BitVec.lt_def] at hgo
    change 0 = _ at hlength
    have hsub : t'.queue.qLen.toNat - t'.queue.qOff.toNat = t'.qLen.toNat - t'.qOff.toNat := rfl
    omega

/-- The notes of a FIN for an established slot. -/
theorem tcpCloseNotes_fin (un : Uninit) {rst : Bool} {ipRx : IpRx} {frameBuf : Mem U32}
    {t : TcpState} (sh : Shared) {cid : Nat} (htarget : tcpTarget rst ipRx frameBuf t = some cid)
    (hest : (t.conn cid).state = .established)
    (hfin : hasFlag (tcpParse ipRx frameBuf).flags tcpFin = true) :
    tcpCloseNotes t (.segment un rst ipRx frameBuf sh)
      = [.noted (tcpSender ipRx (tcpParse ipRx frameBuf))
          (.taken (tcpSegmentBytes (tcpParse ipRx frameBuf) frameBuf)),
        .noted (tcpRxProcess un rst ipRx frameBuf t sh).2.tcpDestination
          (.sent (tcpRxProcess un rst ipRx frameBuf t sh).2.tcpFrame)] := by
  have hconn : ¬ TcpConnects t cid (tcpParse ipRx frameBuf) :=
    not_tcpConnects _ (by rw [hest]; decide) (by rw [hest]; decide)
  unfold tcpCloseNotes
  dsimp only
  rw [htarget]
  dsimp only
  rw [if_neg hconn, if_pos hest, if_pos hfin]
  rfl

/-- With data of its own, or with data of its slot in the queue, a FIN leaves bytes waiting. -/
theorem tcpWaiting_behind {t t₁ : TcpState} {cid : Nat} {seg : TcpSeg} (payload : Nat → U8)
    (hcid : cid < maxTcpConn) (hrange : t.queue.InRange)
    (hdata : 0 < seg.plen → (t.qDrained = true ∨ t.qCid = cid)
      ∧ tcpQueueUsed t + seg.plen.toNat ≤ 576)
    (hbehind : 0 < seg.plen ∨ ¬ tcpNothingWaits t cid)
    (hqueue : t₁.queue = if 0 < seg.plen then (tcpQueue cid payload seg.plen t).queue
      else t.queue) :
    tcpWaiting t₁ cid ≠ [] := by
  by_cases hlen : 0 < seg.plen
  · -- the payload itself waits
    obtain ⟨howner, hroom⟩ := hdata hlen
    obtain ⟨-, hmine, -⟩ := tcpQueue_waiting payload hcid hlen hrange howner hroom
    rw [if_pos hlen] at hqueue
    rw [tcpWaiting_congr hqueue, hmine]
    intro hnone
    have hlength := congrArg List.length hnone
    rw [List.length_append, List.length_map, List.length_range, List.length_nil] at hlength
    rw [BitVec.lt_def] at hlen
    omega
  -- otherwise the queue is the slot's, and not drained
  · have hsome := hbehind.resolve_left hlen
    unfold tcpNothingWaits at hsome
    rw [not_or, not_not, TcpState.qDrained_iff] at hsome
    obtain ⟨hd, hmine⟩ := hsome
    have hsent : t.qOff.toNat ≤ t.qLen.toNat := hrange.sent
    have hne : t.qLen.toNat ≠ t.qOff.toNat := fun h => hd (BitVec.eq_of_toNat_eq h)
    rw [if_neg hlen] at hqueue
    rw [tcpWaiting_congr hqueue]
    unfold tcpWaiting
    rw [if_pos hmine, TcpQueue.bytes_ne_nil_iff, BitVec.lt_def]
    omega

/-- **A FIN behind its data**: after any run, if a FIN for an established connection brings data
or finds some of the connection's own in the queue, the next maintenance pass with MAC TX idle
sends data behind the answer. -/
theorem tcp_fin_behind_data (es : List TcpEvent) (un un' : Uninit) {rst : Bool} {ipRx : IpRx}
    {frameBuf : Mem U32} (sh sh' : Shared) {cid : Nat}
    (htarget : tcpTarget rst ipRx frameBuf (tcpMachine.after {} es) = some cid)
    (hest : ((tcpMachine.after {} es).conn cid).state = .established)
    (hfin : hasFlag (tcpParse ipRx frameBuf).flags tcpFin = true)
    (hdata : 0 < (tcpParse ipRx frameBuf).plen →
      ((tcpMachine.after {} es).qDrained = true ∨ (tcpMachine.after {} es).qCid = cid)
        ∧ tcpQueueUsed (tcpMachine.after {} es) + (tcpParse ipRx frameBuf).plen.toNat ≤ 576)
    (hbehind : 0 < (tcpParse ipRx frameBuf).plen ∨ ¬ tcpNothingWaits (tcpMachine.after {} es) cid)
    (hdue : (tcpMachine.after {} es).retransDue = false) (hidle : sh'.txReq.request = false) :
    ¬ ClosesInOrder (dialogue (tcpSender ipRx (tcpParse ipRx frameBuf))
      (tcpMachine.record tcpCloseNotes {}
        (es ++ [.segment un rst ipRx frameBuf sh, .maintenance un' sh']))) := by
  have hrange : (tcpMachine.after {} es).queue.InRange := (tcpBounded_after es).queue
  rw [record_append]
  generalize tcpMachine.record tcpCloseNotes {} es = log
  generalize tcpMachine.after {} es = t at *
  have hfind := tcpTarget_some htarget
  have hcid := (tcpFind_some hfind).1
  -- the segment is found a slot, so it is one for the echo port
  have hecho : tcpForEcho rst ipRx frameBuf = true := by
    by_contra hno
    rw [(tcpRxProcess_notForEcho un t sh hno).1] at htarget
    cases htarget
  obtain ⟨-, hcall⟩ := tcpRxProcess_forEcho un t sh hecho
  have hnotes := tcpCloseNotes_fin un sh htarget hest hfin
  generalize tcpParse ipRx frameBuf = seg at *
  obtain ⟨t₁, hreceive, -, -, hpeer, -, hqueue, hdue₁⟩ :=
    tcpReceive_data un ipRx seg frameBuf sh hfind hest
  -- the sender is the peer of the slot, so all three notes are its own
  have hsender : tcpSender ipRx seg = (t₁.conn cid).peer := by
    rw [hpeer]
    exact tcpFind_sender hfind (by rw [hest]; decide)
  have hrange₁ : t₁.queue.InRange := by
    rw [hqueue]
    split
    · exact tcpQueue_inRange cid _ _ hrange
    · exact hrange
  have hwaits := tcpWaiting_behind _ hcid hrange hdata hbehind hqueue
  obtain ⟨f, hflush, hbad⟩ := tcpFin_before_flush un un' sh sh'
    (dialogue (tcpSender ipRx seg) log ++ [.taken (tcpSegmentBytes seg frameBuf)]) hcid hrange₁
    hwaits hfin (hdue₁.trans hdue) hidle
  have hrecord : tcpMachine.record tcpCloseNotes t
      [.segment un rst ipRx frameBuf sh, .maintenance un' sh']
      = [.noted (tcpSender ipRx seg) (.taken (tcpSegmentBytes seg frameBuf)),
        .noted (tcpSender ipRx seg) (.sent (tcpTakeFin un cid seg t₁ sh).2.tcpFrame),
        .noted (tcpSender ipRx seg) (.sent f)] := by
    show tcpCloseNotes t _ ++ (tcpCloseNotes (tcpRxProcess un rst ipRx frameBuf t sh).1 _ ++ []) = _
    rw [hnotes, hcall, hreceive, hflush, (tcpTakeFin_frame un t₁ sh hcid hfin).1, hsender]
    rfl
  rw [hrecord, List.append_cons, List.append_cons, dialogue_noted, dialogue_noted, dialogue_noted]
  rwa [List.append_cons] at hbad

end GigabitTcp
