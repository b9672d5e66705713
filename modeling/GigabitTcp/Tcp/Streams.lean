/-
  GigabitTcp.Tcp.Streams — what a connection sends, as a numbered stream.

  The bytes of a peer are taken in from the segments that reach its established connection and
  leave in frames, each at the position `seq` of the connection; what has not left waits in the
  echo queue.  `TcpStreams` says so for all connections at once, with the notes of a run.

  Main results:
    * `tcpReceive_data`     — a segment for an established slot, up to its FIN,
    * `TcpStreams.takes`, `TcpStreams.closes`, `TcpStreams.flush` — what data, the answer to a
      FIN and a flush do to the streams.
-/
import GigabitTcp.Tcp.Stored
import GigabitTcp.Hw.Stream

namespace GigabitTcp

open Hw Machine

/-! ## §1. Frames. -/

/-- The TCP frame in the buffer. -/
def Shared.tcpFrame (sh : Shared) : StreamFrame 32 U8 :=
  { seq := sh.tcpSeq, items := sh.tcpCarried, last := hasFlag sh.tcpFlags tcpFin }

/-- The payload bytes of a segment, as they stand in the frame. -/
def tcpSegmentBytes (seg : TcpSeg) (frameBuf : Mem U32) : List U8 :=
  (List.range seg.plen.toNat).map (frameBuf.byteAt (5 + seg.doff.toNat))

/-! ## §2. The position of a connection. -/

theorem tcpScan_seq : ∀ (is : List Nat) (t : TcpState) (j : Nat),
    ((is.foldl tcpScanOne t).conn j).seq = (t.conn j).seq
  | [], _, _ => rfl
  | i :: is, t, j => by
      have hone : ((tcpScanOne t i).conn j).seq = (t.conn j).seq := by
        obtain ⟨_, _, _, _, _, _, _, _, hstatics, -⟩ := tcpScanOne_statics t i
        rw [hstatics]
        show ((t.setConn i _).conn j).seq = _
        by_cases hj : j = i
        · rw [hj, setConn_same]
        · rw [setConn_other t _ hj]
      exact (tcpScan_seq is (tcpScanOne t i) j).trans hone

/-- Resets and timer scans leave `seq` alone. -/
theorem tcpRxProcess_notForEcho_seq (un : Uninit) {rst : Bool} {ipRx : IpRx} {frameBuf : Mem U32}
    (t : TcpState) (sh : Shared) (h : ¬ tcpForEcho rst ipRx frameBuf = true) (j : Nat) :
    ((tcpRxProcess un rst ipRx frameBuf t sh).1.conn j).seq = (t.conn j).seq := by
  rcases tcpRxProcess_idle un t h with ⟨-, hcall⟩ | ⟨-, hcall⟩ | ⟨-, hcall⟩
  · rw [hcall]
    dsimp only
    split <;> rfl
  · rw [hcall]
    exact tcpScan_seq _ t j
  · rw [hcall]

theorem tcpTakeData_seq (cid : Nat) (seg : TcpSeg) (payload : Nat → U8) (t : TcpState) :
    ((tcpTakeData cid seg payload t).conn cid).seq = (t.conn cid).seq := by
  unfold tcpTakeData
  dsimp only
  split
  -- queueing touches no record
  · rw [tcpQueue_conn, setConn_same]
  · split
    · rw [setConn_same, setConn_same]
    · rw [setConn_same]

/-- A segment for an established slot: its data, then its FIN. -/
theorem tcpReceive_established (un : Uninit) {cid : Nat} (ipRx : IpRx) (seg : TcpSeg)
    (frameBuf : Mem U32) {t : TcpState} (sh : Shared)
    (hfind : tcpFind t seg.sp ipRx.srcIp = some cid) (hest : (t.conn cid).state = .established) :
    tcpReceive un ipRx seg frameBuf t sh
      = tcpTakeFin un cid seg (tcpTakeData cid seg (tcpPayload un frameBuf seg)
          (t.setConn cid (tcpOnSegment (t.conn cid) seg))) sh := by
  rw [tcpReceive_live un frameBuf sh hfind (by rw [hest]; decide)]
  unfold tcpSwitch
  rw [setConn_same, tcpOnSegment_state, hest]
  rfl

theorem tcpTakeData_due (cid : Nat) (seg : TcpSeg) (payload : Nat → U8) (t : TcpState) :
    (tcpTakeData cid seg payload t).retransDue = t.retransDue := by
  unfold tcpTakeData
  dsimp only
  split
  · exact (tcpQueue_due cid payload seg.plen _).1
  · split <;> rfl

/-- **A segment for an established slot**: the FIN is answered from a state that differs in the
record of the slot and in the queue. -/
theorem tcpReceive_data (un : Uninit) {cid : Nat} (ipRx : IpRx) (seg : TcpSeg)
    (frameBuf : Mem U32) {t : TcpState} (sh : Shared)
    (hfind : tcpFind t seg.sp ipRx.srcIp = some cid) (hest : (t.conn cid).state = .established) :
    ∃ t₁, tcpReceive un ipRx seg frameBuf t sh = tcpTakeFin un cid seg t₁ sh
      ∧ (∀ i, i ≠ cid → t₁.conn i = t.conn i)
      ∧ (t₁.conn cid).state = .established
      ∧ (t₁.conn cid).peer = (t.conn cid).peer
      ∧ (t₁.conn cid).seq = (t.conn cid).seq
      ∧ t₁.queue = (if 0 < seg.plen then
          (tcpQueue cid (tcpPayload un frameBuf seg) seg.plen t).queue else t.queue)
      ∧ t₁.retransDue = t.retransDue := by
  have hcore : ((tcpTakeData cid seg (tcpPayload un frameBuf seg)
      (t.setConn cid (tcpOnSegment (t.conn cid) seg))).conn cid).core
      = { (t.conn cid).core with peerSeq := tcpAdvance seg } := by
    rw [tcpTakeData_core, setConn_same, tcpOnSegment_core]
  refine ⟨_, tcpReceive_established un ipRx seg frameBuf sh hfind hest, ?_, ?_, ?_, ?_, ?_, ?_⟩
  · intro i hi
    rw [tcpTakeData_other seg _ _ hi, setConn_other t _ hi]
  · exact (congrArg TcpCore.state hcore).trans hest
  · exact TcpConn.peer_of_core hcore
  · rw [tcpTakeData_seq, setConn_same, tcpOnSegment_seq]
  · rw [tcpTakeData_queue, tcpQueue_setConn, setConn_queue]
  · rw [tcpTakeData_due]
    rfl

/-- On its way up or down a connection keeps its `seq`. -/
theorem tcpReceive_seq (un : Uninit) {cid : Nat} (ipRx : IpRx) (seg : TcpSeg) (frameBuf : Mem U32)
    {t : TcpState} (sh : Shared) (hfind : tcpFind t seg.sp ipRx.srcIp = some cid)
    (hstate : (t.conn cid).state = .synRcvd ∨ (t.conn cid).state = .lastAck) :
    ((tcpReceive un ipRx seg frameBuf t sh).1.conn cid).seq = (t.conn cid).seq := by
  have hfree : (t.conn cid).state ≠ .free := by
    rcases hstate with h | h <;> rw [h] <;> decide
  have hseq := tcpOnSegment_seq (t.conn cid) seg
  rw [tcpReceive_live un frameBuf sh hfind hfree]
  unfold tcpSwitch
  rw [setConn_same, tcpOnSegment_state]
  rcases hstate with h | h
  · rw [h]
    dsimp only
    rw [setConn_same, ← hseq]
    -- the record changes in its state and timers only
    unfold tcpSynRcvd
    split <;> rfl
  · rw [h]
    dsimp only
    rw [setConn_same, ← hseq]
    -- here too, the slot being freed at most
    unfold tcpLastAck
    split <;> rfl

/-- A data segment moves `seq` on by its payload. -/
theorem tcpSendConn_seq (c : TcpConn) (payLen : U16) :
    (tcpSendConn c tcpAck payLen).seq = c.seq + payLen.setWidth 32 := by
  -- without SYN and FIN the increment is the payload
  have hinc : tcpSeqInc tcpAck payLen = payLen.setWidth 32 := by
    unfold tcpSeqInc
    rw [if_neg (by decide), if_neg (by decide)]
    show 0#32 + 0#32 + _ = _
    rw [BitVec.zero_add, BitVec.zero_add]
  by_cases hpos : 0 < payLen
  · have hcounts : 0 < payLen ∨ hasFlag tcpAck (tcpSyn ||| tcpFin) = true := .inl hpos
    unfold tcpSendConn
    dsimp only
    rw [if_pos hcounts, hinc]
    split_ifs <;> rfl
  -- an empty segment leaves the record as it was
  · have hzero : payLen = 0 := by
      by_contra hne
      exact hpos ((BitVec.pos_iff_ne_zero payLen).mpr hne)
    rw [hzero]
    show _ = c.seq + 0#32
    rw [BitVec.add_zero]
    rfl

/-! ## §3. The streams. -/

/-- What of the queue waits for slot `i`. -/
def tcpWaiting (t : TcpState) (i : Nat) : List U8 := if t.qCid = i then t.queue.bytes else []

/-- The connection of slot `i` can still send data. -/
def TcpSends (t : TcpState) (i : Nat) : Prop :=
  (t.conn i).state = .synRcvd ∨ (t.conn i).state = .established

/-- Every connection that can still send has an open stream, which ends with what waits in the
queue; nothing waits for the others, and what was closed was closed in order. -/
structure TcpStreams (t : TcpState) (log : List (DialogueNote TcpPeer 32 U8)) : Prop where
  inRange : t.queue.InRange
  owner : t.queue.bytes ≠ [] → (t.conn t.qCid).state = .established
  closed : ∀ p, ClosesInOrder (dialogue p log)
  live : ∀ i, i < maxTcpConn → TcpSends t i →
    Streaming (dialogue (t.conn i).peer log) (t.conn i).seq (tcpWaiting t i)

theorem tcpWaiting_of_drained {t : TcpState} (h : t.qDrained = true) (i : Nat) :
    tcpWaiting t i = [] := by
  unfold tcpWaiting
  rw [TcpQueue.bytes_of_drained h, ite_self]

theorem tcpWaiting_other {t : TcpState} {i : Nat} (h : t.qCid ≠ i) : tcpWaiting t i = [] :=
  if_neg h

/-- The waiting bytes are a matter of the queue. -/
theorem tcpWaiting_congr {t t' : TcpState} (h : t'.queue = t.queue) (i : Nat) :
    tcpWaiting t' i = tcpWaiting t i := by
  have hqCid : t'.qCid = t.qCid := congrArg TcpQueue.qCid h
  unfold tcpWaiting
  rw [hqCid, h]

/-- Two slots in use have different peers. -/
theorem TcpTable.peer_ne {t : TcpState} (h : TcpTable t) {i j : Nat} (hi : i < maxTcpConn)
    (hj : j < maxTcpConn) (hij : i ≠ j) (hlive : (t.conn i).state ≠ .free)
    (hlive' : (t.conn j).state ≠ .free) : (t.conn i).peer ≠ (t.conn j).peer := by
  intro hpeer
  -- two slots in use under one key would be the same slot
  exact hij (h.distinct i (List.mem_range.mpr hi) j (List.mem_range.mpr hj) _
    (TcpState.key_eq_some.mpr ⟨hlive, hpeer⟩) (TcpState.key_eq_some.mpr ⟨hlive', rfl⟩))

theorem TcpSends.ne_free {t : TcpState} {i : Nat} (h : TcpSends t i) :
    (t.conn i).state ≠ .free := by
  rcases h with h | h <;> rw [h] <;> decide

/-- An event that notes nothing and leaves the queue and the open streams alone. -/
theorem TcpStreams.same {t t' : TcpState} {log : List (DialogueNote TcpPeer 32 U8)}
    (h : TcpStreams t log) (hqueue : t'.queue = t.queue)
    (howner : t.queue.bytes ≠ [] → (t'.conn t.qCid).state = .established)
    (hlive : ∀ i, TcpSends t' i → TcpSends t i ∧ (t'.conn i).peer = (t.conn i).peer
      ∧ (t'.conn i).seq = (t.conn i).seq) : TcpStreams t' (log ++ []) := by
  have hqCid : t'.qCid = t.qCid := congrArg TcpQueue.qCid hqueue
  rw [List.append_nil]
  refine ⟨by rw [hqueue]; exact h.inRange, ?_, h.closed, fun i hi hsends => ?_⟩
  · rw [hqueue, hqCid]
    exact howner
  · obtain ⟨hold, hpeer, hseq⟩ := hlive i hsends
    rw [hpeer, hseq, tcpWaiting_congr hqueue]
    exact h.live i hi hold

/-- A sender without a connection is given a free slot. -/
theorem TcpStreams.connects {t t' : TcpState} {log : List (DialogueNote TcpPeer 32 U8)} {cid : Nat}
    {p : TcpPeer} (h : TcpStreams t log) (hfree : (t.conn cid).state = .free)
    (hunknown : TcpUnknown t p) (hqueue : t'.queue = t.queue)
    (hother : ∀ j, j ≠ cid → t'.conn j = t.conn j) (hpeer : (t'.conn cid).peer = p) :
    TcpStreams t' (log ++ [.opened p]) := by
  have hqCid : t'.qCid = t.qCid := congrArg TcpQueue.qCid hqueue
  -- the owner of waiting bytes is established, so it is not the free slot
  have hnone : tcpWaiting t cid = [] := by
    by_contra hbytes
    have hmine : t.qCid = cid := by
      by_contra hne
      exact hbytes (tcpWaiting_other hne)
    have hest := h.owner (by rwa [tcpWaiting, if_pos hmine] at hbytes)
    rw [hmine, hfree] at hest
    cases hest
  refine ⟨by rw [hqueue]; exact h.inRange, ?_, fun q => ?_, fun i hi hsends => ?_⟩
  · rw [hqueue, hqCid]
    intro hbytes
    have hest := h.owner hbytes
    have hne : t.qCid ≠ cid := by
      intro hmine
      rw [hmine, hfree] at hest
      cases hest
    rw [hother _ hne]
    exact hest
  -- the note opens the dialogue of `p` and is no part of any other
  · by_cases hq : p = q
    · subst hq
      rw [dialogue_opened]
      exact (Streaming.nil 0).closesInOrder
    · rw [dialogue_other (n := .opened p) log hq]
      exact h.closed q
  · rw [tcpWaiting_congr hqueue]
    by_cases hic : i = cid
    -- the new stream is empty, and nothing waits for its slot
    · rw [hic, hpeer, dialogue_opened, hnone]
      exact Streaming.nil _
    · have hold : TcpSends t i := by
        unfold TcpSends at hsends ⊢
        rwa [hother i hic] at hsends
      -- an older connection is with somebody else, `p` having been unknown
      have hne : p ≠ (t.conn i).peer := fun heq =>
        hunknown i hi (TcpState.key_eq_some.mpr ⟨hold.ne_free, heq.symm⟩)
      rw [hother i hic, dialogue_other (n := .opened p) log hne]
      exact h.live i hi hold

/-- One note about the connection of slot `cid`, which every other slot sits out. -/
theorem TcpStreams.notes {t t' : TcpState} {log : List (DialogueNote TcpPeer 32 U8)} {cid : Nat}
    {n : StreamNote 32 U8} (h : TcpStreams t log)
    (halone : ∀ i, i < maxTcpConn → i ≠ cid → TcpSends t i →
      (t.conn cid).peer ≠ (t.conn i).peer)
    (hrange : t'.queue.InRange)
    (howner : t'.queue.bytes ≠ [] → (t'.conn t'.qCid).state = .established)
    (hother : ∀ i, i ≠ cid → t'.conn i = t.conn i)
    (hwaiting : ∀ i, i ≠ cid → tcpWaiting t' i = tcpWaiting t i)
    (hpeer : (t'.conn cid).peer = (t.conn cid).peer)
    (hclosed : ClosesInOrder (dialogue (t.conn cid).peer log ++ [n]))
    (hlive : TcpSends t' cid → Streaming (dialogue (t.conn cid).peer log ++ [n])
      (t'.conn cid).seq (tcpWaiting t' cid)) :
    TcpStreams t' (log ++ [.noted (t.conn cid).peer n]) := by
  refine ⟨hrange, howner, fun p => ?_, fun i hi hsends => ?_⟩
  -- the note belongs to the dialogue of one peer
  · by_cases hp : (t.conn cid).peer = p
    · rw [← hp, dialogue_noted]
      exact hclosed
    · rw [dialogue_other (n := .noted (t.conn cid).peer n) log hp]
      exact h.closed p
  · by_cases hic : i = cid
    · rw [hic] at hsends ⊢
      rw [hpeer, dialogue_noted]
      exact hlive hsends
    -- another slot keeps its record, its waiting bytes and its dialogue
    · have hold : TcpSends t i := by
        unfold TcpSends at hsends ⊢
        rwa [hother i hic] at hsends
      rw [hother i hic, hwaiting i hic,
        dialogue_other (n := .noted (t.conn cid).peer n) log (halone i hi hic hold)]
      exact h.live i hi hold

/-! ## §4. Data, the FIN, and what is flushed. -/

/-- The payload that is handed on is the payload of the frame. -/
theorem tcpSegmentBytes_eq (un : Uninit) {seg : TcpSeg} (frameBuf : Mem U32)
    (hfit : seg.plen.toNat ≤ 576) : tcpSegmentBytes seg frameBuf
      = (List.range seg.plen.toNat).map (tcpPayload un frameBuf seg) := by
  have hfit' : seg.plen ≤ tcpRxPayload := hfit
  unfold tcpSegmentBytes
  apply List.map_congr_left
  intro i hi
  rw [List.mem_range] at hi
  exact (tcpPayload_fits un frameBuf hfit' hi).symm

/-- Queueing a payload that fits, for the owner: all of it waits for the slot. -/
theorem tcpQueue_waiting {t : TcpState} {cid : Nat} (payload : Nat → U8) {payLen : U16}
    (hcid : cid < maxTcpConn) (hlen : 0 < payLen) (h : t.queue.InRange)
    (howner : t.qDrained = true ∨ t.qCid = cid)
    (hroom : tcpQueueUsed t + payLen.toNat ≤ 576) :
    (tcpQueue cid payload payLen t).qCid = cid
      ∧ tcpWaiting (tcpQueue cid payload payLen t) cid
        = tcpWaiting t cid ++ (List.range payLen.toNat).map payload
      ∧ ∀ i, i ≠ cid → tcpWaiting (tcpQueue cid payload payLen t) i = tcpWaiting t i := by
  obtain ⟨-, hqCid, hbytes⟩ := tcpQueue_owner payload hcid hlen h howner
  -- the payload fits, so all of it is taken
  have htakes : tcpTakesOver t cid payLen = payLen.toNat := by
    rw [tcpTakesOver_eq payLen hcid h]
    omega
  have hmine : tcpWaiting t cid = t.queue.bytes := by
    rcases howner with hd | hq
    · rw [tcpWaiting_of_drained hd, TcpQueue.bytes_of_drained hd]
    · exact if_pos hq
  refine ⟨hqCid, ?_, ?_⟩
  · rw [hmine, ← htakes, ← hbytes]
    exact if_pos hqCid
  · intro i hi
    -- before and after, nothing in the queue is for another slot
    have hold : tcpWaiting t i = [] := by
      rcases howner with hd | hq
      · exact tcpWaiting_of_drained hd i
      · exact tcpWaiting_other (by rw [hq]; exact Ne.symm hi)
    rw [hold]
    exact tcpWaiting_other (by rw [hqCid]; exact Ne.symm hi)

/-- **Data is taken**: it waits behind what already waits for the slot. -/
theorem TcpStreams.takes {t t' : TcpState} {log : List (DialogueNote TcpPeer 32 U8)} {cid : Nat}
    (un : Uninit) {seg : TcpSeg} {frameBuf : Mem U32} (h : TcpStreams t log)
    (halone : ∀ i, i < maxTcpConn → i ≠ cid → TcpSends t i →
      (t.conn cid).peer ≠ (t.conn i).peer)
    (hcid : cid < maxTcpConn) (hest : (t.conn cid).state = .established)
    (hdata : 0 < seg.plen → (t.qDrained = true ∨ t.qCid = cid)
      ∧ tcpQueueUsed t + seg.plen.toNat ≤ 576)
    (hother : ∀ i, i ≠ cid → t'.conn i = t.conn i)
    (hest' : (t'.conn cid).state = .established)
    (hpeer : (t'.conn cid).peer = (t.conn cid).peer)
    (hseq : (t'.conn cid).seq = (t.conn cid).seq)
    (hqueue : t'.queue = if 0 < seg.plen then
      (tcpQueue cid (tcpPayload un frameBuf seg) seg.plen t).queue else t.queue) :
    TcpStreams t' (log ++ [.noted (t.conn cid).peer (.taken (tcpSegmentBytes seg frameBuf))]) := by
  have hstream := h.live cid hcid (.inr hest)
  by_cases hlen : 0 < seg.plen
  -- with payload the queue becomes the slot's own, and its bytes go to the end
  · rw [if_pos hlen] at hqueue
    obtain ⟨howner, hroom⟩ := hdata hlen
    obtain ⟨hqCid, hmine, hothers⟩ :=
      tcpQueue_waiting (tcpPayload un frameBuf seg) hcid hlen h.inRange howner hroom
    have hfits : seg.plen.toNat ≤ 576 := by omega
    have hbytes := tcpSegmentBytes_eq un frameBuf hfits
    have hqCid' : t'.qCid = cid := (congrArg TcpQueue.qCid hqueue).trans hqCid
    refine h.notes halone ?_ ?_ hother ?_ hpeer (hstream.taken _).closesInOrder ?_
    · rw [hqueue]
      exact tcpQueue_inRange cid _ _ h.inRange
    · intro _
      rw [hqCid']
      exact hest'
    · intro i hi
      rw [tcpWaiting_congr hqueue, hothers i hi]
    · intro _
      rw [hseq, tcpWaiting_congr hqueue, hmine, ← hbytes]
      exact hstream.taken _
  -- without payload nothing is queued, and the note takes in no byte
  · rw [if_neg hlen] at hqueue
    have hzero : seg.plen = 0 := by
      by_contra hne
      exact hlen ((BitVec.pos_iff_ne_zero _).mpr hne)
    have hbytes : tcpSegmentBytes seg frameBuf = [] := by
      unfold tcpSegmentBytes
      rw [hzero]
      rfl
    have hqCid : t'.qCid = t.qCid := congrArg TcpQueue.qCid hqueue
    refine h.notes halone ?_ ?_ hother ?_ hpeer (hstream.taken _).closesInOrder ?_
    · rw [hqueue]
      exact h.inRange
    · rw [hqueue, hqCid]
      intro hwaits
      by_cases hq : t.qCid = cid
      · rw [hq]
        exact hest'
      · rw [hother _ hq]
        exact h.owner hwaits
    · intro i _
      exact tcpWaiting_congr hqueue i
    · intro _
      have hsame := hstream.taken (tcpSegmentBytes seg frameBuf)
      rwa [hseq, tcpWaiting_congr hqueue, ← List.append_nil (tcpWaiting t cid), ← hbytes]

/-- The answer to a FIN: an empty last frame to the peer, at the position of the connection. -/
theorem tcpTakeFin_frame (un : Uninit) {cid : Nat} {seg : TcpSeg} (t : TcpState) (sh : Shared)
    (hcid : cid < maxTcpConn) (hfin : hasFlag seg.flags tcpFin = true) :
    (tcpTakeFin un cid seg t sh).2.tcpDestination = (t.conn cid).peer
      ∧ (tcpTakeFin un cid seg t sh).2.tcpFrame
        = { seq := (t.conn cid).seq, items := [], last := true } := by
  have hempty : (0 : U16).toNat ≤ 576 := by decide
  obtain ⟨-, -, -, hdest, hseq, hflags⟩ :=
    tcpSend_frame un (tcpFin ||| tcpAck) none t sh hcid hempty
  have hitems := tcpSend_fin_carries un t sh hcid
  unfold tcpTakeFin
  rw [if_pos hfin]
  dsimp only
  refine ⟨hdest, ?_⟩
  unfold Shared.tcpFrame
  rw [hseq, hitems, hflags]
  rfl

/-- What the answer to a FIN leaves alone. -/
theorem tcpTakeFin_same (un : Uninit) {cid : Nat} {seg : TcpSeg} (t : TcpState) (sh : Shared)
    (hcid : cid < maxTcpConn) (hfin : hasFlag seg.flags tcpFin = true) :
    (tcpTakeFin un cid seg t sh).1.queue = t.queue
      ∧ (∀ i, i ≠ cid → (tcpTakeFin un cid seg t sh).1.conn i = t.conn i)
      ∧ ((tcpTakeFin un cid seg t sh).1.conn cid).state = .lastAck
      ∧ ((tcpTakeFin un cid seg t sh).1.conn cid).peer = (t.conn cid).peer
      ∧ (tcpTakeFin un cid seg t sh).1.retransDue = t.retransDue := by
  have hconn := tcpSend_conn un (tcpFin ||| tcpAck) none 0 t sh hcid
  have hcore := tcpSend_core un cid (tcpFin ||| tcpAck) none 0 t sh cid
  have hqueue := tcpSend_queue un cid (tcpFin ||| tcpAck) none 0 t sh
  have hdue := (tcpSend_due un cid (tcpFin ||| tcpAck) none 0 t sh).1
  unfold tcpTakeFin
  rw [if_pos hfin]
  dsimp only
  generalize tcpSend un cid (tcpFin ||| tcpAck) none 0 t sh = r at *
  refine ⟨hqueue, ?_, ?_, ?_, hdue⟩
  · intro i hi
    rw [setConn_other _ _ hi, hconn, Mem.set_other _ _ hi]
  · rw [setConn_same]
  · rw [setConn_same]
    exact TcpConn.peer_of_core (c := r.1.conn cid) hcore

/-- **A FIN is answered** when nothing of its slot waits. -/
theorem TcpStreams.closes {t : TcpState} {log : List (DialogueNote TcpPeer 32 U8)} {cid : Nat}
    (un : Uninit) (sh : Shared) (h : TcpStreams t log)
    (halone : ∀ i, i < maxTcpConn → i ≠ cid → TcpSends t i →
      (t.conn cid).peer ≠ (t.conn i).peer)
    (hcid : cid < maxTcpConn) (hest : (t.conn cid).state = .established)
    (hnothing : tcpWaiting t cid = []) {seg : TcpSeg} (hfin : hasFlag seg.flags tcpFin = true) :
    TcpStreams (tcpTakeFin un cid seg t sh).1
      (log ++ [.noted (tcpTakeFin un cid seg t sh).2.tcpDestination
        (.sent (tcpTakeFin un cid seg t sh).2.tcpFrame)]) := by
  obtain ⟨hdest, hframe⟩ := tcpTakeFin_frame un t sh hcid hfin
  obtain ⟨hqueue, hother, hstate, hpeer, -⟩ := tcpTakeFin_same un t sh hcid hfin
  have hstream := h.live cid hcid (.inr hest)
  generalize tcpTakeFin un cid seg t sh = r at *
  have hqCid : r.1.qCid = t.qCid := congrArg TcpQueue.qCid hqueue
  rw [hdest, hframe]
  refine h.notes halone ?_ ?_ hother ?_ hpeer ?_ ?_
  · rw [hqueue]
    exact h.inRange
  · rw [hqueue, hqCid]
    intro hwaits
    -- what waits is for a slot that is not being closed
    have hne : t.qCid ≠ cid := by
      intro hq
      unfold tcpWaiting at hnothing
      rw [if_pos hq] at hnothing
      exact hwaits hnothing
    rw [hother _ hne]
    exact h.owner hwaits
  · intro i _
    exact tcpWaiting_congr hqueue i
  · rw [hnothing] at hstream
    exact Streaming.close hstream rfl
  -- after its FIN the connection sends no more data
  · intro hsends
    unfold TcpSends at hsends
    rw [hstate] at hsends
    rcases hsends with hs | hs <;> cases hs

/-- What a flush leaves of the connection records, and the frame it sends. -/
theorem tcpFlush_frame (un : Uninit) {t : TcpState} (sh : Shared) (h : t.queue.InRange) :
    (tcpFlush un t sh).1.conn
        = t.conn.set t.qCid (tcpSendConn (t.conn t.qCid) tcpAck (tcpChunk t))
      ∧ (tcpFlush un t sh).2.tcpFrame.seq = (t.conn t.qCid).seq
      ∧ (tcpFlush un t sh).2.tcpFrame.last = false
      ∧ (tcpFlush un t sh).2.tcpFrame.items.length = (tcpChunk t).toNat := by
  have hslot : t.qCid < maxTcpConn := h.slot
  have hmax : (tcpChunk t).toNat ≤ 576 := by
    rw [toNat_tcpChunk h]
    omega
  have hconn := tcpSend_conn un tcpAck (some fun i => t.sendBufs t.qCid (t.qOff.toNat + i))
    (tcpChunk t) t sh hslot
  obtain ⟨-, -, -, -, hseq, hflags⟩ := tcpSend_frame un tcpAck
    (some fun i => t.sendBufs t.qCid (t.qOff.toNat + i)) t sh hslot hmax
  obtain ⟨-, -, hcarried⟩ := tcpSend_carries un
    (fun i => t.sendBufs t.qCid (t.qOff.toNat + i)) t sh hslot hmax
  -- after the send a flush moves the marks of the queue only
  obtain ⟨_, _, hflush⟩ := tcpFlush_statics un t sh
  rw [hflush]
  generalize tcpSend un t.qCid tcpAck (some fun i => t.sendBufs t.qCid (t.qOff.toNat + i))
    (tcpChunk t) t sh = r at hconn hseq hflags hcarried ⊢
  refine ⟨hconn, hseq, ?_, ?_⟩
  · show hasFlag r.2.tcpFlags tcpFin = false
    rw [hflags]
    decide
  · show r.2.tcpCarried.length = _
    rw [hcarried, List.length_map, List.length_range]

/-- **A flush** sends the front of what waits for the owner. -/
theorem TcpStreams.flush {t : TcpState} {log : List (DialogueNote TcpPeer 32 U8)}
    (un : Uninit) (sh : Shared) (h : TcpStreams t log) (htable : TcpTable t)
    (hgo : t.qOff < t.qLen) :
    TcpStreams (tcpFlush un t sh).1 (log ++ [.noted (tcpFlush un t sh).2.tcpDestination
      (.sent (tcpFlush un t sh).2.tcpFrame)]) := by
  obtain ⟨-, hdest, hbytes, hrange, hqCid⟩ := tcpFlush_spec un sh h.inRange
  obtain ⟨hconn, hseq, hlast, hlength⟩ := tcpFlush_frame un sh h.inRange
  have hslot : t.qCid < maxTcpConn := h.inRange.slot
  -- something waits, so the owner is established
  have hest : (t.conn t.qCid).state = .established :=
    h.owner ((TcpQueue.bytes_ne_nil_iff t).mpr hgo)
  have hstream := h.live t.qCid hslot (.inr hest)
  generalize tcpFlush un t sh = r at *
  have hcid : r.1.conn t.qCid = tcpSendConn (t.conn t.qCid) tcpAck (tcpChunk t) := by
    rw [hconn, Mem.set_same]
  have hcore : (r.1.conn t.qCid).core = (t.conn t.qCid).core := by
    rw [hcid, tcpSendConn_core]
  -- the frame carries the front of the waiting bytes
  have hsent : Streaming (dialogue (t.conn t.qCid).peer log ++ [.sent r.2.tcpFrame])
      r.2.tcpFrame.stop r.1.queue.bytes := by
    refine Streaming.sent ?_ hseq hlast
    show Streaming _ _ (r.2.tcpCarried ++ r.1.queue.bytes)
    rw [← hbytes]
    unfold tcpWaiting at hstream
    rwa [if_pos rfl] at hstream
  rw [hdest]
  refine h.notes ?_ hrange ?_ ?_ ?_ ?_ hsent.closesInOrder ?_
  · intro i hi hne hsends
    exact htable.peer_ne hslot hi (Ne.symm hne) (by rw [hest]; decide) hsends.ne_free
  · intro _
    rw [hqCid]
    exact (congrArg TcpCore.state hcore).trans hest
  · intro i hi
    rw [hconn, Mem.set_other _ _ hi]
  · intro i hi
    rw [tcpWaiting_other (Ne.symm hi)]
    exact tcpWaiting_other (by rw [hqCid]; exact Ne.symm hi)
  · exact TcpConn.peer_of_core hcore
  · intro _
    -- the position moves on by the chunk, to where the frame stops
    have hstop : r.2.tcpFrame.stop = (r.1.conn t.qCid).seq := by
      unfold StreamFrame.stop
      rw [hseq, hlength, hcid, tcpSendConn_seq]
      congr 1
      exact BitVec.eq_of_toNat_eq (by simp)
    unfold tcpWaiting
    rw [if_pos hqCid, ← hstop]
    exact hsent

end GigabitTcp
