/-
  GigabitTcp.Tcp.Runs — the TCP layer as a machine, and what one event can do to it.

  An event is a call of `tcp_rx_process` or of `tcp_maintenance`, with the shared state that
  the rest of the stack hands to it; nothing is assumed about that state, so every
  interleaving with the other layers is a run of this machine.

  Of a connection, the identity and the receive position matter here: state, peer and
  `peer_seq` (`TcpConn.core`).  The timers, the congestion window and everything else that
  a segment updates in passing are outside of it.  Seen as a table of slots, `tcp_conn` holds
  the peer of every slot that is not free, and `tcp_find` is its search by key.

  `tcpRx_cases` says once what a call of `tcp_rx_process` does to the cores and to the echo
  queue; the proofs about runs read that list and never unfold the function.
  `tcpReceive_cases` says the same of the whole state, down to the state switch.
-/
import GigabitTcp.Tcp.Frame
import GigabitTcp.Hw.Machine
import GigabitTcp.Hw.Slots

namespace GigabitTcp

open Hw Machine

/-! ## §1. Events. -/

/-- One call into the TCP layer. -/
inductive TcpEvent where
  /-- `tcp_rx_process` with `reset_n`, the IP metadata and the staged frame. -/
  | segment (un : Uninit) (rst : Bool) (ipRx : IpRx) (frameBuf : Mem U32) (sh : Shared)
  /-- `tcp_maintenance`. -/
  | maintenance (un : Uninit) (sh : Shared)

/-- The TCP layer as a machine over its events; it puts out the shared state. -/
def tcpMachine : Machine TcpState TcpEvent Shared
  | t, .segment un rst ipRx frameBuf sh => tcpRxProcess un rst ipRx frameBuf t sh
  | t, .maintenance un sh => tcpMaintenance un t sh

/-- The call looks for a slot when it sees a segment for the echo port. -/
def tcpForEcho (rst : Bool) (ipRx : IpRx) (frameBuf : Mem U32) : Bool :=
  rst && ipRx.valid && ipRx.protocol == ipProtoTcp && (tcpParse ipRx frameBuf).dp == tcpPortEcho

/-- The call scans the retransmission timers. -/
def tcpScans (rst : Bool) (ipRx : IpRx) : Bool :=
  rst && (!ipRx.valid || ipRx.protocol != ipProtoTcp)

/-- The slot a call of `tcp_rx_process` works on, if it is a segment for the echo port. -/
def tcpTarget (rst : Bool) (ipRx : IpRx) (frameBuf : Mem U32) (t : TcpState) : Option Nat :=
  if tcpForEcho rst ipRx frameBuf then tcpFind t (tcpParse ipRx frameBuf).sp ipRx.srcIp else none

/-- State, peer and receive position of a connection. -/
structure TcpCore where
  state : TcpSt
  peerIp : U32
  peerPort : U16
  peerSeq : U32
  deriving Repr, DecidableEq

def TcpConn.core (c : TcpConn) : TcpCore :=
  { state := c.state, peerIp := c.peerIp, peerPort := c.peerPort, peerSeq := c.peerSeq }

/-- The echo queue: buffers and descriptor. -/
structure TcpQueue where
  sendBufs : Nat → Mem U8
  qLen : U16
  qOff : U16
  qCid : Nat

def TcpState.queue (t : TcpState) : TcpQueue :=
  { sendBufs := t.sendBufs, qLen := t.qLen, qOff := t.qOff, qCid := t.qCid }

/-! ## §2. The slot search. -/

/-- The peer that slot `i` is taken by. -/
def TcpState.key (t : TcpState) (i : Nat) : Option TcpPeer :=
  if (t.conn i).state = .free then none else some (t.conn i).peer

theorem TcpState.key_eq_none {t : TcpState} {i : Nat} :
    t.key i = none ↔ (t.conn i).state = .free := by
  unfold TcpState.key
  split
  · rename_i h
    exact ⟨fun _ => h, fun _ => rfl⟩
  · rename_i h
    exact ⟨nofun, fun hfree => absurd hfree h⟩

theorem TcpState.key_eq_some {t : TcpState} {i : Nat} {p : TcpPeer} :
    t.key i = some p ↔ (t.conn i).state ≠ .free ∧ (t.conn i).peer = p := by
  unfold TcpState.key
  split
  · rename_i h
    exact ⟨nofun, fun hp => absurd h hp.1⟩
  · rename_i h
    rw [Option.some.injEq]
    exact ⟨fun hp => ⟨h, hp⟩, fun hp => hp.2⟩

theorem tcpFind_go_eq_search (t : TcpState) (port : U16) (ip : U32) (is : List Nat)
    (free : Option Nat) :
    tcpFind.go t port ip is free = Slots.search t.key { ip, port } is free := by
  induction is generalizing free with
  | nil => rfl
  | cons i is ih =>
      unfold tcpFind.go Slots.search
      -- the comparison of the source is the comparison of keys
      by_cases hmatch : (t.conn i).state ≠ .free ∧ (t.conn i).peerPort = port
          ∧ (t.conn i).peerIp = ip
      · have hkey : t.key i = some { ip, port } := by
          rw [TcpState.key_eq_some]
          refine ⟨hmatch.1, ?_⟩
          unfold TcpConn.peer
          rw [hmatch.2.1, hmatch.2.2]
        rw [if_pos hmatch, if_pos hkey]
      · have hkey : t.key i ≠ some { ip, port } := by
          rw [Ne, TcpState.key_eq_some]
          rintro ⟨hfree, hpeer⟩
          exact hmatch ⟨hfree, congrArg TcpPeer.port hpeer, congrArg TcpPeer.ip hpeer⟩
        rw [if_neg hmatch, if_neg hkey]
        by_cases hfree : (t.conn i).state = .free
        · rw [if_pos (TcpState.key_eq_none.mpr hfree)]
          cases free with
          | none => rw [if_pos ⟨hfree, rfl⟩, ih, Option.none_or]
          | some j => rw [if_neg (by rintro ⟨-, h⟩; cases h), ih, Option.some_or]
        · rw [if_neg (fun h => hfree h.1), if_neg (fun h => hfree (TcpState.key_eq_none.mp h)), ih]

/-- **`tcp_find` is a search by key.** -/
theorem tcpFind_eq_search (t : TcpState) (port : U16) (ip : U32) :
    tcpFind t port ip = Slots.search t.key { ip, port } (List.range maxTcpConn) none :=
  tcpFind_go_eq_search t port ip _ _

/-- A slot that is found is one of the three, and free or the peer's own. -/
theorem tcpFind_some {t : TcpState} {port : U16} {ip : U32} {i : Nat}
    (h : tcpFind t port ip = some i) :
    i < maxTcpConn ∧ ((t.conn i).state = .free ∨
      ((t.conn i).peerPort = port ∧ (t.conn i).peerIp = ip)) := by
  rw [tcpFind_eq_search] at h
  obtain ⟨hmem, hkey⟩ := Slots.search_some h
  refine ⟨List.mem_range.mp hmem, ?_⟩
  rcases hkey with hkey | hkey
  · have hpeer := (TcpState.key_eq_some.mp hkey).2
    exact .inr ⟨congrArg TcpPeer.port hpeer, congrArg TcpPeer.ip hpeer⟩
  · exact .inl (TcpState.key_eq_none.mp hkey)

theorem tcpTarget_some {rst : Bool} {ipRx : IpRx} {frameBuf : Mem U32} {t : TcpState} {cid : Nat}
    (h : tcpTarget rst ipRx frameBuf t = some cid) :
    tcpFind t (tcpParse ipRx frameBuf).sp ipRx.srcIp = some cid := by
  unfold tcpTarget at h
  split at h
  · exact h
  · cases h

/-! ## §3. Frame lemmas. -/

@[simp] theorem setConn_queue (t : TcpState) (cid : Nat) (c : TcpConn) :
    (t.setConn cid c).queue = t.queue := rfl

@[simp] theorem setConn_same (t : TcpState) (cid : Nat) (c : TcpConn) :
    (t.setConn cid c).conn cid = c := Mem.set_same _ _ _

theorem setConn_other (t : TcpState) {cid j : Nat} (c : TcpConn) (h : j ≠ cid) :
    (t.setConn cid c).conn j = t.conn j := Mem.set_other _ _ h

/-- Writing back a record with the same core changes no core. -/
theorem setConn_core {t : TcpState} {cid : Nat} {c : TcpConn} (h : c.core = (t.conn cid).core)
    (j : Nat) : ((t.setConn cid c).conn j).core = (t.conn j).core := by
  by_cases hj : j = cid
  · rw [hj, setConn_same, h]
  · rw [setConn_other t c hj]

/-- The bookkeeping of a send leaves the core alone. -/
theorem tcpSendConn_core (c : TcpConn) (flags : U8) (payLen : U16) :
    (tcpSendConn c flags payLen).core = c.core := by
  unfold tcpSendConn
  dsimp only
  split_ifs <;> rfl

/-- **What `tcp_send` does to the statics**: it writes the record of the slot and the copy for
retransmissions. -/
theorem tcpSend_statics (un : Uninit) {cid : Nat} (flags : U8) (payload : Option (Nat → U8))
    (payLen : U16) (t : TcpState) (sh : Shared) (hcid : cid < maxTcpConn) :
    ∃ retransBuf, (tcpSend un cid flags payload payLen t sh).1
      = { t.setConn cid (tcpSendConn (t.conn cid) flags payLen) with retransBuf } := by
  have hgo : ¬ maxTcpConn ≤ cid := Nat.not_le_of_lt hcid
  unfold tcpSend
  rw [if_neg hgo]
  dsimp only
  -- a SYN is not saved, and neither is a segment without payload
  unfold tcpSaveRetrans
  split
  · exact ⟨t.retransBuf, rfl⟩
  · split
    · exact ⟨_, rfl⟩
    · exact ⟨t.retransBuf, rfl⟩

theorem tcpSend_outside (un : Uninit) {cid : Nat} (flags : U8) (payload : Option (Nat → U8))
    (payLen : U16) (t : TcpState) (sh : Shared) (hcid : ¬ cid < maxTcpConn) :
    tcpSend un cid flags payload payLen t sh = (t, sh) := if_pos (Nat.le_of_not_lt hcid)

/-- Sending leaves every core and the echo queue alone. -/
theorem tcpSend_core (un : Uninit) (cid : Nat) (flags : U8) (payload : Option (Nat → U8))
    (payLen : U16) (t : TcpState) (sh : Shared) (j : Nat) :
    ((tcpSend un cid flags payload payLen t sh).1.conn j).core = (t.conn j).core := by
  by_cases hcid : cid < maxTcpConn
  · obtain ⟨buf, hstatics⟩ := tcpSend_statics un flags payload payLen t sh hcid
    rw [hstatics]
    exact setConn_core (tcpSendConn_core _ flags payLen) j
  · rw [tcpSend_outside un flags payload payLen t sh hcid]

theorem tcpSend_queue (un : Uninit) (cid : Nat) (flags : U8) (payload : Option (Nat → U8))
    (payLen : U16) (t : TcpState) (sh : Shared) :
    (tcpSend un cid flags payload payLen t sh).1.queue = t.queue := by
  by_cases hcid : cid < maxTcpConn
  · obtain ⟨buf, hstatics⟩ := tcpSend_statics un flags payload payLen t sh hcid
    rw [hstatics]
    rfl
  · rw [tcpSend_outside un flags payload payLen t sh hcid]

/-- Sending marks no connection as due, and forgets none. -/
theorem tcpSend_due (un : Uninit) (cid : Nat) (flags : U8) (payload : Option (Nat → U8))
    (payLen : U16) (t : TcpState) (sh : Shared) :
    (tcpSend un cid flags payload payLen t sh).1.retransDue = t.retransDue
      ∧ (tcpSend un cid flags payload payLen t sh).1.retransCid = t.retransCid := by
  by_cases hcid : cid < maxTcpConn
  · obtain ⟨buf, hstatics⟩ := tcpSend_statics un flags payload payLen t sh hcid
    rw [hstatics]
    exact ⟨rfl, rfl⟩
  · rw [tcpSend_outside un flags payload payLen t sh hcid]
    exact ⟨rfl, rfl⟩

/-- What sending does to the connection records. -/
theorem tcpSend_conn (un : Uninit) {cid : Nat} (flags : U8) (payload : Option (Nat → U8))
    (payLen : U16) (t : TcpState) (sh : Shared) (hcid : cid < maxTcpConn) :
    (tcpSend un cid flags payload payLen t sh).1.conn
      = t.conn.set cid (tcpSendConn (t.conn cid) flags payLen) := by
  obtain ⟨buf, hstatics⟩ := tcpSend_statics un flags payload payLen t sh hcid
  rw [hstatics]
  rfl

theorem setConn_self (t : TcpState) (i : Nat) : t.setConn i (t.conn i) = t := by
  have hself : t.conn.set i (t.conn i) = t.conn := by
    funext j
    by_cases hj : j = i
    · rw [hj, Mem.set_same]
    · rw [Mem.set_other _ _ hj]
  unfold TcpState.setConn
  rw [hself]

/-- **What the retransmission scan does to the statics**: timer and congestion fields of the
connection it looks at, and the mark for one that is due. -/
theorem tcpScanOne_statics (t : TcpState) (i : Nat) :
    ∃ rtoTimer rto ssthresh cwnd flightSize dupAckCnt retransDue retransCid,
      tcpScanOne t i = { t.setConn i { t.conn i with
          rtoTimer, rto, ssthresh, cwnd, flightSize, dupAckCnt } with retransDue, retransCid }
        ∧ (retransCid = t.retransCid ∨ retransCid = i) := by
  unfold tcpScanOne
  dsimp only
  split
  · split
    · exact ⟨_, _, _, _, _, _, _, _, rfl, .inr rfl⟩
    · exact ⟨_, _, _, _, _, _, _, _, rfl, .inl rfl⟩
  · -- no retransmission pending: everything keeps its value
    have hself := setConn_self t i
    exact ⟨(t.conn i).rtoTimer, (t.conn i).rto, (t.conn i).ssthresh, (t.conn i).cwnd,
      (t.conn i).flightSize, (t.conn i).dupAckCnt, t.retransDue, t.retransCid, hself.symm, .inl rfl⟩

/-- The retransmission scan leaves every core and the echo queue alone. -/
theorem tcpScanOne_core (t : TcpState) (i j : Nat) :
    ((tcpScanOne t i).conn j).core = (t.conn j).core ∧ (tcpScanOne t i).queue = t.queue := by
  obtain ⟨_, _, _, _, _, _, _, _, hstatics, -⟩ := tcpScanOne_statics t i
  rw [hstatics]
  refine ⟨?_, rfl⟩
  apply setConn_core
  rfl

theorem tcpScan_core : ∀ (is : List Nat) (t : TcpState) (j : Nat),
    ((is.foldl tcpScanOne t).conn j).core = (t.conn j).core
      ∧ (is.foldl tcpScanOne t).queue = t.queue
  | [], _, _ => ⟨rfl, rfl⟩
  | i :: is, t, j => by
      obtain ⟨hcore, hqueue⟩ := tcpScan_core is (tcpScanOne t i) j
      obtain ⟨hcore', hqueue'⟩ := tcpScanOne_core t i j
      exact ⟨hcore.trans hcore', hqueue.trans hqueue'⟩

/-- **What `tcp_queue` does to the statics**: it writes the echo queue. -/
theorem tcpQueue_statics (cid : Nat) (payload : Nat → U8) (payLen : U16) (t : TcpState) :
    ∃ q : TcpQueue, tcpQueue cid payload payLen t
      = { t with sendBufs := q.sendBufs, qLen := q.qLen, qOff := q.qOff, qCid := q.qCid } := by
  refine ⟨(tcpQueue cid payload payLen t).queue, ?_⟩
  unfold tcpQueue
  split
  · rfl
  · unfold tcpQueueRestart
    split <;> rfl

theorem tcpQueue_conn (cid : Nat) (payload : Nat → U8) (payLen : U16) (t : TcpState) :
    (tcpQueue cid payload payLen t).conn = t.conn := by
  obtain ⟨q, hstatics⟩ := tcpQueue_statics cid payload payLen t
  rw [hstatics]

theorem tcpQueue_due (cid : Nat) (payload : Nat → U8) (payLen : U16) (t : TcpState) :
    (tcpQueue cid payload payLen t).retransDue = t.retransDue
      ∧ (tcpQueue cid payload payLen t).retransCid = t.retransCid := by
  obtain ⟨q, hstatics⟩ := tcpQueue_statics cid payload payLen t
  rw [hstatics]
  exact ⟨rfl, rfl⟩

/-- Queueing does not look at the connection records. -/
theorem tcpQueue_setConn (cid : Nat) (payload : Nat → U8) (payLen : U16) (t : TcpState) (i : Nat)
    (c : TcpConn) :
    (tcpQueue cid payload payLen (t.setConn i c)).queue = (tcpQueue cid payload payLen t).queue := by
  unfold tcpQueue
  split
  · rfl
  -- whether the queue restarts depends on its own marks only
  · dsimp only [TcpState.queue]
    unfold tcpQueueRestart TcpState.qDrained TcpState.setConn
    dsimp only
    split <;> rfl

/-! ## §4. One call of `tcp_rx_process`. -/

/-- The record behind the option at `o`. -/
def tcpTakeOpt (frameBuf : Mem U32) (o : Nat) (c : TcpConn) : TcpConn :=
  let opt := frameBuf.byteAt 10
  if opt o = 2 ∧ 4 ≤ opt (o + 1) then { c with peerMss := be16 (opt (o + 2)) (opt (o + 3)) }
  else if opt o = 3 ∧ 3 ≤ opt (o + 1) then
    { c with peerWscale := if opt (o + 2) ≤ 7 then opt (o + 2) else 0 }
  else c

/-- One round of the option loop: where it goes on, and with which record, unless it ends. -/
def tcpOptRound (frameBuf : Mem U32) (optEnd o : Nat) (c : TcpConn) : Option (Nat × TcpConn) :=
  if o + 1 < optEnd then
    let opt := frameBuf.byteAt 10
    if opt o = 0 then none
    else if opt o = 1 then some (o + 1, c)
    else if opt (o + 1) < 2 then none
    else some (o + (opt (o + 1)).toNat, tcpTakeOpt frameBuf o c)
  else none

/-- The loop is a round, and the loop again where the round says. -/
theorem tcpOptLoop_succ (frameBuf : Mem U32) (optEnd fuel o : Nat) (c : TcpConn) :
    tcpOptLoop frameBuf optEnd (fuel + 1) o c
      = (tcpOptRound frameBuf optEnd o c).elim c
          (fun r => tcpOptLoop frameBuf optEnd fuel r.1 r.2) := by
  unfold tcpOptRound
  rw [tcpOptLoop]
  dsimp only
  by_cases hmore : o + 1 < optEnd
  · rw [if_pos hmore, if_pos hmore]
    by_cases hend : frameBuf.byteAt 10 o = 0
    · rw [if_pos hend, if_pos hend]
      rfl
    · rw [if_neg hend, if_neg hend]
      by_cases hnop : frameBuf.byteAt 10 o = 1
      · rw [if_pos hnop, if_pos hnop]
        rfl
      · rw [if_neg hnop, if_neg hnop]
        by_cases hshort : frameBuf.byteAt 10 (o + 1) < 2
        · rw [if_pos hshort, if_pos hshort]
          rfl
        · rw [if_neg hshort, if_neg hshort]
          rfl
  · rw [if_neg hmore, if_neg hmore]
    rfl

theorem tcpTakeOpt_statics (frameBuf : Mem U32) (o : Nat) (c : TcpConn) :
    ∃ peerMss peerWscale, tcpTakeOpt frameBuf o c = { c with peerMss, peerWscale } := by
  unfold tcpTakeOpt
  dsimp only
  split
  · exact ⟨_, _, rfl⟩
  · split
    · exact ⟨_, _, rfl⟩
    · exact ⟨c.peerMss, c.peerWscale, rfl⟩

/-- **A round** that goes on moves `o` on, and sets MSS and window scale only. -/
theorem tcpOptRound_some {frameBuf : Mem U32} {optEnd o o' : Nat} {c c' : TcpConn}
    (h : tcpOptRound frameBuf optEnd o c = some (o', c')) :
    o < o' ∧ o + 1 < optEnd ∧ ∃ peerMss peerWscale, c' = { c with peerMss, peerWscale } := by
  unfold tcpOptRound at h
  dsimp only at h
  split at h
  · rename_i hmore
    split at h
    · cases h
    · split at h
      · obtain ⟨rfl, rfl⟩ := Prod.mk.inj (Option.some.inj h)
        exact ⟨Nat.lt_succ_self o, hmore, c.peerMss, c.peerWscale, rfl⟩
      · split at h
        · cases h
        · rename_i hlen
          obtain ⟨rfl, rfl⟩ := Prod.mk.inj (Option.some.inj h)
          refine ⟨?_, hmore, tcpTakeOpt_statics frameBuf o c⟩
          have hlen' : 2 ≤ (frameBuf.byteAt 10 (o + 1)).toNat := Nat.not_lt.mp hlen
          omega
  · cases h

/-- The option loop sets MSS and window scale, and nothing else. -/
theorem tcpOptLoop_statics (frameBuf : Mem U32) (optEnd fuel o : Nat) (c : TcpConn) :
    ∃ peerMss peerWscale, tcpOptLoop frameBuf optEnd fuel o c = { c with peerMss, peerWscale } := by
  induction fuel generalizing o c with
  | zero => exact ⟨c.peerMss, c.peerWscale, rfl⟩
  | succ fuel ih =>
      rw [tcpOptLoop_succ]
      cases hround : tcpOptRound frameBuf optEnd o c with
      | none => exact ⟨c.peerMss, c.peerWscale, rfl⟩
      | some r =>
          -- the record of one round, then the rest
          obtain ⟨o', c'⟩ := r
          obtain ⟨-, -, _, _, hrecord⟩ := tcpOptRound_some hround
          obtain ⟨peerMss, peerWscale, hrest⟩ := ih o' c'
          show ∃ peerMss peerWscale, tcpOptLoop frameBuf optEnd fuel o' c' = _
          rw [hrest, hrecord]
          exact ⟨peerMss, peerWscale, rfl⟩

/-- What `tcp_rx_process` sets in a slot it opens, but for the options and the window they cut: it
is cut to an MSS that is not zero, and only if that is below 460. -/
theorem tcpOpen_statics (cid : Nat) (seg : TcpSeg) (frameBuf : Mem U32) (c : TcpConn) :
    ∃ cwnd peerMss peerWscale, (1 ≤ cwnd.toNat ∧ cwnd.toNat ≤ 460) ∧ tcpOpen cid seg frameBuf c = { c with
      state := .listen, cwnd, ssthresh := 65535, srtt := 0, rttvar := 0
      rto := tcpRtoMin, dupAckCnt := 0, seq := 0x12345678#32 ||| (BitVec.ofNat 32 cid <<< 20)
      peerSeq := 0, lastAckRecv := 0, flightSize := 0, peerMss, peerWscale, ourWscale := 7 } := by
  unfold tcpOpen
  dsimp only
  obtain ⟨peerMss, peerWscale, hopts⟩ := tcpOptLoop_statics frameBuf ((seg.doff.toNat - 5) * 4)
    ((seg.doff.toNat - 5) * 4) 0 { c with
      state := .listen, cwnd := tcpMss, ssthresh := 65535, srtt := 0, rttvar := 0
      rto := tcpRtoMin, dupAckCnt := 0, seq := 0x12345678#32 ||| (BitVec.ofNat 32 cid <<< 20)
      peerSeq := 0, lastAckRecv := 0, flightSize := 0, peerMss := 460, peerWscale := 0
      ourWscale := 7 }
  rw [hopts]
  split
  · rename_i hcut
    obtain ⟨hsmall, hpos⟩ := hcut
    have hsmall' : peerMss.toNat < 460 := hsmall
    have hpos' : 0 < peerMss.toNat := hpos
    have hcwnd : (peerMss.setWidth 32).toNat = peerMss.toNat := by
      rw [BitVec.toNat_setWidth]
      omega
    exact ⟨_, _, _, by rw [hcwnd]; omega, rfl⟩
  · have hcwnd : tcpMss.toNat = 460 := rfl
    exact ⟨_, _, _, by rw [hcwnd]; omega, rfl⟩

/-- A slot that is opened listens. -/
theorem tcpOpen_state (cid : Nat) (seg : TcpSeg) (frameBuf : Mem U32) (c : TcpConn) :
    (tcpOpen cid seg frameBuf c).state = .listen := by
  obtain ⟨_, _, _, -, hopen⟩ := tcpOpen_statics cid seg frameBuf c
  rw [hopen]

theorem tcpRenoOnAck_statics (c : TcpConn) (newAck : U32) :
    ∃ lastAckRecv dupAckCnt cwnd ssthresh flightSize rtoTimer retransPending,
      tcpRenoOnAck c newAck = { c with
        lastAckRecv, dupAckCnt, cwnd, ssthresh, flightSize, rtoTimer, retransPending } := by
  unfold tcpRenoOnAck
  dsimp only
  split
  · split
    · exact ⟨_, _, _, _, _, _, _, rfl⟩
    · split <;> exact ⟨_, _, _, _, _, _, _, rfl⟩
  · split
    · exact ⟨_, _, _, _, _, _, _, rfl⟩
    · exact ⟨_, _, _, _, _, _, _, rfl⟩

/-- **What a segment does before the state switch**: it updates the window and the congestion
control. -/
theorem tcpOnSegment_statics (c : TcpConn) (seg : TcpSeg) :
    ∃ peerWindow lastAckRecv dupAckCnt cwnd ssthresh flightSize rtoTimer retransPending,
      tcpOnSegment c seg = { c with
        peerWindow, lastAckRecv, dupAckCnt, cwnd, ssthresh, flightSize, rtoTimer, retransPending } := by
  unfold tcpOnSegment
  dsimp only
  split
  -- with ACK, the congestion control sees the new window
  · obtain ⟨_, _, _, _, _, _, _, hreno⟩ := tcpRenoOnAck_statics { c with
      peerWindow := if 0 < seg.wnd then seg.wnd.setWidth 32 <<< c.peerWscale.toNat
        else seg.wnd.setWidth 32 } seg.ack
    exact ⟨_, _, _, _, _, _, _, _, hreno⟩
  · exact ⟨_, _, _, _, _, _, _, _, rfl⟩

theorem tcpOnSegment_core (c : TcpConn) (seg : TcpSeg) : (tcpOnSegment c seg).core = c.core := by
  obtain ⟨_, _, _, _, _, _, _, _, hstatics⟩ := tcpOnSegment_statics c seg
  rw [hstatics]
  rfl

theorem tcpOnSegment_state (c : TcpConn) (seg : TcpSeg) : (tcpOnSegment c seg).state = c.state :=
  congrArg TcpCore.state (tcpOnSegment_core c seg)

/-- The segment makes its sender the peer of slot `cid`: a SYN to a free slot, or a SYN to a
slot that listens. -/
def TcpConnects (t : TcpState) (cid : Nat) (seg : TcpSeg) : Prop :=
  ((t.conn cid).state = .free ∧ seg.opens = true)
    ∨ ((t.conn cid).state = .listen ∧ hasFlag seg.flags tcpSyn = true)

instance (t : TcpState) (cid : Nat) (seg : TcpSeg) : Decidable (TcpConnects t cid seg) :=
  inferInstanceAs (Decidable (_ ∨ _))

/-- A slot that is neither free nor listening has its peer. -/
theorem not_tcpConnects {t : TcpState} {cid : Nat} (seg : TcpSeg)
    (hfree : (t.conn cid).state ≠ .free) (hlisten : (t.conn cid).state ≠ .listen) :
    ¬ TcpConnects t cid seg := by
  rintro (⟨h, _⟩ | ⟨h, _⟩)
  · exact hfree h
  · exact hlisten h

/-- A segment that opens carries SYN. -/
theorem TcpSeg.opens_syn {seg : TcpSeg} (h : seg.opens = true) : hasFlag seg.flags tcpSyn = true := by
  unfold TcpSeg.opens at h
  rw [Bool.and_eq_true] at h
  exact h.1

/-- `case T_LISTEN` with a SYN. -/
theorem tcpListen_syn (un : Uninit) (cid : Nat) {seg : TcpSeg} (ipRx : IpRx) (t : TcpState)
    (sh : Shared) (hsyn : hasFlag seg.flags tcpSyn = true) :
    (∀ j, j ≠ cid → (((tcpListen un cid seg ipRx t sh).1.conn j)).core = (t.conn j).core)
      ∧ ((tcpListen un cid seg ipRx t sh).1.conn cid).core
        = { state := .synRcvd, peerIp := ipRx.srcIp, peerPort := seg.sp, peerSeq := seg.seq + 1 }
      ∧ (tcpListen un cid seg ipRx t sh).1.queue = t.queue := by
  unfold tcpListen
  rw [if_pos hsyn]
  refine ⟨?_, ?_, ?_⟩
  · intro j hj
    rw [tcpSend_core, setConn_other t _ hj]
  · rw [tcpSend_core, setConn_same]
    rfl
  · rw [tcpSend_queue, setConn_queue]

/-- `case T_ESTABLISHED` up to the FIN: `peer_seq` moves on, and the data is queued or, without
data, the ACK noted. -/
def tcpTakeData (cid : Nat) (seg : TcpSeg) (payload : Nat → U8) (t : TcpState) : TcpState :=
  let t := t.setConn cid { t.conn cid with peerSeq := tcpAdvance seg }
  if 0 < seg.plen then tcpQueue cid payload seg.plen t
  else if hasFlag seg.flags tcpAck then t.setConn cid { t.conn cid with retransPending := false }
  else t

/-- The FIN of `case T_ESTABLISHED`: it is answered at once. -/
def tcpTakeFin (un : Uninit) (cid : Nat) (seg : TcpSeg) (t : TcpState) (sh : Shared) :
    TcpState × Shared :=
  if hasFlag seg.flags tcpFin then
    let r := tcpSend un cid (tcpFin ||| tcpAck) none 0 t sh
    (r.1.setConn cid { r.1.conn cid with state := .lastAck }, r.2)
  else (t, sh)

theorem tcpEstablished_eq (un : Uninit) (cid : Nat) (seg : TcpSeg) (payload : Nat → U8)
    (t : TcpState) (sh : Shared) :
    tcpEstablished un cid seg payload t sh
      = tcpTakeFin un cid seg (tcpTakeData cid seg payload t) sh := rfl

theorem tcpTakeData_other {cid : Nat} (seg : TcpSeg) (payload : Nat → U8) (t : TcpState) {j : Nat}
    (hj : j ≠ cid) : (tcpTakeData cid seg payload t).conn j = t.conn j := by
  unfold tcpTakeData
  dsimp only
  split
  · rw [tcpQueue_conn, setConn_other t _ hj]
  · split
    · rw [setConn_other _ _ hj, setConn_other t _ hj]
    · exact setConn_other t _ hj

theorem tcpTakeData_core (cid : Nat) (seg : TcpSeg) (payload : Nat → U8) (t : TcpState) :
    ((tcpTakeData cid seg payload t).conn cid).core
      = { (t.conn cid).core with peerSeq := tcpAdvance seg } := by
  unfold tcpTakeData
  dsimp only
  split
  · rw [tcpQueue_conn, setConn_same]
    rfl
  · split
    · rw [setConn_same, setConn_same]
      rfl
    · rw [setConn_same]
      rfl

theorem tcpTakeData_queue (cid : Nat) (seg : TcpSeg) (payload : Nat → U8) (t : TcpState) :
    (tcpTakeData cid seg payload t).queue
      = if 0 < seg.plen then (tcpQueue cid payload seg.plen t).queue else t.queue := by
  unfold tcpTakeData
  dsimp only
  split
  · rw [tcpQueue_setConn]
  · split
    · rw [setConn_queue, setConn_queue]
    · rw [setConn_queue]

/-- `case T_ESTABLISHED`. -/
theorem tcpEstablished_spec (un : Uninit) (cid : Nat) (seg : TcpSeg) (payload : Nat → U8)
    (t : TcpState) (sh : Shared) :
    (∀ j, j ≠ cid → ((tcpEstablished un cid seg payload t sh).1.conn j).core = (t.conn j).core)
      ∧ ((tcpEstablished un cid seg payload t sh).1.conn cid).core
        = { state := if hasFlag seg.flags tcpFin then .lastAck else (t.conn cid).state
            peerIp := (t.conn cid).peerIp, peerPort := (t.conn cid).peerPort
            peerSeq := tcpAdvance seg }
      ∧ (tcpEstablished un cid seg payload t sh).1.queue
        = if 0 < seg.plen then (tcpQueue cid payload seg.plen t).queue else t.queue := by
  rw [tcpEstablished_eq, ← tcpTakeData_queue]
  have hother : ∀ j, j ≠ cid →
      ((tcpTakeData cid seg payload t).conn j).core = (t.conn j).core :=
    fun j hj => congrArg TcpConn.core (tcpTakeData_other seg payload t hj)
  have hcid := tcpTakeData_core cid seg payload t
  generalize tcpTakeData cid seg payload t = t₁ at hother hcid ⊢
  unfold tcpTakeFin
  split
  · refine ⟨?_, ?_, ?_⟩
    · intro j hj
      rw [setConn_other _ _ hj, tcpSend_core, hother j hj]
    -- sending the FIN keeps the core, and then the state is overwritten
    · have hcore := tcpSend_core un cid (tcpFin ||| tcpAck) none 0 t₁ sh cid
      rw [hcid] at hcore
      rw [setConn_same]
      show { ((tcpSend un cid (tcpFin ||| tcpAck) none 0 t₁ sh).1.conn cid).core with
        state := TcpSt.lastAck } = _
      rw [hcore]
      rfl
    · rw [setConn_queue, tcpSend_queue]
  · exact ⟨hother, by rw [hcid]; rfl, rfl⟩

/-- What a segment for slot `cid` does: to the core of that slot and to the echo queue. -/
inductive TcpStepOn (cid : Nat) (seg : TcpSeg) (payload : Nat → U8) (srcIp : U32)
    (t t' : TcpState) : Prop where
  /-- The sender becomes the peer of the slot. -/
  | connects (h : TcpConnects t cid seg)
      (hcore : (t'.conn cid).core
        = { state := .synRcvd, peerIp := srcIp, peerPort := seg.sp, peerSeq := seg.seq + 1 })
      (hqueue : t'.queue = t.queue)
  /-- The segment reaches an established connection: its payload is queued. -/
  | receives (h : (t.conn cid).state = .established)
      (hcore : (t'.conn cid).core
        = { state := if hasFlag seg.flags tcpFin then .lastAck else .established
            peerIp := (t.conn cid).peerIp, peerPort := (t.conn cid).peerPort
            peerSeq := tcpAdvance seg })
      (hqueue : t'.queue
        = if 0 < seg.plen then (tcpQueue cid payload seg.plen t).queue else t.queue)
  /-- Everything else moves at most the state of the slot. -/
  | moves (hconn : ¬ TcpConnects t cid seg) (hest : (t.conn cid).state ≠ .established)
      (state : TcpSt) (hto : state = .established → (t.conn cid).state = .synRcvd)
      (hcore : (t'.conn cid).core = { (t.conn cid).core with state })
      (hqueue : t'.queue = t.queue)

/-- The state switch, entered with the records the segment found (up to the window update). -/
theorem tcpSwitch_step (un : Uninit) (cid : Nat) (seg : TcpSeg) (payload : Nat → U8) (ipRx : IpRx)
    (t : TcpState) (sh : Shared) (hfree : (t.conn cid).state ≠ .free) :
    (∀ j, j ≠ cid →
        ((tcpSwitch un cid seg payload ipRx t sh).1.conn j).core = (t.conn j).core)
      ∧ TcpStepOn cid seg payload ipRx.srcIp t (tcpSwitch un cid seg payload ipRx t sh).1 := by
  -- two cases only write the record of the slot, with at most another state
  have hwrite : ∀ (c : TcpConn) (state : TcpSt), c.core = { (t.conn cid).core with state } →
      (state = .established → (t.conn cid).state = .synRcvd) →
      ¬ TcpConnects t cid seg → (t.conn cid).state ≠ .established →
      (∀ j, j ≠ cid → ((t.setConn cid c).conn j).core = (t.conn j).core)
        ∧ TcpStepOn cid seg payload ipRx.srcIp t (t.setConn cid c) := by
    intro c state hc hto hconn hest
    refine ⟨fun j hj => by rw [setConn_other t c hj], .moves hconn hest state hto ?_ rfl⟩
    rw [setConn_same, hc]
  unfold tcpSwitch
  cases hst : (t.conn cid).state with
  | free => exact absurd hst hfree
  | listen =>
      by_cases hsyn : hasFlag seg.flags tcpSyn = true
      · obtain ⟨hother, hcid, hqueue⟩ := tcpListen_syn un cid ipRx t sh hsyn
        exact ⟨hother, .connects (.inr ⟨hst, hsyn⟩) hcid hqueue⟩
      -- without SYN a listening slot goes on listening
      · have hconn : ¬ TcpConnects t cid seg := by
          rintro (⟨h, _⟩ | ⟨_, h⟩)
          · exact hfree h
          · exact hsyn h
        show _ ∧ TcpStepOn cid seg payload ipRx.srcIp t (tcpListen un cid seg ipRx t sh).1
        unfold tcpListen
        rw [if_neg hsyn]
        exact ⟨fun _ _ => rfl, .moves hconn (by rw [hst]; decide) .listen nofun
          (by rw [← hst]; rfl) rfl⟩
  | synRcvd =>
      -- the ACK of the SYN+ACK leads up, everything else keeps the state
      have hcore : ∃ state, (tcpSynRcvd seg (t.conn cid)).core
          = { (t.conn cid).core with state } := by
        unfold tcpSynRcvd
        split
        · exact ⟨_, rfl⟩
        · exact ⟨(t.conn cid).state, rfl⟩
      obtain ⟨state, hcore⟩ := hcore
      exact hwrite _ state hcore (fun _ => hst)
        (not_tcpConnects seg hfree (by rw [hst]; decide)) (by rw [hst]; decide)
  | established =>
      obtain ⟨hother, hcid, hqueue⟩ := tcpEstablished_spec un cid seg payload t sh
      rw [hst] at hcid
      exact ⟨hother, .receives hst hcid hqueue⟩
  | lastAck =>
      -- any ACK frees the slot
      have hcore : ∃ state, (tcpLastAck seg (t.conn cid)).core
          = { (t.conn cid).core with state } ∧ state ≠ .established := by
        unfold tcpLastAck
        split
        · exact ⟨.free, rfl, nofun⟩
        · exact ⟨(t.conn cid).state, rfl, by rw [hst]; decide⟩
      obtain ⟨state, hcore, hstate⟩ := hcore
      exact hwrite _ state hcore (fun h => absurd h hstate)
        (not_tcpConnects seg hfree (by rw [hst]; decide)) (by rw [hst]; decide)

/-- The step relation looks at the cores and at the queue only. -/
theorem TcpStepOn.of_same {cid : Nat} {seg : TcpSeg} {payload : Nat → U8} {srcIp : U32}
    {t t₁ t' : TcpState} (hcore : (t₁.conn cid).core = (t.conn cid).core)
    (hqueue : t₁.queue = t.queue)
    (hput : (tcpQueue cid payload seg.plen t₁).queue = (tcpQueue cid payload seg.plen t).queue)
    (h : TcpStepOn cid seg payload srcIp t₁ t') : TcpStepOn cid seg payload srcIp t t' := by
  have hstate : (t₁.conn cid).state = (t.conn cid).state := congrArg TcpCore.state hcore
  have hconnects : TcpConnects t₁ cid seg ↔ TcpConnects t cid seg := by
    unfold TcpConnects
    rw [hstate]
  cases h with
  | connects h hcid hq => exact .connects (hconnects.mp h) hcid (hq.trans hqueue)
  | receives h hcid hq =>
      refine .receives (hstate.symm.trans h) ?_ ?_
      · rw [hcid]
        exact congrArg₂ (fun ip port => TcpCore.mk _ ip port _)
          (congrArg TcpCore.peerIp hcore) (congrArg TcpCore.peerPort hcore)
      · rw [hq, hput, hqueue]
  | moves hconn hest state hto hcid hq =>
      refine .moves (fun hc => hconn (hconnects.mpr hc)) (fun he => hest (hstate.trans he)) state
        (fun h => hstate.symm.trans (hto h)) ?_ (hq.trans hqueue)
      rw [hcid, hcore]

/-- A segment whose sender has no slot, and gets none. -/
theorem tcpReceive_none (un : Uninit) {ipRx : IpRx} {seg : TcpSeg} (frameBuf : Mem U32)
    {t : TcpState} (sh : Shared) (hfind : tcpFind t seg.sp ipRx.srcIp = none) :
    tcpReceive un ipRx seg frameBuf t sh = (t, sh) := by
  unfold tcpReceive
  rw [hfind]

/-- A free slot that the segment does not open. -/
theorem tcpReceive_closed (un : Uninit) {ipRx : IpRx} {seg : TcpSeg} (frameBuf : Mem U32)
    {t : TcpState} (sh : Shared) {cid : Nat} (hfind : tcpFind t seg.sp ipRx.srcIp = some cid)
    (hfree : (t.conn cid).state = .free) (hclosed : ¬ seg.opens = true) :
    tcpReceive un ipRx seg frameBuf t sh = (t, sh) := by
  have hno : ¬ ((t.conn cid).state = .free ∧ seg.opens = true) := fun h => hclosed h.2
  unfold tcpReceive
  rw [hfind]
  dsimp only
  rw [if_neg hno, if_pos hfree]

/-- A free slot that the segment opens: the switch of the same call finds it listening. -/
theorem tcpReceive_opened (un : Uninit) {ipRx : IpRx} {seg : TcpSeg} (frameBuf : Mem U32)
    {t : TcpState} (sh : Shared) {cid : Nat} (hfind : tcpFind t seg.sp ipRx.srcIp = some cid)
    (hfree : (t.conn cid).state = .free) (hopens : seg.opens = true) :
    tcpReceive un ipRx seg frameBuf t sh
      = tcpSwitch un cid seg (tcpPayload un frameBuf seg) ipRx
          ((t.setConn cid (tcpOpen cid seg frameBuf (t.conn cid))).setConn cid
            (tcpOnSegment (tcpOpen cid seg frameBuf (t.conn cid)) seg)) sh := by
  have hopen : (t.conn cid).state = .free ∧ seg.opens = true := ⟨hfree, hopens⟩
  unfold tcpReceive
  rw [hfind]
  dsimp only
  rw [if_pos hopen, setConn_same, tcpOpen_state, if_neg (by decide)]

theorem tcpOpened_state (cid : Nat) (seg : TcpSeg) (frameBuf : Mem U32) (c : TcpConn) :
    (tcpOnSegment (tcpOpen cid seg frameBuf c) seg).state = .listen :=
  (tcpOnSegment_state _ seg).trans (tcpOpen_state cid seg frameBuf c)

/-- A slot in use: window update and congestion control, then the state switch. -/
theorem tcpReceive_live (un : Uninit) {ipRx : IpRx} {seg : TcpSeg} (frameBuf : Mem U32)
    {t : TcpState} (sh : Shared) {cid : Nat} (hfind : tcpFind t seg.sp ipRx.srcIp = some cid)
    (hlive : (t.conn cid).state ≠ .free) :
    tcpReceive un ipRx seg frameBuf t sh
      = tcpSwitch un cid seg (tcpPayload un frameBuf seg) ipRx
          (t.setConn cid (tcpOnSegment (t.conn cid) seg)) sh := by
  have hno : ¬ ((t.conn cid).state = .free ∧ seg.opens = true) := fun h => hlive h.1
  unfold tcpReceive
  rw [hfind]
  dsimp only
  rw [if_neg hno, if_neg hlive]

/-- The record written last stands. -/
theorem setConn_setConn (t : TcpState) (cid : Nat) (c d : TcpConn) :
    (t.setConn cid c).setConn cid d = t.setConn cid d := by
  have hconn : (t.conn.set cid c).set cid d = t.conn.set cid d := by
    funext j
    by_cases hj : j = cid
    · rw [hj, Mem.set_same, Mem.set_same]
    · rw [Mem.set_other _ _ hj, Mem.set_other _ _ hj, Mem.set_other _ _ hj]
  exact congrArg (fun conn => { t with conn }) hconn

/-- **A segment** changes nothing, or goes to the state switch with a new record in its slot. -/
theorem tcpReceive_cases (un : Uninit) (ipRx : IpRx) (seg : TcpSeg) (frameBuf : Mem U32) (t : TcpState) :
    (∀ sh, tcpReceive un ipRx seg frameBuf t sh = (t, sh))
      ∨ ∃ cid c, tcpFind t seg.sp ipRx.srcIp = some cid ∧
        ∀ sh, tcpReceive un ipRx seg frameBuf t sh
          = tcpSwitch un cid seg (tcpPayload un frameBuf seg) ipRx (t.setConn cid c) sh := by
  cases hfind : tcpFind t seg.sp ipRx.srcIp with
  | none => exact .inl fun sh => tcpReceive_none un frameBuf sh hfind
  | some cid =>
      by_cases hfree : (t.conn cid).state = .free
      · by_cases hopens : seg.opens = true
        · refine .inr ⟨cid, tcpOnSegment (tcpOpen cid seg frameBuf (t.conn cid)) seg, rfl, ?_⟩
          intro sh
          rw [tcpReceive_opened un frameBuf sh hfind hfree hopens, setConn_setConn]
        · exact .inl fun sh => tcpReceive_closed un frameBuf sh hfind hfree hopens
      · refine .inr ⟨cid, tcpOnSegment (t.conn cid) seg, rfl, ?_⟩
        exact fun sh => tcpReceive_live un frameBuf sh hfind hfree

/-- **A segment with a slot** works on the core of that slot only. -/
theorem tcpReceive_step (un : Uninit) {cid : Nat} (ipRx : IpRx) (seg : TcpSeg)
    (frameBuf : Mem U32) (t : TcpState) (sh : Shared)
    (hfind : tcpFind t seg.sp ipRx.srcIp = some cid) :
    (∀ j, j ≠ cid →
        ((tcpReceive un ipRx seg frameBuf t sh).1.conn j).core = (t.conn j).core)
      ∧ TcpStepOn cid seg (tcpPayload un frameBuf seg) ipRx.srcIp t
        (tcpReceive un ipRx seg frameBuf t sh).1 := by
  by_cases hfree : (t.conn cid).state = .free
  · by_cases hopens : seg.opens = true
    · rw [tcpReceive_opened un frameBuf sh hfind hfree hopens]
      -- the slot listens for the rest of the call, and the SYN connects it
      unfold tcpSwitch
      rw [setConn_same, tcpOpened_state]
      dsimp only
      obtain ⟨hother, hcid, hqueue⟩ := tcpListen_syn un cid ipRx
        ((t.setConn cid (tcpOpen cid seg frameBuf (t.conn cid))).setConn cid
          (tcpOnSegment (tcpOpen cid seg frameBuf (t.conn cid)) seg)) sh (TcpSeg.opens_syn hopens)
      refine ⟨?_, .connects (.inl ⟨hfree, hopens⟩) hcid ?_⟩
      · intro j hj
        rw [hother j hj, setConn_other _ _ hj, setConn_other t _ hj]
      · rw [hqueue, setConn_queue, setConn_queue]
    · rw [tcpReceive_closed un frameBuf sh hfind hfree hopens]
      -- the slot is free, but the segment does not open it
      have hconn : ¬ TcpConnects t cid seg := by
        rintro (⟨_, h⟩ | ⟨h, _⟩)
        · exact hopens h
        · rw [hfree] at h
          cases h
      exact ⟨fun _ _ => rfl, .moves hconn (by rw [hfree]; decide) .free nofun (by rw [← hfree]; rfl)
        rfl⟩
  · rw [tcpReceive_live un frameBuf sh hfind hfree]
    have hcore := tcpOnSegment_core (t.conn cid) seg
    have hlive : (tcpOnSegment (t.conn cid) seg).state ≠ .free := by
      rw [tcpOnSegment_state]
      exact hfree
    obtain ⟨hother, hstep⟩ := tcpSwitch_step un cid seg (tcpPayload un frameBuf seg) ipRx
      (t.setConn cid (tcpOnSegment (t.conn cid) seg)) sh (by rw [setConn_same]; exact hlive)
    refine ⟨?_, hstep.of_same (setConn_core hcore cid) (setConn_queue _ _ _) ?_⟩
    · intro j hj
      rw [hother j hj, setConn_other t _ hj]
    · exact tcpQueue_setConn _ _ _ _ _ _

theorem tcpRxProcess_forEcho (un : Uninit) {rst : Bool} {ipRx : IpRx} {frameBuf : Mem U32}
    (t : TcpState) (sh : Shared) (h : tcpForEcho rst ipRx frameBuf = true) :
    tcpTarget rst ipRx frameBuf t = tcpFind t (tcpParse ipRx frameBuf).sp ipRx.srcIp
      ∧ tcpRxProcess un rst ipRx frameBuf t sh
        = tcpReceive un ipRx (tcpParse ipRx frameBuf) frameBuf t sh := by
  refine ⟨if_pos h, ?_⟩
  unfold tcpForEcho at h
  simp only [Bool.and_eq_true, beq_iff_eq] at h
  obtain ⟨⟨⟨hrst, hvalid⟩, hproto⟩, hdp⟩ := h
  unfold tcpRxProcess
  rw [if_neg (by simp [hrst]), if_neg (by simp [hvalid, hproto])]
  exact if_neg (not_not.mpr hdp)

/-- Without a segment for the echo port there is a reset, a timer scan, or nothing; the shared
state is neither read nor written. -/
theorem tcpRxProcess_idle (un : Uninit) {rst : Bool} {ipRx : IpRx} {frameBuf : Mem U32}
    (t : TcpState) (h : ¬ tcpForEcho rst ipRx frameBuf = true) :
    (rst = false ∧ ∀ sh, tcpRxProcess un rst ipRx frameBuf t sh
        = ({ t with conn := fun i =>
              if i < maxTcpConn then { t.conn i with state := .free } else t.conn i }, sh))
      ∨ (tcpScans rst ipRx = true ∧ ∀ sh, tcpRxProcess un rst ipRx frameBuf t sh
        = ((List.range maxTcpConn).foldl tcpScanOne t, sh))
      ∨ (tcpScans rst ipRx = false ∧ ∀ sh, tcpRxProcess un rst ipRx frameBuf t sh = (t, sh)) := by
  unfold tcpRxProcess tcpScans
  -- in the order of the returns of `tcp_rx_process`
  by_cases hrst : (!rst) = true
  · exact .inl ⟨by simpa using hrst, fun sh => if_pos hrst⟩
  · by_cases hip : (!ipRx.valid || ipRx.protocol != ipProtoTcp) = true
    · refine .inr (.inl ⟨?_, fun sh => by rw [if_neg hrst, if_pos hip]⟩)
      rw [hip]
      simpa using hrst
    · have hdp : (tcpParse ipRx frameBuf).dp ≠ tcpPortEcho := by
        intro hdp
        apply h
        unfold tcpForEcho
        simp_all
      refine .inr (.inr ⟨?_, fun sh => by rw [if_neg hrst, if_neg hip]; exact if_pos hdp⟩)
      rw [Bool.eq_false_iff.mpr hip, Bool.and_false]

/-- Without a segment for the echo port slots are freed at most. -/
theorem tcpRxProcess_notForEcho (un : Uninit) {rst : Bool} {ipRx : IpRx} {frameBuf : Mem U32}
    (t : TcpState) (sh : Shared) (h : ¬ tcpForEcho rst ipRx frameBuf = true) :
    tcpTarget rst ipRx frameBuf t = none
      ∧ (tcpRxProcess un rst ipRx frameBuf t sh).2 = sh
      ∧ (tcpRxProcess un rst ipRx frameBuf t sh).1.queue = t.queue
      ∧ ∀ j, ∃ state, ((tcpRxProcess un rst ipRx frameBuf t sh).1.conn j).core
            = { (t.conn j).core with state }
          ∧ (state = (t.conn j).state ∨ (rst = false ∧ state = .free)) := by
  refine ⟨if_neg h, ?_⟩
  rcases tcpRxProcess_idle un t h with ⟨hrst, hcall⟩ | ⟨-, hcall⟩ | ⟨-, hcall⟩
  · rw [hcall]
    refine ⟨rfl, rfl, fun j => ?_⟩
    dsimp only
    by_cases hj : j < maxTcpConn
    -- a reset frees the slots that exist
    · exact ⟨.free, by rw [if_pos hj]; rfl, .inr ⟨hrst, rfl⟩⟩
    · exact ⟨(t.conn j).state, by rw [if_neg hj]; rfl, .inl rfl⟩
  · rw [hcall]
    exact ⟨rfl, (tcpScan_core _ t 0).2,
      fun j => ⟨(t.conn j).state, (tcpScan_core _ t j).1, .inl rfl⟩⟩
  · rw [hcall]
    exact ⟨rfl, rfl, fun j => ⟨(t.conn j).state, rfl, .inl rfl⟩⟩

/-- **A call of `tcp_rx_process`**: without a target it frees slots at most; with a target it
works on the core of that slot only. -/
theorem tcpRx_cases (un : Uninit) (rst : Bool) (ipRx : IpRx) (frameBuf : Mem U32) (t : TcpState)
    (sh : Shared) :
    (tcpTarget rst ipRx frameBuf t = none
        ∧ (tcpRxProcess un rst ipRx frameBuf t sh).2 = sh
        ∧ (tcpRxProcess un rst ipRx frameBuf t sh).1.queue = t.queue
        ∧ ∀ j, ∃ state, ((tcpRxProcess un rst ipRx frameBuf t sh).1.conn j).core
            = { (t.conn j).core with state }
          ∧ (state = (t.conn j).state ∨ (rst = false ∧ state = .free)))
      ∨ ∃ cid, tcpTarget rst ipRx frameBuf t = some cid
        ∧ cid < maxTcpConn
        ∧ (∀ j, j ≠ cid →
            ((tcpRxProcess un rst ipRx frameBuf t sh).1.conn j).core = (t.conn j).core)
        ∧ TcpStepOn cid (tcpParse ipRx frameBuf)
            (tcpPayload un frameBuf (tcpParse ipRx frameBuf)) ipRx.srcIp t
            (tcpRxProcess un rst ipRx frameBuf t sh).1 := by
  by_cases hecho : tcpForEcho rst ipRx frameBuf = true
  · obtain ⟨htarget, hcall⟩ := tcpRxProcess_forEcho un t sh hecho
    rw [htarget, hcall]
    cases hfind : tcpFind t (tcpParse ipRx frameBuf).sp ipRx.srcIp with
    | none =>
        -- the sender finds no slot: nothing changes
        rw [tcpReceive_none un frameBuf sh hfind]
        exact .inl ⟨rfl, rfl, rfl, fun j => ⟨_, rfl, .inl rfl⟩⟩
    | some cid =>
        obtain ⟨hother, hstep⟩ := tcpReceive_step un ipRx _ frameBuf t sh hfind
        exact .inr ⟨cid, rfl, (tcpFind_some hfind).1, hother, hstep⟩
  · exact .inl (tcpRxProcess_notForEcho un t sh hecho)

/-- A segment for an established slot. -/
theorem tcpRx_established (un : Uninit) {rst : Bool} {ipRx : IpRx} {frameBuf : Mem U32}
    {t : TcpState} {cid : Nat} (sh : Shared) (htarget : tcpTarget rst ipRx frameBuf t = some cid)
    (hest : (t.conn cid).state = .established) :
    ((tcpRxProcess un rst ipRx frameBuf t sh).1.conn cid).core
      = { state := if hasFlag (tcpParse ipRx frameBuf).flags tcpFin then .lastAck else .established
          peerIp := (t.conn cid).peerIp, peerPort := (t.conn cid).peerPort
          peerSeq := tcpAdvance (tcpParse ipRx frameBuf) } := by
  rcases tcpRx_cases un rst ipRx frameBuf t sh with ⟨hnone, _⟩ | ⟨i, hsome, _, _, hstep⟩
  · rw [htarget] at hnone
    cases hnone
  · obtain rfl : cid = i := Option.some.inj (htarget.symm.trans hsome)
    cases hstep with
    | connects h _ _ =>
        exact absurd h (not_tcpConnects _ (by rw [hest]; decide) (by rw [hest]; decide))
    | receives _ hcore _ => exact hcore
    | moves _ h _ _ _ _ => exact absurd hest h

/-- **What a flush does**: one data segment, and the queue moves on. -/
theorem tcpFlush_statics (un : Uninit) (t : TcpState) (sh : Shared) :
    ∃ qLen qOff, tcpFlush un t sh
      = ({ (tcpSend un t.qCid tcpAck (some fun i => t.sendBufs t.qCid (t.qOff.toNat + i))
            (tcpChunk t) t sh).1 with qLen, qOff },
        (tcpSend un t.qCid tcpAck (some fun i => t.sendBufs t.qCid (t.qOff.toNat + i))
          (tcpChunk t) t sh).2) := by
  unfold tcpFlush
  dsimp only
  split
  · exact ⟨_, _, rfl⟩
  · exact ⟨_, _, rfl⟩

/-- `tcp_send` leaves the record of a slot alone, or sends for it. -/
theorem tcpSend_record (un : Uninit) (cid : Nat) (flags : U8) (payload : Option (Nat → U8))
    (payLen : U16) (t : TcpState) (sh : Shared) (j : Nat) :
    (tcpSend un cid flags payload payLen t sh).1.conn j = t.conn j
      ∨ (tcpSend un cid flags payload payLen t sh).1.conn j = tcpSendConn (t.conn j) flags payLen := by
  by_cases hcid : cid < maxTcpConn
  · rw [tcpSend_conn un flags payload payLen t sh hcid]
    by_cases hj : j = cid
    · rw [hj, Mem.set_same]
      exact .inr rfl
    · rw [Mem.set_other _ _ hj]
      exact .inl rfl
  · rw [tcpSend_outside un flags payload payLen t sh hcid]
    exact .inl rfl

/-- **What `tcp_maintenance` does to a record**: nothing, or one send. -/
theorem tcpMaintenance_record (un : Uninit) (t : TcpState) (sh : Shared) (j : Nat) :
    (tcpMaintenance un t sh).1.conn j = t.conn j
      ∨ ∃ flags payLen, (tcpMaintenance un t sh).1.conn j = tcpSendConn (t.conn j) flags payLen := by
  have hsend : ∀ cid flags payload payLen,
      (tcpSend un cid flags payload payLen t sh).1.conn j = t.conn j
        ∨ ∃ f n, (tcpSend un cid flags payload payLen t sh).1.conn j = tcpSendConn (t.conn j) f n := by
    intro cid flags payload payLen
    rcases tcpSend_record un cid flags payload payLen t sh j with hkept | hsent
    · exact .inl hkept
    · exact .inr ⟨flags, payLen, hsent⟩
  unfold tcpMaintenance
  split
  -- the three states that are sent again
  · unfold tcpRetransmit
    dsimp only
    cases (t.conn t.retransCid).state with
    | free => exact .inl rfl
    | listen => exact .inl rfl
    | synRcvd => exact hsend _ _ _ _
    | established =>
        dsimp only
        split
        · exact hsend _ _ _ _
        · exact .inl rfl
    | lastAck => exact hsend _ _ _ _
  · split
    · obtain ⟨_, _, hflush⟩ := tcpFlush_statics un t sh
      rw [hflush]
      exact hsend _ _ _ _
    · exact .inl rfl

/-- `tcp_maintenance` changes no core. -/
theorem tcpMaintenance_core (un : Uninit) (t : TcpState) (sh : Shared) (j : Nat) :
    ((tcpMaintenance un t sh).1.conn j).core = (t.conn j).core := by
  rcases tcpMaintenance_record un t sh j with hkept | ⟨flags, payLen, hsent⟩
  · rw [hkept]
  · rw [hsent, tcpSendConn_core]

/-! ## §5. Segments for examples. -/

/-- A segment without options from `ip`:`port` to the echo port. -/
def plainSegment (ip : U32) (port : U16) (seq ack : U32) (flags : U8) (payload : List U8) :
    TcpEvent :=
  let header : List U32 := [port ++ tcpPortEcho, seq, ack, 0x50#8 ++ flags ++ 0xFFFF#16, 0]
  .segment .zero true
    { protocol := ipProtoTcp, srcIp := ip, dstIp := boardIp, valid := true
      totalLen := BitVec.ofNat 16 (40 + payload.length) }
    (fun j => (List.replicate 5 0 ++ header ++ packWords payload).getD j 0) {}

end GigabitTcp
