/-
  GigabitTcp.Tcp.Table — the connection table: one slot for each peer.

  A call of `tcp_rx_process` enters a peer only into the slot that the search by key returned
  empty (`tcpFind_eq_search`), and it leaves `T_LISTEN` again before it returns; the second
  fact is read from `tcpNextState`, the state switch as one function.

  Main results:
    * `tcpReceive_state` — the state of a slot behind a segment,
    * `tcp_table`        — in every run no slot listens, no peer has two slots, and a segment
      touches no slot but its sender's.
-/
import GigabitTcp.Tcp.EchoQueue

namespace GigabitTcp

open Hw Machine

/-! ## §1. The state switch. -/

/-- The state of a slot behind a segment that the slot search gave to it. -/
def tcpNextState (c : TcpConn) (seg : TcpSeg) : TcpSt :=
  match c.state with
  | .free => if seg.opens then .synRcvd else .free
  | .listen => if hasFlag seg.flags tcpSyn then .synRcvd else .listen
  | .synRcvd => if hasFlag seg.flags tcpAck ∧ seg.ack = c.seq then .established else .synRcvd
  | .established => if hasFlag seg.flags tcpFin then .lastAck else .established
  | .lastAck => if hasFlag seg.flags tcpAck then .free else .lastAck

/-- Nothing leads into `T_LISTEN`. -/
theorem tcpNextState_ne_listen {c : TcpConn} (seg : TcpSeg) (h : c.state ≠ .listen) :
    tcpNextState c seg ≠ .listen := by
  unfold tcpNextState
  cases hst : c.state with
  | listen => exact absurd hst h
  | free => dsimp only; split <;> decide
  | synRcvd => dsimp only; split <;> decide
  | established => dsimp only; split <;> decide
  | lastAck => dsimp only; split <;> decide

/-- Window update and congestion control leave `seq` alone. -/
theorem tcpOnSegment_seq (c : TcpConn) (seg : TcpSeg) : (tcpOnSegment c seg).seq = c.seq := by
  obtain ⟨_, _, _, _, _, _, _, _, hstatics⟩ := tcpOnSegment_statics c seg
  rw [hstatics]

theorem tcpSwitch_state (un : Uninit) (cid : Nat) (seg : TcpSeg) (payload : Nat → U8) (ipRx : IpRx)
    (t : TcpState) (sh : Shared) (hfree : (t.conn cid).state ≠ .free) :
    ((tcpSwitch un cid seg payload ipRx t sh).1.conn cid).state = tcpNextState (t.conn cid) seg := by
  unfold tcpSwitch tcpNextState
  cases hst : (t.conn cid).state with
  | free => exact absurd hst hfree
  | listen =>
      dsimp only
      by_cases hsyn : hasFlag seg.flags tcpSyn = true
      · rw [if_pos hsyn]
        exact congrArg TcpCore.state (tcpListen_syn un cid ipRx t sh hsyn).2.1
      · rw [if_neg hsyn]
        unfold tcpListen
        rw [if_neg hsyn]
        exact hst
  | synRcvd =>
      dsimp only
      rw [setConn_same]
      unfold tcpSynRcvd
      split
      · rfl
      · exact hst
  | established =>
      -- the spec names the state, given that the slot was established
      have h := congrArg TcpCore.state (tcpEstablished_spec un cid seg payload t sh).2.1
      rw [hst] at h
      exact h
  | lastAck =>
      dsimp only
      rw [setConn_same]
      unfold tcpLastAck
      split
      · rfl
      · exact hst

/-- **The state of a slot behind a segment.** -/
theorem tcpReceive_state (un : Uninit) {cid : Nat} (ipRx : IpRx) (seg : TcpSeg)
    (frameBuf : Mem U32) (t : TcpState) (sh : Shared)
    (hfind : tcpFind t seg.sp ipRx.srcIp = some cid) :
    ((tcpReceive un ipRx seg frameBuf t sh).1.conn cid).state = tcpNextState (t.conn cid) seg := by
  have hstep := (tcpReceive_step un ipRx seg frameBuf t sh hfind).2
  by_cases hfree : (t.conn cid).state = .free
  · unfold tcpNextState
    rw [hfree]
    dsimp only
    by_cases hopen : seg.opens = true
    · rw [if_pos hopen]
      cases hstep with
      | connects _ hcore _ => exact congrArg TcpCore.state hcore
      | receives h _ _ => rw [hfree] at h; cases h
      | moves hconn _ _ _ _ _ => exact absurd (.inl ⟨hfree, hopen⟩) hconn
    · rw [if_neg hopen, tcpReceive_closed un frameBuf sh hfind hfree hopen]
      exact hfree
  -- window update and congestion control come before the switch and keep the state
  · have hstate := tcpOnSegment_state (t.conn cid) seg
    rw [tcpReceive_live un frameBuf sh hfind hfree, tcpSwitch_state, setConn_same]
    · unfold tcpNextState
      rw [hstate, tcpOnSegment_seq]
    · rw [setConn_same, hstate]
      exact hfree

/-! ## §2. Other slots, and segments without a connection. -/

/-- The state switch writes the record of its own slot only. -/
theorem tcpSwitch_other (un : Uninit) {cid : Nat} (seg : TcpSeg) (payload : Nat → U8) (ipRx : IpRx)
    (t : TcpState) (sh : Shared) (hcid : cid < maxTcpConn) {j : Nat} (hj : j ≠ cid) :
    (tcpSwitch un cid seg payload ipRx t sh).1.conn j = t.conn j := by
  -- `tcp_send` writes the record of its own slot
  have hsend : ∀ (flags : U8) (t : TcpState),
      (tcpSend un cid flags none 0 t sh).1.conn j = t.conn j := by
    intro flags t
    rw [tcpSend_conn un flags none 0 t sh hcid, Mem.set_other _ _ hj]
  unfold tcpSwitch
  cases (t.conn cid).state with
  | free => rfl
  | listen =>
      dsimp only
      unfold tcpListen
      split
      · rw [hsend, setConn_other t _ hj]
      · rfl
  | synRcvd => exact setConn_other t _ hj
  | lastAck => exact setConn_other t _ hj
  | established =>
      dsimp only
      rw [tcpEstablished_eq]
      unfold tcpTakeFin
      split
      · rw [setConn_other _ _ hj, hsend, tcpTakeData_other seg payload t hj]
      · exact tcpTakeData_other seg payload t hj

/-- **A segment leaves the records of all other slots alone.** -/
theorem tcpReceive_other (un : Uninit) {cid : Nat} (ipRx : IpRx) (seg : TcpSeg)
    (frameBuf : Mem U32) (t : TcpState) (sh : Shared)
    (hfind : tcpFind t seg.sp ipRx.srcIp = some cid) {j : Nat} (hj : j ≠ cid) :
    (tcpReceive un ipRx seg frameBuf t sh).1.conn j = t.conn j := by
  rcases tcpReceive_cases un ipRx seg frameBuf t with hquiet | ⟨cid', c, hfind', hswitch⟩
  · rw [hquiet]
  · obtain rfl : cid' = cid := Option.some.inj (hfind'.symm.trans hfind)
    rw [hswitch, tcpSwitch_other un seg _ ipRx _ sh (tcpFind_some hfind).1 hj, setConn_other t _ hj]

/-- The sender of the segment has no connection. -/
def TcpUnknown (t : TcpState) (p : TcpPeer) : Prop :=
  ∀ i, i < maxTcpConn → t.key i ≠ some p

/-- **A segment without a connection** that does not open one, or finds no free slot, changes
nothing. -/
theorem tcpReceive_unknown (un : Uninit) (ipRx : IpRx) (seg : TcpSeg) (frameBuf : Mem U32)
    (t : TcpState) (sh : Shared) (hmiss : TcpUnknown t (tcpSender ipRx seg))
    (hrefused : seg.opens = false ∨ ∀ i, i < maxTcpConn → (t.conn i).state ≠ .free) :
    tcpReceive un ipRx seg frameBuf t sh = (t, sh) := by
  have hkeys : ∀ i ∈ List.range maxTcpConn, t.key i ≠ some { ip := ipRx.srcIp, port := seg.sp } :=
    fun i hi => hmiss i (List.mem_range.mp hi)
  cases hfind : tcpFind t seg.sp ipRx.srcIp with
  | none => exact tcpReceive_none un frameBuf sh hfind
  | some cid =>
      have hcid := (tcpFind_some hfind).1
      -- a search without a hit can only return a free slot
      have hfree : (t.conn cid).state = .free := by
        rw [tcpFind_eq_search] at hfind
        exact TcpState.key_eq_none.mp (Slots.search_miss_empty hkeys hfind)
      rcases hrefused with hopens | hfull
      · exact tcpReceive_closed un frameBuf sh hfind hfree (by rw [hopens]; decide)
      · exact absurd hfree (hfull cid hcid)

/-! ## §3. The invariant. -/

/-- The key of a slot is a matter of its core. -/
theorem TcpState.key_congr {t t' : TcpState} {i : Nat} (h : (t'.conn i).core = (t.conn i).core) :
    t'.key i = t.key i := by
  have hstate : (t'.conn i).state = (t.conn i).state := congrArg TcpCore.state h
  unfold TcpState.key
  rw [hstate, TcpConn.peer_of_core h]

/-- Between two calls no slot listens, and no peer has two slots. -/
structure TcpTable (t : TcpState) : Prop where
  settled : ∀ i, i < maxTcpConn → (t.conn i).state ≠ .listen
  distinct : Slots.Distinct (List.range maxTcpConn) t.key

/-- Events that only give slots back. -/
theorem TcpTable.vacate {t t' : TcpState} (h : TcpTable t)
    (hcores : ∀ i, ∃ state, (t'.conn i).core = { (t.conn i).core with state }
      ∧ (state = (t.conn i).state ∨ state = .free)) : TcpTable t' := by
  refine ⟨?_, h.distinct.vacate ?_⟩
  · intro i hi
    obtain ⟨state, hcore, hstate⟩ := hcores i
    have hnew : (t'.conn i).state = state := congrArg TcpCore.state hcore
    rw [hnew]
    rcases hstate with rfl | rfl
    · exact h.settled i hi
    · decide
  -- the key of a slot stays or goes
  · intro i _
    obtain ⟨state, hcore, hstate⟩ := hcores i
    rcases hstate with rfl | rfl
    · exact .inl (TcpState.key_congr hcore)
    · exact .inr (TcpState.key_eq_none.mpr (congrArg TcpCore.state hcore))

/-- One segment with a slot. -/
theorem TcpTable.receive {t : TcpState} (h : TcpTable t) (un : Uninit) {cid : Nat} (ipRx : IpRx)
    (seg : TcpSeg) (frameBuf : Mem U32) (sh : Shared)
    (hfind : tcpFind t seg.sp ipRx.srcIp = some cid) :
    TcpTable (tcpReceive un ipRx seg frameBuf t sh).1 := by
  have hcid := (tcpFind_some hfind).1
  have hstate := tcpReceive_state un ipRx seg frameBuf t sh hfind
  obtain ⟨hother, hstep⟩ := tcpReceive_step un ipRx seg frameBuf t sh hfind
  generalize (tcpReceive un ipRx seg frameBuf t sh).1 = t' at hstate hother hstep ⊢
  constructor
  · intro i hi
    by_cases hic : i = cid
    · rw [hic, hstate]
      exact tcpNextState_ne_listen seg (h.settled cid hcid)
    · rw [show (t'.conn i).state = (t.conn i).state from congrArg TcpCore.state (hother i hic)]
      exact h.settled i hi
  -- the keys of the other slots stay, so only the slot's own can collide
  · have hkeys : ∀ j, j ≠ cid → t'.key j = t.key j := fun j hj => TcpState.key_congr (hother j hj)
    cases hstep with
    | connects hconn hcore _ =>
        -- no slot listens, so the slot was free and the search found no holder
        have hfree : (t.conn cid).state = .free := by
          rcases hconn with hconn | hconn
          · exact hconn.1
          · exact absurd hconn.1 (h.settled cid hcid)
        rw [tcpFind_eq_search] at hfind
        have hmiss := Slots.search_empty hfind (TcpState.key_eq_none.mpr hfree)
        refine h.distinct.claim hmiss (i := cid) ?_ (fun j _ hj => hkeys j hj)
        rw [TcpState.key_eq_some]
        constructor
        · rw [show (t'.conn cid).state = .synRcvd from congrArg TcpCore.state hcore]
          decide
        · unfold TcpConn.peer
          rw [show (t'.conn cid).peerIp = ipRx.srcIp from congrArg TcpCore.peerIp hcore,
            show (t'.conn cid).peerPort = seg.sp from congrArg TcpCore.peerPort hcore]
    | receives hest hcore _ =>
        -- an established slot keeps its peer and stays in use
        refine h.distinct.vacate fun j _ => .inl ?_
        by_cases hj : j = cid
        · have hne : (t'.conn cid).state ≠ .free := by
            rw [show (t'.conn cid).state = _ from congrArg TcpCore.state hcore]
            dsimp only
            split <;> decide
          unfold TcpState.key
          rw [hj, if_neg hne, if_neg (by rw [hest]; decide), TcpConn.peer_of_core hcore]
        · exact hkeys j hj
    | moves hconn _ state _ hcore _ =>
        apply h.distinct.vacate
        intro j _
        by_cases hj : j = cid
        · rw [hj]
          by_cases hfree : (t.conn cid).state = .free
          · -- a free slot that is not opened stays free
            refine .inr (TcpState.key_eq_none.mpr ?_)
            have hclosed : ¬ seg.opens = true := fun ho => hconn (.inl ⟨hfree, ho⟩)
            rw [hstate]
            unfold tcpNextState
            rw [hfree]
            exact if_neg hclosed
          · by_cases hfree' : (t'.conn cid).state = .free
            · exact .inr (TcpState.key_eq_none.mpr hfree')
            -- in use before and after: the peer is the old one
            · refine .inl ?_
              unfold TcpState.key
              rw [if_neg hfree, if_neg hfree', TcpConn.peer_of_core hcore]
        · exact .inl (hkeys j hj)

theorem TcpTable.step {t : TcpState} (h : TcpTable t) (e : TcpEvent) :
    TcpTable (tcpMachine t e).1 := by
  cases e with
  | maintenance un sh =>
      exact h.vacate fun i => ⟨(t.conn i).state, tcpMaintenance_core un t sh i, .inl rfl⟩
  | segment un rst ipRx frameBuf sh =>
      show TcpTable (tcpRxProcess un rst ipRx frameBuf t sh).1
      by_cases hecho : tcpForEcho rst ipRx frameBuf = true
      · obtain ⟨-, hcall⟩ := tcpRxProcess_forEcho un t sh hecho
        rw [hcall]
        cases hfind : tcpFind t (tcpParse ipRx frameBuf).sp ipRx.srcIp with
        | none =>
            rw [tcpReceive_none un frameBuf sh hfind]
            exact h
        | some cid => exact h.receive un ipRx _ frameBuf sh hfind
      · obtain ⟨-, -, -, hcores⟩ := tcpRxProcess_notForEcho un t sh hecho
        -- a reset or a timer scan enters nobody
        apply h.vacate
        intro i
        obtain ⟨state, hcore, hstate⟩ := hcores i
        exact ⟨state, hcore, hstate.imp id (fun hs => hs.2)⟩

/-! ## §4. Runs. -/

/-- What a valid TCP segment may do to the table: it works on its sender's connection only,
and without one it does nothing unless it opens a free slot. -/
structure TcpSegmentLocal (t : TcpState) (un : Uninit) (ipRx : IpRx) (frameBuf : Mem U32)
    (sh : Shared) : Prop where
  others : ∀ j, (t.conn j).state ≠ .free →
    (t.conn j).peer ≠ tcpSender ipRx (tcpParse ipRx frameBuf) →
    (tcpRxProcess un true ipRx frameBuf t sh).1.conn j = t.conn j
  ignored : (∀ j, j < maxTcpConn → (t.conn j).state ≠ .free →
      (t.conn j).peer ≠ tcpSender ipRx (tcpParse ipRx frameBuf)) →
    (¬ ((tcpParse ipRx frameBuf).opens = true ∧ (tcpParse ipRx frameBuf).dp = tcpPortEcho)
      ∨ ∀ j, j < maxTcpConn → (t.conn j).state ≠ .free) →
    tcpRxProcess un true ipRx frameBuf t sh = (t, sh)

theorem tcpSegment_local (t : TcpState) (un : Uninit) {ipRx : IpRx} (frameBuf : Mem U32)
    (sh : Shared) (hvalid : ipRx.valid = true) (hproto : ipRx.protocol = ipProtoTcp) :
    TcpSegmentLocal t un ipRx frameBuf sh := by
  by_cases hport : (tcpParse ipRx frameBuf).dp = tcpPortEcho
  · have hecho : tcpForEcho true ipRx frameBuf = true := by
      unfold tcpForEcho
      simp [hvalid, hproto, hport]
    obtain ⟨-, hcall⟩ := tcpRxProcess_forEcho un t sh hecho
    constructor
    · intro j hlive hpeer
      rw [hcall]
      cases hfind : tcpFind t (tcpParse ipRx frameBuf).sp ipRx.srcIp with
      | none => rw [tcpReceive_none un frameBuf sh hfind]
      | some cid =>
          refine tcpReceive_other un ipRx _ frameBuf t sh hfind ?_
          -- a slot in use that the search returns is the sender's
          rintro rfl
          exact hpeer (tcpFind_sender hfind hlive).symm
    · intro hmiss hrefused
      rw [hcall]
      refine tcpReceive_unknown un ipRx _ frameBuf t sh ?_ ?_
      · intro i hi hkey
        obtain ⟨hlive, hpeer⟩ := TcpState.key_eq_some.mp hkey
        exact hmiss i hi hlive hpeer
      · refine hrefused.imp (fun hno => ?_) id
        rw [Bool.eq_false_iff]
        exact fun ho => hno ⟨ho, hport⟩
  · -- another port
    have hsame : tcpRxProcess un true ipRx frameBuf t sh = (t, sh) := by
      unfold tcpRxProcess
      rw [if_neg (by decide), if_neg (by simp [hvalid, hproto])]
      exact if_pos hport
    constructor
    · intro j _ _
      rw [hsame]
    · intro _ _
      exact hsame

/-- The invariant holds after every run from a table of free slots. -/
theorem TcpTable.after_free {t : TcpState} (hfree : ∀ i, i < maxTcpConn → (t.conn i).state = .free)
    (es : List TcpEvent) : TcpTable (tcpMachine.after t es) := by
  have hstart : TcpTable t := by
    refine ⟨?_, Slots.Distinct.of_empty ?_⟩
    · intro i hi
      rw [hfree i hi]
      decide
    · intro i hi
      exact TcpState.key_eq_none.mpr (hfree i (List.mem_range.mp hi))
  exact invariant_after (fun s e h => h.step e) hstart es

/-- **The connection table**: in every run from a table of free slots, over any calls of
`tcp_rx_process` and `tcp_maintenance`, no slot is left in `T_LISTEN`, two slots in use have
different peers, and a valid segment works on its sender's connection only. -/
theorem tcp_table (t : TcpState) (es : List TcpEvent)
    (hfree : ∀ i, i < maxTcpConn → (t.conn i).state = .free) :
    (∀ i, i < maxTcpConn → ((tcpMachine.after t es).conn i).state
        ∈ [TcpSt.free, .synRcvd, .established, .lastAck])
      ∧ (∀ i j, i < maxTcpConn → j < maxTcpConn → i ≠ j →
        ((tcpMachine.after t es).conn i).state ≠ .free →
        ((tcpMachine.after t es).conn j).state ≠ .free →
        ((tcpMachine.after t es).conn i).peer ≠ ((tcpMachine.after t es).conn j).peer)
      ∧ ∀ un ipRx frameBuf sh, ipRx.valid = true → ipRx.protocol = ipProtoTcp →
        TcpSegmentLocal (tcpMachine.after t es) un ipRx frameBuf sh := by
  have hrun : TcpTable (tcpMachine.after t es) := TcpTable.after_free hfree es
  refine ⟨?_, ?_, fun un ipRx frameBuf sh => tcpSegment_local _ un frameBuf sh⟩
  · intro i hi
    have hsettled := hrun.settled i hi
    -- four of the five states are allowed, and the fifth one is excluded
    cases hst : ((tcpMachine.after t es).conn i).state with
    | listen => exact absurd hst hsettled
    | free => decide
    | synRcvd => decide
    | established => decide
    | lastAck => decide
  · intro i j hi hj hij hlive hlive' hpeer
    exact hij (hrun.distinct i (List.mem_range.mpr hi) j (List.mem_range.mpr hj) _
      (TcpState.key_eq_some.mpr ⟨hlive, hpeer⟩) (TcpState.key_eq_some.mpr ⟨hlive', rfl⟩))

/-- A SYN, one more from the same peer, and a SYN from another one. -/
theorem tcp_table_two_peers :
    ((tcpMachine.after {} (tcpHandshake 3 ++ [plainSegment 0xC0A86403 5000 100 0 tcpSyn [],
        plainSegment 0xC0A86404 5000 100 0 tcpSyn []])).conn 0).peer
      ≠ ((tcpMachine.after {} (tcpHandshake 3 ++ [plainSegment 0xC0A86403 5000 100 0 tcpSyn [],
        plainSegment 0xC0A86404 5000 100 0 tcpSyn []])).conn 1).peer :=
  (tcp_table {} _ (by decide)).2.1 0 1 (by decide) (by decide) (by decide)
    (by decide +kernel) (by decide +kernel)

end GigabitTcp
