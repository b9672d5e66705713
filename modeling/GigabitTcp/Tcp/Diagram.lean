/-
  GigabitTcp.Tcp.Diagram — the state diagram of a connection.

  ARCHITECTURE.md §11.2 draws five states and the edges between them.  `TcpEdge` gives each edge
  the guard it needs: a connection is opened by a SYN alone, and what acknowledges our SYN and
  our FIN is the number `seq`.  `T_LISTEN` is passed through within one call, so it has no edge
  here.

  Main results:
    * `tcpFollowsDiagram_iff`  — which calls follow the diagram, from a settled table,
    * `tcp_diagram_iff`        — the same after every run from power-on, and for whole runs,
    * `tcp_frees_unacked`      — an old ACK frees a slot whose FIN is not acknowledged.
-/
import GigabitTcp.Tcp.Table

namespace GigabitTcp

open Hw Machine

/-! ## §1. The diagram. -/

/-- The segment carries an ACK of everything the connection has sent. -/
def TcpSeg.AcksAll (seg : TcpSeg) (c : TcpConn) : Prop :=
  hasFlag seg.flags tcpAck = true ∧ seg.ack = c.seq

instance (seg : TcpSeg) (c : TcpConn) : Decidable (seg.AcksAll c) :=
  inferInstanceAs (Decidable (_ ∧ _))

/-- The edges of the diagram for connection `c`, with their guards. -/
inductive TcpEdge (c : TcpConn) (seg : TcpSeg) : TcpSt → TcpSt → Prop where
  | syn (h : hasFlag seg.flags tcpSyn = true) (h' : hasFlag seg.flags tcpAck = false) :
      TcpEdge c seg .free .synRcvd
  | synAcked (h : seg.AcksAll c) : TcpEdge c seg .synRcvd .established
  | fin (h : hasFlag seg.flags tcpFin = true) : TcpEdge c seg .established .lastAck
  | finAcked (h : seg.AcksAll c) : TcpEdge c seg .lastAck .free

/-- Every slot keeps its state or moves along an edge that the segment for it allows;
`tcp_maintenance` moves no state. -/
def TcpFollowsDiagram (t : TcpState) : TcpEvent → Prop
  | .segment un rst ipRx frameBuf sh => rst = true → ∀ i, i < maxTcpConn →
      let state' := ((tcpRxProcess un rst ipRx frameBuf t sh).1.conn i).state
      state' = (t.conn i).state
        ∨ (tcpTarget rst ipRx frameBuf t = some i
          ∧ TcpEdge (t.conn i) (tcpParse ipRx frameBuf) (t.conn i).state state')
  | .maintenance un sh => ∀ i, ((tcpMaintenance un t sh).1.conn i).state = (t.conn i).state

/-- An ACK for a connection in `T_LAST_ACK` acknowledges our FIN. -/
def TcpFinAcked (t : TcpState) : TcpEvent → Prop
  | .segment _ rst ipRx frameBuf _ =>
      ∀ i ∈ tcpTarget rst ipRx frameBuf t, (t.conn i).state = .lastAck →
        hasFlag (tcpParse ipRx frameBuf).flags tcpAck = true →
        (tcpParse ipRx frameBuf).ack = (t.conn i).seq
  | .maintenance _ _ => True

instance (t : TcpState) : ∀ e, Decidable (TcpFinAcked t e)
  | .segment _ rst ipRx frameBuf _ =>
      inferInstanceAs (Decidable (∀ i ∈ tcpTarget rst ipRx frameBuf t, _ → _ → _))
  | .maintenance .. => inferInstanceAs (Decidable True)

/-! ## §2. One call. -/

/-- **The state behind a segment** is reached along an edge exactly if no ACK of something else
comes in `T_LAST_ACK`. -/
theorem tcpNextState_edge {c : TcpConn} (seg : TcpSeg) (hlisten : c.state ≠ .listen) :
    (tcpNextState c seg = c.state ∨ TcpEdge c seg c.state (tcpNextState c seg))
      ↔ (c.state = .lastAck → hasFlag seg.flags tcpAck = true → seg.ack = c.seq) := by
  unfold tcpNextState
  cases hst : c.state with
  | listen => exact absurd hst hlisten
  | free =>
      dsimp only
      refine ⟨fun _ hno => absurd hno (by decide), fun _ => ?_⟩
      by_cases hopens : seg.opens = true
      · rw [if_pos hopens]
        unfold TcpSeg.opens at hopens
        rw [Bool.and_eq_true, Bool.not_eq_true'] at hopens
        exact .inr (.syn hopens.1 hopens.2)
      · rw [if_neg hopens]
        exact .inl rfl
  | synRcvd =>
      dsimp only
      refine ⟨fun _ hno => absurd hno (by decide), fun _ => ?_⟩
      split
      · rename_i hacks
        exact .inr (.synAcked hacks)
      · exact .inl rfl
  | established =>
      dsimp only
      refine ⟨fun _ hno => absurd hno (by decide), fun _ => ?_⟩
      split
      · rename_i hfin
        exact .inr (.fin hfin)
      · exact .inl rfl
  | lastAck =>
      dsimp only
      by_cases hack : hasFlag seg.flags tcpAck = true
      · rw [if_pos hack]
        constructor
        · rintro (hno | hedge) _ _
          · cases hno
          · cases hedge with
            | finAcked h => exact h.2
        · intro hseq
          exact .inr (.finAcked ⟨hack, hseq rfl hack⟩)
      -- without ACK the slot waits on
      · rw [if_neg hack]
        exact ⟨fun _ _ hyes => absurd hyes hack, fun _ => .inl rfl⟩

/-- **One call** follows the diagram exactly if an ACK in `T_LAST_ACK` acknowledges the FIN. -/
theorem tcpFollowsDiagram_iff {t : TcpState} (h : TcpTable t) (e : TcpEvent) :
    TcpFollowsDiagram t e ↔ TcpFinAcked t e := by
  cases e with
  | maintenance un sh =>
      refine ⟨fun _ => trivial, fun _ i => ?_⟩
      exact congrArg TcpCore.state (tcpMaintenance_core un t sh i)
  | segment un rst ipRx frameBuf sh =>
      unfold TcpFollowsDiagram TcpFinAcked
      dsimp only
      by_cases hecho : tcpForEcho rst ipRx frameBuf = true
      · obtain ⟨htarget, hcall⟩ := tcpRxProcess_forEcho un t sh hecho
        have hrst : rst = true := by
          unfold tcpForEcho at hecho
          simp only [Bool.and_eq_true] at hecho
          exact hecho.1.1.1
        rw [htarget, hcall]
        cases hfind : tcpFind t (tcpParse ipRx frameBuf).sp ipRx.srcIp with
        | none =>
            rw [tcpReceive_none un frameBuf sh hfind]
            exact ⟨fun _ => nofun, fun _ _ i _ => .inl rfl⟩
        | some cid =>
            have hcid := (tcpFind_some hfind).1
            have hstate := tcpReceive_state un ipRx _ frameBuf t sh hfind
            have hedge := tcpNextState_edge (tcpParse ipRx frameBuf) (h.settled cid hcid)
            rw [← hstate] at hedge
            constructor
            · intro hall i hi
              obtain rfl : cid = i := Option.some.inj hi
              apply hedge.mp
              rcases hall hrst cid hcid with hsame | ⟨_, hmove⟩
              · exact .inl hsame
              · exact .inr hmove
            · intro hacked _ i hi
              by_cases hic : i = cid
              · rcases hedge.mpr (hacked cid rfl) with hsame | hmove
                · rw [hic]
                  exact .inl hsame
                · rw [hic]
                  exact .inr ⟨rfl, hmove⟩
              -- the segment is not for this slot
              · rw [tcpReceive_other un ipRx _ frameBuf t sh hfind hic]
                exact .inl rfl
      · obtain ⟨hnone, _, _, hcores⟩ := tcpRxProcess_notForEcho un t sh hecho
        rw [hnone]
        refine ⟨fun _ => nofun, fun _ hrst i _ => .inl ?_⟩
        -- out of reset nothing is freed
        obtain ⟨state, hcore, hstate⟩ := hcores i
        have hnew : ((tcpRxProcess un rst ipRx frameBuf t sh).1.conn i).state = state :=
          congrArg TcpCore.state hcore
        rw [hnew]
        rcases hstate with hstate | ⟨hreset, _⟩
        · exact hstate
        · rw [hrst] at hreset
          cases hreset

/-! ## §3. Runs. -/

/-- **The state diagram**: after every run from power-on, a call follows the diagram exactly if
an ACK for a connection in `T_LAST_ACK` acknowledges our FIN; and so for all calls of a run. -/
theorem tcp_diagram_iff (es : List TcpEvent) :
    (∀ e, TcpFollowsDiagram (tcpMachine.after {} es) e ↔ TcpFinAcked (tcpMachine.after {} es) e)
      ∧ (Along tcpMachine TcpFollowsDiagram {} es ↔ Along tcpMachine TcpFinAcked {} es) := by
  have hrun : ∀ js, TcpTable (tcpMachine.after {} js) :=
    fun js => TcpTable.after_free (fun _ _ => rfl) js
  have hiff : ∀ js e, TcpFollowsDiagram (tcpMachine.after {} js) e
      ↔ TcpFinAcked (tcpMachine.after {} js) e :=
    fun js e => tcpFollowsDiagram_iff (hrun js) e
  exact ⟨hiff es, Along.iff_of_reached hiff es⟩

/-- The FIN of 192.168.100.3, and an ACK of our SYN+ACK that comes after it. -/
def tcpFinThenOldAck : List TcpEvent :=
  [plainSegment 0xC0A86403 5000 101 0x12345679 (tcpFin ||| tcpAck) [],
    plainSegment 0xC0A86403 5000 102 0x12345679 tcpAck []]

/-- The FIN+ACK takes the number 0x12345679; the ACK of 0x12345679 does not acknowledge it and
frees the slot. -/
theorem tcp_frees_unacked :
    ((tcpMachine.after {} (tcpHandshake 3 ++ tcpFinThenOldAck.take 1)).conn 0).state = .lastAck
      ∧ ((tcpMachine.after {} (tcpHandshake 3 ++ tcpFinThenOldAck.take 1)).conn 0).seq = 0x1234567A
      ∧ ((tcpMachine.after {} (tcpHandshake 3 ++ tcpFinThenOldAck)).conn 0).state = .free
      ∧ ¬ Along tcpMachine TcpFollowsDiagram {} (tcpHandshake 3 ++ tcpFinThenOldAck) := by
  refine ⟨by decide +kernel, by decide +kernel, by decide +kernel, ?_⟩
  intro hall
  have hlast := (Along.iff_at_steps.mp hall) (tcpHandshake 3 ++ tcpFinThenOldAck.take 1)
    (plainSegment 0xC0A86403 5000 102 0x12345679 tcpAck []) [] rfl
  rw [tcpFollowsDiagram_iff (TcpTable.after_free (fun _ _ => rfl) _)] at hlast
  revert hlast
  decide +kernel

end GigabitTcp
