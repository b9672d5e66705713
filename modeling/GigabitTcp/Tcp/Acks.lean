/-
  GigabitTcp.Tcp.Acks — what is acknowledged, and what `flight_size` counts.

  `tcp_reno_on_ack` takes the ACK number of every segment over into `last_ack_recv`; it takes
  the distance off `flight_size`, or clears the count if the distance is larger.  The numbers
  add up as long as each ACK lies between `last_ack_recv` and `seq`.

  Main results:
    * `tcpAccounts_iff`        — one call keeps the account exactly if its ACK lies there,
    * `tcp_acks_accounted_iff` — the same for whole runs,
    * `tcp_ack_unsent`         — an ACK of something that was never sent.
-/
import GigabitTcp.Tcp.Windows
import GigabitTcp.Tcp.Diagram
import GigabitTcp.Tcp.Reno

namespace GigabitTcp

open Hw Machine

/-! ## §1. The account. -/

/-- `b` is met on the way up from `a` to `c`. -/
def serialBetween (a b c : U32) : Prop := b - a ≤ c - a

instance (a b c : U32) : Decidable (serialBetween a b c) := inferInstanceAs (Decidable (_ ≤ _))

/-- Over less than half of the numbers: `b` is not before `a` and not behind `c`. -/
theorem serialBetween_iff {a b c : U32} (hspan : (c - a).toNat < 2 ^ 31) :
    serialBetween a b c ↔ serialLe a b ∧ serialLe b c := by
  unfold serialBetween serialLe
  bv_omega

/-- `flight_size` counts what is sent and not acknowledged. -/
def TcpConn.Accounted (c : TcpConn) : Prop := c.flightSize = c.unacked

/-- From `c` to `c'` the ACKs stay in order: of a connection that was established,
`last_ack_recv` moves at most up to `seq`; of one that was or is established, the account is
right. -/
def TcpConn.AccountsTo (c c' : TcpConn) : Prop :=
  (c.state = .established → serialBetween c.lastAckRecv c'.lastAckRecv c.seq)
    ∧ (c.state = .established ∨ c'.state = .established → c'.Accounted)

/-- One call keeps the account of every slot. -/
def TcpAccounts (t : TcpState) (e : TcpEvent) : Prop :=
  ∀ i, i < maxTcpConn → (t.conn i).AccountsTo ((tcpMachine t e).1.conn i)

/-- The ACK of the segment for slot `i` can be accounted for: on an established connection it
lies between `last_ack_recv` and `seq`; an ACK that establishes the connection acknowledges at
least what `flight_size` counts. -/
def TcpAckFits (c : TcpConn) (seg : TcpSeg) : Prop :=
  hasFlag seg.flags tcpAck = true →
    (c.state = .established → serialBetween c.lastAckRecv seg.ack c.seq)
      ∧ (c.state = .synRcvd → seg.ack = c.seq → c.flightSize ≤ c.unacked)

/-- Segments come with an ACK that fits, and no timer runs out while something of an
established connection is not acknowledged. -/
def TcpAcksFit (t : TcpState) : TcpEvent → Prop
  | .segment _ rst ipRx frameBuf _ =>
      (∀ i ∈ tcpTarget rst ipRx frameBuf t, TcpAckFits (t.conn i) (tcpParse ipRx frameBuf))
        ∧ (tcpScans rst ipRx = true → ∀ i, i < maxTcpConn → (t.conn i).state = .established →
          (t.conn i).expires → (t.conn i).unacked = 0)
  | .maintenance _ _ => True

instance (c : TcpConn) (seg : TcpSeg) : Decidable (TcpAckFits c seg) :=
  inferInstanceAs (Decidable (_ → _ ∧ _))

instance (t : TcpState) : ∀ e, Decidable (TcpAcksFit t e)
  | .segment _ rst ipRx frameBuf _ =>
      inferInstanceAs (Decidable ((∀ i ∈ tcpTarget rst ipRx frameBuf t, _) ∧ (_ → ∀ i, i < maxTcpConn → _)))
  | .maintenance .. => inferInstanceAs (Decidable True)

/-! ## §2. The pieces of a call. -/

/-- `c'` is `c` after some numbers were sent: position and count move on together. -/
def TcpConn.SentOn (c c' : TcpConn) : Prop :=
  ∃ inc, c'.seq = c.seq + inc ∧ c'.flightSize = c.flightSize + inc ∧ c'.lastAckRecv = c.lastAckRecv

theorem TcpConn.SentOn.same {c c' : TcpConn} (hseq : c'.seq = c.seq)
    (hflight : c'.flightSize = c.flightSize) (hack : c'.lastAckRecv = c.lastAckRecv) : c.SentOn c' :=
  ⟨0#32, by rw [hseq, BitVec.add_zero], by rw [hflight, BitVec.add_zero], hack⟩

theorem TcpConn.SentOn.trans {c c' c'' : TcpConn} (h : c.SentOn c') (h' : c'.SentOn c'') :
    c.SentOn c'' := by
  obtain ⟨inc, hseq, hflight, hack⟩ := h
  obtain ⟨inc', hseq', hflight', hack'⟩ := h'
  exact ⟨inc + inc', by rw [hseq', hseq, BitVec.add_assoc],
    by rw [hflight', hflight, BitVec.add_assoc], hack'.trans hack⟩

/-- Sending does not upset the account. -/
theorem TcpConn.SentOn.accounted_iff {c c' : TcpConn} (h : c.SentOn c') :
    c'.Accounted ↔ c.Accounted := by
  obtain ⟨inc, hseq, hflight, hack⟩ := h
  unfold TcpConn.Accounted TcpConn.unacked
  rw [hseq, hflight, hack]
  bv_omega

theorem tcpSendConn_sentOn (c : TcpConn) (flags : U8) (payLen : U16) :
    c.SentOn (tcpSendConn c flags payLen) := by
  unfold tcpSendConn
  dsimp only
  by_cases hcounts : 0 < payLen ∨ hasFlag flags (tcpSyn ||| tcpFin) = true
  · refine ⟨tcpSeqInc flags payLen, ?_, ?_, ?_⟩ <;> rw [if_pos hcounts] <;> split_ifs <;> rfl
  · apply TcpConn.SentOn.same <;> rw [if_neg hcounts] <;> split_ifs <;> rfl

/-- What a segment does to the account before the state switch. -/
theorem tcpOnSegment_acks (c : TcpConn) (seg : TcpSeg) :
    (tcpOnSegment c seg).lastAckRecv = (if hasFlag seg.flags tcpAck then seg.ack else c.lastAckRecv)
      ∧ (tcpOnSegment c seg).flightSize
        = if hasFlag seg.flags tcpAck then
            if seg.ack - c.lastAckRecv ≤ c.flightSize then
              c.flightSize - (seg.ack - c.lastAckRecv) else 0
          else c.flightSize := by
  unfold tcpOnSegment
  dsimp only
  by_cases hack : hasFlag seg.flags tcpAck = true
  · rw [if_pos hack, if_pos hack, if_pos hack]
    unfold tcpRenoOnAck
    dsimp only
    by_cases hsame : seg.ack - c.lastAckRecv = 0
    · have hlast : seg.ack = c.lastAckRecv := by bv_omega
      have hle : seg.ack - c.lastAckRecv ≤ c.flightSize := by
        rw [hsame]
        exact Nat.zero_le _
      rw [if_pos hsame, if_pos hle, hsame, hlast]
      split_ifs <;> exact ⟨rfl, (BitVec.sub_zero _).symm⟩
    · rw [if_neg hsame]
      split <;> exact ⟨rfl, rfl⟩
  · rw [if_neg hack, if_neg hack, if_neg hack]
    exact ⟨rfl, rfl⟩

/-- **An ACK on an established connection** keeps the account exactly if it fits. -/
theorem tcpOnSegment_accounted_iff {c : TcpConn} (seg : TcpSeg) (h : c.Accounted) :
    (serialBetween c.lastAckRecv (tcpOnSegment c seg).lastAckRecv c.seq
        ∧ (tcpOnSegment c seg).Accounted)
      ↔ (hasFlag seg.flags tcpAck = true → serialBetween c.lastAckRecv seg.ack c.seq) := by
  obtain ⟨hlast, hflight⟩ := tcpOnSegment_acks c seg
  have hseq := tcpOnSegment_seq c seg
  unfold TcpConn.Accounted TcpConn.unacked at h ⊢
  unfold serialBetween
  by_cases hack : hasFlag seg.flags tcpAck = true
  · rw [if_pos hack] at hlast hflight
    rw [hlast, hflight, hseq, h]
    split
    · rename_i hle
      refine ⟨fun _ _ => hle, fun _ => ⟨hle, ?_⟩⟩
      bv_omega
    · rename_i hgt
      exact ⟨fun hno => absurd hno.1 hgt, fun hno => absurd (hno hack) hgt⟩
  · rw [if_neg hack] at hlast hflight
    rw [hlast, hflight, hseq, h]
    refine ⟨fun _ hno => absurd hno hack, fun _ => ⟨?_, rfl⟩⟩
    rw [BitVec.sub_self]
    exact Nat.zero_le _

/-- **The ACK of our SYN+ACK** sets the account right exactly if it covers what was counted. -/
theorem tcpOnSegment_completes_iff {c : TcpConn} {seg : TcpSeg} (hacks : seg.AcksAll c) :
    (tcpOnSegment c seg).Accounted ↔ c.flightSize ≤ c.unacked := by
  obtain ⟨hlast, hflight⟩ := tcpOnSegment_acks c seg
  have hseq := tcpOnSegment_seq c seg
  obtain ⟨hack, hnumber⟩ := hacks
  rw [if_pos hack] at hlast hflight
  unfold TcpConn.Accounted TcpConn.unacked
  rw [hlast, hflight, hseq, hnumber, BitVec.sub_self]
  clear hlast hflight
  split
  · bv_omega
  · rename_i hgt
    refine ⟨fun _ => ?_, fun _ => rfl⟩
    bv_omega

/-! ## §3. One call. -/

section Call

variable {c c' : TcpConn}

theorem serialBetween_self (a c : U32) : serialBetween a a c := by
  unfold serialBetween
  rw [BitVec.sub_self]
  exact Nat.zero_le _

/-- A connection that at most sends. -/
theorem TcpConn.SentOn.accountsTo (h : c.SentOn c')
    (hstate : c'.state = .established → c.state = .established)
    (hright : c.state = .established → c.Accounted) : c.AccountsTo c' := by
  refine ⟨fun _ => ?_, fun hest => h.accounted_iff.mpr (hright ?_)⟩
  · obtain ⟨_, _, _, hack⟩ := h
    rw [hack]
    exact serialBetween_self _ _
  · exact hest.elim id hstate

/-- A connection that is established neither before nor behind the call. -/
theorem TcpConn.accountsTo_away (h : c.state ≠ .established) (h' : c'.state ≠ .established) :
    c.AccountsTo c' :=
  ⟨fun hest => absurd hest h, fun hest => hest.elim (fun he => absurd he h) (fun he => absurd he h')⟩

/-- **The timer scan** forgets what is in flight when the timer runs out. -/
theorem tcpScanConn_accountsTo_iff (hright : c.state = .established → c.Accounted) :
    c.AccountsTo (tcpScanConn c) ↔ (c.state = .established → c.expires → c.unacked = 0) := by
  unfold tcpScanConn
  by_cases hexpires : c.expires
  · rw [if_pos hexpires]
    constructor
    · intro hall hest _
      exact (hall.2 (.inl hest)).symm
    · intro hzero
      refine ⟨fun _ => serialBetween_self _ _, fun hest => ?_⟩
      have hest' : c.state = .established := hest.elim id id
      exact (hzero hest' hexpires).symm
  · rw [if_neg hexpires]
    refine ⟨fun _ _ hyes => absurd hyes hexpires, fun _ => ?_⟩
    split
    · exact TcpConn.SentOn.accountsTo (TcpConn.SentOn.same rfl rfl rfl) id hright
    · exact TcpConn.SentOn.accountsTo (TcpConn.SentOn.same rfl rfl rfl) id hright

end Call

variable {t : TcpState}

/-- Data and FIN behind the ACK: the connection sends at most. -/
theorem tcpTakeFin_sentOn (un : Uninit) (cid : Nat) (seg : TcpSeg) (payload : Nat → U8) (t : TcpState)
    (sh : Shared) :
    (t.conn cid).SentOn ((tcpTakeFin un cid seg (tcpTakeData cid seg payload t) sh).1.conn cid) := by
  have hdata : (t.conn cid).SentOn ((tcpTakeData cid seg payload t).conn cid) := by
    unfold tcpTakeData
    dsimp only
    split
    · rw [tcpQueue_conn, setConn_same]
      exact TcpConn.SentOn.same rfl rfl rfl
    · split
      · rw [setConn_same, setConn_same]
        exact TcpConn.SentOn.same rfl rfl rfl
      · rw [setConn_same]
        exact TcpConn.SentOn.same rfl rfl rfl
  generalize tcpTakeData cid seg payload t = t₁ at hdata
  unfold tcpTakeFin
  split
  · rw [setConn_same]
    -- the state that is set does not matter to the account
    have hstate : ((tcpSend un cid (tcpFin ||| tcpAck) none 0 t₁ sh).1.conn cid).SentOn
        { (tcpSend un cid (tcpFin ||| tcpAck) none 0 t₁ sh).1.conn cid with state := .lastAck } :=
      TcpConn.SentOn.same rfl rfl rfl
    refine TcpConn.SentOn.trans (hdata.trans ?_) hstate
    rcases tcpSend_record un cid (tcpFin ||| tcpAck) none 0 t₁ sh cid with hkept | hsent
    · rw [hkept]
      exact TcpConn.SentOn.same rfl rfl rfl
    · rw [hsent]
      exact tcpSendConn_sentOn _ _ _
  · exact hdata

/-- **A segment for slot `cid`** keeps its account exactly if the ACK fits. -/
theorem tcpReceive_accountsTo_iff (un : Uninit) {cid : Nat} (ipRx : IpRx) (seg : TcpSeg)
    (frameBuf : Mem U32) (sh : Shared) (hfind : tcpFind t seg.sp ipRx.srcIp = some cid)
    (hsettled : (t.conn cid).state ≠ .listen)
    (hright : (t.conn cid).state = .established → (t.conn cid).Accounted) :
    (t.conn cid).AccountsTo ((tcpReceive un ipRx seg frameBuf t sh).1.conn cid)
      ↔ TcpAckFits (t.conn cid) seg := by
  have hstate := tcpReceive_state un ipRx seg frameBuf t sh hfind
  unfold tcpNextState at hstate
  -- away from the established connection both sides hold
  have haway : (t.conn cid).state ≠ .established → (t.conn cid).state ≠ .synRcvd →
      ((tcpReceive un ipRx seg frameBuf t sh).1.conn cid).state ≠ .established →
      ((t.conn cid).AccountsTo ((tcpReceive un ipRx seg frameBuf t sh).1.conn cid)
        ↔ TcpAckFits (t.conn cid) seg) := by
    intro hne hne' hafter
    refine ⟨fun _ _ => ⟨fun hest => absurd hest hne, fun hsyn => absurd hsyn hne'⟩, fun _ => ?_⟩
    exact TcpConn.accountsTo_away hne hafter
  cases hst : (t.conn cid).state with
  | listen => exact absurd hst hsettled
  | free =>
      rw [hst] at hstate
      apply haway
      · rw [hst]; decide
      · rw [hst]; decide
      · rw [hstate]
        dsimp only
        split <;> decide
  | lastAck =>
      rw [hst] at hstate
      apply haway
      · rw [hst]; decide
      · rw [hst]; decide
      · rw [hstate]
        dsimp only
        split <;> decide
  | synRcvd =>
      rw [hst] at hstate
      dsimp only at hstate
      unfold TcpConn.AccountsTo TcpAckFits
      rw [hstate, hst]
      have hlive : (t.conn cid).state ≠ .free := by rw [hst]; decide
      by_cases hacks : hasFlag seg.flags tcpAck = true ∧ seg.ack = (t.conn cid).seq
      · -- the state switch sets state and timer marks
        have hrecord : (tcpOnSegment (t.conn cid) seg).SentOn
            ((tcpReceive un ipRx seg frameBuf t sh).1.conn cid) := by
          rw [tcpReceive_live un frameBuf sh hfind hlive]
          unfold tcpSwitch
          rw [setConn_same, tcpOnSegment_state, hst]
          show TcpConn.SentOn _ ((TcpState.setConn _ cid _).conn cid)
          rw [setConn_same]
          unfold tcpSynRcvd
          split
          · exact TcpConn.SentOn.same rfl rfl rfl
          · exact TcpConn.SentOn.same rfl rfl rfl
        rw [if_pos hacks, hrecord.accounted_iff, tcpOnSegment_completes_iff hacks]
        constructor
        · intro hall _
          exact ⟨nofun, fun _ _ => hall.2 (.inr rfl)⟩
        · intro hall
          exact ⟨nofun, fun _ => (hall hacks.1).2 rfl hacks.2⟩
      · rw [if_neg hacks]
        refine ⟨fun _ hack => ⟨nofun, fun _ hseq => absurd ⟨hack, hseq⟩ hacks⟩, fun _ => ⟨nofun, ?_⟩⟩
        rintro (hno | hno)
        · cases hno
        · cases hno
  | established =>
      unfold TcpConn.AccountsTo TcpAckFits
      rw [hst]
      have hrecord := tcpTakeFin_sentOn un cid seg (tcpPayload un frameBuf seg)
        (t.setConn cid (tcpOnSegment (t.conn cid) seg)) sh
      rw [← tcpReceive_established un ipRx seg frameBuf sh hfind hst, setConn_same] at hrecord
      have hone := tcpOnSegment_accounted_iff seg (hright hst)
      obtain ⟨_, _, _, hlast⟩ := id hrecord
      rw [hrecord.accounted_iff, hlast]
      constructor
      · intro hall hack
        exact ⟨fun _ => hone.mp ⟨hall.1 rfl, hall.2 (.inl rfl)⟩ hack, nofun⟩
      · intro hfits
        obtain ⟨hbetween, haccounted⟩ := hone.mpr (fun hack => (hfits hack).1 rfl)
        exact ⟨fun _ => hbetween, fun _ => haccounted⟩

/-- What the table and the accounts look like between two calls. -/
structure TcpAccountable (t : TcpState) : Prop where
  table : TcpTable t
  accounted : ∀ i, i < maxTcpConn → (t.conn i).state = .established → (t.conn i).Accounted

/-- **One call** keeps the accounts exactly if its ACK fits and no timer runs out on
unacknowledged bytes. -/
theorem tcpAccounts_iff (h : TcpAccountable t) (e : TcpEvent) : TcpAccounts t e ↔ TcpAcksFit t e := by
  cases e with
  | maintenance un sh =>
      refine ⟨fun _ => trivial, fun _ i hi => ?_⟩
      have hstate := congrArg TcpCore.state (tcpMaintenance_core un t sh i)
      refine TcpConn.SentOn.accountsTo ?_ (fun hest => hstate.symm.trans hest) (h.accounted i hi)
      show (t.conn i).SentOn ((tcpMaintenance un t sh).1.conn i)
      rcases tcpMaintenance_record un t sh i with hkept | ⟨flags, payLen, hsent⟩
      · rw [hkept]
        exact TcpConn.SentOn.same rfl rfl rfl
      · rw [hsent]
        exact tcpSendConn_sentOn _ _ _
  | segment un rst ipRx frameBuf sh =>
      -- a slot that the call leaves alone
      have hkept : ∀ i, i < maxTcpConn → (t.conn i).AccountsTo (t.conn i) := fun i hi =>
        TcpConn.SentOn.accountsTo (TcpConn.SentOn.same rfl rfl rfl) id (h.accounted i hi)
      show (∀ i, i < maxTcpConn →
          (t.conn i).AccountsTo ((tcpRxProcess un rst ipRx frameBuf t sh).1.conn i)) ↔ _ ∧ _
      by_cases hecho : tcpForEcho rst ipRx frameBuf = true
      · obtain ⟨htarget, hcall⟩ := tcpRxProcess_forEcho un t sh hecho
        have hquiet : ¬ tcpScans rst ipRx = true := by
          unfold tcpForEcho at hecho
          unfold tcpScans
          simp only [Bool.and_eq_true] at hecho
          obtain ⟨⟨⟨_, hvalid⟩, hproto⟩, _⟩ := hecho
          simp [hvalid, bne, hproto]
        rw [htarget, hcall]
        cases hfind : tcpFind t (tcpParse ipRx frameBuf).sp ipRx.srcIp with
        | none =>
            rw [tcpReceive_none un frameBuf sh hfind]
            exact ⟨fun _ => ⟨nofun, fun hscans => absurd hscans hquiet⟩, fun _ => hkept⟩
        | some cid =>
            have hcid := (tcpFind_some hfind).1
            have hone := tcpReceive_accountsTo_iff un ipRx (tcpParse ipRx frameBuf) frameBuf sh hfind
              (h.table.settled cid hcid) (h.accounted cid hcid)
            constructor
            · intro hall
              refine ⟨fun i hi => ?_, fun hscans => absurd hscans hquiet⟩
              obtain rfl : cid = i := Option.some.inj hi
              exact hone.mp (hall cid hcid)
            · intro hfits i hi
              by_cases hic : i = cid
              · rw [hic]
                exact hone.mpr (hfits.1 cid rfl)
              · rw [tcpReceive_other un ipRx _ frameBuf t sh hfind hic]
                exact hkept i hi
      · have hnone : tcpTarget rst ipRx frameBuf t = none := if_neg hecho
        rw [hnone]
        rcases tcpRxProcess_idle un t hecho with ⟨hrst, hcall⟩ | ⟨hscans, hcall⟩ | ⟨hquiet, hcall⟩
        -- a reset leaves no connection
        · rw [hcall]
          refine ⟨fun hall => ⟨nofun, fun hscans => ?_⟩, fun _ i hi => ?_⟩
          · rw [hrst] at hscans
            cases hscans
          · dsimp only
            rw [if_pos hi]
            exact TcpConn.SentOn.accountsTo (TcpConn.SentOn.same rfl rfl rfl) nofun (h.accounted i hi)
        · rw [hcall, hscans]
          refine ⟨fun hall => ⟨nofun, fun _ i hi => ?_⟩, fun hfits i hi => ?_⟩
          · have hone := hall i hi
            rw [tcpScan_conn, if_pos hi] at hone
            exact (tcpScanConn_accountsTo_iff (h.accounted i hi)).mp hone
          · rw [tcpScan_conn, if_pos hi]
            exact (tcpScanConn_accountsTo_iff (h.accounted i hi)).mpr (hfits.2 rfl i hi)
        · rw [hcall]
          refine ⟨fun _ => ⟨nofun, fun hscans => ?_⟩, fun _ => hkept⟩
          rw [hquiet] at hscans
          cases hscans

/-! ## §4. Runs. -/

theorem TcpAccountable.step (h : TcpAccountable t) (e : TcpEvent) (haccounts : TcpAccounts t e) :
    TcpAccountable (tcpMachine t e).1 where
  table := h.table.step e
  accounted := fun i hi hest => (haccounts i hi).2 (.inr hest)

/-- **ACK accounting**: in a run from power-on every established connection keeps `last_ack_recv`
between its old value and `seq`, and `flight_size` the distance to `seq`, exactly if every ACK
for it lies there, the ACK that establishes it covers what was counted, and no timer of an
established connection runs out with bytes unacknowledged.  While less than half of the numbers
are in flight, the order is the serial order. -/
theorem tcp_acks_accounted_iff (es : List TcpEvent) :
    (Along tcpMachine TcpAccounts {} es ↔ Along tcpMachine TcpAcksFit {} es)
      ∧ ∀ c c' : TcpConn, c.unacked.toNat < 2 ^ 31 →
        (serialBetween c.lastAckRecv c'.lastAckRecv c.seq
          ↔ serialLe c.lastAckRecv c'.lastAckRecv ∧ serialLe c'.lastAckRecv c.seq) := by
  have hstart : TcpAccountable {} := by
    refine ⟨TcpTable.after_free (fun _ _ => rfl) [], ?_⟩
    intro i _ hest
    cases hest
  refine ⟨?_, fun c c' hspan => serialBetween_iff hspan⟩
  refine Along.iff_of_invariant (P := TcpAccountable) ?_ ?_ hstart es
  · intro t e h
    exact tcpAccounts_iff h e
  · intro t e h hfits
    exact h.step e ((tcpAccounts_iff h e).mpr hfits)

/-- An ACK of one byte more than 192.168.100.3 was ever sent. -/
def tcpUnsentAck : TcpEvent := plainSegment 0xC0A86403 5000 101 0x1234567A tcpAck []

/-- After the handshake nothing is in flight; the ACK is taken over past `seq`, and
`flight_size` says that nothing is in flight still. -/
theorem tcp_ack_unsent :
    let t := tcpMachine.after {} (tcpHandshake 3)
    let t' := tcpMachine.after {} (tcpHandshake 3 ++ [tcpUnsentAck])
    (t.conn 0).state = .established ∧ (t.conn 0).unacked = 0
      ∧ (t'.conn 0).lastAckRecv = 0x1234567A ∧ (t'.conn 0).seq = 0x12345679
      ∧ (t'.conn 0).flightSize = 0 ∧ (t'.conn 0).unacked = 0xFFFFFFFF
      ∧ ¬ Along tcpMachine TcpAccounts {} (tcpHandshake 3 ++ [tcpUnsentAck]) := by
  refine ⟨by decide +kernel, by decide +kernel, by decide +kernel, by decide +kernel,
    by decide +kernel, by decide +kernel, ?_⟩
  intro hall
  have hlast := (Along.at_step hall) 0 (by decide)
  have hbetween := hlast.1 (by decide +kernel)
  revert hbetween
  decide +kernel

end GigabitTcp
