/-
  GigabitTcp.Tcp.InOrder — what a peer that duplicates or reorders its segments gets back.

  `case T_ESTABLISHED` sets `c.peer_seq=seq+plen` and queues the payload without a look at
  the old `peer_seq`.  So the echo is right exactly as long as every segment continues the
  stream: `tcp_echo_once` follows a connection through all runs whose segments do, and
  `tcp_echo_twice` is the run in which the network delivers one segment a second time.
-/
import GigabitTcp.Tcp.Runs

namespace GigabitTcp

open Hw Machine

/-! ## §1. Serial order. -/

/-- `a` is `b` or comes before `b` in 32-bit serial order. -/
def serialLe (a b : U32) : Prop := (b - a).toNat < 2 ^ 31

theorem serialLe_refl (a : U32) : serialLe a a := by
  unfold serialLe
  rw [BitVec.sub_self]
  decide

/-- Moving on by less than half of the number space is forward. -/
theorem serialLe_add (a d : U32) (h : d.toNat < 2 ^ 31) : serialLe a (a + d) := by
  unfold serialLe
  rwa [BitVec.add_comm a d, BitVec.add_sub_cancel]

/-! ## §2. The bytes of a connection. -/

/-- The connection of slot `cid` is up: established, or waiting for the ACK of our FIN. -/
def TcpUp (cid : Nat) (t : TcpState) : Prop :=
  (t.conn cid).state = .established ∨ (t.conn cid).state = .lastAck

instance (cid : Nat) (t : TcpState) : Decidable (TcpUp cid t) :=
  inferInstanceAs (Decidable (_ ∨ _))

/-- The bytes that an event hands to `tcp_queue` for slot `cid`. -/
def tcpHands (cid : Nat) (t : TcpState) : TcpEvent → List U8
  | .segment un rst ipRx frameBuf _ =>
      if tcpTarget rst ipRx frameBuf t = some cid ∧ (t.conn cid).state = .established then
        (List.range (tcpParse ipRx frameBuf).plen.toNat).map
          (tcpPayload un frameBuf (tcpParse ipRx frameBuf))
      else []
  | .maintenance _ _ => []

/-- The segment is one that the peer of slot `cid` cut from its stream `B`: the payload byte
`j` is the stream's byte number SEQ + j. -/
def TcpFromStream (B : U32 → U8) (cid : Nat) (t : TcpState) : TcpEvent → Prop
  | .segment _ rst ipRx frameBuf _ =>
      tcpTarget rst ipRx frameBuf t = some cid →
        ∀ j, j < (tcpParse ipRx frameBuf).plen.toNat →
          frameBuf.byteAt (5 + (tcpParse ipRx frameBuf).doff.toNat) j
            = B ((tcpParse ipRx frameBuf).seq + BitVec.ofNat 32 j)
  | .maintenance _ _ => True

instance (B : U32 → U8) (cid : Nat) (t : TcpState) : ∀ e, Decidable (TcpFromStream B cid t e)
  | .segment .. => inferInstanceAs (Decidable (_ → _))
  | .maintenance .. => inferInstanceAs (Decidable True)

/-- A segment for the established slot `cid` continues the stream and fits `payload[]`, or it
carries nothing and leaves `peer_seq` where it is. -/
def TcpContinues (cid : Nat) (t : TcpState) : TcpEvent → Prop
  | .segment _ rst ipRx frameBuf _ =>
      tcpTarget rst ipRx frameBuf t = some cid → (t.conn cid).state = .established →
        ((tcpParse ipRx frameBuf).seq = (t.conn cid).peerSeq
            ∧ (tcpParse ipRx frameBuf).plen ≤ tcpRxPayload)
          ∨ ((tcpParse ipRx frameBuf).plen = 0
            ∧ tcpAdvance (tcpParse ipRx frameBuf) = (t.conn cid).peerSeq)
  | .maintenance _ _ => True

instance (cid : Nat) (t : TcpState) : ∀ e, Decidable (TcpContinues cid t e)
  | .segment .. => inferInstanceAs (Decidable (_ → _ → _ ∨ _))
  | .maintenance .. => inferInstanceAs (Decidable True)

/-- The event is a segment for slot `cid` whose SEQ is not the current `peer_seq`. -/
def TcpOutOfOrder (cid : Nat) (t : TcpState) : TcpEvent → Prop
  | .segment _ rst ipRx frameBuf _ =>
      tcpTarget rst ipRx frameBuf t = some cid
        ∧ (tcpParse ipRx frameBuf).seq ≠ (t.conn cid).peerSeq
  | .maintenance _ _ => False

/-- `peer_seq` of slot `cid` does not move backwards, and a segment out of order neither
moves it nor hands anything on. -/
structure TcpStepInOrder (cid : Nat) (t : TcpState) (e : TcpEvent) : Prop where
  forward : serialLe (t.conn cid).peerSeq ((tcpMachine t e).1.conn cid).peerSeq
  ignored : TcpOutOfOrder cid t e →
    tcpHands cid t e = [] ∧ ((tcpMachine t e).1.conn cid).peerSeq = (t.conn cid).peerSeq

theorem tcpHands_established {cid : Nat} {t : TcpState} (un : Uninit) {rst : Bool} {ipRx : IpRx}
    {frameBuf : Mem U32} (sh : Shared) (htarget : tcpTarget rst ipRx frameBuf t = some cid)
    (hest : (t.conn cid).state = .established) :
    tcpHands cid t (.segment un rst ipRx frameBuf sh)
      = (List.range (tcpParse ipRx frameBuf).plen.toNat).map
          (tcpPayload un frameBuf (tcpParse ipRx frameBuf)) := by
  unfold tcpHands
  exact if_pos ⟨htarget, hest⟩

/-! ## §3. One event. -/

/-- While slot `cid` is up, an event either reaches the established connection or hands
nothing on and leaves `peer_seq` alone. -/
theorem tcpUp_step {cid : Nat} {t : TcpState} (hup : TcpUp cid t) (e : TcpEvent) :
    (∃ un rst ipRx frameBuf sh, e = .segment un rst ipRx frameBuf sh
        ∧ tcpTarget rst ipRx frameBuf t = some cid ∧ (t.conn cid).state = .established
        ∧ ((tcpMachine t e).1.conn cid).peerSeq = tcpAdvance (tcpParse ipRx frameBuf)
        ∧ (((tcpMachine t e).1.conn cid).state = .established →
            hasFlag (tcpParse ipRx frameBuf).flags tcpFin = false))
      ∨ (tcpHands cid t e = []
        ∧ ((tcpMachine t e).1.conn cid).peerSeq = (t.conn cid).peerSeq
        ∧ (((tcpMachine t e).1.conn cid).state = .established → (t.conn cid).state = .established)) := by
  -- an event that leaves the core of the slot alone, up to a state that is not established
  have hkeeps : ∀ (t' : TcpState) (state : TcpSt),
      (t'.conn cid).core = { (t.conn cid).core with state } →
      (state = .established → (t.conn cid).state = .established) →
      (t'.conn cid).peerSeq = (t.conn cid).peerSeq
        ∧ ((t'.conn cid).state = .established → (t.conn cid).state = .established) := by
    intro t' state hcore hstate
    have hst : (t'.conn cid).state = state := congrArg TcpCore.state hcore
    exact ⟨congrArg TcpCore.peerSeq hcore, fun h => hstate (hst.symm.trans h)⟩
  cases e with
  | maintenance un sh =>
      exact .inr ⟨rfl, hkeeps _ (t.conn cid).state (tcpMaintenance_core un t sh cid) id⟩
  | segment un rst ipRx frameBuf sh =>
      have hhands : ¬ (tcpTarget rst ipRx frameBuf t = some cid
          ∧ (t.conn cid).state = .established) →
          tcpHands cid t (.segment un rst ipRx frameBuf sh) = [] := by
        intro h
        unfold tcpHands
        exact if_neg h
      rcases tcpRx_cases un rst ipRx frameBuf t sh with
        ⟨hnone, _, _, hcores⟩ | ⟨i, htarget, _, hother, hstep⟩
      · obtain ⟨state, hcore, hstate⟩ := hcores cid
        refine .inr ⟨hhands (by rw [hnone]; simp), hkeeps _ state hcore ?_⟩
        rcases hstate with rfl | ⟨_, rfl⟩
        · exact id
        · exact nofun
      -- a segment for another slot leaves this one alone
      · by_cases hi : i = cid
        · subst hi
          cases hstep with
          | connects h _ _ =>
              -- a slot that is up is neither free nor listening
              unfold TcpUp at hup
              rcases h with ⟨h, _⟩ | ⟨h, _⟩ <;> simp [h] at hup
          | receives h hcore _ =>
              refine .inl ⟨un, rst, ipRx, frameBuf, sh, rfl, htarget, h,
                congrArg TcpCore.peerSeq hcore, fun hest => ?_⟩
              -- with a FIN the connection would be in `T_LAST_ACK` now
              have hst := (congrArg TcpCore.state hcore).symm.trans hest
              by_contra hfin
              rw [Bool.not_eq_false] at hfin
              rw [if_pos hfin] at hst
              cases hst
          | moves _ hest state hto hcore _ =>
              refine .inr ⟨hhands (fun h => hest h.2), hkeeps _ state hcore ?_⟩
              intro h
              unfold TcpUp at hup
              simp [hto h] at hup
        · refine .inr ⟨hhands ?_, hkeeps _ (t.conn cid).state (hother cid (Ne.symm hi)) id⟩
          rw [htarget]
          exact fun h => hi (Option.some.inj h.1)

/-- What a segment that fits `payload[]` hands on are the bytes of the frame. -/
theorem tcpPayload_fits (un : Uninit) (frameBuf : Mem U32) {seg : TcpSeg} {j : Nat}
    (hfit : seg.plen ≤ tcpRxPayload) (hj : j < seg.plen.toNat) :
    tcpPayload un frameBuf seg j = frameBuf.byteAt (5 + seg.doff.toNat) j := by
  unfold tcpPayload
  refine if_pos ⟨?_, hfit, hj⟩
  rw [BitVec.lt_def]
  exact Nat.lt_of_le_of_lt (Nat.zero_le j) hj

/-- `peer_seq` moves forward by the sequence space of the segment. -/
theorem serialLe_tcpAdvance (seg : TcpSeg) : serialLe seg.seq (tcpAdvance seg) := by
  unfold tcpAdvance
  rw [BitVec.add_assoc]
  apply serialLe_add
  -- a payload length has 16 bits, far below half of the number space
  have hplen : seg.plen.toNat < 2 ^ 16 := seg.plen.isLt
  split
  · rw [BitVec.toNat_add, BitVec.toNat_setWidth]
    show (seg.plen.toNat % 2 ^ 32 + 1) % 2 ^ 32 < 2 ^ 31
    omega
  · rw [BitVec.toNat_add, BitVec.toNat_setWidth]
    show (seg.plen.toNat % 2 ^ 32 + 0) % 2 ^ 32 < 2 ^ 31
    omega

/-- **One event**: a segment that continues the stream is taken in order. -/
theorem tcpStep_in_order {cid : Nat} {t : TcpState} {e : TcpEvent} (hup : TcpUp cid t)
    (hcont : TcpContinues cid t e) : TcpStepInOrder cid t e := by
  rcases tcpUp_step hup e with
    ⟨un, rst, ipRx, frameBuf, sh, rfl, htarget, hest, hseq, _⟩ | ⟨hhands, hseq, _⟩
  · rcases hcont htarget hest with ⟨hnext, _⟩ | ⟨hempty, hstay⟩
    · refine ⟨?_, fun h => absurd hnext h.2⟩
      rw [hseq, ← hnext]
      exact serialLe_tcpAdvance _
    · refine ⟨?_, fun _ => ⟨?_, hseq.trans hstay⟩⟩
      · rw [hseq, hstay]
        exact serialLe_refl _
      · rw [tcpHands_established un sh htarget hest, hempty]
        rfl
  · refine ⟨?_, fun _ => ⟨hhands, hseq⟩⟩
    rw [hseq]
    exact serialLe_refl _

/-- The event brings no segment larger than `payload[]`. -/
def TcpFits : TcpEvent → Prop
  | .segment _ _ ipRx frameBuf _ => (tcpParse ipRx frameBuf).plen ≤ tcpRxPayload
  | .maintenance _ _ => True

/-- Nothing less will do: of the segments that fit, only those that continue the stream are
taken in order. -/
theorem tcpStep_in_order_iff {cid : Nat} {t : TcpState} {e : TcpEvent} (hup : TcpUp cid t)
    (hfits : TcpFits e) : TcpStepInOrder cid t e ↔ TcpContinues cid t e := by
  refine ⟨fun h => ?_, tcpStep_in_order hup⟩
  cases e with
  | maintenance un sh => trivial
  | segment un rst ipRx frameBuf sh =>
      intro htarget hest
      by_cases hseq : (tcpParse ipRx frameBuf).seq = (t.conn cid).peerSeq
      · exact .inl ⟨hseq, hfits⟩
      -- out of order: nothing is handed on, so the segment was empty
      · obtain ⟨hhands, hstay⟩ := h.ignored ⟨htarget, hseq⟩
        rw [tcpHands_established un sh htarget hest] at hhands
        refine .inr ⟨?_, ?_⟩
        · rw [List.map_eq_nil_iff, List.range_eq_nil] at hhands
          exact BitVec.eq_of_toNat_eq hhands
        · have hcore := tcpRx_established un sh htarget hest
          exact (congrArg TcpCore.peerSeq hcore).symm.trans hstay

/-! ## §4. Runs. -/

/-- The bytes of the stream `B` from sequence number `p` on. -/
def streamFrom (B : U32 → U8) (p : U32) (n : Nat) : List U8 :=
  (List.range n).map (fun i => B (p + BitVec.ofNat 32 i))

theorem streamFrom_add (B : U32 → U8) (p : U32) (n k : Nat) :
    streamFrom B p (n + k) = streamFrom B p n ++ streamFrom B (p + BitVec.ofNat 32 n) k := by
  unfold streamFrom
  rw [List.range_add, List.map_append, List.map_map]
  refine congrArg _ (List.map_congr_left fun i _ => ?_)
  show B (p + BitVec.ofNat 32 (n + i)) = B (p + BitVec.ofNat 32 n + BitVec.ofNat 32 i)
  rw [BitVec.ofNat_add, BitVec.add_assoc]

/-- Handed on so far: the stream from `p`, up to `peer_seq` while the connection is
established. -/
def TcpInStream (B : U32 → U8) (p : U32) (cid : Nat) (t : TcpState) (handed : List U8) : Prop :=
  ∃ n, handed = streamFrom B p n
    ∧ ((t.conn cid).state = .established → (t.conn cid).peerSeq = p + BitVec.ofNat 32 n)

theorem tcpInStream_step {B : U32 → U8} {p : U32} {cid : Nat} {t : TcpState} {l : List U8}
    {e : TcpEvent} (h : TcpInStream B p cid t l) (hup : TcpUp cid t)
    (hstream : TcpFromStream B cid t e) (hcont : TcpContinues cid t e) :
    TcpInStream B p cid (tcpMachine t e).1 (l ++ tcpHands cid t e) := by
  obtain ⟨n, hl, hpos⟩ := h
  rcases tcpUp_step hup e with
    ⟨un, rst, ipRx, frameBuf, sh, rfl, htarget, hest, hseq, hfin⟩ | ⟨hhands, hseq, hstate⟩
  -- what is handed on is the stream from `peer_seq` on
  · have hbytes : tcpHands cid t (.segment un rst ipRx frameBuf sh)
        = streamFrom B (p + BitVec.ofNat 32 n) (tcpParse ipRx frameBuf).plen.toNat := by
      rw [tcpHands_established un sh htarget hest]
      unfold streamFrom
      apply List.map_congr_left
      intro j hj
      rw [List.mem_range] at hj
      rcases hcont htarget hest with ⟨hnext, hfit⟩ | ⟨hempty, _⟩
      · rw [tcpPayload_fits un frameBuf hfit hj, hstream htarget j hj, hnext, hpos hest]
      · rw [hempty] at hj
        cases hj
    refine ⟨n + (tcpParse ipRx frameBuf).plen.toNat, ?_, ?_⟩
    · rw [hbytes, hl, streamFrom_add]
    -- still established, so there was no FIN to count
    · intro hstill
      rw [hseq]
      rcases hcont htarget hest with ⟨hnext, _⟩ | ⟨hempty, hstay⟩
      · unfold tcpAdvance
        rw [hfin hstill, hnext, hpos hest, BitVec.ofNat_add, BitVec.ofNat_toNat]
        show p + BitVec.ofNat 32 n + (tcpParse ipRx frameBuf).plen.setWidth 32 + 0#32 = _
        rw [BitVec.add_zero, BitVec.add_assoc]
      · rw [hstay, hempty, hpos hest]
        rfl
  · rw [hhands, List.append_nil]
    exact ⟨n, hl, fun h => hseq.trans (hpos (hstate h))⟩

/-- What the network may do to the segments of slot `cid`, and the code still echo the stream
`B` once: they are the peer's, and each of them continues the stream. -/
def TcpInOrder (B : U32 → U8) (cid : Nat) (t : TcpState) (e : TcpEvent) : Prop :=
  TcpUp cid t ∧ TcpFromStream B cid t e ∧ TcpContinues cid t e

instance (B : U32 → U8) (cid : Nat) (t : TcpState) (e : TcpEvent) :
    Decidable (TcpInOrder B cid t e) :=
  inferInstanceAs (Decidable (_ ∧ _ ∧ _))

/-- **In-order echo**: on a connection that is up and whose segments all continue the peer's
stream, no event moves `peer_seq` backwards, no segment out of order has an effect, and the
bytes handed to `tcp_queue` are the stream from the first `peer_seq` on. -/
theorem tcp_echo_once (B : U32 → U8) (cid : Nat) (t : TcpState) (es : List TcpEvent)
    (hrun : Along tcpMachine (TcpInOrder B cid) t es) :
    (∀ es₁ e es₂, es = es₁ ++ e :: es₂ → TcpStepInOrder cid (tcpMachine.after t es₁) e)
      ∧ ∃ n, tcpMachine.record (tcpHands cid) t es = streamFrom B (t.conn cid).peerSeq n := by
  constructor
  · rintro es₁ e es₂ rfl
    obtain ⟨hup, _, hcont⟩ := hrun.at_step
    exact tcpStep_in_order hup hcont
  · have hstart : TcpInStream B (t.conn cid).peerSeq cid t [] :=
      ⟨0, rfl, fun _ => (BitVec.add_zero _).symm⟩
    have hend := Along.invariant_record (f := tcpHands cid)
      (P := TcpInStream B (t.conn cid).peerSeq cid)
      (fun s l e h hC => tcpInStream_step h hC.1 hC.2.1 hC.2.2) es hstart hrun
    obtain ⟨n, hn, _⟩ := hend
    exact ⟨n, hn⟩

/-! ## §5. Two bytes in order, and one of them again. -/

/-- Slot 0 is connected to 192.168.100.1:5000 and expects byte number 1000. -/
def tcpConnected : TcpState :=
  { conn := fun i => if i = 0 then
      { state := .established, peerPort := 5000, peerIp := 0xC0A86401, peerSeq := 1000 } else {} }

/-- A segment of that peer with one byte. -/
def tcpByteSegment (seq : U32) (byte : U8) : TcpEvent :=
  plainSegment 0xC0A86401 5000 seq 0 0x18 [byte]

/-- The stream of that peer: A is byte number 1000, B the one behind it. -/
def tcpTwoBytes (n : U32) : U8 := if n = 1000 then 0x41 else if n = 1001 then 0x42 else 0

/-- In order, the two bytes are handed on once. -/
theorem tcp_two_bytes_once :
    (∀ es₁ e es₂, [tcpByteSegment 1000 0x41, tcpByteSegment 1001 0x42]
        = es₁ ++ e :: es₂ → TcpStepInOrder 0 (tcpMachine.after tcpConnected es₁) e)
      ∧ ∃ n, tcpMachine.record (tcpHands 0) tcpConnected
          [tcpByteSegment 1000 0x41, tcpByteSegment 1001 0x42]
        = streamFrom tcpTwoBytes (tcpConnected.conn 0).peerSeq n :=
  tcp_echo_once tcpTwoBytes 0 tcpConnected _ (by decide +kernel)

/-- The network delivers A, B and A again: all three are the peer's own segments, and the
copy is handed to `tcp_queue` a second time and takes `peer_seq` back from 1002 to 1001. -/
theorem tcp_echo_twice :
    ∃ first second : TcpEvent,
      first = tcpByteSegment 1000 0x41 ∧ second = tcpByteSegment 1001 0x42
      ∧ Along tcpMachine (fun t e => TcpUp 0 t ∧ TcpFromStream tcpTwoBytes 0 t e) tcpConnected
          [first, second, first]
      ∧ tcpMachine.record (tcpHands 0) tcpConnected [first, second, first] = [0x41, 0x42, 0x41]
      ∧ (∀ n, tcpMachine.record (tcpHands 0) tcpConnected [first, second, first]
          ≠ streamFrom tcpTwoBytes (tcpConnected.conn 0).peerSeq n)
      ∧ ¬ TcpStepInOrder 0 (tcpMachine.after tcpConnected [first, second]) first := by
  have hrecord : tcpMachine.record (tcpHands 0) tcpConnected [tcpByteSegment 1000 0x41,
      tcpByteSegment 1001 0x42, tcpByteSegment 1000 0x41] = [0x41, 0x42, 0x41] := by
    decide +kernel
  refine ⟨_, _, rfl, rfl, by decide +kernel, hrecord, ?_, ?_⟩
  -- three bytes of the stream would end with byte number 1002
  · intro n hn
    rw [hrecord] at hn
    have hlen : n = 3 := by
      have h := congrArg List.length hn
      simpa [streamFrom] using h.symm
    subst hlen
    revert hn
    decide
  · intro h
    have hforward := h.forward
    revert hforward
    unfold serialLe
    decide +kernel

end GigabitTcp
