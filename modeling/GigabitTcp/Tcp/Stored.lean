/-
  GigabitTcp.Tcp.Stored — whether the ACK covers what the echo queue has stored.

  `case T_ESTABLISHED` moves `peer_seq` on by the whole payload and then hands the payload to
  `tcp_queue`, which stores as much as fits behind `tcp_q_len` and drops the rest.  The room
  grows only when the queue is drained, so it depends on everything that was queued and
  flushed before.

  Main results:
    * `tcp_acks_stored_iff` — a run acknowledges only what it has stored exactly if every
      data segment continues its stream and fits the room,
    * `tcp_acks_dropped`    — two segments of 536 bytes while MAC TX is busy.
-/
import GigabitTcp.Tcp.Bounds
import GigabitTcp.Tcp.InOrder

namespace GigabitTcp

open Hw Machine

/-! ## §1. What is acknowledged and what is stored. -/

/-- The acknowledgement number `ack` covers the byte with sequence number `s`. -/
def tcpCovers (ack s : U32) : Prop := s ≠ ack ∧ serialLe s ack

/-- A data segment for the established slot `cid` in state `t`, leading to `t'`: `peer_seq`
moves on by the bytes that were queued (and the FIN), and while the connection is up no
later `peer_seq` covers a byte that was not. -/
structure TcpAcksStoredAt (t : TcpState) (cid : Nat) (seg : TcpSeg) (t' : TcpState)
    (later : List TcpEvent) : Prop where
  advance : (t'.conn cid).peerSeq - (t.conn cid).peerSeq
    = BitVec.ofNat 32 (tcpTakesOver t cid seg.plen) + if hasFlag seg.flags tcpFin then 1 else 0
  dropped : ∀ k, tcpTakesOver t cid seg.plen ≤ k → k < seg.plen.toNat → ∀ es, es <+: later →
    Along tcpMachine (fun t _ => TcpUp cid t) t' es →
    ¬ tcpCovers ((tcpMachine.after t' es).conn cid).peerSeq (seg.seq + BitVec.ofNat 32 k)

/-- The event, if it is a data segment for an established slot, is acknowledged as stored. -/
def TcpAcksStored (t : TcpState) (later : List TcpEvent) : TcpEvent → Prop
  | .segment un rst ipRx frameBuf sh =>
      ∀ cid ∈ tcpTarget rst ipRx frameBuf t, (t.conn cid).state = .established →
        0 < (tcpParse ipRx frameBuf).plen →
        TcpAcksStoredAt t cid (tcpParse ipRx frameBuf) (tcpRxProcess un rst ipRx frameBuf t sh).1
          later
  | .maintenance _ _ => True

/-- The bytes that `tcp_q_len` has used up of the buffer; a drained queue starts over. -/
def tcpQueueUsed (t : TcpState) : Nat := if t.qDrained then 0 else t.qLen.toNat

/-- A data segment for an established slot starts at `peer_seq` and fits the room. -/
def TcpFitsQueue (t : TcpState) : TcpEvent → Prop
  | .segment _ rst ipRx frameBuf _ =>
      ∀ cid ∈ tcpTarget rst ipRx frameBuf t, (t.conn cid).state = .established →
        0 < (tcpParse ipRx frameBuf).plen →
        (tcpParse ipRx frameBuf).seq = (t.conn cid).peerSeq
          ∧ tcpQueueUsed t + (tcpParse ipRx frameBuf).plen.toNat ≤ 576
  | .maintenance _ _ => True

instance (t : TcpState) : ∀ e, Decidable (TcpFitsQueue t e)
  | .segment _ rst ipRx frameBuf _ =>
      inferInstanceAs (Decidable (∀ cid ∈ tcpTarget rst ipRx frameBuf t, _ → _ → _ ∧ _))
  | .maintenance .. => inferInstanceAs (Decidable True)

/-! ## §2. One segment. -/

/-- New bytes go behind those that the queue has used up. -/
theorem tcpQueueRestart_qLen (t : TcpState) (cid : Nat) :
    (tcpQueueRestart t cid).qLen.toNat = tcpQueueUsed t := by
  unfold tcpQueueRestart tcpQueueUsed
  split <;> rfl

/-- What `tcp_queue` stores of a payload. -/
theorem tcpTakesOver_eq {t : TcpState} {cid : Nat} (payLen : U16) (hcid : cid < maxTcpConn)
    (h : t.queue.InRange) :
    tcpTakesOver t cid payLen = min payLen.toNat (576 - tcpQueueUsed t) := by
  obtain ⟨hrange, -, -⟩ := tcpQueueRestart_spec hcid h
  unfold tcpTakesOver
  rw [toNat_tcpQueueRoom payLen hrange, tcpQueueRestart_qLen]

/-- The ACK of a segment covers each of its payload bytes. -/
theorem tcpCovers_tcpAdvance {seg : TcpSeg} {k : Nat} (hk : k < seg.plen.toNat) :
    tcpCovers (tcpAdvance seg) (seg.seq + BitVec.ofNat 32 k) := by
  have hplen : seg.plen.toNat < 2 ^ 16 := seg.plen.isLt
  have hfin : (if hasFlag seg.flags tcpFin = true then 1 else 0 : U32).toNat ≤ 1 := by
    split <;> decide
  -- the distance from the byte to the end of the segment
  have hdist : (tcpAdvance seg - (seg.seq + BitVec.ofNat 32 k)).toNat
      = seg.plen.toNat - k + (if hasFlag seg.flags tcpFin = true then 1 else 0 : U32).toNat := by
    unfold tcpAdvance
    rw [BitVec.toNat_sub, BitVec.toNat_add, BitVec.toNat_add, BitVec.toNat_add,
      BitVec.toNat_setWidth, BitVec.toNat_ofNat]
    have hseq : seg.seq.toNat < 2 ^ 32 := seg.seq.isLt
    omega
  constructor
  -- at distance 0 the byte would not be part of the segment
  · intro heq
    rw [heq, BitVec.sub_self] at hdist
    have hzero : (0#32).toNat = 0 := rfl
    omega
  · unfold serialLe
    rw [hdist]
    omega

/-- **One data segment** is acknowledged as stored exactly if it starts at `peer_seq` and
fits the room; what comes later does not matter. -/
theorem tcpAcksStored_iff {t : TcpState} (h : t.queue.InRange) (later : List TcpEvent)
    (e : TcpEvent) : TcpAcksStored t later e ↔ TcpFitsQueue t e := by
  cases e with
  | maintenance un sh => exact Iff.rfl
  | segment un rst ipRx frameBuf sh =>
      refine forall_congr' fun cid => forall_congr' fun htarget => forall_congr' fun hest =>
        forall_congr' fun hdata => ?_
      have hcid := (tcpFind_some (tcpTarget_some htarget)).1
      have htakes := tcpTakesOver_eq (tcpParse ipRx frameBuf).plen hcid h
      -- whatever was stored, `peer_seq` is behind the whole payload
      have hseq : ((tcpRxProcess un rst ipRx frameBuf t sh).1.conn cid).peerSeq
          = tcpAdvance (tcpParse ipRx frameBuf) :=
        congrArg TcpCore.peerSeq (tcpRx_established un sh htarget hest)
      generalize tcpParse ipRx frameBuf = seg at htakes hseq hdata ⊢
      generalize (tcpRxProcess un rst ipRx frameBuf t sh).1 = t' at hseq ⊢
      have hplen : BitVec.ofNat 32 seg.plen.toNat = seg.plen.setWidth 32 := by
        rw [BitVec.ofNat_toNat]
      have hpos : 0 < seg.plen.toNat := hdata
      constructor
      · intro hstored
        -- a byte that was dropped is covered at once
        have hall : seg.plen.toNat ≤ tcpTakesOver t cid seg.plen := by
          by_contra hless
          rw [Nat.not_le] at hless
          refine hstored.dropped _ (Nat.le_refl _) hless [] List.nil_prefix trivial ?_
          rw [after_nil, hseq]
          exact tcpCovers_tcpAdvance hless
        have htake : tcpTakesOver t cid seg.plen = seg.plen.toNat := by omega
        refine ⟨?_, by omega⟩
        -- all is stored, so the advance leaves no gap in front of the segment
        have hadvance := hstored.advance
        rw [hseq, htake, hplen] at hadvance
        unfold tcpAdvance at hadvance
        rw [BitVec.add_assoc] at hadvance
        generalize (seg.plen.setWidth 32 + if hasFlag seg.flags tcpFin = true then 1 else 0 : U32)
          = d at hadvance
        bv_omega
      · rintro ⟨hstart, hfits⟩
        have htake : tcpTakesOver t cid seg.plen = seg.plen.toNat := by omega
        constructor
        · rw [hseq, htake, hplen, ← hstart]
          unfold tcpAdvance
          rw [BitVec.add_assoc, BitVec.add_comm seg.seq, BitVec.add_sub_cancel]
        · intro k hk hlt
          omega

/-! ## §3. Runs. -/

/-- **What is acknowledged is stored**: of all runs from power-on, over any segments, resets
and maintenance passes, those in which every data segment on an established connection moves
`peer_seq` on by what was queued, and in which no dropped byte is ever covered by `peer_seq`,
are those in which every such segment starts at `peer_seq` and fits the room. -/
theorem tcp_acks_stored_iff (es : List TcpEvent) :
    (∀ es₁ e es₂, es = es₁ ++ e :: es₂ → TcpAcksStored (tcpMachine.after {} es₁) es₂ e)
      ↔ Along tcpMachine TcpFitsQueue {} es := by
  rw [Along.iff_at_steps]
  refine forall_congr' fun es₁ => forall_congr' fun e => forall_congr' fun es₂ =>
    forall_congr' fun _ => ?_
  exact tcpAcksStored_iff (tcpBounded_after es₁).queue es₂ e

/-- 536 bytes from 192.168.100.3:5000, starting at `seq`. -/
def tcpLongSegment (seq : U32) : TcpEvent :=
  plainSegment 0xC0A86403 5000 seq 0x12345679 0x18 (List.replicate 536 0x61)

/-- Two long segments arrive before `tcp_maintenance` gets to run: of the second one 40 bytes
are stored, and all 536 are acknowledged. -/
theorem tcp_acks_dropped :
    ∃ es : List TcpEvent, es = tcpHandshake 3 ++ [tcpLongSegment 101]
      ∧ tcpTakesOver (tcpMachine.after {} es) 0 536 = 40
      ∧ ((tcpMachine.after {} es).conn 0).peerSeq = 637
      ∧ ((tcpMachine.after {} (es ++ [tcpLongSegment 637])).conn 0).peerSeq = 637 + 536
      ∧ ¬ TcpAcksStored (tcpMachine.after {} es) [] (tcpLongSegment 637) := by
  refine ⟨_, rfl, by decide +kernel, by decide +kernel, by decide +kernel, ?_⟩
  rw [tcpAcksStored_iff (tcpBounded_after _).queue]
  decide +kernel

end GigabitTcp
