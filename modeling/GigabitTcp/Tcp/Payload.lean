/-
  GigabitTcp.Tcp.Payload — which bytes of a segment reach the echo queue.

  `tcp_rx_process` copies the payload of a segment out of `frame_buf` into the local
  `payload[576]`, and `tcp_queue` copies from there as much as it has room for.  The first copy
  is left out for a payload that is longer than the array; the second one is not.

  Main results:
    * `tcpStores_bytes`          — the bytes that a segment leaves in the echo buffer,
    * `tcp_payload_captured_iff` — they are the segment's own exactly if it fits `payload[]`,
    * `tcp_payload_unfilled`     — a full-sized segment queues what `payload[]` held before.
-/
import GigabitTcp.Tcp.Stored

namespace GigabitTcp

open Hw Machine

/-! ## §1. What is stored, and what should be. -/

/-- Byte `i` of the payload of a staged segment. -/
def TcpSeg.payloadByte (seg : TcpSeg) (frameBuf : Mem U32) (i : Nat) : U8 :=
  frameBuf.byteAt (5 + seg.doff.toNat) i

/-- Each byte that a data segment adds to the echo buffer of its slot is the byte of its payload
with the same index, whatever `payload[]` held before. -/
def TcpCaptures (t : TcpState) : TcpEvent → Prop
  | .segment _ rst ipRx frameBuf sh =>
      let seg := tcpParse ipRx frameBuf
      ∀ cid ∈ tcpTarget rst ipRx frameBuf t, (t.conn cid).state = .established → 0 < seg.plen →
        ∀ un i, i < tcpTakesOver t cid seg.plen →
          (tcpRxProcess un rst ipRx frameBuf t sh).1.sendBufs cid (tcpQueueUsed t + i)
            = seg.payloadByte frameBuf i
  | .maintenance _ _ => True

/-- A data segment for an established slot fits into `payload[]`, or finds no room at all. -/
def TcpFitsPayload (t : TcpState) : TcpEvent → Prop
  | .segment _ rst ipRx frameBuf _ =>
      let seg := tcpParse ipRx frameBuf
      ∀ cid ∈ tcpTarget rst ipRx frameBuf t, (t.conn cid).state = .established → 0 < seg.plen →
        seg.plen ≤ tcpRxPayload ∨ tcpQueueUsed t = 576
  | .maintenance _ _ => True

instance (t : TcpState) : ∀ e, Decidable (TcpFitsPayload t e)
  | .segment _ rst ipRx frameBuf _ =>
      inferInstanceAs (Decidable (∀ cid ∈ tcpTarget rst ipRx frameBuf t, _ → _ → _ ∨ _))
  | .maintenance .. => inferInstanceAs (Decidable True)

/-! ## §2. One segment. -/

/-- **The bytes a segment leaves** in the echo buffer are the first ones of `payload[]`. -/
theorem tcpStores_bytes (un : Uninit) {rst : Bool} {ipRx : IpRx} {frameBuf : Mem U32} {t : TcpState}
    {cid : Nat} (sh : Shared) (htarget : tcpTarget rst ipRx frameBuf t = some cid)
    (hest : (t.conn cid).state = .established) (hdata : 0 < (tcpParse ipRx frameBuf).plen) {i : Nat}
    (hi : i < tcpTakesOver t cid (tcpParse ipRx frameBuf).plen) :
    (tcpRxProcess un rst ipRx frameBuf t sh).1.sendBufs cid (tcpQueueUsed t + i)
      = tcpPayload un frameBuf (tcpParse ipRx frameBuf) i := by
  rcases tcpRx_cases un rst ipRx frameBuf t sh with ⟨hnone, _⟩ | ⟨cid', hsome, hcid, _, hstep⟩
  · rw [htarget] at hnone
    cases hnone
  · obtain rfl : cid = cid' := Option.some.inj (htarget.symm.trans hsome)
    cases hstep with
    | connects h _ _ =>
        exact absurd h (not_tcpConnects _ (by rw [hest]; decide) (by rw [hest]; decide))
    | moves _ h _ _ _ _ => exact absurd hest h
    | receives _ _ hqueue =>
        rw [if_pos hdata, tcpQueue_eq _ hcid hdata] at hqueue
        have hbufs := congrFun (congrArg TcpQueue.sendBufs hqueue) cid
        show ((tcpRxProcess un rst ipRx frameBuf t sh).1.queue.sendBufs cid) _ = _
        rw [hbufs]
        show (if cid = cid then _ else _ : Mem U8) _ = _
        rw [if_pos rfl, tcpQueueRestart_qLen]
        exact Mem.fill_at _ _ hi

/-- A payload that fits the array is copied from the frame. -/
theorem tcpPayload_filled (un : Uninit) (frameBuf : Mem U32) {seg : TcpSeg}
    (hfits : seg.plen ≤ tcpRxPayload) {i : Nat} (hi : i < seg.plen.toNat) :
    tcpPayload un frameBuf seg i = seg.payloadByte frameBuf i := by
  have hpos : 0 < seg.plen := by
    rw [BitVec.lt_def]
    exact Nat.zero_lt_of_lt hi
  exact if_pos ⟨hpos, hfits, hi⟩

/-- A longer one is not copied at all. -/
theorem tcpPayload_unfilled (un : Uninit) (frameBuf : Mem U32) {seg : TcpSeg}
    (hlong : ¬ seg.plen ≤ tcpRxPayload) (i : Nat) :
    tcpPayload un frameBuf seg i = un.payload i :=
  if_neg fun h => hlong h.2.1

/-- **One segment** stores its own bytes exactly if it fits `payload[]` or finds no room. -/
theorem tcpCaptures_iff {t : TcpState} (h : t.queue.InRange) (e : TcpEvent) :
    TcpCaptures t e ↔ TcpFitsPayload t e := by
  cases e with
  | maintenance un sh => exact Iff.rfl
  | segment un rst ipRx frameBuf sh =>
      refine forall_congr' fun cid => forall_congr' fun htarget => forall_congr' fun hest =>
        forall_congr' fun hdata => ?_
      have hcid := (tcpFind_some (tcpTarget_some htarget)).1
      have htakes := tcpTakesOver_eq (tcpParse ipRx frameBuf).plen hcid h
      have hstores := fun un i => tcpStores_bytes (i := i) un sh htarget hest hdata
      have hpos : 0 < (tcpParse ipRx frameBuf).plen.toNat := hdata
      have hused : tcpQueueUsed t ≤ 576 := by
        have hfits : t.qLen.toNat ≤ 576 := h.fits
        unfold tcpQueueUsed
        split <;> omega
      constructor
      · intro hall
        by_contra hno
        rw [not_or] at hno
        obtain ⟨hlong, hroom⟩ := hno
        have hfirst : 0 < tcpTakesOver t cid (tcpParse ipRx frameBuf).plen := by omega
        -- the array may hold anything, so also the complement of the first byte
        have hsame := hall { Uninit.zero with
          payload := fun _ => ~~~ (tcpParse ipRx frameBuf).payloadByte frameBuf 0 } 0 hfirst
        rw [hstores _ 0 hfirst, tcpPayload_unfilled _ _ hlong] at hsame
        generalize (tcpParse ipRx frameBuf).payloadByte frameBuf 0 = b at hsame
        revert hsame
        revert b
        decide
      · rintro hfits un i hi
        rw [hstores un i hi]
        rcases hfits with hfits | hfull
        · exact tcpPayload_filled un frameBuf hfits (by omega)
        -- a full buffer takes nothing over
        · omega

/-! ## §3. Runs. -/

/-- **Payload capture**: after every run from power-on, the bytes that a data segment on an
established connection adds to the echo queue are its own payload bytes, in their places,
exactly if the payload fits the 576 bytes of `payload[]` or the queue has no room; and so for
all segments of a run. -/
theorem tcp_payload_captured_iff (es : List TcpEvent) :
    (∀ e, TcpCaptures (tcpMachine.after {} es) e ↔ TcpFitsPayload (tcpMachine.after {} es) e)
      ∧ (Along tcpMachine TcpCaptures {} es ↔ Along tcpMachine TcpFitsPayload {} es) := by
  have hiff : ∀ js e, TcpCaptures (tcpMachine.after {} js) e ↔ TcpFitsPayload (tcpMachine.after {} js) e :=
    fun js e => tcpCaptures_iff (tcpBounded_after js).queue e
  exact ⟨hiff es, Along.iff_of_reached hiff es⟩

/-- 1460 bytes 61h from 192.168.100.3:5000. -/
def tcpFullSegment : TcpEvent :=
  plainSegment 0xC0A86403 5000 101 0x12345679 0x18 (List.replicate 1460 0x61)

/-- The segment is accepted, 576 bytes are queued, and the first of them is what `payload[]` held
before, not 61h. -/
theorem tcp_payload_unfilled :
    let t := tcpMachine.after {} (tcpHandshake 3)
    tcpTakesOver t 0 1460 = 576
      ∧ ((tcpMachine t tcpFullSegment).1.sendBufs 0 0) = Uninit.zero.payload 0
      ∧ ¬ TcpCaptures t tcpFullSegment := by
  intro t
  refine ⟨by decide +kernel, by decide +kernel, ?_⟩
  rw [tcpCaptures_iff (tcpBounded_after _).queue]
  decide +kernel

end GigabitTcp
