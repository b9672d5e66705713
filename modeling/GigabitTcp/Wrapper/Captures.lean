/-
  GigabitTcp.Wrapper.Captures — what `?txd`, `?rxd` and `?raw` show.

  The captures of the TX and the RX bytes are recorders on a wire: they keep the head of the first burst
  that is long enough and stand still behind it, so that `net_stats` reads them through two registers
  of another clock without a torn value.  Two things differ from what a reader of the ports expects.
  The TX capture freezes behind a burst of fifteen bytes already, which leaves the last place as it
  was; and the RX counter stops at the last place itself, which therefore shows the last byte
  of the frame and not its eighth.

  Main results:
    * `captures_run`     — a capture of the board is a recorder of `Hw.Bursts`,
    * `raw_run`          — the first sixteen bytes of the stream of the IP,
    * `board_captures`   — the ports of `net_stats` behind any run of the two clocks.
-/
import GigabitTcp.Hw.Bursts
import GigabitTcp.Wrapper.FrameCounts

namespace GigabitTcp

open Hw Machine

/-! ## §1. Captures as recorders. -/

namespace FrameCapture

variable {w : Nat}

/-- The capture as a recorder. -/
def recorder (s : FrameCapture w) : Recorder U8 := { run := s.run.toNat, mem := s.cap, done := s.done }

/-- One cycle of the capture is one of the recorder. -/
theorem recorder_next (n : Nat) (sat freeze : BitVec w) (s : FrameCapture w) (byte : Option U8) :
    (s.next n sat freeze byte).recorder = s.recorder.next n sat.toNat freeze.toNat byte := by
  unfold FrameCapture.next Recorder.next
  show recorder _ = if s.done = true then _ else _
  by_cases hdone : s.done = true
  · rw [if_pos hdone, if_pos hdone]
  · rw [if_neg hdone, if_neg hdone]
    cases byte with
    | none => rfl
    | some b =>
        have hrun : (if s.run < sat then s.run + 1 else s.run).toNat
            = if s.run.toNat < sat.toNat then s.run.toNat + 1 else s.run.toNat := by
          by_cases hlt : s.run < sat
          · have hlt' : s.run.toNat < sat.toNat := hlt
            have hroom : s.run.toNat + 1 < 2 ^ w := Nat.lt_of_le_of_lt hlt' sat.isLt
            rw [if_pos hlt, if_pos hlt', BitVec.toNat_add]
            by_cases hw : w = 0
            · subst hw
              omega
            · have hone : (1#w).toNat = 1 := by
                rw [BitVec.toNat_ofNat]
                exact Nat.mod_eq_of_lt (Nat.one_lt_two_pow hw)
              show (s.run.toNat + (1#w).toNat) % 2 ^ w = _
              rw [hone, Nat.mod_eq_of_lt hroom]
          · have hlt' : ¬ s.run.toNat < sat.toNat := hlt
            rw [if_neg hlt, if_neg hlt']
        show ({ run := BitVec.toNat _, mem := _, done := _ } : Recorder U8) = _
        rw [hrun]
        rfl

end FrameCapture

namespace Board

/-! ## §2. The wires of a run. -/

/-- What the TX capture looks at: the wire of the bridge, without the demo frames. -/
def txPins : Board → List BoardEdge → List (Option U8) :=
  board.record fun b e =>
    match e with
    | .gmii _ => [if b.gmii.tx.eTxen then some b.gmii.tx.eTxd else none]
    | .gclk _ _ _ _ => []

/-- What the RX capture looks at: the wire of the PHY behind two registers. -/
def rxWire : Board → List BoardEdge → List (Option U8) :=
  board.record fun b e =>
    match e with
    | .gmii _ => [if b.gmii.rx.rxDvD2 then some b.gmii.rx.rxD2 else none]
    | .gclk _ _ _ _ => []

/-- The bytes that the IP has shown as valid. -/
def rawBytes (es : List BoardEdge) : List U8 :=
  es.flatMap fun e =>
    match e with
    | .gmii i => if i.netTxValid then [i.netTxData.setWidth 8] else []
    | .gclk _ _ _ _ => []

/-- The byte that the PHY shows in a cycle. -/
def phyByte (i : RxBridgeIn) : Option U8 := if i.eRxdv then some i.eRxd else none

/-- **The RX wire** is the wire of the PHY, two cycles late. -/
theorem rxWire_eq (b : Board) (es : List BoardEdge) :
    rxWire b.reset es = ((idleWire :: idleWire :: rxInputs es).take (rxInputs es).length).map phyByte := by
  induction es using List.reverseRecOn with
  | nil => rfl
  | append_singleton es e ih =>
      have hsplit : rxWire b.reset (es ++ [e])
          = rxWire b.reset es ++ rxWire (board.after b.reset es) [e] := Machine.record_append _ b.reset es [e]
      rw [hsplit, ih, rxInputs_snoc]
      cases e with
      | gclk _ _ _ _ =>
          show _ ++ [] = ((idleWire :: idleWire :: (rxInputs es ++ [])).take (rxInputs es ++ []).length).map _
          rw [List.append_nil, List.append_nil]
      | gmii i =>
          have hlate := rxBridge_late b.gmii.rx (rxInputs es)
          have hrx := rx_after b.reset es
          change (board.after b.reset es).gmii.rx
            = rxBridgeMachine.after b.gmii.rx.reset (rxInputs es) at hrx
          rw [← hrx] at hlate
          have hwire : rxWire (board.after b.reset es) [.gmii i]
              = [phyByte (wireAt (rxInputs es) (rxInputs es).length)] := by
            show [if (board.after b.reset es).gmii.rx.rxDvD2 then _ else _] = _
            rw [hlate.d2.1, hlate.d2.2]
            rfl
          have hin : (rxInputs es).length < (idleWire :: idleWire :: rxInputs es).length := by
            rw [List.length_cons, List.length_cons]
            omega
          have hlast : rxInputs [.gmii i]
              = [{ eRxd := i.eRxd, eRxdv := i.eRxdv, netRxReady := i.netRxReady }] := rfl
          rw [hwire, hlast, List.length_append, List.length_singleton, ← List.cons_append, ← List.cons_append,
            List.take_append_of_le_length (by omega), List.take_succ_eq_append_getElem hin, List.map_append]
          refine congrArg (_ ++ [phyByte ·]) ?_
          unfold wireAt
          rw [List.getD_eq_getElem?_getD, List.getElem?_eq_getElem hin]
          rfl

/-! ## §3. The captures of a run. -/

/-- The captures of a board as recorders. -/
theorem captures_run (b : Board) (es : List BoardEdge) :
    (board.after b es).stats.tx.recorder
        = Recorder.run_of 16 31 15 b.stats.tx.recorder (txPins b es) ∧
      (board.after b es).stats.rx.recorder
        = Recorder.run_of 8 7 7 b.stats.rx.recorder (rxWire b es) := by
  induction es generalizing b with
  | nil => exact ⟨rfl, rfl⟩
  | cons e es ih =>
      obtain ⟨htx, hrx⟩ := ih (b.next e)
      cases e with
      | gclk _ _ _ _ => exact ⟨htx, hrx⟩
      | gmii i =>
          have hnext := FrameCapture.recorder_next 16 31 15 b.stats.tx
            (if b.gmii.tx.eTxen then some b.gmii.tx.eTxd else none)
          have hnext' := FrameCapture.recorder_next 8 7 7 b.stats.rx
            (if b.gmii.rx.rxDvD2 then some b.gmii.rx.rxD2 else none)
          constructor
          · show (board.after (b.next (.gmii i)) es).stats.tx.recorder = _
            rw [htx]
            show Recorder.run_of 16 31 15 (b.stats.tx.next 16 31 15 _).recorder _ = _
            rw [hnext]
            rfl
          · show (board.after (b.next (.gmii i)) es).stats.rx.recorder = _
            rw [hrx]
            show Recorder.run_of 8 7 7 (b.stats.rx.next 8 7 7 _).recorder _ = _
            rw [hnext']
            rfl

end Board

/-- The capture of the stream holds the first sixteen of its bytes. -/
structure RawCapture.Holds (bytes : List U8) (s : RawCapture) : Prop where
  rawN : s.rawN.toNat = min bytes.length 16
  rawDone : s.rawDone = decide (16 ≤ bytes.length)
  rawCap : ∀ k, k < 16 → ∀ a, bytes[k]? = some a → s.rawCap k = a

theorem RawCapture.Holds.next {bytes : List U8} {s : RawCapture} (h : s.Holds bytes) (netTxValid : Bool)
    (netTxData : U16) :
    (s.next netTxValid netTxData).Holds
      (bytes ++ if netTxValid then [netTxData.setWidth 8] else []) := by
  unfold RawCapture.next
  cases hdone : s.rawDone with
  | true =>
      -- full: what comes behind is not looked at
      have hfull : 16 ≤ bytes.length := by simpa [hdone] using h.rawDone
      rw [if_pos rfl]
      refine ⟨?_, ?_, ?_⟩
      · rw [h.rawN, List.length_append]
        omega
      · rw [hdone, eq_comm, decide_eq_true_eq, List.length_append]
        omega
      · intro k hk a ha
        rw [List.getElem?_append_left (by omega)] at ha
        exact h.rawCap k hk a ha
  | false =>
      have hroom : bytes.length < 16 := by simpa [hdone] using h.rawDone
      have hn : s.rawN.toNat = bytes.length := by
        rw [h.rawN]
        omega
      have hle : s.rawN ≤ 15 := by bv_omega
      rw [if_neg Bool.false_ne_true]
      cases netTxValid with
      | false =>
          have hidle : ¬ (false = true ∧ s.rawN ≤ 15) := fun hno => Bool.false_ne_true hno.1
          rw [if_neg hidle, if_neg Bool.false_ne_true, List.append_nil]
          exact h
      | true =>
          rw [if_pos rfl, if_pos ⟨rfl, hle⟩]
          refine ⟨?_, ?_, ?_⟩
          · show (s.rawN + 1).toNat = _
            rw [List.length_append, List.length_singleton]
            bv_omega
          · show (s.rawN == 15) = _
            rw [List.length_append, List.length_singleton, Bool.eq_iff_iff, beq_iff_eq, decide_eq_true_eq]
            constructor <;> intro heq <;> bv_omega
          · intro k hk a ha
            show s.rawCap.set s.rawN.toNat _ k = a
            rw [hn]
            by_cases hlt : k < bytes.length
            · rw [List.getElem?_append_left hlt] at ha
              rw [Mem.set_other _ _ (by omega)]
              exact h.rawCap k hk a ha
            · have hat : k = bytes.length := by
                obtain ⟨hin, -⟩ := List.getElem?_eq_some_iff.mp ha
                rw [List.length_append, List.length_singleton] at hin
                omega
              rw [hat, List.getElem?_concat_length] at ha
              rw [hat, Mem.set_same]
              exact Option.some.inj ha

/-- **The capture of the stream.** -/
theorem raw_run (b : Board) (es : List BoardEdge) {bytes : List U8} (h : b.stats.raw.Holds bytes) :
    (board.after b es).stats.raw.Holds (bytes ++ Board.rawBytes es) := by
  induction es generalizing b bytes with
  | nil =>
      show b.stats.raw.Holds (bytes ++ [])
      rwa [List.append_nil]
  | cons e es ih =>
      cases e with
      | gclk _ _ _ _ => exact ih _ h
      | gmii i =>
          have hnext := ih (b.next (.gmii i)) (h.next i.netTxValid i.netTxData)
          rwa [List.append_assoc] at hnext

/-! ## §4. The ports of `net_stats`. -/

/-- Byte `k` of a port is place `k` of the memory. -/
theorem lsByte_capPort (n : Nat) (cap : Mem U8) {k : Nat} (hk : k < n) :
    lsByte (capPort n cap) k = cap k := by
  refine lsByte_foldl_pushByte _ _ (by omega) ?_
  rw [List.reverse_reverse, List.getElem?_map, List.getElem?_range hk]
  rfl

open Board

/-- **What `net_stats` shows of the captures.**  The edges of `gmii_clk` and `fpga_gclk` come in any
order, then more of them, and behind them two of `fpga_gclk`.

When a TX burst of fifteen bytes or more has ended before, the port of `?txd` shows the head of
the first such burst, byte 0 in the lowest bits.  When an RX frame of seven bytes or more has
ended, the port of `?rxd` shows the first seven bytes of the first such frame, and in
its last place the last byte of the frame.  When the IP has shown sixteen bytes, the
port of `?raw` shows the first sixteen.  Nothing that comes behind changes them. -/
theorem board_captures (b : Board) (es more : List BoardEdge)
    (rs232Rx delayReady mmcmRefLocked netRxReady : Fin 2 → Bool) :
    let edge := fun k => BoardEdge.gclk (rs232Rx k) (delayReady k) (mmcmRefLocked k) (netRxReady k)
    let stats := (board.after b.reset (es ++ more ++ [edge 0, edge 1])).uart.netStats
    let wire := ((idleWire :: idleWire :: rxInputs es).take (rxInputs es).length).map phyByte
    (∀ f, (Bursts.of (txPins b.reset es)).firstLong 15 = some f →
        ∀ k a, k < 16 → f[k]? = some a → lsByte stats.txcap.s2 k = a) ∧
      (∀ f, (Bursts.of wire).firstLong 7 = some f →
        (∀ k a, k < 7 → f[k]? = some a → lsByte stats.rxcap.s2 k = a) ∧
          (7 < f.length → f.getLast? = some (lsByte stats.rxcap.s2 7))) ∧
      (16 ≤ (rawBytes es).length → ∀ k, k < 16 → (rawBytes es)[k]? = some (lsByte stats.rawcap.s2 k)) := by
  intro edge stats wire
  -- two edges of `fpga_gclk` carry the ports into the second registers
  have hports : stats.txcap.s2 = capPort 16 (board.after b.reset (es ++ more)).stats.tx.cap ∧
      stats.rxcap.s2 = capPort 8 (board.after b.reset (es ++ more)).stats.rx.cap ∧
      stats.rawcap.s2 = capPort 16 (board.after b.reset (es ++ more)).stats.raw.rawCap := by
    have hafter : board.after b.reset (es ++ more ++ [edge 0, edge 1])
        = ((board.after b.reset (es ++ more)).next (edge 0)).next (edge 1) := Machine.after_append ..
    have hstats : stats = (((board.after b.reset (es ++ more)).next (edge 0)).next (edge 1)).uart.netStats :=
      congrArg (fun t : Board => t.uart.netStats) hafter
    rw [hstats]
    exact ⟨rfl, rfl, rfl⟩
  obtain ⟨htxPort, hrxPort, hrawPort⟩ := hports
  obtain ⟨htx, hrx⟩ := captures_run b.reset (es ++ more)
  have hkeeps := Recorder.run_keeps 16 31 15 (by omega) (by omega)
    b.stats.tx.cap (txPins b.reset (es ++ more))
  have hkeeps' := Recorder.run_keeps 8 7 7 (by omega) (by omega)
    b.stats.rx.cap (rxWire b.reset (es ++ more))
  change Recorder.Keeps 16 31 15 _ (Recorder.run_of 16 31 15 b.reset.stats.tx.recorder _) at hkeeps
  change Recorder.Keeps 8 7 7 _ (Recorder.run_of 8 7 7 b.reset.stats.rx.recorder _) at hkeeps'
  rw [← htx] at hkeeps
  rw [← hrx] at hkeeps'
  refine ⟨?_, ?_, ?_⟩
  · intro f hf k a hk ha
    have hsplit : txPins b.reset (es ++ more) = txPins b.reset es ++ txPins (board.after b.reset es) more :=
      Machine.record_append _ b.reset es more
    rw [hsplit, Recorder.Keeps, Bursts.firstLong_append (by omega) hf] at hkeeps
    rw [htxPort, lsByte_capPort 16 _ hk]
    exact (hkeeps.2 k hk).1 (by omega) a ha
  · intro f hf
    have hsplit : rxWire b.reset (es ++ more) = rxWire b.reset es ++ rxWire (board.after b.reset es) more :=
      Machine.record_append _ b.reset es more
    change (Bursts.of (((idleWire :: idleWire :: rxInputs es).take _).map phyByte)).firstLong 7 = _ at hf
    rw [← rxWire_eq b es] at hf
    rw [hsplit, Recorder.Keeps, Bursts.firstLong_append (by omega) hf] at hkeeps'
    constructor
    · intro k a hk ha
      rw [hrxPort, lsByte_capPort 8 _ (by omega)]
      exact (hkeeps'.2 k (by omega)).1 hk a ha
    · intro hlen
      rw [hrxPort, lsByte_capPort 8 _ (by omega)]
      exact (hkeeps'.2 7 (by omega)).2 rfl hlen
  · intro hlen k hk
    have hstart : b.reset.stats.raw.Holds [] :=
      ⟨rfl, rfl, fun _ _ _ ha => (Option.some_ne_none _ ha.symm).elim⟩
    have hraw := raw_run b.reset (es ++ more) hstart
    rw [hrawPort, lsByte_capPort 16 _ hk]
    have hin : k < (rawBytes es).length := by omega
    have hbytes : ([] ++ rawBytes (es ++ more))[k]? = some ((rawBytes es)[k]) := by
      have hsplit : rawBytes (es ++ more) = rawBytes es ++ rawBytes more := List.flatMap_append
      rw [List.nil_append, hsplit, List.getElem?_append_left hin, List.getElem?_eq_getElem hin]
    rw [hraw.rawCap k hk _ hbytes, List.getElem?_eq_getElem hin]

end GigabitTcp
