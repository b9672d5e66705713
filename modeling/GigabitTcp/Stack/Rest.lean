/-
  GigabitTcp.Stack.Rest — the stack at rest.

  DHCP is over, no segment waits, and the periodic frame is not due yet: then a pass that
  completes no frame moves MAC RX and the pacing counter and nothing else, and a frame that was posted
  goes out byte by byte until the stack rests again.

  Main results:
    * `Rests.opened`            — a pass whose reception posts nothing,
    * `Rests.pass`, `Rests.run` — passes that complete no frame,
    * `Rests.frame_arrives`     — a frame for the board, its bytes at any pace,
    * `Posted.sent`             — a posted frame, up to the next rest.
-/
import GigabitTcp.Stack.Arrival
import GigabitTcp.Stack.UdpReply
import GigabitTcp.Tcp.Server

namespace GigabitTcp

open Hw Machine

/-! ## §1. Rest. -/

/-- Nothing is to be sent of its own accord within `n` passes: DHCP is over, no datagram waits
for its echo, TCP is quiet, and the periodic frame is more than `n` passes away. -/
structure Calm (pacing : U32) (n : Nat) (s : UdpEcho) : Prop where
  init : s.initDone = true
  dhcp : s.dhcp.state = .done ∨ s.dhcp.state = .failed
  noEcho : s.request.dataReceived = false
  quiet : s.tcp.Quiet
  untagged : s.shared.txReq.insertVlan = false
  early : s.udpTx.timeCnt.toNat + n < pacing.toNat

/-- The stack rests: it is calm, and MAC TX has nothing to send. -/
structure Rests (pacing : U32) (n : Nat) (s : UdpEcho) : Prop extends Calm pacing n s where
  idle : s.macTx.state = .idle
  free : s.shared.txReq.request = false

/-- The stack rests between two frames. -/
structure Ready (pacing : U32) (n : Nat) (s : UdpEcho) : Prop extends Rests pacing n s where
  macRx : s.macRx.state = .idle
  fifo : s.frameFifo = []

/-- A stack whose DHCP client has given up. -/
def restingStack : UdpEcho := { initDone := true, dhcp := { state := .failed } }

theorem restingStack_quiet : restingStack.tcp.Quiet := ⟨fun _ _ => nofun, rfl, rfl⟩

section Stages

variable {pacing : U32} {n : Nat} {s : UdpEcho} {i : PassIn}

theorem Calm.mono {m : Nat} (h : Calm pacing n s) (hm : m ≤ n) : Calm pacing m s := by
  have hearly := h.early
  exact { h with early := by omega }

theorem Calm.resetOrInit (h : Calm pacing n s) : s.resetOrInit true = s := by
  unfold UdpEcho.resetOrInit
  rcases h.dhcp with hd | hd <;> simp [h.init, hd]

/-- The stages before reception. -/
theorem Calm.afterMacTx (h : Calm pacing n s) (hreset : i.resetN = true) :
    s.afterMacTx i = { s with
      macRx := (macRxCycle s.macRx i.rx).1
      frameFifo := s.frameFifo ++ (macRxCycle s.macRx i.rx).2.frameWords
      macTx := (macTxCycle s.macTx (s.shared.txReq, s.shared.buffer)).1
      shared.txReq := (macTxCycle s.macTx (s.shared.txReq, s.shared.buffer)).2.txReq } := by
  unfold UdpEcho.afterMacTx UdpEcho.afterMacRx
  rw [hreset, h.resetOrInit]
  unfold UdpEcho.runMacRx UdpEcho.runMacTx
  rw [hreset]
  rfl

theorem Calm.frameIn (h : Calm pacing n s) (hreset : i.resetN = true) :
    s.frameIn i = (macRxCycle s.macRx i.rx).2.rx := by
  unfold UdpEcho.frameIn
  rw [hreset, h.resetOrInit]
  unfold UdpEcho.runMacRx
  rw [hreset]
  rfl

theorem Calm.txBuffer (h : Calm pacing n s) : s.txBuffer i = s.shared.buffer := by
  rw [txBuffer_eq, h.init, if_neg (by simp)]

/-- The client is not moved by what stands in front of it. -/
theorem Calm.afterDhcp (h : Calm pacing n s) (hreset : i.resetN = true) :
    s.afterDhcp i = s.afterReceive i := by
  have hclient : (s.afterReceive i).dhcp = s.dhcp := by
    rw [afterReceive_dhcp, h.afterMacTx hreset]
  unfold UdpEcho.afterDhcp UdpEcho.runDhcpTx
  rw [hreset, dhcpTx_over (by rw [hclient]; exact h.dhcp)]
  split <;> rfl

/-- **The closed gate**: the pass ends as reception leaves it, but for the statistics. -/
theorem Calm.closed (h : Calm pacing n s) (hreset : i.resetN = true)
    (hclosed : (!(s.afterReceive i).shared.txReq.request && !s.busyIn i) = false) :
    ∃ st rep last, (udpEcho pacing s i).1
      = { s.afterReceive i with stats := st, dhcpReported := rep, lastTx := last } := by
  have hdhcp := h.afterDhcp hreset
  have htcp : s.afterTcp pacing i = s.afterReceive i :=
    (after_closed pacing s i (by rw [hdhcp, hclosed])).2.trans hdhcp
  obtain ⟨st, rep, last, heq⟩ := udpEcho_eq pacing s i
  exact ⟨st, rep, last, by rw [heq, htcp]⟩

/-- The pacing counter ticks without reaching its end. -/
theorem tick_early (pacing : U32) {c : U32} (hearly : c.toNat + 1 < pacing.toNat) :
    ¬ pacing ≤ c + 1 ∧ (c + 1).toNat = c.toNat + 1 := by
  have hwrap : pacing.toNat < 2 ^ 32 := pacing.isLt
  have htick : (c + 1).toNat = c.toNat + 1 := by
    rw [BitVec.toNat_add]
    show (c.toNat + 1) % 2 ^ 32 = _
    rw [Nat.mod_eq_of_lt (by omega)]
  refine ⟨?_, htick⟩
  rw [BitVec.le_def, htick]
  omega

/-- While the periodic frame is not due, UDP TX does nothing else. -/
theorem udpTx_early {u : UdpTx} {rq : UdpRequest} (hnothing : rq.dataReceived = false)
    (hearly : u.timeCnt.toNat + 1 < pacing.toNat) (sh : Shared) :
    udpTxProcess pacing true rq u sh = ({ u with timeCnt := u.timeCnt + 1 }, sh) := by
  have harbitrate : udpTxArbitrate pacing u rq = (false, { u with timeCnt := u.timeCnt + 1 }) := by
    unfold udpTxArbitrate
    rw [hnothing, if_neg Bool.false_ne_true, if_neg (tick_early pacing hearly).1]
  unfold udpTxProcess
  rw [harbitrate]
  rfl

/-- An echo in front of the periodic frame. -/
theorem udpTx_early_echo (pacing : U32) {u : UdpTx} {rq : UdpRequest} (hdata : rq.dataReceived = true)
    (hearly : u.timeCnt.toNat + 1 < pacing.toNat) (sh : Shared) :
    let r := udpTxProcess pacing true rq u sh
    r.1.timeCnt = u.timeCnt + 1 ∧ r.2.arp = (arpLookup sh.arp rq.rxSrcIp).2
      ∧ r.2.txReq.insertVlan = sh.txReq.insertVlan := by
  have harbitrate : udpTxArbitrate pacing u rq
      = (true, { u with txDataLen := rq.rxUdpLen, txTotal := rq.rxIpLen, timeCnt := u.timeCnt + 1 }) := by
    unfold udpTxArbitrate
    rw [hdata, if_pos rfl, if_neg (tick_early pacing hearly).1]
  unfold udpTxProcess udpTxResolve
  simp only [Bool.not_true, Bool.false_eq_true, if_false, if_true, harbitrate, hdata]
  cases arpLookup sh.arp rq.rxSrcIp with
  | mk found arp =>
      cases found with
      | none => exact ⟨rfl, rfl, rfl⟩
      | some mac => exact ⟨rfl, rfl, rfl⟩

/-- A quiet TCP layer has nothing to repeat and nothing queued. -/
theorem TcpState.Quiet.maintenance {t : TcpState} (h : t.Quiet) (un : Uninit) (sh : Shared) :
    tcpMaintenance un t sh = (t, sh) := by
  refine tcpMaintenance_idle un h.noRetrans fun hgo => ?_
  rw [h.drained] at hgo
  exact BitVec.lt_irrefl _ hgo.1

theorem Calm.afterTcp (h : Calm pacing n s) (hreset : i.resetN = true)
    (hquiet : (s.afterReceive i).tcp.Quiet) : s.afterTcp pacing i = s.afterUdp pacing i := by
  obtain ⟨_, _, _, hudp⟩ := afterUdp_eq pacing s i
  have hsame : (s.afterUdp pacing i).tcp = (s.afterReceive i).tcp := by rw [hudp, h.afterDhcp hreset]
  unfold UdpEcho.afterTcp UdpEcho.runTcpMaintenance
  rw [TcpState.Quiet.maintenance (by rw [hsame]; exact hquiet)]
  split <;> rfl

/-! ## §2. A pass at rest. -/

/-- MAC TX in a pass at rest. -/
theorem Rests.macTx (h : Rests pacing n s) (hreset : i.resetN = true) :
    (macTxCycle s.macTx (s.shared.txReq, s.shared.buffer)).1.state = .idle
      ∧ (macTxCycle s.macTx (s.shared.txReq, s.shared.buffer)).2.txReq = s.shared.txReq
      ∧ s.busyIn i = false ∧ (udpEcho pacing s i).2.tx = none := by
  obtain ⟨hidle, hout⟩ := macTx_rests h.idle h.free s.shared.buffer
  obtain ⟨-, -, hbyte, hbusy⟩ := afterMacTx_cycle s i hreset
  rw [h.txBuffer, hout] at hbyte hbusy
  exact ⟨hidle, by rw [hout], hbusy, (udpEcho_tx pacing s i).trans hbyte⟩

/-- **The open gate.**  Reception has posted nothing and left nothing to send: the pacing counter
ticks. -/
theorem Rests.opened (h : Rests pacing (n + 1) s) (hreset : i.resetN = true)
    (hreq : (s.afterReceive i).shared.txReq = s.shared.txReq) (hquiet : (s.afterReceive i).tcp.Quiet)
    (hrq : (s.afterReceive i).request = s.request) :
    let t := (udpEcho pacing s i).1
    Rests pacing n t ∧ t.macRx = (s.afterMacTx i).macRx ∧ t.frameFifo = (s.afterReceive i).frameFifo
      ∧ t.shared = (s.afterReceive i).shared ∧ t.tcp = (s.afterReceive i).tcp
      ∧ t.udpTx = { s.udpTx with timeCnt := s.udpTx.timeCnt + 1 } := by
  obtain ⟨hidle, -, hbusy, -⟩ := h.macTx (i := i) hreset
  have hearly := h.early
  have hafter := h.afterMacTx hreset
  obtain ⟨fb, ff, sh, t', rq, hreceive⟩ := afterReceive_eq s i
  have hkept : s.afterTcp pacing i = s.afterUdp pacing i := h.afterTcp hreset hquiet
  rw [hreceive] at hreq hquiet hrq
  have hdhcp : s.afterDhcp i = s.afterReceive i := h.afterDhcp hreset
  have hopen : (!(s.afterDhcp i).shared.txReq.request && !s.busyIn i) = true := by
    rw [hdhcp, hreceive, hbusy]
    show (!sh.txReq.request && !false) = true
    rw [show sh.txReq = s.shared.txReq from hreq, h.free]
    rfl
  have hudp : s.afterUdp pacing i = { s.afterReceive i with
      udpTx := { (s.afterReceive i).udpTx with timeCnt := (s.afterReceive i).udpTx.timeCnt + 1 }
      request := { (s.afterReceive i).request with dataReceived := false } } := by
    have hnothing : (s.afterReceive i).request.dataReceived = false := by
      rw [hreceive]
      show rq.dataReceived = false
      rw [show rq = s.request from hrq]
      exact h.noEcho
    have hcount : (s.afterReceive i).udpTx.timeCnt.toNat + 1 < pacing.toNat := by
      rw [hreceive, hafter]
      show s.udpTx.timeCnt.toNat + 1 < pacing.toNat
      omega
    unfold UdpEcho.afterUdp UdpEcho.runUdpTx
    rw [if_pos hopen, hdhcp, hreset, udpTx_early hnothing hcount]
  obtain ⟨st, rep, last, hpass⟩ := udpEcho_eq pacing s i
  rw [hkept, hudp, hreceive, hafter] at hpass
  change rq = s.request at hrq
  change sh.txReq = s.shared.txReq at hreq
  intro t
  have ht : t = _ := hpass
  rw [ht, hreceive, hafter]
  refine ⟨⟨⟨h.init, h.dhcp, rfl, hquiet, ?_, ?_⟩, hidle, ?_⟩, rfl, rfl, rfl, rfl, rfl⟩
  · exact (congrArg MacTxReq.insertVlan hreq).trans h.untagged
  · show (s.udpTx.timeCnt + 1).toNat + n < pacing.toNat
    rw [(tick_early pacing (c := s.udpTx.timeCnt) (by omega)).2]
    omega
  · exact (congrArg MacTxReq.request hreq).trans h.free

/-- **A pass at rest** that completes no frame: MAC RX reads its byte. -/
theorem Rests.pass (h : Rests pacing (n + 1) s) (hreset : i.resetN = true)
    (hno : (macRxCycle s.macRx i.rx).2.rx.valid = false) :
    let t := (udpEcho pacing s i).1
    Rests pacing n t ∧ t.macRx = (macRxCycle s.macRx i.rx).1
      ∧ t.frameFifo = s.frameFifo ++ (macRxCycle s.macRx i.rx).2.frameWords
      ∧ t.shared = s.shared ∧ t.tcp = s.tcp
      ∧ t.udpTx = { s.udpTx with timeCnt := s.udpTx.timeCnt + 1 } := by
  obtain ⟨-, hreq, -, -⟩ := h.macTx (i := i) hreset
  have hafter := h.afterMacTx hreset
  rw [hreq] at hafter
  have hreceive : s.afterReceive i = s.afterMacTx i :=
    afterReceive_quiet (by rw [h.frameIn hreset, hno])
  have hopened := h.opened hreset (by rw [hreceive, hafter]) (by rw [hreceive, hafter]; exact h.quiet)
    (by rw [hreceive, hafter])
  rw [hreceive, hafter] at hopened
  exact hopened

end Stages

/-! ## §3. A frame arrives. -/

variable (pacing : U32)

/-- **Passes at rest** that complete no frame. -/
theorem Rests.run {n : Nat} : ∀ (is : List PassIn) {s : UdpEcho}, Rests pacing (is.length + n) s →
    (∀ i ∈ is, i.resetN = true) →
    (∀ o ∈ macRxCycle.outs s.macRx (is.map PassIn.rx), o.rx.valid = false) →
    let t := (udpEchoMachine pacing).after s is
    Rests pacing n t ∧ t.macRx = macRxCycle.after s.macRx (is.map PassIn.rx)
      ∧ t.frameFifo
        = s.frameFifo ++ (macRxCycle.outs s.macRx (is.map PassIn.rx)).flatMap MacRxOut.frameWords
      ∧ t.shared = s.shared ∧ t.tcp = s.tcp
      ∧ t.udpTx = { s.udpTx with timeCnt := s.udpTx.timeCnt + BitVec.ofNat 32 is.length }
      ∧ ((udpEchoMachine pacing).outs s is).map PassOut.tx = List.replicate is.length none
  | [], s, h, _, _ => by
      rw [List.length_nil, Nat.zero_add] at h
      exact ⟨h, rfl, (List.append_nil _).symm, rfl, rfl, by simp, rfl⟩
  | i :: is, s, h, hreset, hno => by
      rw [List.length_cons, Nat.add_right_comm] at h
      have hi := hreset i List.mem_cons_self
      obtain ⟨hnext, hrx, hfifo, hshared, htcp, hudp⟩ := h.pass hi (hno _ List.mem_cons_self)
      have hbyte := (h.macTx (i := i) hi).2.2.2
      obtain ⟨hend, hrx', hfifo', hshared', htcp', hudp', hout⟩ := Rests.run is hnext
        (fun j hj => hreset j (List.mem_cons_of_mem _ hj))
        (fun o ho => hno o (List.mem_cons_of_mem _ (by rwa [hrx] at ho)))
      intro t
      refine ⟨hend, ?_, ?_, hshared'.trans hshared, htcp'.trans htcp, ?_, ?_⟩
      · exact hrx'.trans (by rw [hrx]; rfl)
      · refine hfifo'.trans ?_
        rw [hrx, hfifo, List.map_cons, outs_cons, List.flatMap_cons, List.append_assoc]
      · refine hudp'.trans ?_
        rw [hudp, List.length_cons, Nat.add_comm, BitVec.ofNat_add, ← BitVec.add_assoc]
        rfl
      · rw [outs_cons, List.map_cons, List.length_cons, List.replicate_succ]
        exact congrArg₂ List.cons hbyte hout

/-- The bytes of `f` arrive in these passes, its last one in `last`; any pass before may find the
stream empty. -/
structure Arrival (f : TaggedFrame) (front : List PassIn) (last : PassIn) : Prop where
  reset : ∀ i ∈ front ++ [last], i.resetN = true
  bytes : ((front ++ [last]).map PassIn.rx).reduceOption = gmiiFrame f.bytes
  ends : last.rx.isSome = true

section Arrival

variable {pacing : U32} {n : Nat} {s : UdpEcho} {f : TaggedFrame} {front : List PassIn} {last : PassIn}

/-- Only the last byte is marked as such. -/
theorem Arrival.marks (h : Arrival f front last) :
    (∀ i ∈ front, i.rx.any GmiiByte.last = false) ∧ last.rx.any GmiiByte.last = true := by
  obtain ⟨b, hb⟩ := Option.isSome_iff_exists.mp h.ends
  obtain ⟨init, x, hends, -⟩ := f.gmiiFrame_ends
  have hframe := h.bytes
  rw [hends, List.map_append, List.reduceOption_append, List.map_singleton, hb] at hframe
  obtain ⟨hinit, hlast⟩ := List.append_inj' hframe rfl
  refine ⟨?_, ?_⟩
  · intro i hi
    cases hrx : i.rx with
    | none => rfl
    | some c =>
        have hmem : c ∈ (front.map PassIn.rx).reduceOption :=
          List.reduceOption_mem_iff.mpr (List.mem_map.mpr ⟨i, hi, hrx⟩)
        rw [hinit, List.mem_map] at hmem
        obtain ⟨y, -, rfl⟩ := hmem
        rfl
  · have hb' : [b] = [{ data := x, last := true }] := hlast
    rw [hb, List.singleton_inj.mp hb']
    rfl

/-- What MAC RX shows of a frame for the board. -/
theorem Arrival.delivered (h : Arrival f front last) (hacc : macAccepts f.dst) {m : MacRxFsm}
    (hm : m.state = .idle) :
    let t := macRxCycle.after m (front.map PassIn.rx)
    (macRxCycle t last.rx).1.state = .idle
      ∧ (macRxCycle.outs m (front.map PassIn.rx)).flatMap MacRxOut.frameWords
        ++ (macRxCycle t last.rx).2.frameWords = packWords f.payload
      ∧ (∀ o ∈ macRxCycle.outs m (front.map PassIn.rx), o.rx.valid = false)
      ∧ (macRxCycle t last.rx).2.rx = f.report := by
  intro t
  have hframe := macRx_frame hm f hacc
  obtain ⟨hplain, hlast⟩ := h.marks
  have hidle : (macRxCycle.after m ((front ++ [last]).map PassIn.rx)).state = .idle := by
    rw [after_reduceOption macRxCycle_none, after_map_some, h.bytes]
    exact hframe.idle
  have hwords : (macRxCycle.outs m ((front ++ [last]).map PassIn.rx)).flatMap MacRxOut.frameWords
      = packWords f.payload := by
    rw [outs_flatMap_reduceOption macRxCycle_none _ rfl, outs_map_some, h.bytes]
    exact hframe.words
  have hreport : List.Forall₂
      (fun i o => if i.any GmiiByte.last then o.rx = f.report else o.rx.valid = false)
      ((front ++ [last]).map PassIn.rx) (macRxCycle.outs m ((front ++ [last]).map PassIn.rx)) := by
    refine forall₂_outs_reduceOption macRxCycle_none (by simp) m _ ?_
    rw [h.bytes]
    exact hframe.report.imp (fun b o hbo => by simpa [ReportsAtEnd] using hbo)
  rw [List.map_append, List.map_singleton, after_append] at hidle
  rw [List.map_append, List.map_singleton, outs_append, List.flatMap_append] at hwords
  rw [List.map_append, List.map_singleton, outs_append] at hreport
  refine ⟨hidle, ?_, ?_, ?_⟩
  · rw [← hwords, outs_cons, outs_nil, List.flatMap_singleton]
  · have hfront := List.forall₂_take_append _ _ _ hreport
    rw [length_outs, List.take_left] at hfront
    have hno : List.Forall₂ (fun _ o => o.rx.valid = false) (front.map PassIn.rx)
        (macRxCycle.outs m (front.map PassIn.rx)) := by
      rw [List.forall₂_map_left_iff] at hfront ⊢
      refine List.forall₂_iff_get.mpr ⟨hfront.length_eq, ?_⟩
      intro k hk hk'
      have hk'' := hfront.get hk hk'
      rw [List.get_eq_getElem] at hk''
      rwa [hplain _ (List.getElem_mem _), if_neg Bool.false_ne_true] at hk''
    exact Runs.outs_all (P := fun o : MacRxOut => o.rx.valid = false) ⟨rfl, hno⟩
  · have hend := List.forall₂_drop_append _ _ _ hreport
    rw [length_outs, List.drop_left, outs_cons, outs_nil] at hend
    cases hend with
    | cons hrep _ => rwa [if_pos hlast] at hrep

/-- **A frame for the board arrives at rest.**  Up to its last byte the stack rests; in the
pass of the last byte the frame is reported and staged whole. -/
theorem Rests.frame_arrives (h : Rests pacing (front.length + 1 + n) s) (hrx : s.macRx.state = .idle)
    (hfifo : s.frameFifo = []) (ha : Arrival f front last) (hacc : macAccepts f.dst)
    (hfits : f.payload.length ≤ 1600) :
    let t := (udpEchoMachine pacing).after s front
    Rests pacing (n + 1) t ∧ t.shared = s.shared ∧ t.tcp = s.tcp
      ∧ ((udpEchoMachine pacing).outs s front).map PassOut.tx = List.replicate front.length none
      ∧ t.frameIn last = f.report ∧ (t.afterMacTx last).macRx.state = .idle
      ∧ (t.staged last).frameFifo = []
      ∧ ∀ j, j < f.payload.length → (t.staged last).frameBuf.byteAt 0 j = f.payload.getD j 0 := by
  obtain ⟨hidle, hwords, hno, hreport⟩ := ha.delivered hacc hrx
  have hfront : ∀ i ∈ front, i.resetN = true := fun i hi => ha.reset i (List.mem_append_left _ hi)
  have hlast : last.resetN = true := ha.reset last (by simp)
  rw [Nat.add_assoc, Nat.add_comm 1] at h
  obtain ⟨hrest, hmac, hqueue, hshared, htcp, -, hout⟩ := Rests.run pacing front h hfront hno
  generalize (udpEchoMachine pacing).after s front = t at *
  have hafter := hrest.afterMacTx hlast
  have hin : t.frameIn last = f.report := by rw [hrest.frameIn hlast, hmac, hreport]
  have hfull : (t.afterMacTx last).frameFifo = packWords f.payload ++ [] := by
    rw [hafter]
    show t.frameFifo ++ _ = _
    rw [hqueue, hfifo, List.nil_append, hmac, hwords, List.append_nil]
  have hcount : (t.frameIn last).nwords.toNat = (packWords f.payload).length := by
    rw [hin, length_packWords]
    show (BitVec.ofNat 10 ((f.payload.length + 3) / 4)).toNat = _
    rw [BitVec.toNat_ofNat]
    omega
  refine ⟨hrest, hshared, htcp, hout, hin, ?_, ?_, ?_⟩
  · rw [hafter]
    show (macRxCycle t.macRx last.rx).1.state = .idle
    rw [hmac]
    exact hidle
  · unfold UdpEcho.staged UdpEcho.stage
    dsimp only
    rw [hfull, hcount, List.append_nil, List.drop_length]
  · intro j hj
    exact stage_byteAt hfull hcount hj (by omega)

end Arrival

/-! ## §4. A posted frame goes out. -/

theorem length_ethernetFrame (dst src : U48) (ethertype : U16) (payload : List U8) :
    (ethernetFrame dst src [] ethertype payload).length = 26 + max 46 payload.length := by
  simp only [ethernetFrame, headerBytes, preamble, List.length_append, length_wordBytes,
    List.length_replicate, List.flatMap_nil, List.length_nil, length_leBytes]
  show _ = _
  simp
  omega

/-- The stack is calm and has just posted the frame that MAC TX finds in `m` for `req`. -/
structure Posted (pacing : U32) (n : Nat) (s : UdpEcho) : Prop extends Calm pacing n s where
  idle : s.macTx.state = .idle
  pending : s.shared.txReq.request = true
  macRx : s.macRx.state = .idle
  fifo : s.frameFifo = []

/-- Byte `j` of the frame that the shared part `sh` describes is the next one. -/
structure Sends (sh : Shared) (tcp : TcpState) (udpTx : UdpTx) (n j : Nat) (s : UdpEcho) : Prop
    extends Calm pacing n s where
  macTx : s.macTx = txAt sh.txReq sh.buffer j
  shared : s.shared = { sh with txReq.request := false }
  tcpKept : s.tcp = tcp
  udpKept : s.udpTx = udpTx
  macRx : s.macRx.state = .idle
  fifo : s.frameFifo = []

section Sends

variable {pacing : U32} {n j : Nat} {s : UdpEcho} {i : PassIn} {sh : Shared} {tcp : TcpState} {udpTx : UdpTx}

/-- A busy pass that reads nothing is a cycle of MAC TX. -/
theorem Calm.busy_silent (h : Calm pacing n s) (hreset : i.resetN = true) (hrx : i.rx = none)
    (hbusy : s.busyIn i = true) : ∃ st rep last, (udpEcho pacing s i).1 = { s with
      macTx := (macTxCycle s.macTx (s.shared.txReq, s.shared.buffer)).1
      shared.txReq := (macTxCycle s.macTx (s.shared.txReq, s.shared.buffer)).2.txReq
      stats := st, dhcpReported := rep, lastTx := last } := by
  have hclosed : (!(s.afterReceive i).shared.txReq.request && !s.busyIn i) = false := by
    rw [hbusy, Bool.not_true, Bool.and_false]
  obtain ⟨st, rep, last, hpass⟩ := h.closed hreset hclosed
  refine ⟨st, rep, last, ?_⟩
  rw [hpass, afterReceive_quiet (frameIn_of_rx_none s hrx), h.afterMacTx hreset, hrx, macRxCycle_none]
  dsimp only
  rw [List.append_nil]

/-- **The latch.** -/
theorem Posted.latch (h : Posted pacing n s) (hreset : i.resetN = true) (hrx : i.rx = none) :
    Sends pacing s.shared s.tcp s.udpTx n 0 (udpEcho pacing s i).1 ∧ (udpEcho pacing s i).2.tx = none := by
  obtain ⟨-, -, hbyte, hbusy⟩ := afterMacTx_cycle s i hreset
  rw [macTx_latch h.idle h.pending] at hbyte hbusy
  obtain ⟨st, rep, last, hpass⟩ := h.busy_silent hreset hrx hbusy
  rw [macTx_latch h.idle h.pending] at hpass
  refine ⟨?_, (udpEcho_tx pacing s i).trans hbyte⟩
  rw [hpass]
  exact ⟨⟨h.init, h.dhcp, h.noEcho, h.quiet, h.untagged, h.early⟩, (txAt_zero _ _).symm,
    rfl, rfl, rfl, h.macRx, h.fifo⟩

/-- **One byte.** -/
theorem Sends.pass (h : Sends pacing sh tcp udpTx n j s) (hj : j < (txWire sh.txReq sh.buffer).length)
    (hreset : i.resetN = true) (hrx : i.rx = none) :
    Sends pacing sh tcp udpTx n (j + 1) (udpEcho pacing s i).1
      ∧ (udpEcho pacing s i).2.tx = (gmiiFrame (txWire sh.txReq sh.buffer))[j]? := by
  obtain ⟨hnext, hout⟩ := macTx_txAt sh.txReq sh.buffer hj (s.shared.txReq, s.shared.buffer)
    (fun a _ => by rw [h.shared])
  have hsending : s.macTx.state ≠ .idle := by
    intro hidle
    have hrests := macTxCycle_idle_byte hidle (s.shared.txReq, s.shared.buffer)
    rw [h.macTx, hout, List.getElem?_eq_getElem (by rwa [length_gmiiFrame])] at hrests
    cases hrests
  obtain ⟨-, -, hbyte, hbusy⟩ := afterMacTx_cycle s i hreset
  rw [(macTxCycle_sending hsending _).2] at hbusy
  rw [h.txBuffer, h.macTx] at hbyte
  obtain ⟨st, rep, last, hpass⟩ := h.busy_silent hreset hrx hbusy
  rw [(macTxCycle_sending hsending _).1, h.macTx, hnext] at hpass
  refine ⟨?_, (udpEcho_tx pacing s i).trans (hbyte.trans hout)⟩
  rw [hpass]
  exact ⟨⟨h.init, h.dhcp, h.noEcho, h.quiet, h.untagged, h.early⟩, rfl, h.shared,
    h.tcpKept, h.udpKept, h.macRx, h.fifo⟩

/-- MAC RX without input. -/
theorem macRx_silent : ∀ (is : List PassIn), (∀ i ∈ is, i.rx = none) → ∀ m : MacRxFsm,
    macRxCycle.after m (is.map PassIn.rx) = m
      ∧ macRxCycle.outs m (is.map PassIn.rx) = List.replicate is.length {}
  | [], _, _ => ⟨rfl, rfl⟩
  | i :: is, h, m => by
      obtain ⟨hafter, houts⟩ := macRx_silent is (fun j hj => h j (List.mem_cons_of_mem _ hj)) m
      rw [List.map_cons, h i List.mem_cons_self, after_cons, outs_cons, macRxCycle_none]
      exact ⟨hafter, congrArg (_ :: ·) houts⟩

/-- **A calm stack that has been silent** still rests. -/
theorem Rests.silent (wait : List PassIn) (h : Rests pacing (wait.length + n) s)
    (hwait : ∀ i ∈ wait, i.resetN = true ∧ i.rx = none) :
    let t := (udpEchoMachine pacing).after s wait
    Rests pacing n t ∧ t.macRx = s.macRx ∧ t.frameFifo = s.frameFifo ∧ t.shared = s.shared
      ∧ t.tcp = s.tcp
      ∧ t.udpTx = { s.udpTx with timeCnt := s.udpTx.timeCnt + BitVec.ofNat 32 wait.length }
      ∧ ((udpEchoMachine pacing).outs s wait).map PassOut.tx = List.replicate wait.length none := by
  obtain ⟨hafter, houts⟩ := macRx_silent wait (fun i hi => (hwait i hi).2) s.macRx
  have hno : ∀ o ∈ macRxCycle.outs s.macRx (wait.map PassIn.rx), o.rx.valid = false := by
    intro o ho
    rw [houts] at ho
    rw [List.eq_of_mem_replicate ho]
  have hwords : (macRxCycle.outs s.macRx (wait.map PassIn.rx)).flatMap MacRxOut.frameWords = [] := by
    rw [houts, List.flatMap_eq_nil_iff]
    intro o ho
    rw [List.eq_of_mem_replicate ho]
  obtain ⟨hrest, hmac, hfifo, hshared, htcp, hudp, hout⟩ :=
    Rests.run pacing wait h (fun i hi => (hwait i hi).1) hno
  exact ⟨hrest, hmac.trans hafter, hfifo.trans (by rw [hwords, List.append_nil]), hshared, htcp, hudp, hout⟩

/-- **A posted frame goes out**: the latch, then one byte a pass, and the stack rests. -/
theorem Posted.emitted (is : List PassIn) (h : Posted pacing n s)
    (his : ∀ i ∈ is, i.resetN = true ∧ i.rx = none) :
    let wire := txWire s.shared.txReq s.shared.buffer
    is.length = 1 + wire.length →
      let t := (udpEchoMachine pacing).after s is
      Rests pacing n t ∧ t.macRx.state = .idle ∧ t.frameFifo = []
        ∧ t.shared = { s.shared with txReq.request := false } ∧ t.tcp = s.tcp ∧ t.udpTx = s.udpTx
        ∧ ((udpEchoMachine pacing).outs s is).map PassOut.tx = none :: (gmiiFrame wire).map some := by
  intro wire hlen
  cases is with
  | nil =>
      rw [List.length_nil] at hlen
      omega
  | cons i is =>
      obtain ⟨hreset, hrx⟩ := his i List.mem_cons_self
      obtain ⟨hlatched, hquiet⟩ := h.latch hreset hrx
      rw [List.length_cons] at hlen
      obtain ⟨hend, hbytes⟩ := counted_outs (M := udpEchoMachine pacing) PassOut.tx
        (Sends pacing s.shared s.tcp s.udpTx n) (fun j => j.resetN = true ∧ j.rx = none)
        (fun k u j hk hu hj => hu.pass hk hj.1 hj.2) is 0 _ hlatched
        (by show 0 + is.length = wire.length; omega)
        (fun j hj => his j (List.mem_cons_of_mem _ hj))
      have hidle : ((udpEchoMachine pacing).after (udpEcho pacing s i).1 is).macTx.state = .idle := by
        rw [hend.macTx]
        exact txAt_end _ _
      intro t
      refine ⟨⟨hend.toCalm, hidle, ?_⟩, hend.macRx, hend.fifo, hend.shared, hend.tcpKept, hend.udpKept, ?_⟩
      · exact congrArg (fun sh : Shared => sh.txReq.request) hend.shared
      · rw [outs_cons, List.map_cons]
        refine congrArg₂ List.cons hquiet (hbytes.trans ?_)
        rw [show is.length = (gmiiFrame wire).length by rw [length_gmiiFrame]; omega]
        apply List.ext_getElem (by simp)
        intro k hk _
        have hk' : k < (gmiiFrame wire).length := by simpa using hk
        simp [wire, hk']

/-- **A posted frame goes out** while the stack waits. -/
theorem Posted.sent (wait : List PassIn) (h : Posted pacing (wait.length + n) s)
    (hwait : ∀ i ∈ wait, i.resetN = true ∧ i.rx = none)
    (hlen : 1 + (txWire s.shared.txReq s.shared.buffer).length ≤ wait.length) :
    let wire := txWire s.shared.txReq s.shared.buffer
    let t := (udpEchoMachine pacing).after s wait
    Rests pacing n t ∧ t.macRx.state = .idle ∧ t.frameFifo = []
      ∧ t.shared = { s.shared with txReq.request := false } ∧ t.tcp = s.tcp
      ∧ (((udpEchoMachine pacing).outs s wait).map PassOut.tx).reduceOption = gmiiFrame wire := by
  intro wire t
  -- the bytes of the frame, and the passes behind them
  obtain ⟨front, back, rfl, hfront⟩ : ∃ front back, wait = front ++ back ∧ front.length = 1 + wire.length :=
    ⟨wait.take (1 + wire.length), wait.drop (1 + wire.length), (List.take_append_drop _ _).symm,
      List.length_take_of_le hlen⟩
  have hmem : ∀ j ∈ front, j.resetN = true ∧ j.rx = none := fun j hj => hwait j (List.mem_append_left _ hj)
  obtain ⟨hrest, hmac, hfifo, hshared, htcp, -, hout⟩ := h.emitted front hmem hfront
  have hrest' : Rests pacing (back.length + n) ((udpEchoMachine pacing).after s front) := by
    refine ⟨hrest.toCalm.mono ?_, hrest.idle, hrest.free⟩
    rw [List.length_append]
    omega
  obtain ⟨hlast, hmac', hfifo', hshared', htcp', -, hout'⟩ := hrest'.silent back
    (fun j hj => hwait j (List.mem_append_right _ hj))
  have ht : t = (udpEchoMachine pacing).after ((udpEchoMachine pacing).after s front) back :=
    after_append ..
  rw [ht]
  refine ⟨hlast, ?_, hfifo'.trans hfifo, hshared'.trans hshared, htcp'.trans htcp, ?_⟩
  · rw [hmac']
    exact hmac
  · have hnone : (List.replicate back.length (none : Option GmiiByte)).reduceOption = [] :=
      List.reduceOption_replicate_none
    rw [outs_append, List.map_append, hout, hout', List.reduceOption_append, hnone, List.append_nil,
      List.reduceOption_cons_of_none]
    show ((gmiiFrame wire).map some).filterMap id = _
    rw [List.filterMap_map]
    exact List.filterMap_some

end Sends

end GigabitTcp
