/-
  GigabitTcp.Stack.Arrival — a frame arrives while MAC TX is busy.

  While MAC TX is busy neither UDP TX nor TCP maintenance runs.  Until DHCP starts, the
  passes that read the bytes of a frame then change MAC RX, MAC TX and the FIFO, and nothing
  else before the frame is complete.

  Main results:
    * `busy_pass`     — one pass,
    * `reads_bytes`   — the passes that read a frame up to its last byte,
    * `frame_arrives` — the pass of the last byte.
-/
import GigabitTcp.Mac.RxIsolation
import GigabitTcp.Mac.TxProgress
import GigabitTcp.Stack.Reception
import GigabitTcp.Stack.Staging

namespace GigabitTcp

open Hw Machine

/-! ## §1. DHCP has not started. -/

/-- The stack is initialised and DHCP does not start within `n` passes. -/
structure DhcpWaits (n : Nat) (s : UdpEcho) : Prop where
  init : s.initDone = true
  idle : s.dhcp.state = .idle
  start : s.dhcp.start = false
  delay : s.dhcpDelay.toNat + n ≤ 100000000

theorem DhcpWaits.resetOrInit {n : Nat} {s : UdpEcho} (h : DhcpWaits (n + 1) s) :
    s.resetOrInit true = { s with dhcpDelay := s.dhcpDelay + 1 } := by
  have hdelay := h.delay
  have hshort : ¬ 100000000 < s.dhcpDelay + 1 := by
    rw [BitVec.lt_def, BitVec.toNat_add]
    simp
    omega
  unfold UdpEcho.resetOrInit
  simp only [Bool.not_true, Bool.false_eq_true, if_false, h.init, h.start, h.idle, Bool.not_false,
    decide_true, Bool.and_self, if_true]
  exact if_neg hshort

/-- An idle client that is not to start sends nothing. -/
theorem dhcpTx_idle {d : DhcpClient} (hidle : d.state = .idle) (hstart : d.start = false)
    (sh : Shared) : dhcpTxProcess true d sh = (d, sh) := by
  have htick : dhcpTick d = d := by
    simp [dhcpTick, hidle, hstart]
  unfold dhcpTxProcess
  simp [htick, hidle]

/-! ## §2. A busy pass. -/

/-- The passes until MAC TX has sent the frame in flight, or else the one that waits. -/
def UdpEcho.txLeft (s : UdpEcho) : Nat :=
  if s.macTx.state = .idle then
    if s.shared.txReq.request then macTxLeft (txLatch s.shared.txReq) + 1 else 0
  else macTxLeft s.macTx

variable (pacing : U32) {s : UdpEcho} {i : PassIn}

theorem txLeft_sending (h : s.macTx.state ≠ .idle) : s.txLeft = macTxLeft s.macTx := by
  unfold UdpEcho.txLeft
  rw [if_neg h]

theorem macTxLeft_pass (hreset : i.resetN = true) (h : s.macTx.state ≠ .idle) :
    macTxLeft (udpEcho pacing s i).1.macTx + 1 = macTxLeft s.macTx := by
  rw [udpEcho_macTx_cycle pacing s i hreset]
  exact macTxLeft_cycle h _

/-- A pass that has something left to send is busy. -/
theorem busyIn_of_txLeft (hreset : i.resetN = true) (h : 0 < s.txLeft) : s.busyIn i = true := by
  rw [(afterMacTx_cycle s i hreset).2.2.2]
  by_cases hidle : s.macTx.state = .idle
  · unfold UdpEcho.txLeft at h
    rw [if_pos hidle] at h
    have hreq : s.shared.txReq.request = true := by
      by_contra hno
      rw [if_neg hno] at h
      exact absurd h (Nat.lt_irrefl 0)
    rw [macTx_latch hidle hreq]
  · exact (macTxCycle_sending hidle _).2

/-- And it sends at most one byte of it. -/
theorem txLeft_pass (hreset : i.resetN = true) :
    s.txLeft ≤ (udpEcho pacing s i).1.txLeft + 1 := by
  have hmac := udpEcho_macTx_cycle pacing s i hreset
  by_cases hidle : s.macTx.state = .idle
  · by_cases hreq : s.shared.txReq.request = true
    · rw [macTx_latch hidle hreq] at hmac
      have hsending : (udpEcho pacing s i).1.macTx.state ≠ .idle := by
        rw [hmac]
        simp [txLatch]
      rw [txLeft_sending hsending, hmac]
      unfold UdpEcho.txLeft
      rw [if_pos hidle, if_pos hreq]
    · unfold UdpEcho.txLeft
      rw [if_pos hidle, if_neg hreq]
      exact Nat.zero_le _
  · have hleft := macTxLeft_pass pacing hreset hidle
    rw [txLeft_sending hidle, ← hleft]
    by_cases hend : (udpEcho pacing s i).1.macTx.state = .idle
    · have hzero := macTxLeft_idle hend
      omega
    · rw [txLeft_sending hend]

/-- **A busy pass** ends as reception leaves it, but for the statistics. -/
theorem busy_pass {n : Nat} (hw : DhcpWaits (n + 1) s) (hreset : i.resetN = true)
    (hbusy : 0 < s.txLeft) : ∃ st rep last, (udpEcho pacing s i).1
      = { s.afterReceive i with stats := st, dhcpReported := rep, lastTx := last } := by
  -- every sender behind reception asks for an idle transmitter
  have hclosed : (!(s.afterReceive i).shared.txReq.request && !s.busyIn i) = false := by
    rw [busyIn_of_txLeft hreset hbusy]
    simp
  have hdhcp : s.afterDhcp i = s.afterReceive i := by
    -- the client waits, and none of the stages before moves it
    have hclient : (s.afterReceive i).dhcp = s.dhcp := by
      rw [afterReceive_dhcp]
      unfold UdpEcho.afterMacTx UdpEcho.afterMacRx
      rw [hreset, hw.resetOrInit]
      rfl
    unfold UdpEcho.afterDhcp UdpEcho.runDhcpTx
    rw [hreset, dhcpTx_idle (by rw [hclient]; exact hw.idle) (by rw [hclient]; exact hw.start)]
    split <;> rfl
  have htcp : s.afterTcp pacing i = s.afterReceive i :=
    (after_closed pacing s i (by rw [hdhcp, hclosed])).2.trans hdhcp
  obtain ⟨st, rep, last, h⟩ := udpEcho_eq pacing s i
  exact ⟨st, rep, last, by rw [h, htcp]⟩

/-! ## §3. Reading a frame. -/

/-- A pass that reads the byte `b`. -/
def readPass (b : GmiiByte) : PassIn := { PassIn.quiet with rx := some b }

theorem frameIn_quiet (s : UdpEcho) : (s.frameIn .quiet).valid = false := by
  obtain ⟨m, d, delay, hinit⟩ := resetOrInit_eq s true rfl
  unfold UdpEcho.frameIn
  rw [show PassIn.quiet.resetN = true from rfl, hinit]
  rfl

theorem frameIn_readPass {n : Nat} (hw : DhcpWaits (n + 1) s) (b : GmiiByte) :
    s.frameIn (readPass b) = (macRxByte s.macRx b).2.rx := by
  unfold UdpEcho.frameIn
  rw [show (readPass b).resetN = true from rfl, hw.resetOrInit]
  rfl

/-- The stages before reception. -/
theorem afterMacTx_readPass {n : Nat} (hw : DhcpWaits (n + 1) s) (b : GmiiByte) :
    s.afterMacTx (readPass b) = { s with
      macRx := (macRxByte s.macRx b).1
      frameFifo := s.frameFifo ++ (macRxByte s.macRx b).2.frameWords
      macTx := (macTxCycle s.macTx (s.shared.txReq, s.shared.buffer)).1
      shared.txReq := (macTxCycle s.macTx (s.shared.txReq, s.shared.buffer)).2.txReq
      dhcpDelay := s.dhcpDelay + 1 } := by
  unfold UdpEcho.afterMacTx UdpEcho.afterMacRx
  rw [show (readPass b).resetN = true from rfl, hw.resetOrInit]
  rfl

theorem DhcpWaits.pass {n : Nat} (hw : DhcpWaits (n + 1) s) (hbusy : 0 < s.txLeft) (b : GmiiByte) :
    DhcpWaits n (udpEcho pacing s (readPass b)).1 := by
  obtain ⟨st, rep, last, h⟩ := busy_pass pacing (i := readPass b) hw rfl hbusy
  obtain ⟨fb, ff, sh, t, rq, hreceive⟩ := afterReceive_eq s (readPass b)
  rw [h, hreceive, afterMacTx_readPass hw b]
  have hdelay := hw.delay
  refine ⟨hw.init, hw.idle, hw.start, ?_⟩
  show (s.dhcpDelay + 1).toNat + n ≤ 100000000
  rw [BitVec.toNat_add]
  simp
  omega

/-- MAC TX over some passes that leave the buffer `m` alone, the first of which finds `req` in
the mailbox. -/
def TxRuns (s : MacTxFsm) (req : MacTxReq) (m : Mem U32) (n : Nat) (t : MacTxFsm) : Prop :=
  ∃ is : List (MacTxReq × Mem U32), is.length = n ∧ (∀ i ∈ is, i.2 = m)
    ∧ (∀ i ∈ is.head?, i.1 = req) ∧ macTxCycle.after s is = t

/-- From the latch on, the frame is sent. -/
theorem TxRuns.latched {s t : MacTxFsm} {req : MacTxReq} {m : Mem U32} {n : Nat}
    (h : TxRuns s req m (n + 1) t) (hs : s.state = .idle) (hreq : req.request = true)
    (hn : n ≤ (txWire req m).length) : t = txAt req m n := by
  obtain ⟨is, hlen, hm, hhead, rfl⟩ := h
  cases is with
  | nil => cases hlen
  | cons i is =>
      have hfirst : i = (req, m) :=
        Prod.ext (hhead i rfl) (hm i List.mem_cons_self)
      rw [List.length_cons, Nat.add_right_cancel_iff] at hlen
      rw [after_cons, hfirst, macTx_latch hs hreq, ← txAt_zero req m,
        macTx_after_txAt req m is 0 (by omega) (fun i hi => hm i (List.mem_cons_of_mem _ hi)),
        hlen, Nat.zero_add]

/-- **A byte that completes no frame** goes to MAC RX, and perhaps a word to the FIFO. -/
theorem reads_byte {n : Nat} (hw : DhcpWaits (n + 1) s) (hbusy : 0 < s.txLeft) {b : GmiiByte}
    (hquiet : (macRxByte s.macRx b).2.rx.valid = false) : ∃ st rep last,
    (udpEcho pacing s (readPass b)).1 = { s.afterMacTx (readPass b) with
      stats := st, dhcpReported := rep, lastTx := last } := by
  obtain ⟨st, rep, last, h⟩ := busy_pass pacing (i := readPass b) hw rfl hbusy
  refine ⟨st, rep, last, ?_⟩
  rw [h, afterReceive_quiet (by rw [frameIn_readPass hw b, hquiet])]

/-- **The passes up to the last byte of a frame.** -/
theorem reads_bytes {k : Nat} : ∀ (bs : List GmiiByte) {s : UdpEcho}, DhcpWaits (bs.length + k) s →
    bs.length ≤ s.txLeft → (∀ o ∈ macRxByte.outs s.macRx bs, o.rx.valid = false) →
    let t := (udpEchoMachine pacing).after s (bs.map readPass)
    DhcpWaits k t ∧ s.txLeft ≤ t.txLeft + bs.length
      ∧ t.macRx = macRxByte.after s.macRx bs
      ∧ t.frameFifo = s.frameFifo ++ (macRxByte.outs s.macRx bs).flatMap MacRxOut.frameWords
      ∧ t.frameBuf = s.frameBuf ∧ t.shared.buffer = s.shared.buffer
      ∧ TxRuns s.macTx s.shared.txReq s.shared.buffer bs.length t.macTx
      ∧ (s.macTx.state ≠ .idle → t.shared.txReq = s.shared.txReq
        ∧ macTxLeft t.macTx + bs.length = macTxLeft s.macTx)
  | [], s, hw, _, _ => by
      refine ⟨?_, Nat.le_refl _, rfl, ?_, rfl, rfl, ⟨[], rfl, by simp, by simp, rfl⟩, fun _ => ⟨rfl, rfl⟩⟩
      · have hk : DhcpWaits (0 + k) s := hw
        rwa [Nat.zero_add] at hk
      · exact (List.append_nil _).symm
  | b :: bs, s, hw, hbusy, hquiet => by
      rw [List.length_cons] at hbusy
      have hw' : DhcpWaits (bs.length + k + 1) s := by
        rwa [List.length_cons, Nat.add_right_comm] at hw
      have hnow : 0 < s.txLeft := by omega
      have hnext := hw'.pass pacing hnow b
      have hleft := txLeft_pass pacing (s := s) (i := readPass b) rfl
      obtain ⟨st, rep, last, hpass⟩ := reads_byte pacing hw' hnow
        (hquiet _ List.mem_cons_self)
      rw [afterMacTx_readPass hw' b] at hpass
      have hrx : (udpEcho pacing s (readPass b)).1.macRx = (macRxByte s.macRx b).1 := by rw [hpass]
      have ih := reads_bytes (k := k) bs hnext (by omega)
        (fun o ho => hquiet o (List.mem_cons_of_mem _ (by rwa [hrx] at ho)))
      intro t
      obtain ⟨hwaits, hcount, hmac, hfifo, hbuf, hmem, htx, hreq⟩ := ih
      refine ⟨hwaits, ?_, ?_, ?_, ?_, ?_, ?_, ?_⟩
      · rw [List.length_cons]
        show s.txLeft ≤ ((udpEchoMachine pacing).after (udpEcho pacing s (readPass b)).1
          (bs.map readPass)).txLeft + _
        omega
      · exact hmac.trans (by rw [hrx]; rfl)
      · refine hfifo.trans ?_
        rw [hrx, outs_cons, List.flatMap_cons, ← List.append_assoc, hpass]
      · exact hbuf.trans (by rw [hpass])
      · exact hmem.trans (by rw [hpass])
      -- MAC TX sees the same buffer in this cycle as in the later ones
      · obtain ⟨is, hlen, hm, -, hafter⟩ := htx
        refine ⟨(s.shared.txReq, s.shared.buffer) :: is, by rw [List.length_cons, List.length_cons, hlen],
          ?_, by simp, ?_⟩
        · rw [hpass] at hm
          simpa using fun a b hab => hm (a, b) hab
        · rw [after_cons]
          refine Eq.trans ?_ hafter
          rw [hpass]
      · intro hsending
        have hkept : (udpEcho pacing s (readPass b)).1.shared.txReq = s.shared.txReq := by
          rw [hpass]
          exact (macTxCycle_sending hsending _).1
        have hcloser := macTxLeft_pass pacing (i := readPass b) rfl hsending
        rw [List.length_cons]
        by_cases hend : (udpEcho pacing s (readPass b)).1.macTx.state = .idle
        · -- the last byte of the frame in flight: nothing is left to read
          have hzero := macTxLeft_idle hend
          rw [txLeft_sending hsending] at hbusy
          have hnil : bs = [] := List.length_eq_zero_iff.mp (by omega)
          subst hnil
          exact ⟨hkept, hcloser⟩
        · obtain ⟨hsame, hcount⟩ := hreq hend
          refine ⟨hsame.trans hkept, ?_⟩
          show macTxLeft ((udpEchoMachine pacing).after (udpEcho pacing s (readPass b)).1
            (bs.map readPass)).macTx + _ = _
          omega

/-- **A frame for the board arrives**: up to its last byte nothing but MAC RX, MAC TX and the
FIFO has moved; in the pass of the last byte the frame is reported, with its words in the FIFO. -/
theorem frame_arrives (f : TaggedFrame) (hacc : macAccepts f.dst) {k : Nat}
    (hw : DhcpWaits (f.bytes.length + k) s) (hbusy : f.bytes.length ≤ s.txLeft)
    (hrx : s.macRx.state = .idle) :
    ∃ bs b, gmiiFrame f.bytes = bs ++ [b] ∧ bs.length + 1 = f.bytes.length
      ∧ let t := (udpEchoMachine pacing).after s (bs.map readPass)
        DhcpWaits (k + 1) t ∧ s.txLeft ≤ t.txLeft + bs.length ∧ t.frameBuf = s.frameBuf
        ∧ t.shared.buffer = s.shared.buffer
        ∧ TxRuns s.macTx s.shared.txReq s.shared.buffer bs.length t.macTx
        ∧ (s.macTx.state ≠ .idle → t.shared.txReq = s.shared.txReq
          ∧ macTxLeft t.macTx + bs.length = macTxLeft s.macTx)
        ∧ t.frameIn (readPass b) = f.report
        ∧ (t.afterMacTx (readPass b)).frameFifo = s.frameFifo ++ packWords f.payload
        ∧ (t.afterMacTx (readPass b)).macRx.state = .idle := by
  obtain ⟨init, x, hframe, hcount⟩ := f.gmiiFrame_ends
  have hlen : (init.map plainByte).length + 1 = f.bytes.length := by
    rw [List.length_map]
    exact hcount
  have hrun := macRx_frame hrx f hacc
  rw [hframe] at hrun
  have hwords := hrun.words
  have hreport := hrun.report
  have hidle := hrun.idle
  rw [outs_append] at hwords hreport
  rw [after_append] at hidle
  rw [List.flatMap_append] at hwords
  -- the report belongs to the last byte alone
  have hquiet : ∀ o ∈ macRxByte.outs s.macRx (init.map plainByte), o.rx.valid = false := by
    have hlead := List.forall₂_take_append _ _ _ hreport
    rw [length_outs, List.take_left] at hlead
    have hplain : List.Forall₂ (fun _ o => o.rx.valid = false) (init.map plainByte)
        (macRxByte.outs s.macRx (init.map plainByte)) := by
      rw [List.forall₂_map_left_iff] at hlead ⊢
      exact hlead.imp (fun c o ho => ho)
    exact Runs.outs_all (P := fun o : MacRxOut => o.rx.valid = false) ⟨rfl, hplain⟩
  have hrep : (macRxByte (macRxByte.after s.macRx (init.map plainByte))
      { data := x, last := true }).2.rx = f.report := by
    have hlast := List.forall₂_drop_append _ _ _ hreport
    rw [length_outs, List.drop_left] at hlast
    cases hlast with
    | cons h _ => exact h
  refine ⟨init.map plainByte, { data := x, last := true }, hframe, hlen, ?_⟩
  rw [← hlen] at hw hbusy
  have hwaits : DhcpWaits ((init.map plainByte).length + (k + 1)) s := by
    rwa [← Nat.add_assoc, Nat.add_right_comm]
  obtain ⟨ht, hleft, hmac, hfifo, hbuf, hmem, htx, hreq⟩ :=
    reads_bytes pacing (init.map plainByte) hwaits (by omega) hquiet
  refine ⟨ht, hleft, hbuf, hmem, htx, hreq, ?_, ?_, ?_⟩
  · rw [frameIn_readPass ht, hmac, hrep]
  · rw [afterMacTx_readPass ht]
    show _ ++ _ = _
    rw [hfifo, hmac, List.append_assoc, ← hwords, outs_cons, outs_nil, List.flatMap_singleton]
  · rw [afterMacTx_readPass ht]
    show (macRxByte _ _).1.state = .idle
    rw [hmac]
    exact hidle

/-! ### A frame, and silence behind it. -/

/-- One byte of `bs` in each pass, and then nothing. -/
def readThenQuiet (bs : List GmiiByte) (n : Nat) : PassIn := bs[n]?.elim .quiet readPass

theorem readThenQuiet_rx (bs : List GmiiByte) (n : Nat) :
    (readThenQuiet bs n).resetN = true ∧ (readThenQuiet bs n).rx = bs[n]? := by
  unfold readThenQuiet
  cases bs[n]? <;> exact ⟨rfl, rfl⟩

theorem gmiiFrame_last : ∀ (bytes : List U8) (n : Nat) (b : GmiiByte),
    (gmiiFrame bytes)[n]? = some b → b.last = true → n + 1 = bytes.length
  | [], n, b, h, _ => by simp [gmiiFrame] at h
  | [_], 0, _, _, _ => rfl
  | [_], n + 1, b, h, _ => by simp [gmiiFrame] at h
  | b :: c :: bytes, 0, d, h, hlast => by
      rw [gmiiFrame_cons_cons, List.getElem?_cons_zero, Option.some.injEq] at h
      rw [← h] at hlast
      cases hlast
  | b :: c :: bytes, n + 1, d, h, hlast => by
      rw [gmiiFrame_cons_cons, List.getElem?_cons_succ] at h
      exact congrArg (· + 1) (gmiiFrame_last (c :: bytes) n d h hlast)

/-- No frame completes before its last byte, nor behind it. -/
theorem frameIn_readThenQuiet (s : UdpEcho) (bytes : List U8) {n : Nat} (hn : n + 1 ≠ bytes.length) :
    (s.frameIn (readThenQuiet (gmiiFrame bytes) n)).valid = false := by
  obtain ⟨hreset, hrx⟩ := readThenQuiet_rx (gmiiFrame bytes) n
  rw [frameIn_eq, macRxProcess_run hreset, hrx]
  cases hb : (gmiiFrame bytes)[n]? with
  | none => rfl
  | some b =>
      cases hvalid : (macRxByte s.macRx b).2.rx.valid with
      | false => exact hvalid
      | true => exact absurd (gmiiFrame_last bytes n b hb (macRx_valid_end s.macRx b hvalid).1) hn

/-! ## §4. An ARP request arrives. -/

/-- The MAC address 02:00:00:00:00:`host`. -/
def hostMac (host : U8) : U48 := [2, 0, 0, 0, 0, host].foldl pushByte 0

/-- A datagram of 192.168.100.1, port 5000, with four bytes of data. -/
def datagramFrame : TaggedFrame where
  dst := boardMac
  src := hostMac 1
  tags := []
  ethertype := ethertypeIpv4
  payload := (List.range 20).map (ipHeader 32 0 64 ipProtoUdp [192, 168, 100, 1] boardIpBytes)
    ++ [hi8 5000, lo8 5000, hi8 udpPort, lo8 udpPort, 0, 12, 0, 0, 0x41, 0x42, 0x43, 0x44]
  notTag := ethertypeIpv4_notTag
  nonempty := by decide

/-- The bytes of a segment of 192.168.100.1, port 5000, for the echo port. -/
def hostSegmentBytes (seq ack : U32) (flags : U8) (data : List U8) : List U8 :=
  let bytes := fun check : U16 => [hi8 5000, lo8 5000, hi8 tcpPortEcho, lo8 tcpPortEcho]
    ++ wordBytes 4 seq ++ wordBytes 4 ack ++ [0x50, flags, 0x20, 0x00, hi8 check, lo8 check, 0, 0] ++ data
  bytes (BitVec.ofNat 16 (Inet.checksum
    (Inet.pseudoHeader 0xC0A86401 boardIp 6 (20 + data.length) ++ bytes 0)))

/-- The frame that carries it. -/
def hostFrame (seq ack : U32) (flags : U8) (data : List U8) : TaggedFrame where
  dst := boardMac
  src := hostMac 1
  tags := []
  ethertype := ethertypeIpv4
  payload := (List.range 20).map (ipHeader (BitVec.ofNat 16 (40 + data.length)) 0 64 ipProtoTcp
    [192, 168, 100, 1] boardIpBytes) ++ hostSegmentBytes seq ack flags data
  notTag := ethertypeIpv4_notTag
  nonempty := by simp

/-- An ARP request of 192.168.100.`host` for the board, without padding. -/
def arpRequestFrame (host : U8) : TaggedFrame where
  dst := boardMac
  src := hostMac host
  tags := []
  ethertype := ethertypeArp
  payload := [0, 1, 8, 0, 6, 4, 0, 1, 2, 0, 0, 0, 0, host, 192, 168, 100, host, 0, 0, 0, 0, 0, 0,
    192, 168, 100, 2]
  notTag := ethertypeArp_notTag
  nonempty := by simp

theorem length_arpRequestFrame (host : U8) : (arpRequestFrame host).bytes.length = 50 := rfl

theorem arpRequestFrame_nwords (host : U8) : (arpRequestFrame host).report.nwords.toNat = 7 := by
  show (BitVec.ofNat 10 ((28 + 3) / 4)).toNat = 7
  decide

/-- The reply to it. -/
def arpReplyPacket (host : U8) : List U8 :=
  arpPacket 2 [2, 0, 0, 0, 0, host] [192, 168, 100, host]

/-- The bytes of a staged frame. -/
theorem stage_byteAt {payload : List U8} {fifo : List U32} (h : s.frameFifo = packWords payload ++ fifo)
    {n j : Nat} (hn : n = (packWords payload).length) (hj : j < payload.length) (hfits : j < 1600) :
    (s.stage n).frameBuf.byteAt 0 j = payload.getD j 0 := by
  rw [← wordByte_packWords_getD payload j hj, Mem.byteAt]
  rw [length_packWords] at hn
  unfold UdpEcho.stage
  dsimp only
  rw [Mem.fill_at _ _ (by show j / 4 < min n 400; omega), h,
    List.getD_append _ _ _ _ (by rw [length_packWords]; omega)]

/-- Its fields. -/
theorem arpRx_request {host : U8} {frameBuf : Mem U32} (sh : Shared)
    (h : ∀ j, j < 28 → frameBuf.byteAt 0 j = (arpRequestFrame host).payload.getD j 0) :
    (arpRxProcess true (arpRequestFrame host).report frameBuf sh).txReq
        = { sh.txReq with
            dstMac := hostMac host, ethertype := ethertypeArp, bufAddr := 320, bufLen := 28
            request := true }
      ∧ (arpRxProcess true (arpRequestFrame host).report frameBuf sh).buffer
        = writeArpPacket sh.buffer (arpReplyPacket host) := by
  have hfields : (arpFields frameBuf).opcode = arpRequest ∧ (arpFields frameBuf).targetIp = boardIp
      ∧ (arpFields frameBuf).senderMac = hostMac host := by
    unfold arpFields
    simp (disch := omega) only [h]
    refine ⟨?_, ?_, rfl⟩
    · show be16 0 1 = arpRequest
      decide
    · show packWord 192 168 100 2 = boardIp
      decide
  -- a request for the board's address is answered
  have hreply : arpReply { sh with
        arp := arpUpdate sh.arp (arpFields frameBuf).senderIp (arpFields frameBuf).senderMac } frameBuf
      = arpRxProcess true (arpRequestFrame host).report frameBuf sh := by
    unfold arpRxProcess
    rw [if_neg (by simp), if_neg (by simp [TaggedFrame.report, arpRequestFrame])]
    exact (if_pos ⟨hfields.1, hfields.2.1⟩).symm
  rw [← hreply]
  unfold arpReply Shared.issue
  rw [hfields.2.2]
  simp (disch := omega) only [h]
  exact ⟨rfl, rfl⟩

/-- **An ARP request arrives** while MAC TX is busy: it is answered in the pass of its last
byte, whatever the mailbox holds. -/
theorem arp_request_arrives (host : U8) {k : Nat} (hw : DhcpWaits (50 + k) s) (hbusy : 50 ≤ s.txLeft)
    (hrx : s.macRx.state = .idle) (hfifo : s.frameFifo = []) :
    ∃ bs b, gmiiFrame (arpRequestFrame host).bytes = bs ++ [b] ∧ bs.length = 49
      ∧ let t := (udpEchoMachine pacing).after s (bs.map readPass)
        let u := (udpEcho pacing t (readPass b)).1
        (DhcpWaits (k + 1) t ∧ t.shared.buffer = s.shared.buffer ∧ s.txLeft ≤ t.txLeft + 49
          ∧ TxRuns s.macTx s.shared.txReq s.shared.buffer 49 t.macTx
          ∧ (s.macTx.state ≠ .idle → t.shared.txReq = s.shared.txReq
            ∧ macTxLeft t.macTx + 49 = macTxLeft s.macTx))
        ∧ (DhcpWaits k u ∧ t.txLeft ≤ u.txLeft + 1 ∧ u.macRx.state = .idle ∧ u.frameFifo = [])
        ∧ u.shared.txReq.request = true ∧ u.shared.txReq.dstMac = hostMac host
        ∧ u.shared.buffer = writeArpPacket s.shared.buffer (arpReplyPacket host) := by
  have hlen := length_arpRequestFrame host
  obtain ⟨bs, b, hframe, hcount, hw', hleft, -, hmem, htx, hreq, hin, hwords, hidle⟩ :=
    frame_arrives pacing (arpRequestFrame host) (.inl rfl) (by rwa [hlen]) (by rwa [hlen]) hrx
  rw [hlen] at hcount
  refine ⟨bs, b, hframe, by omega, ?_⟩
  generalize (udpEchoMachine pacing).after s (bs.map readPass) = t at *
  have hbusy' : 0 < t.txLeft := by omega
  obtain ⟨st, rep, last, hpass⟩ := busy_pass pacing (i := readPass b) hw' rfl hbusy'
  -- the frame is staged whole
  have hbytes : ∀ j, j < 28 → (t.staged (readPass b)).frameBuf.byteAt 0 j
      = (arpRequestFrame host).payload.getD j 0 := by
    intro j hj
    unfold UdpEcho.staged
    rw [hin]
    have hcount : (arpRequestFrame host).report.nwords.toNat
        = (packWords (arpRequestFrame host).payload).length := by
      rw [arpRequestFrame_nwords, length_packWords]
      show 7 = (28 + 3) / 4
      omega
    have hstart : (t.afterMacTx (readPass b)).frameFifo = packWords (arpRequestFrame host).payload ++ [] := by
      rw [hwords, hfifo, List.nil_append, List.append_nil]
    exact stage_byteAt hstart hcount hj (by omega)
  have hreceive : t.afterReceive (readPass b) = { t.staged (readPass b) with
      shared := arpRxProcess true (arpRequestFrame host).report (t.staged (readPass b)).frameBuf
        (t.afterMacTx (readPass b)).shared } := by
    unfold UdpEcho.afterReceive UdpEcho.receive UdpEcho.staged
    rw [hin]
    rfl
  have hempty : (t.afterReceive (readPass b)).frameFifo = [] := by
    rw [hreceive]
    show ((t.afterMacTx (readPass b)).frameFifo).drop _ = []
    rw [hwords, hfifo, hin, arpRequestFrame_nwords]
    rfl
  obtain ⟨hreply, hbuffer⟩ := arpRx_request (t.afterMacTx (readPass b)).shared hbytes
  have hbs : bs.length = 49 := by omega
  rw [hbs] at hreq hleft htx
  refine ⟨⟨hw', hmem, hleft, htx, hreq⟩,
    ⟨hw'.pass pacing hbusy' b, txLeft_pass pacing rfl, ?_, ?_⟩, ?_, ?_, ?_⟩
  · rw [hpass, hreceive]
    exact hidle
  · rw [hpass]
    exact hempty
  · rw [hpass, hreceive]
    show (arpRxProcess _ _ _ _).txReq.request = true
    rw [hreply]
  · rw [hpass, hreceive]
    show (arpRxProcess _ _ _ _).txReq.dstMac = _
    rw [hreply]
  · rw [hpass, hreceive]
    show (arpRxProcess _ _ _ _).buffer = _
    rw [hbuffer, afterMacTx_readPass hw', ← hmem]

end GigabitTcp
