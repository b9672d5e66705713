/-
  GigabitTcp.Stack.Reset — what a reset pass erases and what it leaves.

  `payload[]`, `seg[]` and `srv[]` have no initial value and no reset, so a history also leaves
  what they hold.  Of the first, a later pass shows something where a data segment is too long
  for the array and the echo queue has room; of the other two, nothing.

  Main results:
    * `udpEcho_uninit`         — one pass on two left-overs of the local arrays,
    * `reset_erases_history`   — two histories and a reset,
    * `reset_keeps_fifo_word`  — a frame that a reset cuts off shifts the frames after it.
-/
import GigabitTcp.Stack.Alike
import GigabitTcp.Stack.Gates
import GigabitTcp.Stack.Timers

namespace GigabitTcp

open Hw Machine

variable {s s' : UdpEcho} {i j : PassIn}

/-! ## §1. The same bytes. -/

/-- The same reset and the same byte; the left-over of the local arrays and the room in
`msg_stream` may differ. -/
def PassIn.SameBytes (i j : PassIn) : Prop := i.resetN = j.resetN ∧ i.rx = j.rx

/-- A data segment that completes in this pass for an established slot fits `payload[]`, or
finds no room in the echo queue. -/
def UdpEcho.FitsPayload (s : UdpEcho) (i : PassIn) : Prop :=
  s.tcpSegmentIn i = true →
    TcpFitsPayload s.tcp
      (.segment i.uninit i.resetN (s.packetIn i) (s.staged i).frameBuf (s.staged i).shared)

instance (s : UdpEcho) (i : PassIn) : Decidable (s.FitsPayload i) := inferInstanceAs (Decidable (_ → _))

/-- The stages before reception look at the reset and the byte. -/
theorem beforeReceive_sameBytes (s : UdpEcho) (h : i.SameBytes j) :
    s.afterMacTx i = s.afterMacTx j ∧ s.frameIn i = s.frameIn j ∧ s.txByteIn i = s.txByteIn j
      ∧ s.busyIn i = s.busyIn j := by
  obtain ⟨resetN, rx, un, room⟩ := i
  obtain ⟨_, _, un', room'⟩ := j
  obtain ⟨rfl, rfl⟩ := h
  exact ⟨rfl, rfl, rfl, rfl⟩

theorem receiveUdp_uninit (s : UdpEcho) (h : i.SameBytes j) (ipRx : IpRx) :
    s.receiveUdp i ipRx = s.receiveUdp j ipRx := by
  unfold UdpEcho.receiveUdp
  dsimp only
  rw [h.1]
  by_cases hvalid : (udpRxProcess j.resetN ipRx s.frameBuf).valid = true
  · -- the DHCP client is never reached
    have hport : (udpRxProcess j.resetN ipRx s.frameBuf).dstPort ≠ dhcpClientPort := by
      rw [udpRxProcess_valid hvalid]
      decide
    rw [if_neg hport, if_neg hport]
  · rw [if_neg hvalid, if_neg hvalid]

theorem dispatch_uninit (s : UdpEcho) (h : i.SameBytes j) (rx : MacRx)
    (hfits : (ipRxProcess i.resetN rx s.frameBuf).valid = true →
      (ipRxProcess i.resetN rx s.frameBuf).protocol = ipProtoTcp →
      TcpFitsPayload s.tcp
        (.segment i.uninit i.resetN (ipRxProcess i.resetN rx s.frameBuf) s.frameBuf s.shared)) :
    s.dispatch i rx = s.dispatch j rx := by
  have hudp := receiveUdp_uninit s h (ipRxProcess i.resetN rx s.frameBuf)
  unfold UdpEcho.dispatch UdpEcho.receiveIp
  dsimp only
  rw [← h.1]
  split_ifs with _ _ hvalid _ _ htcp
  · rfl
  · rfl
  · rfl
  · rfl
  · rw [tcpRxProcess_uninit i.uninit j.uninit (hfits (by simpa using hvalid) htcp)]
  · exact hudp
  · rfl
  · rfl

/-- **Reception** of a frame whose payload fits. -/
theorem afterReceive_uninit (h : i.SameBytes j) (hfits : s.FitsPayload i) :
    s.afterReceive i = s.afterReceive j := by
  obtain ⟨hmac, hframe, -, -⟩ := beforeReceive_sameBytes s h
  cases hvalid : (s.frameIn i).valid with
  | false => rw [afterReceive_quiet hvalid, afterReceive_quiet (hframe ▸ hvalid), hmac]
  | true =>
      have hstaged : s.staged i = s.staged j := by
        unfold UdpEcho.staged
        rw [hmac, hframe]
      rw [afterReceive_frame hvalid, afterReceive_frame (hframe ▸ hvalid), ← hframe, ← hstaged]
      refine dispatch_uninit (s.staged i) h _ fun hip htcp => ?_
      rw [show (s.staged i).tcp = s.tcp from resetOrInit_tcp s i.resetN]
      refine hfits ?_
      unfold UdpEcho.tcpSegmentIn UdpEcho.packetIn
      rw [hvalid, hip, htcp]
      rfl

/-! ## §2. One pass. -/

/-- TCP maintenance, or the closed gate. -/
theorem runTcpMaintenance_uninit (s : UdpEcho) (un un' : Uninit) (busy : Bool) :
    let t := s.runTcpMaintenance un busy
    ∃ buffer, s.runTcpMaintenance un' busy = { t with shared.buffer := buffer }
      ∧ t.shared.txReq.BytesAgree t.shared.buffer buffer := by
  by_cases hopen : (!s.shared.txReq.request && !busy) = true
  · have hrun : ∀ un : Uninit, s.runTcpMaintenance un busy = { s with
        tcp := (tcpMaintenance un s.tcp s.shared).1, shared := (tcpMaintenance un s.tcp s.shared).2 } :=
      fun un => if_pos hopen
    obtain ⟨htcp, buffer, hshared, hbytes⟩ := tcpMaintenance_uninit un un' s.tcp s.shared
    rw [hrun, hrun]
    exact ⟨buffer, by rw [← htcp, hshared], hbytes⟩
  · have hrun : ∀ un : Uninit, s.runTcpMaintenance un busy = s := fun un => if_neg hopen
    rw [hrun, hrun]
    exact ⟨s.shared.buffer, rfl, fun _ _ => rfl⟩

/-- TCP maintenance writes behind an open gate: MAC TX is idle, and UDP TX has taken the
captured request. -/
theorem afterTcp_uninit (pacing : U32) (h : i.SameBytes j) (hfits : s.FitsPayload i) :
    ∃ buffer, s.afterTcp pacing j = { s.afterTcp pacing i with shared.buffer := buffer }
      ∧ (s.afterTcp pacing i).shared.txReq.BytesAgree (s.afterTcp pacing i).shared.buffer buffer
      ∧ (buffer = (s.afterTcp pacing i).shared.buffer
        ∨ ((s.afterTcp pacing i).macTx.state = .idle
          ∧ (s.afterTcp pacing i).request.dataReceived = false)) := by
  obtain ⟨-, -, -, hbusy⟩ := beforeReceive_sameBytes s h
  have hdhcp : s.afterDhcp i = s.afterDhcp j := by
    unfold UdpEcho.afterDhcp
    rw [afterReceive_uninit h hfits, h.1]
  have hudp : s.afterUdp pacing i = s.afterUdp pacing j := by
    unfold UdpEcho.afterUdp
    rw [hdhcp, h.1, hbusy]
  cases hgate : !(s.afterDhcp i).shared.txReq.request && !s.busyIn i with
  | false =>
      have hgate' : (!(s.afterDhcp j).shared.txReq.request && !s.busyIn j) = false := by
        rw [← hdhcp, ← hbusy, hgate]
      refine ⟨(s.afterTcp pacing i).shared.buffer, ?_, fun _ _ => rfl, .inl rfl⟩
      rw [(after_closed pacing s i hgate).2, (after_closed pacing s j hgate').2, hdhcp]
  | true =>
      have hfree : s.busyIn i = false := by
        cases hb : s.busyIn i with
        | false => rfl
        | true => rw [hb, Bool.not_true, Bool.and_false] at hgate; cases hgate
      have hidle : (s.afterTcp pacing i).macTx.state = .idle := by
        rw [afterTcp_macTx, afterUdp_macTx, afterDhcp_macTx, afterReceive_macTx]
        exact macTx_not_busy s i hfree
      have htaken : (s.afterTcp pacing i).request.dataReceived = false := by
        obtain ⟨_, _, htcp⟩ := afterTcp_eq pacing s i
        rw [htcp]
        unfold UdpEcho.afterUdp UdpEcho.runUdpTx
        rw [hgate]
        rfl
      obtain ⟨buffer, hrun, hbytes⟩ :=
        runTcpMaintenance_uninit (s.afterUdp pacing i) i.uninit j.uninit (s.busyIn i)
      refine ⟨buffer, ?_, hbytes, .inr ⟨hidle, htaken⟩⟩
      unfold UdpEcho.afterTcp
      rw [← hudp, ← hbusy, hrun]

/-- Bytes that nobody asks to be sent and nobody is sending. -/
theorem UdpEcho.alike_buffer (htag : s.shared.txReq.Untagged) {buffer : Mem U32}
    (hsent : s.shared.txReq.BytesAgree s.shared.buffer buffer)
    (hrest : buffer = s.shared.buffer ∨ (s.macTx.state = .idle ∧ s.request.dataReceived = false)) :
    s.Alike { s with shared.buffer := buffer } where
  shared := ⟨rfl, ⟨htag, htag⟩, rfl, fun _ => ⟨rfl, hsent⟩⟩
  macTx := by
    refine ⟨rfl, fun hbusy => ⟨rfl, ?_⟩⟩
    rcases hrest with hsame | ⟨hidle, -⟩
    · rw [hsame]
      exact fun _ _ => rfl
    · exact absurd hidle hbusy
  payload := by
    intro hreceived
    rcases hrest with hsame | ⟨-, htaken⟩
    · rw [hsame]
      exact fun _ _ _ => rfl
    · rw [htaken] at hreceived
      cases hreceived
  frameFifo := rfl
  frameBuf := rfl
  macRx := rfl
  request := rfl
  udpTx := rfl
  initDone := rfl
  dhcp := rfl
  dhcpDelay := rfl
  tcp := rfl

theorem UdpEcho.Alike.refl (htag : s.shared.txReq.Untagged) : s.Alike s :=
  UdpEcho.alike_buffer htag (fun _ _ => rfl) (.inl rfl)

/-- **One pass on two left-overs** of the local arrays. -/
theorem udpEcho_uninit (pacing : U32) (htag : s.shared.txReq.Untagged) (h : i.SameBytes j)
    (hfits : s.FitsPayload i) :
    (udpEcho pacing s i).1.Alike (udpEcho pacing s j).1
      ∧ (udpEcho pacing s i).2.wires = (udpEcho pacing s j).2.wires := by
  obtain ⟨buffer, htcp, hsent, hrest⟩ := afterTcp_uninit pacing h hfits
  have htag' : (s.afterTcp pacing i).shared.txReq.Untagged := by
    rw [← udpEcho_shared]
    exact (udpEcho_alike pacing i (.refl htag)).1.shared.untagged.1
  have hnext : (udpEcho pacing s i).1.Alike (udpEcho pacing s j).1 := by
    rw [udpEcho_state, udpEcho_state, htcp]
    exact runStats_alike (UdpEcho.alike_buffer htag' hsent hrest) i j _ _
  refine ⟨hnext, ?_⟩
  rw [udpEcho_wires, udpEcho_wires, (beforeReceive_sameBytes s h).2.2.1, hnext.dhcp]

/-- **One pass** of alike stacks on the same bytes. -/
theorem udpEcho_sameBytes (pacing : U32) (hs : s.Alike s') (h : i.SameBytes j) (hfits : s.FitsPayload i) :
    (udpEcho pacing s i).1.Alike (udpEcho pacing s' j).1
      ∧ (udpEcho pacing s i).2.wires = (udpEcho pacing s' j).2.wires := by
  obtain ⟨hnext, hwires⟩ := udpEcho_uninit pacing hs.shared.untagged.1 h hfits
  obtain ⟨hnext', hwires'⟩ := udpEcho_alike pacing j hs
  exact ⟨hnext.trans hnext', hwires.trans hwires'⟩

/-- What a frame depends on is the same in alike stacks. -/
theorem UdpEcho.Alike.makesDo (hs : s.Alike s') (h : i.SameBytes j) (hmakes : s.MakesDo i) :
    s'.MakesDo j := by
  obtain ⟨hmac, hframe, -, -⟩ := beforeReceive_sameBytes s' h
  unfold UdpEcho.MakesDo UdpEcho.frameNeeds at hmakes ⊢
  rw [← hframe]
  by_cases hvalid : (s'.frameIn i).valid = true
  · obtain ⟨hbefore, hsame, -, -⟩ := afterMacTx_alike (resetN_of_frameIn hvalid) hs
    have hstaged : (s.staged i).Alike (s'.staged j) := by
      unfold UdpEcho.staged
      rw [← hmac, ← hframe, ← hsame]
      exact stage_alike hbefore _
    have hneeds : (s.staged i).dispatchNeeds i (s.frameIn i)
        = (s'.staged j).dispatchNeeds j (s'.frameIn i) := by
      unfold UdpEcho.dispatchNeeds UdpEcho.packetNeeds
      rw [hsame, hstaged.frameBuf, hstaged.tcp, h.1]
    rw [hsame, if_pos hvalid, ← hsame, hneeds, hsame] at hmakes
    rw [if_pos hvalid]
    exact hmakes
  · rw [if_neg hvalid]
    exact Nat.zero_le _

/-! ## §3. Two histories. -/

/-- The stack after a history. -/
def afterHistory (pacing : U32) (history : List PassIn) : UdpEcho :=
  (udpEchoMachine pacing).after {} history

theorem afterHistory_untagged (pacing : U32) (history : List PassIn) :
    (afterHistory pacing history).shared.txReq.Untagged := by
  -- two copies of one run: the tag is part of the invariant
  have hstart : UdpEcho.Alike {} {} := {
    shared := ⟨rfl, ⟨⟨rfl, rfl⟩, ⟨rfl, rfl⟩⟩, rfl, nofun⟩
    macTx := ⟨rfl, fun hb => absurd rfl hb⟩
    payload := nofun
    frameFifo := rfl, frameBuf := rfl, macRx := rfl, request := rfl, udpTx := rfl, initDone := rfl
    dhcp := rfl, dhcpDelay := rfl, tcp := rfl }
  have hself : (afterHistory pacing history).Alike (afterHistory pacing history) :=
    invariant_after (M := udpEchoMachine pacing) (P := fun s : UdpEcho => s.Alike s)
      (fun _ i h => (udpEcho_alike pacing i h).1) hstart history
  exact hself.shared.untagged.1

/-- Alike stacks show the same from then on, on the same bytes. -/
theorem udpEcho_sameBytes_run (pacing : U32) (hs : s.Alike s') {is js : List PassIn}
    (h : List.Forall₂ PassIn.SameBytes is js)
    (hfits : Along (udpEchoMachine pacing) UdpEcho.FitsPayload s is) :
    ((udpEchoMachine pacing).outs s is).map PassOut.wires
      = ((udpEchoMachine pacing).outs s' js).map PassOut.wires :=
  (Along.bisim_view (M := udpEchoMachine pacing) (N := udpEchoMachine pacing) (C := UdpEcho.FitsPayload)
    (R := UdpEcho.Alike) (E := PassIn.SameBytes) PassOut.wires
    (fun _ _ _ _ hs h hfits => udpEcho_sameBytes pacing hs h hfits) hs h hfits).2

/-- A pass in reset completes no frame. -/
theorem frameIn_reset (hr : i.resetN = false) : ¬ (s.frameIn i).valid = true := by
  intro hvalid
  rw [resetN_of_frameIn hvalid] at hr
  cases hr

theorem fitsPayload_reset (hr : i.resetN = false) : s.FitsPayload i := by
  intro hseg
  unfold UdpEcho.tcpSegmentIn at hseg
  simp only [Bool.and_eq_true] at hseg
  exact absurd hseg.1.1 (frameIn_reset hr)

theorem makesDo_reset (hr : i.resetN = false) : s.MakesDo i := by
  unfold UdpEcho.MakesDo UdpEcho.frameNeeds
  rw [if_neg (frameIn_reset hr)]
  exact Nat.zero_le _

/-- After two histories that agree on the ARP tables, the TCP statics and `frame_fifo`, and a
reset pass, the same bytes show the same, whatever the local arrays hold, as long as the data
segments that are queued fit `payload[]`, and the frames that arrive make do with the words that
are staged for them (or `frame_buf` is the same). -/
theorem reset_erases_history (pacing : U32) (history history' : List PassIn) {i j : PassIn}
    (hr : i.resetN = false) (hij : i.SameBytes j)
    (h : (afterHistory pacing history).SurvivorsAgree (afterHistory pacing history'))
    {is js : List PassIn} (hin : List.Forall₂ PassIn.SameBytes is js)
    (hfits : Along (udpEchoMachine pacing) UdpEcho.FitsPayload
      (udpEcho pacing (afterHistory pacing history) i).1 is)
    (hbuf : (afterHistory pacing history).frameBuf = (afterHistory pacing history').frameBuf
      ∨ Along (udpEchoMachine pacing) UdpEcho.MakesDo
        (udpEcho pacing (afterHistory pacing history) i).1 is) :
    ((udpEchoMachine pacing).outs
        (udpEcho pacing (afterHistory pacing history) i).1 is).map PassOut.wires
      = ((udpEchoMachine pacing).outs
        (udpEcho pacing (afterHistory pacing history') j).1 js).map PassOut.wires := by
  have htag := afterHistory_untagged pacing history
  have htag' := afterHistory_untagged pacing history'
  generalize afterHistory pacing history = s at h hfits hbuf htag ⊢
  generalize afterHistory pacing history' = s' at h hbuf htag' ⊢
  -- first everything but `frame_buf` is exchanged
  let t : UdpEcho := { s' with frameBuf := s.frameBuf }
  have hcleared : (udpEcho pacing s i).1.Alike (udpEcho pacing t i).1 :=
    udpEcho_reset_alike pacing hr ⟨h.arp, h.tcp, h.frameFifo⟩ rfl htag htag'
  have hleft : (udpEcho pacing t i).1.Alike (udpEcho pacing t j).1 :=
    (udpEcho_uninit pacing (show t.shared.txReq.Untagged from htag') hij (fitsPayload_reset hr)).1
  have hreset := hcleared.trans hleft
  rw [udpEcho_sameBytes_run pacing hreset hin hfits]
  rcases hbuf with hsame | hmakes
  · rw [show t = s' from by rw [show t = { s' with frameBuf := s.frameBuf } from rfl, hsame]]
  · -- then `frame_buf`, on which the frames do not depend
    have hmakes' : Along (udpEchoMachine pacing) UdpEcho.MakesDo (udpEcho pacing t j).1 js := by
      refine Along.transport (R := UdpEcho.Alike) (E := PassIn.SameBytes) ?_ hreset hin
        (Along.and hfits hmakes)
      intro u u' k l hs h hC
      exact ⟨hs.makesDo h hC.2, (udpEcho_sameBytes pacing hs h hC.1).1⟩
    have hexchanged : t.SameButFrameBuf s' := ⟨s'.frameBuf, rfl⟩
    have hafter := (udpEcho_frameBuf pacing j hexchanged (makesDo_reset (hij.1 ▸ hr))).1
    rw [(udpEcho_frameBuf_run pacing hafter js hmakes').2]

/-- A reset pass. -/
def PassIn.reset : PassIn := { resetN := false, rx := none, uninit := .zero, msgRoom := 0 }

/-! ### A connection that survives. -/

/-- MAC TX sends, and a frame that completes is captured as a UDP request. -/
def UdpEcho.CapturesBusy (s : UdpEcho) (i : PassIn) : Prop :=
  s.busyIn i = true ∧ ((s.frameIn i).valid = true → (s.datagramIn i).valid = true)

instance (s : UdpEcho) (i : PassIn) : Decidable (s.CapturesBusy i) := inferInstanceAs (Decidable (_ ∧ _))

/-- Such a pass leaves the ARP tables and the TCP statics as they are. -/
theorem capturesBusy_keeps (pacing : U32) (h : s.CapturesBusy i) :
    (udpEcho pacing s i).1.shared.arp = s.shared.arp ∧ (udpEcho pacing s i).1.tcp = s.tcp := by
  obtain ⟨hbusy, hcaptures⟩ := h
  have hgate : (!(s.afterDhcp i).shared.txReq.request && !s.busyIn i) = false := by
    rw [hbusy, Bool.not_true, Bool.and_false]
  have hreceive : (s.afterReceive i).shared.arp = s.shared.arp := by
    have hinit : (s.resetOrInit i.resetN).shared.arp = s.shared.arp := by
      unfold UdpEcho.resetOrInit
      dsimp only
      split_ifs <;> rfl
    cases hvalid : (s.frameIn i).valid with
    | false => rw [afterReceive_quiet hvalid]; exact hinit
    | true => rw [afterReceive_frame hvalid, dispatch_captures (s.staged i) i (hcaptures hvalid)]; exact hinit
  constructor
  · rw [udpEcho_shared, (after_closed pacing s i hgate).2, ← hreceive]
    unfold UdpEcho.afterDhcp UdpEcho.runDhcpTx dhcpTxProcess
    dsimp only
    split_ifs <;> rfl
  · have hno : s.tcpSegmentIn i = false := by
      unfold UdpEcho.tcpSegmentIn
      cases hvalid : (s.frameIn i).valid with
      | false => rfl
      | true => rw [(udpRxProcess_packet (hcaptures hvalid)).2, Bool.true_and]; exact Bool.and_false _
    rw [udpEcho_tcp]
    unfold UdpEcho.tcpCalls
    rw [hno, (after_closed pacing s i hgate).1, hgate]
    rfl

theorem capturesBusy_run (pacing : U32) (history passes : List PassIn)
    (h : Along (udpEchoMachine pacing) UdpEcho.CapturesBusy (afterHistory pacing history) passes) :
    (afterHistory pacing (history ++ passes)).shared.arp = (afterHistory pacing history).shared.arp
      ∧ (afterHistory pacing (history ++ passes)).tcp = (afterHistory pacing history).tcp := by
  unfold afterHistory at h ⊢
  rw [after_append]
  generalize (udpEchoMachine pacing).after {} history = s at h ⊢
  refine Along.invariant (C := UdpEcho.CapturesBusy)
    (P := fun t => t.shared.arp = s.shared.arp ∧ t.tcp = s.tcp) ?_ ⟨rfl, rfl⟩ passes h
  rintro t i ⟨harp, htcp⟩ hpass
  obtain ⟨harp', htcp'⟩ := capturesBusy_keeps pacing hpass
  exact ⟨harp'.trans harp, htcp'.trans htcp⟩

/-- A SYN, and a datagram that arrives while it is answered. -/
def synPasses : List PassIn := (gmiiFrame (hostFrame 100 0 0x02 []).bytes).map readPass

def datagramPasses : List PassIn := (gmiiFrame datagramFrame.bytes).map readPass

/-- The handshake is completed, two bytes arrive, and there is silence. -/
def hostPasses (un : Uninit) : List PassIn :=
  ((gmiiFrame (hostFrame 101 0x12345679 0x10 []).bytes).map some
    ++ (gmiiFrame (hostFrame 101 0x12345679 0x18 [0x41, 0x42]).bytes).map some
    ++ List.replicate 76 none).map fun rx => { resetN := true, rx, uninit := un, msgRoom := 0 }

/-- Arrays that hold 55h throughout. -/
def Uninit.fives : Uninit := { payload := fun _ => 0x55, seg := fun _ => 0x55, srv := fun _ => 0x55 }

theorem hostPasses_sameBytes (un un' : Uninit) :
    List.Forall₂ PassIn.SameBytes (hostPasses un) (hostPasses un') := by
  unfold hostPasses
  rw [List.forall₂_map_left_iff, List.forall₂_map_right_iff, List.forall₂_same]
  exact fun _ _ => ⟨rfl, rfl⟩

/-- The datagram, and what the local arrays hold, leave no trace behind a reset; the connection
that the SYN has opened is confirmed, and echoes its two bytes. -/
theorem reset_erases_datagram :
    let s := (udpEcho 625000000 (afterHistory 625000000 synPasses) .reset).1
    let s' := (udpEcho 625000000 (afterHistory 625000000 (synPasses ++ datagramPasses))
      { PassIn.reset with uninit := .fives }).1
    let shown := ((udpEchoMachine 625000000).outs s (hostPasses .zero)).map PassOut.wires
    shown = ((udpEchoMachine 625000000).outs s' (hostPasses .fives)).map PassOut.wires
      ∧ (((shown.map Prod.fst).reduceOption.map GmiiByte.data).drop 62).take 2 = [0x41, 0x42] := by
  intro s s' shown
  obtain ⟨harp, htcp⟩ := capturesBusy_run 625000000 synPasses datagramPasses (by decide +kernel)
  have hsame : PassIn.SameBytes .reset { PassIn.reset with uninit := .fives } := ⟨rfl, rfl⟩
  have hshown := reset_erases_history 625000000 synPasses (synPasses ++ datagramPasses) rfl hsame
    ⟨harp.symm, htcp.symm, by decide +kernel⟩ (hostPasses_sameBytes .zero .fives) (by decide +kernel)
    (.inr (by decide +kernel))
  exact ⟨hshown, by decide +kernel⟩

/-- A complete ARP request, and two passes more. -/
def arpRequestPasses : List PassIn :=
  (gmiiFrame (arpRequestFrame 1).bytes).map readPass ++ [.quiet, .quiet]

/-- After a reset in the middle of a frame, an ARP request is not answered: the word that was
left in `frame_fifo` is staged in front of it. -/
theorem reset_keeps_fifo_word :
    let cut := afterHistory 625000000 (frameHead.map (fun b => readPass (plainByte b)))
    let fresh := afterHistory 625000000 []
    ((udpEchoMachine 625000000).outs (udpEcho 625000000 cut .reset).1 arpRequestPasses).map PassOut.wires
      ≠ ((udpEchoMachine 625000000).outs (udpEcho 625000000 fresh .reset).1 arpRequestPasses).map PassOut.wires := by
  intro cut fresh h
  have hlast := congrArg List.getLast? h
  revert hlast
  decide +kernel

end GigabitTcp