/-
  GigabitTcp.Stack.Wire — the TX stream of every run.

  The mailbox only ever asks for untagged ARP and IPv4 frames, and MAC TX makes a frame of
  whatever the buffer holds while it sends.  So the TX stream of every run out of reset, with any frames
  arriving at any time, is cut into Ethernet frames of the board, each without a gap and
  with an FCS that verifies.

  Main results:
    * `udpEcho_asks`     — what a pass leaves in the mailbox,
    * `tx_stream_framed` — the TX stream of every run.
-/
import GigabitTcp.Mac.TxStream
import GigabitTcp.Stack.ArpRequests
import GigabitTcp.Stack.Senders
import GigabitTcp.Stack.Reset
import GigabitTcp.Stack.Hosts

namespace GigabitTcp

open Hw Machine

/-! ## §1. What the mailbox asks for. -/

/-- An ARP frame or an IPv4 frame. -/
def MacTxReq.Known (req : MacTxReq) : Prop :=
  req.ethertype = ethertypeArp ∨ req.ethertype = ethertypeIpv4

/-- A reply at reception. -/
theorem receive_known {s : UdpEcho} {i : PassIn} {lo hi : Nat} (h : s.reception i = .answers lo hi) :
    (s.afterReceive i).shared.txReq.Known := by
  unfold UdpEcho.reception at h
  split at h
  · rename_i hvalid
    rw [afterReceive_frame hvalid]
    unfold dispatchReception at h
    unfold UdpEcho.dispatch
    split_ifs at h ⊢
    · exact .inl (arpRx_ethertype (s.staged i).shared h)
    · exact .inr (receiveIp_ethertype h)
  · cases h

/-- Before reception the mailbox is as it was, or empty. -/
theorem afterMacTx_mailbox (s : UdpEcho) (i : PassIn) :
    (s.afterMacTx i).shared.txReq = s.shared.txReq
      ∨ (s.afterMacTx i).shared.txReq.request = false := by
  cases hreset : i.resetN with
  | false =>
      right
      unfold UdpEcho.afterMacTx UdpEcho.runMacTx macTxProcess
      rw [hreset]
      rfl
  | true =>
      rw [(afterMacTx_cycle s i hreset).2.1]
      by_cases hidle : s.macTx.state = .idle
      · cases hreq : s.shared.txReq.request with
        | false =>
            left
            show (macTxCycle _ _).2.txReq = _
            rw [(macTx_rests hidle hreq _).2]
        | true =>
            right
            show (macTxCycle _ _).2.txReq.request = _
            rw [macTx_latch hidle hreq]
      · exact .inl (macTxCycle_sending hidle _).1

/-- **One pass**: what waits in the mailbox asks for an ARP or an IPv4 frame. -/
theorem udpEcho_asks (pacing : U32) {s : UdpEcho} {i : PassIn}
    (h : s.shared.txReq.request = true → s.shared.txReq.Known)
    (hreq : (udpEcho pacing s i).1.shared.txReq.request = true) :
    (udpEcho pacing s i).1.shared.txReq.Known := by
  rw [udpEcho_shared] at hreq ⊢
  rcases senders_frame pacing s i with hsame | hsent
  · rw [hsame] at hreq ⊢
    -- reception leaves the mailbox alone, or it answers
    have hkept : (s.afterReceive i).shared.txReq = (s.afterMacTx i).shared.txReq →
        (s.afterReceive i).shared.txReq.Known := by
      intro hrec
      rw [hrec] at hreq ⊢
      rcases afterMacTx_mailbox s i with hmac | hmac
      · rw [hmac] at hreq ⊢
        exact h hreq
      · rw [hmac] at hreq
        cases hreq
    have hwrites := receive_writes s i
    cases hrec : s.reception i with
    | quiet =>
        rw [hrec] at hwrites
        exact hkept hwrites.2
    | captures lo hi =>
        rw [hrec] at hwrites
        exact hkept hwrites.2
    | answers lo hi => exact receive_known hrec
  · exact .inr hsent.ethertype

/-- **Every history** leaves an untagged request for an ARP or an IPv4 frame, or none. -/
theorem afterHistory_asks (pacing : U32) (history : List PassIn)
    (h : (afterHistory pacing history).shared.txReq.request = true) :
    (afterHistory pacing history).shared.txReq.Known
      ∧ (afterHistory pacing history).shared.txReq.insertVlan = false := by
  have hknown := invariant_after (M := udpEchoMachine pacing)
    (P := fun s : UdpEcho => s.shared.txReq.request = true → s.shared.txReq.Known)
    (fun s i hs hreq => udpEcho_asks pacing hs hreq) (s := {}) nofun history
  exact ⟨hknown h, (afterHistory_untagged pacing history).1⟩

/-! ## §2. The stream. -/

/-- What the mailbox asks MAC TX for. -/
def MacTxReq.Asked (req : MacTxReq) : Prop := req.Known ∧ req.insertVlan = false

/-- The symbols of a frame of the board, marked at its end, that a host reads as `f`. -/
structure BoardFrame (symbols : List GmiiByte) (f : HostFrame) : Prop where
  marked : symbols = gmiiFrame (symbols.map GmiiByte.data)
  read : ethernet? (symbols.map GmiiByte.data) = some f
  src : f.src = boardMac
  ethertype : f.ethertype = ethertypeArp ∨ f.ethertype = ethertypeIpv4
  padded : 46 ≤ f.payload.length

/-- An untagged frame from the board's MAC. -/
theorem boardFrame_ethernetFrame (dst : U48) {ethertype : U16}
    (htype : ethertype = ethertypeArp ∨ ethertype = ethertypeIpv4) (payload : List U8) :
    BoardFrame (gmiiFrame (ethernetFrame dst boardMac [] ethertype payload))
      { dst, src := boardMac, ethertype, payload := payload ++ List.replicate (46 - payload.length) 0 } := by
  refine ⟨?_, ?_, rfl, htype, ?_⟩
  · rw [gmiiFrame_data]
  · rw [gmiiFrame_data]
    exact ethernet?_ethernetFrame _ _ _ _
  · rw [List.length_append, List.length_replicate]
    omega

theorem FrameOf.boardFrame {symbols : List GmiiByte} (h : FrameOf MacTxReq.Asked symbols) :
    ∃ f, BoardFrame symbols f := by
  obtain ⟨req, m, ⟨hknown, hplain⟩, rfl⟩ := h
  have hwire : txWire req m = ethernetFrame req.dstMac boardMac [] req.ethertype (macTxReads req m) := by
    rw [txWire_eq, txTags, hplain]
    rfl
  rw [hwire]
  exact ⟨_, boardFrame_ethernetFrame _ hknown _⟩

/-- A part of a frame is a part of a frame of the board, and the frame is longer. -/
theorem Sending.prefix_of {s : MacTxFsm} {part : List GmiiByte} (h : Sending MacTxReq.Asked s part)
    (hne : part ≠ []) : ∃ symbols f, BoardFrame symbols f ∧ part <+: symbols
      ∧ part.length < symbols.length := by
  rcases h with ⟨-, hnil⟩ | ⟨req, m, j, hask, hj, -, rfl⟩
  · exact absurd hnil hne
  · obtain ⟨f, hf⟩ := FrameOf.boardFrame ⟨req, m, hask, rfl⟩
    refine ⟨_, f, hf, List.take_prefix _ _, ?_⟩
    rw [List.length_take, length_gmiiFrame]
    omega

/-- A cycle without a byte is not inside a frame. -/
theorem Sending.silent {P : MacTxReq → Prop} {s : MacTxFsm} {part : List GmiiByte} (h : Sending P s part)
    (i : MacTxReq × Mem U32) (hbyte : (macTxCycle s i).2.byte = none) : part = [] := by
  rcases h with ⟨-, hnil⟩ | ⟨req, m, j, -, hj, rfl, -⟩
  · exact hnil
  · exfalso
    have hlen : j < (txWire req (splicedMem req m i.2 (txDataOut req j))).length := by
      rw [length_txWire, length_txPadded] at hj ⊢
      exact hj
    have hout := (macTx_txAt req _ hlen (i.1, splicedMem req m i.2 (txDataOut req j)) fun _ _ => rfl).2
    rw [txAt_spliced, ← macTx_spliced req m i.2 hj, hbyte,
      List.getElem?_eq_getElem (by rwa [length_gmiiFrame])] at hout
    cases hout

variable (pacing : U32)

/-- A state that is reached, in which `part` of a frame is out. -/
def OnWire (s : UdpEcho) (part : List GmiiByte) : Prop :=
  (∃ history, s = afterHistory pacing history) ∧ Sending MacTxReq.Asked s.macTx part

/-- **One pass** goes on with the frame that is out. -/
theorem OnWire.pass {s : UdpEcho} {part : List GmiiByte} (h : OnWire pacing s part) {i : PassIn}
    (hreset : i.resetN = true) :
    Continues GmiiByte.last (FrameOf MacTxReq.Asked) (OnWire pacing (udpEcho pacing s i).1) part
      (udpEcho pacing s i).2.tx := by
  obtain ⟨⟨history, hs⟩, hsending⟩ := h
  have hreached : ∃ history, (udpEcho pacing s i).1 = afterHistory pacing history := by
    refine ⟨history ++ [i], ?_⟩
    unfold afterHistory at hs ⊢
    rw [after_append, ← hs]
    rfl
  have hcycle := hsending.cycle (s.shared.txReq, s.txBuffer i) fun hreq => by
    rw [hs] at hreq ⊢
    exact afterHistory_asks pacing history hreq
  rw [← udpEcho_macTx_cycle pacing s i hreset, ← (afterMacTx_cycle s i hreset).2.2.1,
    ← udpEcho_tx pacing s i] at hcycle
  cases htx : (udpEcho pacing s i).2.tx with
  | none =>
      rw [htx] at hcycle
      exact ⟨hreached, hcycle⟩
  | some b =>
      rw [htx] at hcycle
      change if b.last then _ else _ at hcycle
      show if b.last then _ else _
      split at hcycle
      · rename_i hlast
        rw [if_pos hlast]
        exact ⟨hcycle.1, hreached, hcycle.2⟩
      · rename_i hlast
        rw [if_neg hlast]
        exact ⟨hreached, hcycle⟩

/-- What has come of the TX stream of a run, cut behind the marked bytes. -/
def txFrames (s : UdpEcho) (is : List PassIn) : List (List GmiiByte) × List GmiiByte :=
  cutFrames GmiiByte.last (((udpEchoMachine pacing).outs s is).map PassOut.tx).reduceOption

theorem txFrames_run {history is : List PassIn} (hidle : (afterHistory pacing history).macTx.state = .idle)
    (hreset : ∀ i ∈ is, i.resetN = true) :
    let s := afterHistory pacing history
    (∀ symbols ∈ (txFrames pacing s is).1, FrameOf MacTxReq.Asked symbols)
      ∧ OnWire pacing ((udpEchoMachine pacing).after s is) (txFrames pacing s is).2 := by
  intro s
  have hstart : OnWire pacing s [] := ⟨⟨history, rfl⟩, .inl ⟨hidle, rfl⟩⟩
  exact cutFrames_outs (M := udpEchoMachine pacing) PassOut.tx (fun _ _ _ hmid hi => hmid.pass pacing hi)
    hstart is hreset

/-- **The TX stream of every run.**  After any history that leaves MAC TX in IDLE, and whatever arrives
then, the stream falls apart at its marks into frames of the board that a host reads: the FCS
verifies, the source is the board, the type ARP or IPv4, the payload padded.  Behind the last of
them stands a part of such a frame, and none if MAC TX is in IDLE.  A pass without a byte
is never inside a frame. -/
theorem tx_stream_framed (history is : List PassIn) (hidle : (afterHistory pacing history).macTx.state = .idle)
    (hreset : ∀ i ∈ is, i.resetN = true) :
    let s := afterHistory pacing history
    (∀ symbols ∈ (txFrames pacing s is).1, ∃ f, BoardFrame symbols f)
      ∧ ((txFrames pacing s is).2 ≠ [] → ∃ symbols f, BoardFrame symbols f
          ∧ (txFrames pacing s is).2 <+: symbols ∧ (txFrames pacing s is).2.length < symbols.length)
      ∧ (((udpEchoMachine pacing).after s is).macTx.state = .idle → (txFrames pacing s is).2 = [])
      ∧ ∀ front i back, is = front ++ i :: back →
          (udpEcho pacing ((udpEchoMachine pacing).after s front) i).2.tx = none →
            (txFrames pacing s front).2 = [] := by
  intro s
  obtain ⟨hwhole, -, hsending⟩ := txFrames_run pacing hidle hreset
  refine ⟨fun symbols hs => (hwhole symbols hs).boardFrame, hsending.prefix_of, ?_, ?_⟩
  · intro hend
    rcases hsending with ⟨-, hnil⟩ | ⟨req, m, j, -, hj, hat, -⟩
    · exact hnil
    · have hbyte := (macTx_txAt req m hj (req, m) fun _ _ => rfl).2
      rw [← hat, macTxCycle_idle_byte hend, List.getElem?_eq_getElem (by rwa [length_gmiiFrame])] at hbyte
      cases hbyte
  · intro front i back hsplit htx
    have hi : i.resetN = true := hreset i (by simp [hsplit])
    have hfronts : ∀ j ∈ front, j.resetN = true := fun j hj => hreset j (by simp [hsplit, hj])
    obtain ⟨-, -, hfront⟩ := txFrames_run pacing hidle hfronts
    rw [udpEcho_tx, (afterMacTx_cycle _ i hi).2.2.1] at htx
    exact hfront.silent _ htx

/-- Behind a reset the periodic frame goes out, whole. -/
theorem tx_stream_framed_hello :
    let cut := txFrames 1 (afterHistory 1 [.reset]) (List.replicate 80 .quiet)
    cut.1.length = 1 ∧ (∀ symbols ∈ cut.1, ∃ f, BoardFrame symbols f)
      ∧ (cut.2 ≠ [] → ∃ symbols f, BoardFrame symbols f ∧ cut.2 <+: symbols
        ∧ cut.2.length < symbols.length) := by
  have hframed := tx_stream_framed 1 [.reset] (List.replicate 80 .quiet) rfl fun i hi => by
    rw [List.eq_of_mem_replicate hi]
    rfl
  exact ⟨by decide +kernel, hframed.1, hframed.2.1⟩

end GigabitTcp
