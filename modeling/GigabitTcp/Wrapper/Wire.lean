/-
  GigabitTcp.Wrapper.Wire — what the board puts on the wire.

  The IP, the TX bridge and the demo generator run together, edges and passes in any order,
  while anything arrives from the PHY.  As long as the bridge does not start into a demo frame, the wire
  carries Ethernet frames and nothing else: those of the stack, in its order, and the demo
  frame, each without a gap and with an FCS that verifies.

  Main results:
    * `Wired.edge`, `Wired.pass` — no byte of the stack is lost or moved between it and the wire,
    * `OnPhy.next`               — one edge goes on with the frame on the wire,
    * `wire_carries_frames`      — every run.
-/
import GigabitTcp.Wrapper1gNet
import GigabitTcp.Wrapper.TxBridge
import GigabitTcp.Wrapper.Demo
import GigabitTcp.Stack.Wire

namespace GigabitTcp

open Hw Machine

/-! ## §1. From the stack to the bridge. -/

theorem GmiiByte.tdata_eq (b : GmiiByte) : b.tdata.setWidth 8 = b.data ∧ b.tdata.getLsbD 8 = b.last := by
  obtain ⟨data, last⟩ := b
  unfold tdata
  constructor
  · apply BitVec.eq_of_getLsbD_eq
    intro k hk
    simp [hk]
  · cases last <;> simp [BitVec.getLsbD_of_ge]

/-- The frames among the words that have left the bridge were in the FIFO as a whole, and while it
drains the rest of the next one is. -/
structure TxBridge.Fits (s : TxBridge) (words : List GmiiByte) : Prop where
  frames : ∀ f ∈ (cutFrames GmiiByte.last words).1, f.length ≤ 1900
  free : s.txDraining = false → (cutFrames GmiiByte.last words).2 = []
  rest : s.txDraining = true → ∃ q, q ≠ [] ∧ q <+: s.txFifo.contents
    ∧ Delimited GmiiByte.last ((cutFrames GmiiByte.last words).2 ++ q)
    ∧ ((cutFrames GmiiByte.last words).2 ++ q).length ≤ 1900

/-- A bridge that drains holds a whole frame, or the rest of one. -/
theorem TxBridge.Inv.rest {s : TxBridge} (h : s.Inv) (hdrain : s.txDraining = true) {p : List GmiiByte}
    (hp : ∀ y ∈ p, y.last = false) :
    ∃ q, q ≠ [] ∧ q <+: s.txFifo.contents ∧ Delimited GmiiByte.last (p ++ q) := by
  have hcomplete := h.complete hdrain
  rw [h.counted] at hcomplete
  obtain ⟨y, hy, hmark⟩ := List.countP_pos_iff.mp hcomplete
  exact delimited_of_mark hp ⟨y, hy, hmark⟩

/-- Between frames. -/
theorem TxBridge.Inv.between {s : TxBridge} (h : s.Inv) {words : List GmiiByte}
    (hframes : ∀ f ∈ (cutFrames GmiiByte.last words).1, f.length ≤ 1900)
    (hpart : (cutFrames GmiiByte.last words).2 = []) : s.Fits words := by
  refine ⟨hframes, fun _ => hpart, fun hdrain => ?_⟩
  rw [hpart]
  obtain ⟨q, hne, hq, hframe⟩ := h.rest hdrain (p := []) (by simp)
  refine ⟨q, hne, hq, hframe, hq.length_le.trans ?_⟩
  rw [Ring.length_contents]
  exact h.fits

/-- **One edge.** -/
theorem TxBridge.Fits.next {s : TxBridge} {words : List GmiiByte} (h : s.Fits words) (hinv : s.Inv)
    (i : TxBridgeIn) : (s.next i).Fits (words ++ s.txEmitWord.toList) := by
  have hinv' := hinv.next i
  have hconserves := hinv.conserves i
  unfold TxBridge.txEmitWord at hconserves ⊢
  cases hdrain : s.txDraining with
  | false =>
      rw [if_neg Bool.false_ne_true, Option.toList_none, List.append_nil]
      exact hinv'.between h.frames (h.free hdrain)
  | true =>
      rw [hdrain, if_pos rfl, Option.toList_some] at hconserves
      rw [if_pos rfl, Option.toList_some]
      obtain ⟨q, hne, ⟨more, hmore⟩, hframe, hlen⟩ := h.rest hdrain
      -- the word that leaves is the next one of the frame
      obtain ⟨q', rfl⟩ : ∃ q', q = s.txFifo.front :: q' := by
        obtain ⟨x, q', rfl⟩ := List.exists_cons_of_ne_nil hne
        rw [← hmore] at hconserves
        exact ⟨q', by rw [(List.cons.inj hconserves).1]⟩
      have hq' : q' <+: (s.next i).txFifo.contents := by
        rw [← hmore] at hconserves
        exact ⟨_, by simpa using (List.cons.inj hconserves).2⟩
      have hcut := cutFrames_concat GmiiByte.last words s.txFifo.front
      unfold cutNext at hcut
      by_cases hend : q' = []
      · rw [hend] at hframe hlen
        rw [if_pos hframe.end] at hcut
        refine hinv'.between ?_ (by rw [hcut])
        rw [hcut]
        intro f hf
        rcases List.mem_append.mp hf with hf | hf
        · exact h.frames f hf
        · rw [List.mem_singleton.mp hf]
          exact hlen
      · have hplain := hframe.inner hend
        rw [hplain, if_neg Bool.false_ne_true] at hcut
        refine ⟨?_, fun hstops => ?_, fun _ => ⟨q', hend, hq', ?_, ?_⟩⟩
        · rw [hcut]
          exact h.frames
        · rw [TxBridge.draining_of_not_last i hdrain hplain] at hstops
          cases hstops
        · rw [hcut, List.append_assoc]
          exact hframe
        · rw [hcut, List.append_assoc]
          exact hlen

/-- A pass in reset sends nothing and leaves MAC TX in IDLE. -/
theorem udpEcho_held (pacing : U32) (s : UdpEcho) {i : PassIn} (hreset : i.resetN = false) :
    (udpEcho pacing s i).2.tx = none ∧ (udpEcho pacing s i).1.macTx.state = .idle := by
  rw [udpEcho_tx, udpEcho_macTx_afterMacTx]
  unfold UdpEcho.txByteIn UdpEcho.afterMacTx UdpEcho.runMacTx macTxProcess
  rw [hreset]
  exact ⟨rfl, rfl⟩

/-- So do any number of them after configuration. -/
theorem afterHistory_held (pacing : U32) (history : List PassIn) (h : ∀ i ∈ history, i.resetN = false) :
    (((udpEchoMachine pacing).outs {} history).map PassOut.tx).reduceOption = []
      ∧ (afterHistory pacing history).macTx.state = .idle := by
  induction history using List.reverseRecOn with
  | nil => exact ⟨rfl, rfl⟩
  | append_singleton history i ih =>
      obtain ⟨hsilent, -⟩ := ih fun j hj => h j (List.mem_append_left _ hj)
      obtain ⟨htx, hidle⟩ := udpEcho_held pacing (afterHistory pacing history) (h i (by simp))
      unfold afterHistory at htx hidle ⊢
      rw [outs_append, List.map_append, List.reduceOption_append, hsilent, after_append]
      refine ⟨?_, hidle⟩
      show [(udpEcho pacing _ i).2.tx].reduceOption = []
      rw [htx]
      rfl

namespace Wrapper1gNet

variable {s : Wrapper1gNet}

theorem txStream_of_handshake {txValid : Bool} (h : s.txHandshake txValid = true) :
    ∃ b rest, s.txStream = b :: rest := by
  unfold txHandshake at h
  simp only [Bool.and_eq_true, Bool.not_eq_true', List.isEmpty_eq_false_iff] at h
  exact List.exists_cons_of_ne_nil h.1.2

/-- The bridge accepts what the IP hands over. -/
theorem txPushWord_handshake (henable : s.gmii.ipEnable = true) (eRxd : U8) (eRxdv rxReady txValid : Bool) :
    s.gmii.tx.txPushWord (s.gmii.txIn (s.gmiiIn eRxd eRxdv rxReady txValid))
      = if s.txHandshake txValid then s.txStream.head? else none := by
  unfold TxBridge.txPushWord TxBridge.txPush Wrapper1g.txIn gmiiIn txHandshake
  simp only [henable, Bool.true_and]
  cases hstream : s.txStream with
  | nil => simp
  | cons b rest =>
      obtain ⟨hdata, hlast⟩ := b.tdata_eq
      split
      · show some { data := b.tdata.setWidth 8, last := b.tdata.getLsbD 8 } = some b
        rw [hdata, hlast]
      · rfl

end Wrapper1gNet

/-- The bytes that the stack has written in the passes `ps`. -/
def netWords (pacing : U32) (ps : List PassIn) : List GmiiByte :=
  (((udpEchoMachine pacing).outs {} ps).map PassOut.tx).reduceOption

theorem netWords_snoc (pacing : U32) (ps : List PassIn) (i : PassIn) :
    netWords pacing (ps ++ [i])
      = netWords pacing ps ++ (udpEcho pacing (afterHistory pacing ps) i).2.tx.toList := by
  unfold netWords
  rw [outs_append]
  exact reduceOption_map_snoc _ _ _

/-- **The way of the bytes**: what the stack has written has left the bridge, or it stands in its FIFO,
or in the stream before it. -/
structure Wired (pacing : U32) (s : Wrapper1gNet) (ps : List PassIn) (words : List GmiiByte) : Prop where
  net : s.net = afterHistory pacing ps
  bridge : s.gmii.tx.Inv
  fits : s.gmii.tx.Fits words
  sent : netWords pacing ps = words ++ (s.gmii.tx.txFifo.contents ++ s.txStream)
  /-- The IP is in reset up to the first edge. -/
  held : if s.gmii.ipEnable then ∃ history more, ps = history ++ more
      ∧ (∀ i ∈ history, i.resetN = false) ∧ ∀ i ∈ more, i.resetN = true
    else s.txStream = [] ∧ ∀ i ∈ ps, i.resetN = false

section Wired

variable {pacing : U32} {s : Wrapper1gNet} {ps : List PassIn} {words : List GmiiByte}

/-- The bridge takes what the IP hands over, and nothing else. -/
theorem Wired.pushes (h : Wired pacing s ps words) (eRxd : U8) (eRxdv rxReady txValid : Bool) :
    s.gmii.tx.txPushWord (s.gmii.txIn (s.gmiiIn eRxd eRxdv rxReady txValid))
      = if s.txHandshake txValid then s.txStream.head? else none := by
  have hheld := h.held
  cases henable : s.gmii.ipEnable with
  | true => exact Wrapper1gNet.txPushWord_handshake henable eRxd eRxdv rxReady txValid
  | false =>
      -- nothing is offered before the first edge
      rw [henable, if_neg Bool.false_ne_true] at hheld
      unfold TxBridge.txPushWord TxBridge.txPush Wrapper1g.txIn Wrapper1gNet.txHandshake
      rw [henable, hheld.1]
      simp

theorem Wired.edge (h : Wired pacing s ps words) (eRxd : U8) (eRxdv rxReady txValid : Bool) :
    Wired pacing (s.next pacing (.edge eRxd eRxdv rxReady txValid)) ps
      (words ++ s.gmii.tx.txEmitWord.toList) := by
  have hconserves := h.bridge.conserves (s.gmii.txIn (s.gmiiIn eRxd eRxdv rxReady txValid))
  rw [h.pushes] at hconserves
  have hheld := h.held
  refine ⟨h.net, h.bridge.next _, h.fits.next h.bridge _, ?_, ?_⟩
  · rw [h.sent]
    show _ = _ ++ _ ++ ((s.gmii.tx.next (s.gmii.txIn _)).txFifo.contents
      ++ (if s.txHandshake txValid then s.txStream.tail else s.txStream))
    cases hshake : s.txHandshake txValid with
    | true =>
        obtain ⟨b, rest, hstream⟩ := Wrapper1gNet.txStream_of_handshake hshake
        rw [hshake, if_pos rfl, hstream, List.head?_cons, Option.toList_some] at hconserves
        rw [if_pos rfl, hstream, List.tail_cons, List.append_assoc, ← List.append_assoc _ _ rest,
          ← hconserves]
        simp
    | false =>
        rw [hshake, if_neg Bool.false_ne_true, Option.toList_none, List.append_nil] at hconserves
        rw [if_neg Bool.false_ne_true, hconserves]
        simp
  · show if true then _ else _
    rw [if_pos rfl]
    cases henable : s.gmii.ipEnable with
    | true =>
        rw [henable, if_pos rfl] at hheld
        exact hheld
    | false =>
        rw [henable, if_neg Bool.false_ne_true] at hheld
        exact ⟨ps, [], (List.append_nil _).symm, hheld.2, nofun⟩

theorem Wired.pass (h : Wired pacing s ps words) (finds : Bool) (uninit : Uninit) (msgRoom : Nat) :
    Wired pacing (s.next pacing (.pass finds uninit msgRoom)) (ps ++ [s.passIn finds uninit msgRoom]) words := by
  have hheld := h.held
  refine ⟨?_, h.bridge, h.fits, ?_, ?_⟩
  · show (udpEcho pacing s.net _).1 = _
    unfold afterHistory
    rw [after_append, h.net]
    rfl
  · rw [netWords_snoc, h.sent, ← h.net]
    show _ = words ++ (s.gmii.tx.txFifo.contents ++ (s.txStream ++ _))
    simp
  · show if s.gmii.ipEnable then _ else _
    cases henable : s.gmii.ipEnable with
    | true =>
        rw [henable, if_pos rfl] at hheld
        obtain ⟨history, more, rfl, hhistory, hmore⟩ := hheld
        refine ⟨history, more ++ [s.passIn finds uninit msgRoom], by simp, hhistory, fun i hi => ?_⟩
        rcases List.mem_append.mp hi with hi | hi
        · exact hmore i hi
        · rw [List.mem_singleton.mp hi]
          exact henable
    | false =>
        rw [henable, if_neg Bool.false_ne_true] at hheld
        have hreset : (s.passIn finds uninit msgRoom).resetN = false := henable
        refine ⟨?_, fun i hi => ?_⟩
        · show s.txStream ++ _ = []
          rw [hheld.1, (udpEcho_held pacing s.net hreset).1]
          rfl
        · rcases List.mem_append.mp hi with hi | hi
          · exact hheld.2 i hi
          · rw [List.mem_singleton.mp hi]
            exact hreset

/-- What the stack has written is cut into frames of the board. -/
theorem Wired.frames (h : Wired pacing s ps words) :
    ∀ symbols ∈ (cutFrames GmiiByte.last (netWords pacing ps)).1, ∃ f, BoardFrame symbols f := by
  intro symbols hsymbols
  have hheld := h.held
  cases henable : s.gmii.ipEnable with
  | false =>
      rw [henable, if_neg Bool.false_ne_true] at hheld
      unfold netWords at hsymbols
      rw [(afterHistory_held pacing ps hheld.2).1] at hsymbols
      cases hsymbols
  | true =>
      rw [henable, if_pos rfl] at hheld
      obtain ⟨history, more, rfl, hhistory, hmore⟩ := hheld
      obtain ⟨hsilent, hidle⟩ := afterHistory_held pacing history hhistory
      unfold netWords at hsymbols
      rw [outs_append, List.map_append, List.reduceOption_append, hsilent, List.nil_append] at hsymbols
      exact ((txFrames_run pacing hidle hmore).1 symbols hsymbols).boardFrame

/-- What has left the bridge are the first frames of the stack, none of them longer than the FIFO, and
while the bridge drains, a part of the next one. -/
theorem Wired.cut (h : Wired pacing s ps words) :
    let stack := (cutFrames GmiiByte.last (netWords pacing ps)).1
    (cutFrames GmiiByte.last words).1 <+: stack.takeWhile (·.length ≤ 1900)
      ∧ (s.gmii.tx.txDraining = true → ∃ q, q ≠ [] ∧ (cutFrames GmiiByte.last words).2 ++ q ∈ stack) := by
  intro stack
  have hgrow := cutFrames_grow GmiiByte.last (⟨_, h.sent.symm⟩ : words <+: netWords pacing ps)
  constructor
  · obtain ⟨more, hmore⟩ := hgrow
    show _ <+: (cutFrames GmiiByte.last (netWords pacing ps)).1.takeWhile _
    rw [← hmore, List.takeWhile_append_of_pos (by simpa using h.fits.frames)]
    exact List.prefix_append _ _
  · intro hdrain
    obtain ⟨q, hne, ⟨rest, hrest⟩, hframe, -⟩ := h.fits.rest hdrain
    refine ⟨q, hne, ?_⟩
    have hframes : ∀ f ∈ (cutFrames GmiiByte.last words).1 ++ [(cutFrames GmiiByte.last words).2 ++ q],
        Delimited GmiiByte.last f := by
      intro f hf
      rcases List.mem_append.mp hf with hf | hf
      · exact (cutFrames_delimited GmiiByte.last words).1 f hf
      · rw [List.mem_singleton.mp hf]
        exact hframe
    have hsent : netWords pacing ps
        = ((cutFrames GmiiByte.last words).1 ++ [(cutFrames GmiiByte.last words).2 ++ q]).flatten
          ++ (rest ++ s.txStream) := by
      rw [h.sent, ← hrest]
      conv_lhs => rw [← cutFrames_flatten GmiiByte.last words]
      simp
    show _ ∈ (cutFrames GmiiByte.last (netWords pacing ps)).1
    rw [hsent, cutFrames_append hframes]
    simp

end Wired

/-! ## §2. The demo frame. -/

/-- A broadcast ARP request of 192.168.0.2 for 192.168.0.3.  It has the MAC of the board, but not
its IP. -/
def demoFrame : List U8 :=
  ethernetFrame broadcastMac boardMac [] ethertypeArp
    ([0x00, 0x01, 0x08, 0x00, 6, 4, 0x00, 0x01] ++ boardMacBytes ++ [192, 168, 0, 2]
      ++ List.replicate 6 0xFF ++ [192, 168, 0, 3])

/-- `demo_crc` while byte `k` is on the wire. -/
def demoCrcAt : Nat → U32
  | 0 => 0xFFFFFFFF
  | k + 1 => if 8 ≤ k ∧ k < 68 then ethCrc32 (demoCrcAt k) (demoByte (BitVec.ofNat 7 k)) else demoCrcAt k

/-- The demo generator while byte `k` is on the wire. -/
def DemoGen.sendingAt (demoCnt : BitVec 27) (k : Nat) : DemoGen :=
  { demoCnt, demoIdx := BitVec.ofNat 7 k, demoSending := true, demoCrc := demoCrcAt k }

theorem length_demoFrame : demoFrame.length = 72 := by decide +kernel

/-- The byte on the wire is that of the frame, the FCS included. -/
theorem demoOut_sendingAt (demoCnt : BitVec 27) {k : Nat} (hk : k < 72) :
    (DemoGen.sendingAt demoCnt k).demoOut = demoFrame.getD k 0 := by
  have hall : ∀ k : Fin 72, (DemoGen.sendingAt 0 k).demoOut = demoFrame.getD k 0 := by decide +kernel
  exact hall ⟨k, hk⟩

/-- One byte further. -/
theorem sendingAt_next (demoCnt : BitVec 27) {k : Nat} (hk : k < 71) :
    ∃ demoCnt', (DemoGen.sendingAt demoCnt k).next false = .sendingAt demoCnt' (k + 1) := by
  refine ⟨if 124999999 ≤ demoCnt then 0 else demoCnt + 1, ?_⟩
  have hidx : (BitVec.ofNat 7 k).toNat = k := by
    rw [BitVec.toNat_ofNat]
    omega
  have hmore : (BitVec.ofNat 7 k == 71) = false := by
    rw [beq_eq_false_iff_ne]
    intro h
    have := congrArg BitVec.toNat h
    rw [hidx] at this
    change k = 71 at this
    omega
  have hrange : (8 ≤ BitVec.ofNat 7 k ∧ BitVec.ofNat 7 k < 68) ↔ 8 ≤ k ∧ k < 68 := by
    rw [BitVec.le_def, BitVec.lt_def, hidx]
    rfl
  unfold DemoGen.next DemoGen.demoStarts DemoGen.sendingAt
  simp only [Bool.not_true, Bool.and_false, Bool.false_eq_true, if_false, if_true, hmore, hrange,
    demoCrcAt, Bool.not_false, BitVec.ofNat_add]
  rfl

theorem demoFrame_boardFrame : ∃ f, BoardFrame (gmiiFrame demoFrame) f :=
  ⟨_, boardFrame_ethernetFrame _ (.inl rfl) _⟩

/-! ## §3. One edge. -/

/-- The end of a frame on the wire. -/
def phyLast (b : Driver × GmiiByte) : Bool := b.2.last

/-- Symbols that `d` drives. -/
def driven (d : Driver) (symbols : List GmiiByte) : List (Driver × GmiiByte) := symbols.map (d, ·)

theorem driven_append (d : Driver) (l l' : List GmiiByte) : driven d (l ++ l') = driven d l ++ driven d l' :=
  List.map_append

/-- A whole frame: of the bridge, or the demo frame. -/
def WholeFrame : Driver × List GmiiByte → Prop
  | (.bridge, symbols) => Delimited GmiiByte.last symbols
  | (.demo, symbols) => symbols = gmiiFrame demoFrame

/-- The wire is free or the bridge's, and `part` of a frame is out; or the demo generator is sending. -/
def OnPhy (s : Wrapper1g) (part : List (Driver × GmiiByte)) : Prop :=
  ¬ s.Collides ∧
    ((s.demo.demoSending = false ∧ ∃ p : List GmiiByte, part = driven .bridge p
        ∧ (∀ b ∈ p, b.last = false) ∧ (s.tx.txDraining = false → p = []))
      ∨ ∃ demoCnt k, k < 72 ∧ s.demo = .sendingAt demoCnt k
        ∧ part = driven .demo ((gmiiFrame demoFrame).take k))

variable {s : Wrapper1g} {part : List (Driver × GmiiByte)}

/-- **One edge** goes on with the frame on the wire, unless the bridge starts into a demo frame. -/
theorem OnPhy.next (h : OnPhy s part) (i : Wrapper1gIn)
    (hstart : s.tx.txStarts = true → s.demoOnWire = false) :
    Continues phyLast (fun l => ∃ frame, WholeFrame frame ∧ l = driven frame.1 frame.2)
      (OnPhy (s.next i)) part s.phyTx := by
  obtain ⟨hcollides, hpart⟩ := h
  have hapart : ¬ (s.next i).Collides := by
    rw [Wrapper1g.collides_next i hcollides]
    rintro ⟨hstarts, hwire⟩
    rw [hstart hstarts] at hwire
    cases hwire
  have hdemo : (s.next i).demo = s.demo.next s.tx.txDraining := rfl
  have hfree : (s.next i).demo.demoSending = false → OnPhy (s.next i) [] :=
    fun hidle => ⟨hapart, .inl ⟨hidle, [], rfl, nofun, fun _ => rfl⟩⟩
  rcases hpart with ⟨hidle, p, rfl, hp, hquiet⟩ | ⟨demoCnt, k, hk, hat, rfl⟩
  · have hphy : s.phyTx = s.tx.txEmitWord.map fun w => (Driver.bridge, w) := by
      unfold Wrapper1g.phyTx
      rw [hidle]
      rfl
    rw [hphy]
    unfold TxBridge.txEmitWord
    cases hdrain : s.tx.txDraining with
    | false =>
        -- nothing on the wire; a demo frame may begin
        rw [hquiet hdrain]
        show OnPhy (s.next i) []
        cases htick : s.demo.demoTick with
        | false =>
            apply hfree
            rw [hdemo, DemoGen.demoSending_next, hidle, htick]
            rfl
        | true =>
            refine ⟨hapart, .inr ⟨if 124999999 ≤ s.demo.demoCnt then 0 else s.demo.demoCnt + 1, 0,
              by decide, ?_, rfl⟩⟩
            rw [hdemo, hdrain]
            unfold DemoGen.next DemoGen.demoStarts
            rw [hidle, htick]
            rfl
    | true =>
        have hidle' : (s.next i).demo.demoSending = false := by
          rw [hdemo, DemoGen.demoSending_next, hidle, hdrain]
          simp
        have hout : driven .bridge p ++ [(.bridge, s.tx.txFifo.front)]
            = driven .bridge (p ++ [s.tx.txFifo.front]) := by
          rw [driven_append]
          rfl
        show if s.tx.txFifo.front.last then _ else _
        cases hlast : s.tx.txFifo.front.last with
        | true =>
            rw [if_pos rfl, hout]
            exact ⟨⟨(.bridge, _), ⟨p, _, rfl, hp, hlast⟩, rfl⟩, hfree hidle'⟩
        | false =>
            rw [if_neg Bool.false_ne_true, hout]
            refine ⟨hapart, .inl ⟨hidle', _, rfl, fun b hb => ?_, fun hstops => ?_⟩⟩
            · rcases List.mem_append.mp hb with hb | hb
              · exact hp b hb
              · rw [List.mem_singleton.mp hb]
                exact hlast
            · -- inside a frame the bridge goes on
              have hgoes : (s.next i).tx.txDraining = true := TxBridge.draining_of_not_last _ hdrain hlast
              rw [hgoes] at hstops
              cases hstops
  · have hsending : s.demo.demoSending = true := by
      rw [hat]
      rfl
    have hdrain : s.tx.txDraining = false := by
      by_contra hdrain
      exact hcollides ⟨hsending, by simpa using hdrain⟩
    have hidx : s.demo.demoIdx.toNat = k := by
      rw [hat]
      show (BitVec.ofNat 7 k).toNat = k
      rw [BitVec.toNat_ofNat]
      omega
    have hend : (s.demo.demoIdx == 71) = (k + 1 == demoFrame.length) := by
      rw [length_demoFrame, Bool.eq_iff_iff, beq_iff_eq, beq_iff_eq, ← BitVec.toNat_inj, hidx]
      show k = 71 ↔ _
      omega
    have hlen : k < demoFrame.length := by
      rw [length_demoFrame]
      exact hk
    have hphy : s.phyTx
        = some (.demo, { data := demoFrame.getD k 0, last := k + 1 == demoFrame.length }) := by
      unfold Wrapper1g.phyTx
      rw [if_pos hsending, hend, hat, demoOut_sendingAt _ hk]
    have hsymbol : (gmiiFrame demoFrame)[k]?
        = some { data := demoFrame.getD k 0, last := k + 1 == demoFrame.length } := by
      rw [gmiiFrame_getElem?, List.getElem?_eq_getElem hlen, List.getD_eq_getElem _ _ hlen]
      rfl
    have hout : driven .demo ((gmiiFrame demoFrame).take k)
          ++ [(.demo, { data := demoFrame.getD k 0, last := k + 1 == demoFrame.length })]
        = driven .demo ((gmiiFrame demoFrame).take (k + 1)) := by
      rw [List.take_add_one, hsymbol, driven_append]
      rfl
    rw [hphy]
    show if (k + 1 == demoFrame.length) then _ else _
    rw [hout]
    by_cases hall : k + 1 = demoFrame.length
    · rw [if_pos (by simpa using hall)]
      refine ⟨⟨(.demo, _), rfl, ?_⟩, hfree ?_⟩
      · rw [hall, ← length_gmiiFrame, List.take_length]
      · rw [hdemo, DemoGen.demoSending_next, hsending, if_pos rfl, hend]
        simpa using hall
    · rw [if_neg (by simpa using hall)]
      rw [length_demoFrame] at hall
      obtain ⟨demoCnt', hnext⟩ := sendingAt_next demoCnt (show k < 71 by omega)
      refine ⟨hapart, .inr ⟨demoCnt', k + 1, by omega, ?_, rfl⟩⟩
      rw [hdemo, hdrain, hat, hnext]

/-- A wire without a byte is not inside a frame. -/
theorem OnPhy.silent (h : OnPhy s part) (hphy : s.phyTx = none) : part = [] := by
  unfold Wrapper1g.phyTx TxBridge.txEmitWord at hphy
  rcases h.2 with ⟨hidle, p, rfl, -, hquiet⟩ | ⟨demoCnt, k, -, hat, -⟩
  · cases hdrain : s.tx.txDraining with
    | false =>
        rw [hquiet hdrain]
        rfl
    | true =>
        rw [hidle, hdrain] at hphy
        cases hphy
  · rw [hat] at hphy
    cases hphy

/-- What the bridge drives. -/
def ofBridge {α : Type} (l : List (Driver × α)) : List α := (l.filter fun b => b.1 == .bridge).map Prod.snd

theorem ofBridge_append {α : Type} (l l' : List (Driver × α)) :
    ofBridge (l ++ l') = ofBridge l ++ ofBridge l' := by
  unfold ofBridge
  rw [List.filter_append, List.map_append]

theorem ofBridge_driven (d : Driver) (symbols : List GmiiByte) :
    ofBridge (driven d symbols) = if d = .bridge then symbols else [] := by
  unfold ofBridge driven
  cases d with
  | bridge =>
      rw [List.filter_eq_self.mpr (by simp), List.map_map]
      exact List.map_id _
  | demo =>
      rw [List.filter_eq_nil_iff.mpr (by simp)]
      rfl

/-- Frames in a row. -/
theorem ofBridge_flatten (frames : List (Driver × List GmiiByte)) :
    ofBridge (frames.map fun f => driven f.1 f.2).flatten = (ofBridge frames).flatten := by
  induction frames with
  | nil => rfl
  | cons f frames ih =>
      obtain ⟨d, symbols⟩ := f
      rw [List.map_cons, List.flatten_cons, ofBridge_append, ih, ofBridge_driven]
      cases d <;> rfl

theorem exists_frames {ls : List (List (Driver × GmiiByte))}
    (h : ∀ l ∈ ls, ∃ frame, WholeFrame frame ∧ l = driven frame.1 frame.2) :
    ∃ frames : List (Driver × List GmiiByte), (∀ f ∈ frames, WholeFrame f)
      ∧ ls = frames.map fun f => driven f.1 f.2 := by
  induction ls with
  | nil => exact ⟨[], nofun, rfl⟩
  | cons l ls ih =>
      obtain ⟨frame, hframe, rfl⟩ := h l List.mem_cons_self
      obtain ⟨frames, hframes, rfl⟩ := ih fun l' hl' => h l' (List.mem_cons_of_mem _ hl')
      exact ⟨frame :: frames, List.forall_mem_cons.mpr ⟨hframe, hframes⟩, rfl⟩

/-- The whole frames of the bridge. -/
theorem delimited_ofBridge {frames : List (Driver × List GmiiByte)} (h : ∀ f ∈ frames, WholeFrame f) :
    ∀ symbols ∈ ofBridge frames, Delimited GmiiByte.last symbols := by
  intro symbols hsymbols
  unfold ofBridge at hsymbols
  obtain ⟨⟨d, _⟩, hf, rfl⟩ := List.mem_map.mp hsymbols
  obtain ⟨hmem, hd⟩ := List.mem_filter.mp hf
  rw [beq_iff_eq] at hd
  subst hd
  exact h _ hmem

/-- Every word that leaves the bridge is on the wire. -/
theorem ofBridge_phyTx (h : ¬ s.Collides) : ofBridge s.phyTx.toList = s.tx.txEmitWord.toList := by
  unfold Wrapper1g.phyTx
  cases hsending : s.demo.demoSending with
  | true =>
      have hquiet : s.tx.txDraining = false := by
        by_contra hdrain
        exact h ⟨hsending, by simpa using hdrain⟩
      rw [if_pos rfl]
      unfold TxBridge.txEmitWord
      rw [hquiet]
      rfl
  | false =>
      rw [if_neg Bool.false_ne_true]
      cases s.tx.txEmitWord <;> rfl

/-! ## §4. Runs. -/

/-- What a run puts on the wire, and what the IP writes in it. -/
def onPhy (os : List Wrapper1gNetOut) : List (Driver × GmiiByte) := (os.map Wrapper1gNetOut.phyTx).reduceOption
def written (os : List Wrapper1gNetOut) : List GmiiByte := (os.map Wrapper1gNetOut.netTx).reduceOption

theorem onPhy_snoc (os : List Wrapper1gNetOut) (o : Wrapper1gNetOut) :
    onPhy (os ++ [o]) = onPhy os ++ o.phyTx.toList := reduceOption_map_snoc _ os o

theorem written_snoc (os : List Wrapper1gNetOut) (o : Wrapper1gNetOut) :
    written (os ++ [o]) = written os ++ o.netTx.toList := reduceOption_map_snoc _ os o

/-- The bridge does not start on this edge into a demo frame. -/
def StartsApart (s : Wrapper1gNet) : Wrapper1gNetIn → Prop
  | .edge .. => s.gmii.tx.txStarts = true → s.gmii.demoOnWire = false
  | .pass .. => True

instance (s : Wrapper1gNet) (i : Wrapper1gNetIn) : Decidable (StartsApart s i) :=
  match i with
  | .edge .. => inferInstanceAs (Decidable (_ → _))
  | .pass .. => .isTrue trivial

/-- **The board in a run**: every byte of the stack is on its way, and the wire carries frames. -/
structure OnBoard (pacing : U32) (s : Wrapper1gNet) (os : List Wrapper1gNetOut) : Prop where
  wired : ∃ ps, Wired pacing s ps (ofBridge (onPhy os)) ∧ netWords pacing ps = written os
  whole : ∀ l ∈ (cutFrames phyLast (onPhy os)).1, ∃ frame, WholeFrame frame ∧ l = driven frame.1 frame.2
  part : OnPhy s.gmii (cutFrames phyLast (onPhy os)).2

theorem OnBoard.step {pacing : U32} {s : Wrapper1gNet} {os : List Wrapper1gNetOut} (h : OnBoard pacing s os)
    (i : Wrapper1gNetIn) (hi : StartsApart s i) :
    OnBoard pacing (wrapper1gNet pacing s i).1 (os ++ [(wrapper1gNet pacing s i).2]) := by
  obtain ⟨ps, hwired, hwritten⟩ := h.wired
  cases i with
  | edge eRxd eRxdv rxReady txValid =>
      obtain ⟨hwhole, hpart⟩ := Continues.cut h.whole (h.part.next (s.gmiiIn eRxd eRxdv rxReady txValid) hi)
      have hphy : onPhy (os ++ [(wrapper1gNet pacing s (.edge eRxd eRxdv rxReady txValid)).2])
          = onPhy os ++ s.gmii.phyTx.toList := onPhy_snoc os _
      have hnet : written (os ++ [(wrapper1gNet pacing s (.edge eRxd eRxdv rxReady txValid)).2])
          = written os ++ [] := written_snoc os _
      refine ⟨⟨ps, ?_, ?_⟩, ?_, ?_⟩
      · rw [hphy, ofBridge_append, ofBridge_phyTx h.part.1]
        exact hwired.edge eRxd eRxdv rxReady txValid
      · rw [hnet, List.append_nil, hwritten]
      · rw [hphy]
        exact hwhole
      · rw [hphy]
        exact hpart
  | pass finds uninit msgRoom =>
      have hphy : onPhy (os ++ [(wrapper1gNet pacing s (.pass finds uninit msgRoom)).2]) = onPhy os := by
        rw [onPhy_snoc]
        exact List.append_nil _
      refine ⟨⟨ps ++ [s.passIn finds uninit msgRoom], ?_, ?_⟩, ?_, ?_⟩
      · rw [hphy]
        exact hwired.pass finds uninit msgRoom
      · rw [netWords_snoc, hwritten, ← hwired.net, written_snoc]
        rfl
      · rw [hphy]
        exact h.whole
      · rw [hphy]
        exact h.part

/-- Up to now. -/
theorem onBoard_run {pacing : U32} (w : Wrapper1g) (is : List Wrapper1gNetIn)
    (hapart : Along (wrapper1gNet pacing) StartsApart (.start w) is) :
    OnBoard pacing ((wrapper1gNet pacing).after (.start w) is) ((wrapper1gNet pacing).outs (.start w) is) := by
  have hstart : OnBoard pacing (.start w) [] := by
    refine ⟨⟨[], ⟨rfl, w.tx.inv_reset, w.tx.inv_reset.between nofun rfl, ?_, rfl, nofun⟩, rfl⟩, nofun, nofun,
      .inl ⟨rfl, [], rfl, nofun, fun _ => rfl⟩⟩
    show [] = [] ++ (w.tx.txFifo.clear.contents ++ [])
    rw [Ring.contents_clear]
    rfl
  exact Along.invariant_io (P := fun t _ os => OnBoard pacing t os) (fun t _ _ i h hi => h.step i hi) [] [] is
    hstart hapart

/-- What the bridge has put on the wire, cut into frames. -/
theorem OnBoard.frames {pacing : U32} {s : Wrapper1gNet} {os : List Wrapper1gNetOut} (h : OnBoard pacing s os) :
    ∃ frames : List (Driver × List GmiiByte), (∀ f ∈ frames, WholeFrame f)
      ∧ (cutFrames phyLast (onPhy os)).1 = frames.map (fun f => driven f.1 f.2)
      ∧ cutFrames GmiiByte.last (ofBridge (onPhy os))
        = (ofBridge frames, ofBridge (cutFrames phyLast (onPhy os)).2) := by
  obtain ⟨frames, hframes, hwire⟩ := exists_frames h.whole
  refine ⟨frames, hframes, hwire, ?_⟩
  have hplain : ∀ y ∈ ofBridge (cutFrames phyLast (onPhy os)).2, y.last = false := by
    intro y hy
    unfold ofBridge at hy
    obtain ⟨b, hb, rfl⟩ := List.mem_map.mp hy
    exact (cutFrames_delimited phyLast (onPhy os)).2 b (List.mem_filter.mp hb).1
  have hwords : ofBridge (onPhy os)
      = (ofBridge frames).flatten ++ ofBridge (cutFrames phyLast (onPhy os)).2 := by
    conv_lhs => rw [← cutFrames_flatten phyLast (onPhy os)]
    rw [ofBridge_append, hwire, ofBridge_flatten]
  rw [hwords]
  exact cutFrames_frames (delimited_ofBridge hframes) hplain

/-- **What the board puts on the wire.**  Whatever arrives, and however edges and passes follow each
other, if the bridge does not start into a demo frame, then the wire is cut into Ethernet frames
that a host reads: the demo frame, and the first frames of the stack in its order.  The cut is at the
last marks of the bridge and at byte 71 of the demo frame, which the pins do not carry.  A frame of
more than 1900 bytes is not among them, and none behind it.  Behind the last of them stands a part
of such a frame, and an edge without a byte is never inside one. -/
theorem wire_carries_frames (pacing : U32) (w : Wrapper1g) (is : List Wrapper1gNetIn)
    (hapart : Along (wrapper1gNet pacing) StartsApart (.start w) is) :
    let os := (wrapper1gNet pacing).outs (.start w) is
    let wire := cutFrames phyLast (onPhy os)
    let stack := (cutFrames GmiiByte.last (written os)).1
    (∃ frames : List (Driver × List GmiiByte), wire.1 = frames.map (fun f => driven f.1 f.2)
        ∧ ofBridge frames <+: stack.takeWhile (·.length ≤ 1900)
        ∧ ∀ f ∈ frames, (∃ h, BoardFrame f.2 h) ∧ (f.1 = .demo → f.2 = gmiiFrame demoFrame))
      ∧ (wire.2 ≠ [] → ∃ d symbols, (∃ h, BoardFrame symbols h) ∧ (d = .bridge → symbols ∈ stack)
          ∧ (d = .demo → symbols = gmiiFrame demoFrame)
          ∧ wire.2 <+: driven d symbols ∧ wire.2.length < symbols.length)
      ∧ ∀ front eRxd eRxdv rxReady txValid back, is = front ++ .edge eRxd eRxdv rxReady txValid :: back →
          ((wrapper1gNet pacing).after (.start w) front).gmii.phyTx = none →
            (cutFrames phyLast (onPhy ((wrapper1gNet pacing).outs (.start w) front))).2 = [] := by
  intro os wire stack
  have hboard := onBoard_run w is hapart
  obtain ⟨ps, hwired, hwritten⟩ := hboard.wired
  obtain ⟨frames, hframes, hwire, hcut⟩ := hboard.frames
  have hstack : ∀ symbols ∈ stack, ∃ h, BoardFrame symbols h := by
    have h := hwired.frames
    rwa [hwritten] at h
  obtain ⟨horder, hnext⟩ := hwired.cut
  rw [hwritten, hcut] at horder hnext
  refine ⟨⟨frames, hwire, horder, fun f hf => ?_⟩, fun hne => ?_, ?_⟩
  · obtain ⟨d, symbols⟩ := f
    cases d with
    | bridge =>
        have hmem : symbols ∈ ofBridge frames := by
          unfold ofBridge
          exact List.mem_map.mpr ⟨(.bridge, symbols), List.mem_filter.mpr ⟨hf, rfl⟩, rfl⟩
        exact ⟨hstack _ ((List.takeWhile_prefix _).mem (horder.mem hmem)), nofun⟩
    | demo =>
        have hdemo : symbols = gmiiFrame demoFrame := hframes _ hf
        refine ⟨?_, fun _ => hdemo⟩
        rw [hdemo]
        exact demoFrame_boardFrame
  · rcases hboard.part.2 with ⟨-, p, hp, -, hquiet⟩ | ⟨demoCnt, k, hk, -, hp⟩
    · have hdrain : ((wrapper1gNet pacing).after (.start w) is).gmii.tx.txDraining = true := by
        by_contra hdrain
        rw [hquiet (by simpa using hdrain)] at hp
        exact hne hp
      obtain ⟨q, hq, hmem⟩ := hnext hdrain
      have hofp : ofBridge (cutFrames phyLast (onPhy os)).2 = p := by
        rw [hp, ofBridge_driven, if_pos rfl]
      rw [hofp] at hmem
      refine ⟨.bridge, p ++ q, hstack _ hmem, fun _ => hmem, nofun, ⟨driven .bridge q, ?_⟩, ?_⟩
      · rw [driven_append]
        exact congrArg (· ++ _) hp
      · show (cutFrames phyLast (onPhy os)).2.length < _
        rw [hp, List.length_append]
        unfold driven
        rw [List.length_map]
        exact Nat.lt_add_of_pos_right (List.length_pos_of_ne_nil hq)
    · refine ⟨.demo, gmiiFrame demoFrame, demoFrame_boardFrame, nofun, fun _ => rfl, ?_, ?_⟩
      · show (cutFrames phyLast (onPhy os)).2 <+: _
        rw [hp]
        exact (List.take_prefix _ _).map _
      · show (cutFrames phyLast (onPhy os)).2.length < _
        rw [hp]
        unfold driven
        rw [List.length_map, List.length_take, length_gmiiFrame, length_demoFrame]
        omega
  · intro front eRxd eRxdv rxReady txValid back hsplit hphy
    have hfront := (Along.append.mp (hsplit ▸ hapart)).1
    exact (onBoard_run w front hfront).part.silent hphy

/-- The first edge comes behind a pass; 80 passes write the periodic frame, and it leaves on the edges
behind them. -/
def helloRun : List Wrapper1gNetIn :=
  let pass := .pass false .zero 0
  let edge := .edge 0 false true true
  pass :: edge :: (List.replicate 80 pass ++ List.replicate 160 edge)

theorem wire_carries_frames_hello :
    let os := (wrapper1gNet 1).outs (.start .init) helloRun
    let wire := cutFrames phyLast (onPhy os)
    wire.1.length = 1
      ∧ ∃ frames : List (Driver × List GmiiByte), wire.1 = frames.map (fun f => driven f.1 f.2)
        ∧ ofBridge frames <+: (cutFrames GmiiByte.last (written os)).1.takeWhile (·.length ≤ 1900)
        ∧ ∀ f ∈ frames, (∃ h, BoardFrame f.2 h) ∧ (f.1 = .demo → f.2 = gmiiFrame demoFrame) := by
  have hapart : Along (wrapper1gNet 1) StartsApart (.start .init) helloRun := by decide +kernel
  exact ⟨by decide +kernel, (wire_carries_frames 1 .init helloRun hapart).1⟩

end GigabitTcp
