/-
  GigabitTcp.Stack.InFlight — the words of a frame while it waits and while it is sent.

  A builder writes its frame to the buffer and posts a request; MAC TX latches the request
  when it comes back to IDLE and then reads the words one by one, hundreds of passes after
  they were written.  UDP TX and TCP maintenance keep still until MAC TX is done.  A frame
  that arrives meanwhile is processed at once, and DHCP TX looks at the mailbox only.

  Main results:
    * `frames_intact`  — if reception stays inside its arrays and no pass writes to words that
      are still needed, every frame goes out with the bytes its builder wrote,
    * `frame_clobbered` — two ARP requests in a row, of which the second changes the reply to
      the first while it is sent.
-/
import GigabitTcp.Stack.DhcpReply
import GigabitTcp.Stack.Mailbox
import GigabitTcp.Stack.Regions

namespace GigabitTcp

open Hw Machine

/-! ## §1. What DHCP TX writes. -/

/-- The words of a DHCP frame. -/
abbrev DhcpWrites (m m' : Mem U32) : Prop := Mem.ChangesOnly dhcpFrameBase (dhcpFrameBase + 82) m m'

theorem dhcpWriteByte_writes (m : Mem U32) {off : Nat} (h : off < 300) (val : U8) :
    DhcpWrites m (dhcpWriteByte m off val) := by
  unfold dhcpWriteByte
  exact (Mem.set_changesOnly _ _ _).mono
    (by show 384 ≤ 384 + 7 + off / 4; omega) (by show 384 + 7 + off / 4 + 1 ≤ 384 + 82; omega)

theorem dhcpWriteBytes_writes : ∀ (l : List U8) (m : Mem U32) (off : Nat), off + l.length ≤ 300 →
    DhcpWrites m (l.foldl (fun (b : Mem U32 × Nat) v => (dhcpWriteByte b.1 b.2 v, b.2 + 1)) (m, off)).1
      ∧ (l.foldl (fun (b : Mem U32 × Nat) v => (dhcpWriteByte b.1 b.2 v, b.2 + 1)) (m, off)).2
        = off + l.length
  | [], m, off, _ => ⟨Mem.ChangesOnly.refl _ _ m, rfl⟩
  | v :: l, m, off, h => by
      rw [List.length_cons] at h
      obtain ⟨hwrites, hoff⟩ := dhcpWriteBytes_writes l (dhcpWriteByte m off v) (off + 1) (by omega)
      refine ⟨(dhcpWriteByte_writes m (by omega) v).trans hwrites, hoff.trans ?_⟩
      rw [List.length_cons]
      omega

/-- The bytes an option takes. -/
def dhcpOptBytes (o : U8 × U8 × List U8) : Nat := 2 + (o.2.2.take o.2.1.toNat).length

theorem dhcpWriteOpt_writes (m : Mem U32) (off : Nat) (o : U8 × U8 × List U8)
    (h : off + dhcpOptBytes o ≤ 300) :
    DhcpWrites m (dhcpWriteOpt m off o.1 o.2.1 o.2.2).1
      ∧ (dhcpWriteOpt m off o.1 o.2.1 o.2.2).2 = off + dhcpOptBytes o := by
  unfold dhcpOptBytes at h ⊢
  obtain ⟨hwrites, hoff⟩ := dhcpWriteBytes_writes (o.2.2.take o.2.1.toNat)
    (dhcpWriteByte (dhcpWriteByte m off o.1) (off + 1) o.2.1) (off + 2) (by omega)
  unfold dhcpWriteOpt
  refine ⟨?_, hoff.trans (by omega)⟩
  exact ((dhcpWriteByte_writes m (by omega) _).trans (dhcpWriteByte_writes _ (by omega) _)).trans hwrites

theorem dhcpWriteOptList_writes : ∀ (opts : List (U8 × U8 × List U8)) (b : Mem U32 × Nat),
    b.2 + (opts.map dhcpOptBytes).sum ≤ 300 →
    DhcpWrites b.1 (opts.foldl (fun (b : Mem U32 × Nat) o => dhcpWriteOpt b.1 b.2 o.1 o.2.1 o.2.2) b).1
      ∧ (opts.foldl (fun (b : Mem U32 × Nat) o => dhcpWriteOpt b.1 b.2 o.1 o.2.1 o.2.2) b).2
        = b.2 + (opts.map dhcpOptBytes).sum
  | [], b, _ => ⟨Mem.ChangesOnly.refl _ _ b.1, rfl⟩
  | o :: opts, b, h => by
      rw [List.map_cons, List.sum_cons] at h ⊢
      obtain ⟨hwrites, hoff⟩ := dhcpWriteOpt_writes b.1 b.2 o (by omega)
      obtain ⟨hrest, hend⟩ := dhcpWriteOptList_writes opts (dhcpWriteOpt b.1 b.2 o.1 o.2.1 o.2.2)
        (by omega)
      rw [List.foldl_cons]
      exact ⟨hwrites.trans hrest, by omega⟩

theorem dhcpBuildHeader_writes (m : Mem U32) (op : U8) (xid ciaddr : U32) :
    DhcpWrites m (dhcpBuildHeader m op xid ciaddr) := by
  have hset : ∀ (m : Mem U32) (j : Nat) (v : U32), j < 75 → DhcpWrites m (m.set (dhcpBufBase + j) v) :=
    fun m j v hj => (Mem.set_changesOnly m _ v).mono
      (by show 384 ≤ 384 + 7 + j; omega) (by show 384 + 7 + j + 1 ≤ 384 + 82; omega)
  have hclear : DhcpWrites m (m.fill dhcpBufBase dhcpBufWords (fun _ => 0)) :=
    (Mem.fill_changesOnly _ _ _ _).mono (by decide) (by decide)
  unfold dhcpBuildHeader
  dsimp only
  refine Mem.ChangesOnly.trans ?_ (hset _ 59 _ (by omega))
  refine Mem.ChangesOnly.trans ?_ (hset _ 8 _ (by omega))
  refine Mem.ChangesOnly.trans ?_ (hset _ 7 _ (by omega))
  refine Mem.ChangesOnly.trans ?_ (hset _ 3 _ (by omega))
  refine Mem.ChangesOnly.trans ?_ (hset _ 2 _ (by omega))
  refine Mem.ChangesOnly.trans ?_ (hset _ 1 _ (by omega))
  exact hclear.trans (hset _ 0 _ (by omega))

theorem dhcpSend_writes (sh : Shared) (xid : U32) (opts : List (U8 × U8 × List U8))
    (h : 242 + (opts.map dhcpOptBytes).sum ≤ 300) :
    DhcpWrites sh.buffer (dhcpSend sh xid opts).buffer := by
  have hopts : ∀ m, DhcpWrites m (dhcpWriteOpts m opts) := by
    intro m
    obtain ⟨hwrites, hoff⟩ := dhcpWriteOptList_writes opts (m, 240) (by show 240 + _ ≤ 300; omega)
    have hend : dhcpOptBytes (255, 0, []) = 2 := rfl
    unfold dhcpWriteOpts
    refine hwrites.trans (dhcpWriteOpt_writes _ _ (255, 0, []) ?_).1
    rw [hend, hoff]
    show 240 + _ + 2 ≤ 300
    omega
  have hheaders : ∀ m, DhcpWrites m (dhcpBuildHeaders m (udpHeaderBytes + dhcpMsgSize) 0 broadcastIp) := by
    intro m
    unfold dhcpBuildHeaders
    exact ((Mem.fill_changesOnly m _ _ _).mono (by decide) (by decide)).trans
      ((Mem.fill_changesOnly _ _ _ _).mono (by decide) (by decide))
  unfold dhcpSend
  exact ((dhcpBuildHeader_writes _ _ _ _).trans (hopts _)).trans (hheaders _)

/-- DHCP TX sends in this pass, if the mailbox is free. -/
def DhcpSends (resetN : Bool) (d : DhcpClient) : Prop :=
  resetN = true
    ∧ ¬ (dhcpTimeout ≤ (dhcpTick d).timer
      ∧ ((dhcpTick d).state = .waitOffer ∨ (dhcpTick d).state = .waitAck))
    ∧ ((dhcpTick d).state = .discover ∨ (dhcpTick d).state = .request)

theorem dhcpTx_writes (resetN : Bool) (d : DhcpClient) (sh : Shared) :
    DhcpWrites sh.buffer (dhcpTxProcess resetN d sh).2.buffer
      ∧ (¬ DhcpSends resetN d → (dhcpTxProcess resetN d sh).2 = sh) := by
  unfold dhcpTxProcess DhcpSends
  dsimp only
  split_ifs with hreset hretry hdiscover hrequest
  · exact ⟨Mem.ChangesOnly.refl _ _ _, fun _ => rfl⟩
  · exact ⟨Mem.ChangesOnly.refl _ _ _, fun _ => rfl⟩
  · refine ⟨dhcpSend_writes _ _ _ (by decide), fun hno => absurd ⟨?_, hretry, .inl hdiscover⟩ hno⟩
    simpa using hreset
  · refine ⟨dhcpSend_writes _ _ _ ?_, fun hno => absurd ⟨?_, hretry, .inr hrequest⟩ hno⟩
    · have hip : ∀ c ip : U32, (dhcpRequestOpts c ip).map dhcpOptBytes = [3, 6, 6] := fun c ip => rfl
      rw [hip]
      decide
    · simpa using hreset
  · exact ⟨Mem.ChangesOnly.refl _ _ _, fun _ => rfl⟩

section Over

variable {d : DhcpClient} (h : d.state = .done ∨ d.state = .failed)

include h

theorem dhcpTick_over : dhcpTick d = d := by
  rcases h with h | h <;> simp [dhcpTick, h]

/-- A client that is over sends nothing, -/
theorem dhcpSends_over {resetN : Bool} : ¬ DhcpSends resetN d := by
  rintro ⟨-, -, hsends⟩
  rw [dhcpTick_over h] at hsends
  rcases h with h | h <;> simp [h] at hsends

/-- and is over afterwards. -/
theorem dhcpTx_over (sh : Shared) : dhcpTxProcess true d sh = (d, sh) := by
  unfold dhcpTxProcess
  simp only [Bool.not_true, Bool.false_eq_true, if_false, dhcpTick_over h]
  rcases h with h | h <;> simp [h]

end Over

/-! ## §2. The words that are still needed. -/

/-- The words of a waiting request. -/
def MacTxReq.Holds (req : MacTxReq) (a : Nat) : Prop :=
  req.request = true ∧ req.bufAddr.toNat ≤ a ∧ a < req.bufAddr.toNat + (req.bufLen.toNat + 3) / 4

/-- A reply stays clear of the frame in flight; a copied payload stays also clear of the
frame that waits, which a reply replaces. -/
def Reception.Spares (r : Reception) (macTx : MacTxFsm) (req : MacTxReq) : Prop :=
  match r with
  | .quiet => True
  | .answers lo hi => ∀ a, lo ≤ a → a < hi → ¬ macTx.Reads a
  | .captures lo hi => ∀ a, lo ≤ a → a < hi → ¬ macTx.Reads a ∧ ¬ req.Holds a

/-- The frame that completes in this pass is answered, or its payload copied, inside the arrays
and outside the words that are still needed; so is a DHCP frame, and the default payload of the
first pass. -/
structure SparesFrames (s : UdpEcho) (i : PassIn) : Prop where
  fits : (s.frameIn i).valid = true → LengthsFit (s.afterMacTx i) i (s.frameIn i)
  reception : (s.reception i).Spares (s.afterMacTx i).macTx (s.afterMacTx i).shared.txReq
  dhcp : (s.afterMacTx i).shared.txReq.request = false → (∀ lo hi, s.reception i ≠ .answers lo hi) →
    DhcpSends i.resetN (s.afterMacTx i).dhcp →
      ∀ a, dhcpFrameBase ≤ a → a < dhcpFrameBase + 82 → ¬ (s.afterMacTx i).macTx.Reads a
  init : i.resetN = true → s.initDone = false →
    ∀ a, txUdpBase + 7 ≤ a → a < txUdpBase + 12 → ¬ s.macTx.Reads a ∧ ¬ s.shared.txReq.Holds a

variable (pacing : U32) {s : UdpEcho} {i : PassIn}

theorem MacTxFsm.Reads.sending {s : MacTxFsm} {a : Nat} (h : s.Reads a) : s.state ≠ .idle := by
  intro hidle
  rcases h.1 with h | h | ⟨h, -⟩ <;> rw [hidle] at h <;> cases h

/-- What the initialisation writes is not needed. -/
theorem txBuffer_needed (h : SparesFrames s i) {a : Nat} (ha : s.macTx.Reads a ∨ s.shared.txReq.Holds a) :
    s.txBuffer i a = s.shared.buffer a := by
  rw [txBuffer_eq]
  by_cases hfirst : i.resetN = true ∧ s.initDone = false
  · rw [if_pos hfirst]
    unfold writeHello
    refine Mem.fill_outside _ _ (fun hin => ?_)
    obtain ⟨hreads, hholds⟩ := h.init hfirst.1 hfirst.2 a hin.1 hin.2
    exact ha.elim hreads hholds
  · rw [if_neg hfirst]

/-- A pass that has a frame in flight is out of reset and busy. -/
theorem busyIn_of_reads {a : Nat} (ha : (s.afterMacTx i).macTx.Reads a) :
    i.resetN = true ∧ s.busyIn i = true := by
  have hsending := ha.sending
  cases hreset : i.resetN with
  | false =>
      refine absurd ?_ hsending
      unfold UdpEcho.afterMacTx UdpEcho.runMacTx macTxProcess
      rw [hreset]
      rfl
  | true =>
      refine ⟨rfl, ?_⟩
      obtain ⟨hmac, -, -, hbusy⟩ := afterMacTx_cycle s i hreset
      rw [hbusy]
      by_cases hidle : s.macTx.state = .idle
      · by_cases hreq : s.shared.txReq.request = true
        · rw [macTx_latch hidle hreq]
        · refine absurd ?_ hsending
          rw [hmac]
          unfold macTxCycle macTxProcess macTxIdle
          simp [hidle, hreq]
      · exact (macTxCycle_sending hidle _).2

/-- The mailbox is free after reception only if it was free before and nothing was answered. -/
theorem free_before_receive (h : (s.afterReceive i).shared.txReq.request = false) :
    (s.afterMacTx i).shared.txReq.request = false ∧ ∀ lo hi, s.reception i ≠ .answers lo hi := by
  have hwrites := receive_writes s i
  cases hrec : s.reception i with
  | quiet =>
      rw [hrec] at hwrites
      exact ⟨by rw [← hwrites.2, h], fun _ _ => Reception.noConfusion⟩
  | captures lo hi =>
      rw [hrec] at hwrites
      exact ⟨by rw [← hwrites.2, h], fun _ _ => Reception.noConfusion⟩
  | answers lo hi =>
      rw [hrec] at hwrites
      rw [hwrites.2] at h
      cases h

/-- **One pass**: a word that MAC TX has still to read is left alone. -/
theorem inFlight_kept (h : SparesFrames s i) {a : Nat} (ha : (s.afterMacTx i).macTx.Reads a) :
    (udpEcho pacing s i).1.shared.buffer a = s.txBuffer i a := by
  obtain ⟨hreset, hbusy⟩ := busyIn_of_reads ha
  have hmac : (s.afterMacTx i).shared.buffer = s.txBuffer i := by
    rw [(afterMacTx_cycle s i hreset).2.1]
  -- whatever reception writes, it spares the words still to be read
  have hreceive : (s.afterReceive i).shared.buffer a = (s.afterMacTx i).shared.buffer a := by
    have hwrites := receive_writes s i
    have hspares := h.reception
    cases hrec : s.reception i with
    | quiet =>
        rw [hrec] at hwrites
        rw [hwrites.1]
    | answers lo hi =>
        rw [hrec] at hwrites hspares
        exact hwrites.1 a (fun hin => hspares a hin.1 hin.2 ha)
    | captures lo hi =>
        rw [hrec] at hwrites hspares
        exact hwrites.1 a (fun hin => (hspares a hin.1 hin.2).1 ha)
  -- the DHCP client writes if the mailbox is free
  have hdhcp : (s.afterDhcp i).shared.buffer a = (s.afterReceive i).shared.buffer a := by
    unfold UdpEcho.afterDhcp UdpEcho.runDhcpTx
    by_cases hfree : (s.afterReceive i).shared.txReq.request = false
    · rw [if_pos (by rw [hfree]; rfl)]
      obtain ⟨hbefore, hquiet⟩ := free_before_receive hfree
      obtain ⟨hwrites, hsame⟩ := dhcpTx_writes i.resetN (s.afterReceive i).dhcp (s.afterReceive i).shared
      by_cases hsends : DhcpSends i.resetN (s.afterReceive i).dhcp
      · rw [afterReceive_dhcp] at hsends
        exact hwrites a (fun hin => h.dhcp hbefore hquiet hsends a hin.1 hin.2 ha)
      · exact congrFun (congrArg Shared.buffer (hsame hsends)) a
    · rw [if_neg (by simpa using hfree)]
  rw [udpEcho_shared_of_busy pacing s i hbusy, hdhcp, hreceive, hmac]

/-- **One pass**: a request that waits behind a frame in flight, and is not replaced by a
reply, keeps its words. -/
theorem waiting_kept (h : SparesFrames s i) (hreset : i.resetN = true)
    (hpending : s.shared.txReq.request = true) (hsending : s.macTx.state ≠ .idle)
    (hquiet : ∀ lo hi, s.reception i ≠ .answers lo hi) :
    (udpEcho pacing s i).1.shared.txReq = s.shared.txReq
      ∧ ∀ a, s.shared.txReq.Holds a → (udpEcho pacing s i).1.shared.buffer a = s.shared.buffer a := by
  refine ⟨request_kept pacing hreset hpending hsending (fun _ _ => hquiet), fun a ha => ?_⟩
  have hmac : (s.afterMacTx i).shared.txReq = s.shared.txReq
      ∧ (s.afterMacTx i).shared.buffer = s.txBuffer i := by
    rw [(afterMacTx_cycle s i hreset).2.1]
    exact ⟨(macTxCycle_sending hsending _).1, rfl⟩
  have hwrites := receive_writes s i
  have hspares := h.reception
  rw [hmac.1] at hspares
  -- a capture spares the words of the waiting request as well
  have hreceive : (s.afterReceive i).shared.txReq = s.shared.txReq
      ∧ (s.afterReceive i).shared.buffer a = s.txBuffer i a := by
    rw [← hmac.1, ← hmac.2]
    cases hrec : s.reception i with
    | quiet =>
        rw [hrec] at hwrites
        exact ⟨hwrites.2, by rw [hwrites.1]⟩
    | captures lo hi =>
        rw [hrec] at hwrites hspares
        exact ⟨hwrites.2, hwrites.1 a (fun hin => (hspares a hin.1 hin.2).2 ha)⟩
    | answers lo hi => exact absurd hrec (hquiet lo hi)
  rw [udpEcho_shared_of_pending pacing s i (by rw [hreceive.1, hpending]), hreceive.2,
    txBuffer_needed h (.inr ha)]

/-! ## §3. Runs. -/

section Run

variable (s : UdpEcho) (inp : Nat → PassIn)

/-- **The words of the frame in flight** look the same to MAC TX in the next pass. -/
theorem inFlight_trace
    (hspares : ∀ n, SparesFrames ((udpEchoMachine pacing).trace s inp n) (inp n)) (n : Nat) {a : Nat}
    (ha : ((udpEchoMachine pacing).trace s inp (n + 1)).macTx.Reads a) :
    ((udpEchoMachine pacing).trace s inp (n + 1)).txBuffer (inp (n + 1)) a
      = ((udpEchoMachine pacing).trace s inp n).txBuffer (inp n) a := by
  rw [txBuffer_needed (hspares (n + 1)) (.inl ha)]
  have hmac : (((udpEchoMachine pacing).trace s inp n).afterMacTx (inp n)).macTx.Reads a := by
    rw [← udpEcho_macTx_afterMacTx pacing]
    exact ha
  exact inFlight_kept pacing (hspares n) hmac

/-- **The words of a waiting request**, until the pass that latches it. -/
theorem waiting_trace (hspares : ∀ n, SparesFrames ((udpEchoMachine pacing).trace s inp n) (inp n))
    {n : Nat} (hpending : ((udpEchoMachine pacing).trace s inp n).shared.txReq.request = true) :
    ∀ d, (∀ j, n ≤ j → j < n + d → (inp j).resetN = true
        ∧ ((udpEchoMachine pacing).trace s inp j).macTx.state ≠ .idle
        ∧ ∀ lo hi, ((udpEchoMachine pacing).trace s inp j).reception (inp j) ≠ .answers lo hi) →
      ((udpEchoMachine pacing).trace s inp (n + d)).shared.txReq
          = ((udpEchoMachine pacing).trace s inp n).shared.txReq
        ∧ ∀ a, ((udpEchoMachine pacing).trace s inp n).shared.txReq.Holds a →
          ((udpEchoMachine pacing).trace s inp (n + d)).shared.buffer a
            = ((udpEchoMachine pacing).trace s inp n).shared.buffer a := by
  intro d
  induction d with
  | zero => intro _; exact ⟨rfl, fun _ _ => rfl⟩
  | succ d ih =>
      intro hwait
      obtain ⟨hreq, hmem⟩ := ih (fun j hj hlt => hwait j hj (by omega))
      obtain ⟨hreset, hsending, hquiet⟩ := hwait (n + d) (by omega) (by omega)
      obtain ⟨hreq', hmem'⟩ := waiting_kept pacing (hspares (n + d)) hreset (by rw [hreq, hpending])
        hsending hquiet
      rw [hreq] at hmem'
      exact ⟨hreq'.trans hreq, fun a ha => (hmem' a ha).trans (hmem a ha)⟩

/-- **A latched frame**: byte `j` goes out `j + 1` passes after the latch. -/
theorem flight_trace (hspares : ∀ n, SparesFrames ((udpEchoMachine pacing).trace s inp n) (inp n))
    {k : Nat} {req : MacTxReq}
    (hlatch : ((udpEchoMachine pacing).trace s inp (k + 1)).macTx = txLatch req) :
    let m := ((udpEchoMachine pacing).trace s inp k).txBuffer (inp k)
    ∀ j, j ≤ (txWire req m).length → (∀ d, d < j → (inp (k + 1 + d)).resetN = true) →
      ((udpEchoMachine pacing).trace s inp (k + 1 + j)).macTx = txAt req m j
      ∧ (j < (txWire req m).length → ∀ a, (txAt req m j).Reads a →
          ((udpEchoMachine pacing).trace s inp (k + 1 + j)).txBuffer (inp (k + 1 + j)) a = m a) := by
  intro m j
  induction j with
  | zero =>
      intro _ _
      refine ⟨hlatch, fun _ a ha => ?_⟩
      refine inFlight_trace pacing s inp hspares k ?_
      rw [hlatch]
      exact ha
  | succ j ih =>
      intro hj hreset
      obtain ⟨hmac, hwords⟩ := ih (by omega) (fun d hd => hreset d (by omega))
      have hstep := udpEcho_macTx_cycle pacing ((udpEchoMachine pacing).trace s inp (k + 1 + j))
        (inp (k + 1 + j)) (hreset j (by omega))
      rw [hmac, (macTx_txAt req m (by omega) _ (hwords (by omega))).1] at hstep
      refine ⟨hstep, fun hlt a ha => ?_⟩
      -- what is read behind byte `j + 1` is also to be read behind byte `j`
      have hbefore : (txAt req m j).Reads a := by
        rw [txAt_reads_iff req m (by omega)] at ha ⊢
        exact ⟨by omega, ha.2⟩
      have hnext := inFlight_trace pacing s inp hspares (k + 1 + j) (a := a) (by
        show (udpEcho pacing _ _).1.macTx.Reads a
        rw [hstep]
        exact ha)
      exact hnext.trans (hwords (by omega) a hbefore)

/-- **Frames go out as they were built.**  In every endless run whose passes spare the words
that are still needed: (1) reception stays inside its arrays, so that the words it writes are
words of `buffer`; (2) from the latch to the last data byte the words of the frame in
flight look the same to MAC TX in every pass; (3) a frame whose request waits at the end of
pass `m`, and is latched in pass `k` without a reply in between, is put out byte by byte as
its words were at the end of pass `m`, if no reset cuts it off. -/
theorem frames_intact
    (hspares : ∀ n, SparesFrames ((udpEchoMachine pacing).trace s inp n) (inp n)) :
    let run := (udpEchoMachine pacing).trace s inp
    (∀ n csumBuf, Logged.Within Arr.bounds (receiveLogged csumBuf ((run n).afterMacTx (inp n)) (inp n)
      ((run n).frameIn (inp n))).log)
    ∧ (∀ n a, (run (n + 1)).macTx.Reads a →
      (run (n + 1)).txBuffer (inp (n + 1)) a = (run n).txBuffer (inp n) a)
    ∧ ∀ m k, m ≤ k → (run m).shared.txReq.request = true →
        (∀ j, m ≤ j → j < k → (inp j).resetN = true ∧ (run j).macTx.state ≠ .idle
          ∧ ∀ lo hi, (run j).reception (inp j) ≠ .answers lo hi) →
        (run k).macTx.state = .idle →
        let wire := txWire (run m).shared.txReq (run m).shared.buffer
        (∀ d, d ≤ wire.length → (inp (k + d)).resetN = true) →
        ∀ j, j < wire.length →
          (udpEcho pacing (run (k + 1 + j)) (inp (k + 1 + j))).2.tx = (gmiiFrame wire)[j]? := by
  intro run
  refine ⟨fun n csumBuf => (within_receiveLogged_iff csumBuf _ _ _).mpr (hspares n).fits,
    fun n a ha => inFlight_trace pacing s inp hspares n ha, ?_⟩
  intro m k hmk hpending hwait hidle wire hreset j hj
  -- the request is latched in pass `k`, with its words as they were
  obtain ⟨hreq, hmem⟩ := waiting_trace pacing s inp hspares hpending (k - m)
    (fun j hj hlt => hwait j hj (by omega))
  rw [show m + (k - m) = k by omega] at hreq hmem
  have hwindow : txWindow (run m).shared.txReq (run m).shared.buffer ((run k).txBuffer (inp k)) := by
    intro a hlo hhi
    have hholds : (run m).shared.txReq.Holds a := ⟨hpending, hlo, hhi⟩
    rw [txBuffer_needed (hspares k) (.inr (by rw [hreq]; exact hholds)), hmem a hholds]
  have hwire : wire = txWire (run m).shared.txReq ((run k).txBuffer (inp k)) := txWire_congr hwindow
  have hlatch : (run (k + 1)).macTx = txLatch (run m).shared.txReq := by
    show (udpEcho pacing (run k) (inp k)).1.macTx = _
    rw [udpEcho_macTx_cycle pacing (run k) (inp k) (hreset 0 (Nat.zero_le _)), hreq,
      macTx_latch hidle hpending]
  -- and sent
  rw [hwire] at hj hreset ⊢
  obtain ⟨hmac, hwords⟩ := flight_trace pacing s inp hspares hlatch j (Nat.le_of_lt hj)
    (fun d hd => by rw [show k + 1 + d = k + (d + 1) by omega]; exact hreset (d + 1) (by omega))
  have hnow : (inp (k + 1 + j)).resetN = true := by
    rw [show k + 1 + j = k + (j + 1) by omega]
    exact hreset (j + 1) (by omega)
  rw [udpEcho_tx, (afterMacTx_cycle (run (k + 1 + j)) (inp (k + 1 + j)) hnow).2.2.1, hmac]
  exact (macTx_txAt _ _ hj _ (hwords hj)).2

end Run

/-- The stack is initialised, and DHCP has given up. -/
structure DhcpFailed (s : UdpEcho) : Prop where
  init : s.initDone = true
  failed : s.dhcp.state = .failed

theorem DhcpFailed.pass {s : UdpEcho} (h : DhcpFailed s) {i : PassIn} (hreset : i.resetN = true) :
    DhcpFailed (udpEcho pacing s i).1 := by
  refine ⟨udpEcho_initDone pacing s i hreset, ?_⟩
  have hnever : s.dhcp.state ≠ .idle := by
    rw [h.failed]
    exact DhcpState.noConfusion
  rcases udpEcho_dhcp_cases pacing hreset hnever with hd | ⟨sh, hd⟩
  · rw [hd, h.failed]
  · rw [hd, dhcpTx_over (.inr h.failed), h.failed]

/-- Then it is reception alone that may write to words that are needed. -/
theorem DhcpFailed.spares {s : UdpEcho} (h : DhcpFailed s) {i : PassIn} (hreset : i.resetN = true)
    (hfits : (s.frameIn i).valid = true → LengthsFit (s.afterMacTx i) i (s.frameIn i))
    (hreception : (s.reception i).Spares (s.afterMacTx i).macTx (s.afterMacTx i).shared.txReq) :
    SparesFrames s i := by
  have hclient : (s.afterMacTx i).dhcp = s.dhcp := by
    show (s.resetOrInit i.resetN).dhcp = _
    rw [hreset]
    exact resetOrInit_dhcp (by rw [h.failed]; exact DhcpState.noConfusion)
  refine ⟨hfits, hreception, ?_, fun _ hno => absurd hno (by rw [h.init]; simp)⟩
  intro _ _ hsends
  rw [hclient] at hsends
  exact absurd hsends (dhcpSends_over (.inr h.failed))

/-- A reply of 64 bytes in the scratch region waits. -/
def scratchReq : MacTxReq :=
  { dstMac := 0x020000000001, ethertype := ethertypeIpv4, bufAddr := 320, bufLen := 64, request := true }

def scratchWaits : UdpEcho :=
  { initDone := true, dhcp := { state := .failed }
    shared := { txReq := scratchReq, buffer := fun a => BitVec.ofNat 32 a } }

/-- A datagram arrives while the reply is sent, and its payload is copied to word 519: the reply
goes out byte by byte. -/
theorem frames_intact_datagram :
    let inp := readThenQuiet (gmiiFrame datagramFrame.bytes)
    let run := (udpEchoMachine 625000000).trace scratchWaits inp
    let wire := txWire scratchReq scratchWaits.shared.buffer
    (run 53).reception (inp 53) = .captures 519 520 ∧ ((run 53).afterMacTx (inp 53)).macTx.Reads 335
      ∧ ∀ j, j < wire.length →
        (udpEcho 625000000 (run (1 + j)) (inp (1 + j))).2.tx = (gmiiFrame wire)[j]? := by
  intro inp run wire
  have hreset : ∀ n, (inp n).resetN = true := fun n => (readThenQuiet_rx _ n).1
  have hfailed : ∀ n, DhcpFailed (run n) := by
    intro n
    induction n with
    | zero => exact ⟨rfl, rfl⟩
    | succ n ih => exact ih.pass 625000000 (hreset n)
  have hcaptured : (run 53).reception (inp 53) = .captures 519 520 := by decide +kernel
  have hfits : LengthsFit ((run 53).afterMacTx (inp 53)) (inp 53) ((run 53).frameIn (inp 53)) := by
    unfold LengthsFit IcmpAnswers
    decide +kernel
  have hflight : ((run 53).afterMacTx (inp 53)).macTx.reqWbase = 320
      ∧ ((run 53).afterMacTx (inp 53)).macTx.reqBytes = 64
      ∧ ((run 53).afterMacTx (inp 53)).shared.txReq.request = false := by
    decide +kernel
  have hspares : ∀ n, SparesFrames (run n) (inp n) := by
    intro n
    by_cases hn : n + 1 = datagramFrame.bytes.length
    · obtain rfl : n = 53 := Nat.add_right_cancel hn
      refine (hfailed 53).spares (hreset 53) (fun _ => hfits) ?_
      rw [hcaptured]
      -- the words of the reply end at 336, and no other frame waits
      refine fun a hlo _ => ⟨fun hreads => ?_, fun hholds => ?_⟩
      · have hhi := hreads.2.2
        rw [hflight.1, hflight.2.1] at hhi
        exact absurd hhi (Nat.not_lt.mpr (le_trans (by decide) hlo))
      · exact absurd (hflight.2.2.symm.trans hholds.1) nofun
    · have hquiet := frameIn_readThenQuiet (run n) datagramFrame.bytes hn
      refine (hfailed n).spares (hreset n) (fun hvalid => absurd (hquiet.symm.trans hvalid) nofun) ?_
      unfold UdpEcho.reception
      rw [if_neg (by rw [hquiet]; exact Bool.false_ne_true)]
      trivial
  have hsent := (frames_intact 625000000 scratchWaits inp hspares).2.2 0 0 (Nat.le_refl 0) rfl
    (fun j hj hlt => absurd hlt (by omega)) rfl (fun d _ => hreset _)
  refine ⟨hcaptured, ⟨?_, ?_⟩, fun j hj => ?_⟩
  · decide +kernel
  · rw [hflight.1, hflight.2.1]
    decide
  · have hbyte := hsent j hj
    rwa [Nat.zero_add] at hbyte

/-! ## §4. A frame is changed while it is sent. -/

/-- The reply that waits once an ARP request of host 1 is read. -/
def arpPosted : UdpEcho :=
  (udpEchoMachine 625000000).after {} ((gmiiFrame (arpRequestFrame 1).bytes).map readPass)

def arpPostedReq : MacTxReq :=
  { dstMac := hostMac 1, ethertype := ethertypeArp, bufAddr := 320, bufLen := 28, request := true }

theorem arpPosted_waits : DhcpWaits 50 arpPosted :=
  ⟨by decide +kernel, by decide +kernel, by decide +kernel, by decide +kernel⟩

theorem arpPosted_idle : arpPosted.macTx.state = .idle ∧ arpPosted.shared.txReq = arpPostedReq := by
  constructor <;> decide +kernel

theorem arpPosted_listens : arpPosted.macRx.state = .idle ∧ arpPosted.frameFifo = [] := by
  constructor <;> decide +kernel

theorem arpPosted_word : arpPosted.shared.buffer 326 = 0xC0A86401 := by
  decide +kernel

theorem length_arpPostedReq (m : Mem U32) :
    (txHeader arpPostedReq).length = 14 ∧ (txPadded arpPostedReq m).length = 46 := by
  rw [length_txHeader, length_txPadded]
  exact ⟨rfl, rfl⟩

/-- The last data byte of the reply is read from its last word. -/
theorem arpPosted_lastByte (m m' : Mem U32) (req : MacTxReq) :
    (macTxCycle (txAt arpPostedReq m 49) (req, m')).2.byte = some (plainByte (wordByte (m' 326) 3)) := by
  obtain ⟨hhdr, hpad⟩ := length_arpPostedReq m
  have hnow : txAt arpPostedReq m 49 = { txLatch arpPostedReq with
      state := .sendData, sentBytes := 27
      crcReg := crc crcPoly 0xFFFFFFFF (txHeader arpPostedReq ++ (txPadded arpPostedReq m).take 27) } := by
    unfold txAt
    rw [hhdr, hpad, if_neg (by omega), if_neg (by omega), if_pos (by omega)]
    unfold txSendData
    rw [hpad, if_pos (by omega)]
    rfl
  have hbyte : ∀ f : MacTxFsm, f.sentBytes = 27 → f.reqBytes = 28 → f.reqWbase = 320 →
      macTxDataByte f m' = wordByte (m' 326) 3 := by
    intro f h27 h28 h320
    unfold macTxDataByte
    rw [h27, h28, h320, if_pos (by decide)]
    exact congrArg₂ (fun a k => wordByte (m' a) k) (by decide) (by decide)
  rw [hnow]
  exact congrArg (fun d => some (plainByte d)) (hbyte _ rfl rfl rfl)

/-- The pass in which the reply to host 2 is written while the reply to host 1, with the words
`m`, is sent to its last data byte. -/
theorem reply_clobbered {t : UdpEcho} {i : PassIn} {m : Mem U32} (hreset : i.resetN = true)
    (hinit : t.initDone = true) (hmem : t.shared.buffer = m)
    (hmac : t.macTx = txAt arpPostedReq m 48) (hword : m 326 = 0xC0A86401)
    (hinit' : (udpEcho pacing t i).1.initDone = true)
    (hwrite : (udpEcho pacing t i).1.shared.buffer = writeArpPacket m (arpReplyPacket 2)) :
    (udpEcho pacing t i).1.macTx.Reads 326 ∧ t.txBuffer i 326 = 0xC0A86401
      ∧ (udpEcho pacing t i).1.txBuffer .quiet 326 = 0xC0A86402
      ∧ (gmiiFrame (txWire arpPostedReq m))[49]? = some (plainByte 1)
      ∧ (udpEcho pacing (udpEcho pacing t i).1 .quiet).2.tx = some (plainByte 2) := by
  obtain ⟨hhdr, hpad⟩ := length_arpPostedReq m
  have hwire : (txWire arpPostedReq m).length = 72 := by
    rw [length_txWire, hhdr, hpad]
  have hview : t.txBuffer i = m := by
    rw [txBuffer_eq, hinit, if_neg (by simp), hmem]
  -- byte 48 is sent in this pass
  have hnext : (udpEcho pacing t i).1.macTx = txAt arpPostedReq m 49 := by
    rw [udpEcho_macTx_cycle pacing t i hreset, hmac, hview]
    exact (macTx_txAt arpPostedReq m (by omega) (t.shared.txReq, m) (fun _ _ => rfl)).1
  -- word 326 has the address of the requester, now host 2
  have hviewNext : (udpEcho pacing t i).1.txBuffer .quiet 326 = 0xC0A86402 := by
    rw [txBuffer_eq, hinit', if_neg (by simp), hwrite]
    unfold writeArpPacket
    rw [Mem.fill_inside _ _ (by decide)]
    decide
  refine ⟨?_, by rw [hview, hword], hviewNext, ?_, ?_⟩
  · rw [hnext, txAt_reads_iff _ _ (by omega), hhdr]
    decide
  · rw [gmiiFrame_txWire_getElem _ _ (by omega), hhdr, hpad, if_neg (by omega), if_neg (by omega),
      if_pos (by omega), txPadded_getD, if_pos (by decide)]
    show some (plainByte (wordByte (m 326) 3)) = _
    rw [hword]
    decide
  · rw [udpEcho_tx, (afterMacTx_cycle _ .quiet rfl).2.2.1, hnext, arpPosted_lastByte, hviewNext]
    decide

/-- Two ARP requests in a row. -/
def arpPair : List PassIn :=
  (gmiiFrame (arpRequestFrame 1).bytes).map readPass ++ (gmiiFrame (arpRequestFrame 2).bytes).map readPass

/-- The last pass writes the reply to host 2 over the reply to host 1, which is sent to its
last data byte: this byte goes out as host 2 has it. -/
theorem frame_clobbered :
    ∃ ps i, arpPair = ps ++ [i] ∧ (∀ p ∈ arpPair, p.resetN = true)
      ∧ let s := (udpEchoMachine 625000000).after {} ps
        let u := (udpEcho 625000000 s i).1
        u.macTx.Reads 326 ∧ s.txBuffer i 326 = 0xC0A86401 ∧ u.txBuffer .quiet 326 = 0xC0A86402
        ∧ (gmiiFrame (txWire arpPostedReq arpPosted.shared.buffer))[49]? = some (plainByte 1)
        ∧ (udpEcho 625000000 u .quiet).2.tx = some (plainByte 2) := by
  obtain ⟨hidle, hreq⟩ := arpPosted_idle
  obtain ⟨hrx, hfifo⟩ := arpPosted_listens
  obtain ⟨hhdr, hpad⟩ := length_arpPostedReq arpPosted.shared.buffer
  have hwire : (txWire arpPostedReq arpPosted.shared.buffer).length = 72 := by
    rw [length_txWire, hhdr, hpad]
  -- the reply to host 1 is sent while the second request comes in
  have hlong : 50 ≤ arpPosted.txLeft := by
    unfold UdpEcho.txLeft
    rw [if_pos hidle, hreq, if_pos (show arpPostedReq.request = true from rfl),
      macTxLeft_latch _ arpPosted.shared.buffer, hwire]
    omega
  obtain ⟨bs, b, hframe, -, ⟨hwaits, hmem, -, htx, -⟩, ⟨hwaits', -⟩, -, -, hwrite⟩ :=
    arp_request_arrives 625000000 2 (k := 0) arpPosted_waits hlong hrx hfifo
  have hmac := htx.latched hidle (by rw [hreq]; rfl) (by rw [hreq, hwire]; omega)
  rw [hreq] at hmac
  have hrun : (udpEchoMachine 625000000).after {}
      ((gmiiFrame (arpRequestFrame 1).bytes).map readPass ++ bs.map readPass)
      = (udpEchoMachine 625000000).after arpPosted (bs.map readPass) := after_append _ _ _ _
  refine ⟨(gmiiFrame (arpRequestFrame 1).bytes).map readPass ++ bs.map readPass, readPass b, ?_, ?_, ?_⟩
  · unfold arpPair
    rw [hframe, List.map_append, ← List.append_assoc]
    rfl
  · intro p hp
    unfold arpPair at hp
    rw [← List.map_append, List.mem_map] at hp
    obtain ⟨b, -, rfl⟩ := hp
    rfl
  · rw [hrun]
    exact reply_clobbered 625000000 rfl hwaits.init hmem hmac arpPosted_word hwaits'.init hwrite

end GigabitTcp
