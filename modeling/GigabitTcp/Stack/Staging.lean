/-
  GigabitTcp.Stack.Staging — `frame_fifo` and the boundaries of frames.

  MAC RX pushes the words of a frame while it arrives; the pass that reads the last byte pops
  as many words as MAC RX has counted.  Nothing else empties the FIFO: a reset clears the
  count and leaves the words, and the count has 10 bits.

  Main results:
    * `passStages`                — one pass: the count, the FIFO and the words of the frame,
    * `frameFifo_aligned_iff`     — when the FIFO holds the words of the frame in progress,
    * `frameFifo_keeps_word`      — a word that a reset in mid frame leaves behind.
-/
import GigabitTcp.Stack.Pass

namespace GigabitTcp

open Hw Machine

/-! ## §1. What MAC RX counts. -/

/-- MAC RX has pushed `n` words for the frame in progress. -/
structure MacRxFsm.Counts (m : MacRxFsm) (n : Nat) : Prop where
  counted : m.state = .payload → m.nwords.toNat = n % 1024 ∧ m.wrByte.toNat < 4
  none : m.state ≠ .payload → n = 0
  cleared : m.state ≠ .payload → m.state ≠ .idle → m.nwords = 0 ∧ m.wrByte = 0

theorem MacRxFsm.counts_reset : ({} : MacRxFsm).Counts 0 := ⟨nofun, fun _ => rfl, fun _ h => absurd rfl h⟩

/-- A byte in front of the payload: no word, and a payload begins with a cleared count. -/
theorem macRx_outside {m : MacRxFsm} {n : Nat} (h : m.Counts n) (hstate : m.state ≠ .payload)
    (b : GmiiByte) :
    (macRxCycle m (some b)).1.Counts 0 ∧ (macRxCycle m (some b)).2.frameWords = []
      ∧ (macRxCycle m (some b)).2.rx.valid = false := by
  have hcleared := h.cleared hstate
  unfold macRxCycle macRxProcess
  rw [Bool.not_true, if_neg Bool.false_ne_true]
  dsimp only
  cases hs : m.state with
  | payload => exact absurd hs hstate
  | idle =>
      show (macRxIdle m b.data).1.Counts 0 ∧ _ ∧ _
      unfold macRxIdle
      split
      -- IDLE has cleared count and word
      · exact ⟨⟨nofun, fun _ => rfl, fun _ _ => ⟨rfl, rfl⟩⟩, rfl, rfl⟩
      · refine ⟨⟨fun hp => ?_, fun _ => rfl, fun _ _ => ⟨rfl, rfl⟩⟩, rfl, rfl⟩
        exact absurd hp hstate
  | preamble =>
      rw [hs] at hcleared
      have hzero := hcleared nofun
      show (macRxPreamble m b.data).1.Counts 0 ∧ _ ∧ _
      unfold macRxPreamble
      dsimp only
      split_ifs
      · exact ⟨⟨nofun, fun _ => rfl, fun _ _ => hzero⟩, rfl, rfl⟩
      · exact ⟨⟨nofun, fun _ => rfl, fun _ _ => hzero⟩, rfl, rfl⟩
      · exact ⟨⟨fun hp => absurd hp hstate, fun _ => rfl, fun _ _ => hzero⟩, rfl, rfl⟩
  | header =>
      rw [hs] at hcleared
      have hzero := hcleared nofun
      have hentered : m.nwords.toNat = 0 % 1024 ∧ m.wrByte.toNat < 4 := by
        rw [hzero.1, hzero.2]
        decide
      -- no branch of the header touches the count
      have hstays : ∀ m' : MacRxFsm, m'.nwords = m.nwords → m'.wrByte = m.wrByte → m'.Counts 0 := by
        intro m' hn hb
        refine ⟨fun _ => ?_, fun _ => rfl, fun _ _ => ?_⟩
        · rw [hn, hb]
          exact hentered
        · rw [hn, hb]
          exact hzero
      show (macRxHeader m b.data).1.Counts 0 ∧ (macRxHeader m b.data).2.frameWords = []
        ∧ (macRxHeader m b.data).2.rx.valid = false
      unfold macRxHeader macRxEthertype
      dsimp only
      split_ifs
      all_goals exact ⟨hstays _ rfl rfl, rfl, rfl⟩
  | vlan =>
      rw [hs] at hcleared
      have hzero := hcleared nofun
      show (macRxVlan m).1.Counts 0 ∧ _ ∧ _
      unfold macRxVlan
      dsimp only
      split_ifs
      · exact ⟨⟨nofun, fun _ => rfl, fun _ _ => hzero⟩, rfl, rfl⟩
      · exact ⟨⟨fun hp => absurd hp hstate, fun _ => rfl, fun _ _ => hzero⟩, rfl, rfl⟩

/-- The byte goes into the word, and the fourth one makes the word full. -/
theorem macRxPush_counts {m : MacRxFsm} {n : Nat} (hn : m.nwords.toNat = n % 1024)
    (hb : m.wrByte.toNat < 4) (data : U8) :
    let r := macRxPush m data
    r.1.state = m.state
      ∧ ((r.2.length = 1 ∧ r.1.wrByte.toNat = 0) ∨ (r.2.length = 0 ∧ 0 < r.1.wrByte.toNat))
      ∧ r.1.wrByte.toNat < 4 ∧ r.1.nwords.toNat = (n + r.2.length) % 1024 := by
  have hnext : (m.wrByte + 1).toNat = m.wrByte.toNat + 1 := by
    rw [BitVec.toNat_add]
    show (m.wrByte.toNat + 1) % 256 = _
    omega
  unfold macRxPush
  dsimp only
  by_cases hfull : m.wrByte + 1 = 4
  · rw [if_pos hfull]
    refine ⟨rfl, Or.inl ⟨rfl, rfl⟩, (by decide : 0 < 4), ?_⟩
    show (m.nwords + 1).toNat = _
    rw [BitVec.toNat_add, hn]
    show (n % 1024 + 1) % 1024 = (n + 1) % 1024
    omega
  · rw [if_neg hfull]
    -- the word goes on filling
    have hless : (m.wrByte + 1).toNat ≠ 4 := fun h => hfull (BitVec.eq_of_toNat_eq h)
    refine ⟨rfl, Or.inr ⟨rfl, ?_⟩, ?_, hn⟩
    · show 0 < (m.wrByte + 1).toNat
      omega
    · show (m.wrByte + 1).toNat < 4
      omega

theorem macRxCycle_payload {m : MacRxFsm} (hstate : m.state = .payload) (b : GmiiByte) :
    macRxCycle m (some b) = macRxPayload m b.data b.last := by
  unfold macRxCycle macRxProcess
  rw [Bool.not_true, if_neg Bool.false_ne_true, hstate]

/-- A payload byte: one word if it is the fourth. -/
theorem macRx_inside {m : MacRxFsm} {n : Nat} (h : m.Counts n) (hstate : m.state = .payload)
    {b : GmiiByte} (hlast : b.last = false) :
    let r := macRxCycle m (some b)
    r.1.state = .payload ∧ r.1.Counts (n + r.2.frameWords.length) ∧ r.2.rx.valid = false := by
  obtain ⟨hn, hb⟩ := h.counted hstate
  obtain ⟨hkept, -, hbyte, hwords⟩ := macRxPush_counts hn hb b.data
  rw [hstate] at hkept
  rw [macRxCycle_payload hstate, hlast]
  show (macRxPush m b.data).1.state = _ ∧ (macRxPush m b.data).1.Counts _ ∧ _
  exact ⟨hkept, ⟨fun _ => ⟨hwords, hbyte⟩, fun hno => absurd hkept hno, fun hno => absurd hkept hno⟩, rfl⟩

/-- The last byte: one word, and the count, as far as 10 bits carry it, is handed out. -/
theorem macRx_completes {m : MacRxFsm} {n : Nat} (h : m.Counts n) (hstate : m.state = .payload)
    {b : GmiiByte} (hlast : b.last = true) :
    let r := macRxCycle m (some b)
    r.1.state = .idle ∧ r.2.frameWords.length = 1 ∧ r.2.rx.valid = true
      ∧ r.2.rx.nwords.toNat = (n + 1) % 1024 := by
  obtain ⟨hn, hb⟩ := h.counted hstate
  obtain ⟨-, hword, hbyte, hwords⟩ := macRxPush_counts hn hb b.data
  rw [macRxCycle_payload hstate, hlast]
  unfold macRxPayload macRxFlush
  rcases hword with ⟨hone, hempty⟩ | ⟨hnone, hpartial⟩
  · -- the fourth byte: no partial word is left
    have hdone : ¬ (macRxPush m b.data).1.wrByte > 0 := by
      rw [gt_iff_lt, BitVec.lt_def, hempty]
      decide
    dsimp only
    rw [if_pos rfl, if_neg hdone]
    refine ⟨rfl, ?_, rfl, ?_⟩
    · rw [List.append_nil]
      exact hone
    · rw [← hone]
      exact hwords
  -- one to three bytes are left, which the flush pushes
  · have hflush : (macRxPush m b.data).1.wrByte > 0 := hpartial
    rw [hnone] at hwords
    dsimp only
    rw [if_pos rfl, if_pos hflush]
    refine ⟨rfl, ?_, rfl, ?_⟩
    · rw [List.length_append, hnone]
      rfl
    · show ((macRxPush m b.data).1.nwords + 1).toNat = _
      rw [BitVec.toNat_add, hwords]
      show ((n + 0) % 1024 + 1) % 1024 = _
      omega

/-! ## §2. One pass. -/

/-- The words MAC RX pushes in this pass. -/
def UdpEcho.pushedIn (s : UdpEcho) (i : PassIn) : List U32 :=
  (macRxProcess s.macRx i.resetN i.rx).2.frameWords

/-- Initialisation, in reset and out of it, leaves the receive path alone. -/
theorem resetOrInit_receive (s : UdpEcho) (resetN : Bool) :
    (s.resetOrInit resetN).macRx = s.macRx ∧ (s.resetOrInit resetN).frameFifo = s.frameFifo := by
  unfold UdpEcho.resetOrInit
  dsimp only
  split_ifs <;> exact ⟨rfl, rfl⟩

theorem frameIn_eq (s : UdpEcho) (i : PassIn) :
    s.frameIn i = (macRxProcess s.macRx i.resetN i.rx).2.rx := by
  unfold UdpEcho.frameIn UdpEcho.runMacRx
  rw [(resetOrInit_receive s i.resetN).1]

theorem afterMacTx_receive (s : UdpEcho) (i : PassIn) :
    (s.afterMacTx i).macRx = (macRxProcess s.macRx i.resetN i.rx).1
      ∧ (s.afterMacTx i).frameFifo = s.frameFifo ++ s.pushedIn i := by
  obtain ⟨hrx, hfifo⟩ := resetOrInit_receive s i.resetN
  have hmac : (s.afterMacTx i).macRx
      = (macRxProcess (s.resetOrInit i.resetN).macRx i.resetN i.rx).1 := rfl
  have hwords : (s.afterMacTx i).frameFifo = (s.resetOrInit i.resetN).frameFifo
      ++ (macRxProcess (s.resetOrInit i.resetN).macRx i.resetN i.rx).2.frameWords := rfl
  rw [hmac, hwords, hrx, hfifo]
  exact ⟨rfl, rfl⟩

/-- Only staging takes words out of the FIFO. -/
theorem udpEcho_frameFifo (pacing : U32) (s : UdpEcho) (i : PassIn) :
    (udpEcho pacing s i).1.frameFifo
      = if (s.frameIn i).valid then (s.frameFifo ++ s.pushedIn i).drop (s.frameIn i).nwords.toNat
        else s.frameFifo ++ s.pushedIn i := by
  obtain ⟨_, _, _, _, _, _, _, _, hlast⟩ := udpEcho_behind_receive pacing s i
  have hreceive : (udpEcho pacing s i).1.frameFifo = (s.afterReceive i).frameFifo := by rw [hlast]
  rw [hreceive, ← (afterMacTx_receive s i).2]
  cases hvalid : (s.frameIn i).valid with
  | true =>
      obtain ⟨_, _, _, hdispatch⟩ := dispatch_eq (s.staged i) i (s.frameIn i)
      rw [afterReceive_frame hvalid, hdispatch]
      rfl
  | false =>
      rw [afterReceive_quiet hvalid]
      rfl

theorem udpEcho_macRx (pacing : U32) (s : UdpEcho) (i : PassIn) :
    (udpEcho pacing s i).1.macRx = (macRxProcess s.macRx i.resetN i.rx).1 := by
  obtain ⟨_, _, _, _, _, _, _, _, hlast⟩ := udpEcho_behind_receive pacing s i
  obtain ⟨_, _, _, _, _, hreceive⟩ := afterReceive_eq s i
  rw [hlast, hreceive]
  exact (afterMacTx_receive s i).1

/-! ## §3. The words of the frame in progress. -/

/-- The words pushed for the frame in progress, behind a pass, from those before it. -/
def UdpEcho.ownWordsNext (pacing : U32) (s : UdpEcho) (i : PassIn) (own : List U32) : List U32 :=
  if (udpEcho pacing s i).1.macRx.state = .payload then own ++ s.pushedIn i else []

/-- The pass reads the last byte of an accepted frame. -/
def UdpEcho.Completes (s : UdpEcho) (i : PassIn) : Prop :=
  s.macRx.state = .payload ∧ i.rx.any (·.last) = true

instance (s : UdpEcho) (i : PassIn) : Decidable (s.Completes i) := inferInstanceAs (Decidable (_ ∧ _))

/-- A reset finds the FIFO empty, and a frame does not end with its 1024th word or a later one. -/
def UdpEcho.KeepsStaging (s : UdpEcho) (i : PassIn) : Prop :=
  (i.resetN = false → s.frameFifo = [])
    ∧ (i.resetN = true → s.Completes i → s.frameFifo.length + 1 < 1024)

instance (s : UdpEcho) (i : PassIn) : Decidable (s.KeepsStaging i) :=
  inferInstanceAs (Decidable ((_ → _) ∧ (_ → _ → _)))

/-- What a pass does to the FIFO and to the words of the frame in progress. -/
inductive PassStages (s : UdpEcho) (i : PassIn) (own : List U32) (fifo' own' : List U32) : Prop
  | reset (hr : i.resetN = false) (hfifo : fifo' = s.frameFifo) (hown : own' = [])
      (hquiet : (s.frameIn i).valid = false)
  | push (hr : i.resetN = true) (hopen : ¬ s.Completes i) (hfifo : fifo' = s.frameFifo ++ s.pushedIn i)
      (hown : own' = own ++ s.pushedIn i) (hquiet : (s.frameIn i).valid = false)
  | pop (hr : i.resetN = true) (hlast : s.Completes i) (hword : (s.pushedIn i).length = 1)
      (hcount : (s.frameIn i).nwords.toNat = (own.length + 1) % 1024)
      (hfifo : fifo' = (s.frameFifo ++ s.pushedIn i).drop ((own.length + 1) % 1024)) (hown : own' = [])

variable {pacing : U32} {s : UdpEcho} {own : List U32}

theorem macRxProcess_run {i : PassIn} (hr : i.resetN = true) :
    macRxProcess s.macRx i.resetN i.rx = macRxCycle s.macRx i.rx := by
  rw [hr]
  rfl

/-- **One pass**: the count goes on, and the FIFO and the words go one of three ways. -/
theorem passStages (h : s.macRx.Counts own.length) (i : PassIn) :
    (udpEcho pacing s i).1.macRx.Counts (s.ownWordsNext pacing i own).length
      ∧ PassStages s i own (udpEcho pacing s i).1.frameFifo (s.ownWordsNext pacing i own) := by
  have hfifo := udpEcho_frameFifo pacing s i
  have hframe := frameIn_eq s i
  unfold UdpEcho.ownWordsNext
  rw [udpEcho_macRx]
  cases hr : i.resetN with
  | false =>
      -- the reset clears MAC RX, and `frame_fifo` keeps its words
      have hrx : macRxProcess s.macRx false i.rx = ({}, {}) := rfl
      rw [hr, hrx] at hframe
      have hpushed : s.pushedIn i = [] := by
        unfold UdpEcho.pushedIn
        rw [hr, hrx]
      rw [hframe, hpushed, List.append_nil] at hfifo
      rw [hrx]
      exact ⟨MacRxFsm.counts_reset, .reset hr hfifo rfl (by rw [hframe])⟩
  | true =>
      have hcycle := macRxProcess_run (s := s) hr
      rw [hcycle] at hframe
      rw [← hr, hcycle]
      have hpushed : s.pushedIn i = (macRxCycle s.macRx i.rx).2.frameWords := by
        unfold UdpEcho.pushedIn
        rw [hcycle]
      by_cases hstate : s.macRx.state = .payload
      · cases hrx : i.rx with
        | none =>
            -- a pass between two bytes of the payload
            have hidle : macRxCycle s.macRx none = (s.macRx, {}) := rfl
            rw [hrx, hidle] at hframe hpushed
            rw [hframe] at hfifo
            rw [hidle, if_pos hstate, hpushed, List.append_nil]
            refine ⟨h, .push hr (fun hc => ?_) hfifo ?_ (by rw [hframe])⟩
            · rw [UdpEcho.Completes, hrx] at hc
              exact Bool.noConfusion hc.2
            · rw [hpushed, List.append_nil]
        | some b =>
            rw [hrx] at hframe hpushed
            cases hlast : b.last with
            | false =>
                obtain ⟨hin, hcounts, hquiet⟩ := macRx_inside h hstate hlast
                rw [hframe, hquiet, if_neg Bool.false_ne_true] at hfifo
                rw [if_pos hin, hpushed, List.length_append]
                refine ⟨hcounts, .push hr (fun hc => ?_) hfifo (by rw [hpushed]) (by rw [hframe, hquiet])⟩
                rw [UdpEcho.Completes, hrx] at hc
                have : b.last = true := hc.2
                rw [hlast] at this
                cases this
            | true =>
                -- the last byte: the frame is popped in the pass that pushes its last word
                obtain ⟨hidle, hone, hvalid, hcount⟩ := macRx_completes h hstate hlast
                rw [hframe, hvalid, if_pos rfl, hcount] at hfifo
                have hout : ¬ (macRxCycle s.macRx (some b)).1.state = .payload := by
                  rw [hidle]
                  exact nofun
                rw [if_neg hout]
                refine ⟨⟨fun hp => absurd hp hout, fun _ => rfl, fun _ hi => absurd hidle hi⟩,
                  .pop hr ⟨hstate, ?_⟩ ?_ ?_ hfifo rfl⟩
                · rw [hrx]
                  exact hlast
                · rw [hpushed, hone]
                · rw [hframe, hcount]
      · -- in front of the payload: nothing has been pushed, and nothing is
        have hown : own = [] := List.eq_nil_of_length_eq_zero (h.none hstate)
        have hopen : ¬ s.Completes i := fun hc => hstate hc.1
        cases hrx : i.rx with
        | none =>
            have hidle : macRxCycle s.macRx none = (s.macRx, {}) := rfl
            rw [hrx, hidle] at hframe hpushed
            rw [hframe] at hfifo
            rw [hidle, if_neg hstate]
            rw [hown] at h
            exact ⟨h, .push hr hopen hfifo (by rw [hown, hpushed]; rfl) (by rw [hframe])⟩
        | some b =>
            obtain ⟨hcounts, hnone, hquiet⟩ := macRx_outside h hstate b
            rw [hrx] at hframe hpushed
            rw [hframe, hquiet, if_neg Bool.false_ne_true] at hfifo
            rw [hown, hpushed, hnone, List.append_nil, ite_self]
            exact ⟨hcounts, .push hr hopen hfifo (by rw [hpushed, hnone]; rfl) (by rw [hframe, hquiet])⟩

/-- **The step**: from an aligned FIFO a pass leads to an aligned one exactly if it keeps the
staging. -/
theorem PassStages.aligned_iff {i : PassIn} {fifo' own' : List U32} (h : PassStages s i own fifo' own')
    (haligned : s.frameFifo.length = own.length) :
    fifo'.length = own'.length ↔ s.KeepsStaging i := by
  unfold UdpEcho.KeepsStaging
  cases h with
  | reset hr hfifo hown _ =>
      rw [hfifo, hown, hr, List.length_nil, List.length_eq_zero_iff]
      exact ⟨fun hempty => ⟨fun _ => hempty, nofun⟩, fun hkeeps => hkeeps.1 rfl⟩
  | push hr hopen hfifo hown _ =>
      rw [hfifo, hown, List.length_append, List.length_append, haligned]
      exact ⟨fun _ => ⟨fun hno => Bool.noConfusion (hr.symm.trans hno), fun _ hc => absurd hc hopen⟩, fun _ => rfl⟩
  | pop hr hlast hword hcount hfifo hown =>
      rw [hfifo, hown, List.length_nil, List.length_drop, List.length_append, hword, haligned]
      constructor
      · -- the count wraps at 1024 words, and then as many words are left over
        intro hdrained
        refine ⟨fun hno => Bool.noConfusion (hr.symm.trans hno), fun _ _ => ?_⟩
        have := Nat.mod_lt (own.length + 1) (by omega : 0 < 1024)
        omega
      · intro hkeeps
        have hfew := hkeeps.2 hr hlast
        rw [Nat.mod_eq_of_lt hfew]
        omega

/-- Then the FIFO holds the very words of the frame in progress. -/
theorem PassStages.fifo_eq {i : PassIn} {fifo' own' : List U32} (h : PassStages s i own fifo' own')
    (hown : s.frameFifo = own) (hkeeps : s.KeepsStaging i) : fifo' = own' := by
  have haligned : fifo'.length = own'.length := (h.aligned_iff (by rw [hown])).mpr hkeeps
  cases h with
  | reset _ _ hempty _ =>
      rw [hempty] at haligned ⊢
      exact List.eq_nil_of_length_eq_zero haligned
  | push _ _ hfifo hwords _ => rw [hfifo, hwords, hown]
  | pop _ _ _ _ _ hempty =>
      rw [hempty] at haligned ⊢
      exact List.eq_nil_of_length_eq_zero haligned

/-- And a frame that is complete is staged with its own words. -/
theorem PassStages.staged {i : PassIn} {fifo' own' : List U32} (h : PassStages s i own fifo' own')
    (hown : s.frameFifo = own) (hkeeps : s.KeepsStaging i) (hvalid : (s.frameIn i).valid = true) :
    (s.frameIn i).nwords.toNat = (own ++ s.pushedIn i).length
      ∧ ∀ k, k < (own ++ s.pushedIn i).length → k < frameBufWords →
          (s.staged i).frameBuf k = (own ++ s.pushedIn i).getD k 0 := by
  cases h with
  | reset _ _ _ hquiet => rw [hvalid] at hquiet; cases hquiet
  | push _ _ _ _ hquiet => rw [hvalid] at hquiet; cases hquiet
  | pop hr hlast hword hcount _ _ =>
      have hfew := hkeeps.2 hr hlast
      rw [hown] at hfew
      rw [Nat.mod_eq_of_lt hfew] at hcount
      have hlen : (own ++ s.pushedIn i).length = own.length + 1 := by
        rw [List.length_append, hword]
      refine ⟨by rw [hcount, hlen], fun k hk hbuf => ?_⟩
      unfold UdpEcho.staged UdpEcho.stage
      dsimp only
      rw [hlen] at hk
      have hin : k < min (s.frameIn i).nwords.toNat frameBufWords := by
        rw [hcount]
        omega
      rw [Mem.fill_inside _ _ ⟨Nat.zero_le k, by rw [Nat.zero_add]; exact hin⟩, Nat.sub_zero,
        (afterMacTx_receive s i).2, hown]

/-! ## §4. Runs. -/

/-- The words pushed for the frame in progress before pass `n`. -/
def ownWords (pacing : U32) (inp : Nat → PassIn) : Nat → List U32
  | 0 => []
  | n + 1 =>
      ((udpEchoMachine pacing).trace {} inp n).ownWordsNext pacing (inp n) (ownWords pacing inp n)

theorem ownWords_counts (pacing : U32) (inp : Nat → PassIn) (n : Nat) :
    ((udpEchoMachine pacing).trace {} inp n).macRx.Counts (ownWords pacing inp n).length := by
  induction n with
  | zero => exact MacRxFsm.counts_reset
  | succ n ih => exact (passStages ih (inp n)).1

/-- In every run from power-up: `frame_fifo` holds as many words as have been pushed for the
frame in progress, none outside a payload, and every frame is staged with its own words, exactly if
every reset finds the FIFO empty and no frame ends with its 1024th word or a later one. -/
theorem frameFifo_aligned_iff (pacing : U32) (inp : Nat → PassIn) :
    let t := (udpEchoMachine pacing).trace {} inp
    let own := ownWords pacing inp
    (∀ n, (t n).frameFifo.length = (own n).length
        ∧ (((t n).frameIn (inp n)).valid = true →
          ((t n).frameIn (inp n)).nwords.toNat = (own n ++ (t n).pushedIn (inp n)).length
            ∧ ∀ k, k < (own n ++ (t n).pushedIn (inp n)).length → k < frameBufWords →
                ((t n).staged (inp n)).frameBuf k = (own n ++ (t n).pushedIn (inp n)).getD k 0))
      ↔ ∀ n, (t n).KeepsStaging (inp n) := by
  intro t own
  have hstages : ∀ n, PassStages (t n) (inp n) (own n) (t (n + 1)).frameFifo (own (n + 1)) :=
    fun n => (passStages (ownWords_counts pacing inp n) (inp n)).2
  constructor
  · intro haligned n
    exact ((hstages n).aligned_iff (haligned n).1).mp (haligned (n + 1)).1
  · intro hkeeps
    have hown : ∀ n, (t n).frameFifo = own n := by
      intro n
      induction n with
      | zero => rfl
      | succ n ih => exact (hstages n).fifo_eq ih (hkeeps n)
    exact fun n => ⟨by rw [hown n], (hstages n).staged (hown n) (hkeeps n)⟩

/-! ## §5. A reset in mid frame. -/

/-- The first bytes of a broadcast frame, four of its payload among them. -/
def frameHead : List U8 :=
  preamble ++ wordBytes 6 broadcastMac ++ wordBytes 6 boardMac ++ [0x08, 0x06, 0, 1, 8, 0]

/-- The head of a frame, a reset pass, and silence. -/
def resetInFrame (n : Nat) : PassIn :=
  { resetN := n ≠ 26, rx := (frameHead[n]?).map (fun b => { data := b, last := false })
    uninit := .zero, msgRoom := 0 }

/-- A word stays in the FIFO, and no frame is in progress. -/
theorem frameFifo_keeps_word :
    let s := (udpEchoMachine 256).trace {} resetInFrame 27
    s.macRx.state = .idle ∧ ownWords 256 resetInFrame 27 = [] ∧ s.frameFifo.length = 1 := by
  decide +kernel

end GigabitTcp
