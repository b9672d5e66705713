/-
  GigabitTcp.Wrapper.RxQueue — the RX FIFO bridge of `wrapper_1g.v` as a queue.

  The pointers of `rx_fifo` wrap around, so `rx_occ` is the number of unread words only as long
  as no push finds the ring full.  The threshold of 3900 words sees to that: between reset and
  any later cycle the bridge is an unbounded queue that closes its door at 3900 words.

  Main result:
    * `rxBridge_fifo` — nothing that was pushed is lost, doubled or overtaken, and what is
                        pushed is what the wire brought two cycles before.
-/
import GigabitTcp.Wrapper.RxBridge

namespace GigabitTcp

open Hw Machine

/-! ## §1. The wire at the FIFO. -/

/-- The wire in cycle `n`, where the two idle cycles of the reset stand before those of `is`. -/
def wireAt (is : List RxBridgeIn) (n : Nat) : RxBridgeIn :=
  (idleWire :: idleWire :: is).getD n idleWire

/-- The byte of cycle `n` is the final one of a burst of `rx_dv`. -/
def EndsBurst (is : List RxBridgeIn) (n : Nat) : Prop :=
  (wireAt is n).eRxdv = true ∧ (wireAt is (n + 1)).eRxdv = false

instance (is : List RxBridgeIn) (n : Nat) : Decidable (EndsBurst is n) :=
  inferInstanceAs (Decidable (_ ∧ _))

/-- One more cycle leaves the wire of those before as it was. -/
theorem wireAt_snoc {is : List RxBridgeIn} (i : RxBridgeIn) {n : Nat} (hn : n < is.length + 2) :
    wireAt (is ++ [i]) n = wireAt is n :=
  List.getD_append (idleWire :: idleWire :: is) [i] idleWire n hn

theorem wireAt_last (is : List RxBridgeIn) (i : RxBridgeIn) :
    wireAt (is ++ [i]) (is.length + 2) = i := by
  show (is ++ [i]).getD is.length idleWire = i
  rw [List.getD_append_right _ _ _ _ (Nat.le_refl _), Nat.sub_self]
  rfl

/-- The registers show the wire two cycles and one cycle late, and the FIFO keeps to its
threshold. -/
structure RxBridge.Late (s : RxBridge) (is : List RxBridgeIn) : Prop where
  d2 : s.rxD2 = (wireAt is is.length).eRxd ∧ s.rxDvD2 = (wireAt is is.length).eRxdv
  d1 : s.rxD1 = (wireAt is (is.length + 1)).eRxd ∧ s.rxDvD1 = (wireAt is (is.length + 1)).eRxdv
  fits : s.rxFifo.occ.toNat ≤ 3900

theorem RxBridge.late_reset (s : RxBridge) : s.reset.Late [] := by
  refine ⟨⟨rfl, rfl⟩, ⟨rfl, rfl⟩, ?_⟩
  show s.rxFifo.clear.occ.toNat ≤ 3900
  rw [Ring.occ_clear]
  decide

/-- **One cycle**. -/
theorem RxBridge.Late.next {s : RxBridge} {is : List RxBridgeIn} (h : s.Late is) (i : RxBridgeIn) :
    (s.next i).Late (is ++ [i]) := by
  have hlen : (is ++ [i]).length = is.length + 1 := List.length_append
  refine ⟨?_, ?_, occ_next_le i h.fits⟩
  · rw [hlen, wireAt_snoc i (by omega)]
    exact h.d1
  · rw [hlen, wireAt_last]
    exact ⟨rfl, rfl⟩

theorem rxBridge_late (s : RxBridge) (is : List RxBridgeIn) :
    (rxBridgeMachine.after s.reset is).Late is :=
  Along.invariant_io (C := fun _ _ => True) (P := fun t is _ => RxBridge.Late t is)
    (fun _ _ _ i h _ => h.next i) [] [] is s.late_reset (Along.of_all (fun _ _ => trivial) _ _)

/-- What is pushed, in terms of the wire. -/
theorem RxBridge.Late.rxPushWord {s : RxBridge} {is : List RxBridgeIn} (h : s.Late is) :
    s.rxPushWord = if (wireAt is is.length).eRxdv = true ∧ s.rxOcc.toNat < 3900 then
      some { data := (wireAt is is.length).eRxd, last := EndsBurst is is.length } else none := by
  cases hdv : (wireAt is is.length).eRxdv with
  | false =>
      rw [if_neg (fun hno => Bool.false_ne_true hno.1)]
      exact rxPushWord_idle (h.d2.2.trans hdv)
  | true =>
      -- the wire of the next cycle stands in `rx_d1` already
      have hends : EndsBurst is is.length ↔ s.rxDvD1 = false := by
        unfold EndsBurst
        rw [h.d1.2]
        exact and_iff_right hdv
      have hmark : decide (EndsBurst is is.length) = !s.rxDvD1 := by
        rw [Bool.eq_iff_iff, decide_eq_true_eq, Bool.not_eq_true', hends]
      rw [rxPushWord_eq (h.d2.2.trans hdv), hmark, h.d2.1]
      simp only [true_and]
      rfl

/-! ## §2. The queue. -/

/-- The words that have been pushed in the run from `s` over `is`. -/
def rxPushed (s : RxBridge) (is : List RxBridgeIn) : List GmiiByte :=
  rxBridgeMachine.record (fun t _ => t.rxPushWord.toList) s is

/-- The words that the IP has popped. -/
def rxPopped (s : RxBridge) (is : List RxBridgeIn) : List GmiiByte :=
  (rxBridgeMachine.outs s is).reduceOption

/-- **The ring is a queue**: popped words and unread words are the pushed words, in order. -/
theorem rxPopped_append_contents (s : RxBridge) (is : List RxBridgeIn) :
    rxPopped s.reset is ++ (rxBridgeMachine.after s.reset is).rxFifo.contents
      = rxPushed s.reset is := by
  have hempty : s.reset.rxFifo.contents = [] := Ring.contents_clear s.rxFifo
  unfold rxPopped rxPushed
  rw [reduceOption_outs]
  have hcons := record_conserves (M := rxBridgeMachine) (q := fun t => t.rxFifo.contents)
    (fun t i => RxBridge.conserves (s := t) i) s.reset is
  rw [hempty, List.nil_append] at hcons
  exact hcons

/-- In every run from reset `rx_occ` is the number of pushes less the number of pops and never
above 3900, the popped words are a prefix of the pushed ones, a cycle overwrites no unread word,
and it pushes the byte that the wire brought two cycles before, if there was one and there is
room, marked if this byte was the final one of its burst. -/
theorem rxBridge_fifo (s : RxBridge) (is : List RxBridgeIn) (i : RxBridgeIn) :
    let t := rxBridgeMachine.after s.reset is
    t.rxOcc.toNat + (rxPopped s.reset is).length = (rxPushed s.reset is).length
      ∧ t.rxOcc.toNat ≤ 3900
      ∧ rxPopped s.reset is <+: rxPushed s.reset is
      ∧ (∀ k < t.rxOcc.toNat, (t.next i).rxFifo.mem (t.rxFifo.rptr + BitVec.ofNat 12 k).toNat
        = t.rxFifo.mem (t.rxFifo.rptr + BitVec.ofNat 12 k).toNat)
      ∧ t.rxPushWord = if (wireAt is is.length).eRxdv = true ∧ t.rxOcc.toNat < 3900 then
          some { data := (wireAt is is.length).eRxd, last := EndsBurst is is.length } else none := by
  intro t
  have hlate : t.Late is := rxBridge_late s is
  have hqueue : rxPopped s.reset is ++ t.rxFifo.contents = rxPushed s.reset is :=
    rxPopped_append_contents s is
  have hcount := congrArg List.length hqueue
  rw [List.length_append, Ring.length_contents] at hcount
  refine ⟨?_, hlate.fits, ⟨_, hqueue⟩, fun k hk => t.rxFifo.step_mem _ _ hk, hlate.rxPushWord⟩
  rw [Nat.add_comm]
  exact hcount

end GigabitTcp
