/-
  GigabitTcp.Hw.EchoServer — an echo server over TCP segments.

  The server has `n` slots, each free or taken by one peer.  A connection opens on a SYN, is opened
  by the ACK of the answer, returns every segment's data at once, and closes behind the peer's FIN.
  Its positions in the two streams are all it remembers; what a peer that follows the protocol may
  send depends on them (`Expects`).

  Main results:
    * `Owns.serve_own`, `Owns.serve_else` — the slot of the sender moves, and no other,
    * `Owns.alone`        — every connection runs alone, whatever the other peers send between,
    * `connection_echoes` — in an opened connection the data comes back, in order, at consecutive
      positions,
    * `conversation`      — a whole conversation, from the SYN to the FIN.
-/
import GigabitTcp.Hw.Mem
import GigabitTcp.Hw.Inet
import GigabitTcp.Hw.Slots
import GigabitTcp.Hw.Machine

namespace Hw.EchoServer

open Inet Machine

/-! ## §1. Connections. -/

/-- The flags. -/
def fin (g : TcpSegment) : Bool := g.flags &&& 0x01 != 0
def syn (g : TcpSegment) : Bool := g.flags &&& 0x02 != 0
def acks (g : TcpSegment) : Bool := g.flags &&& 0x10 != 0

/-- The next byte to send, and the next one to receive. -/
inductive Phase where
  | opening (snd rcv : U32)
  | opened (snd rcv : U32)
  | closing (snd rcv : U32)
  deriving Repr, DecidableEq

/-- The server's side of a segment. -/
structure Reply where
  flags : U8
  seq : U32
  ack : U32
  data : List U8
  deriving Repr, DecidableEq

/-- A segment in a phase: the phase behind it, if the connection is not over, and the reply. -/
def Phase.answer : Phase → TcpSegment → Option Phase × Option Reply
  | .opening snd rcv, g =>
      (some (if acks g ∧ g.ack = snd then .opened snd rcv else .opening snd rcv), none)
  | .opened snd rcv, g =>
      let count := BitVec.ofNat 32 g.data.length
      if fin g then
        (some (.closing (snd + 1) (rcv + 1)), some { flags := 0x11, seq := snd, ack := rcv + 1, data := [] })
      else if g.data = [] then (some (.opened snd rcv), none)
      else
        (some (.opened (snd + count) (rcv + count)),
          some { flags := 0x10, seq := snd, ack := rcv + count, data := g.data })
  | .closing snd rcv, g => (if acks g then none else some (.closing snd rcv), none)

/-- What a peer that follows the protocol sends: in an opened connection the next bytes of its
stream, at most `mss` of them, and none with its FIN. -/
def Phase.Expects (mss : Nat) : Phase → TcpSegment → Prop
  | .opened _ rcv, g => g.seq = rcv ∧ g.data.length ≤ mss ∧ (fin g = true → g.data = [])
  | _, _ => True

instance (mss : Nat) (ph : Phase) (g : TcpSegment) : Decidable (ph.Expects mss g) := by
  cases ph <;> unfold Phase.Expects <;> infer_instance

/-! ## §2. The slots. -/

section Server

variable {κ : Type} [DecidableEq κ] (n : Nat) (iss : Nat → U32)

/-- The slots: the peer and the connection. -/
abbrev Table (κ : Type) := Mem (Option (κ × Phase))

/-- Who holds a slot. -/
def holder (σ : Table κ) (i : Nat) : Option κ := (σ i).map Prod.fst

/-- The slot of a peer, else the first free one. -/
def slotOf (σ : Table κ) (k : κ) : Option Nat := Slots.search (holder σ) k (List.range n) none

/-- **One segment.**  A free slot takes a SYN without ACK, at its own initial sequence number. -/
def serve : Machine (Table κ) (κ × TcpSegment) (Option Reply)
  | σ, (k, g) =>
      match slotOf n σ k with
      | none => (σ, none)
      | some i =>
          match σ i with
          | none =>
              if syn g && !acks g then
                (σ.set i (some (k, .opening (iss i + 1) (g.seq + 1))),
                  some { flags := 0x12, seq := iss i, ack := g.seq + 1, data := [] })
              else (σ, none)
          | some (_, ph) => (σ.set i ((ph.answer g).1.map fun ph' => (k, ph')), (ph.answer g).2)

/-- The segment is one that the connection of its sender expects. -/
def Expects (mss : Nat) (σ : Table κ) (x : κ × TcpSegment) : Prop :=
  ∀ i ph, slotOf n σ x.1 = some i → σ i = some (x.1, ph) → ph.Expects mss x.2

/-- Only the slot that is found matters. -/
theorem expects_iff (mss : Nat) (σ : Table κ) (x : κ × TcpSegment) :
    Expects n mss σ x ↔ ∀ i ∈ slotOf n σ x.1, ∀ e ∈ σ i, e.1 = x.1 → e.2.Expects mss x.2 := by
  constructor
  · rintro h i hi ⟨k, ph⟩ he rfl
    exact h i ph hi he
  · intro h i ph hi hσ
    exact h i hi (x.1, ph) hσ rfl

instance (mss : Nat) (σ : Table κ) (x : κ × TcpSegment) : Decidable (Expects n mss σ x) :=
  decidable_of_iff _ (expects_iff n mss σ x).symm

variable {n iss} {σ : Table κ} {k : κ} {i : Nat}

theorem slotOf_lt (h : slotOf n σ k = some i) : i < n ∧ (holder σ i = some k ∨ holder σ i = none) := by
  obtain ⟨hmem, hkey⟩ := Slots.search_some h
  exact ⟨List.mem_range.mp hmem, hkey⟩

theorem serve_refused (h : slotOf n σ k = none) (g : TcpSegment) : serve n iss σ (k, g) = (σ, none) := by
  simp only [serve, h]

theorem serve_free (h : slotOf n σ k = some i) (hfree : σ i = none) (g : TcpSegment) :
    serve n iss σ (k, g) =
      if syn g && !acks g then
        (σ.set i (some (k, .opening (iss i + 1) (g.seq + 1))),
          some { flags := 0x12, seq := iss i, ack := g.seq + 1, data := [] })
      else (σ, none) := by
  simp only [serve, h, hfree]

theorem serve_taken (h : slotOf n σ k = some i) {k' : κ} {ph : Phase} (hσ : σ i = some (k', ph))
    (g : TcpSegment) :
    serve n iss σ (k, g) = (σ.set i ((ph.answer g).1.map fun ph' => (k, ph')), (ph.answer g).2) := by
  simp only [serve, h, hσ]

/-- A segment moves one slot at most: that of its sender, or a free one, which its sender then holds. -/
theorem serve_cases (n : Nat) (iss : Nat → U32) (σ : Table κ) (k : κ) (g : TcpSegment) :
    (serve n iss σ (k, g)).1 = σ ∨ ∃ i e, slotOf n σ k = some i ∧ (serve n iss σ (k, g)).1 = σ.set i e
      ∧ ((σ i = none ∧ holder (σ.set i e) i = some k) ∨ holder σ i = some k)
      ∧ (holder (σ.set i e) i = some k ∨ holder (σ.set i e) i = none) := by
  cases hfind : slotOf n σ k with
  | none => exact .inl (by rw [serve_refused hfind])
  | some i =>
      have hset : ∀ e : Option (κ × Phase), holder (σ.set i e) i = e.map Prod.fst := by
        intro e
        unfold holder
        rw [Mem.set_same]
      cases hσ : σ i with
      | none =>
          rw [serve_free hfind hσ]
          split
          · exact .inr ⟨i, _, rfl, rfl, .inl ⟨hσ, hset _⟩, .inl (hset _)⟩
          · exact .inl rfl
      | some e =>
          obtain ⟨k', ph⟩ := e
          have hholder : holder σ i = some k' := congrArg (Option.map Prod.fst) hσ
          have hk : holder σ i = some k := by
            rcases (slotOf_lt hfind).2 with hown | hfree
            · exact hown
            · exact (Option.some_ne_none k' (hholder.symm.trans hfree)).elim
          rw [serve_taken hfind hσ]
          refine .inr ⟨i, _, rfl, rfl, .inr hk, ?_⟩
          rw [hset]
          cases (ph.answer g).1 with
          | none => exact .inr rfl
          | some ph' => exact .inl rfl

/-- A reply is not longer than what is expected. -/
theorem Expects.reply_length {mss : Nat} {g : TcpSegment} (h : Expects n mss σ (k, g)) {r : Reply}
    (hr : (serve n iss σ (k, g)).2 = some r) : r.data.length ≤ mss := by
  cases hfind : slotOf n σ k with
  | none =>
      rw [serve_refused hfind] at hr
      cases hr
  | some i =>
      cases hσ : σ i with
      | none =>
          rw [serve_free hfind hσ] at hr
          split at hr
          · cases hr
            exact Nat.zero_le _
          · cases hr
      | some e =>
          obtain ⟨k', ph⟩ := e
          have hholder : holder σ i = some k' := congrArg (Option.map Prod.fst) hσ
          have hk : k' = k := by
            rcases (slotOf_lt hfind).2 with hown | hfree
            · exact Option.some.inj (hholder.symm.trans hown)
            · exact (Option.some_ne_none k' (hholder.symm.trans hfree)).elim
          have hexp := h i ph hfind (by rw [hσ, hk])
          rw [serve_taken hfind hσ] at hr
          cases ph with
          | opening snd rcv => cases hr
          | closing snd rcv => cases hr
          | opened snd rcv =>
              obtain ⟨-, hlen, -⟩ := hexp
              unfold Phase.answer at hr
              dsimp only at hr
              split_ifs at hr
              · cases hr
                exact Nat.zero_le _
              · cases hr
                exact hlen

/-! ## §3. The connections run side by side. -/

/-- The peer `k` holds the slot `i` and no other. -/
structure Owns (n : Nat) (σ : Table κ) (k : κ) (i : Nat) : Prop where
  lt : i < n
  holds : holder σ i = some k
  only : ∀ j, j < n → holder σ j = some k → j = i

theorem Owns.slotOf (h : Owns n σ k i) : slotOf n σ k = some i := by
  obtain ⟨j, hj, hkey, hfound⟩ := Slots.search_hit (List.range n) none ⟨i, List.mem_range.mpr h.lt, h.holds⟩
  rw [EchoServer.slotOf, hfound, h.only j (List.mem_range.mp hj) hkey]

omit [DecidableEq κ] in
theorem holder_set (σ : Table κ) (i j : Nat) (e : Option (κ × Phase)) :
    holder (σ.set i e) j = if j = i then e.map Prod.fst else holder σ j := by
  unfold holder
  by_cases hj : j = i
  · rw [hj, Mem.set_same, if_pos rfl]
  · rw [Mem.set_other _ _ hj, if_neg hj]

/-- A peer without a slot takes the free one that it finds. -/
theorem Owns.claim (h : EchoServer.slotOf n σ k = some i) (hfree : σ i = none) (ph : Phase) :
    Owns n (σ.set i (some (k, ph))) k i := by
  refine ⟨(slotOf_lt h).1, by rw [holder_set, if_pos rfl]; rfl, ?_⟩
  intro j hj hjk
  by_contra hne
  rw [holder_set, if_neg hne] at hjk
  exact Slots.search_empty h (congrArg (Option.map Prod.fst) hfree) j (List.mem_range.mpr hj) hjk

omit [DecidableEq κ] in
/-- A slot that keeps its peer. -/
theorem Owns.keep (h : Owns n σ k i) (ph : Phase) : Owns n (σ.set i (some (k, ph))) k i := by
  refine ⟨h.lt, by rw [holder_set, if_pos rfl]; rfl, ?_⟩
  intro j hj hjk
  by_contra hne
  rw [holder_set, if_neg hne] at hjk
  exact hne (h.only j hj hjk)

/-- **The slot of its sender** takes the segment. -/
theorem Owns.serve_own (h : Owns n σ k i) {ph : Phase} (hσ : σ i = some (k, ph)) (g : TcpSegment) :
    serve n iss σ (k, g) = (σ.set i ((ph.answer g).1.map fun ph' => (k, ph')), (ph.answer g).2) :=
  serve_taken h.slotOf hσ g

/-- **No other slot** moves. -/
theorem Owns.serve_else (iss : Nat → U32) (h : Owns n σ k i) {k' : κ} (hk : k' ≠ k) (g : TcpSegment) :
    Owns n (serve n iss σ (k', g)).1 k i ∧ (serve n iss σ (k', g)).1 i = σ i := by
  rcases serve_cases n iss σ k' g with hsame | ⟨j, e, -, hset, hwas, hnow⟩
  · rw [hsame]
    exact ⟨h, rfl⟩
  · have hne : i ≠ j := by
      rintro rfl
      rcases hwas with ⟨hfree, -⟩ | hown
      · exact Option.some_ne_none k (h.holds.symm.trans (congrArg (Option.map Prod.fst) hfree))
      · exact hk (Option.some.inj (hown.symm.trans h.holds))
    rw [hset]
    refine ⟨⟨h.lt, by rw [holder_set, if_neg hne]; exact h.holds, ?_⟩, Mem.set_other _ _ hne⟩
    intro a ha hak
    by_cases haj : a = j
    · -- the other slot went to another peer, or to nobody
      rw [haj] at hak
      rcases hnow with hother | hnobody
      · exact (hk (Option.some.inj (hother.symm.trans hak))).elim
      · exact (Option.some_ne_none k (hak.symm.trans hnobody)).elim
    · rw [holder_set, if_neg haj] at hak
      exact h.only a ha hak

/-- A connection on its own; behind its end nothing happens. -/
def connection : Machine (Option Phase) TcpSegment (Option Reply)
  | none, _ => (none, none)
  | some ph, g => ph.answer g

theorem connection_over (gs : List TcpSegment) : connection.after none gs = none := by
  induction gs with
  | nil => rfl
  | cons g gs ih => exact ih

/-- The segments of a peer. -/
def sentBy (k : κ) (is : List (κ × TcpSegment)) : List TcpSegment :=
  is.filterMap fun x => if x.1 = k then some x.2 else none

/-- The replies to a peer. -/
def sentTo (k : κ) (is : List (κ × TcpSegment)) (os : List (Option Reply)) : List Reply :=
  (is.zip os).filterMap fun x => if x.1.1 = k then x.2 else none

theorem sentTo_cons (k k' : κ) (g : TcpSegment) (is : List (κ × TcpSegment)) (o : Option Reply)
    (os : List (Option Reply)) :
    sentTo k ((k', g) :: is) (o :: os) = (if k' = k then o.toList else []) ++ sentTo k is os := by
  unfold sentTo
  by_cases hk : k' = k
  · cases o <;> simp [hk]
  · simp [hk]

/-- **Every connection runs alone**: whatever the other peers send between, the replies to a peer are
those of its connection to its own segments. -/
theorem Owns.alone (iss : Nat → U32) (is : List (κ × TcpSegment)) (h : Owns n σ k i) {ph : Phase}
    (hσ : σ i = some (k, ph))
    (hlive : connection.after (some ph) (sentBy k is) ≠ none) :
    sentTo k is ((serve n iss).outs σ is) = (connection.outs (some ph) (sentBy k is)).reduceOption
      ∧ ((serve n iss).after σ is) i
        = (connection.after (some ph) (sentBy k is)).map fun ph' => (k, ph') := by
  induction is generalizing σ ph with
  | nil => exact ⟨rfl, hσ⟩
  | cons x is ih =>
      obtain ⟨k', g⟩ := x
      rw [outs_cons, sentTo_cons, after_cons]
      by_cases hk : k' = k
      · -- a segment of the peer
        subst hk
        have hsent : sentBy k' ((k', g) :: is) = g :: sentBy k' is := by simp [sentBy]
        rw [hsent] at hlive ⊢
        rw [h.serve_own hσ, if_pos rfl, outs_cons, after_cons]
        rw [after_cons] at hlive
        change connection.after (ph.answer g).1 (sentBy k' is) ≠ none at hlive
        show _ = ((ph.answer g).2 :: connection.outs (ph.answer g).1 (sentBy k' is)).reduceOption
          ∧ _ = (connection.after (ph.answer g).1 (sentBy k' is)).map _
        cases hnext : (ph.answer g).1 with
        | none =>
            rw [hnext] at hlive
            exact (hlive (connection_over _)).elim
        | some ph' =>
            rw [hnext] at hlive
            obtain ⟨hreplies, hafter⟩ := ih (h.keep ph') (by rw [Mem.set_same]) hlive
            refine ⟨?_, hafter⟩
            rw [Option.map_some, hreplies]
            cases (ph.answer g).2 <;> rfl
      · -- one of somebody else
        have hsent : sentBy k ((k', g) :: is) = sentBy k is := by simp [sentBy, hk]
        obtain ⟨howns, hkept⟩ := h.serve_else iss hk g
        rw [hsent] at hlive ⊢
        rw [if_neg hk, List.nil_append]
        exact ih howns (hkept.trans hσ) hlive

/-! ## §4. Conversations. -/

/-- The echo of pieces of data. -/
def echoOf : U32 → U32 → List (List U8) → List Reply
  | _, _, [] => []
  | snd, rcv, d :: ds =>
      let count := BitVec.ofNat 32 d.length
      { flags := 0x10, seq := snd, ack := rcv + count, data := d } :: echoOf (snd + count) (rcv + count) ds

/-- The echo has the data, in order. -/
theorem echoOf_data (snd rcv : U32) (ds : List (List U8)) : (echoOf snd rcv ds).map Reply.data = ds := by
  induction ds generalizing snd rcv with
  | nil => rfl
  | cons d ds ih => exact congrArg (d :: ·) (ih _ _)

/-- The data of segments. -/
def pieces (gs : List TcpSegment) : List (List U8) := (gs.map TcpSegment.data).filter (· ≠ [])

/-- The end of the data. -/
def behind (pos : U32) (gs : List TcpSegment) : U32 :=
  pos + BitVec.ofNat 32 (gs.flatMap TcpSegment.data).length

theorem behind_cons (pos : U32) (g : TcpSegment) (gs : List TcpSegment) :
    behind (pos + BitVec.ofNat 32 g.data.length) gs = behind pos (g :: gs) := by
  unfold behind
  rw [List.flatMap_cons, List.length_append, BitVec.ofNat_add, BitVec.add_assoc]

/-- **Data** comes back at once, at the positions behind what came back before. -/
theorem connection_echoes (snd rcv : U32) (gs : List TcpSegment) (hfin : ∀ g ∈ gs, fin g = false) :
    (connection.outs (some (.opened snd rcv)) gs).reduceOption = echoOf snd rcv (pieces gs)
      ∧ connection.after (some (.opened snd rcv)) gs = some (.opened (behind snd gs) (behind rcv gs)) := by
  induction gs generalizing snd rcv with
  | nil =>
      refine ⟨rfl, ?_⟩
      unfold behind
      simp
  | cons g gs ih =>
      have hno : fin g = false := hfin g List.mem_cons_self
      have hlater := fun g' hg' => hfin g' (List.mem_cons_of_mem g hg')
      rw [outs_cons, after_cons]
      by_cases hdata : g.data = []
      · have hstep : connection (some (.opened snd rcv)) g = (some (.opened snd rcv), none) := by
          simp [connection, Phase.answer, hno, hdata]
        have hpieces : pieces (g :: gs) = pieces gs := by simp [pieces, hdata]
        have hbehind : ∀ pos, behind pos (g :: gs) = behind pos gs := by simp [behind, hdata]
        rw [hstep, hpieces, hbehind, hbehind, List.reduceOption_cons_of_none]
        exact ih snd rcv hlater
      · have hstep : connection (some (.opened snd rcv)) g
            = (some (.opened (snd + BitVec.ofNat 32 g.data.length) (rcv + BitVec.ofNat 32 g.data.length)),
              some { flags := 0x10, seq := snd, ack := rcv + BitVec.ofNat 32 g.data.length
                     data := g.data }) := by
          simp [connection, Phase.answer, hno, hdata]
        have hpieces : pieces (g :: gs) = g.data :: pieces gs := by simp [pieces, hdata]
        obtain ⟨hreplies, hafter⟩ := ih (snd + BitVec.ofNat 32 g.data.length)
          (rcv + BitVec.ofNat 32 g.data.length) hlater
        rw [hstep, hpieces, ← behind_cons snd, ← behind_cons rcv, List.reduceOption_cons_of_some]
        exact ⟨congrArg _ hreplies, hafter⟩

/-- What a peer sends in one conversation with a slot: a SYN, the ACK of its answer, data, and a FIN. -/
structure Conversation (iss : U32) where
  start : TcpSegment
  confirm : TcpSegment
  data : List TcpSegment
  finish : TcpSegment
  opens : syn start = true ∧ acks start = false
  confirms : acks confirm = true ∧ confirm.ack = iss + 1
  goesOn : ∀ g ∈ data, fin g = false
  ends : fin finish = true

variable {first : U32}

/-- The segments behind the SYN. -/
def Conversation.later (c : Conversation first) : List TcpSegment := c.confirm :: (c.data ++ [c.finish])

/-- The answers: SYN and ACK, the echo, FIN and ACK. -/
def Conversation.replies (c : Conversation first) : List Reply :=
  { flags := 0x12, seq := first, ack := c.start.seq + 1, data := [] } ::
    (echoOf (first + 1) (c.start.seq + 1) (pieces c.data)
      ++ [{ flags := 0x11, seq := behind (first + 1) c.data, ack := behind (c.start.seq + 1) c.data + 1
            data := [] }])

/-- The answers bring back the data. -/
theorem Conversation.replies_data (c : Conversation first) :
    c.replies.flatMap Reply.data = c.data.flatMap TcpSegment.data := by
  have hpieces : ∀ gs : List TcpSegment, (pieces gs).flatten = gs.flatMap TcpSegment.data := by
    intro gs
    induction gs with
    | nil => rfl
    | cons g gs ih =>
        rw [List.flatMap_cons, ← ih]
        by_cases hdata : g.data = [] <;> simp [pieces, hdata]
  have hecho : (echoOf (first + 1) (c.start.seq + 1) (pieces c.data)).flatMap Reply.data
      = c.data.flatMap TcpSegment.data := by
    rw [← hpieces, List.flatMap_def, echoOf_data]
  unfold replies
  rw [List.flatMap_cons, List.flatMap_append, hecho]
  exact List.append_nil _

/-- What is left of it. -/
def Conversation.closing (c : Conversation first) : Phase :=
  .closing (behind (first + 1) c.data + 1) (behind (c.start.seq + 1) c.data + 1)

/-- The connection of a conversation, behind the SYN. -/
theorem Conversation.connection (c : Conversation first) :
    let opened := some (Phase.opening (first + 1) (c.start.seq + 1))
    EchoServer.connection.after opened c.later = some c.closing
      ∧ { flags := 0x12, seq := first, ack := c.start.seq + 1, data := [] }
        :: (EchoServer.connection.outs opened c.later).reduceOption = c.replies := by
  intro opened
  obtain ⟨hechoes, hopened⟩ :=
    connection_echoes (first + 1) (c.start.seq + 1) c.data c.goesOn
  have hack : EchoServer.connection opened c.confirm
      = (some (.opened (first + 1) (c.start.seq + 1)), none) := by
    simp [opened, EchoServer.connection, Phase.answer, c.confirms]
  have hclose : ∀ snd rcv, EchoServer.connection (some (.opened snd rcv)) c.finish
      = (some (.closing (snd + 1) (rcv + 1)),
        some { flags := 0x11, seq := snd, ack := rcv + 1, data := [] }) := by
    intro snd rcv
    simp [EchoServer.connection, Phase.answer, c.ends]
  unfold later
  rw [after_cons, hack, after_append, hopened, after_cons, hclose, outs_cons, hack, outs_append, hopened,
    outs_cons, hclose, List.reduceOption_cons_of_none, List.reduceOption_append, hechoes]
  exact ⟨rfl, rfl⟩

/-- **A conversation**, from the SYN that finds a free slot to the FIN, whatever the other peers send
between. -/
theorem conversation (iss : Nat → U32) (is : List (κ × TcpSegment)) (hslot : slotOf n σ k = some i)
    (hfree : σ i = none) (c : Conversation (iss i)) (hlater : sentBy k is = c.later) :
    sentTo k ((k, c.start) :: is) ((serve n iss).outs σ ((k, c.start) :: is)) = c.replies
      ∧ ((serve n iss).after σ ((k, c.start) :: is)) i = some (k, c.closing) := by
  have hopens : serve n iss σ (k, c.start)
      = (σ.set i (some (k, .opening (iss i + 1) (c.start.seq + 1))),
        some { flags := 0x12, seq := iss i, ack := c.start.seq + 1, data := [] }) := by
    rw [serve_free hslot hfree, c.opens.1, c.opens.2]
    rfl
  obtain ⟨hafter, houts⟩ := c.connection
  rw [← hlater] at hafter houts
  obtain ⟨hreplies, hslot'⟩ := (Owns.claim hslot hfree (.opening (iss i + 1) (c.start.seq + 1))).alone
    iss is (by rw [Mem.set_same]) (by rw [hafter]; exact Option.some_ne_none _)
  rw [outs_cons, sentTo_cons, after_cons, hopens, if_pos rfl, hreplies, hslot', hafter, ← houts]
  exact ⟨rfl, rfl⟩

end Server

end Hw.EchoServer
