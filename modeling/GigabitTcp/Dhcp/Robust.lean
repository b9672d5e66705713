/-
  GigabitTcp.Dhcp.Robust — what a message of any shape makes the client do.

  `dhcp_read_opt` walks over the options of a message: from offset 240 on, past padding bytes
  and past every option that it does not take, to the end option or the end of the payload.
  The lengths it goes by are those of the sender; three bounds are none of its concern: the
  400 staged words, and the sizes of the two outputs it is called with.  And what
  `dhcp_rx_process` takes up is decided by the message type alone.

  The walk is described a second time, on the bytes of the message (`OptionAt`), and the array
  accesses of the code are logged and compared with it.

  Main results:
    * `dhcpScan_within_iff` — the accesses of one walk, as bounds on the options it comes to,
    * `dhcp_rx_robust_iff`  — the messages that are handled as they should be.
-/
import GigabitTcp.Dhcp.Client
import GigabitTcp.Hw.Logged
import Mathlib.Logic.Relation

namespace GigabitTcp

open Hw Logged

/-! ## §1. The code, with its accesses logged. -/

/-- The arrays of `dhcp_rx_process`: the staged frame, and the outputs `&msg_type` and `srv`. -/
inductive DhcpArr where
  | frameBuf
  | msgType
  | srv
  deriving Repr, DecidableEq

/-- The cells of each of them. -/
def DhcpArr.bounds : DhcpArr → Nat × Nat
  | .frameBuf => (0, frameBufWords)
  | .msgType => (0, 1)
  | .srv => (0, 4)

/-- `dhcp_read_byte`. -/
def dhcpReadByteLogged (buf : Mem U32) (base byteOff : Nat) : Logged DhcpArr U8 := do
  let w ← load .frameBuf buf (base + byteOff / 4)
  pure (wordByte w (byteOff % 4))

/-- The loop of `dhcp_read_opt` from offset `off`: the output array and the returned length, or
`none` if it has not come to its end within `fuel` rounds. -/
def dhcpScanLogged (buf : Mem U32) (out : DhcpArr) (base msgBytes : Nat) (target : U8) :
    Nat → Nat → Mem U8 → Logged DhcpArr (Option (Mem U8 × U8))
  | 0, _, _ => pure none
  | fuel + 1, off, m =>
      if off + 1 < msgBytes then do
        let c ← dhcpReadByteLogged buf base off
        if c = 255 then pure (some (m, 0))
        else if c = 0 then dhcpScanLogged buf out base msgBytes target fuel (off + 1) m
        else do
          let l ← dhcpReadByteLogged buf base (off + 1)
          if c = target ∧ l ≤ 4 then do
            let m ← loop (fun i m => do
              let b ← dhcpReadByteLogged buf base (off + 2 + i)
              store out m i b) (List.range l.toNat) m
            pure (some (m, l))
          else dhcpScanLogged buf out base msgBytes target fuel (off + 2 + l.toNat) m
      else pure (some (m, 0))

/-- `dhcp_read_opt`, with more rounds than there are bytes. -/
def dhcpReadOptLogged (buf : Mem U32) (out : DhcpArr) (base msgBytes : Nat) (target : U8) (m : Mem U8) :
    Logged DhcpArr (Option (Mem U8 × U8)) :=
  dhcpScanLogged buf out base msgBytes target (msgBytes + 1) 240 m

/-- `dhcp_rx_process`. -/
def dhcpRxLogged (resetN : Bool) (un : Uninit) (udpRx : UdpRx) (frameBuf : Mem U32) (d : DhcpClient) :
    Logged DhcpArr (Option DhcpClient) :=
  if !resetN || !udpRx.valid || udpRx.dstPort != dhcpClientPort then pure (some d)
  else do
    let msgBytes := udpRx.payloadLen.toNat
    let found ← dhcpReadOptLogged frameBuf .msgType 7 msgBytes 53 (fun _ => 0)
    match found with
    | none => pure none
    | some (msgType, _) =>
        if d.state = .waitOffer ∧ msgType 0 = dhcpMsgOffer then do
          let offeredIp ← load .frameBuf frameBuf 11
          let server ← dhcpReadOptLogged frameBuf .srv 7 msgBytes 54 un.srv
          match server with
          | none => pure none
          | some (b, len) =>
              let serverIp := if len = 0 then d.serverIp else packWord (b 0) (b 1) (b 2) (b 3)
              pure (some { d with offeredIp, serverIp, state := .request })
        else if d.state = .waitAck ∧ msgType 0 = dhcpMsgAck then
          pure (some { d with start := true, state := .done })
        else pure (some d)

/-! ### Without the log it is the model. -/

@[simp] theorem val_dhcpReadByteLogged (buf : Mem U32) (base byteOff : Nat) :
    (dhcpReadByteLogged buf base byteOff).val = dhcpReadByte buf base byteOff := rfl

@[simp] theorem log_dhcpReadByteLogged (buf : Mem U32) (base byteOff : Nat) :
    (dhcpReadByteLogged buf base byteOff).log = [(.frameBuf, base + byteOff / 4)] := rfl

/-- The data of an option, copied byte by byte. -/
theorem val_dhcpCopyLogged (buf : Mem U32) (out : DhcpArr) (base off n : Nat) (m : Mem U8) :
    (loop (fun i m => do
        let b ← dhcpReadByteLogged buf base (off + i)
        store out m i b) (List.range n) m).val
      = m.fill 0 n (fun i => dhcpReadByte buf base (off + i)) := by
  rw [val_loop, ← Mem.foldl_set_eq_fill]
  congr 1
  funext m i
  rw [Nat.zero_add]
  rfl

/-- What a walk leaves in its output, and returns. -/
def dhcpStored (m : Mem U8) (data : List U8) : Mem U8 × U8 :=
  (m.fill 0 data.length (fun i => data.getD i 0), BitVec.ofNat 8 data.length)

theorem dhcpStored_nil (m : Mem U8) : dhcpStored m [] = (m, 0) := by
  unfold dhcpStored
  rw [List.length_nil, Mem.fill_zero]
  rfl

theorem dhcpStored_map (m : Mem U8) (l : U8) (f : Nat → U8) :
    dhcpStored m ((List.range l.toNat).map f) = (m.fill 0 l.toNat f, l) := by
  unfold dhcpStored
  rw [List.length_map, List.length_range, BitVec.ofNat_toNat, BitVec.setWidth_eq]
  congr 1
  apply Mem.fill_congr
  intro i hi
  rw [List.getD_eq_getElem _ _ (by simpa using hi), List.getElem_map, List.getElem_range]

/-- **The loop comes to its end**, with the data of the model, when it has a round for every byte
that is left. -/
theorem val_dhcpScanLogged (buf : Mem U32) (out : DhcpArr) (base msgBytes : Nat) (target : U8) :
    ∀ (fuel off : Nat) (m : Mem U8), msgBytes ≤ off + fuel →
      (dhcpScanLogged buf out base msgBytes target (fuel + 1) off m).val
        = some (dhcpStored m (dhcpScanOpt buf base msgBytes target fuel off)) := by
  intro fuel
  induction fuel with
  | zero =>
      intro off m hfuel
      unfold dhcpScanLogged
      rw [if_neg (by omega)]
      exact congrArg some (dhcpStored_nil m).symm
  | succ fuel ih =>
      intro off m hfuel
      have hempty : some (m, 0) = some (dhcpStored m []) := congrArg some (dhcpStored_nil m).symm
      unfold dhcpScanLogged dhcpScanOpt
      dsimp only
      by_cases hroom : off + 1 < msgBytes
      · rw [if_pos hroom, if_pos hroom, val_bind, val_dhcpReadByteLogged]
        by_cases hend : dhcpReadByte buf base off = 255
        · rw [if_pos hend, if_pos hend]
          exact hempty
        · rw [if_neg hend, if_neg hend]
          by_cases hpad : dhcpReadByte buf base off = 0
          · rw [if_pos hpad, if_pos hpad]
            exact ih (off + 1) m (by omega)
          · rw [if_neg hpad, if_neg hpad, val_bind, val_dhcpReadByteLogged]
            by_cases hfits : dhcpReadByte buf base off = target ∧ dhcpReadByte buf base (off + 1) ≤ 4
            · rw [if_pos hfits, if_pos hfits, val_bind, val_dhcpCopyLogged, dhcpStored_map]
              rfl
            · rw [if_neg hfits, if_neg hfits]
              exact ih (off + 2 + (dhcpReadByte buf base (off + 1)).toNat) m (by omega)
      · rw [if_neg hroom, if_neg hroom]
        exact hempty

/-- Four bytes at most are taken. -/
theorem length_dhcpScanOpt (buf : Mem U32) (base msgBytes : Nat) (target : U8) :
    ∀ fuel off : Nat, (dhcpScanOpt buf base msgBytes target fuel off).length ≤ 4 := by
  intro fuel
  induction fuel with
  | zero => exact fun _ => Nat.zero_le 4
  | succ fuel ih =>
      intro off
      unfold dhcpScanOpt
      dsimp only
      split_ifs with hroom hend hpad hfits
      · exact Nat.zero_le 4
      · exact ih (off + 1)
      · rw [List.length_map, List.length_range]
        exact hfits.2
      · exact ih _
      · exact Nat.zero_le 4

/-- **The walk comes to its end**, whatever the message says. -/
theorem val_dhcpReadOptLogged (buf : Mem U32) (out : DhcpArr) (msgBytes : Nat) (target : U8) (m : Mem U8) :
    (dhcpReadOptLogged buf out 7 msgBytes target m).val
      = some (dhcpStored m (dhcpReadOpt buf 7 msgBytes target)) :=
  val_dhcpScanLogged buf out 7 msgBytes target msgBytes 240 m (by omega)

/-- The message type that is left in `msg_type`. -/
theorem dhcpStored_msgType (udpRx : UdpRx) (frameBuf : Mem U32) :
    (dhcpStored (fun _ => 0) (dhcpReadOpt frameBuf 7 udpRx.payloadLen.toNat 53)).1 0
      = dhcpMsgType udpRx frameBuf := by
  unfold dhcpMsgType dhcpStored
  cases dhcpReadOpt frameBuf 7 udpRx.payloadLen.toNat 53 with
  | nil => rfl
  | cons b data => rfl

/-- **`dhcp_rx_process` comes to its end**, and does what the model says. -/
theorem val_dhcpRxLogged (resetN : Bool) (un : Uninit) (udpRx : UdpRx) (frameBuf : Mem U32)
    (d : DhcpClient) : (dhcpRxLogged resetN un udpRx frameBuf d).val
      = some (dhcpRxProcess resetN un udpRx frameBuf d) := by
  unfold dhcpRxLogged dhcpRxProcess
  split
  · rfl
  · dsimp only
    rw [val_bind, val_dhcpReadOptLogged]
    dsimp only
    rw [dhcpStored_msgType]
    change _ = some (ite (d.state = .waitOffer ∧ dhcpMsgType udpRx frameBuf = dhcpMsgOffer) _
      (ite (d.state = .waitAck ∧ dhcpMsgType udpRx frameBuf = dhcpMsgAck) _ d))
    generalize dhcpMsgType udpRx frameBuf = msgType
    by_cases hoffer : d.state = .waitOffer ∧ msgType = dhcpMsgOffer
    · rw [if_pos hoffer, if_pos hoffer, val_bind, val_load, val_bind, val_dhcpReadOptLogged]
      have hlen := length_dhcpScanOpt frameBuf 7 udpRx.payloadLen.toNat 54 udpRx.payloadLen.toNat 240
      change (dhcpReadOpt frameBuf 7 udpRx.payloadLen.toNat 54).length ≤ 4 at hlen
      generalize dhcpReadOpt frameBuf 7 udpRx.payloadLen.toNat 54 = srv at hlen ⊢
      have hnone : BitVec.ofNat 8 srv.length = 0 ↔ srv = [] := by
        rw [← List.length_eq_zero_iff]
        bv_omega
      show some _ = some _
      simp only [dhcpStored, hnone]
      rfl
    · rw [if_neg hoffer, if_neg hoffer]
      by_cases hack : d.state = .waitAck ∧ msgType = dhcpMsgAck
      · rw [if_pos hack, if_pos hack]
        rfl
      · rw [if_neg hack, if_neg hack]
        rfl

/-! ## §2. The options of a message. -/

section Walk

variable (msg : Nat → U8) (len : Nat) (target : U8)

/-- The option at `o` is taken: the right code, and four bytes at most. -/
def OptTaken (o : Nat) : Prop := msg o = target ∧ msg (o + 1) ≤ 4

/-- From the option at `o` the walk goes on to `o'`. -/
inductive OptNext : Nat → Nat → Prop where
  | pad {o : Nat} (hroom : o + 1 < len) (hc : msg o = 0) : OptNext o (o + 1)
  | skip {o : Nat} (hroom : o + 1 < len) (hpad : msg o ≠ 0) (hend : msg o ≠ 255)
      (hother : ¬ OptTaken msg target o) : OptNext o (o + 2 + (msg (o + 1)).toNat)

/-- The walk from `start` comes to an option at `o`: a code that has a byte behind it in the payload. -/
def OptionAt (start o : Nat) : Prop := Relation.ReflTransGen (OptNext msg len target) start o ∧ o + 1 < len

instance (o : Nat) : Decidable (OptTaken msg target o) := inferInstanceAs (Decidable (_ ∧ _))

/-- The end of what is read of the option at `o`: padding and the end option are a single byte, of
an option that is not taken only code and length count. -/
def optEnd (o : Nat) : Nat :=
  if msg o = 0 ∨ msg o = 255 then o + 1
  else if OptTaken msg target o then o + 2 + (msg (o + 1)).toNat
  else o + 2

variable {msg len target}

theorem OptNext.room {o next : Nat} (h : OptNext msg len target o next) : o + 1 < len := by
  cases h with
  | pad hroom => exact hroom
  | skip hroom => exact hroom

/-- The walk has one way to go on. -/
theorem OptNext.unique {o a b : Nat} (ha : OptNext msg len target o a) (hb : OptNext msg len target o b) :
    a = b := by
  cases ha with
  | pad _ hc =>
      cases hb with
      | pad => rfl
      | skip _ hpad => exact absurd hc hpad
  | skip _ hpad =>
      cases hb with
      | pad _ hc => exact absurd hc hpad
      | skip => rfl

/-- It ends at the end option and at the one that is taken. -/
theorem OptNext.not_end {o next : Nat} (h : OptNext msg len target o next) : msg o ≠ 255 := by
  cases h with
  | pad _ hc =>
      rw [hc]
      decide
  | skip _ _ hend => exact hend

theorem OptNext.not_taken {o next : Nat} (h : OptNext msg len target o next) (hpad : target ≠ 0) :
    ¬ OptTaken msg target o := by
  cases h with
  | pad _ hc => exact fun htaken => hpad (htaken.1.symm.trans hc)
  | skip _ _ _ hother => exact hother

/-- What the walk finds at `o`: no option, the end option, the option it looks for, or one that it
passes. -/
inductive OptCase (msg : Nat → U8) (len : Nat) (target : U8) (o : Nat) : Prop where
  | outside (h : len ≤ o + 1)
  | stop (hroom : o + 1 < len) (hc : msg o = 255)
  | taken (hroom : o + 1 < len) (hpad : msg o ≠ 0) (hend : msg o ≠ 255) (h : OptTaken msg target o)
  | next (o' : Nat) (h : OptNext msg len target o o')

theorem optCase (msg : Nat → U8) (len : Nat) (target : U8) (o : Nat) : OptCase msg len target o := by
  by_cases hroom : o + 1 < len
  · by_cases hc : msg o = 255
    · exact .stop hroom hc
    · by_cases hpad : msg o = 0
      · exact .next _ (.pad hroom hpad)
      · by_cases h : OptTaken msg target o
        · exact .taken hroom hpad hc h
        · exact .next _ (.skip hroom hpad hc h)
  · exact .outside (by omega)

theorem OptNext.lt {o next : Nat} (h : OptNext msg len target o next) : o < next := by
  cases h <;> omega

/-- Behind the payload there is no option. -/
theorem not_optionAt {start : Nat} (h : len ≤ start + 1) (o : Nat) : ¬ OptionAt msg len target start o := by
  rintro ⟨hwalk, hroom⟩
  rcases hwalk.cases_head with rfl | ⟨next, hnext, -⟩
  · omega
  · have := hnext.room
    omega

/-- The last option of a walk. -/
theorem optionAt_last {start : Nat} (hroom : start + 1 < len)
    (hlast : ∀ next, ¬ OptNext msg len target start next) (o : Nat) : OptionAt msg len target start o ↔ o = start := by
  constructor
  · rintro ⟨hwalk, -⟩
    rcases hwalk.cases_head with rfl | ⟨next, hnext, -⟩
    · rfl
    · exact absurd hnext (hlast next)
  · rintro rfl
    exact ⟨.refl, hroom⟩

/-- An option, and those behind it. -/
theorem optionAt_next {start next : Nat} (h : OptNext msg len target start next) (o : Nat) :
    OptionAt msg len target start o ↔ o = start ∨ OptionAt msg len target next o := by
  constructor
  · rintro ⟨hwalk, hroom⟩
    rcases hwalk.cases_head with rfl | ⟨other, hother, hwalk⟩
    · exact .inl rfl
    · rw [hother.unique h] at hwalk
      exact .inr ⟨hwalk, hroom⟩
  · rintro (rfl | ⟨hwalk, hroom⟩)
    · exact ⟨.refl, h.room⟩
    · exact ⟨.head h hwalk, hroom⟩

end Walk

/-! ## §3. The accesses of a walk. -/

/-- The bytes of the message that have been staged: behind the IP and UDP headers. -/
def dhcpStagedBytes : Nat := 4 * frameBufWords - 28

theorem within_readByte (k : Nat) :
    Within DhcpArr.bounds [(DhcpArr.frameBuf, 7 + k / 4)] ↔ k < dhcpStagedBytes := by
  rw [within_cons]
  unfold dhcpStagedBytes frameBufWords
  show (0 ≤ 7 + k / 4 ∧ 7 + k / 4 < 400) ∧ Within DhcpArr.bounds [] ↔ _
  simp only [within_nil, and_true]
  omega

/-- Copying the data of an option. -/
theorem within_copy {out : DhcpArr} {size : Nat} (hout : out.bounds = (0, size)) (buf : Mem U32)
    (off n : Nat) (m : Mem U8) :
    Within DhcpArr.bounds (loop (fun i m => do
        let b ← dhcpReadByteLogged buf 7 (off + i)
        store out m i b) (List.range n) m).log
      ↔ ∀ i, i < n → off + i < dhcpStagedBytes ∧ i < size := by
  rw [log_loop (g := fun i => [(DhcpArr.frameBuf, 7 + (off + i) / 4), (out, i)]) (fun _ _ => rfl),
    within_flatMap]
  apply forall_congr'
  intro i
  rw [List.mem_range, show [(DhcpArr.frameBuf, 7 + (off + i) / 4), (out, i)]
    = [(DhcpArr.frameBuf, 7 + (off + i) / 4)] ++ [(out, i)] from rfl, within_append, within_readByte,
    within_cons, hout]
  simp

/-- The option at `o` lies in the staged bytes, and the output has room for it if it is taken. -/
def OptInside (msg : Nat → U8) (target : U8) (size o : Nat) : Prop :=
  optEnd msg target o ≤ dhcpStagedBytes ∧ (OptTaken msg target o → (msg (o + 1)).toNat ≤ size)

variable {msg : Nat → U8} {target : U8} {size o : Nat}

theorem optInside_single (h : msg o = 0 ∨ msg o = 255) (hpad : target ≠ 0) (hend : target ≠ 255) :
    OptInside msg target size o ↔ o < dhcpStagedBytes := by
  have hother : ¬ OptTaken msg target o := by
    rintro ⟨hc, -⟩
    rw [hc] at h
    exact h.elim hpad hend
  unfold OptInside optEnd
  rw [if_pos h]
  simp only [hother, false_imp_iff, and_true]
  exact Nat.succ_le_iff

theorem optInside_other (hsingle : ¬ (msg o = 0 ∨ msg o = 255)) (h : ¬ OptTaken msg target o) :
    OptInside msg target size o ↔ o + 1 < dhcpStagedBytes := by
  unfold OptInside optEnd
  rw [if_neg hsingle, if_neg h]
  simp only [h, false_imp_iff, and_true]
  exact Nat.succ_le_iff

theorem optInside_taken (hsingle : ¬ (msg o = 0 ∨ msg o = 255)) (h : OptTaken msg target o) :
    OptInside msg target size o
      ↔ o + 2 + (msg (o + 1)).toNat ≤ dhcpStagedBytes ∧ (msg (o + 1)).toNat ≤ size := by
  unfold OptInside optEnd
  rw [if_neg hsingle, if_pos h]
  simp only [h, true_imp_iff]

/-- Code, length and data of an option that is taken, byte by byte and as a whole. -/
theorem inside_taken_iff {o n size : Nat} :
    (o < dhcpStagedBytes ∧ o + 1 < dhcpStagedBytes ∧ ∀ i, i < n → o + 2 + i < dhcpStagedBytes ∧ i < size)
      ↔ o + 2 + n ≤ dhcpStagedBytes ∧ n ≤ size := by
  constructor
  · rintro ⟨-, hlen, hdata⟩
    cases n with
    | zero => exact ⟨hlen, Nat.zero_le size⟩
    | succ n =>
        have hlast := hdata n n.lt_succ_self
        omega
  · rintro ⟨hinside, hsize⟩
    exact ⟨by omega, by omega, fun i hi => by omega⟩

section Round

variable (buf : Mem U32) {out : DhcpArr} {len off : Nat} (fuel : Nat) (m : Mem U8)

/-! ### One round. -/

theorem log_dhcpScan_outside (h : len ≤ off + 1) :
    (dhcpScanLogged buf out 7 len target (fuel + 1) off m).log = [] := by
  unfold dhcpScanLogged
  rw [if_neg (by omega)]
  rfl

theorem within_dhcpScan_stop (hroom : off + 1 < len) (hc : buf.byteAt 7 off = 255) (hpad : target ≠ 0)
    (hend : target ≠ 255) : Within DhcpArr.bounds (dhcpScanLogged buf out 7 len target (fuel + 1) off m).log
      ↔ OptInside (buf.byteAt 7) target size off := by
  unfold dhcpScanLogged
  rw [if_pos hroom, log_bind, within_append, log_dhcpReadByteLogged, within_readByte,
    val_dhcpReadByteLogged]
  show _ ∧ Within DhcpArr.bounds (Logged.log (ite (buf.byteAt 7 off = 255) _ _)) ↔ _
  rw [if_pos hc, optInside_single (.inr hc) hpad hend]
  exact and_iff_left within_nil

theorem within_dhcpScan_taken (hout : out.bounds = (0, size)) (hroom : off + 1 < len)
    (hpad : buf.byteAt 7 off ≠ 0) (hend : buf.byteAt 7 off ≠ 255) (h : OptTaken (buf.byteAt 7) target off) :
    Within DhcpArr.bounds (dhcpScanLogged buf out 7 len target (fuel + 1) off m).log
      ↔ OptInside (buf.byteAt 7) target size off := by
  unfold dhcpScanLogged
  rw [if_pos hroom, log_bind, within_append, log_dhcpReadByteLogged, within_readByte,
    val_dhcpReadByteLogged]
  show _ ∧ Within DhcpArr.bounds
    (Logged.log (ite (buf.byteAt 7 off = 255) _ (ite (buf.byteAt 7 off = 0) _ _))) ↔ _
  rw [if_neg hend, if_neg hpad, log_bind, within_append, log_dhcpReadByteLogged, within_readByte,
    val_dhcpReadByteLogged]
  show _ ∧ _ ∧ Within DhcpArr.bounds (Logged.log (ite (OptTaken (buf.byteAt 7) target off) _ _)) ↔ _
  rw [if_pos h, log_bind, within_append, within_copy hout, optInside_taken (not_or.mpr ⟨hpad, hend⟩) h]
  show _ ∧ _ ∧ (∀ i, i < (buf.byteAt 7 (off + 1)).toNat → _) ∧ Within DhcpArr.bounds [] ↔ _
  rw [and_iff_left within_nil]
  exact inside_taken_iff

/-- A round that goes on. -/
theorem within_dhcpScan_next {next : Nat} (h : OptNext (buf.byteAt 7) len target off next) (hpad : target ≠ 0)
    (hend : target ≠ 255) : Within DhcpArr.bounds (dhcpScanLogged buf out 7 len target (fuel + 1) off m).log
      ↔ OptInside (buf.byteAt 7) target size off
        ∧ Within DhcpArr.bounds (dhcpScanLogged buf out 7 len target fuel next m).log := by
  rw [dhcpScanLogged, if_pos h.room, log_bind, within_append, log_dhcpReadByteLogged, within_readByte,
    val_dhcpReadByteLogged]
  show _ ∧ Within DhcpArr.bounds
    (Logged.log (ite (buf.byteAt 7 off = 255) _ (ite (buf.byteAt 7 off = 0) _ _))) ↔ _
  rw [if_neg h.not_end]
  cases h with
  | pad _ hc => rw [if_pos hc, optInside_single (.inl hc) hpad hend]
  | skip _ hcode hstop hother =>
      rw [if_neg hcode, log_bind, within_append, log_dhcpReadByteLogged, within_readByte,
        val_dhcpReadByteLogged]
      show _ ∧ _ ∧ Within DhcpArr.bounds (Logged.log (ite (OptTaken (buf.byteAt 7) target off) _ _)) ↔ _
      rw [if_neg hother, optInside_other (not_or.mpr ⟨hcode, hstop⟩) hother, ← and_assoc,
        and_iff_right_of_imp Nat.lt_of_succ_lt]
      rfl

end Round

/-- **The accesses of one walk** stay in bounds exactly if all options that it comes to lie inside. -/
theorem dhcpScan_within_iff (buf : Mem U32) {out : DhcpArr} {size : Nat} (hout : out.bounds = (0, size))
    (len : Nat) {target : U8} (hpad : target ≠ 0) (hend : target ≠ 255) : ∀ (fuel off : Nat) (m : Mem U8),
      len ≤ off + fuel →
        (Within DhcpArr.bounds (dhcpScanLogged buf out 7 len target (fuel + 1) off m).log
          ↔ ∀ o, OptionAt (buf.byteAt 7) len target off o → OptInside (buf.byteAt 7) target size o) := by
  intro fuel
  induction fuel with
  | zero =>
      intro off m hfuel
      rw [log_dhcpScan_outside buf 0 m (by omega)]
      exact ⟨fun _ o ho => absurd ho (not_optionAt (by omega) o), fun _ => within_nil⟩
  | succ fuel ih =>
      intro off m hfuel
      cases optCase (buf.byteAt 7) len target off with
      | outside h =>
          rw [log_dhcpScan_outside buf _ m h]
          exact ⟨fun _ o ho => absurd ho (not_optionAt h o), fun _ => within_nil⟩
      | stop hroom hc =>
          simp only [optionAt_last hroom fun _ h => h.not_end hc, forall_eq]
          exact within_dhcpScan_stop buf _ m hroom hc hpad hend
      | taken hroom hcode hstop h =>
          simp only [optionAt_last hroom fun _ hnext => hnext.not_taken hpad h, forall_eq]
          exact within_dhcpScan_taken buf _ m hout hroom hcode hstop h
      | next off' h =>
          have hlt := h.lt
          simp only [optionAt_next h, forall_eq_or_imp]
          rw [within_dhcpScan_next buf _ m h hpad hend]
          exact and_congr_right fun _ => ih off' m (by omega)

/-! ## §4. What a walk finds. -/

/-- The option at `o` is taken, is not empty and begins with the byte `t`. -/
def OptBegins (msg : Nat → U8) (target t : U8) (o : Nat) : Prop :=
  OptTaken msg target o ∧ msg (o + 1) ≠ 0 ∧ msg (o + 2) = t

theorem not_optBegins {t : U8} (h : ¬ OptTaken msg target o) : ¬ OptBegins msg target t o := fun hb => h hb.1

/-- The first byte of the data of an option. -/
theorem getD_data (l t : U8) (f : Nat → U8) (ht : t ≠ 0) :
    ((List.range l.toNat).map f).getD 0 0 = t ↔ l ≠ 0 ∧ f 0 = t := by
  by_cases hl : l = 0
  · rw [hl]
    exact ⟨fun h => absurd h.symm ht, fun h => absurd rfl h.1⟩
  · have hpos : 0 < l.toNat := by bv_omega
    rw [List.getD_eq_getElem _ _ (by simpa using hpos), List.getElem_map, List.getElem_range]
    exact (and_iff_right hl).symm

theorem dhcpScanOpt_outside (buf : Mem U32) {len off : Nat} (target : U8) (fuel : Nat) (h : len ≤ off + 1) :
    dhcpScanOpt buf 7 len target fuel off = [] := by
  cases fuel with
  | zero => rfl
  | succ fuel =>
      unfold dhcpScanOpt
      rw [if_neg (by omega)]

theorem dhcpScanOpt_stop (buf : Mem U32) {len off : Nat} (target : U8) (fuel : Nat)
    (hc : buf.byteAt 7 off = 255) : dhcpScanOpt buf 7 len target (fuel + 1) off = [] := by
  unfold dhcpScanOpt
  show ite (off + 1 < len) (ite (buf.byteAt 7 off = 255) _ _) _ = _
  rw [if_pos hc, ite_self]

theorem dhcpScanOpt_taken (buf : Mem U32) {len off : Nat} (fuel : Nat) (hroom : off + 1 < len)
    (hpad : buf.byteAt 7 off ≠ 0) (hend : buf.byteAt 7 off ≠ 255) (h : OptTaken (buf.byteAt 7) target off) :
    dhcpScanOpt buf 7 len target (fuel + 1) off
      = (List.range (buf.byteAt 7 (off + 1)).toNat).map fun i => buf.byteAt 7 (off + 2 + i) := by
  unfold dhcpScanOpt
  rw [if_pos hroom]
  show ite (buf.byteAt 7 off = 255) _ (ite (buf.byteAt 7 off = 0) _
    (ite (OptTaken (buf.byteAt 7) target off) _ _)) = _
  rw [if_neg hend, if_neg hpad, if_pos h]
  rfl

/-- A round that goes on. -/
theorem dhcpScanOpt_next (buf : Mem U32) {len off next : Nat} (fuel : Nat)
    (h : OptNext (buf.byteAt 7) len target off next) :
    dhcpScanOpt buf 7 len target (fuel + 1) off = dhcpScanOpt buf 7 len target fuel next := by
  rw [dhcpScanOpt, if_pos h.room]
  show ite (buf.byteAt 7 off = 255) _ (ite (buf.byteAt 7 off = 0) _
    (ite (OptTaken (buf.byteAt 7) target off) _ _)) = _
  rw [if_neg h.not_end]
  cases h with
  | pad _ hc => rw [if_pos hc]
  | skip _ hcode _ hother =>
      rw [if_neg hcode, if_neg hother]
      rfl

/-- **The data that a walk finds** is that of the first option that is taken. -/
theorem dhcpScanOpt_begins_iff (buf : Mem U32) (len : Nat) {target t : U8} (hpad : target ≠ 0)
    (hend : target ≠ 255) (ht : t ≠ 0) : ∀ fuel off : Nat, len ≤ off + fuel →
      ((dhcpScanOpt buf 7 len target fuel off).getD 0 0 = t
        ↔ ∃ o, OptionAt (buf.byteAt 7) len target off o ∧ OptBegins (buf.byteAt 7) target t o) := by
  intro fuel
  induction fuel with
  | zero =>
      intro off hfuel
      exact ⟨fun h => absurd h.symm ht, fun ⟨o, ho, _⟩ => absurd ho (not_optionAt (by omega) o)⟩
  | succ fuel ih =>
      intro off hfuel
      cases optCase (buf.byteAt 7) len target off with
      | outside h =>
          rw [dhcpScanOpt_outside buf target _ h]
          exact ⟨fun h => absurd h.symm ht, fun ⟨o, ho, _⟩ => absurd ho (not_optionAt h o)⟩
      | stop hroom hc =>
          have hother : ¬ OptTaken (buf.byteAt 7) target off := fun h => hend (h.1.symm.trans hc)
          simp only [optionAt_last hroom fun _ h => h.not_end hc, exists_eq_left, not_optBegins hother,
            iff_false]
          rw [dhcpScanOpt_stop buf target fuel hc]
          exact ht.symm
      | taken hroom hcode hstop h =>
          simp only [optionAt_last hroom fun _ hnext => hnext.not_taken hpad h, exists_eq_left]
          rw [dhcpScanOpt_taken buf fuel hroom hcode hstop h]
          exact (getD_data _ t _ ht).trans (and_iff_right h).symm
      | next off' h =>
          have hlt := h.lt
          simp only [optionAt_next h, exists_eq_or_imp, not_optBegins (h.not_taken hpad), false_or]
          rw [dhcpScanOpt_next buf fuel h]
          exact ih off' (by omega)

/-- The message is of type `t`: its first option 53 of at most four bytes begins with it. -/
def DhcpTypeIs (frameBuf : Mem U32) (len : Nat) (t : U8) : Prop :=
  ∃ o, OptionAt (frameBuf.byteAt 7) len 53 240 o ∧ OptBegins (frameBuf.byteAt 7) 53 t o

theorem dhcpMsgType_eq_iff (udpRx : UdpRx) (frameBuf : Mem U32) {t : U8} (ht : t ≠ 0) :
    dhcpMsgType udpRx frameBuf = t ↔ DhcpTypeIs frameBuf udpRx.payloadLen.toNat t :=
  dhcpScanOpt_begins_iff frameBuf _ (by decide) (by decide) ht _ 240 (by omega)

/-! ## §5. The messages that are handled as they should be. -/

/-- A reply to the client: its op, its transaction and its magic cookie. -/
structure DhcpReplyTo (xid : U32) (frameBuf : Mem U32) : Prop where
  op : frameBuf.byteAt 7 0 = dhcpOpReply
  xid : frameBuf 8 = xid
  cookie : frameBuf 66 = dhcpMagicCookie

/-- `dhcp_rx_process` comes to its end, stays in its arrays, and is moved by replies alone. -/
structure DhcpRxRobust (resetN : Bool) (un : Uninit) (udpRx : UdpRx) (frameBuf : Mem U32)
    (d : DhcpClient) : Prop where
  ends : (dhcpRxLogged resetN un udpRx frameBuf d).val = some (dhcpRxProcess resetN un udpRx frameBuf d)
  within : Within DhcpArr.bounds (dhcpRxLogged resetN un udpRx frameBuf d).log
  guarded : (dhcpRxProcess resetN un udpRx frameBuf d).state ≠ d.state
    ∨ (dhcpRxProcess resetN un udpRx frameBuf d).offeredIp ≠ d.offeredIp
    ∨ (dhcpRxProcess resetN un udpRx frameBuf d).serverIp ≠ d.serverIp → DhcpReplyTo d.xid frameBuf

/-- A message of `len` bytes that does no harm: the options that the walks come to lie in the staged
bytes and in the outputs, and what the client would take up is a reply to it. -/
structure DhcpHarmless (frameBuf : Mem U32) (len : Nat) (d : DhcpClient) : Prop where
  msgType : ∀ o, OptionAt (frameBuf.byteAt 7) len 53 240 o → OptInside (frameBuf.byteAt 7) 53 1 o
  srv : d.state = .waitOffer ∧ DhcpTypeIs frameBuf len dhcpMsgOffer →
    ∀ o, OptionAt (frameBuf.byteAt 7) len 54 240 o → OptInside (frameBuf.byteAt 7) 54 4 o
  reply : d.state = .waitOffer ∧ DhcpTypeIs frameBuf len dhcpMsgOffer
    ∨ d.state = .waitAck ∧ DhcpTypeIs frameBuf len dhcpMsgAck → DhcpReplyTo d.xid frameBuf

section Message

variable {resetN : Bool} {un : Uninit} {udpRx : UdpRx} {frameBuf : Mem U32} {d : DhcpClient}

/-- A message that is not for the client is not looked at. -/
theorem dhcpRxRobust_of_other (h : (!resetN || !udpRx.valid || udpRx.dstPort != dhcpClientPort) = true) :
    DhcpRxRobust resetN un udpRx frameBuf d := by
  have hstays : dhcpRxProcess resetN un udpRx frameBuf d = d := if_pos h
  have hlog : (dhcpRxLogged resetN un udpRx frameBuf d).log = [] := by
    unfold dhcpRxLogged
    rw [if_pos h]
    rfl
  refine ⟨val_dhcpRxLogged resetN un udpRx frameBuf d, ?_, ?_⟩
  · rw [hlog]
    exact within_nil
  · rw [hstays]
    rintro (hne | hne | hne) <;> exact absurd rfl hne

/-- What one message does: it is taken as an OFFER, as an ACK, or not at all. -/
theorem dhcpRx_cases (un : Uninit) (frameBuf : Mem U32) (d : DhcpClient)
    (h : ¬ (!resetN || !udpRx.valid || udpRx.dstPort != dhcpClientPort) = true) :
    ((d.state = .waitOffer ∧ dhcpMsgType udpRx frameBuf = dhcpMsgOffer)
        ∧ (dhcpRxProcess resetN un udpRx frameBuf d).state = .request)
      ∨ ((d.state = .waitAck ∧ dhcpMsgType udpRx frameBuf = dhcpMsgAck)
        ∧ (dhcpRxProcess resetN un udpRx frameBuf d).state = .done)
      ∨ (¬ (d.state = .waitOffer ∧ dhcpMsgType udpRx frameBuf = dhcpMsgOffer)
        ∧ ¬ (d.state = .waitAck ∧ dhcpMsgType udpRx frameBuf = dhcpMsgAck)
        ∧ dhcpRxProcess resetN un udpRx frameBuf d = d) := by
  unfold dhcpRxProcess
  rw [if_neg h]
  by_cases hoffer : d.state = .waitOffer ∧ dhcpMsgType udpRx frameBuf = dhcpMsgOffer
  · refine .inl ⟨hoffer, ?_⟩
    unfold dhcpMsgType at hoffer
    rw [if_pos hoffer]
  · by_cases hack : d.state = .waitAck ∧ dhcpMsgType udpRx frameBuf = dhcpMsgAck
    · refine .inr (.inl ⟨hack, ?_⟩)
      unfold dhcpMsgType at hoffer hack
      rw [if_neg hoffer, if_pos hack]
    · refine .inr (.inr ⟨hoffer, hack, ?_⟩)
      unfold dhcpMsgType at hoffer hack
      rw [if_neg hoffer, if_neg hack]

/-- The messages that move the client. -/
theorem dhcpRx_moves_iff (un : Uninit)
    (h : ¬ (!resetN || !udpRx.valid || udpRx.dstPort != dhcpClientPort) = true) :
    (dhcpRxProcess resetN un udpRx frameBuf d).state ≠ d.state
        ∨ (dhcpRxProcess resetN un udpRx frameBuf d).offeredIp ≠ d.offeredIp
        ∨ (dhcpRxProcess resetN un udpRx frameBuf d).serverIp ≠ d.serverIp
      ↔ d.state = .waitOffer ∧ DhcpTypeIs frameBuf udpRx.payloadLen.toNat dhcpMsgOffer
        ∨ d.state = .waitAck ∧ DhcpTypeIs frameBuf udpRx.payloadLen.toNat dhcpMsgAck := by
  rw [← dhcpMsgType_eq_iff udpRx frameBuf (by decide), ← dhcpMsgType_eq_iff udpRx frameBuf (by decide)]
  rcases dhcpRx_cases un frameBuf d h with ⟨hoffer, hto⟩ | ⟨hack, hto⟩ | ⟨hoffer, hack, hstays⟩
  · refine ⟨fun _ => .inl hoffer, fun _ => .inl ?_⟩
    rw [hto, hoffer.1]
    decide
  · refine ⟨fun _ => .inr hack, fun _ => .inl ?_⟩
    rw [hto, hack.1]
    decide
  · rw [hstays]
    constructor
    · rintro (hne | hne | hne) <;> exact absurd rfl hne
    · rintro (hcase | hcase)
      · exact absurd hcase hoffer
      · exact absurd hcase hack

/-- The accesses of one message. -/
theorem dhcpRx_within_iff (un : Uninit)
    (h : ¬ (!resetN || !udpRx.valid || udpRx.dstPort != dhcpClientPort) = true) :
    Within DhcpArr.bounds (dhcpRxLogged resetN un udpRx frameBuf d).log
      ↔ (∀ o, OptionAt (frameBuf.byteAt 7) udpRx.payloadLen.toNat 53 240 o
            → OptInside (frameBuf.byteAt 7) 53 1 o)
        ∧ (d.state = .waitOffer ∧ DhcpTypeIs frameBuf udpRx.payloadLen.toNat dhcpMsgOffer →
            ∀ o, OptionAt (frameBuf.byteAt 7) udpRx.payloadLen.toNat 54 240 o
              → OptInside (frameBuf.byteAt 7) 54 4 o) := by
  have htype : Within DhcpArr.bounds
      (dhcpReadOptLogged frameBuf .msgType 7 udpRx.payloadLen.toNat 53 fun _ => 0).log ↔ _ :=
    dhcpScan_within_iff frameBuf (show _ = (0, 1) from rfl) _ (by decide) (by decide) _ 240 _ (by omega)
  have hsrv : Within DhcpArr.bounds
      (dhcpReadOptLogged frameBuf .srv 7 udpRx.payloadLen.toNat 54 un.srv).log ↔ _ :=
    dhcpScan_within_iff frameBuf (show _ = (0, 4) from rfl) _ (by decide) (by decide) _ 240 _ (by omega)
  rw [← dhcpMsgType_eq_iff udpRx frameBuf (by decide), ← htype, ← hsrv]
  unfold dhcpRxLogged
  rw [if_neg h, log_bind, within_append]
  apply and_congr_right
  intro _
  rw [val_dhcpReadOptLogged]
  dsimp only
  rw [dhcpStored_msgType]
  by_cases hoffer : d.state = .waitOffer ∧ dhcpMsgType udpRx frameBuf = dhcpMsgOffer
  · rw [if_pos hoffer, imp_iff_right hoffer, log_bind, log_load, log_bind, val_dhcpReadOptLogged]
    have hyiaddr : Within DhcpArr.bounds [(DhcpArr.frameBuf, 11)] := by decide
    have hend : Within DhcpArr.bounds ([] : List (DhcpArr × Nat)) := within_nil
    rw [within_append, within_append, and_iff_right hyiaddr]
    exact and_iff_left hend
  · rw [if_neg hoffer, iff_true_right fun h => absurd h hoffer]
    split <;> exact within_nil

end Message

/-- **A message is handled as it should be** exactly if it is not for the client or does no harm. -/
theorem dhcp_rx_robust_iff (resetN : Bool) (un : Uninit) (udpRx : UdpRx) (frameBuf : Mem U32)
    (d : DhcpClient) : DhcpRxRobust resetN un udpRx frameBuf d
      ↔ (resetN = true → udpRx.valid = true → udpRx.dstPort = dhcpClientPort →
          DhcpHarmless frameBuf udpRx.payloadLen.toNat d) := by
  by_cases h : (!resetN || !udpRx.valid || udpRx.dstPort != dhcpClientPort) = true
  · refine ⟨fun _ hreset hvalid hport => ?_, fun _ => dhcpRxRobust_of_other h⟩
    rw [hreset, hvalid, hport] at h
    cases h
  · have hours : resetN = true ∧ udpRx.valid = true ∧ udpRx.dstPort = dhcpClientPort := by
      simpa [and_assoc] using h
    constructor
    · intro hrobust _ _ _
      obtain ⟨htype, hsrv⟩ := (dhcpRx_within_iff un h).mp hrobust.within
      exact ⟨htype, hsrv, fun hcase => hrobust.guarded ((dhcpRx_moves_iff un h).mpr hcase)⟩
    · intro hharmless
      have hmsg := hharmless hours.1 hours.2.1 hours.2.2
      exact ⟨val_dhcpRxLogged resetN un udpRx frameBuf d,
        (dhcpRx_within_iff un h).mpr ⟨hmsg.msgType, hmsg.srv⟩,
        fun hmoves => hmsg.reply ((dhcpRx_moves_iff un h).mp hmoves)⟩

/-- A message of `len` bytes for the client. -/
def dhcpDatagram (len : U16) : UdpRx := { valid := true, dstPort := dhcpClientPort, payloadLen := len }

/-- A message that is empty but for the word `w` at offset 240. -/
def dhcpOptionWord (w : U32) : Mem U32 := fun k => if k = 67 then w else 0

/-- An OFFER with neither op nor transaction nor cookie moves the client; a message type of four
bytes is stored beside `msg_type`; options of 254 bytes lead the walk out of the staged words. -/
theorem dhcp_rx_not_robust :
    let d : DhcpClient := { state := .waitOffer, xid := 0x12345678 }
    ¬ DhcpRxRobust true Uninit.zero (dhcpDatagram 244) (dhcpOptionWord 0x350102FF) d
      ∧ ¬ DhcpRxRobust true Uninit.zero (dhcpDatagram 246) (dhcpOptionWord 0x35040000) d
      ∧ ¬ DhcpRxRobust true Uninit.zero (dhcpDatagram 2000) (fun _ => 0xFEFEFEFE) d := by
  refine ⟨fun hforged => ?_, fun htype => ?_, fun hlong => ?_⟩
  · have hop := (hforged.guarded (.inl (by decide +kernel))).op
    exact absurd hop (by decide +kernel)
  · exact absurd htype.within (by decide +kernel)
  · exact absurd hlong.within (by decide +kernel)

end GigabitTcp
