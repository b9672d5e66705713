/-
  GigabitTcp.Dhcp.Options — the options of a DHCP message, written and read back.

  `dhcp_write_opt` appends code, length and data of an option; an end option closes the list.
  `dhcp_read_opt` walks over the options and stops at the first one of the code it looks for.

  Main results:
    * `dhcpMessage_writeOpts` — the message bytes behind offset 240 are the encoded options,
    * `dhcpScanOpt_encoded`  — the scan of encoded options finds the first one of its code,
    * `dhcpReadOpt_dhcpSend` — so it does in the message of a frame that is sent.
-/
import GigabitTcp.LayerDhcp

namespace GigabitTcp

open Hw

/-- The bytes of one option. -/
def optBytes (o : U8 × U8 × List U8) : List U8 := o.1 :: o.2.1 :: o.2.2.take o.2.1.toNat

/-- The bytes of a list of options, behind the end option. -/
def encodeOpts (opts : List (U8 × U8 × List U8)) : List U8 := opts.flatMap optBytes ++ [255, 0]

/-- An option that the scan can find: neither padding nor the end, one to four data bytes. -/
structure OptReadable (o : U8 × U8 × List U8) : Prop where
  notPad : o.1 ≠ 0
  notEnd : o.1 ≠ 255
  short : o.2.1 ≤ 4
  full : o.2.1.toNat ≤ o.2.2.length

theorem length_optBytes {o : U8 × U8 × List U8} (h : OptReadable o) :
    (optBytes o).length = 2 + o.2.1.toNat := by
  unfold optBytes
  rw [List.length_cons, List.length_cons, List.length_take, Nat.min_eq_left h.full]
  omega

theorem encodeOpts_cons (o : U8 × U8 × List U8) (opts : List (U8 × U8 × List U8)) :
    encodeOpts (o :: opts) = optBytes o ++ encodeOpts opts := by
  unfold encodeOpts
  rw [List.flatMap_cons, List.append_assoc]

/-! ## §1. Writing. -/

/-- The bytes of the message that is under construction. -/
def dhcpMessage (buf : Mem U32) : Nat → U8 := buf.byteAt dhcpBufBase

theorem dhcpMessage_writeByte (buf : Mem U32) (off : Nat) (v : U8) :
    dhcpMessage (dhcpWriteByte buf off v) = putBytes (dhcpMessage buf) off [v] := by
  funext k
  unfold dhcpMessage dhcpWriteByte Mem.byteAt
  dsimp only
  by_cases hword : k / 4 = off / 4
  · rw [hword, Mem.set_same, wordByte_mask _ _ (Nat.mod_lt _ (by omega)) (Nat.mod_lt _ (by omega))]
    by_cases hk : k = off
    · rw [if_pos (by rw [hk]), putBytes_inside _ _ (by simp [hk]), hk, Nat.sub_self]
      rfl
    · rw [if_neg (by omega), putBytes_outside _ _ (by simp; omega), hword]
  · rw [Mem.set_other _ _ (by omega), putBytes_outside _ _ (by simp; omega)]

/-- Bytes written one by one. -/
theorem dhcpMessage_writeBytes (l : List U8) (buf : Mem U32) (off : Nat) :
    let r := l.foldl (fun (b : Mem U32 × Nat) v => (dhcpWriteByte b.1 b.2 v, b.2 + 1)) (buf, off)
    dhcpMessage r.1 = putBytes (dhcpMessage buf) off l ∧ r.2 = off + l.length := by
  induction l generalizing buf off with
  | nil =>
      refine ⟨?_, rfl⟩
      funext k
      exact (putBytes_outside _ _ (by simp)).symm
  | cons v l ih =>
      obtain ⟨hmessage, hoff⟩ := ih (dhcpWriteByte buf off v) (off + 1)
      constructor
      · show dhcpMessage (l.foldl _ (dhcpWriteByte buf off v, off + 1)).1 = _
        rw [hmessage, dhcpMessage_writeByte]
        exact putBytes_append _ off [v] l
      · show (l.foldl _ (dhcpWriteByte buf off v, off + 1)).2 = _
        rw [hoff, List.length_cons]
        omega

/-- `dhcp_write_opt` appends the bytes of the option. -/
theorem dhcpMessage_writeOpt (buf : Mem U32) (off : Nat) (o : U8 × U8 × List U8) :
    dhcpMessage (dhcpWriteOpt buf off o.1 o.2.1 o.2.2).1 = putBytes (dhcpMessage buf) off (optBytes o)
      ∧ (dhcpWriteOpt buf off o.1 o.2.1 o.2.2).2 = off + (optBytes o).length := by
  obtain ⟨hmessage, hoff⟩ := dhcpMessage_writeBytes (optBytes o) buf off
  exact ⟨hmessage, hoff⟩

theorem dhcpMessage_foldOpts (opts : List (U8 × U8 × List U8)) (buf : Mem U32) (off : Nat) :
    let r := opts.foldl (fun (b : Mem U32 × Nat) o => dhcpWriteOpt b.1 b.2 o.1 o.2.1 o.2.2) (buf, off)
    dhcpMessage r.1 = putBytes (dhcpMessage buf) off (opts.flatMap optBytes)
      ∧ r.2 = off + (opts.flatMap optBytes).length := by
  induction opts generalizing buf off with
  | nil =>
      refine ⟨?_, rfl⟩
      funext k
      exact (putBytes_outside _ _ (by simp)).symm
  | cons o opts ih =>
      obtain ⟨hone, hnext⟩ := dhcpMessage_writeOpt buf off o
      obtain ⟨hmessage, hoff⟩ := ih (dhcpWriteOpt buf off o.1 o.2.1 o.2.2).1
        (dhcpWriteOpt buf off o.1 o.2.1 o.2.2).2
      constructor
      · show dhcpMessage (opts.foldl _ (dhcpWriteOpt buf off o.1 o.2.1 o.2.2)).1 = _
        rw [hmessage, hone, hnext, List.flatMap_cons]
        exact putBytes_append _ off _ _
      · show (opts.foldl _ (dhcpWriteOpt buf off o.1 o.2.1 o.2.2)).2 = _
        rw [hoff, hnext, List.flatMap_cons, List.length_append]
        omega

/-- **The options of a message** are the encoded list, from offset 240 on. -/
theorem dhcpMessage_writeOpts (buf : Mem U32) (opts : List (U8 × U8 × List U8)) :
    dhcpMessage (dhcpWriteOpts buf opts) = putBytes (dhcpMessage buf) 240 (encodeOpts opts) := by
  obtain ⟨hmessage, hoff⟩ := dhcpMessage_foldOpts opts buf 240
  have hend := (dhcpMessage_writeOpt
    (opts.foldl (fun (b : Mem U32 × Nat) o => dhcpWriteOpt b.1 b.2 o.1 o.2.1 o.2.2) (buf, 240)).1
    (opts.foldl (fun (b : Mem U32 × Nat) o => dhcpWriteOpt b.1 b.2 o.1 o.2.1 o.2.2) (buf, 240)).2
    (255, 0, [])).1
  show dhcpMessage (dhcpWriteOpt _ _ 255 0 []).1 = _
  rw [hend, hmessage, hoff]
  exact putBytes_append _ 240 _ _

theorem byteAt_dhcpWriteOpts (buf : Mem U32) (opts : List (U8 × U8 × List U8)) {k : Nat}
    (hk : k < (encodeOpts opts).length) :
    dhcpMessage (dhcpWriteOpts buf opts) (240 + k) = (encodeOpts opts).getD k 0 := by
  rw [dhcpMessage_writeOpts, putBytes_inside _ _ (by omega), Nat.add_sub_cancel_left]

/-- The bytes in front of the options stand. -/
theorem byteAt_dhcpWriteOpts_header (buf : Mem U32) (opts : List (U8 × U8 × List U8)) {k : Nat}
    (hk : k < 240) : dhcpMessage (dhcpWriteOpts buf opts) k = dhcpMessage buf k := by
  rw [dhcpMessage_writeOpts, putBytes_outside _ _ (by omega)]

/-- Every option takes at least two bytes. -/
theorem length_le_encodeOpts (opts : List (U8 × U8 × List U8)) :
    opts.length ≤ (encodeOpts opts).length := by
  induction opts with
  | nil => exact Nat.zero_le _
  | cons o opts ih =>
      rw [encodeOpts_cons, List.length_append, List.length_cons]
      show opts.length + 1 ≤ ((o.2.2.take o.2.1.toNat).length + 1 + 1) + _
      omega

/-! ## §2. Reading. -/

/-- **The scan** of encoded options returns the data of the first one of its code. -/
theorem dhcpScanOpt_encoded {buf : Mem U32} {base msgBytes : Nat} (target : U8)
    (opts : List (U8 × U8 × List U8)) (hread : ∀ o ∈ opts, OptReadable o) {fuel off : Nat}
    (hfuel : opts.length < fuel) (hfits : off + (encodeOpts opts).length ≤ msgBytes)
    (hbytes : ∀ k, k < (encodeOpts opts).length → buf.byteAt base (off + k) = (encodeOpts opts).getD k 0) :
    dhcpScanOpt buf base msgBytes target fuel off
      = ((opts.find? (fun o => o.1 = target)).map (fun o => o.2.2.take o.2.1.toNat)).getD [] := by
  induction opts generalizing fuel off with
  | nil =>
      obtain ⟨fuel, rfl⟩ := Nat.exists_eq_add_of_lt hfuel
      have hend : dhcpReadByte buf base off = 255 := hbytes 0 (by decide)
      have hroom : off + 2 ≤ msgBytes := hfits
      unfold dhcpScanOpt
      dsimp only
      rw [if_pos (by omega), hend, if_pos rfl]
      rfl
  | cons o opts ih =>
      obtain ⟨fuel, rfl⟩ := Nat.exists_eq_add_of_lt hfuel
      obtain ⟨hpad, hstop, hshort, hfull⟩ := hread o List.mem_cons_self
      have hlen := length_optBytes (hread o List.mem_cons_self)
      rw [encodeOpts_cons, List.length_append, hlen] at hfits
      rw [encodeOpts_cons, List.length_append, hlen] at hbytes
      -- the bytes of this option, and those behind it
      have hhead : ∀ k, k < 2 + o.2.1.toNat → buf.byteAt base (off + k) = (optBytes o).getD k 0 := by
        intro k hk
        rw [hbytes k (by omega), List.getD_append _ _ _ _ (by omega)]
      have hc : dhcpReadByte buf base off = o.1 := hhead 0 (by omega)
      have hl : dhcpReadByte buf base (off + 1) = o.2.1 := hhead 1 (by omega)
      unfold dhcpScanOpt
      dsimp only
      rw [if_pos (by omega), hc, hl, if_neg hstop, if_neg hpad]
      by_cases htarget : o.1 = target
      · rw [if_pos ⟨htarget, hshort⟩, List.find?_cons_of_pos (by simpa using htarget)]
        show _ = o.2.2.take o.2.1.toNat
        apply List.ext_getElem
        · rw [List.length_map, List.length_range, List.length_take, Nat.min_eq_left hfull]
        · intro k hk hk'
          rw [List.length_map, List.length_range] at hk
          rw [List.getElem_map, List.getElem_range]
          show buf.byteAt base (off + 2 + k) = _
          rw [Nat.add_assoc, hhead (2 + k) (by omega)]
          unfold optBytes
          rw [Nat.add_comm 2 k, List.getD_cons_succ, List.getD_cons_succ, List.getD_eq_getElem]
      · rw [if_neg (fun hboth => htarget hboth.1), List.find?_cons_of_neg (by simpa using htarget)]
        have htail : ∀ k, k < (encodeOpts opts).length →
            buf.byteAt base (off + 2 + o.2.1.toNat + k) = (encodeOpts opts).getD k 0 := by
          intro k hk
          have hat := hbytes (2 + o.2.1.toNat + k) (by omega)
          rw [List.getD_append_right _ _ _ _ (by omega), hlen, Nat.add_sub_cancel_left] at hat
          rw [← hat]
          congr 1
          omega
        rw [List.length_cons] at hfuel ⊢
        exact ih (fun o' ho' => hread o' (List.mem_cons_of_mem _ ho')) (by omega) (by omega) htail

/-- The headers in front of a message leave it alone. -/
theorem dhcpMessage_buildHeaders (buf : Mem U32) (udpLen : U16) (srcIp dstIp : U32) :
    dhcpMessage (dhcpBuildHeaders buf udpLen srcIp dstIp) = dhcpMessage buf := by
  funext k
  apply Mem.byteAt_congr
  unfold dhcpBuildHeaders dhcpBufBase
  rw [Mem.fill_outside _ _ (by omega), Mem.fill_outside _ _ (by omega)]

/-- **In a frame that is sent** every option reads back. -/
theorem dhcpReadOpt_dhcpSend (sh : Shared) (xid : U32) (opts : List (U8 × U8 × List U8))
    (hread : ∀ o ∈ opts, OptReadable o) (hcount : opts.length < 300)
    (hfits : 240 + (encodeOpts opts).length ≤ 300) (target : U8) :
    dhcpReadOpt (dhcpSend sh xid opts).buffer dhcpBufBase 300 target
      = ((opts.find? (fun o => o.1 = target)).map (fun o => o.2.2.take o.2.1.toNat)).getD [] := by
  apply dhcpScanOpt_encoded target opts hread hcount hfits
  intro k hk
  show dhcpMessage (dhcpBuildHeaders (dhcpWriteOpts (dhcpBuildHeader sh.buffer dhcpOpRequest xid 0) opts)
    (udpHeaderBytes + dhcpMsgSize) 0 broadcastIp) (240 + k) = _
  rw [dhcpMessage_buildHeaders]
  exact byteAt_dhcpWriteOpts _ opts hk

end GigabitTcp
