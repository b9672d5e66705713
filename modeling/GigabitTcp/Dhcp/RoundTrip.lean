/-
  GigabitTcp.Dhcp.RoundTrip — what the client writes, its own reader gets back.

  Any list of options that fits the 300 bytes of a message can be written behind a header and
  read again, option by option; the bytes of the header are not touched.  DISCOVER and REQUEST
  are two such lists.

  Main results:
    * `dhcpReadOpt_writeOpts` — the first option of a code is found in the written message,
    * `dhcp_options_round_trip` — so it is for every list, and in the frames of the client.
-/
import GigabitTcp.Dhcp.Client

namespace GigabitTcp

open Hw

/-- The tick does not touch what an OFFER has stored. -/
theorem dhcpTick_stored (d : DhcpClient) :
    (dhcpTick d).offeredIp = d.offeredIp ∧ (dhcpTick d).serverIp = d.serverIp := by
  rcases dhcpTick_cases d with ⟨-, -, htick⟩ | ⟨-, timer, htick⟩
  · rw [htick]
    exact ⟨rfl, rfl⟩
  · rw [htick]
    exact ⟨rfl, rfl⟩

/-- The size of a list of options, the end option included. -/
theorem length_encodeOpts {opts : List (U8 × U8 × List U8)} (hread : ∀ o ∈ opts, OptReadable o) :
    (encodeOpts opts).length = (opts.map (fun o => 2 + o.2.1.toNat)).sum + 2 := by
  induction opts with
  | nil => rfl
  | cons o opts ih =>
      have hrest := ih fun o' ho' => hread o' (List.mem_cons_of_mem _ ho')
      rw [encodeOpts_cons, List.length_append, hrest, length_optBytes (hread o List.mem_cons_self),
        List.map_cons, List.sum_cons]
      omega

section Options

variable (buf : Mem U32) {opts : List (U8 × U8 × List U8)} (hread : ∀ o ∈ opts, OptReadable o)
  (hfits : 240 + (encodeOpts opts).length ≤ 300) (target : U8)

include hread hfits in
/-- **The first option of a code** is found in a message that was written. -/
theorem dhcpReadOpt_writeOpts :
    dhcpReadOpt (dhcpWriteOpts buf opts) dhcpBufBase 300 target
      = ((opts.find? (fun o => o.1 = target)).map (fun o => o.2.2.take o.2.1.toNat)).getD [] := by
  have hcount := length_le_encodeOpts opts
  apply dhcpScanOpt_encoded target opts hread (by omega) hfits
  intro k hk
  exact byteAt_dhcpWriteOpts buf opts hk

include hread hfits in
/-- Its length and its data. -/
theorem dhcpReadOpt_found {o : U8 × U8 × List U8} (hfound : opts.find? (fun o => o.1 = target) = some o) :
    dhcpReadOpt (dhcpWriteOpts buf opts) dhcpBufBase 300 target = o.2.2.take o.2.1.toNat
      ∧ (o.2.2.take o.2.1.toNat).length = o.2.1.toNat := by
  constructor
  · rw [dhcpReadOpt_writeOpts buf hread hfits, hfound]
    rfl
  · rw [List.length_take]
    exact Nat.min_eq_left (hread o (List.mem_of_find?_eq_some hfound)).full

include hread hfits in
/-- A code that was not written has length 0. -/
theorem dhcpReadOpt_missing (hmissing : ∀ o ∈ opts, o.1 ≠ target) :
    dhcpReadOpt (dhcpWriteOpts buf opts) dhcpBufBase 300 target = [] := by
  have hnone : opts.find? (fun o => o.1 = target) = none := by
    rw [List.find?_eq_none]
    intro o ho
    simpa using hmissing o ho
  rw [dhcpReadOpt_writeOpts buf hread hfits, hnone]
  rfl

end Options

/-! ## The frames of the client. -/

/-- The header bytes of a frame that is sent. -/
theorem dhcpSend_header (sh : Shared) (xid : U32) (opts : List (U8 × U8 × List U8)) {k : Nat}
    (hk : k < 240) :
    dhcpMessage (dhcpSend sh xid opts).buffer k
      = dhcpMessage (dhcpBuildHeader sh.buffer dhcpOpRequest xid 0) k := by
  show dhcpMessage (dhcpBuildHeaders (dhcpWriteOpts _ opts) _ 0 broadcastIp) k = _
  rw [dhcpMessage_buildHeaders, byteAt_dhcpWriteOpts_header _ _ hk]

/-- A client that is to discover sends a DISCOVER. -/
theorem dhcpTx_discover {d : DhcpClient} (sh : Shared) (h : (dhcpTick d).state = .discover) :
    (dhcpTxProcess true d sh).1.state = .waitOffer
      ∧ (dhcpTxProcess true d sh).2.dhcpFrame = discoverFrame
      ∧ ∃ xid opts, (dhcpTxProcess true d sh).2 = dhcpSend sh xid opts := by
  have hcases := dhcpTx_cases d sh
  dsimp only at hcases
  rw [h] at hcases
  simp only [reduceCtorEq, or_self, false_and, true_and, ne_eq, not_true_eq_false, or_false,
    false_or] at hcases
  rw [hcases]
  exact ⟨rfl, dhcpSend_discover sh _, _, _, rfl⟩

/-- A client that is to request repeats what it has stored. -/
theorem dhcpTx_request {d : DhcpClient} (sh : Shared) (h : (dhcpTick d).state = .request) :
    (dhcpTxProcess true d sh).1.state = .waitAck
      ∧ (dhcpTxProcess true d sh).2.dhcpFrame = requestFrame d.offeredIp d.serverIp
      ∧ ∃ xid opts, (dhcpTxProcess true d sh).2 = dhcpSend sh xid opts := by
  have hcases := dhcpTx_cases d sh
  dsimp only at hcases
  rw [h, (dhcpTick_stored d).1, (dhcpTick_stored d).2] at hcases
  simp only [reduceCtorEq, or_self, false_and, true_and, ne_eq, not_true_eq_false, and_false,
    or_false, false_or] at hcases
  rw [hcases]
  exact ⟨rfl, dhcpSend_request sh _ _ _, _, _, rfl⟩

/-- **Options read back.**  Whatever list of options fits the message: behind a header, every
code reads as its first option, or as length 0, and the header stands.  In the frames of the
client these are the message type, the requested address and the server. -/
theorem dhcp_options_round_trip (buf : Mem U32) (op : U8) (xid ciaddr : U32)
    {opts : List (U8 × U8 × List U8)} (hread : ∀ o ∈ opts, OptReadable o)
    (hfits : 240 + ((opts.map (fun o => 2 + o.2.1.toNat)).sum + 2) ≤ 300) :
    let header := dhcpBuildHeader buf op xid ciaddr
    let message := dhcpWriteOpts header opts
    (∀ target : U8,
      (∀ o, opts.find? (fun o => o.1 = target) = some o →
        dhcpReadOpt message dhcpBufBase 300 target = o.2.2.take o.2.1.toNat
          ∧ (o.2.2.take o.2.1.toNat).length = o.2.1.toNat)
      ∧ ((∀ o ∈ opts, o.1 ≠ target) → dhcpReadOpt message dhcpBufBase 300 target = []))
    ∧ (∀ k, k < 240 → dhcpMessage message k = dhcpMessage header k)
    ∧ ∀ (d : DhcpClient) (sh : Shared),
      let r := dhcpTxProcess true d sh
      ((dhcpTick d).state = .discover → r.1.state = .waitOffer ∧ r.2.dhcpOption 53 = [dhcpMsgDiscover]
        ∧ r.2.dhcpOption 50 = [] ∧ r.2.dhcpOption 54 = [])
      ∧ ((dhcpTick d).state = .request → r.1.state = .waitAck ∧ r.2.dhcpOption 53 = [dhcpMsgRequest]
        ∧ r.2.dhcpOption 50 = wordBytes 4 d.offeredIp ∧ r.2.dhcpOption 54 = wordBytes 4 d.serverIp)
      ∧ ((dhcpTick d).state = .discover ∨ (dhcpTick d).state = .request → ∃ xid,
        ∀ k, k < 240 → dhcpMessage r.2.buffer k
          = dhcpMessage (dhcpBuildHeader sh.buffer dhcpOpRequest xid 0) k) := by
  intro header message
  rw [← length_encodeOpts hread] at hfits
  refine ⟨fun target => ⟨fun o ho => dhcpReadOpt_found header hread hfits target ho,
    fun hmissing => dhcpReadOpt_missing header hread hfits target hmissing⟩,
    fun k hk => byteAt_dhcpWriteOpts_header header opts hk, ?_⟩
  intro d sh r
  refine ⟨fun h => ?_, fun h => ?_, fun h => ?_⟩
  · obtain ⟨hstate, hframe, -⟩ := dhcpTx_discover sh h
    obtain ⟨htype, hip, hserver⟩ := DhcpEntry.frame.inj hframe
    exact ⟨hstate, htype, hip, hserver⟩
  · obtain ⟨hstate, hframe, -⟩ := dhcpTx_request sh h
    obtain ⟨htype, hip, hserver⟩ := DhcpEntry.frame.inj hframe
    exact ⟨hstate, htype, hip, hserver⟩
  · obtain ⟨xid, opts, hsend⟩ : ∃ xid opts, r.2 = dhcpSend sh xid opts := by
      rcases h with h | h
      · exact (dhcpTx_discover sh h).2.2
      · exact (dhcpTx_request sh h).2.2
    refine ⟨xid, fun k hk => ?_⟩
    rw [hsend, dhcpSend_header sh xid opts hk]

/-- Ten options of four bytes each fill the message to its end; code 12 is written twice. -/
theorem dhcp_options_round_trip_full :
    let opts : List (U8 × U8 × List U8) :=
      (12, 4, [1, 2, 3, 4]) :: (12, 1, [5, 0, 0, 0]) :: List.replicate 8 (61, 4, [6, 7, 8, 9])
    let message := dhcpWriteOpts (dhcpBuildHeader (fun _ => 0) dhcpOpRequest 7 0) opts
    dhcpReadOpt message dhcpBufBase 300 12 = [1, 2, 3, 4]
      ∧ dhcpReadOpt message dhcpBufBase 300 255 = [] := by
  intro opts message
  have hread : ∀ o ∈ opts, OptReadable o := by
    intro o ho
    simp only [opts, List.mem_cons, List.mem_replicate] at ho
    rcases ho with rfl | rfl | ⟨-, rfl⟩ <;> exact ⟨by decide, by decide, by decide, by decide⟩
  have h := (dhcp_options_round_trip (fun _ => 0) dhcpOpRequest 7 0 hread (by decide)).1
  exact ⟨((h 12).1 _ rfl).1, (h 255).2 (by decide)⟩

end GigabitTcp
