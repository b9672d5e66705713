/-
  GigabitTcp.Mac.RxForeign — when a frame for another station is dropped without a trace.

  The filter drops a foreign frame at its EtherType.  Then the scanner in IDLE looks for a
  preamble in whatever comes by, and what comes by is the payload of that frame.  If it holds a
  preamble and a header for the board, the rest of it is delivered as a frame of its own:

      55…D5 | foreign header | skipped | 55…D5 | header for the board | delivered

  Main results:
    * `pulses_pos_iff`      — of which byte strings IDLE reports a frame,
    * `macRx_decodes_iff`   — the frames that are decoded as they should,
    * `macRx_decodes_tunnel` — a foreign frame that is reported,
    * `macRx_foreign_quiet` — without an accepted address behind a delimiter nothing is.
-/
import GigabitTcp.Mac.RxIsolation

namespace GigabitTcp

open Hw Machine

/-! ## §1. What IDLE reports. -/

/-- Behind a stretch that IDLE skips there are a preamble, a header for the board and at least
one byte more. -/
def EmbedsFrame (bytes : List U8) : Prop :=
  ∃ front rest, bytes = front ++ rest ∧ rest ≠ [] ∧ OpensFrame front

variable {s : MacRxFsm}

/-- From IDLE to PAYLOAD. -/
theorem macRx_opens {bytes : List U8} (h : OpensFrame bytes) (hs : s.state = .idle) :
    ∃ t, QuietRun s (bytes.map plainByte) t ∧ t.state = .payload ∧ t = t.filling 0 0 := by
  obtain ⟨front, run, dst, src, tags, ety, rfl, hfront, hrun, hcnt, hacc, hety⟩ := h
  obtain ⟨u, hu, hskipped⟩ := macRx_skipped hfront (front.map plainByte) s (map_plainByte_data _) hs
  have hsync : SyncRun 1 ((run.map plainByte).map GmiiByte.data) := by
    rwa [map_plainByte_data]
  have hlong : 8 ≤ 1 + BitVec.ofNat 8 (run.map plainByte).length + 1 := by
    rw [List.length_map]
    exact hcnt
  have hfields := macRx_fields u dst src tags ety hety ((headerBytes dst src tags ety).map plainByte)
    (map_plainByte_data _)
  refine ⟨macRxFiltered (dst.setWidth 64) (src.setWidth 64) ety, ?_,
    (macRxFiltered_state _ _ _).trans (if_pos hacc), rfl⟩
  rw [List.map_append, List.map_cons, List.map_append, List.map_cons]
  exact hskipped.append (QuietRun.step (macRx_first hu rfl)
    ((macRx_sync_run u _ 1 hsync).append (QuietRun.step (macRx_sfd u hlong rfl) hfields)))

/-- **What IDLE reports of a byte string**: a frame, exactly if it embeds one. -/
theorem pulses_pos_iff (hs : s.state = .idle) (bytes : List U8) :
    0 < pulses s bytes ↔ EmbedsFrame bytes := by
  constructor
  · intro hpulse
    rcases macRx_scan_cases _ (gmiiFrame bytes) s (le_refl _) hs with hskip | hend | hpart
    · obtain ⟨t, -, hrun⟩ := macRx_skipped hskip (gmiiFrame bytes) s rfl hs
      rw [hrun.no_pulse] at hpulse
      exact absurd hpulse (Nat.lt_irrefl 0)
    · exact absurd (idle_of_pulse bytes s hpulse) hend
    · obtain ⟨p, rest, t, hsplit, hne, hopens, -⟩ := hpart
      have hbytes := congrArg (List.map GmiiByte.data) hsplit
      rw [gmiiFrame_data, List.map_append] at hbytes
      exact ⟨p.map GmiiByte.data, rest.map GmiiByte.data, hbytes, by simpa using hne, hopens⟩
  · rintro ⟨front, rest, rfl, hne, hopens⟩
    obtain ⟨t, hrun, hpay, hfresh⟩ := macRx_opens hopens hs
    have hframe : gmiiFrame rest ≠ [] := by
      intro hnil
      have hlen := length_gmiiFrame rest
      rw [hnil] at hlen
      exact hne (List.length_eq_zero_iff.mp hlen.symm)
    exact pulses_pos (gmiiFrame_append front hne) hframe hrun.1 hpay hfresh

/-! ## §2. The law of decoding. -/

/-- A frame for the board is decoded; of a frame for another station nothing is pushed up to
its EtherType, and nothing is reported.  Passes may find the stream empty at any time. -/
structure Decodes (s : MacRxFsm) (f : TaggedFrame) : Prop where
  board : macAccepts f.dst → ∀ is : List (Option GmiiByte), is.reduceOption = gmiiFrame f.bytes →
    (macRxCycle.after s is).state = .idle
      ∧ (macRxCycle.outs s is).flatMap MacRxOut.frameWords = packWords f.payload
      ∧ (packWords f.payload).length = (f.payload.length + 3) / 4
      ∧ f.report.nwords.toNat = (f.payload.length + 3) / 4
      ∧ List.Forall₂ (fun i o =>
          if i.any GmiiByte.last then o.rx = f.report else o.rx.valid = false)
          is (macRxCycle.outs s is)
  lead : ¬ macAccepts f.dst → ∀ is : List (Option GmiiByte), is.reduceOption = f.lead.map plainByte →
    ∀ o ∈ macRxCycle.outs s is, o.Quiet
  foreign : ¬ macAccepts f.dst → ∀ is : List (Option GmiiByte), is.reduceOption = gmiiFrame f.bytes →
    ∀ o ∈ macRxCycle.outs s is, o.rx.valid = false

/-- A foreign frame reports what IDLE reports of its payload. -/
theorem pulses_foreign (hs : s.state = .idle) {f : TaggedFrame} (hdst : ¬ macAccepts f.dst) :
    0 < pulses s f.bytes ↔ EmbedsFrame f.payload := by
  have hlead := macRx_header hs f
  have hidle : (macRxFiltered (f.dst.setWidth 64) (f.src.setWidth 64) f.ethertype).state = .idle :=
    (macRxFiltered_state _ _ _).trans (if_neg hdst)
  have hcount : (macRxByte.outs s (f.lead.map plainByte)).countP (fun o => o.rx.valid) = 0 := by
    rw [List.countP_eq_zero]
    intro o ho
    simp [(hlead.outs_all o ho).2]
  rw [← pulses_pos_iff hidle, TaggedFrame.bytes, pulses, gmiiFrame_append _ f.nonempty, outs_append,
    List.countP_append, hcount, hlead.1, Nat.zero_add]
  rfl

theorem pulses_eq_zero_iff {bytes : List U8} :
    ¬ 0 < pulses s bytes ↔ ∀ o ∈ macRxByte.outs s (gmiiFrame bytes), o.rx.valid = false := by
  rw [pulses, Nat.not_lt, Nat.le_zero, List.countP_eq_zero]
  simp only [Bool.not_eq_true]

/-- Read without empty passes, a foreign frame that is decoded reports nothing. -/
theorem Decodes.no_pulse {f : TaggedFrame} (h : Decodes s f) (hdst : ¬ macAccepts f.dst) :
    ¬ 0 < pulses s f.bytes := by
  have hquiet := h.foreign hdst ((gmiiFrame f.bytes).map some) (by simp [List.reduceOption])
  rw [outs_map_some] at hquiet
  exact pulses_eq_zero_iff.mpr hquiet

/-- **MAC RX decodes a frame with any number of tags** exactly if it is for the board, or its
payload embeds no frame. -/
theorem macRx_decodes_iff (s : MacRxFsm) (hs : s.state = .idle) (f : TaggedFrame)
    (hlen : f.payload.length ≤ 2048) :
    Decodes s f ↔ (macAccepts f.dst ∨ ¬ EmbedsFrame f.payload) := by
  constructor
  · intro h
    by_cases hacc : macAccepts f.dst
    · exact .inl hacc
    · exact .inr ((pulses_foreign hs hacc).not.mp (h.no_pulse hacc))
  · intro h
    refine ⟨fun hacc is his => macRx_decodes_board hs f hlen hacc is his,
      fun _ is his => macRx_drops_lead hs f is his, fun hacc is his => ?_⟩
    have hclean := h.resolve_left hacc
    have hquiet := pulses_eq_zero_iff.mp ((pulses_foreign hs hacc).not.mpr hclean)
    refine outs_all_reduceOption (P := fun o => o.rx.valid = false) macRxCycle_none rfl s is ?_
    rw [his]
    exact hquiet

/-- A frame with an 802.1ad and an 802.1Q tag and five payload bytes. -/
def qinqFrame : TaggedFrame where
  dst := boardMac
  src := 0x020304050607
  tags := [⟨tpidQinq, 0x0064, .inr rfl⟩, ⟨tpidVlan, 0x00C8, tpidVlan_isTag⟩]
  ethertype := ethertypeIpv4
  payload := [1, 2, 3, 4, 5]
  notTag := ethertypeIpv4_notTag
  nonempty := by decide

/-- The frame `carried` in a frame for another station. -/
def carrierFrame (carried : List U8) (h : carried ≠ []) : TaggedFrame where
  dst := 0x020304050607
  src := 0x020304050608
  tags := []
  ethertype := ethertypeIpv4
  payload := carried
  notTag := ethertypeIpv4_notTag
  nonempty := h

/-- The frame with two tags is decoded, and a foreign frame in a foreign frame dropped. -/
theorem macRx_decodes_qinq : Decodes {} qinqFrame
    ∧ Decodes {} (carrierFrame (carrierFrame [1] (by decide)).bytes (by decide)) := by
  constructor
  · exact (macRx_decodes_iff {} rfl qinqFrame (by decide)).mpr (.inl (.inl rfl))
  · refine (macRx_decodes_iff {} rfl _ (by decide)).mpr (.inr ?_)
    exact (pulses_pos_iff (s := {}) rfl _).not.mp (by decide)

/-- A foreign frame that carries a frame for the board: the inner frame is reported. -/
theorem macRx_decodes_tunnel :
    let f := carrierFrame shortFrame (by decide)
    f.bytes = tunnelFrame ∧ ¬ macAccepts f.dst ∧ f.payload.length ≤ 2048
      ∧ (delivers {} (gmiiFrame f.bytes)).1.length = 1 ∧ ¬ Decodes {} f := by
  intro f
  have hdst : ¬ macAccepts f.dst := by
    rintro (h | h) <;> revert h <;> decide
  exact ⟨rfl, hdst, by decide, by decide, fun h => h.no_pulse hdst (by decide)⟩

/-! ## §3. A condition without the scanner. -/

/-- Somewhere in `bytes` an accepted address stands behind a delimiter. -/
def AddressesBoard (bytes : List U8) : Prop :=
  ∃ front dst back, bytes = front ++ 0xD5 :: (wordBytes 6 dst ++ back) ∧ macAccepts dst

theorem EmbedsFrame.addresses {bytes : List U8} (h : EmbedsFrame bytes) : AddressesBoard bytes := by
  obtain ⟨-, rest, rfl, -, front, run, dst, src, tags, ety, rfl, -, -, -, hacc, -⟩ := h
  refine ⟨front ++ 0x55 :: run, dst,
    wordBytes 6 src ++ (tags.flatMap VlanTag.bytes ++ wordBytes 2 ety) ++ rest, ?_, hacc⟩
  simp only [headerBytes, List.append_assoc, List.cons_append]

/-- **A frame for another station** with a clean payload reports no frame, from any state in IDLE. -/
theorem macRx_foreign_quiet (hs : s.state = .idle) (f : TaggedFrame) (hdst : ¬ macAccepts f.dst)
    (hclean : ¬ AddressesBoard f.payload) :
    ∀ o ∈ macRxByte.outs s (gmiiFrame f.bytes), o.rx.valid = false := by
  refine pulses_eq_zero_iff.mp ((pulses_foreign hs hdst).not.mpr ?_)
  exact fun h => hclean h.addresses

end GigabitTcp
