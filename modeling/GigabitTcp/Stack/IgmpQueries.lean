/-
  GigabitTcp.Stack.IgmpQueries — membership queries as routers send them.

  A router sends the general query to 224.0.0.1 and the query for 239.0.0.1 to that group, both
  in a frame for 01:00:5E:00:00:01.  `igmp_rx_process` knows both, and the tests show them to it
  in a frame for the board.  On the wire the filter of the MAC drops the frame at its EtherType,
  and nothing in the rest of the frame can be taken for a frame of the board.

  Main results:
    * `IgmpQuery.clean`        — no accepted address behind a delimiter in the packet,
    * `quiet_no_report`        — a pass without a frame asks for no report,
    * `igmp_query_unanswered`  — no query is answered, in whatever state it finds the stack.
-/
import GigabitTcp.Mac.RxForeign
import GigabitTcp.Stack.Senders
import GigabitTcp.Stack.Staging

namespace GigabitTcp

open Hw Machine

/-! ## §1. The queries. -/

/-- 224.0.0.1, all systems on this subnet. -/
def allSystems : U32 := 0xE0000001

/-- 01:00:5E:00:00:01, the address of both groups on the wire. -/
def allSystemsMac : U48 := 0x01005E000001

/-- A membership query of eight bytes behind an IPv4 header of twenty. -/
def igmpQueryPacket (tos : U8) (id fragment : U16) (ttl : U8) (hdrChecksum : U16) (srcIp dstIp : U32)
    (maxResp : U8) (checksum : U16) (group : U32) : List U8 :=
  [0x45, tos, 0x00, 28, hi8 id, lo8 id, hi8 fragment, lo8 fragment, ttl, ipProtoIgmp,
    hi8 hdrChecksum, lo8 hdrChecksum] ++ wordBytes 4 srcIp ++ wordBytes 4 dstIp
    ++ [igmpQuery, maxResp, hi8 checksum, lo8 checksum] ++ wordBytes 4 group

/-- A query of a router, in its frame. -/
structure IgmpQuery where
  src : U48
  tags : List VlanTag
  tos : U8
  id : U16
  fragment : U16
  ttl : U8
  hdrChecksum : U16
  srcIp : U32
  maxResp : U8
  checksum : U16
  /-- For 239.0.0.1, or else a general query. -/
  specific : Bool
  /-- The frame is filled up with zeros. -/
  padding : Nat
  /-- The check sequence, as far as it is handed on. -/
  fcs : List U8
  fcsLength : fcs.length ≤ 4
  verifies : onesComplementChecksum (be16Words (fun k => (igmpQueryPacket tos id fragment ttl
    hdrChecksum srcIp (if specific then boardMcast else allSystems) maxResp checksum
    (if specific then boardMcast else 0)).getD k 0) 10) = 0

namespace IgmpQuery

variable (q : IgmpQuery)

def dstIp : U32 := if q.specific then boardMcast else allSystems

def group : U32 := if q.specific then boardMcast else 0

def packet : List U8 :=
  igmpQueryPacket q.tos q.id q.fragment q.ttl q.hdrChecksum q.srcIp q.dstIp q.maxResp q.checksum q.group

def payload : List U8 := q.packet ++ (List.replicate q.padding 0 ++ q.fcs)

def frame : TaggedFrame where
  dst := allSystemsMac
  src := q.src
  tags := q.tags
  ethertype := ethertypeIpv4
  payload := q.payload
  notTag := ethertypeIpv4_notTag
  nonempty := List.cons_ne_nil _ _

/-- The report that answers the query. -/
def reportType : U8 := if q.maxResp = 0 then igmpReportV1 else igmpReportV2

/-! ### Its fixed bytes. -/

theorem length_packet : q.packet.length = 28 := rfl

theorem payload_low {k : Nat} (hk : k < 28) : q.payload.getD k 0 = q.packet.getD k 0 := by
  unfold payload
  rw [List.getD_eq_getElem?_getD, List.getElem?_append_left hk, ← List.getD_eq_getElem?_getD]

theorem payload_padding {k : Nat} (hlow : 28 ≤ k) (hhigh : k < 28 + q.padding) : q.payload.getD k 0 = 0 := by
  unfold payload
  rw [List.getD_eq_getElem?_getD, List.getElem?_append_right hlow, length_packet,
    List.getElem?_append_left (by rw [List.length_replicate]; omega), List.getElem?_replicate]
  split <;> rfl

theorem length_payload : q.payload.length ≤ 28 + q.padding + 4 := by
  unfold payload
  rw [List.length_append, List.length_append, length_packet, List.length_replicate]
  have := q.fcsLength
  omega

end IgmpQuery

/-! ## §2. The filter. -/

/-- A delimiter and an accepted address. -/
def boardWindow (dst : U48) : List U8 := 0xD5 :: wordBytes 6 dst

/-- Bytes that a query has in fixed places, and that stand in no such window. -/
theorem boardWindow_avoids {dst : U48} (h : macAccepts dst) {j : Nat} (hj : j < 7) :
    (boardWindow dst).getD j 0 ≠ 28 ∧ (boardWindow dst).getD j 0 ≠ ipProtoIgmp
      ∧ (boardWindow dst).getD j 0 ≠ igmpQuery ∧ (boardWindow dst).getD j 0 ≠ 0xE0
      ∧ (boardWindow dst).getD j 0 ≠ 0xEF := by
  rcases h with rfl | rfl
  · revert j
    decide
  · revert j
    decide

/-- Nor are there two zeros in a row. -/
theorem boardWindow_zeros {dst : U48} (h : macAccepts dst) {j : Nat} (hj : j < 6) :
    ¬ ((boardWindow dst).getD j 0 = 0 ∧ (boardWindow dst).getD (j + 1) 0 = 0) := by
  rcases h with rfl | rfl
  · revert j
    decide
  · revert j
    decide

/-- An accepted address behind a delimiter, byte by byte. -/
theorem AddressesBoard.window {bytes : List U8} (h : AddressesBoard bytes) :
    ∃ dst k, macAccepts dst ∧ k + 7 ≤ bytes.length
      ∧ ∀ p, k ≤ p → p < k + 7 → bytes.getD p 0 = (boardWindow dst).getD (p - k) 0 := by
  obtain ⟨front, dst, back, rfl, hdst⟩ := h
  have hsplit : front ++ 0xD5 :: (wordBytes 6 dst ++ back) = front ++ (boardWindow dst ++ back) := rfl
  have hlen : (boardWindow dst).length = 7 := rfl
  refine ⟨dst, front.length, hdst, ?_, ?_⟩
  · rw [hsplit, List.length_append, List.length_append, hlen]
    omega
  · intro p hlow hhigh
    rw [hsplit, List.getD_eq_getElem?_getD, List.getElem?_append_right hlow,
      List.getElem?_append_left (by rw [hlen]; omega), ← List.getD_eq_getElem?_getD]

/-- **The packet of a query** holds no accepted address behind a delimiter. -/
theorem IgmpQuery.clean (q : IgmpQuery) : ¬ AddressesBoard q.payload := by
  intro h
  obtain ⟨dst, k, hdst, hlen, hwindow⟩ := h.window
  have hlength := q.length_payload
  -- the fixed bytes of the packet
  have hfixed : q.payload.getD 3 0 = 28 ∧ q.payload.getD 9 0 = ipProtoIgmp
      ∧ q.payload.getD 20 0 = igmpQuery := ⟨rfl, rfl, rfl⟩
  have hdstIp : q.payload.getD 16 0 = 0xE0 ∨ q.payload.getD 16 0 = 0xEF := by
    rw [q.payload_low (by omega)]
    unfold IgmpQuery.packet IgmpQuery.dstIp
    cases q.specific
    · exact .inl rfl
    · exact .inr rfl
  have hgroup : q.payload.getD 25 0 = 0 ∧ q.payload.getD 26 0 = 0
      ∧ (q.payload.getD 27 0 = 0 ∨ q.payload.getD 27 0 = 1) := by
    rw [q.payload_low (by omega), q.payload_low (by omega), q.payload_low (by omega)]
    unfold IgmpQuery.packet IgmpQuery.group
    cases q.specific
    · exact ⟨rfl, rfl, .inl rfl⟩
    · exact ⟨rfl, rfl, .inr rfl⟩
  have hfirst : q.payload.getD k 0 = 0xD5 := by
    rw [hwindow k (by omega) (by omega), Nat.sub_self]
    rfl
  have havoids : ∀ p, k ≤ p → p < k + 7 → q.payload.getD p 0 ≠ 28 ∧ q.payload.getD p 0 ≠ ipProtoIgmp
      ∧ q.payload.getD p 0 ≠ igmpQuery ∧ q.payload.getD p 0 ≠ 0xE0 ∧ q.payload.getD p 0 ≠ 0xEF := by
    intro p hlow hhigh
    rw [hwindow p hlow hhigh]
    exact boardWindow_avoids hdst (by omega)
  -- the window lies on no fixed byte
  have h3 : ¬ (k ≤ 3 ∧ 3 < k + 7) := fun hin => (havoids 3 hin.1 hin.2).1 hfixed.1
  have h9 : ¬ (k ≤ 9 ∧ 9 < k + 7) := fun hin => (havoids 9 hin.1 hin.2).2.1 hfixed.2.1
  have h20 : ¬ (k ≤ 20 ∧ 20 < k + 7) := fun hin => (havoids 20 hin.1 hin.2).2.2.1 hfixed.2.2
  have h16 : ¬ (k ≤ 16 ∧ 16 < k + 7) := fun hin => by
    rcases hdstIp with h | h
    · exact (havoids 16 hin.1 hin.2).2.2.2.1 h
    · exact (havoids 16 hin.1 hin.2).2.2.2.2 h
  -- nor on the two zeros of the group
  have h25 : ¬ (k ≤ 25 ∧ 26 < k + 7) := by
    rintro ⟨hlow, hhigh⟩
    have hzeros := boardWindow_zeros hdst (j := 25 - k) (by omega)
    rw [show 25 - k + 1 = 26 - k by omega, ← hwindow 25 hlow (by omega),
      ← hwindow 26 (by omega) hhigh] at hzeros
    exact hzeros ⟨hgroup.1, hgroup.2.1⟩
  -- so it begins behind them, where only the check sequence can hold a delimiter
  have h26 : k ≠ 26 := by
    rintro rfl
    rw [hgroup.2.1] at hfirst
    exact absurd hfirst (by decide)
  have h27 : k ≠ 27 := by
    rintro rfl
    rcases hgroup.2.2 with h | h
    · rw [h] at hfirst
      exact absurd hfirst (by decide)
    · rw [h] at hfirst
      exact absurd hfirst (by decide)
  by_cases hpad : k < 28 + q.padding
  · rw [q.payload_padding (by omega) hpad] at hfirst
    exact absurd hfirst (by decide)
  · omega

/-! ## §3. The pass. -/

/-- The pass issues a report of type `ty` for 239.0.0.1. -/
structure UdpEcho.IssuesReport (s : UdpEcho) (pacing : U32) (i : PassIn) (ty : U8) : Prop where
  sets : s.SetsRequest pacing i
  ethertype : (udpEcho pacing s i).1.shared.txReq.ethertype = ethertypeIpv4
  protocol : (ipFields (udpEcho pacing s i).1.shared.packet).protocol = ipProtoIgmp
  reportType : (udpEcho pacing s i).1.shared.packet.byteAt 5 0 = ty
  group : (udpEcho pacing s i).1.shared.packet 6 = boardMcast

/-- A pass that completes no frame issues no report: what it may send is UDP or TCP. -/
theorem quiet_no_report (pacing : U32) {s : UdpEcho} {i : PassIn} (h : (s.frameIn i).valid = false)
    (ty : U8) : ¬ s.IssuesReport pacing i ty := by
  intro hissues
  have hprotocol := hissues.protocol
  rcases hissues.sets with ⟨lo, hi, hanswers⟩ | ⟨hfree, hset⟩
  · unfold UdpEcho.reception at hanswers
    rw [if_neg (by rw [h]; decide)] at hanswers
    cases hanswers
  · rw [udpEcho_shared] at hset hprotocol
    rcases senders_frame pacing s i with hsame | hsent
    · rw [hsame, hfree] at hset
      cases hset
    · rcases hsent.protocol with hproto | hproto
      · rw [hprotocol] at hproto
        exact absurd hproto (by decide)
      · rw [hprotocol] at hproto
        exact absurd hproto (by decide)

/-! ## §4. The run. -/

/-- A run out of reset completes the frames of its MAC RX, and no others. -/
theorem frames_quiet (pacing : U32) : ∀ (is : List PassIn) (s : UdpEcho), (∀ i ∈ is, i.resetN = true) →
    (∀ o ∈ macRxCycle.outs s.macRx (is.map PassIn.rx), o.rx.valid = false) →
      Along (udpEchoMachine pacing) (fun s i => (s.frameIn i).valid = false) s is
  | [], _, _, _ => trivial
  | i :: is, s, hreset, hquiet => by
      rw [List.forall_mem_cons] at hreset
      rw [List.map_cons, outs_cons, List.forall_mem_cons] at hquiet
      have hframe : s.frameIn i = (macRxCycle s.macRx i.rx).2.rx := by
        rw [← macRxProcess_run hreset.1]
        exact frameIn_eq s i
      refine ⟨(congrArg MacRx.valid hframe).trans hquiet.1, frames_quiet pacing is _ hreset.2 ?_⟩
      show ∀ o ∈ macRxCycle.outs (udpEcho pacing s i).1.macRx (is.map PassIn.rx), o.rx.valid = false
      rw [udpEcho_macRx, macRxProcess_run hreset.1]
      exact hquiet.2

/-- The query arrives over the passes `js` and then `i`, which completes its frame.  It finds MAC TX
idle, no request and nothing received. -/
structure IgmpQuery.Arrives (q : IgmpQuery) (s : UdpEcho) (js : List PassIn) (i : PassIn) : Prop where
  macTx : s.macTx.state = .idle
  free : s.shared.txReq.request = false
  macRx : s.macRx.state = .idle
  fifo : s.frameFifo = []
  resetN : ∀ j ∈ js ++ [i], j.resetN = true
  bytes : ((js ++ [i]).map PassIn.rx).reduceOption = gmiiFrame q.frame.bytes
  completes : i.rx.any (·.last) = true

/-- While a query arrives no frame is completed. -/
theorem IgmpQuery.Arrives.quiet {q : IgmpQuery} {s : UdpEcho} {js : List PassIn} {i : PassIn}
    (h : q.Arrives s js i) (pacing : U32) :
    Along (udpEchoMachine pacing) (fun s i => (s.frameIn i).valid = false) s (js ++ [i]) := by
  have hforeign : ¬ macAccepts allSystemsMac := by decide
  have hbytes := macRx_foreign_quiet h.macRx q.frame hforeign q.clean
  rw [← h.bytes] at hbytes
  exact frames_quiet pacing _ s h.resetN (outs_all_reduceOption (P := fun o => o.rx.valid = false)
    macRxCycle_none rfl s.macRx _ hbytes)

/-- **No query is answered**: whatever state it finds and whoever sends it, the pass that completes
its frame issues no report. -/
theorem igmp_query_unanswered (pacing : U32) {q : IgmpQuery} {s : UdpEcho} {js : List PassIn} {i : PassIn}
    (h : q.Arrives s js i) :
    ¬ ((udpEchoMachine pacing).after s js).IssuesReport pacing i q.reportType :=
  quiet_no_report pacing (h.quiet pacing).at_step q.reportType

/-- The general query of 192.168.100.100, with a maximal response time of ten seconds. -/
def generalQuery : IgmpQuery where
  src := 0x020304050607
  tags := []
  tos := 0
  id := 1
  fragment := 0
  ttl := 1
  hdrChecksum := 0xB4D1
  srcIp := 0xC0A86464
  maxResp := 100
  checksum := 0xEE9B
  specific := false
  padding := 18
  fcs := [0xDE, 0xAD, 0xBE, 0xEF]
  fcsLength := by decide
  verifies := by decide

/-- The passes that read it, one byte each, but for the last one. -/
def generalQueryPasses : List PassIn := (gmiiFrame generalQuery.frame.bytes).dropLast.map readPass

theorem generalQuery_arrives :
    generalQuery.Arrives {} generalQueryPasses (readPass { data := 0xEF, last := true }) where
  macTx := rfl
  free := rfl
  macRx := rfl
  fifo := rfl
  resetN := by decide
  bytes := by decide
  completes := rfl

theorem igmp_general_query_unanswered :
    ¬ ((udpEchoMachine 256).after {} generalQueryPasses).IssuesReport 256
      (readPass { data := 0xEF, last := true }) igmpReportV2 :=
  igmp_query_unanswered 256 generalQuery_arrives

/-- So it is not true that queries are answered. -/
theorem igmp_queries_dropped : ¬ ∀ (q : IgmpQuery) (s : UdpEcho) (js : List PassIn) (i : PassIn),
    q.Arrives s js i → ((udpEchoMachine 256).after s js).IssuesReport 256 i q.reportType := by
  intro hanswered
  have hissues := hanswered generalQuery {} generalQueryPasses _ generalQuery_arrives
  exact quiet_no_report 256 (generalQuery_arrives.quiet 256).at_step generalQuery.reportType hissues

end GigabitTcp
