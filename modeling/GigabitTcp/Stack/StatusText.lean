/-
  GigabitTcp.Stack.StatusText — the status text, read back.

  The counters are printed as numerals.  The address loops print a tens digit only if the tens
  of the octet are not zero, also behind a hundreds digit: 105 comes out as 15.  So an octet is
  printed as the number whose zero in the middle is left out, and the text of an address is the
  dotted quad of these numbers.

  Main results:
    * `octetText_eq`        — what the digits of an octet say,
    * `readDotted?_ipText`  — the address that a reader gets,
    * `pd_eq_numeral`       — counters are printed right,
    * `status_text_iff`     — the addresses, and the status lines, that read back.
-/
import GigabitTcp.LayerStats
import GigabitTcp.Hw.Decimal

namespace GigabitTcp

open Hw

/-! ## §1. Octets. -/

/-- The octet is printed with all of its digits: no zero stands between two others. -/
def OctetPrints (b : Nat) : Prop := ¬ (100 ≤ b ∧ b % 100 < 10)

instance (b : Nat) : Decidable (OctetPrints b) := inferInstanceAs (Decidable (¬ _))

/-- What the text of an octet says. -/
def shownOctet (b : Nat) : Nat := if OctetPrints b then b else b / 100 * 10 + b % 100

theorem shownOctet_eq_iff (b : Nat) : shownOctet b = b ↔ OctetPrints b := by
  unfold shownOctet
  by_cases h : OctetPrints b
  · rw [if_pos h]
    exact ⟨fun _ => h, fun _ => rfl⟩
  · rw [if_neg h]
    refine ⟨fun hsame => absurd hsame ?_, fun hprints => absurd hprints h⟩
    unfold OctetPrints at h
    omega

theorem shownOctet_lt {b : Nat} (hb : b < 256) : shownOctet b < 256 := by
  unfold shownOctet
  split
  · exact hb
  · omega

/-- **The digits of an octet**: a zero between two digits is left out. -/
theorem octetText_eq {b : Nat} (hb : b < 256) : octetText b = Decimal.numeral (shownOctet b) := by
  by_cases hhundreds : 99 < b
  · by_cases htens : 9 < b % 100
    · have htext : octetText b
          = [Decimal.digit (b / 100), Decimal.digit (b % 100 / 10), Decimal.digit (b % 100 % 10)] := by
        unfold octetText
        simp only [if_pos hhundreds, if_pos htens]
        rfl
      have hprints : OctetPrints b := fun h => by omega
      rw [htext, shownOctet, if_pos hprints, Decimal.numeral_three (by omega) (by omega),
        show b % 100 % 10 = b % 10 by omega]
    · have htext : octetText b = [Decimal.digit (b / 100), Decimal.digit (b % 100)] := by
        unfold octetText
        simp only [if_pos hhundreds, if_neg htens]
        rfl
      have hskips : ¬ OctetPrints b := fun h => h ⟨by omega, by omega⟩
      rw [htext, shownOctet, if_neg hskips, Decimal.numeral_two (by omega) (by omega),
        show (b / 100 * 10 + b % 100) / 10 = b / 100 by omega,
        show (b / 100 * 10 + b % 100) % 10 = b % 100 by omega]
  · have hprints : OctetPrints b := fun h => by omega
    rw [shownOctet, if_pos hprints]
    by_cases htens : 9 < b
    · rw [Decimal.numeral_two (by omega) (by omega)]
      unfold octetText
      simp only [if_neg hhundreds, if_pos htens]
      rfl
    · rw [Decimal.numeral_one (by omega)]
      unfold octetText
      simp only [if_neg hhundreds, if_neg htens]
      rfl

/-! ## §2. Addresses. -/

/-- The octets of an address, most significant first. -/
def octet (ip : U32) (k : Nat) : Nat := (lsByte ip (3 - k)).toNat

theorem octet_lt (ip : U32) (k : Nat) : octet ip k < 256 := (lsByte ip (3 - k)).isLt

theorem packWord_octets (ip : U32) :
    packWord (BitVec.ofNat 8 (octet ip 0)) (BitVec.ofNat 8 (octet ip 1)) (BitVec.ofNat 8 (octet ip 2))
      (BitVec.ofNat 8 (octet ip 3)) = ip := by
  have hword := packWord_wordByte ip
  simp only [wordByte_eq_lsByte] at hword
  unfold octet
  simp only [BitVec.ofNat_toNat, BitVec.setWidth_eq]
  exact hword

/-- The canonical text of an address. -/
def dottedIp (ip : U32) : List U8 :=
  Decimal.dotted (octet ip 0) (octet ip 1) (octet ip 2) (octet ip 3)

/-- What the text of an address says. -/
def shownIp (ip : U32) : U32 :=
  packWord (BitVec.ofNat 8 (shownOctet (octet ip 0))) (BitVec.ofNat 8 (shownOctet (octet ip 1)))
    (BitVec.ofNat 8 (shownOctet (octet ip 2))) (BitVec.ofNat 8 (shownOctet (octet ip 3)))

/-- Every octet is printed with all of its digits. -/
def OctetsPrint (ip : U32) : Prop := ∀ k, k < 4 → OctetPrints (octet ip k)

instance (ip : U32) : Decidable (OctetsPrint ip) := inferInstanceAs (Decidable (∀ k, k < 4 → _))

theorem ipText_eq (ip : U32) :
    ipText ip = Decimal.dotted (shownOctet (octet ip 0)) (shownOctet (octet ip 1))
      (shownOctet (octet ip 2)) (shownOctet (octet ip 3)) := by
  have hoctet : ∀ k, octetText (lsByte ip k).toNat = Decimal.numeral (shownOctet (lsByte ip k).toNat) :=
    fun k => octetText_eq (lsByte ip k).isLt
  unfold ipText Decimal.dotted octet
  simp only [hoctet, List.append_assoc]
  rfl

/-- **A reader of the text** gets the address that it says. -/
theorem readDotted?_ipText (ip : U32) {l : List U8} (h : Decimal.Stops l) :
    Decimal.readDotted? (ipText ip ++ l) = some (shownIp ip, l) := by
  have hlt : ∀ k, shownOctet (octet ip k) < 256 := fun k => shownOctet_lt (octet_lt ip k)
  rw [ipText_eq, Decimal.readDotted?_dotted (hlt 0) (hlt 1) (hlt 2) (hlt 3) h]
  rfl

/-- The text says the address exactly if every octet prints. -/
theorem shownIp_eq_iff (ip : U32) : shownIp ip = ip ↔ OctetsPrint ip := by
  constructor
  · intro h k hk
    rw [← shownOctet_eq_iff]
    have hbytes : wordByte (shownIp ip) k = wordByte ip k := by rw [h]
    have hbyte : wordByte (shownIp ip) k = BitVec.ofNat 8 (shownOctet (octet ip k)) :=
      wordByte_packWord (fun k => BitVec.ofNat 8 (shownOctet (octet ip k))) k hk
    rw [hbyte, wordByte_eq_lsByte, ← BitVec.toNat_inj, BitVec.toNat_ofNat,
      Nat.mod_eq_of_lt (shownOctet_lt (octet_lt ip k))] at hbytes
    exact hbytes
  · intro h
    have hsame : ∀ k, k < 4 → shownOctet (octet ip k) = octet ip k :=
      fun k hk => (shownOctet_eq_iff _).mpr (h k hk)
    unfold shownIp
    rw [hsame 0 (by omega), hsame 1 (by omega), hsame 2 (by omega), hsame 3 (by omega), packWord_octets]

theorem ipText_of_print {ip : U32} (h : OctetsPrint ip) : ipText ip = dottedIp ip := by
  have hsame : ∀ k, k < 4 → shownOctet (octet ip k) = octet ip k :=
    fun k hk => (shownOctet_eq_iff _).mpr (h k hk)
  rw [ipText_eq, hsame 0 (by omega), hsame 1 (by omega), hsame 2 (by omega), hsame 3 (by omega)]
  rfl

/-! ## §3. Counters. -/

theorem pdDigits_eq (fuel v : Nat) (h : v < 10 ^ fuel) :
    pdDigits fuel v = (Nat.digits 10 v).map Decimal.digit := by
  induction fuel generalizing v with
  | zero =>
      obtain rfl : v = 0 := by omega
      rfl
  | succ fuel ih =>
      unfold pdDigits
      by_cases hv : v = 0
      · rw [if_pos hv, hv]
        rfl
      · rw [Nat.pow_succ] at h
        rw [if_neg hv, Nat.digits_def' (by omega) (by omega), List.map_cons, ih _ (by omega)]
        rfl

/-- **Counters are printed as numerals**: ten digits are enough for 32 bits. -/
theorem pd_eq_numeral (v : U32) : pd v = Decimal.numeral v.toNat := by
  have hv : v.toNat < 2 ^ 32 := v.isLt
  have hzero : v = 0 ↔ v.toNat = 0 := by
    rw [← BitVec.toNat_inj]
    rfl
  unfold pd Decimal.numeral
  by_cases h : v = 0
  · rw [if_pos h, if_pos (hzero.mp h)]
    rfl
  · rw [if_neg h, if_neg (fun h0 => h (hzero.mpr h0)), pdDigits_eq 10 _ (by omega)]

/-! ## §4. The status text. -/

/-- What a reader takes out of the status text: the address, if there is one, and the counters. -/
structure Report where
  address : Option U32
  counters : List Nat
  deriving Repr, DecidableEq

/-- The address line, if there is one. -/
def readAddress? (l : List U8) : Option (Option U32 × List U8) :=
  match Decimal.expect? (ascii ['D', 'H', 'C', 'P', ':']) l with
  | none => some (none, l)
  | some l => do
      let (ip, l) ← Decimal.readDotted? l
      let l ← Decimal.expect? (ascii ['\n']) l
      some (some ip, l)

/-- Numbers, each behind its label. -/
def readFields? : List (List Char) → List U8 → Option (List Nat × List U8)
  | [], l => some ([], l)
  | label :: labels, l => do
      let l ← Decimal.expect? (ascii label) l
      let (n, l) ← Decimal.readNumber? l
      let (ns, l) ← readFields? labels l
      some (n :: ns, l)

/-- The counters of a status line with their labels. -/
def Stats.fields (st : Stats) (buf39Err : U16) : List (List Char × U32) :=
  [(['R', 'X', ':'], st.rxPkt), (['p', 'k', 't', ' '], st.rxByte), (['B', ' ', 'T', 'X', ':'], st.txPkt),
    (['p', 'k', ' '], st.txByte), (['B', ' ', 'A', ':'], st.arpRx), ([' ', 'I', ':'], st.icmpRx),
    ([' ', 'G', ':'], st.igmpRx), ([' ', 'D', ':'], st.dhcpEv),
    ([' ', '3', '9', ':'], buf39Err.setWidth 32)]

def statusLabels : List (List Char) := (({} : Stats).fields 0).map Prod.fst

/-- Read the status text, up to the ARP table behind it. -/
def readReport? (l : List U8) : Option Report := do
  let (address, l) ← readAddress? l
  let (counters, l) ← readFields? statusLabels l
  let _ ← Decimal.expect? (ascii ['\n']) l
  some { address, counters }

/-- The statistics as a report, with the address a reader sees. -/
def Stats.report (st : Stats) (ip : U32) (buf39Err : U16) : Report where
  address := if st.dhcpFlag then some ip else none
  counters := (st.fields buf39Err).map (fun f => f.2.toNat)

/-- A label that starts with no digit ends a number. -/
theorem stops_ascii {c : Char} {label : List Char} {l : List U8}
    (h : Decimal.isDigit (BitVec.ofNat 8 c.toNat) = false) : Decimal.Stops (ascii (c :: label) ++ l) := h

/-- **Labelled counters read back**, if no label starts with a digit. -/
theorem readFields?_text (fs : List (List Char × U32)) {l : List U8} (hl : Decimal.Stops l)
    (hlabels : ∀ f ∈ fs, ∀ m, Decimal.Stops (ascii f.1 ++ m)) :
    readFields? (fs.map Prod.fst) (fs.flatMap (fun f => ascii f.1 ++ pd f.2) ++ l)
      = some (fs.map (fun f => f.2.toNat), l) := by
  induction fs with
  | nil => rfl
  | cons f fs ih =>
      have hrest := ih fun g hg => hlabels g (List.mem_cons_of_mem _ hg)
      -- the number ends at the next label, or at what follows the last one
      have hstop : Decimal.Stops (fs.flatMap (fun f => ascii f.1 ++ pd f.2) ++ l) := by
        cases fs with
        | nil => exact hl
        | cons g gs =>
            rw [List.flatMap_cons, List.append_assoc, List.append_assoc]
            exact hlabels g (by simp) _
      rw [List.map_cons, List.flatMap_cons, List.append_assoc, List.append_assoc, readFields?,
        Decimal.expect?_append, pd_eq_numeral]
      simp only [Option.bind_eq_bind, Option.bind_some, Decimal.readNumber?_numeral f.2.toNat hstop, hrest]
      rfl

/-- The address line, in front of a line that starts otherwise. -/
theorem readAddress?_line (st : Stats) {l : List U8}
    (h : Decimal.expect? (ascii ['D', 'H', 'C', 'P', ':']) l = none) :
    readAddress? ((if st.dhcpFlag then ascii ['D', 'H', 'C', 'P', ':'] ++ ipText st.dhcpIp ++ ascii ['\n']
        else []) ++ l)
      = some (if st.dhcpFlag then some (shownIp st.dhcpIp) else none, l) := by
  unfold readAddress?
  cases st.dhcpFlag with
  | false =>
      simp only [Bool.false_eq_true, if_false, List.nil_append]
      rw [h]
  | true =>
      simp only [if_true, List.append_assoc]
      rw [Decimal.expect?_append]
      have hend : Decimal.Stops (ascii ['\n'] ++ l) := stops_ascii rfl
      simp only [readDotted?_ipText st.dhcpIp hend, Decimal.expect?_append, Option.bind_eq_bind,
        Option.bind_some]

/-- The text is an address line, the labelled counters, and the ARP table. -/
theorem statsText_eq (st : Stats) (arp : ArpTables) (doArp : Bool) (buf39Err : U16) :
    ∃ table, statsText st arp doArp buf39Err
      = (if st.dhcpFlag then ascii ['D', 'H', 'C', 'P', ':'] ++ ipText st.dhcpIp ++ ascii ['\n'] else [])
        ++ ((st.fields buf39Err).flatMap (fun f => ascii f.1 ++ pd f.2) ++ (ascii ['\n'] ++ table)) := by
  refine ⟨if doArp || 0 < st.arpRx then ascii ['A', 'R', 'P', ':', '\n'] ++ arpDump arp else [], ?_⟩
  unfold statsText Stats.fields
  simp only [List.flatMap_cons, List.flatMap_nil, List.append_assoc, List.nil_append]

/-- **The status text, read back.** -/
theorem readReport?_statsText (st : Stats) (arp : ArpTables) (doArp : Bool) (buf39Err : U16) :
    readReport? (statsText st arp doArp buf39Err) = some (st.report (shownIp st.dhcpIp) buf39Err) := by
  obtain ⟨table, htext⟩ := statsText_eq st arp doArp buf39Err
  have hlabels : ∀ f ∈ st.fields buf39Err, ∀ m, Decimal.Stops (ascii f.1 ++ m) := by
    intro f hf m
    simp only [Stats.fields, List.mem_cons, List.not_mem_nil, or_false] at hf
    rcases hf with rfl | rfl | rfl | rfl | rfl | rfl | rfl | rfl | rfl <;> exact stops_ascii rfl
  have hend : Decimal.Stops (ascii ['\n'] ++ table) := stops_ascii rfl
  have hcounters := readFields?_text (st.fields buf39Err) hend hlabels
  have hnames : (st.fields buf39Err).map Prod.fst = statusLabels := rfl
  rw [hnames] at hcounters
  unfold readReport?
  rw [htext, readAddress?_line st rfl]
  simp only [Option.bind_eq_bind, Option.bind_some, hcounters, Decimal.expect?_append]
  rfl

/-- The address of a line of the ARP table. -/
def readArpAddress? (l : List U8) : Option U32 := do
  let l ← Decimal.expect? (ascii [' ']) l
  let (ip, _) ← Decimal.readDotted? l
  some ip

theorem readArpAddress?_line (e : ArpEntry) : readArpAddress? (arpDumpLine e) = some (shownIp e.ip) := by
  unfold readArpAddress? arpDumpLine
  simp (disch := exact stops_ascii rfl) only [List.append_assoc, Decimal.expect?_append, Option.bind_eq_bind,
    Option.bind_some, readDotted?_ipText]

/-! ## §5. What reads back. -/

/-- **The law of the status text** for an address and a counter: canonical texts, which a reader
takes back to the address and the counter. -/
structure StatusReads (ip v : U32) : Prop where
  address : ipText ip = dottedIp ip
  addressRead : Decimal.readDotted? (ipText ip) = some (ip, [])
  counter : pd v = Decimal.numeral v.toNat
  counterRead : Decimal.readNumeral? (pd v) = some v.toNat

theorem readDotted?_whole (ip : U32) : Decimal.readDotted? (ipText ip) = some (shownIp ip, []) := by
  have h := readDotted?_ipText ip Decimal.stops_nil
  rwa [List.append_nil] at h

theorem report_eq_iff (st : Stats) (ip : U32) (buf39Err : U16) :
    st.report (shownIp ip) buf39Err = st.report ip buf39Err ↔ (st.dhcpFlag = true → shownIp ip = ip) := by
  unfold Stats.report
  cases st.dhcpFlag with
  | false => simp
  | true => simp

/-- **The status text is readable back** exactly for the addresses in which no octet from 100 on
has a zero in the tens; two of these never print alike.  The counters always read back. -/
theorem status_text_iff (ip v : U32) (st : Stats) (arp : ArpTables) (doArp : Bool) (buf39Err : U16)
    (e : ArpEntry) :
    (StatusReads ip v ↔ OctetsPrint ip)
      ∧ (∀ ip', OctetsPrint ip → OctetsPrint ip' → ipText ip = ipText ip' → ip = ip')
      ∧ (readReport? (statsText st arp doArp buf39Err) = some (st.report st.dhcpIp buf39Err)
          ↔ (st.dhcpFlag = true → OctetsPrint st.dhcpIp))
      ∧ (readArpAddress? (arpDumpLine e) = some e.ip ↔ OctetsPrint e.ip) := by
  refine ⟨⟨fun h => ?_, fun h => ?_⟩, fun ip' h h' hsame => ?_, ?_, ?_⟩
  · have hread := h.addressRead
    rw [readDotted?_whole, Option.some_inj, Prod.mk.injEq] at hread
    exact (shownIp_eq_iff ip).mp hread.1
  · refine ⟨ipText_of_print h, ?_, pd_eq_numeral v, ?_⟩
    · rw [readDotted?_whole, (shownIp_eq_iff ip).mpr h]
    · rw [pd_eq_numeral, Decimal.readNumeral?_numeral]
  · have hread := readDotted?_whole ip
    rw [hsame, readDotted?_whole, (shownIp_eq_iff ip).mpr h, (shownIp_eq_iff ip').mpr h', Option.some_inj,
      Prod.mk.injEq] at hread
    exact hread.1.symm
  · rw [readReport?_statsText, Option.some_inj, report_eq_iff, shownIp_eq_iff]
  · rw [readArpAddress?_line, Option.some_inj, shownIp_eq_iff]

/-- The address of the board, 192.168.100.2, is printed as 192.168.10.2. -/
theorem status_text_alike : ¬ StatusReads boardIp 0 ∧ ipText boardIp = ipText 0xC0A80A02 := by
  refine ⟨fun h => ?_, by decide⟩
  have hread := h.addressRead
  rw [readDotted?_whole, Option.some_inj, Prod.mk.injEq] at hread
  exact absurd hread.1 (by decide)

end GigabitTcp
