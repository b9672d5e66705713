/-
  GigabitTcp.Mac.TxStream — MAC TX while the buffer changes under it.

  A handler may write into the words of a frame that is being sent.  What goes out then is not
  the frame that was asked for, but it is a frame: the bytes are read once, and the FCS
  is taken over those that went out.  So the frame in flight is at any time the one of
  some buffer (`splicedMem`), of which only the bytes that are out are fixed.

  Main results:
    * `macTx_spliced` — the buffer in flight,
    * `Sending.cycle` — one cycle goes on with the frame that is out.
-/
import GigabitTcp.Mac.TxProgress
import GigabitTcp.Hw.Delimited

namespace GigabitTcp

open Hw Machine

/-! ## §1. Another buffer behind the bytes that are out. -/

/-- A buffer in which the first `k` bytes of the request are those of `m`, the others those of `m'`. -/
def splicedMem (req : MacTxReq) (m m' : Mem U32) (k : Nat) : Mem U32 :=
  m.fill req.bufAddr.toNat ((req.bufLen.toNat + 3) / 4)
    (Mem.wordOf fun n => if n < k then txByte req m n else txByte req m' n)

section Splice

variable (req : MacTxReq) (m m' : Mem U32) (k : Nat)

theorem txByte_spliced {n : Nat} (hn : n < req.bufLen.toNat) :
    txByte req (splicedMem req m m' k) n = if n < k then txByte req m n else txByte req m' n :=
  Mem.byteAt_fill_wordOf _ _ _ _ (by omega)

theorem txPadded_spliced (n : Nat) : (txPadded req (splicedMem req m m' k)).getD n 0
    = if n < k then (txPadded req m).getD n 0 else (txPadded req m').getD n 0 := by
  rw [txPadded_getD, txPadded_getD, txPadded_getD]
  by_cases hn : n < req.bufLen.toNat
  · simp only [if_pos hn]
    exact txByte_spliced req m m' k hn
  · simp only [if_neg hn, ite_self]

/-- The bytes that are out stay. -/
theorem txPadded_spliced_take :
    (txPadded req (splicedMem req m m' k)).take k = (txPadded req m).take k := by
  have hlen : (txPadded req (splicedMem req m m' k)).length = (txPadded req m).length := by
    rw [length_txPadded, length_txPadded]
  apply List.ext_getElem
  · rw [List.length_take, List.length_take, hlen]
  · intro n hn hn'
    rw [List.length_take] at hn
    have hbyte := txPadded_spliced req m m' k n
    rw [if_pos (by omega), List.getD_eq_getElem _ _ (by omega), List.getD_eq_getElem _ _ (by omega)] at hbyte
    rw [List.getElem_take, List.getElem_take, hbyte]

theorem txPadded_spliced_all (hk : req.bufLen.toNat ≤ k) :
    txPadded req (splicedMem req m m' k) = txPadded req m := by
  have hlen : ∀ m : Mem U32, (txPadded req m).length = max 46 req.bufLen.toNat := length_txPadded req
  apply List.ext_getElem
  · rw [hlen, hlen]
  · intro n hn hn'
    have hbyte := txPadded_spliced req m m' k n
    have hboth : (if n < k then (txPadded req m).getD n 0 else (txPadded req m').getD n 0)
        = (txPadded req m).getD n 0 := by
      split
      · rfl
      · rw [txPadded_getD, txPadded_getD, if_neg (by omega), if_neg (by omega)]
    rw [hboth, List.getD_eq_getElem _ _ hn, List.getD_eq_getElem _ _ hn'] at hbyte
    exact hbyte

/-- The data bytes that are out behind `j` bytes of a frame. -/
def txDataOut (req : MacTxReq) (j : Nat) : Nat := j - 8 - (txHeader req).length

/-- The statics are those of the new buffer as well. -/
theorem txAt_spliced (j : Nat) :
    txAt req (splicedMem req m m' (txDataOut req j)) j = txAt req m j := by
  have hlen : (txPadded req (splicedMem req m m' (txDataOut req j))).length = (txPadded req m).length := by
    rw [length_txPadded, length_txPadded]
  have htake := txPadded_spliced_take req m m' (txDataOut req j)
  unfold txDataOut at htake hlen ⊢
  unfold txAt
  rw [hlen]
  by_cases h55 : j < 8
  · rw [if_pos h55, if_pos h55]
  · rw [if_neg h55, if_neg h55]
    by_cases hhdr : j < 8 + (txHeader req).length
    · rw [if_pos hhdr, if_pos hhdr]
    · rw [if_neg hhdr, if_neg hhdr]
      by_cases hdat : j < 8 + (txHeader req).length + (txPadded req m).length
      · rw [if_pos hdat, if_pos hdat]
        unfold txSendData
        rw [htake, hlen]
      · -- all data bytes are out
        have hpad := length_txPadded req m
        rw [if_neg hdat, if_neg hdat]
        unfold txSendCrc txBody
        rw [txPadded_spliced_all req m m' _ (by omega)]

/-- So are the bytes of the frame that are out. -/
theorem txWire_spliced_take {j : Nat} (hj : j ≤ (txWire req m).length) :
    (txWire req (splicedMem req m m' (txDataOut req j))).take j = (txWire req m).take j := by
  have hwire := length_txWire req m
  by_cases hdat : j ≤ 8 + (txHeader req).length + (txPadded req m).length
  · -- up to the FCS only the bytes themselves count
    have hstart : ∀ mem : Mem U32, (txPadded req mem).length = (txPadded req m).length →
        (txWire req mem).take j
          = (preamble ++ txHeader req ++ (txPadded req mem).take (txDataOut req j)).take j := by
      intro mem hlen
      have hhead : (preamble ++ txHeader req).length = 8 + (txHeader req).length := by
        rw [List.length_append]
        rfl
      unfold txWire txBody
      rw [List.append_assoc, ← List.append_assoc preamble]
      generalize preamble ++ txHeader req = head at *
      have hout : j - head.length = txDataOut req j := by
        unfold txDataOut
        omega
      have hcut : txDataOut req j ≤ (txPadded req mem).length := by
        rw [hlen, ← hout, hhead]
        omega
      rw [List.take_append, hout, List.take_append_of_le_length hcut, List.take_append, hout, List.take_take,
        Nat.min_self]
    have hlen : (txPadded req (splicedMem req m m' (txDataOut req j))).length = (txPadded req m).length := by
      rw [length_txPadded, length_txPadded]
    rw [hstart _ hlen, hstart m rfl, txPadded_spliced_take]
  · have hpad := length_txPadded req m
    have hall : req.bufLen.toNat ≤ txDataOut req j := by
      unfold txDataOut
      omega
    unfold txWire txFcs txBody
    rw [txPadded_spliced_all req m m' _ hall]

end Splice

/-- Byte `j` of a frame, marked if it is the last one. -/
theorem gmiiFrame_getElem? : ∀ (bs : List U8) (j : Nat),
    (gmiiFrame bs)[j]? = bs[j]?.map fun b => { data := b, last := j + 1 == bs.length }
  | [], j => rfl
  | [b], 0 => rfl
  | [b], j + 1 => rfl
  | b :: c :: bs, 0 => rfl
  | b :: c :: bs, j + 1 => by
      rw [gmiiFrame_cons_cons, List.getElem?_cons_succ, gmiiFrame_getElem? (c :: bs) j,
        List.getElem?_cons_succ, List.length_cons, List.length_cons, List.length_cons]
      simp

/-- The marks do not depend on the bytes. -/
theorem gmiiFrame_take {bs cs : List U8} {j : Nat} (hlen : bs.length = cs.length)
    (h : bs.take j = cs.take j) : (gmiiFrame bs).take j = (gmiiFrame cs).take j := by
  apply List.ext_getElem?
  intro n
  have hn := congrArg (fun l => l[n]?) h
  simp only [List.getElem?_take] at hn ⊢
  split
  · rename_i hlt
    rw [if_pos hlt, if_pos hlt] at hn
    rw [gmiiFrame_getElem?, gmiiFrame_getElem?, hn, hlen]
  · rfl

/-! ## §2. A cycle. -/

/-- Of the buffer a cycle sees the byte it sends. -/
theorem macTxCycle_buffer {s : MacTxFsm} (r : MacTxReq) {m m' : Mem U32}
    (h : s.state = .sendData → macTxDataByte s m = macTxDataByte s m') :
    macTxCycle s (r, m) = macTxCycle s (r, m') := by
  unfold macTxCycle macTxProcess
  cases hst : s.state with
  | sendData =>
      simp only [macTxSendData, h hst]
  | idle => rfl
  | send55 => rfl
  | sendMac => rfl
  | sendCrc => rfl

/-- **The buffer in flight**: a cycle with the buffer `m'` is one with the buffer that has the bytes
of `m` up to the next one. -/
theorem macTx_spliced (req : MacTxReq) (m m' : Mem U32) {j : Nat} (hj : j < (txWire req m).length)
    (r : MacTxReq) :
    macTxCycle (txAt req m j) (r, m')
      = macTxCycle (txAt req m j) (r, splicedMem req m m' (txDataOut req j)) := by
  have hwire := length_txWire req m
  have hpad := length_txPadded req m
  apply macTxCycle_buffer
  intro hdata
  -- in the data phase byte `txDataOut req j` of the payload is the next one
  have hphase : ¬ j < 8 ∧ ¬ j < 8 + (txHeader req).length
      ∧ j < 8 + (txHeader req).length + (txPadded req m).length := by
    unfold txAt at hdata
    by_cases h55 : j < 8
    · rw [if_pos h55, txSend55, if_pos h55] at hdata
      cases hdata
    · rw [if_neg h55] at hdata
      by_cases hhdr : j < 8 + (txHeader req).length
      · have hk : j - 8 < (txHeader req).length := by omega
        rw [if_pos hhdr, txSendMac] at hdata
        simp only [if_pos hk] at hdata
        cases hdata
      · rw [if_neg hhdr] at hdata
        by_cases hdat : j < 8 + (txHeader req).length + (txPadded req m).length
        · exact ⟨h55, hhdr, hdat⟩
        · have hk : j - 8 - (txHeader req).length - (txPadded req m).length < 4 := by omega
          rw [if_neg hdat, txSendCrc] at hdata
          simp only [if_pos hk] at hdata
          cases hdata
  have hk : txDataOut req j < (txPadded req m).length := by
    unfold txDataOut
    omega
  have hat : txAt req m j = txSendData req m (txDataOut req j) := by
    unfold txAt txDataOut
    rw [if_neg hphase.1, if_neg hphase.2.1, if_pos hphase.2.2]
  have hbyte : ∀ mem : Mem U32, macTxDataByte (txAt req m j) mem = (txPadded req mem).getD (txDataOut req j) 0 := by
    intro mem
    have hk' : txDataOut req j < (txPadded req mem).length := by
      rw [length_txPadded] at hk ⊢
      exact hk
    rw [hat]
    exact macTxDataByte_eq req (fun _ => Mem.AgreeOn.refl _ _ _) hk' rfl rfl rfl
  rw [hbyte, hbyte, txPadded_spliced, if_neg (Nat.lt_irrefl _)]

/-! ## §3. The stream. -/

/-- The symbols of the frame of a request that `P` holds of, with some contents of the buffer. -/
def FrameOf (P : MacTxReq → Prop) (symbols : List GmiiByte) : Prop :=
  ∃ req m, P req ∧ symbols = gmiiFrame (txWire req m)

/-- MAC TX is in IDLE, or it has put out `part` of such a frame. -/
def Sending (P : MacTxReq → Prop) (s : MacTxFsm) (part : List GmiiByte) : Prop :=
  (s.state = .idle ∧ part = []) ∨ ∃ req m j, P req ∧ j < (txWire req m).length ∧ s = txAt req m j
    ∧ part = (gmiiFrame (txWire req m)).take j

variable {P : MacTxReq → Prop} {s : MacTxFsm} {part : List GmiiByte}

/-- **One cycle** goes on with the frame that is out, whatever the buffer and the mailbox hold. -/
theorem Sending.cycle (h : Sending P s part) (i : MacTxReq × Mem U32) (hi : i.1.request = true → P i.1) :
    Continues GmiiByte.last (FrameOf P) (Sending P (macTxCycle s i).1) part (macTxCycle s i).2.byte := by
  obtain ⟨r, m'⟩ := i
  rcases h with ⟨hidle, rfl⟩ | ⟨req, m, j, hP, hj, rfl, rfl⟩
  · rw [macTxCycle_idle_byte hidle]
    cases hreq : r.request with
    | false => exact .inl ⟨(macTx_rests hidle hreq m').1, rfl⟩
    | true =>
        -- the latch
        refine .inr ⟨r, m', 0, hi hreq, ?_, ?_, rfl⟩
        · rw [length_txWire]
          omega
        · rw [macTx_latch hidle hreq, txAt_zero]
  · -- the buffer that has the bytes that are out, and the next one of `m'`
    have htake := txWire_spliced_take req m m' hj.le
    have hcycle := macTx_spliced req m m' hj r
    have hlen : ∀ mem : Mem U32, (txWire req mem).length = (txWire req m).length := by
      intro mem
      rw [length_txWire, length_txWire, length_txPadded, length_txPadded]
    have hat := txAt_spliced req m m' j
    generalize splicedMem req m m' (txDataOut req j) = now at *
    have hnow : j < (txWire req now).length := by
      rw [hlen now]
      exact hj
    obtain ⟨hnext, hbyte⟩ := macTx_txAt req now hnow (r, now) (fun _ _ => rfl)
    have hsymbol : (gmiiFrame (txWire req now))[j]?
        = some { data := (txWire req now)[j], last := j + 1 == (txWire req now).length } := by
      rw [gmiiFrame_getElem?, List.getElem?_eq_getElem hnow]
      rfl
    have hpart : (gmiiFrame (txWire req m)).take j ++ [{ data := (txWire req now)[j]
                                                         last := j + 1 == (txWire req now).length }]
        = (gmiiFrame (txWire req now)).take (j + 1) := by
      rw [← gmiiFrame_take (hlen now) htake, List.take_add_one, hsymbol]
      rfl
    rw [hcycle, ← hat, hnext, hbyte, hsymbol]
    show if _ then _ else _
    by_cases hend : j + 1 = (txWire req now).length
    · rw [if_pos (by simpa using hend), hpart]
      refine ⟨⟨req, now, hP, ?_⟩, .inl ⟨?_, rfl⟩⟩
      · rw [hend, ← length_gmiiFrame, List.take_length]
      · rw [hend]
        exact txAt_end req now
    · rw [if_neg (by simpa using hend), hpart]
      exact .inr ⟨req, now, j + 1, hP, by omega, rfl, rfl⟩

end GigabitTcp
