/-
  GigabitTcp.Arp.Cache — the ARP tables as a store of bindings on two levels.

  The slots of L1 that are in use are the first ones, and their ages keep them in the order of
  their last use.  Read in that order, L1 is the upper level of the store, and the slots of L2
  up to the first free one are its lower level.  `arp_lookup` and `arp_update` do to the tables
  what a lookup and an update do to that store.

  Main results:
    * `ArpTables.Shows.insert` — `l1_insert` enters a binding in front,
    * `ArpTables.Shows.hit`    — the hit of a slot moves its binding there,
    * `arpTables_shows`        — every run of the tables shows the run of the store, and
      the lookups find the same.
-/
import GigabitTcp.LayerArp
import GigabitTcp.Hw.TwoLevel
import GigabitTcp.Hw.Lru

namespace GigabitTcp

open Hw Machine

/-! ## §1. The cache as a machine. -/

/-- `arp_lookup` and `arp_update`, called in any order. -/
def arpCache : Machine ArpTables (StoreOp U32 U48) (Option U48)
  | t, .lookup ip => ((arpLookup t ip).2, (arpLookup t ip).1)
  | t, .update ip mac => (arpUpdate t ip mac, none)

/-- The store the tables stand for. -/
abbrev arpStore : Machine (TwoLevel U32 U48) (StoreOp U32 U48) (Option U48) :=
  TwoLevel.step l1Size l2Size

namespace ArpTables

/-- The age of a slot, as a number. -/
def ageOf (t : ArpTables) (i : Nat) : Nat := (t.l1Age i).toNat

/-- The binding of a slot. -/
def bindingOf (e : ArpEntry) : U32 × U48 := (e.ip, e.mac)

/-- L2 holds these bindings, in this order. -/
def Lists (table : Mem ArpEntry) (l : List (U32 × U48)) : Prop :=
  ∀ i, i < l2Size → (∀ e, l[i]? = some e → table i = { ip := e.1, mac := e.2, valid := true })
    ∧ (l[i]? = none → (table i).valid = false)

/-- The tables show the store `s`, with the slots of L1 in the order of their last use. -/
structure Shows (t : ArpTables) (s : TwoLevel U32 U48) (order : List Nat) : Prop where
  slots : order.Perm (List.range order.length)
  ages : Lru.Ages t.ageOf order 0
  used : ∀ i ∈ order, (t.l1Cache i).valid = true
  free : ∀ i, order.length ≤ i → i < l1Size → (t.l1Cache i).valid = false ∧ t.ageOf i = order.length
  upper : s.upper = order.map (fun i => bindingOf (t.l1Cache i))
  sized : s.Sized l1Size
  lower : Lists t.l2Table s.lower
  fits : s.lower.length ≤ l2Size

/-- The empty tables show the empty store. -/
theorem shows_empty : ({} : ArpTables).Shows {} [] where
  slots := List.Perm.refl []
  ages := trivial
  used := nofun
  free _ _ _ := ⟨rfl, rfl⟩
  upper := rfl
  sized := ⟨Nat.zero_le _, List.nodup_nil⟩
  lower _ _ := ⟨nofun, fun _ => rfl⟩
  fits := Nat.zero_le _

variable {t : ArpTables} {s : TwoLevel U32 U48} {order : List Nat}

theorem Shows.length (h : t.Shows s order) : s.upper.length = order.length := by
  rw [h.upper, List.length_map]

theorem Shows.mem_iff (h : t.Shows s order) {i : Nat} : i ∈ order ↔ i < order.length := by
  rw [h.slots.mem_iff, List.mem_range]

theorem Shows.nodup (h : t.Shows s order) : order.Nodup :=
  h.slots.nodup_iff.mpr List.nodup_range

theorem Shows.order_le (h : t.Shows s order) : order.length ≤ l1Size := by
  rw [← h.length]
  exact h.sized.fits

/-! ## §2. What is found. -/

/-- The L1 search finds the slot that is bound to the address, if there is one. -/
theorem Shows.findEntry_l1 (h : t.Shows s order) (ip : U32) :
    (∃ i ∈ order, findEntry t.l1Cache l1Size ip = some i ∧ (t.l1Cache i).ip = ip
        ∧ s.upper.lookup ip = some (t.l1Cache i).mac)
      ∨ (findEntry t.l1Cache l1Size ip = none ∧ s.upper.lookup ip = none) := by
  cases hfind : findEntry t.l1Cache l1Size ip with
  | some i =>
      left
      obtain ⟨hp, hi, -⟩ := List.find?_range_eq_some.mp hfind
      rw [Bool.and_eq_true, beq_iff_eq] at hp
      have hmem : i ∈ order := by
        by_contra hout
        have hfree := (h.free i (not_lt.mp (fun hlt => hout (h.mem_iff.mpr hlt))) (List.mem_range.mp hi)).1
        rw [hp.1] at hfree
        cases hfree
      refine ⟨i, hmem, rfl, hp.2, ?_⟩
      apply TwoLevel.lookup_of_mem h.sized.distinct
      rw [h.upper]
      exact List.mem_map.mpr ⟨i, hmem, by unfold bindingOf; rw [hp.2]⟩
  | none =>
      right
      refine ⟨rfl, ?_⟩
      rw [TwoLevel.lookup_none_iff, h.upper, List.map_map]
      intro hin
      obtain ⟨i, hmem, hip⟩ := List.mem_map.mp hin
      have hno := List.find?_range_eq_none.mp hfind i
        (lt_of_lt_of_le (h.mem_iff.mp hmem) h.order_le)
      rw [h.used i hmem, Bool.true_and, Bool.not_eq_true', beq_eq_false_iff_ne] at hno
      exact hno hip

/-- A search of L2 finds the first binding of the address. -/
theorem Lists.findEntry {table : Mem ArpEntry} {l : List (U32 × U48)} (h : Lists table l)
    (hfits : l.length ≤ l2Size) (ip : U32) :
    (findEntry table l2Size ip).map (fun i => (table i).mac) = l.lookup ip := by
  cases hfind : GigabitTcp.findEntry table l2Size ip with
  | some i =>
      obtain ⟨hp, hi, hfirst⟩ := List.find?_range_eq_some.mp hfind
      rw [Bool.and_eq_true, beq_iff_eq] at hp
      have hi := List.mem_range.mp hi
      cases hget : l[i]? with
      | none =>
          have hfree := (h i hi).2 hget
          rw [hp.1] at hfree
          cases hfree
      | some e =>
          have he := (h i hi).1 e hget
          have hip : e.1 = ip := by rw [← hp.2, he]
          obtain ⟨hlt, hval⟩ := List.getElem?_eq_some_iff.mp hget
          symm
          refine List.lookup_eq_some_iff.mpr ⟨l.take i, l.drop (i + 1), ?_, ?_⟩
          · show l = l.take i ++ (ip, (table i).mac) :: l.drop (i + 1)
            rw [he, ← hip, Prod.eta, ← hval, List.getElem_cons_drop, List.take_append_drop]
          · -- the slots in front of it hold other addresses
            intro e' hin
            obtain ⟨j, hj, hget'⟩ := List.getElem_of_mem hin
            rw [List.length_take] at hj
            rw [List.getElem_take] at hget'
            have hno := hfirst j (by omega)
            rw [(h j (by omega)).1 e' (by rw [List.getElem?_eq_getElem (by omega), hget']),
              Bool.true_and, Bool.not_eq_true', beq_eq_false_iff_ne] at hno
            exact bne_iff_ne.mpr (Ne.symm hno)
  | none =>
      symm
      rw [Option.map_none, TwoLevel.lookup_none_iff]
      intro hin
      obtain ⟨e, he, hip⟩ := List.mem_map.mp hin
      obtain ⟨i, hlt, hget⟩ := List.getElem_of_mem he
      have hno := List.find?_range_eq_none.mp hfind i (by omega)
      rw [(h i (by omega)).1 e (by rw [List.getElem?_eq_getElem hlt, hget])] at hno
      simp [hip] at hno

/-! ## §3. Touching a slot. -/

/-- The ages after a touch, as long as no other slot of age 7 is among those that age. -/
theorem l1LruTouch_ageOf (t : ArpTables) (i : Nat) {j : Nat} (hj : j < l1Size)
    (hyoung : j ≠ i → t.ageOf j ≤ t.ageOf i → t.ageOf j < 7) :
    (l1LruTouch t i).ageOf j = Lru.touch t.ageOf i j := by
  unfold ageOf l1LruTouch Lru.touch
  dsimp only
  rw [if_pos hj]
  by_cases hji : j = i
  · rw [if_pos hji, if_pos hji]
    rfl
  · rw [if_neg hji, if_neg hji]
    by_cases hle : t.ageOf j ≤ t.ageOf i
    · have hlt := hyoung hji hle
      unfold ageOf at hle hlt
      rw [if_pos (BitVec.le_def.mpr hle), if_pos hle, BitVec.toNat_add]
      show ((t.l1Age j).toNat + 1) % 8 = _
      omega
    · unfold ageOf at hle
      rw [if_neg (fun hle' => hle (BitVec.le_def.mp hle')), if_neg hle]

/-- **No age wraps**: where a slot in use or the first free one is touched, no other slot that
ages has age 7. -/
theorem Shows.age_lt (h : t.Shows s order) {i j : Nat} (hi : i ≤ order.length) (hi8 : i < l1Size)
    (hj : j < l1Size) (hji : j ≠ i) (hle : t.ageOf j ≤ t.ageOf i) : t.ageOf j < 7 := by
  have hlength := h.order_le
  have hslot : ∀ x, x < order.length → t.ageOf x < order.length ∧ order[t.ageOf x]? = some x := by
    intro x hx
    have hget := (h.ages.getElem? (h.mem_iff.mpr hx)).2
    have hlt := (h.ages.mem (h.mem_iff.mpr hx)).2
    rw [Nat.sub_zero] at hget
    exact ⟨by omega, hget⟩
  have hwide : ∀ x, t.ageOf x < 8 := fun x => (t.l1Age x).isLt
  unfold l1Size at hlength hi8 hj
  by_contra hseven
  have hjage : t.ageOf j = 7 := by
    have := hwide j
    omega
  have hiage : t.ageOf i = 7 := by
    have := hwide i
    omega
  by_cases hused : j < order.length
  -- all slots are in use, and only one of them has age 7
  · obtain ⟨hlt, hget⟩ := hslot j hused
    obtain ⟨-, hget'⟩ := hslot i (by omega)
    rw [hjage] at hget
    rw [hiage] at hget'
    exact hji (Option.some.inj (hget.symm.trans hget'))
  -- the free slot is the last one, and the slots in use are younger
  · have hage := (h.free j (Nat.not_lt.mp hused) hj).2
    have := (hslot i (by omega)).1
    omega

/-- A touch of a slot in use, or of the first free one, ages the slots as numbers. -/
theorem Shows.touch_ageOf (h : t.Shows s order) {i j : Nat} (hi : i ≤ order.length) (hi8 : i < l1Size)
    (hj : j < l1Size) : (l1LruTouch t i).ageOf j = Lru.touch t.ageOf i j :=
  l1LruTouch_ageOf t i hj fun hji hle => h.age_lt hi hi8 hj hji hle

/-- The slots in use after slot `i` was touched, and the free ones. -/
theorem Shows.touch_ages (h : t.Shows s order) {pre post : List Nat} {i : Nat}
    (hsplit : order = pre ++ i :: post) :
    Lru.Ages (l1LruTouch t i).ageOf (i :: (pre ++ post)) 0
      ∧ ∀ j, order.length ≤ j → j < l1Size → (l1LruTouch t i).ageOf j = t.ageOf j := by
  have hages := h.ages
  have hnodup := h.nodup
  have hlength := h.order_le
  rw [hsplit] at hages hnodup
  have hmem : i ∈ order := hsplit ▸ List.mem_append_right _ List.mem_cons_self
  have hi := h.mem_iff.mp hmem
  have hold := (h.ages.mem hmem).2
  rw [Nat.zero_add] at hold
  have htouch : ∀ j, j < l1Size → (l1LruTouch t i).ageOf j = Lru.touch t.ageOf i j :=
    fun j hj => h.touch_ageOf hi.le (lt_of_lt_of_le hi hlength) hj
  constructor
  · apply (hages.touch hnodup).congr
    intro j hj
    apply htouch
    have hin : j ∈ order := by
      rw [hsplit]
      exact List.perm_middle.mem_iff.mpr hj
    exact lt_of_lt_of_le (h.mem_iff.mp hin) hlength
  · intro j hfree hj
    rw [htouch j hj]
    exact Lru.touch_older (by rw [(h.free j hfree hj).2]; exact hold)

/-! ## §4. Entering a binding. -/

/-- Slot `i` takes a binding, and comes in front of the slots `rest`. -/
theorem Shows.entered (h : t.Shows s order) {i : Nat} {rest : List Nat} {ip : U32} {mac : U48}
    {table : Mem ArpEntry} {s' : TwoLevel U32 U48}
    (hslots : (i :: rest).Perm (List.range (rest.length + 1)))
    (hrest : ∀ j ∈ rest, j ∈ order ∧ j ≠ i)
    (hages : Lru.Ages (l1LruTouch t i).ageOf (i :: rest) 0)
    (hfree : ∀ j, rest.length + 1 ≤ j → j < l1Size →
      j ≠ i ∧ order.length ≤ j ∧ (l1LruTouch t i).ageOf j = rest.length + 1)
    (hupper : s'.upper = (ip, mac) :: rest.map (fun j => bindingOf (t.l1Cache j)))
    (hsized : s'.Sized l1Size) (hlower : Lists table s'.lower) (hfits : s'.lower.length ≤ l2Size) :
    (l1LruTouch { t with l1Cache := t.l1Cache.set i { ip, mac, valid := true }, l2Table := table } i).Shows
      s' (i :: rest) where
  slots := hslots
  ages := hages
  used j hj := by
    show (t.l1Cache.set i _ j).valid = true
    rcases List.mem_cons.mp hj with rfl | hj
    · rw [Mem.set_same]
    · rw [Mem.set_other _ _ (hrest j hj).2]
      exact h.used j (hrest j hj).1
  free j hj hj8 := by
    obtain ⟨hji, hfree, hage⟩ := hfree j hj hj8
    refine ⟨?_, hage⟩
    show (t.l1Cache.set i _ j).valid = false
    rw [Mem.set_other _ _ hji]
    exact (h.free j hfree hj8).1
  upper := by
    rw [hupper, List.map_cons]
    refine congrArg₂ List.cons ?_ ?_
    · show _ = bindingOf (t.l1Cache.set i _ i)
      rw [Mem.set_same]
      rfl
    · apply List.map_congr_left
      intro j hj
      show _ = bindingOf (t.l1Cache.set i _ j)
      rw [Mem.set_other _ _ (hrest j hj).2]
  sized := hsized
  lower := hlower
  fits := hfits

/-- Slot `i` in the middle of the order takes a binding and comes in front. -/
theorem Shows.reentered (h : t.Shows s order) {pre post : List Nat} {i : Nat} {ip : U32} {mac : U48}
    {table : Mem ArpEntry} {s' : TwoLevel U32 U48} (hsplit : order = pre ++ i :: post)
    (hupper : s'.upper = (ip, mac) :: (pre ++ post).map (fun j => bindingOf (t.l1Cache j)))
    (hsized : s'.Sized l1Size) (hlower : Lists table s'.lower) (hfits : s'.lower.length ≤ l2Size) :
    (l1LruTouch { t with l1Cache := t.l1Cache.set i { ip, mac, valid := true }, l2Table := table } i).Shows
      s' (i :: (pre ++ post)) := by
  have hages := h.touch_ages hsplit
  have hslots := h.slots
  have hnodup := h.nodup
  have hlen : order.length = (pre ++ post).length + 1 := by
    rw [hsplit]
    simp
    omega
  rw [hlen] at hslots
  rw [hsplit] at hslots hnodup
  have hmid := List.perm_middle.nodup_iff.mp hnodup
  refine h.entered (List.perm_middle.symm.trans hslots) ?_ hages.1 ?_ hupper hsized hlower hfits
  · intro j hj
    refine ⟨?_, fun hji => (List.nodup_cons.mp hmid).1 (hji ▸ hj)⟩
    rw [hsplit]
    exact List.perm_middle.mem_iff.mpr (List.mem_cons_of_mem _ hj)
  · intro j hj hj8
    have hout : j ∉ order := by
      rw [h.mem_iff, hlen]
      omega
    refine ⟨?_, by omega, ?_⟩
    · rintro rfl
      apply hout
      rw [hsplit]
      exact List.mem_append_right _ List.mem_cons_self
    · rw [hages.2 j (by omega) hj8, (h.free j (by omega) hj8).2, hlen]

/-- **A hit** in L1 puts the binding in front. -/
theorem Shows.hit (h : t.Shows s order) {i : Nat} {ip : U32} (hi : i ∈ order)
    (hip : (t.l1Cache i).ip = ip) (mac : U48) :
    ∃ order', (l1LruTouch { t with l1Cache := t.l1Cache.set i { t.l1Cache i with mac } } i).Shows
      (s.put l1Size l2Size ip mac) order' := by
  obtain ⟨pre, post, hsplit⟩ := List.append_of_mem hi
  have hentry : { t.l1Cache i with mac } = ({ ip, mac, valid := true } : ArpEntry) := by
    rw [← hip, ← h.used i hi]
  rw [hentry]
  refine ⟨i :: (pre ++ post), ?_⟩
  have hsized := h.sized.put (d := l2Size) (by decide) ip mac
  have hkeys := h.sized.distinct
  rw [h.upper, hsplit, List.map_append, List.map_cons, List.map_append, List.map_cons] at hkeys
  have hbound : (bindingOf (t.l1Cache i)).1 = ip := hip
  rw [hbound] at hkeys
  have hfound : s.upper.lookup ip ≠ none := by
    rw [Ne, TwoLevel.lookup_none_iff, not_not, h.upper]
    rw [List.map_map]
    exact List.mem_map.mpr ⟨i, hi, hip⟩
  have hput : s.put l1Size l2Size ip mac = s.refresh ip mac := if_neg hfound
  rw [hput] at hsized ⊢
  refine h.reentered hsplit ?_ hsized h.lower h.fits
  show (ip, mac) :: s.upper.eraseP (fun e => e.1 == ip) = _
  have hbefore : ∀ e ∈ pre.map (fun j => bindingOf (t.l1Cache j)), ¬ (e.1 == ip) = true := by
    intro e he hk
    exact (List.nodup_append.mp hkeys).2.2 e.1 (List.mem_map_of_mem he) ip List.mem_cons_self
      (beq_iff_eq.mp hk)
  rw [h.upper, hsplit, List.map_append, List.map_cons, List.eraseP_append_right _ hbefore,
    List.eraseP_cons_of_pos (by rw [hbound, beq_self_eq_true]), List.map_append]

/-! ## §5. The victim. -/

/-- An invalid slot is taken first. -/
theorem l1Victim_invalid {is : List Nat} {k : Nat}
    (h : is.find? (fun i => !(t.l1Cache i).valid) = some k) (maxAge : BitVec 3) (victim : Nat) :
    l1Victim t is maxAge victim = k := by
  induction is generalizing maxAge victim with
  | nil => cases h
  | cons i is ih =>
      unfold l1Victim
      by_cases hi : (!(t.l1Cache i).valid) = true
      · rw [List.find?_cons_of_pos (p := fun i => !(t.l1Cache i).valid) hi] at h
        rw [if_pos hi]
        exact Option.some.inj h
      · rw [List.find?_cons_of_neg (p := fun i => !(t.l1Cache i).valid) hi] at h
        rw [if_neg hi]
        split <;> exact ih h _ _

/-- Younger slots do not displace the victim. -/
theorem l1Victim_younger {is : List Nat} {maxAge : BitVec 3} (victim : Nat)
    (h : ∀ i ∈ is, (t.l1Cache i).valid = true ∧ t.ageOf i < maxAge.toNat) :
    l1Victim t is maxAge victim = victim := by
  induction is with
  | nil => rfl
  | cons i is ih =>
      obtain ⟨hvalid, hage⟩ := h i List.mem_cons_self
      unfold l1Victim
      rw [hvalid, if_neg (by decide), if_neg]
      · exact ih fun j hj => h j (List.mem_cons_of_mem _ hj)
      · intro hle
        exact absurd (BitVec.le_def.mp hle) (not_le.mpr hage)

/-- Without an invalid slot the oldest one is taken. -/
theorem l1Victim_oldest {is : List Nat} {o : Nat} (ho : o ∈ is) (hnodup : is.Nodup) {maxAge : BitVec 3}
    (hmax : maxAge.toNat ≤ t.ageOf o) (victim : Nat)
    (h : ∀ i ∈ is, (t.l1Cache i).valid = true ∧ (i ≠ o → t.ageOf i < t.ageOf o)) :
    l1Victim t is maxAge victim = o := by
  induction is generalizing maxAge victim with
  | nil => cases ho
  | cons i is ih =>
      obtain ⟨hvalid, hage⟩ := h i List.mem_cons_self
      have htail : ∀ j ∈ is, (t.l1Cache j).valid = true ∧ (j ≠ o → t.ageOf j < t.ageOf o) :=
        fun j hj => h j (List.mem_cons_of_mem _ hj)
      have hout := (List.nodup_cons.mp hnodup).1
      unfold l1Victim
      rw [hvalid, if_neg (by decide)]
      by_cases hio : i = o
      · rw [hio] at hout ⊢
        rw [if_pos (BitVec.le_def.mpr hmax)]
        refine l1Victim_younger o fun j hj => ⟨(htail j hj).1, (htail j hj).2 ?_⟩
        rintro rfl
        exact hout hj
      · have hmem : o ∈ is := (List.mem_cons.mp ho).resolve_left (fun hoi => hio hoi.symm)
        split
        · exact ih hmem (List.nodup_cons.mp hnodup).2 (hage hio).le i htail
        · exact ih hmem (List.nodup_cons.mp hnodup).2 hmax victim htail

/-- The write-back appends to the bindings of L2, if there is a place. -/
theorem Lists.writeBack (h : Lists t.l2Table s.lower) (hfits : s.lower.length ≤ l2Size)
    {e : ArpEntry} (he : e.valid = true) :
    l2WriteBack t e = { t with l2Table := (l2WriteBack t e).l2Table }
      ∧ Lists (l2WriteBack t e).l2Table
        (if s.lower.length < l2Size then s.lower ++ [bindingOf e] else s.lower) := by
  unfold l2WriteBack
  by_cases hroom : s.lower.length < l2Size
  · have hplace : (List.range l2Size).find? (fun i => !(t.l2Table i).valid) = some s.lower.length := by
      refine List.find?_range_eq_some.mpr ⟨?_, List.mem_range.mpr hroom, ?_⟩
      · rw [(h _ hroom).2 (List.getElem?_eq_none le_rfl)]
        rfl
      · intro j hj
        rw [(h j (by omega)).1 _ (List.getElem?_eq_getElem hj)]
        rfl
    rw [hplace, if_pos hroom]
    refine ⟨rfl, ?_⟩
    intro i hi
    show (∀ e', _ → t.l2Table.set s.lower.length e i = _) ∧ (_ → (t.l2Table.set s.lower.length e i).valid = false)
    rcases Nat.lt_trichotomy i s.lower.length with hlt | rfl | hgt
    · rw [Mem.set_other _ _ (by omega), List.getElem?_append_left hlt]
      exact h i hi
    · rw [Mem.set_same, List.getElem?_concat_length]
      constructor
      · intro e' he'
        rw [← Option.some.inj he', ← he]
        rfl
      · intro hnone
        cases hnone
    · rw [Mem.set_other _ _ (by omega), List.getElem?_eq_none (by simp; omega)]
      constructor
      · intro e' he'
        cases he'
      · intro _
        exact (h i hi).2 (List.getElem?_eq_none (by omega))
  · have hnone : (List.range l2Size).find? (fun i => !(t.l2Table i).valid) = none := by
      refine List.find?_range_eq_none.mpr ?_
      intro j hj
      rw [(h j hj).1 _ (List.getElem?_eq_getElem (by omega))]
      rfl
    rw [hnone, if_neg hroom]
    exact ⟨rfl, h⟩

/-- With a free slot, the first one is taken, and nothing retires. -/
theorem Shows.victim_free (h : t.Shows s order) (hfree : order.length < l1Size) :
    l1Victim t (List.range l1Size) 0 0 = order.length
      ∧ (t.l1Cache order.length).valid = false ∧ s.upper[l1Size - 1]? = none := by
  have hslot := h.free order.length le_rfl hfree
  have hlength := h.length
  refine ⟨?_, hslot.1, List.getElem?_eq_none (by omega)⟩
  apply l1Victim_invalid
  refine List.find?_range_eq_some.mpr ⟨?_, List.mem_range.mpr hfree, ?_⟩
  · rw [hslot.1]
    rfl
  · intro j hj
    rw [h.used j (h.mem_iff.mpr hj)]
    rfl

/-- In a full L1 the slot used least recently is taken, and its binding retires. -/
theorem Shows.victim_full (h : t.Shows s order) (hfull : order.length = l1Size) :
    ∃ pre o, order = pre ++ [o] ∧ l1Victim t (List.range l1Size) 0 0 = o
      ∧ (t.l1Cache o).valid = true ∧ s.upper[l1Size - 1]? = some (bindingOf (t.l1Cache o)) := by
  obtain ⟨pre, o, hsplit⟩ : ∃ pre o, order = pre ++ [o] := by
    rcases List.eq_nil_or_concat order with hnil | hlast
    · rw [hnil] at hfull
      cases hfull
    · obtain ⟨pre, o, hlast⟩ := hlast
      exact ⟨pre, o, by rw [hlast, List.concat_eq_append]⟩
  have ho : o ∈ order := hsplit ▸ List.mem_append_right _ (List.mem_singleton.mpr rfl)
  have hlen : pre.length = l1Size - 1 := by
    rw [hsplit, List.length_append] at hfull
    exact Nat.eq_sub_of_add_eq hfull
  have hold := (hsplit ▸ h.ages : Lru.Ages t.ageOf (pre ++ [o]) 0).oldest
  refine ⟨pre, o, hsplit, ?_, h.used o ho, ?_⟩
  · refine l1Victim_oldest ?_ List.nodup_range (Nat.zero_le _) 0 ?_
    · rw [← hfull]
      exact h.slots.mem_iff.mp ho
    · intro j hj
      rw [← hfull] at hj
      have hmem : j ∈ order := h.slots.mem_iff.mpr hj
      refine ⟨h.used j hmem, ?_⟩
      intro hne
      rw [hsplit] at hmem
      rcases List.mem_append.mp hmem with hpre | hlast
      · exact hold.2 j hpre
      · exact absurd (List.mem_singleton.mp hlast) hne
  · rw [h.upper, hsplit, List.map_append, List.getElem?_append_right (by rw [List.length_map, hlen]),
      List.length_map, hlen, Nat.sub_self]
    rfl

/-! ## §6. `l1_insert`, `arp_lookup` and `arp_update`. -/

/-- With a free slot, nothing retires. -/
theorem Shows.insert_free (h : t.Shows s order) {ip : U32} (hmiss : s.upper.lookup ip = none) (mac : U48)
    (hfree : order.length < l1Size) :
    (l1Insert t ip mac).Shows (s.put l1Size l2Size ip mac) (order.length :: order) := by
  have hslot := h.free order.length le_rfl hfree
  obtain ⟨hvictim, -, hnone⟩ := h.victim_free hfree
  have hsized := h.sized.put (d := l2Size) (by decide) ip mac
  have hput : s.put l1Size l2Size ip mac = s.enter l1Size l2Size ip mac := if_pos hmiss
  have hlength := h.length
  have hlower : (s.enter l1Size l2Size ip mac).lower = s.lower := by
    unfold TwoLevel.enter
    rw [hnone, Option.toList_none, List.append_nil, ite_self]
  have hnew : order.length ∉ order := fun hin => absurd (h.mem_iff.mp hin) (lt_irrefl _)
  unfold l1Insert
  dsimp only
  rw [hvictim, hslot.1, if_neg Bool.false_ne_true, hput]
  rw [hput] at hsized
  refine h.entered ?_ ?_ ?_ ?_ ?_ hsized ?_ ?_
  · rw [List.range_succ]
    exact (h.slots.cons order.length).trans (List.perm_append_singleton _ _).symm
  · intro j hj
    refine ⟨hj, ?_⟩
    rintro rfl
    exact hnew hj
  · apply (h.ages.touch_new hnew (by rw [hslot.2])).congr
    intro j hj
    have hj8 : j < l1Size := by
      rcases List.mem_cons.mp hj with rfl | hj
      · exact hfree
      · exact lt_trans (h.mem_iff.mp hj) hfree
    exact h.touch_ageOf le_rfl hfree hj8
  · intro j hj hj8
    have hage := (h.free j (by omega) hj8).2
    have htouch := h.touch_ageOf le_rfl hfree hj8
    refine ⟨by omega, by omega, ?_⟩
    rw [htouch, Lru.touch_younger (by omega) (by rw [hage, hslot.2]), hage]
  · show (ip, mac) :: s.upper.take (l1Size - 1) = _
    rw [List.take_of_length_le (by omega), h.upper]
  · rw [hlower]
    exact h.lower
  · rw [hlower]
    exact h.fits

/-- In a full L1 the oldest slot is overwritten, and its binding retires to L2. -/
theorem Shows.insert_full (h : t.Shows s order) {ip : U32} (hmiss : s.upper.lookup ip = none) (mac : U48)
    (hfull : order.length = l1Size) :
    ∃ order', (l1Insert t ip mac).Shows (s.put l1Size l2Size ip mac) order' := by
  obtain ⟨pre, o, hsplit, hvictim, hvalid, hlast⟩ := h.victim_full hfull
  have hlen : pre.length = l1Size - 1 := by
    rw [hsplit, List.length_append] at hfull
    exact Nat.eq_sub_of_add_eq hfull
  obtain ⟨hback, hlists⟩ := h.lower.writeBack h.fits hvalid
  have hsized := h.sized.put (d := l2Size) (by decide) ip mac
  have hput : s.put l1Size l2Size ip mac = s.enter l1Size l2Size ip mac := if_pos hmiss
  have hlower : (s.enter l1Size l2Size ip mac).lower
      = if s.lower.length < l2Size then s.lower ++ [bindingOf (t.l1Cache o)] else s.lower := by
    unfold TwoLevel.enter
    rw [hlast]
    rfl
  unfold l1Insert
  dsimp only
  rw [hvictim, if_pos hvalid, hback, hput]
  rw [hput] at hsized
  refine ⟨o :: (pre ++ []), ?_⟩
  refine h.reentered hsplit ?_ hsized ?_ ?_
  · show (ip, mac) :: s.upper.take (l1Size - 1) = _
    rw [h.upper, hsplit, List.map_append, List.take_append_of_le_length (by rw [List.length_map, hlen]),
      List.take_of_length_le (by rw [List.length_map, hlen]), List.append_nil]
  · rw [hlower]
    exact hlists
  · rw [hlower]
    split
    · rw [List.length_append]
      exact Nat.succ_le_of_lt ‹_›
    · exact h.fits

/-- **`l1_insert`** puts the binding in front. -/
theorem Shows.insert (h : t.Shows s order) {ip : U32} (hmiss : s.upper.lookup ip = none) (mac : U48) :
    ∃ order', (l1Insert t ip mac).Shows (s.put l1Size l2Size ip mac) order' := by
  rcases Nat.lt_or_eq_of_le h.order_le with hfree | hfull
  · exact ⟨_, h.insert_free hmiss mac hfree⟩
  · exact h.insert_full hmiss mac hfull

/-- **One call** does to the tables what the operation does to the store, and finds the same. -/
theorem Shows.step (h : t.Shows s order) (op : StoreOp U32 U48) :
    (∃ order', (arpCache t op).1.Shows (arpStore s op).1 order') ∧ (arpCache t op).2 = (arpStore s op).2 := by
  cases op with
  | update ip mac =>
      refine ⟨?_, rfl⟩
      show ∃ order', (arpUpdate t ip mac).Shows (s.put l1Size l2Size ip mac) order'
      unfold arpUpdate
      rcases h.findEntry_l1 ip with ⟨i, hi, hfind, hip, -⟩ | ⟨hfind, hmiss⟩
      · rw [hfind]
        exact h.hit hi hip mac
      · rw [hfind]
        exact h.insert hmiss mac
  | lookup ip =>
      show (∃ order', (arpLookup t ip).2.Shows
          ((s.find ip).elim s (fun mac => s.put l1Size l2Size ip mac)) order')
        ∧ (arpLookup t ip).1 = s.find ip
      unfold arpLookup l1Lookup TwoLevel.find
      rcases h.findEntry_l1 ip with ⟨i, hi, hfind, hip, hupper⟩ | ⟨hfind, hmiss⟩
      · rw [hfind, hupper]
        refine ⟨?_, rfl⟩
        have hhit := h.hit hi hip (t.l1Cache i).mac
        have hsame : t.l1Cache.set i { t.l1Cache i with mac := (t.l1Cache i).mac } = t.l1Cache := by
          funext j
          by_cases hj : j = i
          · rw [hj, Mem.set_same]
          · rw [Mem.set_other _ _ hj]
        rw [hsame] at hhit
        exact hhit
      · have hlower := h.lower.findEntry h.fits ip
        rw [hfind, hmiss, Option.none_or, ← hlower]
        cases findEntry t.l2Table l2Size ip with
        | none => exact ⟨⟨order, h⟩, rfl⟩
        | some i => exact ⟨h.insert hmiss _, rfl⟩

/-- **Every run** of the tables shows the run of the store, and its lookups find the same. -/
theorem arpTables_shows (h : t.Shows s order) (ops : List (StoreOp U32 U48)) :
    (∃ order', (arpCache.after t ops).Shows (arpStore.after s ops) order')
      ∧ arpCache.outs t ops = arpStore.outs s ops := by
  induction ops generalizing t s order with
  | nil => exact ⟨⟨order, h⟩, rfl⟩
  | cons op ops ih =>
      obtain ⟨⟨order', hnext⟩, hsame⟩ := h.step op
      obtain ⟨hrest, houts⟩ := ih hnext
      refine ⟨hrest, ?_⟩
      rw [outs_cons, outs_cons, hsame, houts]

end ArpTables

end GigabitTcp
