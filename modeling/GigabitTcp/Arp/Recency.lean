/-
  GigabitTcp.Arp.Recency — L1 as a true LRU cache.

  An address is used when it is updated, or looked up and found.  The slots of L1 that are in use
  are the first ones, and the age of a slot is the place of its address among the addresses in
  the order of their last use.  The ages are three bits wide and never wrap: `l1_lru_touch` does
  in them what it would do in unbounded numbers.

  Main results:
    * `ArpTables.Shows.keepsLru` — tables that show a store keep their slots by recency,
    * `arp_true_lru`             — so do the tables of every run from the empty cache; no age
      wraps, and a full L1 loses the address used least recently.
-/
import GigabitTcp.Arp.Cache

namespace GigabitTcp

open Hw Machine

/-! ## §1. What LRU means for the tables. -/

/-- The address that a call uses: one that is updated, or found. -/
def arpUses (t : ArpTables) : StoreOp U32 U48 → List U32
  | .lookup ip => if (arpLookup t ip).1.isSome then [ip] else []
  | .update ip _ => [ip]

/-- The slot that `l1_insert` overwrites. -/
def l1InsertSlot (t : ArpTables) : Nat := l1Victim t (List.range l1Size) 0 0

/-- The slot that a call touches: a hit, or the slot of an insertion. -/
def arpTouched (t : ArpTables) : StoreOp U32 U48 → Option Nat
  | .lookup ip => (findEntry t.l1Cache l1Size ip).or
      ((findEntry t.l2Table l2Size ip).map fun _ => l1InsertSlot t)
  | .update ip _ => some ((findEntry t.l1Cache l1Size ip).getD (l1InsertSlot t))

namespace ArpTables

/-- The slots of L1 are kept by recency: `recent` lists the addresses used so far, the last one
first, and `k` slots are in use. -/
structure KeepsLru (t : ArpTables) (recent : List U32) (k : Nat) : Prop where
  count : k = min l1Size recent.length
  valid : ∀ i, i < l1Size → ((t.l1Cache i).valid = true ↔ i < k)
  distinct : ∀ i j, i < k → j < k → (t.l1Cache i).ip = (t.l1Cache j).ip → i = j
  ages : ((List.range k).map t.ageOf).Perm (List.range k)
  /-- Age 0 is the address used last, age 1 the one before, and so on. -/
  ordered : ∀ i, i < k → recent[t.ageOf i]? = some (t.l1Cache i).ip
  free : ∀ i, k ≤ i → i < l1Size → t.ageOf i = k

/-- No age wraps in the call: if it touches a slot, the ages move on as unbounded numbers do. -/
def AgesInRange (t : ArpTables) (op : StoreOp U32 U48) : Prop :=
  (∀ i, arpTouched t op = some i → ∀ j, j < l1Size →
      (arpCache t op).1.ageOf j = Lru.touch t.ageOf i j)
    ∧ (arpTouched t op = none → (arpCache t op).1.l1Age = t.l1Age)

variable {t : ArpTables} {s : TwoLevel U32 U48} {order : List Nat}

/-! ## §2. The slots of tables that show a store. -/

theorem Shows.keys (h : t.Shows s order) :
    s.upper.map Prod.fst = order.map (fun i => (t.l1Cache i).ip) := by
  rw [h.upper, List.map_map]
  rfl

/-- **Tables that show a store** whose upper level lists `recent` keep their slots by recency. -/
theorem Shows.keepsLru (h : t.Shows s order) {recent : List U32}
    (hkeys : s.upper.map Prod.fst = recent.take l1Size) : t.KeepsLru recent order.length where
  count := by
    have hlength := congrArg List.length hkeys
    rw [h.keys, List.length_map, List.length_take] at hlength
    exact hlength
  valid i hi := by
    constructor
    · intro hvalid
      by_contra hout
      rw [(h.free i (Nat.not_lt.mp hout) hi).1] at hvalid
      cases hvalid
    · intro hlt
      exact h.used i (h.mem_iff.mpr hlt)
  distinct i j hi hj hip := by
    have hdistinct := h.sized.distinct
    rw [h.keys] at hdistinct
    exact List.inj_on_of_nodup_map hdistinct (h.mem_iff.mpr hi) (h.mem_iff.mpr hj) hip
  ages := by
    have hall := h.slots.map t.ageOf
    rw [h.ages.map, ← List.range_eq_range'] at hall
    exact hall.symm
  ordered i hi := by
    obtain ⟨-, hget⟩ := h.ages.getElem? (h.mem_iff.mpr hi)
    rw [Nat.sub_zero] at hget
    have hplace : (s.upper.map Prod.fst)[t.ageOf i]? = some (t.l1Cache i).ip := by
      rw [h.keys, List.getElem?_map, hget]
      rfl
    rw [hkeys, List.getElem?_take] at hplace
    split at hplace
    · exact hplace
    · cases hplace
  free i hi hi8 := (h.free i hi hi8).2

/-! ## §3. No age wraps. -/

/-- The slot of an insertion is in use or the first free one. -/
theorem Shows.insertSlot (h : t.Shows s order) :
    l1InsertSlot t ≤ order.length ∧ l1InsertSlot t < l1Size := by
  rcases Nat.lt_or_eq_of_le h.order_le with hfree | hfull
  · have hslot : l1InsertSlot t = order.length := (h.victim_free hfree).1
    rw [hslot]
    exact ⟨le_rfl, hfree⟩
  · obtain ⟨pre, o, hsplit, hvictim, -, -⟩ := h.victim_full hfull
    have hslot : l1InsertSlot t = o := hvictim
    have ho : o < order.length := by
      rw [← h.mem_iff, hsplit]
      exact List.mem_append_right _ (List.mem_singleton.mpr rfl)
    rw [hslot]
    exact ⟨ho.le, by rw [← hfull]; exact ho⟩

/-- An insertion overwrites one slot, and touches it. -/
theorem l1Insert_slot (t : ArpTables) (ip : U32) (mac : U48) :
    (l1Insert t ip mac).l1Cache = t.l1Cache.set (l1InsertSlot t) { ip, mac, valid := true }
      ∧ (l1Insert t ip mac).l1Age = (l1LruTouch t (l1InsertSlot t)).l1Age := by
  have hback : ∀ e, (l2WriteBack t e).l1Cache = t.l1Cache ∧ (l2WriteBack t e).l1Age = t.l1Age := by
    intro e
    unfold l2WriteBack
    split <;> exact ⟨rfl, rfl⟩
  unfold l1Insert l1InsertSlot l1LruTouch
  dsimp only
  split
  · rw [(hback _).1, (hback _).2]
    exact ⟨rfl, rfl⟩
  · exact ⟨rfl, rfl⟩

/-- **One call** touches one slot at most, and the ages move on as that touch says. -/
theorem arpCache_ages (t : ArpTables) (op : StoreOp U32 U48) :
    (arpCache t op).1.l1Age
      = (arpTouched t op).elim t.l1Age (fun i => (l1LruTouch t i).l1Age) := by
  cases op with
  | update ip mac =>
      show (arpUpdate t ip mac).l1Age = _
      unfold arpUpdate arpTouched
      dsimp only
      cases findEntry t.l1Cache l1Size ip with
      | some i => rfl
      | none => exact (l1Insert_slot t ip mac).2
  | lookup ip =>
      show (arpLookup t ip).2.l1Age = _
      unfold arpLookup l1Lookup arpTouched
      dsimp only
      cases findEntry t.l1Cache l1Size ip with
      | some i => rfl
      | none =>
          rw [Option.map_none, Option.none_or]
          dsimp only
          cases findEntry t.l2Table l2Size ip with
          | some i => exact (l1Insert_slot t ip _).2
          | none => rfl

/-- What a call touches is in use or the first free slot. -/
theorem Shows.touched (h : t.Shows s order) {op : StoreOp U32 U48} {i : Nat}
    (hi : arpTouched t op = some i) : i ≤ order.length ∧ i < l1Size := by
  -- a hit is a slot in use
  have hhit : ∀ ip i, findEntry t.l1Cache l1Size ip = some i → i ≤ order.length ∧ i < l1Size := by
    intro ip i hfind
    rcases h.findEntry_l1 ip with ⟨j, hj, hfind', -⟩ | ⟨hnone, -⟩
    · obtain rfl : i = j := Option.some.inj (hfind.symm.trans hfind')
      have hlt := h.mem_iff.mp hj
      exact ⟨hlt.le, lt_of_lt_of_le hlt h.order_le⟩
    · rw [hfind] at hnone
      cases hnone
  cases op with
  | update ip mac =>
      unfold arpTouched at hi
      dsimp only at hi
      cases hfind : findEntry t.l1Cache l1Size ip with
      | some j =>
          rw [hfind] at hi
          obtain rfl : j = i := Option.some.inj hi
          exact hhit ip j hfind
      | none =>
          rw [hfind] at hi
          obtain rfl : l1InsertSlot t = i := Option.some.inj hi
          exact h.insertSlot
  | lookup ip =>
      unfold arpTouched at hi
      dsimp only at hi
      cases hfind : findEntry t.l1Cache l1Size ip with
      | some j =>
          rw [hfind] at hi
          obtain rfl : j = i := Option.some.inj hi
          exact hhit ip j hfind
      | none =>
          rw [hfind, Option.none_or] at hi
          obtain ⟨_, -, rfl⟩ := Option.map_eq_some_iff.mp hi
          exact h.insertSlot

theorem Shows.agesInRange (h : t.Shows s order) (op : StoreOp U32 U48) : t.AgesInRange op := by
  have hages := arpCache_ages t op
  constructor
  · intro i hi j hj
    obtain ⟨hle, hlt⟩ := h.touched hi
    rw [← h.touch_ageOf hle hlt hj]
    rw [hi] at hages
    exact congrArg (fun age => (age j).toNat) hages
  · intro hnone
    rw [hnone] at hages
    exact hages

/-! ## §4. Runs. -/

/-- The addresses a run of the tables uses are those the store uses. -/
theorem arpUses_record (ops : List (StoreOp U32 U48)) :
    arpCache.record arpUses {} ops = arpStore.record TwoLevel.uses {} ops := by
  have hsim := record_sim (M := arpCache) (N := arpStore) (R := fun t s => ∃ order, t.Shows s order)
    (f := arpUses) (g := TwoLevel.uses) ?_ ⟨[], shows_empty⟩ ops
  · exact hsim.2
  · rintro t s op ⟨order, h⟩
    obtain ⟨hnext, hfound⟩ := h.step op
    refine ⟨hnext, ?_⟩
    cases op with
    | update ip mac => rfl
    | lookup ip =>
        have hfind : (arpLookup t ip).1 = s.find ip := hfound
        unfold arpUses TwoLevel.uses
        dsimp only
        rw [hfind]

end ArpTables

/-- **L1 is a true LRU cache**: in every state that calls of `arp_update` and `arp_lookup` reach
from the empty cache, the slots are kept by recency; no call lets an age wrap; and when all
eight slots are in use, `l1_insert` overwrites the one whose address was used least recently. -/
theorem arp_true_lru (ops : List (StoreOp U32 U48)) :
    let t := arpCache.after {} ops
    let recent := Lru.recent (arpCache.record arpUses {} ops)
    ∃ k, t.KeepsLru recent k
      ∧ (∀ op, t.AgesInRange op)
      ∧ (k = l1Size → ∀ ip mac, l1InsertSlot t < l1Size
        ∧ (l1Insert t ip mac).l1Cache = t.l1Cache.set (l1InsertSlot t) { ip, mac, valid := true }
        ∧ t.ageOf (l1InsertSlot t) = 7
        ∧ recent[7]? = some (t.l1Cache (l1InsertSlot t)).ip) := by
  intro t recent
  obtain ⟨⟨order, h⟩, -⟩ := ArpTables.arpTables_shows ArpTables.shows_empty ops
  have hkeys := TwoLevel.upper_recent (c := l1Size) (d := l2Size) (by decide) ops
  rw [← ArpTables.arpUses_record] at hkeys
  have hlru : t.KeepsLru recent order.length := h.keepsLru hkeys
  refine ⟨order.length, hlru, fun op => h.agesInRange op, ?_⟩
  intro hfull ip mac
  obtain ⟨pre, o, hsplit, hvictim, -, -⟩ := h.victim_full hfull
  have hslot : l1InsertSlot t = o := hvictim
  have hage : t.ageOf o = 7 := by
    have hold := (hsplit ▸ h.ages : Lru.Ages t.ageOf (pre ++ [o]) 0).oldest.1
    rw [hsplit, List.length_append] at hfull
    rw [hold]
    exact Nat.succ.inj hfull
  have hin : o < order.length := by
    rw [← h.mem_iff, hsplit]
    exact List.mem_append_right _ (List.mem_singleton.mpr rfl)
  refine ⟨h.insertSlot.2, (ArpTables.l1Insert_slot t ip mac).1, ?_, ?_⟩
  · rw [hslot]
    exact hage
  · rw [hslot, ← hlru.ordered o hin, hage]

end GigabitTcp
