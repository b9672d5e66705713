/-
  GigabitTcp.Arp.Bindings — what the ARP cache remembers.

  `l1_insert` copies what it drives out of L1 into the first free slot of L2, where it stays
  for good.  Two things go wrong in the long run: an update of an address that has been driven
  out does not reach its copy in L2, and once L2 is full the address that is driven out next
  is gone.

  Main results:
    * `arp_lookup_latest`     — in a run in which no update contradicts a copy in L2, a lookup
      returns the MAC of the latest update,
    * `arp_lookup_stale`      — an update that does,
    * `arp_forgets_nothing`   — after every prefix of a run every updated address is found,
      exactly if no call drives an address out into a full L2,
    * `arp_forgets`           — 264 addresses, and one of them is lost.
-/
import GigabitTcp.Arp.Cache

namespace GigabitTcp

open Hw Machine ArpTables

/-! ## §1. The conditions on the tables. -/

/-- No slot of L2 has another MAC for an address that is updated. -/
def ArpUndisputed (t : ArpTables) : StoreOp U32 U48 → Prop
  | .lookup _ => True
  | .update ip mac =>
      ∀ i, i < l2Size → (t.l2Table i).valid = true → (t.l2Table i).ip = ip → (t.l2Table i).mac = mac

instance (t : ArpTables) (op : StoreOp U32 U48) : Decidable (ArpUndisputed t op) := by
  unfold ArpUndisputed
  cases op <;> infer_instance

/-- The entry that `l1_insert` drives out finds a free slot of L2, or its address there. -/
def ArpEvictsSafely (t : ArpTables) : Prop :=
  let victim := t.l1Cache (l1Victim t (List.range l1Size) 0 0)
  victim.valid = true → (∃ i, i < l2Size ∧ (t.l2Table i).valid = false)
    ∨ (findEntry t.l2Table l2Size victim.ip).isSome = true

/-- A call that inserts into L1 drives out nothing that is lost. -/
def ArpKeeps (t : ArpTables) : StoreOp U32 U48 → Prop
  | .lookup ip => findEntry t.l1Cache l1Size ip = none →
      (findEntry t.l2Table l2Size ip).isSome = true → ArpEvictsSafely t
  | .update ip _ => findEntry t.l1Cache l1Size ip = none → ArpEvictsSafely t

variable {t : ArpTables} {s : TwoLevel U32 U48} {order : List Nat}

/-- A copy in L2 is a binding of the lower level. -/
theorem ArpTables.Shows.undisputed (h : t.Shows s order) {op : StoreOp U32 U48} (hop : ArpUndisputed t op) :
    s.Undisputed op := by
  cases op with
  | lookup ip => trivial
  | update ip mac =>
      intro w hw
      obtain ⟨i, hlt, hget⟩ := List.getElem_of_mem hw
      have hi : i < l2Size := lt_of_lt_of_le hlt h.fits
      have hslot := (h.lower i hi).1 (ip, w) (by rw [List.getElem?_eq_getElem hlt, hget])
      have hmac := hop i hi
      rw [hslot] at hmac
      exact hmac rfl rfl

/-- The L1 search fails exactly if the upper level has no binding. -/
theorem ArpTables.Shows.findEntry_l1_none (h : t.Shows s order) (ip : U32) :
    findEntry t.l1Cache l1Size ip = none ↔ s.upper.lookup ip = none := by
  rcases h.findEntry_l1 ip with ⟨i, -, hfind, -, hupper⟩ | ⟨hfind, hupper⟩
  · rw [hfind, hupper]
    exact ⟨nofun, nofun⟩
  · rw [hfind, hupper]
    exact ⟨fun _ => rfl, fun _ => rfl⟩

theorem ArpTables.Shows.findEntry_l2_isSome (h : t.Shows s order) (ip : U32) :
    (findEntry t.l2Table l2Size ip).isSome = (s.lower.lookup ip).isSome := by
  rw [← h.lower.findEntry h.fits ip, Option.isSome_map]

/-- L2 has a free slot exactly if the lower level has a place. -/
theorem ArpTables.Shows.free_l2 (h : t.Shows s order) :
    (∃ i, i < l2Size ∧ (t.l2Table i).valid = false) ↔ s.lower.length < l2Size := by
  constructor
  · rintro ⟨i, hi, hfree⟩
    by_contra hfull
    have hget := List.getElem?_eq_getElem (show i < s.lower.length by omega)
    rw [(h.lower i hi).1 _ hget] at hfree
    cases hfree
  · intro hroom
    exact ⟨s.lower.length, hroom, (h.lower _ hroom).2 (List.getElem?_eq_none le_rfl)⟩

/-- What is driven out of L1 is what retires from the upper level. -/
theorem ArpTables.Shows.evictsSafely_iff (h : t.Shows s order) :
    ArpEvictsSafely t ↔ ∀ e, s.upper[l1Size - 1]? = some e →
      s.lower.length < l2Size ∨ (s.lower.lookup e.1).isSome = true := by
  unfold ArpEvictsSafely
  dsimp only
  rcases Nat.lt_or_eq_of_le h.order_le with hfree | hfull
  · obtain ⟨hvictim, hvalid, hnone⟩ := h.victim_free hfree
    rw [hvictim, hvalid, hnone]
    exact ⟨fun _ _ hno => (by cases hno), fun _ hno => absurd hno Bool.false_ne_true⟩
  · obtain ⟨pre, o, -, hvictim, hvalid, hlast⟩ := h.victim_full hfull
    rw [hvictim, hvalid, hlast, h.free_l2, h.findEntry_l2_isSome]
    constructor
    · rintro hsafe e he
      rw [← Option.some.inj he]
      exact hsafe rfl
    · intro hsafe _
      exact hsafe _ rfl

/-- **The condition on a call** is that of the store. -/
theorem ArpTables.Shows.keeps_iff (h : t.Shows s order) (op : StoreOp U32 U48) :
    ArpKeeps t op ↔ s.Keeps l1Size l2Size op := by
  cases op with
  | update ip mac =>
      show (_ → _) ↔ (_ → _)
      rw [h.findEntry_l1_none, h.evictsSafely_iff]
  | lookup ip =>
      show (_ → _ → _) ↔ (_ → _ → _)
      rw [h.findEntry_l1_none, h.findEntry_l2_isSome, h.evictsSafely_iff]
      -- an address that is not in L1 is found if it is in L2
      have hfind : s.upper.lookup ip = none → (s.find ip).isSome = (s.lower.lookup ip).isSome := by
        intro hmiss
        unfold TwoLevel.find
        rw [hmiss, Option.none_or]
      constructor
      · intro hkeeps hfound hmiss
        exact hkeeps hmiss (hfind hmiss ▸ hfound)
      · intro hkeeps hmiss hfound
        exact hkeeps (by rw [hfind hmiss]; exact hfound) hmiss

/-- A condition on the store along its run is one on the tables along theirs. -/
theorem ArpTables.Shows.along_iff (h : t.Shows s order) (ops : List (StoreOp U32 U48)) :
    Along arpCache ArpKeeps t ops ↔ Along arpStore (TwoLevel.Keeps l1Size l2Size) s ops := by
  induction ops generalizing t s order with
  | nil => exact Iff.rfl
  | cons op ops ih =>
      obtain ⟨⟨order', hnext⟩, -⟩ := h.step op
      show ArpKeeps t op ∧ _ ↔ s.Keeps l1Size l2Size op ∧ _
      rw [h.keeps_iff op]
      exact and_congr_right fun _ => ih hnext

/-- After any run, a lookup finds what the store finds. -/
theorem arpLookup_after (ops : List (StoreOp U32 U48)) (ip : U32) :
    (arpLookup (arpCache.after {} ops) ip).1 = (arpStore.after {} ops).find ip := by
  obtain ⟨⟨order, hshows⟩, -⟩ := arpTables_shows shows_empty ops
  exact (hshows.step (.lookup ip)).2

/-! ## §2. The MAC of the latest update. -/

/-- The tables and the store they show, which only has the latest bindings. -/
theorem arpCache_faithful (ops : List (StoreOp U32 U48)) (h : Along arpCache ArpUndisputed t ops)
    {m : U32 → Option U48} (hshows : t.Shows s order) (hm : s.Faithful m) :
    (arpStore.after s ops).Faithful (ops.foldl TwoLevel.learn m) := by
  induction ops generalizing t s order m with
  | nil => exact hm
  | cons op ops ih =>
      obtain ⟨hop, hrest⟩ := h
      obtain ⟨⟨order', hnext⟩, -⟩ := hshows.step op
      exact ih hrest hnext (hm.step hshows.sized (hshows.undisputed hop))

/-- **A lookup** returns the MAC of the latest update, in every run whose updates do not
contradict a copy in L2. -/
theorem arp_lookup_latest (ops : List (StoreOp U32 U48)) (h : Along arpCache ArpUndisputed {} ops)
    (ip : U32) (mac : U48) (hfound : (arpLookup (arpCache.after {} ops) ip).1 = some mac) :
    TwoLevel.latest ops ip = some mac := by
  have hfaithful := arpCache_faithful ops h shows_empty (m := fun _ => none)
    (by rintro k v (hno | hno) <;> cases hno)
  rw [arpLookup_after] at hfound
  exact hfaithful ip mac (TwoLevel.holds_of_find hfound)

/-- The addresses of host `n`. -/
def arpHost (n : Nat) : U32 := 0x0A000000 + BitVec.ofNat 32 n

def arpMac (n : Nat) : U48 := 0x020000000000 + BitVec.ofNat 48 n

/-- The eight hosts that are updated next drive host 0 out of L1. -/
def arpHosts : List (StoreOp U32 U48) :=
  (List.range 8).map (fun n => .update (arpHost (n + 1)) (arpMac (n + 1)))

/-- Host 0 comes back from L2. -/
theorem arp_lookup_latest_promoted :
    let ops := .update (arpHost 0) (arpMac 9) :: arpHosts
    (arpLookup (arpCache.after {} ops) (arpHost 0)).1 = some (arpMac 9)
      ∧ TwoLevel.latest ops (arpHost 0) = some (arpMac 9) := by
  intro ops
  have hfound : (arpLookup (arpCache.after {} ops) (arpHost 0)).1 = some (arpMac 9) := by
    rw [arpLookup_after]
    decide +kernel
  exact ⟨hfound, arp_lookup_latest ops (by decide +kernel) (arpHost 0) (arpMac 9) hfound⟩

/-- Host 0 is driven out of L1, gets a new MAC, and is driven out again. -/
theorem arp_lookup_stale :
    let ops := .update (arpHost 0) (arpMac 9) :: arpHosts
      ++ .update (arpHost 0) (arpMac 10) :: arpHosts
    TwoLevel.latest ops (arpHost 0) = some (arpMac 10)
      ∧ (arpLookup (arpCache.after {} ops) (arpHost 0)).1 = some (arpMac 9)
      ∧ arpMac 9 ≠ arpMac 10 := by
  intro ops
  refine ⟨by decide +kernel, ?_, by decide +kernel⟩
  rw [arpLookup_after]
  decide +kernel

/-! ## §3. Nothing is forgotten. -/

/-- **Every updated address is found**, after every prefix of a run, exactly if no call of the
run drives an address out of L1 that finds no place in L2. -/
theorem arp_forgets_nothing (ops : List (StoreOp U32 U48)) :
    (∀ js ks, ops = js ++ ks → ∀ ip, (TwoLevel.latest js ip).isSome = true →
        (arpLookup (arpCache.after {} js) ip).1.isSome = true)
      ↔ Along arpCache ArpKeeps {} ops := by
  rw [shows_empty.along_iff ops]
  have hstore := TwoLevel.complete_iff_along (c := l1Size) (d := l2Size)
    (t := ({} : TwoLevel U32 U48)) (m := fun _ => none) (by decide) shows_empty.sized
    (by rintro k v (hno | hno) <;> cases hno) (fun _ hno => by cases hno) ops
  rw [← hstore]
  simp only [arpLookup_after]
  exact Iff.rfl

/-- The bindings of 264 hosts. -/
def arpBindings : List (U32 × U48) := (List.range 264).map (fun n => (arpHost n, arpMac n))

/-- The addresses of the 264 hosts are distinct. -/
theorem nodup_arpBindings : (arpBindings.map Prod.fst).Nodup := by
  have hkeys : arpBindings.map Prod.fst = (List.range 264).map arpHost := by
    unfold arpBindings
    rw [List.map_map]
    rfl
  rw [hkeys]
  refine List.Nodup.map_on ?_ List.nodup_range
  intro i hi j hj heq
  rw [List.mem_range] at hi hj
  have hnat := congrArg BitVec.toNat heq
  unfold arpHost at hnat
  rw [BitVec.toNat_add, BitVec.toNat_add, BitVec.toNat_ofNat, BitVec.toNat_ofNat,
    show (0x0A000000 : U32).toNat = 0x0A000000 from rfl] at hnat
  omega

/-- 264 hosts are updated, and host 0 is looked up: host 256 is lost. -/
theorem arp_forgets :
    let ops := arpBindings.map (fun e => StoreOp.update e.1 e.2) ++ [.lookup (arpHost 0)]
    arpBindings.length = l1Size + l2Size
      ∧ (TwoLevel.latest ops (arpHost 256)).isSome = true
      ∧ (arpLookup (arpCache.after {} ops) (arpHost 256)).1 = none := by
  intro ops
  refine ⟨by decide +kernel, by decide +kernel, ?_⟩
  have hfilled : TwoLevel.Filled l1Size
      (arpStore.after {} (arpBindings.map (fun e => .update e.1 e.2))) (arpBindings.reverse ++ []) :=
    TwoLevel.Filled.updates (t := {}) (l := []) (by decide) arpBindings
      ⟨shows_empty.sized, rfl, .inl rfl⟩ (by decide +kernel)
      (by rw [List.append_nil, List.map_reverse, List.nodup_reverse]; exact nodup_arpBindings)
  obtain ⟨hupper, hlower⟩ := hfilled.full (by decide +kernel)
  have hsized := hfilled.toSized
  rw [arpLookup_after]
  have hlast : arpStore.after {} ops
      = (arpStore (arpStore.after {} (arpBindings.map (fun e => .update e.1 e.2))) (.lookup (arpHost 0))).1 :=
    after_append _ _ _ _
  rw [hlast]
  generalize arpStore.after {} (arpBindings.map (fun e => .update e.1 e.2)) = s at *
  -- host 0 is found in L2, and drives out host 256
  have hzero : s.upper.lookup (arpHost 0) = none ∧ s.find (arpHost 0) = some (arpMac 0) := by
    unfold TwoLevel.find
    rw [hupper, hlower]
    decide +kernel
  show ((s.find (arpHost 0)).elim s (fun mac => s.put l1Size l2Size (arpHost 0) mac)).find _ = none
  rw [hzero.2]
  refine hsized.find_dropped (e := (arpHost 256, arpMac 256)) (by decide) hzero.1 ?_ ?_ ?_
  · rw [hupper]
    decide +kernel
  · rw [hlower]
    decide +kernel
  · rw [hlower]
    decide +kernel

end GigabitTcp
