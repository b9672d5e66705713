/-
  GigabitTcp.Hw.TwoLevel — a store of bindings on two levels.

  The upper level is small and lists its bindings from the most to the least recently used
  one.  What it has no place for retires to the lower level, which lists bindings in the order
  of their arrival.  A binding that is found below is entered above, and its copy below stays.

  A store that is used like that stands for the map of the latest updates as long as no stale
  copy is left below (`Faithful.step`), and it forgets no key as long as every binding that
  retires finds a place below, or its key is there already (`complete_iff_along`).

  Main results:
    * `Sized.holds_put`      — what the store holds after a binding was put in front,
    * `Sized.find_kept`      — what is found there as long as nothing is dropped,
    * `Faithful.step`        — every binding is the latest of its key,
    * `complete_iff_along`   — nothing is forgotten exactly if no binding is dropped,
    * `Filled.updates`       — fresh keys fill the upper level, then the lower,
    * `upper_recent`         — the upper level lists the keys used most recently.
-/
import GigabitTcp.Hw.Machine
import GigabitTcp.Hw.Lru

namespace Hw

/-- What may be asked of a store of bindings. -/
inductive StoreOp (κ ν : Type) where
  | lookup (k : κ)
  | update (k : κ) (v : ν)
  deriving Repr

/-- The bindings on the two levels. -/
structure TwoLevel (κ ν : Type) where
  /-- The most recently used binding is first. -/
  upper : List (κ × ν) := []
  /-- The first that retired is first. -/
  lower : List (κ × ν) := []
  deriving Repr, DecidableEq

namespace TwoLevel

variable {κ ν : Type} [DecidableEq κ]

/-! ## §1. The operations. -/

/-- What a lookup finds: the upper level is asked first. -/
def find (t : TwoLevel κ ν) (k : κ) : Option ν := (t.upper.lookup k).or (t.lower.lookup k)

/-- Rebind a key of the upper level, and make it the most recent one. -/
def refresh (t : TwoLevel κ ν) (k : κ) (v : ν) : TwoLevel κ ν :=
  { t with upper := (k, v) :: t.upper.eraseP (fun e => e.1 == k) }

/-- Enter a binding on the upper level, which has `c` places; the one in the last place
retires, and is dropped if all `d` places of the lower level are taken. -/
def enter (c d : Nat) (t : TwoLevel κ ν) (k : κ) (v : ν) : TwoLevel κ ν :=
  { upper := (k, v) :: t.upper.take (c - 1)
    lower := if t.lower.length < d then t.lower ++ t.upper[c - 1]?.toList else t.lower }

/-- Put a binding in front of the upper level. -/
def put (c d : Nat) (t : TwoLevel κ ν) (k : κ) (v : ν) : TwoLevel κ ν :=
  if t.upper.lookup k = none then t.enter c d k v else t.refresh k v

/-- A lookup puts what it finds in front; an update puts its binding there. -/
def step (c d : Nat) : Machine (TwoLevel κ ν) (StoreOp κ ν) (Option ν)
  | t, .lookup k => ((t.find k).elim t (fun v => t.put c d k v), t.find k)
  | t, .update k v => (t.put c d k v, none)

/-- The plain map that a store should stand for. -/
def learn (m : κ → Option ν) : StoreOp κ ν → κ → Option ν
  | .lookup _ => m
  | .update k v => Function.update m k (some v)

/-- What the operations of a run bind each key to. -/
def latest (ops : List (StoreOp κ ν)) : κ → Option ν := ops.foldl learn (fun _ => none)

/-! ## §2. Well-formed stores. -/

/-- The upper level keeps within its places and binds each key once. -/
structure Sized (c : Nat) (t : TwoLevel κ ν) : Prop where
  fits : t.upper.length ≤ c
  distinct : (t.upper.map Prod.fst).Nodup

variable {c d : Nat} {t : TwoLevel κ ν} {m : κ → Option ν}

theorem lookup_none_iff {l : List (κ × ν)} {k : κ} :
    l.lookup k = none ↔ k ∉ l.map Prod.fst := by
  rw [List.lookup_eq_none_iff]
  simp only [bne_iff_ne, List.mem_map, not_exists, not_and]
  constructor
  · intro h e he hk
    exact h e he hk.symm
  · intro h e he hk
    exact h e he hk.symm

theorem mem_of_lookup {l : List (κ × ν)} {k : κ} {v : ν} (h : l.lookup k = some v) : (k, v) ∈ l := by
  obtain ⟨l₁, l₂, hl, -⟩ := List.lookup_eq_some_iff.mp h
  rw [hl]
  simp

theorem lookup_isSome_of_mem {l : List (κ × ν)} {k : κ} {v : ν} (h : (k, v) ∈ l) :
    (l.lookup k).isSome = true := by
  rw [Option.isSome_iff_ne_none]
  intro hnone
  exact lookup_none_iff.mp hnone (List.mem_map_of_mem h)

theorem lookup_of_mem {l : List (κ × ν)} (hdistinct : (l.map Prod.fst).Nodup) {k : κ} {v : ν}
    (h : (k, v) ∈ l) : l.lookup k = some v := by
  obtain ⟨pre, post, rfl⟩ := List.append_of_mem h
  refine List.lookup_eq_some_iff.mpr ⟨pre, post, rfl, ?_⟩
  intro e he
  rw [List.map_append, List.map_cons] at hdistinct
  exact bne_iff_ne.mpr
    ((List.nodup_append.mp hdistinct).2.2 e.1 (List.mem_map_of_mem he) k List.mem_cons_self).symm

/-- Where the binding of a key stands. -/
theorem split_of_lookup {l : List (κ × ν)} {k : κ} (h : l.lookup k ≠ none) :
    ∃ pre w post, l = pre ++ (k, w) :: post ∧ k ∉ pre.map Prod.fst
      ∧ l.eraseP (fun e => e.1 == k) = pre ++ post := by
  obtain ⟨w, hw⟩ := Option.ne_none_iff_exists'.mp h
  obtain ⟨pre, post, hl, hpre⟩ := List.lookup_eq_some_iff.mp hw
  have hout : ∀ e ∈ pre, ¬ (e.1 == k) = true := by
    intro e he hk
    exact bne_iff_ne.mp (hpre e he) (beq_iff_eq.mp hk).symm
  refine ⟨pre, w, post, hl, ?_, ?_⟩
  · intro hk
    obtain ⟨e, he, hke⟩ := List.mem_map.mp hk
    exact hout e he (beq_iff_eq.mpr hke)
  · rw [hl, List.eraseP_append_right _ hout, List.eraseP_cons_of_pos (by simp)]

omit [DecidableEq κ] in
/-- The upper level is what stays in its places and what retires. -/
theorem Sized.retires (h : t.Sized c) (hc : 0 < c) :
    t.upper = t.upper.take (c - 1) ++ t.upper[c - 1]?.toList := by
  rw [← List.take_add_one, Nat.sub_add_cancel hc, List.take_of_length_le h.fits]

theorem Sized.put (h : t.Sized c) (hc : 0 < c) (k : κ) (v : ν) : (t.put c d k v).Sized c := by
  unfold TwoLevel.put
  split
  · rename_i hmiss
    have hnew := lookup_none_iff.mp hmiss
    constructor
    · show (t.upper.take (c - 1)).length + 1 ≤ c
      rw [List.length_take]
      omega
    · show ((k, v) :: t.upper.take (c - 1)).map Prod.fst |>.Nodup
      rw [List.map_cons, List.map_take]
      refine List.nodup_cons.mpr ⟨fun hk => hnew (List.mem_of_mem_take hk), ?_⟩
      exact h.distinct.sublist (List.take_sublist _ _)
  · rename_i hhit
    obtain ⟨pre, w, post, hl, -, herase⟩ := split_of_lookup hhit
    have hlen := h.fits
    have hdistinct := h.distinct
    rw [hl] at hlen hdistinct
    rw [List.map_append, List.map_cons] at hdistinct
    rw [List.length_append, List.length_cons] at hlen
    constructor
    · show (t.upper.eraseP _).length + 1 ≤ c
      rw [herase, List.length_append]
      omega
    · show ((k, v) :: t.upper.eraseP (fun e => e.1 == k)).map Prod.fst |>.Nodup
      rw [herase, List.map_cons, List.map_append]
      exact List.perm_middle.nodup_iff.mp hdistinct

theorem Sized.step (h : t.Sized c) (hc : 0 < c) (op : StoreOp κ ν) : (TwoLevel.step c d t op).1.Sized c := by
  cases op with
  | update k v => exact h.put hc k v
  | lookup k =>
      show ((t.find k).elim t (fun v => t.put c d k v)).Sized c
      cases t.find k with
      | none => exact h
      | some v => exact h.put hc k v

/-- What is found after a binding was put in front: the binding itself. -/
@[simp] theorem find_put_self (t : TwoLevel κ ν) (k : κ) (v : ν) : (t.put c d k v).find k = some v := by
  unfold TwoLevel.put find
  split
  · show (((k, v) :: t.upper.take (c - 1)).lookup k).or _ = _
    rw [List.lookup_cons_self]
    rfl
  · show (((k, v) :: t.upper.eraseP _).lookup k).or _ = _
    rw [List.lookup_cons_self]
    rfl

/-- The bindings of a store. -/
def Holds (t : TwoLevel κ ν) (k : κ) (v : ν) : Prop := (k, v) ∈ t.upper ∨ (k, v) ∈ t.lower

theorem holds_of_find {k : κ} {v : ν} (h : t.find k = some v) : t.Holds k v := by
  unfold find at h
  cases hupper : t.upper.lookup k with
  | some w =>
      rw [hupper] at h
      exact .inl (mem_of_lookup (hupper.trans h))
  | none =>
      rw [hupper, Option.none_or] at h
      exact .inr (mem_of_lookup h)

theorem find_isSome_of_holds {k : κ} {v : ν} (h : t.Holds k v) : (t.find k).isSome = true := by
  unfold find
  rw [Option.isSome_or, Bool.or_eq_true]
  exact h.imp lookup_isSome_of_mem lookup_isSome_of_mem

/-- What a store holds after a binding was put in front: that binding, those of other keys, and
the old copies of the lower level. -/
theorem Sized.holds_put (h : t.Sized c) {k j : κ} {v w : ν} (hold : (t.put c d k v).Holds j w) :
    (j = k ∧ w = v) ∨ (j ≠ k ∧ t.Holds j w) ∨ (j, w) ∈ t.lower := by
  unfold TwoLevel.put at hold
  split at hold
  · rename_i hmiss
    -- the new key is not on the upper level
    have hother : (j, w) ∈ t.upper → j ≠ k ∧ t.Holds j w := by
      intro hmem
      refine ⟨?_, .inl hmem⟩
      rintro rfl
      exact lookup_none_iff.mp hmiss (List.mem_map_of_mem hmem)
    rcases hold with hupper | hlower
    · rcases List.mem_cons.mp hupper with heq | hmem
      · exact .inl (Prod.mk.inj heq)
      · exact .inr (.inl (hother (List.mem_of_mem_take hmem)))
    · change (j, w) ∈ (if t.lower.length < d then t.lower ++ t.upper[c - 1]?.toList else t.lower)
        at hlower
      split at hlower
      · rcases List.mem_append.mp hlower with hmem | hmem
        · exact .inr (.inr hmem)
        · exact .inr (.inl (hother (List.mem_of_getElem? (Option.mem_toList.mp hmem))))
      · exact .inr (.inr hlower)
  · rename_i hhit
    obtain ⟨pre, u, post, hl, -, herase⟩ := split_of_lookup hhit
    have hdistinct := h.distinct
    rw [hl, List.map_append, List.map_cons] at hdistinct
    rcases hold with hupper | hlower
    · change (j, w) ∈ (k, v) :: t.upper.eraseP (fun e => e.1 == k) at hupper
      rw [herase] at hupper
      rcases List.mem_cons.mp hupper with heq | hmem
      · exact .inl (Prod.mk.inj heq)
      · refine .inr (.inl ⟨?_, .inl ?_⟩)
        · rintro rfl
          have hmid := (List.perm_middle.nodup_iff.mp hdistinct)
          rw [← List.map_append] at hmid
          exact (List.nodup_cons.mp hmid).1 (List.mem_map.mpr ⟨_, hmem, rfl⟩)
        · rw [hl]
          rcases List.mem_append.mp hmem with hmem | hmem
          · exact List.mem_append_left _ hmem
          · exact List.mem_append_right _ (List.mem_cons_of_mem _ hmem)
    · exact .inr (.inr hlower)

/-! ## §3. The latest bindings. -/

/-- Every binding is the latest of its key. -/
def Faithful (m : κ → Option ν) (t : TwoLevel κ ν) : Prop := ∀ k v, t.Holds k v → m k = some v

/-- No other binding of an updated key lies on the lower level. -/
def Undisputed (t : TwoLevel κ ν) : StoreOp κ ν → Prop
  | .lookup _ => True
  | .update k v => ∀ w, (k, w) ∈ t.lower → w = v

/-- **One operation** leaves no stale binding, unless an update overtakes a copy below. -/
theorem Faithful.step (h : Faithful m t) (hsized : t.Sized c) {op : StoreOp κ ν}
    (hop : t.Undisputed op) : Faithful (learn m op) (TwoLevel.step c d t op).1 := by
  cases op with
  | lookup k =>
      show Faithful m ((t.find k).elim t (fun v => t.put c d k v))
      cases hfind : t.find k with
      | none => exact h
      | some v =>
          intro j w hold
          rcases hsized.holds_put hold with ⟨rfl, rfl⟩ | ⟨-, hold⟩ | hold
          · exact h _ _ (holds_of_find hfind)
          · exact h j w hold
          · exact h j w (.inr hold)
  | update k v =>
      intro j w hold
      show Function.update m k (some v) j = some w
      rcases hsized.holds_put hold with ⟨rfl, rfl⟩ | ⟨hne, hkept⟩ | hcopy
      · rw [Function.update_self]
      · rw [Function.update_of_ne hne]
        exact h j w hkept
      · by_cases hj : j = k
        · subst hj
          rw [Function.update_self, hop w hcopy]
        · rw [Function.update_of_ne hj]
          exact h j w (.inr hcopy)

/-! ## §4. Nothing is forgotten. -/

/-- Every key that was learned is found. -/
def Complete (m : κ → Option ν) (t : TwoLevel κ ν) : Prop :=
  ∀ k, (m k).isSome = true → (t.find k).isSome = true

/-- Every key that is held was learned. -/
def Learned (m : κ → Option ν) (t : TwoLevel κ ν) : Prop := ∀ k v, t.Holds k v → (m k).isSome = true

/-- The binding that retires when `k` is put in front finds a place, or its key is there. -/
def RetiresSafely (c d : Nat) (t : TwoLevel κ ν) (k : κ) : Prop :=
  t.upper.lookup k = none →
    ∀ e, t.upper[c - 1]? = some e → t.lower.length < d ∨ (t.lower.lookup e.1).isSome = true

/-- The operation drops no binding. -/
def Keeps (c d : Nat) (t : TwoLevel κ ν) : StoreOp κ ν → Prop
  | .lookup k => (t.find k).isSome = true → t.RetiresSafely c d k
  | .update k _ => t.RetiresSafely c d k

/-- If a binding is dropped, its key is not found any more. -/
theorem Sized.find_dropped (h : t.Sized c) (hc : 0 < c) {k : κ} {v : ν} (hmiss : t.upper.lookup k = none)
    {e : κ × ν} (he : t.upper[c - 1]? = some e) (hfull : ¬ t.lower.length < d)
    (hgone : t.lower.lookup e.1 = none) : (t.put c d k v).find e.1 = none := by
  have hmem : e ∈ t.upper := List.mem_of_getElem? he
  have hne : e.1 ≠ k := by
    rintro rfl
    exact lookup_none_iff.mp hmiss (List.mem_map_of_mem hmem)
  -- it was bound in the last place only
  have hsplit := h.retires hc
  rw [he] at hsplit
  have hdistinct := h.distinct
  rw [hsplit, List.map_append] at hdistinct
  have hfront : (t.upper.take (c - 1)).lookup e.1 = none := by
    rw [lookup_none_iff]
    intro hin
    exact (List.nodup_append.mp hdistinct).2.2 _ hin e.1 (by simp) rfl
  unfold TwoLevel.put
  rw [if_pos hmiss]
  unfold find enter
  rw [if_neg hfull, List.lookup_cons, beq_eq_false_iff_ne.mpr hne, hfront, hgone]
  rfl

/-- If no binding is dropped, what was found is still found. -/
theorem Sized.find_kept (h : t.Sized c) (hc : 0 < c) {k : κ} {v : ν} (hsafe : t.RetiresSafely c d k)
    {j : κ} (hj : (t.find j).isSome = true) : ((t.put c d k v).find j).isSome = true := by
  by_cases hjk : j = k
  · rw [hjk, find_put_self]
    rfl
  obtain ⟨w, hw⟩ := Option.isSome_iff_exists.mp hj
  unfold TwoLevel.put
  split
  · rename_i hmiss
    have hlow : ∀ u, (j, u) ∈ t.lower → ((t.enter c d k v).find j).isSome = true := by
      intro u hu
      refine find_isSome_of_holds (.inr (?_ : (j, u) ∈ (t.enter c d k v).lower))
      unfold enter
      dsimp only
      split
      · exact List.mem_append_left _ hu
      · exact hu
    rcases holds_of_find hw with hupper | hlower
    · rw [h.retires hc] at hupper
      rcases List.mem_append.mp hupper with hfront | hlast
      · exact find_isSome_of_holds (.inl (List.mem_cons_of_mem _ hfront))
      · -- the key of the last place
        have he : t.upper[c - 1]? = some (j, w) := Option.mem_toList.mp hlast
        by_cases hroom : t.lower.length < d
        · refine find_isSome_of_holds (.inr (?_ : (j, w) ∈ (t.enter c d k v).lower))
          unfold enter
          rw [if_pos hroom]
          exact List.mem_append_right _ hlast
        · obtain ⟨u, hu⟩ := Option.isSome_iff_exists.mp ((hsafe hmiss _ he).resolve_left hroom)
          exact hlow u (mem_of_lookup hu)
    · exact hlow w hlower
  · rename_i hhit
    obtain ⟨pre, u, post, hl, -, herase⟩ := split_of_lookup hhit
    rcases holds_of_find hw with hupper | hlower
    · refine find_isSome_of_holds (.inl (?_ : (j, w) ∈ (k, v) :: t.upper.eraseP (fun e => e.1 == k)))
      rw [herase]
      rw [hl] at hupper
      rcases List.mem_append.mp hupper with hmem | hmem
      · exact List.mem_cons_of_mem _ (List.mem_append_left _ hmem)
      · rcases List.mem_cons.mp hmem with heq | hmem
        · exact absurd (Prod.mk.inj heq).1 hjk
        · exact List.mem_cons_of_mem _ (List.mem_append_right _ hmem)
    · exact find_isSome_of_holds (.inr hlower)

/-- A put drops no binding exactly if everything that was found is still found. -/
theorem Sized.retiresSafely_iff (h : t.Sized c) (hc : 0 < c) (k : κ) (v : ν) :
    t.RetiresSafely c d k
      ↔ ∀ j, (t.find j).isSome = true → ((t.put c d k v).find j).isSome = true := by
  constructor
  · intro hsafe j hj
    exact h.find_kept hc hsafe hj
  · intro hkept hmiss e he
    by_contra hlost
    obtain ⟨hfull, hgone⟩ := not_or.mp hlost
    rw [Bool.not_eq_true, Option.isSome_eq_false_iff, Option.isNone_iff_eq_none] at hgone
    have hfound := hkept e.1 (find_isSome_of_holds (.inl (List.mem_of_getElem? he)))
    rw [h.find_dropped hc hmiss he hfull hgone] at hfound
    cases hfound

theorem Learned.step (h : Learned m t) (hsized : t.Sized c) (op : StoreOp κ ν) :
    Learned (learn m op) (TwoLevel.step c d t op).1 := by
  cases op with
  | lookup k =>
      show Learned m ((t.find k).elim t (fun v => t.put c d k v))
      cases hfind : t.find k with
      | none => exact h
      | some v =>
          intro j w hold
          rcases hsized.holds_put hold with ⟨rfl, rfl⟩ | ⟨-, hkept⟩ | hcopy
          · exact h _ _ (holds_of_find hfind)
          · exact h j w hkept
          · exact h j w (.inr hcopy)
  | update k v =>
      intro j w hold
      show (Function.update m k (some v) j).isSome = true
      by_cases hj : j = k
      · rw [hj, Function.update_self]
        rfl
      · rw [Function.update_of_ne hj]
        rcases hsized.holds_put hold with ⟨heq, -⟩ | ⟨-, hkept⟩ | hcopy
        · exact absurd heq hj
        · exact h j w hkept
        · exact h j w (.inr hcopy)

/-- **One operation** forgets nothing exactly if it drops no binding. -/
theorem Complete.step_iff (h : Complete m t) (hlearned : Learned m t) (hsized : t.Sized c) (hc : 0 < c)
    (op : StoreOp κ ν) : Complete (learn m op) (TwoLevel.step c d t op).1 ↔ t.Keeps c d op := by
  have hfound : ∀ j, (t.find j).isSome = true → (m j).isSome = true := by
    intro j hj
    obtain ⟨w, hw⟩ := Option.isSome_iff_exists.mp hj
    exact hlearned j w (holds_of_find hw)
  cases op with
  | lookup k =>
      show Complete m ((t.find k).elim t (fun v => t.put c d k v))
        ↔ ((t.find k).isSome = true → t.RetiresSafely c d k)
      cases hfind : t.find k with
      | none => exact ⟨fun _ hno => absurd hno Bool.false_ne_true, fun _ => h⟩
      | some v =>
          rw [hsized.retiresSafely_iff hc k v]
          constructor
          · intro hall _ j hj
            exact hall j (hfound j hj)
          · intro hkept j hj
            exact hkept rfl j (h j hj)
  | update k v =>
      show Complete (Function.update m k (some v)) (t.put c d k v) ↔ t.RetiresSafely c d k
      rw [hsized.retiresSafely_iff hc k v]
      constructor
      · intro hall j hj
        apply hall j
        by_cases hjk : j = k
        · rw [hjk, Function.update_self]
          rfl
        · rw [Function.update_of_ne hjk]
          exact hfound j hj
      · intro hkept j hj
        by_cases hjk : j = k
        · rw [hjk, find_put_self]
          rfl
        · rw [Function.update_of_ne hjk] at hj
          exact hkept j (h j hj)

/-- **A run** forgets nothing, after any of its operations, exactly if none of them drops a
binding. -/
theorem complete_iff_along (hc : 0 < c) (hsized : t.Sized c) (hlearned : Learned m t)
    (h : Complete m t) (ops : List (StoreOp κ ν)) :
    (∀ js ks, ops = js ++ ks → Complete (js.foldl learn m) ((step c d).after t js))
      ↔ Machine.Along (step c d) (Keeps c d) t ops := by
  induction ops generalizing t m with
  | nil =>
      refine ⟨fun _ => trivial, fun _ js ks hsplit => ?_⟩
      rw [(List.append_eq_nil_iff.mp hsplit.symm).1]
      exact h
  | cons op ops ih =>
      have hone := h.step_iff (d := d) hlearned hsized hc op
      show _ ↔ t.Keeps c d op ∧ Machine.Along (step c d) (Keeps c d) (step c d t op).1 ops
      constructor
      · intro hall
        have hnext := hall [op] ops rfl
        refine ⟨hone.mp hnext, (ih (hsized.step hc op) (hlearned.step hsized op) hnext).mp ?_⟩
        intro js ks hsplit
        exact hall (op :: js) ks (by rw [hsplit]; rfl)
      · rintro ⟨hkeeps, hrest⟩ js ks hsplit
        have hnext := hone.mpr hkeeps
        cases js with
        | nil => exact h
        | cons j js =>
            obtain ⟨rfl, htail⟩ := List.cons.inj hsplit
            exact (ih (hsized.step hc _) (hlearned.step hsized _) hnext).mpr hrest js ks htail

/-! ## §5. Fresh keys. -/

/-- The bindings `l`, the latest first, fill the upper level and then the lower one. -/
structure Filled (c : Nat) (t : TwoLevel κ ν) (l : List (κ × ν)) : Prop extends t.Sized c where
  listed : t.upper ++ t.lower.reverse = l
  inOrder : t.lower = [] ∨ t.upper.length = c

omit [DecidableEq κ] in
/-- More bindings than places: the latest are on the upper level. -/
theorem Filled.full {l : List (κ × ν)} (h : Filled c t l) (hmore : c < l.length) :
    t.upper = l.take c ∧ t.lower = (l.drop c).reverse := by
  have hlength : t.upper.length = c := by
    rcases h.inOrder with hempty | hfull
    · have hfits := h.fits
      rw [← h.listed, hempty, List.reverse_nil, List.append_nil] at hmore
      omega
    · exact hfull
  rw [← h.listed, List.take_left' hlength, List.drop_left' hlength, List.reverse_reverse]
  exact ⟨rfl, rfl⟩

/-- A binding of a fresh key comes in front. -/
theorem Filled.put {l : List (κ × ν)} {k : κ} {v : ν} (h : Filled c t l) (hc : 0 < c)
    (hroom : l.length < c + d) (hnew : k ∉ l.map Prod.fst) : Filled c (t.put c d k v) ((k, v) :: l) := by
  have hsized := h.toSized.put (d := d) hc k v
  have hmiss : t.upper.lookup k = none := by
    rw [lookup_none_iff]
    intro hk
    apply hnew
    rw [← h.listed, List.map_append]
    exact List.mem_append_left _ hk
  have hlen : t.upper.length + t.lower.length < c + d := by
    rw [← h.listed, List.length_append, List.length_reverse] at hroom
    exact hroom
  unfold TwoLevel.put at hsized ⊢
  rw [if_pos hmiss] at hsized ⊢
  refine ⟨hsized, ?_, ?_⟩
  · unfold enter
    dsimp only
    rw [← h.listed, List.cons_append]
    by_cases hfull : t.upper.length = c
    · rw [if_pos (by omega), List.reverse_append]
      conv_rhs => rw [h.retires hc]
      rw [List.append_assoc]
      cases t.upper[c - 1]? <;> rfl
    · -- nothing retires yet
      have hshort := h.fits
      have hnone : t.upper[c - 1]? = none := List.getElem?_eq_none (by omega)
      rw [hnone, h.inOrder.resolve_right hfull, List.take_of_length_le (by omega)]
      simp
  · unfold enter
    dsimp only
    by_cases hfull : t.upper.length = c
    · right
      rw [List.length_cons, List.length_take]
      omega
    · left
      have hshort := h.fits
      have hnone : t.upper[c - 1]? = none := List.getElem?_eq_none (by omega)
      rw [hnone, h.inOrder.resolve_right hfull]
      simp

/-- **Fresh keys**, one update each, as long as there are places. -/
theorem Filled.updates (hc : 0 < c) (es : List (κ × ν)) {l : List (κ × ν)} (h : Filled c t l)
    (hroom : es.length + l.length ≤ c + d) (hnew : ((es.reverse ++ l).map Prod.fst).Nodup) :
    Filled c ((step c d).after t (es.map (fun e => .update e.1 e.2))) (es.reverse ++ l) := by
  induction es generalizing t l with
  | nil => exact h
  | cons e es ih =>
      rw [List.length_cons] at hroom
      rw [List.reverse_cons, List.append_assoc, List.singleton_append] at hnew ⊢
      have hfresh : e.1 ∉ l.map Prod.fst := by
        rw [List.map_append, List.map_cons] at hnew
        exact (List.nodup_cons.mp (List.nodup_append.mp hnew).2.1).1
      exact ih (h.put hc (by omega) hfresh) (by rw [List.length_cons]; omega) hnew

/-! ## §6. The keys used most recently. -/

/-- The key that an operation uses: one that is found, or updated. -/
def uses (t : TwoLevel κ ν) : StoreOp κ ν → List κ
  | .lookup k => if (t.find k).isSome then [k] else []
  | .update k _ => [k]

/-- A binding that is put in front brings its key to the front, in the places there are. -/
theorem Sized.put_keys (h : t.Sized c) (hc : 0 < c) (k : κ) (v : ν) :
    (t.put c d k v).upper.map Prod.fst = (k :: (t.upper.map Prod.fst).erase k).take c := by
  unfold TwoLevel.put
  split
  · rename_i hmiss
    have hnew : k ∉ t.upper.map Prod.fst := lookup_none_iff.mp hmiss
    obtain ⟨n, rfl⟩ : ∃ n, c = n + 1 := ⟨c - 1, by omega⟩
    show ((k, v) :: t.upper.take n).map Prod.fst = _
    rw [List.erase_of_not_mem hnew, List.take_succ_cons, List.map_cons, List.map_take]
  · rename_i hhit
    obtain ⟨pre, w, post, hl, hout, herase⟩ := split_of_lookup hhit
    have hfits := h.fits
    rw [hl, List.length_append, List.length_cons] at hfits
    show ((k, v) :: t.upper.eraseP (fun e => e.1 == k)).map Prod.fst = _
    rw [herase, hl, List.map_append, List.erase_append_right _ hout, List.map_cons, List.map_cons,
      List.erase_cons_head, List.map_append, List.take_of_length_le]
    rw [List.length_cons, List.length_append, List.length_map, List.length_map]
    omega

/-- **The upper level is true LRU**: after every run from the empty store it lists, in the order
of their last use, the keys used most recently, as many as it has places. -/
theorem upper_recent (hc : 0 < c) (ops : List (StoreOp κ ν)) :
    ((step c d).after {} ops).upper.map Prod.fst
      = (Lru.recent (Machine.record (step c d) uses {} ops)).take c := by
  have hrule := Machine.Along.invariant_record (M := step c d) (f := uses (κ := κ) (ν := ν))
    (C := fun _ _ => True)
    (P := fun t l => t.Sized c ∧ t.upper.map Prod.fst = (Lru.recent l).take c) ?_ (s := {}) (l := [])
    ops ?_ (Machine.Along.of_all (fun _ _ => trivial) _ _)
  · exact hrule.2
  · rintro t l op ⟨hsized, hkeys⟩ -
    refine ⟨hsized.step hc op, ?_⟩
    have hput : ∀ k v, (t.put c d k v).upper.map Prod.fst = (Lru.recent (l ++ [k])).take c := by
      intro k v
      obtain ⟨n, rfl⟩ : ∃ n, c = n + 1 := ⟨c - 1, by omega⟩
      rw [hsized.put_keys hc, hkeys, Lru.recent_concat]
      exact (Lru.recent_take k n).symm
    cases op with
    | update k v => exact hput k v
    | lookup k =>
        show ((t.find k).elim t (fun v => t.put c d k v)).upper.map Prod.fst = _
        unfold uses
        dsimp only
        cases t.find k with
        | none =>
            rw [if_neg (by simp), List.append_nil]
            exact hkeys
        | some v => exact hput k v
  · refine ⟨⟨Nat.zero_le _, List.nodup_nil⟩, ?_⟩
    show [] = List.take c []
    rw [List.take_nil]

end TwoLevel

end Hw
