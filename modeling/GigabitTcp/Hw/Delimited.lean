/-
  GigabitTcp.Hw.Delimited — streams whose frames end with a marked symbol.

  A receiver of such a stream cuts it behind every marked symbol.  A machine that puts out one
  symbol a step, or none, puts out whole frames if a state knows how much of a frame is out:
  `Continues` says what one step has to show, `cutFrames_outs` says it of runs.
-/
import GigabitTcp.Hw.Machine
import Mathlib.Data.List.Induction

namespace Hw

variable {γ : Type}

/-! ## §1. Cutting. -/

/-- One more symbol, behind the finished frames and the part of the next one. -/
def cutNext (last : γ → Bool) (c : List (List γ) × List γ) (b : γ) : List (List γ) × List γ :=
  if last b then (c.1 ++ [c.2 ++ [b]], []) else (c.1, c.2 ++ [b])

/-- The frames of a stream, and what has come of the next one. -/
def cutFrames (last : γ → Bool) (l : List γ) : List (List γ) × List γ :=
  l.foldl (cutNext last) ([], [])

theorem cutFrames_concat (last : γ → Bool) (l : List γ) (b : γ) :
    cutFrames last (l ++ [b]) = cutNext last (cutFrames last l) b := by
  simp [cutFrames]

/-- Nothing is lost. -/
theorem cutFrames_flatten (last : γ → Bool) (l : List γ) :
    (cutFrames last l).1.flatten ++ (cutFrames last l).2 = l := by
  induction l using List.reverseRecOn with
  | nil => rfl
  | append_singleton l b ih =>
      rw [cutFrames_concat]
      unfold cutNext
      conv_rhs => rw [← ih]
      split
      · rw [List.flatten_append, List.flatten_singleton, List.append_nil, List.append_assoc]
      · rw [List.append_assoc]

/-- A frame: its last symbol is marked, and no other. -/
def Delimited (last : γ → Bool) (f : List γ) : Prop :=
  ∃ init x, f = init ++ [x] ∧ (∀ y ∈ init, last y = false) ∧ last x = true

theorem foldl_cutNext_plain {last : γ → Bool} {p : List γ} (hp : ∀ y ∈ p, last y = false)
    (c : List (List γ) × List γ) : p.foldl (cutNext last) c = (c.1, c.2 ++ p) := by
  induction p generalizing c with
  | nil => simp
  | cons y p ih =>
      have hy := hp y List.mem_cons_self
      rw [List.foldl_cons, ih fun z hz => hp z (List.mem_cons_of_mem _ hz)]
      simp [cutNext, hy]

theorem foldl_cutNext_frame {last : γ → Bool} {f : List γ} (hf : Delimited last f) (done : List (List γ)) :
    f.foldl (cutNext last) (done, []) = (done ++ [f], []) := by
  obtain ⟨init, x, rfl, hinit, hx⟩ := hf
  rw [List.foldl_append, foldl_cutNext_plain hinit]
  simp [cutNext, hx]

/-- **Frames in a row** are cut as they are. -/
theorem cutFrames_frames {last : γ → Bool} {fs : List (List γ)} (hfs : ∀ f ∈ fs, Delimited last f)
    {p : List γ} (hp : ∀ y ∈ p, last y = false) : cutFrames last (fs.flatten ++ p) = (fs, p) := by
  suffices hrun : ∀ done : List (List γ), fs.flatten.foldl (cutNext last) (done, []) = (done ++ fs, []) by
    unfold cutFrames
    rw [List.foldl_append, hrun [], foldl_cutNext_plain hp]
    rfl
  induction fs with
  | nil =>
      intro done
      simp
  | cons f fs ih =>
      intro done
      rw [List.flatten_cons, List.foldl_append, foldl_cutNext_frame (hfs f List.mem_cons_self),
        ih fun g hg => hfs g (List.mem_cons_of_mem _ hg)]
      simp

/-- Behind frames the rest is cut as if it stood alone. -/
theorem cutFrames_append {last : γ → Bool} {fs : List (List γ)} (hfs : ∀ f ∈ fs, Delimited last f) (l : List γ) :
    cutFrames last (fs.flatten ++ l) = (fs ++ (cutFrames last l).1, (cutFrames last l).2) := by
  induction l using List.reverseRecOn with
  | nil =>
      rw [cutFrames_frames hfs (p := []) (by simp)]
      simp [cutFrames]
  | append_singleton l b ih =>
      rw [← List.append_assoc, cutFrames_concat, cutFrames_concat, ih]
      unfold cutNext
      split
      · exact congrArg (·, []) (List.append_assoc _ _ _)
      · rfl

/-- What is cut are frames, and a part without a mark. -/
theorem cutFrames_delimited (last : γ → Bool) (l : List γ) :
    (∀ f ∈ (cutFrames last l).1, Delimited last f) ∧ ∀ y ∈ (cutFrames last l).2, last y = false := by
  induction l using List.reverseRecOn with
  | nil => exact ⟨nofun, nofun⟩
  | append_singleton l b ih =>
      obtain ⟨hframes, hpart⟩ := ih
      rw [cutFrames_concat]
      unfold cutNext
      cases hb : last b with
      | true =>
          rw [if_pos rfl]
          refine ⟨fun f hf => ?_, nofun⟩
          rcases List.mem_append.mp hf with hf | hf
          · exact hframes f hf
          · rw [List.mem_singleton.mp hf]
            exact ⟨_, b, rfl, hpart, hb⟩
      | false =>
          rw [if_neg Bool.false_ne_true]
          refine ⟨hframes, fun y hy => ?_⟩
          rcases List.mem_append.mp hy with hy | hy
          · exact hpart y hy
          · rw [List.mem_singleton.mp hy]
            exact hb

/-- What comes behind does not change the frames. -/
theorem cutFrames_grow (last : γ → Bool) {l l' : List γ} (h : l <+: l') :
    (cutFrames last l).1 <+: (cutFrames last l').1 := by
  obtain ⟨m, rfl⟩ := h
  induction m using List.reverseRecOn with
  | nil => simp
  | append_singleton m b ih =>
      rw [← List.append_assoc, cutFrames_concat]
      unfold cutNext
      split
      · exact ih.trans (List.prefix_append _ _)
      · exact ih

/-- A part without a mark, and behind it a mark: the part of a frame. -/
theorem delimited_of_mark {last : γ → Bool} {p : List γ} (hp : ∀ y ∈ p, last y = false) :
    ∀ {l : List γ}, (∃ y ∈ l, last y = true) → ∃ q, q ≠ [] ∧ q <+: l ∧ Delimited last (p ++ q) := by
  intro l hmark
  induction l generalizing p with
  | nil => exact absurd hmark (by simp)
  | cons x l ih =>
      cases hx : last x with
      | true => exact ⟨[x], by simp, by simp, p, x, rfl, hp, hx⟩
      | false =>
          have hpx : ∀ y ∈ p ++ [x], last y = false := by
            intro y hy
            rcases List.mem_append.mp hy with hy | hy
            · exact hp y hy
            · rw [List.mem_singleton.mp hy]
              exact hx
          have hrest : ∃ y ∈ l, last y = true := by
            obtain ⟨y, hy, hlast⟩ := hmark
            rcases List.mem_cons.mp hy with rfl | hy
            · rw [hx] at hlast
              cases hlast
            · exact ⟨y, hy, hlast⟩
          obtain ⟨q, -, ⟨m, rfl⟩, hq⟩ := ih hpx hrest
          refine ⟨x :: q, by simp, ⟨m, rfl⟩, ?_⟩
          rwa [List.append_assoc] at hq

/-- A frame that begins with such a part is longer. -/
theorem length_lt_of_cutFrames {last : γ → Bool} {p l g : List γ} {gs : List (List γ)}
    (hp : ∀ y ∈ p, last y = false) (h : (cutFrames last (p ++ l)).1 = g :: gs) : p.length < g.length := by
  obtain ⟨init, x, rfl, -, hx⟩ : Delimited last g :=
    (cutFrames_delimited last (p ++ l)).1 g (by rw [h]; exact List.mem_cons_self)
  have hall := cutFrames_flatten last (p ++ l)
  rw [h, List.flatten_cons, List.append_assoc] at hall
  by_contra hlong
  -- otherwise the mark would stand in the part
  have hsub : init ++ [x] <+: p :=
    List.prefix_of_prefix_length_le ⟨_, hall⟩ (List.prefix_append p l) (by omega)
  have hplain := hp x (hsub.mem (by simp))
  rw [hx] at hplain
  cases hplain

theorem Delimited.end {last : γ → Bool} {p : List γ} {x : γ} (h : Delimited last (p ++ [x])) :
    last x = true := by
  obtain ⟨init, y, heq, -, hy⟩ := h
  obtain ⟨-, hxy⟩ := List.append_inj' heq rfl
  rwa [← List.singleton_inj.mp hxy] at hy

theorem Delimited.inner {last : γ → Bool} {p q : List γ} {x : γ} (h : Delimited last (p ++ x :: q))
    (hq : q ≠ []) : last x = false := by
  obtain ⟨init, y, heq, hinit, -⟩ := h
  rw [← List.dropLast_append_getLast hq, ← List.cons_append, ← List.append_assoc] at heq
  obtain ⟨hfront, -⟩ := List.append_inj' heq rfl
  apply hinit
  rw [← hfront]
  simp

/-! ## §2. Machines that put out frames. -/

/-- Behind `part` of a frame comes nothing, the end of a frame that is `Whole`, or one symbol more;
`Mid` knows how much is out. -/
def Continues (last : γ → Bool) (Whole Mid : List γ → Prop) (part : List γ) : Option γ → Prop
  | none => Mid part
  | some b => if last b then Whole (part ++ [b]) ∧ Mid [] else Mid (part ++ [b])

/-- A stream that is cut into whole frames goes on. -/
theorem Continues.cut {last : γ → Bool} {Whole Mid : List γ → Prop} {l : List γ} {x : Option γ}
    (hwhole : ∀ f ∈ (cutFrames last l).1, Whole f) (h : Continues last Whole Mid (cutFrames last l).2 x) :
    (∀ f ∈ (cutFrames last (l ++ x.toList)).1, Whole f) ∧ Mid (cutFrames last (l ++ x.toList)).2 := by
  cases x with
  | none =>
      rw [Option.toList_none, List.append_nil]
      exact ⟨hwhole, h⟩
  | some b =>
      rw [Option.toList_some, cutFrames_concat]
      change if last b then _ else _ at h
      unfold cutNext
      by_cases hb : last b = true
      · rw [if_pos hb] at h ⊢
        refine ⟨fun f hf => ?_, h.2⟩
        rcases List.mem_append.mp hf with hf | hf
        · exact hwhole f hf
        · rw [List.mem_singleton.mp hf]
          exact h.1
      · rw [if_neg hb] at h ⊢
        exact ⟨hwhole, h⟩

variable {σ ι ο : Type} {M : Machine σ ι ο}

/-- The stream grows by what the last step shows. -/
theorem reduceOption_map_snoc (view : ο → Option γ) (os : List ο) (o : ο) :
    ((os ++ [o]).map view).reduceOption = (os.map view).reduceOption ++ (view o).toList := by
  rw [List.map_append, List.reduceOption_append]
  exact congrArg (_ ++ ·) (List.reduceOption_singleton _)

/-- **Whole frames**: if every step goes on with the frame that is out, the stream of a run is cut into
whole frames and a part of one. -/
theorem cutFrames_outs (view : ο → Option γ) {last : γ → Bool} {Whole : List γ → Prop}
    {Mid : σ → List γ → Prop} {C : ι → Prop}
    (hstep : ∀ s i part, Mid s part → C i →
      Continues last Whole (Mid (M s i).1) part (view (M s i).2))
    {s : σ} (hs : Mid s []) (is : List ι) (hC : ∀ i ∈ is, C i) :
    let cut := cutFrames last ((M.outs s is).map view).reduceOption
    (∀ f ∈ cut.1, Whole f) ∧ Mid (M.after s is) cut.2 := by
  induction is using List.reverseRecOn with
  | nil =>
      intro cut
      exact ⟨nofun, hs⟩
  | append_singleton is i ih =>
      obtain ⟨hwhole, hmid⟩ := ih fun j hj => hC j (List.mem_append_left _ hj)
      have hnext := hstep _ i _ hmid (hC i (by simp))
      rw [Machine.outs_append, Machine.after_append, Machine.outs_cons, Machine.outs_nil, reduceOption_map_snoc]
      exact Continues.cut hwhole hnext

end Hw
