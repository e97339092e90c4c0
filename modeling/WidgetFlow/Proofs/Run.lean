import Mathlib.Logic.Relation
import WidgetFlow.Flowgraph.State

/-!
# Runs of actions

An action takes a context and a state to a result and a state. `Does R c s x Q` says that the action `x` moves from `s`
along `R` and ends with `Q`. `Tries R E c s x Q` says the same of an action that can fail: if it fails, it moved along
`R` to some state, and `E` says how it failed from there.

The relation is a preorder that the actions follow step by step, so each rule below goes through a piece of code once:
`bind` for a sequence, `read` for what only looks at the state, `forM`, `foldlM`, `mapM` and `filterMapM` for loops.
In `forM`, each element brings a property that holds right after its turn and that `R` keeps.
-/

namespace WidgetFlow

/-- Changes of a state. -/
abbrev Act (σ : Type) := ReaderT Context (StateM σ)

/-- Changes of a state that a violation can end. -/
abbrev Try (σ : Type) := ExceptT Fault (Act σ)

/-- From `s`, the action moves along `R` and ends with `Q`. -/
structure Does {σ α : Type} (R : σ → σ → Prop) (c : Context) (s : σ) (x : Act σ α) (Q : α → σ → Prop) : Prop where
  moves : R s (x c s).2
  post : Q (x c s).1 (x c s).2

/-- From `s`, the action moves along `R` and ends with `Q`, or fails by `E` after a move along `R`. -/
structure Tries {σ α : Type} (R E : σ → σ → Prop) (c : Context) (s : σ) (x : Try σ α) (Q : α → σ → Prop) : Prop where
  ok : ∀ {a t}, x c s = (.ok a, t) → R s t ∧ Q a t
  error : ∀ {e u}, x c s = (.error e, u) → ∃ t, R s t ∧ E t u

variable {σ α β : Type} {R T E F : σ → σ → Prop} {c : Context} {s : σ} {Q S : α → σ → Prop} {P : β → σ → Prop}

/-- Any two states. -/
def Anyhow {σ : Type} (_ _ : σ) : Prop := True

instance : IsPreorder σ Anyhow where
  refl _ := trivial
  trans _ _ _ _ _ := trivial

/-- The answer of an action that tells whether something changed. Two actions in a row changed something if one of them
did. -/
structure Reporting (R : σ → σ → Prop) (Rep : Bool → σ → σ → Prop) : Prop where
  refl : ∀ s, Rep false s s
  or : ∀ {s t u b b'}, R s t → R t u → Rep b s t → Rep b' t u → Rep (b || b') s u

/-! ## Actions that cannot fail -/

namespace Does

theorem mono {x : Act σ α} (h : Does R c s x Q) (hR : ∀ t, R s t → T s t) (hQ : ∀ a t, R s t → Q a t → S a t) :
    Does T c s x S :=
  ⟨hR _ h.moves, hQ _ _ h.moves h.post⟩

theorem imp {x : Act σ α} (h : Does R c s x Q) (hQ : ∀ a t, R s t → Q a t → S a t) : Does R c s x S :=
  h.mono (fun _ h => h) hQ

theorem any {x : Act σ α} (h : Does R c s x Q) : Does R c s x fun _ _ => True := ⟨h.moves, trivial⟩

theorem and {x : Act σ α} (h : Does R c s x Q) (h' : Does R c s x S) : Does R c s x fun a t => Q a t ∧ S a t :=
  ⟨h.moves, h.post, h'.post⟩

/-- The move becomes part of the end. -/
theorem forget {x : Act σ α} (h : Does R c s x Q) : Does Anyhow c s x fun a t => R s t ∧ Q a t :=
  ⟨trivial, h.moves, h.post⟩

/-- The move comes back from the end. -/
theorem restore {x : Act σ α} (h : Does T c s x fun a t => R s t ∧ Q a t) : Does R c s x Q := ⟨h.post.1, h.post.2⟩

/-- An action whose run is known. -/
theorem of_run {x : Act σ α} {a : α} {t : σ} (hx : x c s = (a, t)) (hR : R s t) (hQ : Q a t) : Does R c s x Q :=
  ⟨by rw [hx]; exact hR, by rw [hx]; exact hQ⟩

/-- An action that only looks at the state. -/
theorem read {x : Act σ α} {k : α → Act σ β} {a : α} (hx : x c s = (a, s)) (h : Does R c s (k a) P) :
    Does R c s (x >>= k) P := by
  have hk : (x >>= k) c s = k a c s := by
    show k (x c s).1 c (x c s).2 = _
    rw [hx]
  exact ⟨by rw [hk]; exact h.moves, by rw [hk]; exact h.post⟩

theorem map {x : Act σ α} {f : α → β} (h : Does R c s x fun a t => P (f a) t) : Does R c s (f <$> x) P :=
  ⟨h.moves, h.post⟩

theorem discard {x : Act σ α} (h : Does R c s x Q) : Does R c s (discard x) fun _ t => ∃ a, Q a t :=
  ⟨h.moves, _, h.post⟩

/-- A condition is decided as a whole, whatever is in it. -/
theorem ite {p : Prop} [Decidable p] {x y : Act σ α} (hx : p → Does R c s x Q) (hy : ¬p → Does R c s y Q) :
    Does R c s (if p then x else y) Q := by
  by_cases h : p
  · rw [if_pos h]
    exact hx h
  · rw [if_neg h]
    exact hy h

variable [IsPreorder σ R]

theorem pure {a : α} (h : Q a s) : Does R c s (Pure.pure a) Q := ⟨refl_of R s, h⟩

theorem bind {x : Act σ α} {k : α → Act σ β} (hx : Does R c s x Q) (hk : ∀ a t, R s t → Q a t → Does R c t (k a) P) :
    Does R c s (x >>= k) P := by
  have h := hk _ _ hx.moves hx.post
  exact ⟨trans_of R hx.moves h.moves, h.post⟩

theorem forM {P : α → σ → Prop} {f : α → Act σ PUnit} {l : List α}
    (hP : ∀ a ∈ l, ∀ t u, R t u → P a t → P a u)
    (hf : ∀ a ∈ l, ∀ t, R s t → Does R c t (f a) fun _ u => P a u) :
    Does R c s (l.forM f) fun _ t => ∀ a ∈ l, P a t := by
  induction l generalizing s with
  | nil => exact .pure (by simp)
  | cons a l ih =>
    refine .bind (hf a List.mem_cons_self s (refl_of R s)) fun _ t hst ha => ?_
    have hl := ih (fun b hb => hP b (List.mem_cons_of_mem _ hb))
      fun b hb u htu => hf b (List.mem_cons_of_mem _ hb) u (trans_of R hst htu)
    refine hl.imp fun _ u htu hall b hb => ?_
    rcases List.mem_cons.mp hb with rfl | hb
    · exact hP _ List.mem_cons_self t u htu ha
    · exact hall b hb

theorem each {f : α → Act σ PUnit} {l : List α} (hf : ∀ a ∈ l, ∀ t, R s t → Does R c t (f a) fun _ _ => True) :
    Does R c s (l.forM f) fun _ _ => True :=
  (forM (fun _ _ _ _ _ h => h) hf).any

theorem foldlM {I : β → σ → Prop} {f : β → α → Act σ β} {l : List α} {b : β} (hb : I b s)
    (hf : ∀ b, ∀ a ∈ l, ∀ t, R s t → I b t → Does R c t (f b a) I) : Does R c s (l.foldlM f b) I := by
  induction l generalizing s b with
  | nil => exact .pure hb
  | cons a l ih =>
    refine .bind (hf b a List.mem_cons_self s (refl_of R s) hb) fun b' t hst hb' => ?_
    exact ih hb' fun b a ha u htu => hf b a (List.mem_cons_of_mem _ ha) u (trans_of R hst htu)

/-- A fold that collects: each element adds its part, and no part is lost later. -/
theorem foldlM_collect {P : α → β → Prop} {f : β → α → Act σ β} {l : List α} {b : β}
    (hf : ∀ b, ∀ a ∈ l, ∀ t, R s t → Does R c t (f b a) fun b' _ => P a b' ∧ ∀ a', P a' b → P a' b') :
    Does R c s (l.foldlM f b) fun b' _ => (∀ a ∈ l, P a b') ∧ ∀ a, P a b → P a b' := by
  induction l generalizing s b with
  | nil => exact .pure ⟨by simp, fun _ h => h⟩
  | cons a l ih =>
    refine .bind (hf b a List.mem_cons_self s (refl_of R s)) fun b₁ t hst ⟨ha, hkept⟩ => ?_
    refine (ih fun b a ha u htu => hf b a (List.mem_cons_of_mem _ ha) u (trans_of R hst htu)).imp
      fun b₂ u _ ⟨hall, hkept'⟩ => ⟨fun a' ha' => ?_, fun a' h => hkept' a' (hkept a' h)⟩
    rcases List.mem_cons.mp ha' with rfl | ha'
    · exact hkept' _ ha
    · exact hall a' ha'

theorem mapM {f : α → Act σ β} {l : List α} (hP : ∀ b t u, R t u → P b t → P b u)
    (hf : ∀ a ∈ l, ∀ t, R s t → Does R c t (f a) P) : Does R c s (l.mapM f) fun bs t => ∀ b ∈ bs, P b t := by
  induction l generalizing s with
  | nil => exact .pure (by simp)
  | cons a l ih =>
    rw [List.mapM_cons]
    refine .bind (hf a List.mem_cons_self s (refl_of R s)) fun b t hst hb => ?_
    refine .bind (ih fun a ha u htu => hf a (List.mem_cons_of_mem _ ha) u (trans_of R hst htu)) fun bs u htu hbs => ?_
    refine .pure fun d hd => ?_
    rcases List.mem_cons.mp hd with rfl | hd
    · exact hP _ t u htu hb
    · exact hbs d hd

theorem filterMapM {f : α → Act σ (Option β)} {l : List α} (hP : ∀ b t u, R t u → P b t → P b u)
    (hf : ∀ a ∈ l, ∀ t, R s t → Does R c t (f a) fun o u => ∀ b ∈ o, P b u) :
    Does R c s (l.filterMapM f) fun bs t => ∀ b ∈ bs, P b t := by
  induction l generalizing s with
  | nil => exact .pure (by simp)
  | cons a l ih =>
    rw [List.filterMapM_cons]
    refine .bind (hf a List.mem_cons_self s (refl_of R s)) fun o t hst ho => ?_
    have hl := ih fun a ha u htu => hf a (List.mem_cons_of_mem _ ha) u (trans_of R hst htu)
    cases o with
    | none => exact hl
    | some b =>
      refine .bind hl fun bs u htu hbs => ?_
      refine .pure fun d hd => ?_
      rcases List.mem_cons.mp hd with rfl | hd
      · exact hP _ t u htu (ho _ rfl)
      · exact hbs d hd

/-- A sweep that reports no change leaves `C` of every element, for nothing happened after its turn. -/
theorem sweep {Rep : Bool → σ → σ → Prop} (hRep : Reporting R Rep) {C : α → σ → Prop}
    (hC : ∀ a t u, R t u → Rep false t u → C a t → C a u) {act : α → Act σ Bool} {l : List α}
    (hact : ∀ a ∈ l, ∀ t, R s t → Does R c t (act a) fun b u => Rep b t u ∧ (b = false → C a u)) :
    Does R c s (sweep act l) fun b t => Rep b s t ∧ (b = false → ∀ a ∈ l, C a t) := by
  induction l generalizing s with
  | nil => exact .pure ⟨hRep.refl s, by simp⟩
  | cons a l ih =>
    refine .bind (hact a List.mem_cons_self s (refl_of R s)) fun b t hst hb => ?_
    refine .bind (ih fun a ha u htu => hact a (List.mem_cons_of_mem _ ha) u (trans_of R hst htu)) fun b' u htu hb' => ?_
    refine .pure ⟨hRep.or hst htu hb.1 hb'.1, fun h a' ha' => ?_⟩
    obtain ⟨rfl, rfl⟩ := Bool.or_eq_false_iff.mp h
    rcases List.mem_cons.mp ha' with rfl | ha'
    · exact hC _ t u htu hb'.1 (hb.2 rfl)
    · exact hb'.2 rfl a' ha'

/-- A fold that carries along whether something changed is such a sweep. -/
theorem foldlM_sweep {Rep : Bool → σ → σ → Prop} (hRep : Reporting R Rep) {C : α → σ → Prop}
    (hC : ∀ a t u, R t u → Rep false t u → C a t → C a u) {f : Bool → α → Act σ Bool} {l : List α} {b : Bool}
    (hf : ∀ b, ∀ a ∈ l, ∀ t, R s t →
      Does R c t (f b a) fun b' u => ∃ d, b' = (b || d) ∧ Rep d t u ∧ (d = false → C a u)) :
    Does R c s (l.foldlM f b) fun b' t => ∃ d, b' = (b || d) ∧ Rep d s t ∧ (d = false → ∀ a ∈ l, C a t) := by
  induction l generalizing s b with
  | nil => exact .pure ⟨false, (Bool.or_false b).symm, hRep.refl s, by simp⟩
  | cons a l ih =>
    refine .bind (hf b a List.mem_cons_self s (refl_of R s)) fun b₁ t hst ⟨d, hb, hd, hCa⟩ => ?_
    refine (ih fun b a ha u htu => hf b a (List.mem_cons_of_mem _ ha) u (trans_of R hst htu)).imp
      fun b₂ u htu ⟨d', hb', hd', hCl⟩ => ?_
    refine ⟨d || d', by rw [hb', hb, Bool.or_assoc], hRep.or hst htu hd hd', fun h a' ha' => ?_⟩
    obtain ⟨rfl, rfl⟩ := Bool.or_eq_false_iff.mp h
    rcases List.mem_cons.mp ha' with rfl | ha'
    · exact hC _ t u htu hd' (hCa rfl)
    · exact hCl rfl a' ha'

end Does

/-! ## Actions that can fail -/

theorem bind_run_ok {x : Try σ α} {k : α → Try σ β} {a : α} {t : σ} (hx : x c s = (.ok a, t)) :
    (x >>= k) c s = k a c t := by
  show (ExceptT.bindCont k (x c s).1) c (x c s).2 = _
  rw [hx]
  rfl

theorem bind_run_error {x : Try σ α} {k : α → Try σ β} {e : Fault} {t : σ} (hx : x c s = (.error e, t)) :
    (x >>= k) c s = (.error e, t) := by
  show (ExceptT.bindCont k (x c s).1) c (x c s).2 = _
  rw [hx]
  rfl

namespace Tries

theorem mono {x : Try σ α} (h : Tries R E c s x Q) (hR : ∀ t, R s t → T s t) (hE : ∀ t u, E t u → F t u)
    (hQ : ∀ a t, R s t → Q a t → S a t) : Tries T F c s x S := by
  refine ⟨fun hx => ?_, fun hx => ?_⟩
  · obtain ⟨ht, hq⟩ := h.ok hx
    exact ⟨hR _ ht, hQ _ _ ht hq⟩
  · obtain ⟨t, ht, he⟩ := h.error hx
    exact ⟨t, hR t ht, hE _ _ he⟩

theorem imp {x : Try σ α} (h : Tries R E c s x Q) (hQ : ∀ a t, R s t → Q a t → S a t) : Tries R E c s x S :=
  h.mono (fun _ h => h) (fun _ _ h => h) hQ

theorem and {x : Try σ α} (h : Tries R E c s x Q) (h' : Tries T F c s x S) :
    Tries R E c s x fun a t => Q a t ∧ S a t :=
  ⟨fun hx => ⟨(h.ok hx).1, (h.ok hx).2, (h'.ok hx).2⟩, h.error⟩

/-- The move becomes part of the end. -/
theorem forget {x : Try σ α} (h : Tries R E c s x Q) : Tries Anyhow E c s x fun a t => R s t ∧ Q a t :=
  ⟨fun hx => ⟨trivial, h.ok hx⟩, fun hx => (h.error hx).imp fun _ h => ⟨trivial, h.2⟩⟩

/-- The move comes back from the end, and the failure to the start. -/
theorem restore {x : Try σ α} (h : Tries T F c s x fun a t => R s t ∧ Q a t) (hR : R s s)
    (hE : ∀ t u, F t u → E s u) : Tries R E c s x Q :=
  ⟨fun hx => (h.ok hx).2, fun hx => (h.error hx).elim fun _ h => ⟨s, hR, hE _ _ h.2⟩⟩

/-- An action whose run is known. -/
theorem of_ok {x : Try σ α} {a : α} {t : σ} (hx : x c s = (.ok a, t)) (hR : R s t) (hQ : Q a t) : Tries R E c s x Q := by
  refine ⟨fun h => ?_, fun h => ?_⟩ <;> rw [hx] at h <;> cases h
  exact ⟨hR, hQ⟩

/-- An action that is known to fail. -/
theorem of_error {x : Try σ α} {e : Fault} {t u : σ} (hx : x c s = (.error e, u)) (hR : R s t) (hE : E t u) :
    Tries R E c s x Q := by
  refine ⟨fun h => ?_, fun h => ?_⟩ <;> rw [hx] at h <;> cases h
  exact ⟨t, hR, hE⟩

/-- An action whose run is known, followed by another. -/
theorem after {x : Try σ α} {k : α → Try σ β} {a : α} {t : σ} (hx : x c s = (.ok a, t)) (h : Tries R E c t (k a) P)
    (hR : ∀ u, R t u → T s u) : Tries T E c s (x >>= k) P := by
  refine ⟨fun hr => ?_, fun hr => ?_⟩ <;> rw [bind_run_ok hx] at hr
  · obtain ⟨ht, hp⟩ := h.ok hr
    exact ⟨hR _ ht, hp⟩
  · obtain ⟨u, hu, he⟩ := h.error hr
    exact ⟨u, hR u hu, he⟩

/-- An action that only looks at the state. -/
theorem read {x : Try σ α} {k : α → Try σ β} {a : α} (hx : x c s = (.ok a, s)) (h : Tries R E c s (k a) P) :
    Tries R E c s (x >>= k) P :=
  after hx h fun _ h => h

theorem lift {x : Act σ α} (h : Does R c s x Q) : Tries R E c s (liftM x) Q := of_ok rfl h.moves h.post

theorem discard {x : Try σ α} (h : Tries R E c s x Q) : Tries R E c s (discard x) fun _ t => ∃ a, Q a t := by
  rcases hr : x c s with ⟨e | a, t⟩
  · obtain ⟨u, hu, he⟩ := h.error hr
    exact of_error (bind_run_error hr) hu he
  · obtain ⟨ht, hq⟩ := h.ok hr
    exact of_ok (bind_run_ok hr) ht ⟨a, hq⟩

variable [IsPreorder σ R]

theorem pure {a : α} (h : Q a s) : Tries R E c s (Pure.pure a) Q := of_ok rfl (refl_of R s) h

theorem bind {x : Try σ α} {k : α → Try σ β} (hx : Tries R E c s x Q)
    (hk : ∀ a t, R s t → Q a t → Tries R E c t (k a) P) : Tries R E c s (x >>= k) P := by
  rcases hr : x c s with ⟨e | a, t⟩
  · obtain ⟨u, hu, he⟩ := hx.error hr
    exact of_error (bind_run_error hr) hu he
  · obtain ⟨ht, hq⟩ := hx.ok hr
    exact after hr (hk a t ht hq) fun u hu => trans_of R ht hu

/-- An action that cannot fail, followed by one that can. -/
theorem liftBind {x : Act σ α} {k : α → Try σ β} (hx : Does R c s x Q)
    (hk : ∀ a t, R s t → Q a t → Tries R E c t (k a) P) : Tries R E c s ((liftM x : Try σ α) >>= k) P :=
  .bind (.lift hx) hk

theorem forM {P : α → σ → Prop} {f : α → Try σ PUnit} {l : List α}
    (hP : ∀ a ∈ l, ∀ t u, R t u → P a t → P a u)
    (hf : ∀ a ∈ l, ∀ t, R s t → Tries R E c t (f a) fun _ u => P a u) :
    Tries R E c s (l.forM f) fun _ t => ∀ a ∈ l, P a t := by
  induction l generalizing s with
  | nil => exact .pure (by simp)
  | cons a l ih =>
    refine .bind (hf a List.mem_cons_self s (refl_of R s)) fun _ t hst ha => ?_
    have hl := ih (fun b hb => hP b (List.mem_cons_of_mem _ hb))
      fun b hb u htu => hf b (List.mem_cons_of_mem _ hb) u (trans_of R hst htu)
    refine hl.imp fun _ u htu hall b hb => ?_
    rcases List.mem_cons.mp hb with rfl | hb
    · exact hP _ List.mem_cons_self t u htu ha
    · exact hall b hb

theorem each {f : α → Try σ PUnit} {l : List α}
    (hf : ∀ a ∈ l, ∀ t, R s t → Tries R E c t (f a) fun _ _ => True) :
    Tries R E c s (l.forM f) fun _ _ => True :=
  (forM (fun _ _ _ _ _ h => h) hf).imp fun _ _ _ _ => trivial

/-- A sweep leaves `C` of every element, if nothing undoes it. -/
theorem sweep_all {C : α → σ → Prop} (hC : ∀ a t u, R t u → C a t → C a u) {act : α → Try σ Bool} {l : List α}
    (hact : ∀ a ∈ l, ∀ t, R s t → Tries R E c t (act a) fun _ u => C a u) :
    Tries R E c s (sweep act l) fun _ t => ∀ a ∈ l, C a t := by
  induction l generalizing s with
  | nil => exact .pure (by simp)
  | cons a l ih =>
    refine .bind (hact a List.mem_cons_self s (refl_of R s)) fun b t hst ha => ?_
    refine .bind (ih fun a ha u htu => hact a (List.mem_cons_of_mem _ ha) u (trans_of R hst htu)) fun b' u htu hl => ?_
    refine .pure fun a' ha' => ?_
    rcases List.mem_cons.mp ha' with rfl | ha'
    · exact hC _ t u htu ha
    · exact hl a' ha'

/-- A sweep that reports no change leaves `C` of every element, for nothing happened after its turn. -/
theorem sweep {Rep : Bool → σ → σ → Prop} (hRep : Reporting R Rep) {C : α → σ → Prop}
    (hC : ∀ a t u, R t u → Rep false t u → C a t → C a u) {act : α → Try σ Bool} {l : List α}
    (hact : ∀ a ∈ l, ∀ t, R s t → Tries R E c t (act a) fun b u => Rep b t u ∧ (b = false → C a u)) :
    Tries R E c s (sweep act l) fun b t => Rep b s t ∧ (b = false → ∀ a ∈ l, C a t) := by
  induction l generalizing s with
  | nil => exact .pure ⟨hRep.refl s, by simp⟩
  | cons a l ih =>
    refine .bind (hact a List.mem_cons_self s (refl_of R s)) fun b t hst hb => ?_
    refine .bind (ih fun a ha u htu => hact a (List.mem_cons_of_mem _ ha) u (trans_of R hst htu)) fun b' u htu hb' => ?_
    refine .pure ⟨hRep.or hst htu hb.1 hb'.1, fun h a' ha' => ?_⟩
    obtain ⟨rfl, rfl⟩ := Bool.or_eq_false_iff.mp h
    rcases List.mem_cons.mp ha' with rfl | ha'
    · exact hC _ t u htu hb'.1 (hb.2 rfl)
    · exact hb'.2 rfl a' ha'

end Tries

end WidgetFlow
