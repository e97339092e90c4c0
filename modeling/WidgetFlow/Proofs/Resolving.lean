import WidgetFlow.Proofs.Classifying

/-!
# Resolution follows the steps

Each rule is followed once. What it tells of a change is true (`Solver.Reports`), and if it tells of none, it has nothing
left to do: `Solver.Propagated` for the results, `Solver.Resolved` for the operations, `Solver.Dispatched` for the
registrations.
-/

namespace WidgetFlow

open Std Relation Flowgraph

namespace Solver

variable {s t u : Solver} {c : Context} {op n m l w v r : NodeId} {x : Operand} {slot : Slot} {p : Phase}

theorem reporting_steps : Reporting (Steps c p) Reports := reporting fun _ _ h => Steps.le h

/-! ## Results -/

theorem Steps.registries (h : Steps c p s t) (hp : p ≠ .classify) :
    t.ids = s.ids ∧ t.candidates = s.candidates ∧ t.downstream = s.downstream := by
  induction h with
  | refl => exact ⟨rfl, rfl, rfl⟩
  | tail _ h ih =>
    obtain ⟨h₁, h₂, h₃⟩ := h.registries hp
    exact ⟨h₁.trans ih.1, h₂.trans ih.2.1, h₃.trans ih.2.2⟩

/-- Every result is where it goes to. -/
def Propagated (c : Context) (s : Solver) : Prop :=
  ∀ op, ∀ x ∈ s.downstreamOf op, ∀ n ∈ s.results op, accepts c.project.program s.graph x n = true →
    n ∈ s.solution x.op x.slot

theorem Propagated.congr (h : Propagated c s) (hst : s.Same t) : Propagated c t := by
  intro op x hx n hn ha
  rw [downstreamOf, hst.downstream] at hx
  rw [results, hst.solution] at hn
  rw [hst.graph] at ha
  rw [hst.solution]
  exact h op x hx n hn ha

theorem propagate_does (hs : Inv c s) : Does (Steps c .resolve) c s propagate fun b t =>
    Reports b s t ∧ (b = false → Propagated c t) := by
  unfold propagate
  refine .read rfl ?_
  have htable : ∀ {t'}, Steps c .resolve s t' → t'.downstream = s.downstream := by
    intro t' h'
    exact (Steps.registries h' (by simp)).2.2
  -- what is left behind by each operation
  let C (e : NodeId × ExtTreeSet Operand) (t : Solver) : Prop := ∀ x ∈ e.2, ∀ n ∈ t.results e.1,
    accepts c.project.program t.graph x n = true → n ∈ t.solution x.op x.slot
  refine (Does.foldlM_sweep reporting_steps (C := C) ?_ fun b e he t h => ?_).imp fun b t h hex => ?_
  · intro e t u _ hsame hC x hx n hn ha
    have hsame := hsame.same rfl
    rw [results, hsame.solution] at hn
    rw [hsame.graph] at ha
    rw [hsame.solution]
    exact hC x hx n hn ha
  · obtain ⟨op, operands⟩ := e
    have hdown : ∀ {t'}, Steps c .resolve s t' → ∀ x ∈ operands, x ∈ t'.downstreamOf op := by
      intro t' h' x hx
      rw [downstreamOf, htable h', ExtTreeMap.getD_eq_getD_getElem?,
        ExtTreeMap.mem_toList_iff_getElem?_eq_some.mp he]
      exact hx
    refine .read rfl ?_
    dsimp only
    split
    · rename_i hempty
      refine .pure ⟨false, (Bool.or_false b).symm, .refl t, fun _ x _ n hn => ?_⟩
      rw [List.isEmpty_iff] at hempty
      have := ExtTreeSet.mem_toList.mpr hn
      rw [hempty] at this
      cases this
    · refine .bind (Does.sweep reporting_steps (C := fun x u => ∀ n ∈ t.results op,
        accepts c.project.program u.graph x n = true → n ∈ u.solution x.op x.slot) ?_ fun x hx t₁ h₁ => ?_)
        fun b' t₂ h₂ hb' => .pure ⟨b', rfl, hb'.1, fun hf x hx n hn ha => ?_⟩
      · intro x t₁ t₂ _ hsame hC n hn ha
        have hsame := hsame.same rfl
        rw [hsame.graph] at ha
        rw [hsame.solution]
        exact hC n hn ha
      · have hx := hdown (h.trans h₁) x (ExtTreeSet.mem_toList.mp hx)
        have hop := (Steps.inv hs (h.trans h₁)).isOp_of_downstream hx
        refine (addFitting_does (Graph.lt_of_isOp hop) (.single (.propagate (fun n hn => ?_) hop))).imp
          fun b u _ h => ⟨h.1, fun _ n hn ha => h.2 n (ExtTreeSet.mem_toList.mpr hn) ha⟩
        obtain ⟨hn, ha⟩ := List.mem_filter.mp hn
        exact ⟨ha, op, hx, (Steps.le h₁).solution _ _ _ (ExtTreeSet.mem_toList.mp hn)⟩
      · rw [results, (hb'.1.same hf).solution] at hn
        exact hb'.2 hf x (ExtTreeSet.mem_toList.mpr hx) n hn ha
  · obtain ⟨d, hb, hd, hall⟩ := hex
    rw [Bool.false_or] at hb
    subst hb
    refine ⟨hd, fun hf op x hx n hn ha => ?_⟩
    rw [downstreamOf, htable h, ExtTreeMap.getD_eq_getD_getElem?] at hx
    cases hop : s.downstream[op]? with
    | none =>
      rw [hop] at hx
      simp at hx
    | some operands =>
      rw [hop] at hx
      exact hall hf (op, operands) (ExtTreeMap.mem_toList_iff_getElem?_eq_some.mpr hop) x hx n hn ha

/-! ## Reading the same -/

namespace Same

variable (h : s.Same t)
include h

theorem idsOf : t.idsOf op = s.idsOf op := by rw [Solver.idsOf, h.ids]; rfl

theorem receivers : t.receivers op = s.receivers op := h.solution op .receiver

theorem receiversWhere {p : Obj → Bool} : t.receiversWhere op p = s.receiversWhere op p := by
  rw [Solver.receiversWhere, h.receivers, h.graph]; rfl

theorem widgetParameters : t.widgetParameters op = s.widgetParameters op := by
  rw [Solver.widgetParameters, parameters, h.solution, h.graph]; rfl

theorem listenersOf : t.listenersOf op = s.listenersOf op := by
  rw [Solver.listenersOf, parameters, h.solution, h.graph]; rfl

theorem idsIn {space : IdSpace} : t.idsIn op space = s.idsIn op space := by
  rw [Solver.idsIn, h.idsOf, h.graph]; rfl

theorem orderedIds : t.orderedIds op = s.orderedIds op := by
  rw [Solver.orderedIds, h.idsOf, h.graph]; rfl

theorem parameterSources {p : NodeKind → Bool} : t.parameterSources op p = s.parameterSources op p := by
  rw [Solver.parameterSources, h.graph]; rfl

theorem foundIn {ids : NodeSet} {content : Bool} : t.foundIn ids content w = s.foundIn ids content w := by
  rw [Solver.foundIn, h.roots, h.graph]; rfl

theorem finds (hf : Finds c s op n) : Finds c t op n := by
  cases hf with
  | view ho hk hr hn =>
    rw [← h.graph] at ho hn
    rw [← h.receivers] at hr
    rw [← h.idsOf] at hn
    exact .view ho hk hr hn
  | window ho hk hw hn =>
    rw [← h.graph] at ho hn
    rw [← h.receivers] at hw
    rw [← h.idsOf, ← h.foundIn] at hn
    exact .window ho hk hw hn
  | navigation ho hk hr hn =>
    rw [← h.graph] at ho hn
    rw [← h.receivers] at hr
    exact .navigation ho hk hr hn

end Same

theorem Le.orderedIds (h : s.Le t) (hn : n ∈ s.orderedIds op) : n ∈ t.orderedIds op := by
  obtain ⟨hi, hq⟩ := mem_orderedIds.mp hn
  refine mem_orderedIds.mpr ⟨h.ids op n hi, fun q hp => ?_⟩
  rw [h.op?] at hp
  exact h.graph.toExtends.backwardOrder h.op? (hq q hp)

/-- A property of nodes that does not look at context menus and dialogs. -/
theorem Le.parameterSources {k : NodeKind → Bool} (hk : ∀ k₁ k₂ : NodeKind, k₁.Alike k₂ → k k₁ = true → k k₂ = true)
    (h : s.Le t) (hn : n ∈ s.parameterSources op k) : n ∈ t.parameterSources op k := by
  obtain ⟨q, hq, hb, ha⟩ := mem_parameterSources.mp hn
  refine mem_parameterSources.mpr ⟨q, by rw [h.op?]; exact hq, h.graph.toExtends.backwardOrder h.op? hb, ?_⟩
  exact h.node_any (fun d e hde hd => hk _ _ hde.kind.alike hd) ha

theorem isText_alike (k₁ k₂ : NodeKind) (h : k₁.Alike k₂) (hk : isText k₁ = true) : isText k₂ = true := by
  cases h with
  | refl => exact hk
  | views | cancelable => cases hk

theorem isDrawable_alike (k₁ k₂ : NodeKind) (h : k₁.Alike k₂) (hk : isDrawable k₁ = true) : isDrawable k₂ = true := by
  cases h with
  | refl => exact hk
  | views | cancelable => cases hk

/-! ## Operations -/

/-- An operation has nothing left to do. -/
structure Resolved (c : Context) (s : Solver) (op : NodeId) (kind : OpKind) : Prop where
  found : ∀ n, Finds c s op n → accepts c.project.program s.graph ⟨op, .result⟩ n = true → n ∈ s.results op
  root : kind = .setRoot → ∀ w ∈ s.receiversWhere op (·.isWindow), ∀ v ∈ s.widgetParameters op, v ∈ s.rootsOf w
  child : kind = .addChild → ∀ parent ∈ s.receivers op, ∀ child ∈ s.widgetParameters op,
    Arc.mk child parent ∈ s.graph.containment ∨
    Arc.mk child parent ∈ s.rejected ∧ ∃ v, s.graph.nest child parent = .error v
  id : kind = .setId → ∀ i ∈ s.orderedIds op, ∀ n ∈ s.receivers op, (s.graph.node? n).any (·.id.isSome) = true
  text : kind = .setText → ∀ n ∈ s.receivers op, ∀ d ∈ s.parameterSources op isText,
    (s.graph.node? n).any (d ∈ ·.texts) = true
  drawable : kind = .setImage → ∀ n ∈ s.receivers op, ∀ d ∈ s.parameterSources op isDrawable,
    (s.graph.node? n).any (d ∈ ·.drawables) = true

theorem Resolved.congr {kind : OpKind} (h : Resolved c s op kind) (hst : s.Same t) (hle : s.Le t) :
    Resolved c t op kind where
  found n hf ha := by
    rw [hst.graph] at ha
    rw [results, hst.solution]
    exact h.found n (hst.symm.finds hf) ha
  root hk := by
    rw [hst.receiversWhere, hst.widgetParameters]
    intro w hw v hv
    rw [hst.roots]
    exact h.root hk w hw v hv
  child hk := by
    rw [hst.receivers, hst.widgetParameters, hst.graph]
    intro parent hp child hc
    exact (h.child hk parent hp child hc).imp_right fun hr => ⟨hle.rejected _ hr.1, hr.2⟩
  id hk := by
    rw [hst.orderedIds, hst.receivers, hst.graph]
    exact h.id hk
  text hk := by
    rw [hst.receivers, hst.parameterSources, hst.graph]
    exact h.text hk
  drawable hk := by
    rw [hst.receivers, hst.parameterSources, hst.graph]
    exact h.drawable hk

/-! ### Look-ups -/

/-- A look-up that adds what it finds. -/
theorem find_does {objects : List NodeId} {o : Op} (ho : s.graph.op? op = some o)
    (h : ∀ n, n ∈ objects ↔ Finds c s op n) :
    Does (Steps c .resolve) c s (addFitting op .result objects) fun b t => Reports b s t ∧
      (b = false → ∀ n, Finds c t op n → accepts c.project.program t.graph ⟨op, .result⟩ n = true → n ∈ t.results op) := by
  refine (addFitting_does (Graph.op?_lt ho) (.single (.find (fun n hn => ?_) (Graph.isOp_of_op? ho)))).imp fun b t _ hb =>
    ⟨hb.1, fun hf n hn ha => hb.2 n ((h n).mpr ((hb.1.same hf).symm.finds hn)) ha⟩
  obtain ⟨hn, ha⟩ := List.mem_filter.mp hn
  exact ⟨ha, (h n).mp hn⟩

section Finds

variable {o : Op} (ho : s.graph.op? op = some o)
include ho

theorem finds_view {q : FindQuery} (hk : o.kind = .findView q) :
    n ∈ (s.receivers op).toList.flatMap (foundBelow s.graph (s.idsOf op) q) ↔ Finds c s op n := by
  simp only [List.mem_flatMap, ExtTreeSet.mem_toList]
  constructor
  · exact fun ⟨r, hr, hn⟩ => .view ho hk hr hn
  · intro hf
    cases hf with
    | view ho' hk' hr hn =>
      obtain rfl := Option.some.inj (ho.symm.trans ho')
      cases hk.symm.trans hk'
      exact ⟨_, hr, hn⟩
    | window ho' hk' | navigation ho' hk' =>
      obtain rfl := Option.some.inj (ho.symm.trans ho')
      cases hk.symm.trans hk'

theorem finds_window (hk : o.kind = .findInWindow) :
    n ∈ (s.receivers op).toList.flatMap
      (s.foundIn (s.idsOf op) (asksForContent c.project.resources s.graph (s.idsOf op))) ↔ Finds c s op n := by
  simp only [List.mem_flatMap, ExtTreeSet.mem_toList]
  constructor
  · exact fun ⟨w, hw, hn⟩ => .window ho hk hw hn
  · intro hf
    cases hf with
    | window ho' hk' hw hn => exact ⟨_, hw, hn⟩
    | view ho' hk' | navigation ho' hk' =>
      obtain rfl := Option.some.inj (ho.symm.trans ho')
      cases hk.symm.trans hk'

theorem finds_navigation {d : Navigation} (hk : o.kind = .navigate d) :
    n ∈ (s.receivers op).toList.flatMap (navigated s.graph d) ↔ Finds c s op n := by
  simp only [List.mem_flatMap, ExtTreeSet.mem_toList]
  constructor
  · exact fun ⟨r, hr, hn⟩ => .navigation ho hk hr hn
  · intro hf
    cases hf with
    | navigation ho' hk' hr hn =>
      obtain rfl := Option.some.inj (ho.symm.trans ho')
      cases hk.symm.trans hk'
      exact ⟨_, hr, hn⟩
    | view ho' hk' | window ho' hk' =>
      obtain rfl := Option.some.inj (ho.symm.trans ho')
      cases hk.symm.trans hk'

/-- Only look-ups find something. -/
theorem not_finds (h : o.kind.tag ≠ .findView ∧ o.kind.tag ≠ .findInWindow ∧ o.kind.tag ≠ .navigate) :
    ¬Finds c s op n := by
  intro hf
  cases hf with
  | view ho' hk' | window ho' hk' | navigation ho' hk' =>
    obtain rfl := Option.some.inj (ho.symm.trans ho')
    rw [hk'] at h
    simp [OpKind.tag] at h

end Finds

/-! ### Windows -/

/-- Views that are there already change nothing. -/
theorem same_addRoots {vs : List NodeId} (h : ∀ v ∈ vs, v ∈ s.rootsOf w) : s.Same (s.addRoots w vs) := by
  refine ⟨rfl, rfl, rfl, rfl, fun _ _ => rfl, fun w' => ExtTreeSet.ext_mem fun n => ?_⟩
  rw [mem_rootsOf_addRoots]
  constructor
  · rintro (⟨rfl, hn⟩ | hn)
    · exact h n hn
    · exact hn
  · exact .inr

theorem lt_of_object?_any {g : Graph} {k : Obj → Bool} (h : (g.object? n).any k = true) : n < g.size := by
  obtain ⟨o, ho, _⟩ := (Option.any_eq_true _ _).mp h
  exact Graph.object?_lt ho

theorem resolveSetRoot_does {o : Op} (ho : s.graph.op? op = some o) (hk : o.kind = .setRoot) :
    Does (Steps c .resolve) c s (resolveSetRoot op) fun b t => Reports b s t ∧
      (b = false → ∀ w ∈ t.receiversWhere op (·.isWindow), ∀ v ∈ t.widgetParameters op, v ∈ t.rootsOf w) := by
  unfold resolveSetRoot
  refine .read rfl ?_
  refine (Does.sweep reporting_steps (C := fun w t => ∀ v ∈ s.widgetParameters op, v ∈ t.rootsOf w)
    (fun w t u h _ hC v hv => (Steps.le h).roots _ _ (hC v hv)) fun w hw t h => ?_).imp fun b t _ hb =>
    ⟨hb.1, fun hf => ?_⟩
  · have hw := (Steps.le h).receiversWhere Obj.blind_isWindow hw
    have hvs : ∀ v ∈ s.widgetParameters op, v ∈ t.widgetParameters op := fun v hv => (Steps.le h).widgetParameters hv
    refine .of_run rfl (.single (.root (((Steps.le h).op? op).trans ho) hk hw hvs))
      ⟨⟨fun hb => ?_, fun hb => ?_⟩, fun _ v hv => mem_rootsOf_addRoots.mpr (.inl ⟨rfl, hv⟩)⟩
    · obtain ⟨v, hv, hnew⟩ := List.any_eq_true.mp hb
      refine ⟨w, v, .root, lt_of_object?_any (mem_receiversWhere.mp hw).2,
        lt_of_object?_any (mem_widgetParameters.mp (hvs v hv)).2, ?_, ?_⟩
      · exact decide_eq_true (mem_rootsOf_addRoots.mpr (.inl ⟨rfl, hv⟩))
      · refine decide_eq_false fun hm => ?_
        rw [ExtTreeSet.contains_iff_mem.mpr hm] at hnew
        cases hnew
    · refine same_addRoots fun v hv => ?_
      have := List.any_eq_false.mp hb v hv
      rw [Bool.not_eq_true', Bool.not_eq_false] at this
      exact ExtTreeSet.contains_iff_mem.mp this
  · rw [(hb.1.same hf).receiversWhere, (hb.1.same hf).widgetParameters]
    exact hb.2 hf

/-! ### Containment -/

/-- What comes of putting one node into another. A refusal is reported once, which ends a strict solver. -/
theorem attach_tries {R E : Solver → Solver → Prop} {child parent : NodeId} (hrefl : R s s)
    (hok : ∀ g added, s.graph.nest child parent = .ok (g, added) → R s (s.setGraph g))
    (hnote : ∀ log, c.settings.strict = false →
      R s { s with log := log, rejected := s.rejected.insert ⟨child, parent⟩ })
    (herror : ∀ v u, c.settings.strict = true → s.graph.nest child parent = .error v → E s u) :
    Tries R E c s (attach op child parent) fun b t =>
      (∃ g, s.graph.nest child parent = .ok (g, b) ∧ t = s.setGraph g) ∨
      (b = false ∧ (∃ v, s.graph.nest child parent = .error v) ∧ Arc.mk child parent ∈ t.rejected ∧
        ∃ log rejected, t = { s with log := log, rejected := rejected }) := by
  unfold attach
  refine .read rfl ?_
  cases hn : s.graph.nest child parent with
  | ok result =>
    obtain ⟨g, added⟩ := result
    exact .of_ok rfl (hok g added hn) (.inl ⟨g, rfl, rfl⟩)
  | error v =>
    dsimp only
    split
    · rename_i hm
      exact .of_ok rfl hrefl (.inr ⟨rfl, ⟨v, rfl⟩, hm, s.log, s.rejected, rfl⟩)
    · have hset : (set { s with rejected := s.rejected.insert ⟨child, parent⟩ } : Solve Unit) c s
          = (.ok (), { s with rejected := s.rejected.insert ⟨child, parent⟩ }) := rfl
      cases hstrict : c.settings.strict with
      | true =>
        exact .of_error ((bind_run_ok hset).trans (bind_run_error (report_strict hstrict))) hrefl
          (herror v _ hstrict hn)
      | false =>
        exact .of_ok ((bind_run_ok hset).trans (bind_run_ok (report_lenient hstrict))) (hnote _ hstrict)
          (.inr ⟨rfl, ⟨v, rfl⟩, Container.mem_insert.mpr (.inl rfl), _, _, rfl⟩)

theorem reject_step {log : List Log.Entry} {a : Arc} (h : c.settings.strict = false) (ha : s.graph.Spans a) :
    Step c p s { s with log := log, rejected := s.rejected.insert a } := by
  refine .note rfl (by rw [h]; nofun) ⟨fun _ h => h, fun _ h => Container.mem_insert.mpr (.inr h)⟩
    ⟨fun _ h => .inl h, fun b hb => ?_⟩
  exact (Container.mem_insert.mp hb).elim (fun hb => .inr (hb ▸ ha)) .inl

theorem resolveAddChild_tries {o : Op} (hs : Inv c s) (ho : s.graph.op? op = some o) (hk : o.kind = .addChild) :
    Tries (Steps c .resolve) (Fails c) c s (resolveAddChild op) fun b t => Reports b s t ∧
      (b = false → ∀ parent ∈ t.receivers op, ∀ child ∈ t.widgetParameters op,
        Arc.mk child parent ∈ t.graph.containment ∨
        Arc.mk child parent ∈ t.rejected ∧ ∃ v, t.graph.nest child parent = .error v) := by
  unfold resolveAddChild
  refine .read rfl ?_
  -- what is left behind by each pair
  let C (parent child : NodeId) (t : Solver) : Prop := Arc.mk child parent ∈ t.graph.containment ∨
    Arc.mk child parent ∈ t.rejected ∧ ∃ v, t.graph.nest child parent = .error v
  have hC : ∀ parent child t u, Steps c .resolve t u → Reports false t u → C parent child t → C parent child u := by
    intro parent child t u h hsame hC
    have hg := (hsame.same rfl).graph
    show Arc.mk child parent ∈ u.graph.containment ∨ _
    rw [hg]
    exact hC.imp_right fun hr => ⟨(Steps.le h).rejected _ hr.1, hr.2⟩
  refine (Tries.sweep reporting_steps (C := fun parent t => ∀ child ∈ s.widgetParameters op, C parent child t)
    (fun parent t u h hf hall child hc => hC parent child t u h hf (hall child hc)) fun parent hp t h => ?_).imp
    fun b t _ hb => ⟨hb.1, fun hf => ?_⟩
  · refine Tries.sweep reporting_steps (C := C parent) (fun child => hC parent child) fun child hc t₁ h₁ => ?_
    have hle := Steps.le (h.trans h₁)
    have hs₁ := Steps.inv hs (h.trans h₁)
    have hp := hle.receivers (ExtTreeSet.mem_toList.mp hp)
    have hc := hle.widgetParameters hc
    have ho₁ := (hle.op? op).trans ho
    refine (attach_tries .refl (fun g added hn => .single (.nest ho₁ hk hc hp hn))
      (fun _ hstrict => .single (reject_step hstrict (hs₁.spans hc hp)))
      fun v u hstrict hn => ⟨hstrict, .containment ho₁ hk hc hp hn⟩).imp fun b t₂ _ ht₂ => ?_
    rcases ht₂ with ⟨g, hn, rfl⟩ | ⟨rfl, hv, hm, log, rejected, rfl⟩
    · rcases Graph.nest_ok hn with ⟨rfl, rfl, hm⟩ | ⟨rfl, rfl, hm, _⟩
      · exact ⟨⟨nofun, fun _ => .refl _⟩, fun _ => .inl hm⟩
      · refine ⟨⟨fun _ => ⟨child, parent, .child, ?_, hs₁.solution_lt hp, ?_, ?_⟩, nofun⟩, nofun⟩
        · exact lt_of_object?_any (mem_widgetParameters.mp hc).2
        · exact decide_eq_true (Container.mem_insert.mpr (.inl rfl))
        · exact decide_eq_false hm
    · exact ⟨⟨nofun, fun _ => ⟨rfl, rfl, rfl, rfl, fun _ _ => rfl, fun _ => rfl⟩⟩, fun _ => .inr ⟨hm, hv⟩⟩
  · rw [(hb.1.same hf).receivers, (hb.1.same hf).widgetParameters]
    exact fun parent hp child hc => hb.2 hf parent (ExtTreeSet.mem_toList.mpr hp) child hc

/-! ### Attributes -/

end Solver

theorem Graph.modify_eq_self {g : Graph} {n : NodeId} {f : Node → Node} (h : ∀ a, g.node? n = some a → f a = a) :
    g.modify n f = g := by
  have hnodes : g.nodes.modify n f = g.nodes := by
    refine Array.ext_getElem? fun m => ?_
    have := Graph.node?_modify (g := g) (n := n) (m := m) (f := f)
    refine this.trans ?_
    split
    · rename_i he
      subst he
      show (g.node? n).map f = g.node? n
      cases ha : g.node? n with
      | none => rfl
      | some a => exact congrArg some (h a ha)
    · rfl
  rw [Graph.modify, hnodes]

namespace Solver

variable {s t u : Solver} {c : Context} {op n m l w v r : NodeId} {x : Operand} {slot : Slot} {p : Phase}

theorem resolveSetId_does {o : Op} (hs : Inv c s) (ho : s.graph.op? op = some o) (hk : o.kind = .setId) :
    Does (Steps c .resolve) c s (resolveSetId op) fun b t => Reports b s t ∧
      (b = false → ∀ i ∈ t.orderedIds op, ∀ n ∈ t.receivers op, (t.graph.node? n).any (·.id.isSome) = true) := by
  unfold resolveSetId
  refine .read rfl ?_
  split
  · rename_i hnil
    refine .pure ⟨.refl s, fun _ i hi => ?_⟩
    rw [hnil] at hi
    cases hi
  · rename_i id more hids
    have hid : id ∈ s.orderedIds op := by rw [hids]; exact List.mem_cons_self
    obtain ⟨_, _, hid?, _⟩ := hs.ids op id (mem_orderedIds.mp hid).1
    refine .bind (Does.sweep reporting_steps (C := fun n t => (t.graph.node? n).any (·.id.isSome) = true) ?_
      fun n hn t h => ?_) fun b t h hb => ?_
    · intro n t u h _ hC
      refine (Steps.le h).node_any (fun d e hde hd => ?_) hC
      obtain ⟨i, hi⟩ := Option.isSome_iff_exists.mp hd
      exact Option.isSome_iff_exists.mpr ⟨i, hde.id i hi⟩
    · have hle := Steps.le h
      have hn := hle.receivers (ExtTreeSet.mem_toList.mp hn)
      have hlt := (Steps.inv hs h).solution_lt hn
      obtain ⟨a, ha⟩ := Graph.exists_node? hlt
      unfold bindId
      refine .read rfl ?_
      split
      · rename_i hnone
        refine .of_run rfl (.single (.bindId ((hle.op? op).trans ho) hk hn (hle.orderedIds hid) hnone))
          ⟨⟨fun _ => ⟨n, id, .id, ?_, ?_, ?_, ?_⟩, nofun⟩, nofun⟩
        · exact (Graph.size_modify (g := t.graph)).symm ▸ hlt
        · exact (Graph.size_modify (g := t.graph)).symm ▸ Graph.id?_lt (hle.graph.toExtends.id? hid?)
        · show ((t.graph.modify n _).node? n).any _ = true
          rw [Graph.node?_modify, if_pos rfl, ha]
          simp
        · show (t.graph.node? n).any _ = false
          rw [ha] at hnone ⊢
          simp only [Option.any_some, Option.isNone_iff_eq_none] at hnone
          simp [hnone]
      · rename_i hsome
        refine .pure ⟨.refl t, fun _ => ?_⟩
        rw [ha] at hsome ⊢
        exact Option.isSome_iff_ne_none.mpr (by simpa using hsome)
    · have hpost : Reports b s t ∧ (b = false → ∀ i ∈ t.orderedIds op, ∀ n ∈ t.receivers op,
          (t.graph.node? n).any (·.id.isSome) = true) := by
        refine ⟨hb.1, fun hf i _ n hn => ?_⟩
        rw [(hb.1.same hf).receivers] at hn
        exact hb.2 hf n (ExtTreeSet.mem_toList.mpr hn)
      dsimp only
      split
      · rename_i hchanged
        refine .bind logEntry_does fun _ t₁ h₁ hsame => .pure ?_
        obtain ⟨rfl, _⟩ := Bool.and_eq_true_iff.mp hchanged
        exact ⟨⟨fun _ => (hpost.1.new rfl).mono_right (Steps.le h₁), nofun⟩, nofun⟩
      · exact .pure hpost

/-- The texts or the drawables of receivers. `f` is what an attribute holds and `put` adds to it. -/
theorem addAttributes_does {f : Node → NodeSet} {put : Node → Node} {ds : List NodeId} {k : FactKind}
    (hput : ∀ a, f (put a) = (f a).insertMany ds) (hself : ∀ a, (∀ d ∈ ds, d ∈ f a) → put a = a)
    (hfact : ∀ (t : Solver) n d, t.holds n d k = (t.graph.node? n).any fun a => decide (d ∈ f a))
    (hds : ∀ d ∈ ds, d < s.graph.size) (hs : Inv c s)
    (hstep : ∀ t, Steps c .resolve s t → ∀ n ∈ s.receivers op,
      Steps c .resolve t (t.setGraph (t.graph.modify n put))) :
    Does (Steps c .resolve) c s
      (sweep (fun n => do
        let before := (((← getGraph).node? n).map f).getD ∅
        updateNode n put
        return ds.any fun d => !before.contains d) (s.receivers op).toList)
      fun b t => Reports b s t ∧
        (b = false → ∀ n ∈ t.receivers op, ∀ d ∈ ds, (t.graph.node? n).any (fun a => decide (d ∈ f a)) = true) := by
  refine (Does.sweep reporting_steps
    (C := fun n t => ∀ d ∈ ds, (t.graph.node? n).any (fun a => decide (d ∈ f a)) = true) ?_
    fun n hn t h => ?_).imp fun b t _ hb => ⟨hb.1, fun hf n hn => ?_⟩
  · intro n t u h _ hC d hd
    rw [← hfact]
    exact (Steps.le h).holds (by rw [hfact]; exact hC d hd)
  · have hn := ExtTreeSet.mem_toList.mp hn
    have hlt := (Steps.inv hs h).solution_lt ((Steps.le h).receivers hn)
    obtain ⟨a, ha⟩ := Graph.exists_node? hlt
    refine .of_run rfl (hstep t h n hn) ⟨⟨fun hb => ?_, fun hb => ?_⟩, fun _ d hd => ?_⟩
    · obtain ⟨d, hd, hnew⟩ := List.any_eq_true.mp hb
      refine ⟨n, d, k, ?_, ?_, ?_, ?_⟩
      · exact (Graph.size_modify (g := t.graph)).symm ▸ hlt
      · exact (Graph.size_modify (g := t.graph)).symm ▸ (Steps.le h).graph.toExtends.lt (hds d hd)
      · rw [hfact]
        show ((t.graph.modify n put).node? n).any _ = true
        rw [Graph.node?_modify, if_pos rfl, ha]
        simp only [Option.map_some, Option.any_some, hput]
        exact decide_eq_true (Container.mem_insertMany.mpr (.inr hd))
      · rw [hfact, ha]
        refine decide_eq_false fun hm => ?_
        have hnew : (!((((t.graph.node? n).map f).getD ∅).contains d)) = true := hnew
        rw [ha, Option.map_some, Option.getD_some, ExtTreeSet.contains_iff_mem.mpr hm] at hnew
        cases hnew
    · have hall : ∀ d ∈ ds, d ∈ f a := by
        intro d hd
        have hb : (ds.any fun d => !((((t.graph.node? n).map f).getD ∅).contains d)) = false := hb
        have := List.any_eq_false.mp hb d hd
        rw [ha, Bool.not_eq_true', Bool.not_eq_false] at this
        exact ExtTreeSet.contains_iff_mem.mp this
      refine ⟨?_, rfl, rfl, rfl, fun _ _ => rfl, fun _ => rfl⟩
      refine Graph.modify_eq_self fun b hb => hself b ?_
      obtain rfl : a = b := Option.some.inj (ha.symm.trans hb)
      exact hall
    · show ((t.graph.modify n put).node? n).any _ = true
      rw [Graph.node?_modify, if_pos rfl, ha]
      simp only [Option.map_some, Option.any_some, hput]
      exact decide_eq_true (Container.mem_insertMany.mpr (.inr hd))
  · rw [(hb.1.same hf).receivers] at hn
    exact hb.2 hf n (ExtTreeSet.mem_toList.mpr hn)

theorem insertMany_eq_self {a : NodeSet} {ds : List NodeId} (h : ∀ d ∈ ds, d ∈ a) : a.insertMany ds = a :=
  ExtTreeSet.ext_mem fun d => Container.mem_insertMany.trans (or_iff_left_of_imp (h d))

theorem resolveSetText_does {o : Op} (hs : Inv c s) (ho : s.graph.op? op = some o) (hk : o.kind = .setText) :
    Does (Steps c .resolve) c s (resolveSetText op) fun b t => Reports b s t ∧
      (b = false → ∀ n ∈ t.receivers op, ∀ d ∈ t.parameterSources op isText,
        (t.graph.node? n).any (d ∈ ·.texts) = true) := by
  unfold resolveSetText
  refine .read rfl ?_
  refine (addAttributes_does (f := Node.texts) (k := .text) (fun _ => rfl) (fun a h => ?_) (fun _ _ _ => rfl)
    (fun d hd => lt_of_mem_parameterSources hd) hs fun t h n hn => ?_).imp fun b t _ hb => ⟨hb.1, fun hf => ?_⟩
  · exact congrArg (fun texts => { a with texts := texts }) (insertMany_eq_self h)
  · have hle := Steps.le h
    exact .single (.texts ((hle.op? op).trans ho) hk (hle.receivers hn) fun d hd => hle.parameterSources isText_alike hd)
  · rw [(hb.1.same hf).parameterSources]
    exact hb.2 hf

theorem resolveSetImage_does {o : Op} (hs : Inv c s) (ho : s.graph.op? op = some o) (hk : o.kind = .setImage) :
    Does (Steps c .resolve) c s (resolveSetImage op) fun b t => Reports b s t ∧
      (b = false → ∀ n ∈ t.receivers op, ∀ d ∈ t.parameterSources op isDrawable,
        (t.graph.node? n).any (d ∈ ·.drawables) = true) := by
  unfold resolveSetImage
  refine .read rfl ?_
  refine (addAttributes_does (f := Node.drawables) (k := .drawable) (fun _ => rfl) (fun a h => ?_) (fun _ _ _ => rfl)
    (fun d hd => lt_of_mem_parameterSources hd) hs fun t h n hn => ?_).imp fun b t _ hb => ⟨hb.1, fun hf => ?_⟩
  · exact congrArg (fun drawables => { a with drawables := drawables }) (insertMany_eq_self h)
  · have hle := Steps.le h
    exact .single (.drawables ((hle.op? op).trans ho) hk (hle.receivers hn) fun d hd =>
      hle.parameterSources isDrawable_alike hd)
  · rw [(hb.1.same hf).parameterSources]
    exact hb.2 hf

/-! ### All rules -/

theorem resolve_tries {o : Op} (hs : Inv c s) (ho : s.graph.op? op = some o) :
    Tries (Steps c .resolve) (Fails c) c s (resolve op) fun b t =>
      Reports b s t ∧ (b = false → Resolved c t op o.kind) := by
  -- an operation that is no look-up finds nothing, now or later
  have hno : (o.kind.tag ≠ .findView ∧ o.kind.tag ≠ .findInWindow ∧ o.kind.tag ≠ .navigate) →
      ∀ {t}, Steps c .resolve s t → ∀ n, Finds c t op n →
        accepts c.project.program t.graph ⟨op, .result⟩ n = true → n ∈ t.results op :=
    fun h _ hst n hf => absurd hf (not_finds (((Steps.le hst).op? op).trans ho) h)
  unfold resolve
  refine .read (a := s.graph) rfl ?_
  simp only [ho]
  have hother : ∀ {kind : OpKind}, (kind ≠ .setRoot ∧ kind ≠ .addChild ∧ kind ≠ .setId ∧ kind ≠ .setText ∧
      kind ≠ .setImage) → ∀ {t : Solver},
      (∀ n, Finds c t op n → accepts c.project.program t.graph ⟨op, .result⟩ n = true → n ∈ t.results op) →
      Resolved c t op kind := fun h _ hf =>
    ⟨hf, fun hk => absurd hk h.1, fun hk => absurd hk h.2.1, fun hk => absurd hk h.2.2.1,
      fun hk => absurd hk h.2.2.2.1, fun hk => absurd hk h.2.2.2.2⟩
  split
  · rename_i q hk
    rw [hk]
    unfold resolveFindView
    refine .lift (.read rfl ((find_does ho fun n => finds_view ho hk).imp fun b t _ hb => ⟨hb.1, fun hf => ?_⟩))
    exact hother (by simp) (hb.2 hf)
  · rename_i hk
    rw [hk]
    unfold resolveFindInWindow
    refine .lift (.read rfl (.read rfl ((find_does ho fun n => finds_window ho hk).imp
      fun b t _ hb => ⟨hb.1, fun hf => ?_⟩)))
    exact hother (by simp) (hb.2 hf)
  · rename_i d hk
    rw [hk]
    unfold resolveNavigate
    refine .lift (.read rfl ((find_does ho fun n => finds_navigation ho hk).imp fun b t _ hb => ⟨hb.1, fun hf => ?_⟩))
    exact hother (by simp) (hb.2 hf)
  · rename_i hk
    rw [hk] at hno ⊢
    refine .lift ((resolveSetRoot_does ho hk).imp fun b t h hb => ⟨hb.1, fun hf => ?_⟩)
    exact ⟨hno (by simp [OpKind.tag]) h, fun _ => hb.2 hf, by simp, by simp, by simp, by simp⟩
  · rename_i hk
    rw [hk] at hno ⊢
    refine (resolveAddChild_tries hs ho hk).imp fun b t h hb => ⟨hb.1, fun hf => ?_⟩
    exact ⟨hno (by simp [OpKind.tag]) h, by simp, fun _ => hb.2 hf, by simp, by simp, by simp⟩
  · rename_i hk
    rw [hk] at hno ⊢
    refine .lift ((resolveSetId_does hs ho hk).imp fun b t h hb => ⟨hb.1, fun hf => ?_⟩)
    exact ⟨hno (by simp [OpKind.tag]) h, by simp, by simp, fun _ => hb.2 hf, by simp, by simp⟩
  · rename_i hk
    rw [hk] at hno ⊢
    refine .lift ((resolveSetText_does hs ho hk).imp fun b t h hb => ⟨hb.1, fun hf => ?_⟩)
    exact ⟨hno (by simp [OpKind.tag]) h, by simp, by simp, by simp, fun _ => hb.2 hf, by simp⟩
  · rename_i hk
    rw [hk] at hno ⊢
    refine .lift ((resolveSetImage_does hs ho hk).imp fun b t h hb => ⟨hb.1, fun hf => ?_⟩)
    exact ⟨hno (by simp [OpKind.tag]) h, by simp, by simp, by simp, by simp, fun _ => hb.2 hf⟩
  all_goals
    rename_i hk
    rw [hk] at hno ⊢
    exact .pure ⟨.refl s, fun _ => hother (by simp) (hno (by simp [OpKind.tag]) .refl)⟩

/-- The operations of a kind have nothing left to do. -/
def AllResolved (c : Context) (s : Solver) (tag : OpTag) : Prop :=
  ∀ op o, s.graph.op? op = some o → o.kind.tag = tag → Resolved c s op o.kind

theorem AllResolved.congr {tag : OpTag} (h : AllResolved c s tag) (hst : s.Same t) (hle : s.Le t) :
    AllResolved c t tag := by
  intro op o ho htag
  rw [hst.graph] at ho
  exact (h op o ho htag).congr hst hle

theorem resolveAll_tries {tag : OpTag} (hs : Inv c s) :
    Tries (Steps c .resolve) (Fails c) c s (resolveAll tag) fun b t =>
      Reports b s t ∧ (b = false → Propagated c t ∧ AllResolved c t tag) := by
  unfold resolveAll
  refine .read rfl ?_
  refine .bind (Tries.sweep reporting_steps (C := fun op t => ∀ o, t.graph.op? op = some o → Resolved c t op o.kind) ?_
    fun op hop t h => ?_) fun b t h hb => ?_
  · intro op t u h hsame hC o ho
    rw [(hsame.same rfl).graph] at ho
    exact (hC o ho).congr (hsame.same rfl) (Steps.le h)
  · obtain ⟨o, ho, _⟩ := Graph.mem_operations.mp hop
    have ho' := ((Steps.le h).op? op).trans ho
    refine (resolve_tries (Steps.inv hs h) ho').imp fun b u hu hb => ⟨hb.1, fun hf o' ho₂ => ?_⟩
    rw [(Steps.le hu).op?, ho'] at ho₂
    exact Option.some.inj ho₂ ▸ hb.2 hf
  · refine .liftBind (propagate_does (Steps.inv hs h)) fun b' t' h' hb' => .pure ⟨?_, fun hf => ?_⟩
    · exact reporting_steps.or h h' hb.1 hb'.1
    · obtain ⟨rfl, rfl⟩ := Bool.or_eq_false_iff.mp hf
      refine ⟨hb'.2 rfl, AllResolved.congr (fun op o ho htag => ?_) (hb'.1.same rfl) (Steps.le h')⟩
      refine hb.2 rfl op (Graph.mem_operations.mpr ⟨o, ?_, htag⟩) o ho
      rw [← (Steps.le h).op?]
      exact ho

/-! ## Registrations -/

/-- Every view and listener of a registration was dispatched. -/
def Dispatched (s : Solver) : Prop :=
  ∀ op, ∀ view ∈ s.receivers op, ∀ listener ∈ s.listenersOf op,
    op ∈ s.flowgraph.listeners.modelled ∨ (op, view, listener) ∈ s.flowgraph.listeners.dispatched

theorem Dispatched.of_same (h : s.Dispatched) (hst : s.Same t) (hle : s.Le t) : t.Dispatched := by
  intro op view hv listener hl
  rw [hst.receivers] at hv
  rw [hst.listenersOf] at hl
  rw [hle.modelled]
  exact (h op view hv listener hl).imp_right (hle.dispatched _)

theorem dispatch_tries {view listener : NodeId} (hs : Inv c s) (hv : view ∈ s.receivers op)
    (hl : listener ∈ s.listenersOf op) :
    Tries (Steps c .dispatch) (Fails c) c s (onBuild (Flowgraph.dispatch op view listener)) fun b t =>
      Reports b s t ∧
        (op ∈ t.flowgraph.listeners.modelled ∨ (op, view, listener) ∈ t.flowgraph.listeners.dispatched) := by
  by_cases hskip : op ∈ s.flowgraph.listeners.modelled ∨ (op, view, listener) ∈ s.flowgraph.listeners.dispatched
  · have hrun : onBuild (Flowgraph.dispatch op view listener) c s = (.ok false, s) := by
      show (let (a, f) := Flowgraph.dispatch op view listener c s.flowgraph; (a, { s with flowgraph := f })) = _
      rw [dispatch_skip hskip]
    exact .of_ok hrun .refl ⟨.refl s, hskip⟩
  · rw [not_or] at hskip
    obtain ⟨o, hop, _⟩ := (Option.any_eq_true _ _).mp (mem_listenersOf.mp hl).1
    have hd := Flowgraph.dispatch_tries (c := c) Context.allFormals hs.valid (Graph.op?_lt hop) (hs.solution_lt hv)
      (hs.solution_lt (mem_listenersOf.mp hl).2) hskip.1 hskip.2
    rcases hrun : Flowgraph.dispatch op view listener c s.flowgraph with ⟨e | b, f⟩
    · have hrun' : onBuild (Flowgraph.dispatch op view listener) c s = (.error e, { s with flowgraph := f }) := by
        show (let (a, f) := Flowgraph.dispatch op view listener c s.flowgraph; (a, { s with flowgraph := f })) = _
        rw [hrun]
      obtain ⟨_, _, hstrict, _⟩ := hd.error hrun
      exact .of_error hrun' .refl ⟨hstrict, .dispatch hv hl hskip.1 hskip.2⟩
    · have hrun' : onBuild (Flowgraph.dispatch op view listener) c s = (.ok b, { s with flowgraph := f }) := by
        show (let (a, f) := Flowgraph.dispatch op view listener c s.flowgraph; (a, { s with flowgraph := f })) = _
        rw [hrun]
      obtain ⟨hedits, hrep, hserved⟩ := hd.ok hrun
      have hstep : Step c .dispatch s { s with flowgraph := f } := .dispatch hv hl hskip.1 hskip.2 hedits hserved
      refine .of_ok hrun' (.single hstep) ⟨⟨fun hb => ?_, fun hb => ?_⟩, .inr ?_⟩
      · obtain ⟨⟨a, b⟩, hin, hnew⟩ := hrep.new hb
        obtain ⟨ha, hb⟩ := (hstep.inv hs).valid.closed.flow _ hin
        exact ⟨a, b, .flow, ha, hb, decide_eq_true hin, decide_eq_false hnew⟩
      · exact ⟨hrep.same hb, rfl, rfl, rfl, fun _ _ => rfl, fun _ => rfl⟩
      · rw [hedits.dispatched]
        exact List.mem_append_right _ (List.mem_singleton.mpr rfl)

theorem resolveSetListener_tries (hs : Inv c s) :
    Tries (Steps c .dispatch) (Fails c) c s (resolveSetListener op) fun b t => Reports b s t ∧
      (b = false → ∀ view ∈ t.receivers op, ∀ listener ∈ t.listenersOf op,
        op ∈ t.flowgraph.listeners.modelled ∨ (op, view, listener) ∈ t.flowgraph.listeners.dispatched) := by
  unfold resolveSetListener
  refine .read rfl ?_
  let C (view listener : NodeId) (t : Solver) : Prop :=
    op ∈ t.flowgraph.listeners.modelled ∨ (op, view, listener) ∈ t.flowgraph.listeners.dispatched
  have hC : ∀ view listener t u, Steps c .dispatch t u → Reports false t u → C view listener t → C view listener u := by
    intro view listener t u h _ hC
    show op ∈ u.flowgraph.listeners.modelled ∨ _
    rw [(Steps.le h).modelled]
    exact hC.imp_right ((Steps.le h).dispatched _)
  refine (Tries.sweep reporting_steps (C := fun view t => ∀ listener ∈ s.listenersOf op, C view listener t)
    (fun view t u h hf hall listener hl => hC view listener t u h hf (hall listener hl)) fun view hv t h => ?_).imp
    fun b t _ hb => ⟨hb.1, fun hf view hv listener hl => ?_⟩
  · refine (Tries.sweep reporting_steps (C := C view) (fun listener => hC view listener) fun listener hl t₁ h₁ => ?_).imp
      fun b t₁ _ hb => ⟨hb.1, fun hf listener hl => hb.2 hf listener (ExtTreeSet.mem_toList.mpr hl)⟩
    have hle := Steps.le (h.trans h₁)
    refine (dispatch_tries (Steps.inv hs (h.trans h₁)) (hle.receivers (ExtTreeSet.mem_toList.mp hv))
      (hle.listenersOf (ExtTreeSet.mem_toList.mp hl))).imp fun b t₂ _ hb => ⟨hb.1, fun _ => hb.2⟩
  · rw [(hb.1.same hf).receivers] at hv
    rw [(hb.1.same hf).listenersOf] at hl
    exact hb.2 hf view (ExtTreeSet.mem_toList.mpr hv) listener hl

end Solver

end WidgetFlow
