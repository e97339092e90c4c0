import WidgetFlow.Proofs.Passes
import WidgetFlow.Proofs.Repetition

/-!
# What inflations have made

Each inflation that a flowgraph remembers has made a copy of its template, and the copies do not share a widget. Apart from
the widgets that the construction makes for menus and allocations, there are no others (`Solver.Planted`). This holds of
every solver that callers can come to, on a flowgraph that was constructed or that solvers have worked on before, because
a step either leaves the widgets alone (`Solver.Rests`) or makes one more copy (`Solver.Makes`).

* `mem_containment_iff`: what is inside what, after an analysis;
* `inflate_refuses_nothing`: inflations succeed and put everything where its template has it;
* `origin_of_inflated`: which widgets have an origin, and which one.
-/

namespace WidgetFlow

open Std Relation

namespace Solver

variable {s t u : Solver} {c : Context} {b f : Flowgraph} {r : Resources} {n m child parent : NodeId} {p : Phase}
  {key : InflationKey} {root : Option NodeId} {w : InflationKey → Forest NodeId} {v : Forest NodeId}

/-! ## What a step does to widgets -/

/-- An operation puts a widget that reaches its parameter into one that reaches its receiver. -/
def Adds (s : Solver) (child parent : NodeId) : Prop :=
  ∃ op o, s.graph.op? op = some o ∧ o.kind = .addChild ∧ parent ∈ s.receivers op ∧ child ∈ s.widgetParameters op

theorem Adds.mono (h : s.Adds child parent) (hst : s.Le t) : t.Adds child parent := by
  obtain ⟨op, o, ho, hk, hp, hc⟩ := h
  exact ⟨op, o, (hst.op? op).trans ho, hk, hst.receivers hp, hst.widgetParameters hc⟩

/-- An operation adds a value that reaches its parameter to the texts or images of a node that reaches its receiver. -/
def Sets (s : Solver) (f : Facet) (n m : NodeId) : Prop :=
  ∃ op o, s.graph.op? op = some o ∧ o.kind = f.setter ∧ n ∈ s.receivers op ∧ m ∈ s.parameterSources op f.admits

theorem Sets.mono {f : Facet} (h : s.Sets f n m) (hst : s.Le t) : t.Sets f n m := by
  obtain ⟨op, o, ho, hk, hn, hm⟩ := h
  refine ⟨op, o, (hst.op? op).trans ho, hk, hst.receivers hn, hst.parameterSources ?_ hm⟩
  cases f with
  | text => exact isText_alike
  | image => exact isDrawable_alike

/-- No widget was made and nothing was inflated. Operations may have put one widget into another, or added texts and
images. -/
structure Rests (s t : Solver) : Prop where
  inflations : t.flowgraph.inflations = s.flowgraph.inflations
  origins : t.origins = s.origins
  isWidget : ∀ n, (t.graph.object? n).any (·.isWidget) = (s.graph.object? n).any (·.isWidget)
  contained : ∀ a ∈ t.graph.containment, a ∈ s.graph.containment ∨ t.Adds a.src a.dst
  values : ∀ (f : Facet) n, ∀ m ∈ f.values (t.graph.attributes n), m ∈ f.values (s.graph.attributes n) ∨ t.Sets f n m

theorem Rests.of_flowgraph (hf : t.flowgraph = s.flowgraph) (ho : t.origins = s.origins) : Rests s t := by
  have hg : t.graph = s.graph := congrArg Flowgraph.graph hf
  refine ⟨by rw [hf], ho, fun n => by rw [hg], fun a ha => .inl ?_, fun f n m hm => .inl ?_⟩
  · rw [hg] at ha
    exact ha
  · rw [hg] at hm
    exact hm

/-- A node was changed, but not its kind. -/
theorem Rests.of_modify {change : Node → Node} (hkind : ∀ a, (change a).kind = a.kind)
    (hvalues : ∀ (f : Facet) a, ∀ m ∈ f.values (change a).attributes, m ∈ f.values a.attributes ∨ s.Sets f n m)
    (hle : s.Le (s.setGraph (s.graph.modify n change))) : Rests s (s.setGraph (s.graph.modify n change)) where
  inflations := rfl
  origins := rfl
  isWidget _ := congrArg (Option.any _) (Graph.object?_modify fun a => by rw [hkind])
  contained _ ha := .inl ha
  values f k m hm := by
    rcases Facet.mem_values_modify hm with hm | ⟨rfl, a, ha, hm⟩
    · exact .inl hm
    · exact (hvalues f a m hm).imp (fun hm => Facet.mem_values_iff.mpr ⟨a, ha, hm⟩) (·.mono hle)

/-- The inflation `key` has made one more copy, the widgets `v`. -/
structure Makes (r : Resources) (key : InflationKey) (root : Option NodeId) (v : Forest NodeId) (s t : Solver) :
    Prop where
  new : s.flowgraph.inflations[key]? = none
  inflations : t.flowgraph.inflations = s.flowgraph.inflations.insert key root
  id : ∃ i, s.graph.id? key.id = some i
  kind : s.graph.isLayoutKey key = true ∨ s.graph.isMenuKey key = true
  top : s.graph.isLayoutKey key = true → root = v.top?
  grown : Grown r (key.op, key.id) (s.graph.parts r key) v (s.graph.arcsOf key v) s t

theorem Makes.mem_inflations {key' : InflationKey} (h : Makes r key root v s t) :
    key' ∈ t.flowgraph.inflations ↔ key' = key ∨ key' ∈ s.flowgraph.inflations := by
  rw [h.inflations, Container.key_mem_insert]

theorem Makes.ne {key' : InflationKey} (h : Makes r key root v s t) (hkey' : key' ∈ s.flowgraph.inflations) :
    key' ≠ key := by
  rintro rfl
  exact absurd h.new (Option.isSome_iff_ne_none.mp (ExtTreeMap.mem_iff_isSome_getElem?.mp hkey'))

/-- What holds of all copies afterwards holds of the new one, and of those before. -/
theorem Makes.forall_iff {P : InflationKey → Forest NodeId → Prop} (h : Makes r key root v s t) :
    (∀ key' ∈ t.flowgraph.inflations, P key' (Function.update w key v key')) ↔
      P key v ∧ ∀ key' ∈ s.flowgraph.inflations, P key' (w key') := by
  have hold : ∀ key' ∈ s.flowgraph.inflations, Function.update w key v key' = w key' :=
    fun key' hkey' => Function.update_of_ne (h.ne hkey') _ _
  simp only [h.mem_inflations, forall_eq_or_imp, Function.update_self]
  exact and_congr_right fun _ => forall₂_congr fun key' hkey' => by rw [hold key' hkey']

theorem Makes.exists_iff {P : InflationKey → Forest NodeId → Prop} (h : Makes r key root v s t) :
    (∃ key' ∈ t.flowgraph.inflations, P key' (Function.update w key v key')) ↔
      P key v ∨ ∃ key' ∈ s.flowgraph.inflations, P key' (w key') := by
  have hnot := h.forall_iff (w := w) (P := fun key' x => ¬P key' x)
  rw [← not_iff_not]
  push Not
  exact hnot

/-- **A step makes at most one more copy.** -/
theorem Step.rests_or_makes (hst : Step c p s t) :
    Rests s t ∨ ∃ key root v, Makes c.project.resources key root v s t := by
  have hle := hst.le
  cases hst with
  | note | settle | id | candidate | downstream | seed | propagate | find | root => exact .inl (.of_flowgraph rfl rfl)
  | nest ho hk hc hp hn =>
    refine .inl ⟨rfl, rfl, fun n => ?_, fun a ha => ?_, fun f n m hm => .inl ?_⟩
    · exact congrArg (Option.any _) (Graph.object?_nest hn)
    · rcases (Graph.mem_containment_nest hn).mp ha with ha | rfl
      · exact .inl ha
      · exact .inr (Adds.mono ⟨_, _, ho, hk, hp, hc⟩ hle)
    · exact Graph.attributes_of_nodes (Graph.nodes_nest hn) ▸ hm
  | bindId =>
    refine .inl (.of_modify (fun _ => rfl) (fun f a m hm => .inl ?_) hle)
    cases f with
    | text | image => exact hm
  | texts ho hk hn ht =>
    refine .inl (.of_modify (fun _ => rfl) (fun f a m hm => ?_) hle)
    cases f with
    | text => exact (Container.mem_insertMany.mp hm).imp_right fun hm => ⟨_, _, ho, hk, hn, ht m hm⟩
    | image => exact .inl hm
  | drawables ho hk hn hd =>
    refine .inl (.of_modify (fun _ => rfl) (fun f a m hm => ?_) hle)
    cases f with
    | text => exact .inl hm
    | image => exact (Container.mem_insertMany.mp hm).imp_right fun hm => ⟨_, _, ho, hk, hn, hd m hm⟩
  | dispatch _ _ _ _ he =>
    have hgraph : s.graph.Apart _ := he.apart.graph
    refine .inl ⟨he.inflations, rfl, hgraph.isWidget, fun a ha => .inl ?_, fun f n m hm => .inl ?_⟩
    · exact hgraph.containment ▸ ha
    · exact hgraph.attributes n ▸ hm
  | @layout _ t' key root hdue hnew hin _ _ _ hgrown =>
    obtain ⟨v, hv, htop⟩ := hgrown
    have hi : (t'.finish key root).flowgraph.inflations = s.flowgraph.inflations.insert key root := by
      rw [finish_eq, ← inflations_of_inflates hin]
    have hfinish : Plants (key.op, key.id) [] [] t' (t'.finish key root) := by
      rw [finish_eq]
      exact .of_graph rfl rfl rfl fun _ h => Container.key_mem_insert.mpr (.inr h)
    refine .inr ⟨key, root, v, hnew, hi, hdue.id?, .inl hdue.isLayoutKey, fun _ => htop, ?_⟩
    simpa using hv.put hfinish
  | @menu _ _ key hdue hnew hin _ _ hgrown =>
    obtain ⟨v, hv⟩ := hgrown
    have hcache : Plants (key.op, key.id) [] [] s (s.cache key none) :=
      .of_graph rfl rfl rfl fun _ h => Container.key_mem_insert.mpr (.inr h)
    refine .inr ⟨key, none, v, hnew, inflations_of_inflates hin, hdue.id?, .inr hdue.isMenuKey, fun hlayout => ?_,
      (Grown.empty hcache).append hv⟩
    have hmenu := hdue.isMenuKey
    rw [Graph.not_isMenuKey_of_isLayoutKey hlayout] at hmenu
    cases hmenu
  | reuse => exact .inl (.of_flowgraph flowgraph_deliver (by rw [deliver_eq]))

/-! ## One copy for each inflation -/

/-- The copy that an inflation has made. -/
structure Copied (r : Resources) (s : Solver) (key : InflationKey) (v : Forest NodeId) : Prop where
  id : ∃ i, s.graph.id? key.id = some i
  kind : s.graph.isLayoutKey key = true ∨ s.graph.isMenuKey key = true
  copy : v.map s.graph.object? = (s.graph.pattern r key).map some
  widgets : ∀ n ∈ v.elems, (s.graph.object? n).any (·.isWidget) = true
  nodup : v.elems.Nodup
  nested : ∀ a ∈ s.graph.arcsOf key v, a ∈ s.graph.containment
  /-- The topmost widget of a layout is remembered. -/
  top : s.graph.isLayoutKey key = true → s.flowgraph.inflations[key]? = some v.top?

namespace Copied

theorem lt (h : Copied r s key v) (hn : n ∈ v.elems) : n < s.graph.size := by
  obtain ⟨o, ho, _⟩ := (Option.any_eq_true _ _).mp (h.widgets n hn)
  exact Graph.object?_lt ho

theorem parts_eq (h : Copied r s key v) (hst : s.Le t) : t.graph.parts r key = s.graph.parts r key := by
  obtain ⟨i, hi⟩ := h.id
  exact Graph.parts_eq hst.op? hst.graph.toExtends hi

theorem mono (h : Copied r s key v) (hst : s.Le t) : Copied r t key v where
  id := h.id.imp fun _ => hst.graph.toExtends.id?
  kind := by
    rw [Graph.isLayoutKey_eq hst.op?, Graph.isMenuKey_eq hst.op?]
    exact h.kind
  copy := by
    obtain ⟨i, hi⟩ := h.id
    rw [Graph.pattern_eq hst.op? hst.graph.toExtends hi, ← h.copy]
    exact Forest.map_congr fun n hn => hst.graph.object?_of_isWidget (h.widgets n hn)
  widgets n hn := hst.graph.object?_any Obj.blind_isWidget (h.widgets n hn)
  nodup := h.nodup
  nested a ha := by
    rw [Graph.arcsOf_eq hst.op?] at ha
    exact hst.graph.containment a (h.nested a ha)
  top hlayout := by
    rw [Graph.isLayoutKey_eq hst.op?] at hlayout
    exact hst.inflations key _ (h.top hlayout)

/-- A new copy. -/
theorem of_makes (h : Makes r key root v s t) (hst : s.Le t) : Copied r t key v where
  id := h.id.imp fun _ => hst.graph.toExtends.id?
  kind := by
    rw [Graph.isLayoutKey_eq hst.op?, Graph.isMenuKey_eq hst.op?]
    exact h.kind
  copy := by
    obtain ⟨i, hi⟩ := h.id
    rw [Graph.pattern_eq hst.op? hst.graph.toExtends hi, h.grown.map_object?, Graph.map_graphParts]
  widgets n hn := h.grown.plants.isWidget hn
  nodup := h.grown.plants.nodup
  nested a ha := by
    rw [Graph.arcsOf_eq hst.op?] at ha
    exact (h.grown.plants.containment a).mpr (.inr ha)
  top hlayout := by
    rw [Graph.isLayoutKey_eq hst.op?] at hlayout
    rw [h.inflations, ExtTreeMap.getElem?_insert_self, h.top hlayout]

end Copied

/-- The copies that the inflations have made. The flowgraph was `b` when it was constructed, and `f` when the solver
started. -/
structure Planted (r : Resources) (b f : Flowgraph) (s : Solver) (w : InflationKey → Forest NodeId) : Prop where
  grows : b.graph.Grows f.graph ∧ f.graph.Grows s.graph
  copied : ∀ key ∈ s.flowgraph.inflations, Copied r s key (w key)
  apart : ∀ key ∈ s.flowgraph.inflations, ∀ key' ∈ s.flowgraph.inflations,
    ∀ n ∈ (w key).elems, n ∈ (w key').elems → key = key'
  /-- Nothing else has made widgets since the construction. -/
  widgets : ∀ n, (∃ key ∈ s.flowgraph.inflations, n ∈ (w key).elems) ↔
    b.graph.size ≤ n ∧ (s.graph.object? n).any (·.isWidget) = true
  /-- What is inside of something was there before, is part of a copy, or was put there by an operation. -/
  contained : ∀ a ∈ s.graph.containment, a ∈ f.graph.containment ∨
    (∃ key ∈ s.flowgraph.inflations, a ∈ s.graph.arcsOf key (w key)) ∨ s.Adds a.src a.dst
  /-- The widgets with an origin are those that the solver has made. -/
  origins : ∀ (n : NodeId) o, s.origins[n]? = some o ↔
    f.graph.size ≤ n ∧ ∃ key ∈ s.flowgraph.inflations, n ∈ (w key).elems ∧ o = (key.op, key.id)

namespace Planted

theorem frame (h : Planted r b f s w) (hst : s.Le t) (ht : Rests s t) : Planted r b f t w where
  grows := ⟨h.grows.1, h.grows.2.trans hst.graph⟩
  copied key hkey := (h.copied key (ht.inflations ▸ hkey)).mono hst
  apart key hkey key' hkey' := h.apart key (ht.inflations ▸ hkey) key' (ht.inflations ▸ hkey')
  widgets n := by
    rw [ht.inflations, ht.isWidget]
    exact h.widgets n
  contained a ha := by
    rw [ht.inflations]
    simp only [Graph.arcsOf_eq hst.op?]
    rcases ht.contained a ha with ha | ha
    · exact (h.contained a ha).imp_right (·.imp_right (·.mono hst))
    · exact .inr (.inr ha)
  origins n o := by
    rw [ht.inflations, ht.origins]
    exact h.origins n o

/-- One more copy. -/
theorem plant (h : Planted r b f s w) (hst : s.Le t) (ht : Makes r key root v s t) :
    Planted r b f t (Function.update w key v) := by
  have hb := h.grows.1.toExtends.size
  have hf := h.grows.2.toExtends.size
  have hv := ht.grown.plants
  -- the new widgets have larger numbers than the old ones
  have hfresh : ∀ key' ∈ s.flowgraph.inflations, ∀ n ∈ (w key').elems, n ∉ v.elems :=
    fun key' hkey' n hn hnew => Nat.not_lt.mpr (hv.ge hnew) ((h.copied key' hkey').lt hn)
  constructor
  case grows => exact ⟨h.grows.1, h.grows.2.trans hst.graph⟩
  case copied =>
    exact (ht.forall_iff (P := fun key' x => Copied r t key' x)).mpr
      ⟨.of_makes ht hst, fun key' hkey' => (h.copied key' hkey').mono hst⟩
  case apart =>
    refine (ht.forall_iff (P := fun key₁ x => ∀ key₂ ∈ t.flowgraph.inflations, ∀ n ∈ x.elems,
      n ∈ (Function.update w key v key₂).elems → key₁ = key₂)).mpr ⟨?_, fun key₁ h₁ => ?_⟩
    · refine (ht.forall_iff (P := fun key₂ x => ∀ n ∈ v.elems, n ∈ x.elems → key = key₂)).mpr ?_
      exact ⟨fun _ _ _ => rfl, fun key₂ h₂ n hn hn₂ => absurd hn (hfresh key₂ h₂ n hn₂)⟩
    · refine (ht.forall_iff (P := fun key₂ x => ∀ n ∈ (w key₁).elems, n ∈ x.elems → key₁ = key₂)).mpr ?_
      exact ⟨fun n hn₁ hn => absurd hn (hfresh key₁ h₁ n hn₁), h.apart key₁ h₁⟩
  case widgets =>
    intro n
    rw [ht.exists_iff (P := fun _ x => n ∈ x.elems), hv.widgets, h.widgets]
    rcases Nat.lt_or_ge n s.graph.size with hlt | hge
    · rw [hst.graph.object?_any_of_lt Obj.blind_isWidget hlt]
      exact or_iff_right fun hn => Nat.not_le.mpr hlt hn.1
    · refine ⟨?_, fun hn => .inl ⟨hge, hn.2⟩⟩
      rintro (hn | hn)
      · exact ⟨by omega, hn.2⟩
      · exact ⟨hn.1, hst.graph.object?_any Obj.blind_isWidget hn.2⟩
  case contained =>
    intro a ha
    simp only [Graph.arcsOf_eq hst.op?]
    rw [ht.exists_iff (P := fun key' x => a ∈ s.graph.arcsOf key' x)]
    rcases (hv.containment a).mp ha with ha | ha
    · exact (h.contained a ha).imp_right (·.imp .inr (·.mono hst))
    · exact .inr (.inl (.inl ha))
  case origins =>
    intro n o
    rw [hv.origins, ht.exists_iff (P := fun key' x => n ∈ x.elems ∧ o = (key'.op, key'.id))]
    split
    · rename_i hn
      have hle := hv.ge hn
      constructor
      · rintro ⟨⟩
        exact ⟨by omega, .inl ⟨hn, rfl⟩⟩
      · rintro ⟨-, ⟨-, rfl⟩ | ⟨key', hkey', hn', -⟩⟩
        · rfl
        · exact absurd hn (hfresh key' hkey' n hn')
    · rename_i hn
      rw [h.origins, or_iff_right fun hnew => hn hnew.1]

/-- A flowgraph as it was constructed. -/
theorem start (hc : b.inflations = ∅) : Planted r b b { flowgraph := b } fun _ => .nil where
  grows := ⟨.refl _, .refl _⟩
  copied key hkey := by simp [hc] at hkey
  apart key hkey := by simp [hc] at hkey
  widgets n := by
    refine ⟨fun ⟨key, hkey, _⟩ => by simp [hc] at hkey, fun ⟨hle, hn⟩ => ?_⟩
    have hn : (b.graph.object? n).any (·.isWidget) = true := hn
    rw [Graph.object?_eq_none hle] at hn
    cases hn
  contained a ha := .inl ha
  origins n o := by simp [hc]

/-- Another solver starts on the flowgraph. -/
theorem restart (h : Planted r b f s w) : Planted r b s.flowgraph { flowgraph := s.flowgraph } w where
  grows := ⟨h.grows.1.trans h.grows.2, .refl _⟩
  copied key hkey := { h.copied key hkey with }
  apart := h.apart
  widgets := h.widgets
  contained a ha := .inl ha
  origins n o := by
    refine ⟨fun ho => by simp at ho, fun ⟨hle, key, hkey, hn, _⟩ => ?_⟩
    exact absurd ((h.copied key hkey).lt hn) (Nat.not_lt.mpr hle)

end Planted

/-! ## Every step keeps the copies apart -/

theorem Step.planted (h : Planted c.project.resources b f s w) (hst : Step c p s t) :
    ∃ w', Planted c.project.resources b f t w' := by
  rcases hst.rests_or_makes with ht | ⟨key, root, v, ht⟩
  · exact ⟨w, h.frame hst.le ht⟩
  · exact ⟨_, h.plant hst.le ht⟩

theorem Run.planted (h : Planted c.project.resources b f s w) (hst : Run c s t) :
    ∃ w', Planted c.project.resources b f t w' := by
  induction hst with
  | refl => exact ⟨w, h⟩
  | tail _ hstep ih =>
    obtain ⟨w', h'⟩ := ih
    exact hstep.choose_spec.planted h'

theorem Reached.planted_of (hpoised : Poised c { flowgraph := f })
    (h : Planted c.project.resources b f { flowgraph := f } w) (hs : Reached c f s) :
    ∃ w', Planted c.project.resources b f s w' :=
  Run.planted (c := c.mode false) h (hs.lasts hpoised).run

theorem Available.planted (hb : Flowgraph.build c = .ok b) (hf : Available c f) :
    ∃ w, Planted c.project.resources b f { flowgraph := f } w := by
  induction hf with
  | built h =>
    obtain rfl := Except.ok.inj (hb.symm.trans h)
    exact ⟨_, .start (Flowgraph.build_valid hb).2.1⟩
  | solved hf hs ih =>
    obtain ⟨w, h⟩ := ih
    obtain ⟨w', h'⟩ := hs.planted_of hf.poised h
    exact ⟨w', h'.restart⟩

theorem reached_of_solve (h : solve c { flowgraph := f } = (.ok (), s)) : Reached c f s := by
  have hs := Reached.request (c := c) (f := f) .start .solve
  rw [Request.after, h] at hs
  exact hs

/-- **Every inflation has made one copy**, in every solver that callers can come to. -/
theorem Reached.planted (hb : Flowgraph.build c = .ok b) (hf : Available c f) (hs : Reached c f s) :
    ∃ w, Planted c.project.resources b f s w := by
  obtain ⟨w, h⟩ := hf.planted hb
  exact hs.planted_of hf.poised h

/-! ## What is inside what -/

/-- After solving, an operation has put everything where nothing speaks against it. -/
theorem Solved.mem_containment (hs : Solved c s) (h : s.Adds child parent) (hp : parent ∉ s.graph.descendants child) :
    Arc.mk child parent ∈ s.graph.containment := by
  obtain ⟨op, o, ho, hk, hparent, hchild⟩ := h
  rcases (hs.resolved_of ho (by rw [hk]; decide)).child hk parent hparent child hchild with ha | ⟨-, v, hv⟩
  · exact ha
  · have hne : child ≠ parent := by
      rintro rfl
      exact hp (Graph.mem_descendants.mpr .refl)
    unfold Graph.nest at hv
    rw [if_neg hne, if_neg hp] at hv
    split at hv <;> cases hv

/-- **What is inside what after an analysis.** The parts of copies are where their templates have them, and every
operation that puts one widget into another has done so unless the other is inside the one. There is nothing else. -/
theorem mem_containment_iff (h : analyze c = .ok s) : ∃ b w, Flowgraph.build c = .ok b ∧
    Planted c.project.resources b b s w ∧
    (∀ child parent, Arc.mk child parent ∈ s.graph.containment ↔
      (∃ key ∈ s.flowgraph.inflations, Arc.mk child parent ∈ s.graph.arcsOf key (w key)) ∨
      s.Adds child parent ∧ parent ∉ s.graph.descendants child) ∧
    ∀ child parent, s.Adds child parent →
      Arc.mk child parent ∈ s.graph.containment ∨ parent = child ∨ parent ∈ s.graph.descendants child := by
  obtain ⟨b, hb, hreached⟩ := reached_of_analyze h
  obtain ⟨w, hw⟩ := hreached.planted hb (.built hb)
  obtain ⟨_, _, _, hsolved⟩ := solved_of_analyze h
  refine ⟨b, w, hb, hw, fun child parent => ⟨fun ha => ?_, ?_⟩, fun child parent hadds => ?_⟩
  · rcases hw.contained _ ha with hold | hcopy | hadds
    · rw [(Flowgraph.build_valid hb).2.2] at hold
      simp at hold
    · exact .inl hcopy
    · -- the arc and a way down from its child to its parent would be a cycle
      exact .inr ⟨hadds, fun hd => hsolved.inv.sound.acyclic _ ha (Graph.below_of_mem_descendants hd)⟩
  · rintro (⟨key, hkey, ha⟩ | ⟨hadds, hp⟩)
    · exact (hw.copied key hkey).nested _ ha
    · exact hsolved.mem_containment hadds hp
  · by_cases hp : parent ∈ s.graph.descendants child
    · exact .inr (.inr hp)
    · exact .inl (hsolved.mem_containment hadds hp)

end Solver

/-- The activity sets a layout with two views side by side, and puts each of them into the other. In the layout there is
also a node without a class. -/
def Example.withViews : Context :=
  let view : Ty := .ref "android.view.View"
  let box : Local := ⟨"box", view⟩
  let text : Local := ⟨"text", view⟩
  let onCreate := methodOf "onCreate" [.ref "android.os.Bundle"] ⟨.void, 0⟩ [
    .assign (.var this) .this,
    .call (callOn this "setContentView" [.int] ⟨.void, 0⟩ [.int 1]),
    .assign (.var box) (.call (callOn this "findViewById" [.int] view [.int 5])),
    .assign (.var text) (.call (callOn this "findViewById" [.int] view [.int 6])),
    .call (callOn box "addView" [view] ⟨.void, 0⟩ [.var text]),
    .call (callOn text "addView" [view] ⟨.void, 0⟩ [.var box])]
  application [onCreate] {
    layouts := byId [(1, templateOf (some "android.view.View") none [
      templateOf (some "android.view.View") (some 5) [], templateOf (some "android.view.View") (some 6) [],
      templateOf none none [templateOf (some "android.view.View") none []]])]
    layoutIds := byId [(1, "main")]
    widgetIds := byId [(5, "box"), (6, "text")] }

namespace Solver

/-- One of the views goes into the other, which then does not go into the one. That both are in the view around them
comes from the layout. -/
theorem views_in_views : ∃ s b w, analyze Example.withViews = .ok s ∧
    Planted Example.withViews.project.resources b b s w ∧ s.Adds 15 14 ∧ Arc.mk 15 14 ∈ s.graph.containment ∧
    s.Adds 14 15 ∧ Arc.mk 14 15 ∉ s.graph.containment ∧ 15 ∈ s.graph.descendants 14 ∧
    ∃ key ∈ s.flowgraph.inflations, Arc.mk 14 13 ∈ s.graph.arcsOf key (w key) := by
  have heval : (analyze Example.withViews).toOption.any (fun s =>
      ((s.graph.op? 11).any (·.kind = .addChild) = true ∧ 14 ∈ s.receivers 11 ∧ 15 ∈ s.widgetParameters 11) ∧
      ((s.graph.op? 12).any (·.kind = .addChild) = true ∧ 15 ∈ s.receivers 12 ∧ 14 ∈ s.widgetParameters 12) ∧
      Arc.mk 15 14 ∈ s.graph.containment ∧ Arc.mk 14 15 ∉ s.graph.containment ∧ Arc.mk 14 13 ∈ s.graph.containment ∧
      ∀ op ∈ s.graph.ops, 13 ∉ s.receivers op) = true := by
    decide +kernel
  obtain ⟨s, hs, hk⟩ := exists_of_analyze heval
  obtain ⟨⟨ho, hp, hc⟩, ⟨ho', hp', hc'⟩, hin, hout, harc, hno⟩ := of_decide_eq_true hk
  obtain ⟨o, ho, hkind⟩ := (Option.any_eq_true _ _).mp ho
  obtain ⟨o', ho', hkind'⟩ := (Option.any_eq_true _ _).mp ho'
  have hadds : s.Adds 15 14 := ⟨11, o, ho, of_decide_eq_true hkind, hp, hc⟩
  have hadds' : s.Adds 14 15 := ⟨12, o', ho', of_decide_eq_true hkind', hp', hc'⟩
  obtain ⟨b, w, -, hw, hiff, hall⟩ := mem_containment_iff hs
  refine ⟨s, b, w, hs, hw, hadds, hin, hadds', hout, ?_, ?_⟩
  · rcases hall 14 15 hadds' with h | h | h
    · exact absurd h hout
    · cases h
    · exact h
  · rcases (hiff 14 13).mp harc with h | ⟨⟨op, o, ho, _, hp, _⟩, _⟩
    · exact h
    · exact absurd hp (hno op (Graph.mem_ops.mpr ⟨o, ho⟩))

/-! ## Inflations refuse nothing -/

/-- **An inflation never fails**, in any solver that callers can come to, strict or not. It logs no error and marks no flow
as reported. Whatever the solver has refused before plays no part: even a strict solver without any refusals, which fails
at the first one, goes the same way. So nothing is refused, and all that was inflated is where its template has it. -/
theorem inflate_refuses_nothing (hb : Flowgraph.build c = .ok b) (hf : Available c f) (hs : Reached c f s) :
    ∃ changed t, inflate c s = (.ok changed, t) ∧ errors t = errors s ∧ t.reported = s.reported ∧
      t.rejected = s.rejected ∧
      (∀ strict rejected, inflate (c.mode strict) { s with rejected } = (.ok changed, { t with rejected })) ∧
      ∃ w, Planted c.project.resources b f t w := by
  have hsure : Sure c s inflate _ := inflate_sure (hs.inv hf).valid.closed.containment
  obtain ⟨changed, t, hrun, hrejected, hrecord, -⟩ := hsure
  have hinflate : inflate c s = (.ok changed, t) := by
    have h : inflate c s = (.ok changed, { t with rejected := s.rejected }) := hrun c.settings.strict s.rejected
    rwa [← hrejected] at h
  have hreached : Reached c f t := by
    have h := hs.request .inflate
    rwa [Request.after, hinflate] at h
  exact ⟨changed, t, hinflate, congrArg Prod.fst hrecord, congrArg Prod.snd hrecord, hrejected, hrun,
    hreached.planted hb hf⟩

/-- A strict solver inflates the layout with views in views. -/
theorem inflate_withViews : ∃ b s changed t w, Flowgraph.build (Example.withViews.mode true) = .ok b ∧
    Reached (Example.withViews.mode true) b s ∧ s.statistics.inflated = 0 ∧
    inflate (Example.withViews.mode true) s = (.ok changed, t) ∧ t.rejected = s.rejected ∧
    t.statistics.inflated = 3 ∧ Planted Example.withViews.project.resources b b t w := by
  have heval : (Flowgraph.build (Example.withViews.mode true)).toOption.any (fun b =>
      let s := Request.after (Example.withViews.mode true) { flowgraph := b } .classify
      s.statistics.inflated = 0 ∧ (inflate (Example.withViews.mode true) s).2.statistics.inflated = 3) = true := by
    decide +kernel
  obtain ⟨b, hb, hk⟩ := exists_of_toOption heval
  obtain ⟨hbefore, hafter⟩ := of_decide_eq_true hk
  have hs : Reached (Example.withViews.mode true) b _ := .request .start .classify
  obtain ⟨changed, t, hinflate, -, -, hrejected, -, w, hw⟩ := inflate_refuses_nothing hb (.built hb) hs
  rw [hinflate] at hafter
  exact ⟨b, _, changed, t, w, hb, hs, hbefore, hinflate, hrejected, hafter, hw⟩

/-! ## Where widgets come from -/

/-- **The origins of inflated widgets.** In every solver that callers can come to, each widget of a layout and each item
of a menu resource belongs to the copy of one inflation. If the solver has made it, its origin is the operation and the id
of this inflation. If it was there when the solver started, it has no origin. -/
theorem origin_of_inflated (hb : Flowgraph.build c = .ok b) (hf : Available c f) (hs : Reached c f s) :
    ∃ w, Planted c.project.resources b f s w ∧
      ∀ n, (s.graph.object? n).any (·.isInflated) = true ∨
          b.graph.size ≤ n ∧ (s.graph.object? n).any (·.isMenuItem) = true →
        b.graph.size ≤ n ∧ ∃ key ∈ s.flowgraph.inflations, n ∈ (w key).elems ∧
          s.origins[n]? = if f.graph.size ≤ n then some (key.op, key.id) else none := by
  obtain ⟨w, hw⟩ := hs.planted hb hf
  refine ⟨w, hw, fun n hn => ?_⟩
  have hmade : b.graph.size ≤ n ∧ (s.graph.object? n).any (·.isWidget) = true := by
    rcases hn with hn | ⟨hle, hn⟩
    · refine ⟨Nat.not_lt.mp fun hlt => ?_, Graph.object?_any_imp Obj.isWidget_of_isInflated hn⟩
      rw [(hw.grows.1.trans hw.grows.2).object?_any_of_lt Obj.blind_isInflated hlt,
        Flowgraph.not_isInflated_of_build hb] at hn
      cases hn
    · exact ⟨hle, Graph.object?_any_imp Obj.isWidget_of_isMenuItem hn⟩
  obtain ⟨key, hkey, hmem⟩ := (hw.widgets n).mpr hmade
  refine ⟨hmade.1, key, hkey, hmem, ?_⟩
  split
  · rename_i hle
    exact (hw.origins n _).mpr ⟨hle, key, hkey, hmem, rfl⟩
  · rename_i hlt
    cases ho : s.origins[n]? with
    | none => rfl
    | some o => exact absurd ((hw.origins n o).mp ho).1 hlt

end Solver

namespace Example

/-- A second run on the same flowgraph. -/
theorem withInflater_again : ∃ b s t, Flowgraph.build withInflater = .ok b ∧
    Solver.solve withInflater { flowgraph := b } = (.ok (), s) ∧
    Solver.solve withInflater { flowgraph := s.flowgraph } = (.ok (), t) ∧ b.graph.size ≤ 7 ∧
    s.graph.object? 7 = some (.inflated "android.view.View") ∧
    t.graph.object? 7 = some (.inflated "android.view.View") ∧ t.origins[(7 : NodeId)]? = none := by
  have heval : (Flowgraph.build withInflater).toOption.any (fun b =>
      let first := Solver.solve withInflater { flowgraph := b }
      let second := Solver.solve withInflater { flowgraph := first.2.flowgraph }
      first.1.isOk = true ∧ second.1.isOk = true ∧ b.graph.size ≤ 7 ∧
      first.2.graph.object? 7 = some (.inflated "android.view.View") ∧
      second.2.graph.object? 7 = some (.inflated "android.view.View") ∧ second.2.origins[(7 : NodeId)]? = none) = true := by
    decide +kernel
  obtain ⟨b, hb, hk⟩ := exists_of_toOption heval
  obtain ⟨hfirst, hsecond, hk⟩ := of_decide_eq_true hk
  exact ⟨b, _, _, hb, eq_ok_of_isOk hfirst, eq_ok_of_isOk hsecond, hk⟩

end Example

namespace Solver

/-- The view has an origin in the solver that has inflated it, and none in the next. -/
theorem origin_withInflater : ∃ b s t, Flowgraph.build Example.withInflater = .ok b ∧
    solve Example.withInflater { flowgraph := b } = (.ok (), s) ∧
    solve Example.withInflater { flowgraph := s.flowgraph } = (.ok (), t) ∧
    (∃ key ∈ s.flowgraph.inflations, s.origins[(7 : NodeId)]? = some (key.op, key.id)) ∧
    ∃ key ∈ t.flowgraph.inflations, t.origins[(7 : NodeId)]? = none := by
  obtain ⟨b, s, t, hb, hs, ht, hsize, hobj, hobj', -⟩ := Example.withInflater_again
  have hfirst := reached_of_solve hs
  refine ⟨b, s, t, hb, hs, ht, ?_, ?_⟩
  · obtain ⟨w, -, horigin⟩ := origin_of_inflated hb (.built hb) hfirst
    obtain ⟨hle, key, hkey, -, ho⟩ := horigin 7 (.inl (by rw [hobj]; rfl))
    exact ⟨key, hkey, ho.trans (if_pos hle)⟩
  · obtain ⟨w, -, horigin⟩ := origin_of_inflated hb (.solved (.built hb) hfirst) (reached_of_solve ht)
    obtain ⟨-, key, hkey, -, ho⟩ := horigin 7 (.inl (by rw [hobj']; rfl))
    exact ⟨key, hkey, ho.trans (if_neg (Nat.not_le.mpr (Graph.object?_lt hobj)))⟩

/-- **A widget can be without an origin after solving.** It was inflated when the flowgraph was solved before. -/
theorem inflated_without_origin : ¬∀ c f s, Available c f → solve c { flowgraph := f } = (.ok (), s) →
    ∀ n cls, s.graph.object? n = some (.inflated cls) → ∃ o, s.origins[n]? = some o := by
  obtain ⟨b, s, t, hb, hs, ht, -, -, hobj, hnone⟩ := Example.withInflater_again
  intro hall
  obtain ⟨o, ho⟩ := hall _ _ t (.solved (.built hb) (reached_of_solve hs)) ht 7 _ hobj
  rw [hnone] at ho
  cases ho

end Solver

end WidgetFlow
