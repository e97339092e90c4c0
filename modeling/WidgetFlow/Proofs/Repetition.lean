import WidgetFlow.Proofs.Solving

/-!
# Solving again

A solver that starts with the flowgraph of a solved one finds nothing new. Whether it finds everything again depends on
the items of menus. A look-up that finds no item with the right id takes all items, and they stay in the solution when
such an item turns up later. A second run has the final flowgraph from the start and does not take them.

* `Step.repeats`, `Run.again`: a second run adds nothing to the flowgraph, and knows nothing that the first did not;
* `Run.covered`: it knows everything else if all items found are found in the final flowgraph (`Solver.ItemsCurrent`);
* `solve_again_iff`: so solving again gives the same solution in exactly this case.
-/

namespace WidgetFlow

open Std Relation Flowgraph

/-! ## Depth -/

namespace Graph

variable {g : Graph} {n r : NodeId}

/-- The nodes that a node is inside of, itself among them. -/
def around (g : Graph) (n : NodeId) : Finset NodeId := (Finset.range g.size).filter (n ∈ g.descendants ·)

/-- The number of nodes that a node is inside of. -/
def depth (g : Graph) (n : NodeId) : Nat := (g.around n).card

theorem mem_around {m : NodeId} : m ∈ g.around n ↔ m < g.size ∧ n ∈ g.descendants m := by
  simp [around]

theorem around_subset (hg : g.Closed) (h : n ∈ g.descendants r) : g.around r ⊆ g.around n := by
  intro m hm
  obtain ⟨hlt, hr⟩ := mem_around.mp hm
  have hbelow := (below_of_mem_descendants hr).trans (below_of_mem_descendants h)
  exact mem_around.mpr ⟨hlt, mem_descendants_of_below hg hbelow⟩

theorem depth_le (hg : g.Closed) (h : n ∈ g.descendants r) : g.depth r ≤ g.depth n :=
  Finset.card_le_card (around_subset hg h)

/-- What is inside a node is deeper. -/
theorem depth_lt (hg : g.Closed) (ha : g.Acyclic) (h : n ∈ g.descendants r) (hne : n ≠ r) : g.depth r < g.depth n := by
  obtain ⟨p, hp, harc⟩ := (below_of_mem_descendants h).cases_tail.resolve_left hne
  refine Finset.card_lt_card ((Finset.ssubset_iff_of_subset (around_subset hg h)).mpr ⟨n, ?_, fun hn => ?_⟩)
  · exact mem_around.mpr ⟨(hg.containment _ harc).1, mem_descendants_of_below hg .refl⟩
  · exact ha _ harc ((below_of_mem_descendants (mem_around.mp hn).2).trans hp)

/-- What is inside a node already can be put there again. -/
theorem nest_ne_error {child parent : NodeId} {v : Violation} (ha : g.Acyclic)
    (h : Arc.mk child parent ∈ g.containment) : g.nest child parent ≠ .error v := by
  have hne : child ≠ parent := by
    rintro rfl
    exact ha _ h .refl
  have hhas : g.hasChild parent child = true := ExtTreeSet.contains_iff_mem.mpr h
  rw [nest, if_neg hne, if_pos hhas]
  nofun

end Graph

namespace Solver

variable {s s' t u : Solver} {c : Context} {op n m l w v r : NodeId} {x : Operand} {slot : Slot} {p : Phase} {k : Nat}

/-! ## A second run knows no more -/

/-- A solver has the flowgraph of another, and knows no more. -/
structure Repeats (s t : Solver) : Prop where
  flowgraph : s.flowgraph = t.flowgraph
  solution : ∀ op slot, ∀ n ∈ s.solution op slot, n ∈ t.solution op slot
  roots : ∀ w, ∀ v ∈ s.rootsOf w, v ∈ t.rootsOf w

theorem repeats_init {f : Flowgraph} (h : f = t.flowgraph) : Repeats { flowgraph := f } t where
  flowgraph := h
  solution op slot n hn := by simp [Solver.solution] at hn
  roots w v hv := by simp [rootsOf] at hv

theorem Solved.resolved_of {o : Op} (h : Solved c t) (ho : t.graph.op? op = some o)
    (htag : o.kind.tag ∈ resolutionOrder) : Resolved c t op o.kind :=
  h.resolved _ htag op o ho rfl

/-- Look-ups are resolved in each pass. -/
theorem Finds.tag_mem (h : Finds c s op n) : ∃ o, s.graph.op? op = some o ∧ o.kind.tag ∈ resolutionOrder := by
  have hview : OpTag.findView ∈ resolutionOrder := by decide
  have hnavigate : OpTag.navigate ∈ resolutionOrder := by decide
  cases h with
  | view ho hk => exact ⟨_, ho, by rw [hk]; exact hview⟩
  | window ho hk => exact ⟨_, ho, by rw [hk]; decide⟩
  | navigation ho hk => exact ⟨_, ho, by rw [hk]; exact hnavigate⟩

section Repeats

variable (h : s.Repeats t) (hs : Inv c s) (ht : Solved c t)
include h

theorem Repeats.graph : s.graph = t.graph := congrArg Flowgraph.graph h.flowgraph

theorem Repeats.widgetParameters (hn : n ∈ s.widgetParameters op) : n ∈ t.widgetParameters op := by
  obtain ⟨hn, ho⟩ := mem_widgetParameters.mp hn
  exact mem_widgetParameters.mpr ⟨h.solution _ _ _ hn, h.graph ▸ ho⟩

theorem Repeats.receiversWhere {k : Obj → Bool} (hn : n ∈ s.receiversWhere op k) : n ∈ t.receiversWhere op k := by
  obtain ⟨hn, ho⟩ := mem_receiversWhere.mp hn
  exact mem_receiversWhere.mpr ⟨h.solution _ _ _ hn, h.graph ▸ ho⟩

theorem Repeats.listenersOf (hn : n ∈ s.listenersOf op) : n ∈ t.listenersOf op := by
  obtain ⟨ho, hn⟩ := mem_listenersOf.mp hn
  exact mem_listenersOf.mpr ⟨h.graph ▸ ho, h.solution _ _ _ hn⟩

theorem Repeats.parameterSources {k : NodeKind → Bool} : s.parameterSources op k = t.parameterSources op k := by
  rw [Solver.parameterSources, h.graph]
  rfl

/-- What a look-up of the second run finds, one of the first finds too. -/
theorem Repeats.finds (hids : s.idsOf op = t.idsOf op) (hf : Finds c s op n) : Finds c t op n := by
  cases hf with
  | view ho hk hr hn => exact .view (h.graph ▸ ho) hk (h.solution _ _ _ hr) (hids ▸ h.graph ▸ hn)
  | navigation ho hk hr hn => exact .navigation (h.graph ▸ ho) hk (h.solution _ _ _ hr) (h.graph ▸ hn)
  | window ho hk hw hn =>
    refine .window (h.graph ▸ ho) hk (h.solution _ _ _ hw) ?_
    rw [← h.graph, ← hids]
    rcases mem_foundIn.mp hn with ⟨hc, ha, hr⟩ | ⟨v, hv, hn⟩
    · exact mem_foundIn.mpr (.inl ⟨hc, h.graph ▸ ha, h.roots _ _ hr⟩)
    · exact mem_foundIn.mpr (.inr ⟨v, h.roots _ _ hv, h.graph ▸ hn⟩)

include hs ht

theorem Repeats.ids (hn : n ∈ s.idsOf op) : n ∈ t.idsOf op :=
  ht.classified.ids op n (h.graph ▸ hs.ids op n hn)

theorem Repeats.idsIn {space : IdSpace} (hn : n ∈ s.idsIn op space) : n ∈ t.idsIn op space := by
  obtain ⟨hn, hi⟩ := mem_idsIn.mp hn
  exact mem_idsIn.mpr ⟨h.ids hs ht hn, h.graph ▸ hi⟩

theorem Repeats.orderedIds (hn : n ∈ s.orderedIds op) : n ∈ t.orderedIds op := by
  obtain ⟨hi, hq⟩ := mem_orderedIds.mp hn
  refine mem_orderedIds.mpr ⟨h.ids hs ht hi, fun q hp => ?_⟩
  rw [← h.graph] at hp ⊢
  exact hq q hp

theorem Repeats.layoutDue {key : InflationKey} (hdue : s.LayoutDue key) : t.LayoutDue key := by
  cases hdue with
  | result ho hk hl => exact .result (h.graph ▸ ho) hk (h.idsIn hs ht hl)
  | content ho hk hw hl => exact .content (h.graph ▸ ho) hk (h.receiversWhere hw) (h.idsIn hs ht hl)

theorem Repeats.menuDue {key : InflationKey} (hdue : s.MenuDue key) : t.MenuDue key := by
  obtain ⟨ho, hk, hm, hl⟩ := hdue
  exact .menu (h.graph ▸ ho) hk (h.receiversWhere hm) (h.idsIn hs ht hl)

/-- Everything that is due is inflated in the flowgraph already. -/
theorem Repeats.inflated {key : InflationKey} (hdue : s.LayoutDue key ∨ s.MenuDue key) :
    s.flowgraph.inflations[key]? ≠ none := by
  rw [h.flowgraph]
  intro hnone
  rcases hdue with hdue | hdue
  · obtain ⟨root, hroot, _⟩ := ht.inflated.layouts key (h.layoutDue hs ht hdue)
    rw [hroot] at hnone
    cases hnone
  · have hmem := ht.inflated.menus key (h.menuDue hs ht hdue)
    rw [ExtTreeMap.mem_iff_isSome_getElem?, hnone] at hmem
    cases hmem

omit hs in
theorem Repeats.dispatched {view listener : NodeId} (hv : view ∈ s.receivers op) (hl : listener ∈ s.listenersOf op) :
    op ∈ s.flowgraph.listeners.modelled ∨ (op, view, listener) ∈ s.flowgraph.listeners.dispatched := by
  rw [h.flowgraph]
  exact ht.dispatched op view (h.solution _ _ _ hv) listener (h.listenersOf hl)

/-- A strict solver finds no violation in a second run. -/
theorem Repeats.not_violated (hstrict : c.settings.strict = true) : ¬Violated c s := by
  intro hv
  cases hv with
  | id hr => exact ht.classified.expected ht.inv hstrict (.inl (h.graph ▸ hr))
  | object hr => exact ht.classified.expected ht.inv hstrict (.inr (h.graph ▸ hr))
  | containment ho hk hc hp herr =>
    have hres := ht.resolved_of (h.graph ▸ ho) (by rw [hk]; decide)
    rcases hres.child hk _ (h.solution _ _ _ hp) _ (h.widgetParameters hc) with harc | ⟨hrejected, _⟩
    · exact Graph.nest_ne_error ht.inv.sound.acyclic harc (h.graph ▸ herr)
    · rw [(ht.inv.clean hstrict).2] at hrejected
      simp at hrejected
  | dispatch hv hl hm hd => exact (h.dispatched ht hv hl).elim hm hd
  | inflation hdue hnew => exact h.inflated hs ht hdue hnew

/-- A step of a second run leaves the flowgraph as it is. -/
theorem Step.flowgraph_eq (hst : Step c p s s') : s'.flowgraph = s.flowgraph := by
  have hset : ∀ {g : Graph}, g = s.graph → (s.setGraph g).flowgraph = s.flowgraph := by
    rintro _ rfl
    rfl
  cases hst with
  | note | settle | id | candidate | downstream | seed | propagate | find | root => rfl
  | @nest _ _ child parent o g _ ho hk hc hp hn =>
    refine hset ?_
    rcases Graph.nest_ok hn with ⟨-, he, -⟩ | ⟨-, -, hno, -⟩
    · exact he
    · have hres := ht.resolved_of (h.graph ▸ ho) (by rw [hk]; decide)
      rcases hres.child hk _ (h.solution _ _ _ hp) _ (h.widgetParameters hc) with harc | ⟨-, _, herr⟩
      · exact absurd (h.graph ▸ harc) hno
      · rw [← h.graph, hn] at herr
        cases herr
  | bindId ho hk hn hi hnone =>
    have hres := ht.resolved_of (h.graph ▸ ho) (by rw [hk]; decide)
    have hsome := hres.id hk _ (h.orderedIds hs ht hi) _ (h.solution _ _ _ hn)
    obtain ⟨a, ha, hno⟩ := (Option.any_eq_true _ _).mp hnone
    rw [← h.graph, ha, Option.any_some, Option.isSome_iff_ne_none] at hsome
    exact absurd (Option.isNone_iff_eq_none.mp hno) hsome
  | texts ho hk hn htexts =>
    refine hset (Graph.modify_eq_self fun a ha => ?_)
    have hres := ht.resolved_of (h.graph ▸ ho) (by rw [hk]; decide)
    have hall : ∀ d ∈ _, d ∈ a.texts := fun d hd => by
      have := hres.text hk _ (h.solution _ _ _ hn) d (h.parameterSources ▸ htexts d hd)
      rw [← h.graph, ha] at this
      exact of_decide_eq_true this
    rw [insertMany_eq_self hall]
  | drawables ho hk hn hdrawables =>
    refine hset (Graph.modify_eq_self fun a ha => ?_)
    have hres := ht.resolved_of (h.graph ▸ ho) (by rw [hk]; decide)
    have hall : ∀ d ∈ _, d ∈ a.drawables := fun d hd => by
      have := hres.drawable hk _ (h.solution _ _ _ hn) d (h.parameterSources ▸ hdrawables d hd)
      rw [← h.graph, ha] at this
      exact of_decide_eq_true this
    rw [insertMany_eq_self hall]
  | dispatch hv hl hm hd => exact ((h.dispatched ht hv hl).elim hm hd).elim
  | layout hdue hnew => exact absurd hnew (h.inflated hs ht (.inl hdue))
  | menu hdue hnew => exact absurd hnew (h.inflated hs ht (.inr hdue))
  | reuse => exact flowgraph_deliver

/-- **A step of a second run finds nothing new.** A look-up has to know all ids that reach it, as otherwise it takes
items that it has no reason to take. -/
theorem Step.repeats (hids : p = .resolve → ∀ op, s.idsOf op = t.idsOf op) (hst : Step c p s s') : s'.Repeats t := by
  have hflow := hst.flowgraph_eq h hs ht
  have hmade : ∀ {key : InflationKey} {r}, s.LayoutDue key → s'.flowgraph.inflations[key]? = some (some r) →
      t.Delivered key r := by
    intro key r hdue hr
    obtain ⟨root, hroot, hdel⟩ := ht.inflated.layouts key (h.layoutDue hs ht hdue)
    rw [hflow, h.flowgraph] at hr
    exact hdel r (Option.some.inj (hroot.symm.trans hr))
  refine ⟨hflow.trans h.flowgraph, fun op slot n hn => ?_, fun w v hv => ?_⟩
  · rcases hst.solution_cases (x := ⟨op, slot⟩) hn with hn | he
    · exact h.solution _ _ _ hn
    · cases he with
      | seed ha hn =>
        have hcand := ht.classified.objects _ _ (h.graph ▸ hs.candidates _ _ hn)
        exact ht.classified.seeded _ _ hcand (h.graph ▸ ha)
      | propagate ha hx hn =>
        obtain ⟨hop, hreach⟩ := hs.downstream _ _ hx
        have hdown := ht.classified.results _ _ (h.graph ▸ hop) (h.graph ▸ hreach)
        exact ht.propagated _ _ hdown _ (h.solution _ _ _ hn) (h.graph ▸ ha)
      | find ha hf =>
        have hf := h.finds (hids rfl op) hf
        obtain ⟨o, ho, htag⟩ := hf.tag_mem
        exact (ht.resolved_of ho htag).found _ hf (h.graph ▸ ha)
      | inflate hdue hr => exact hmade hdue hr
  · rcases hst.roots_cases hv with hv | hv
    · exact h.roots _ _ hv
    · cases hv with
      | set ho hk hw hv =>
        have hres := ht.resolved_of (h.graph ▸ ho) (by rw [hk]; decide)
        exact hres.root hk _ (h.receiversWhere hw) _ (h.widgetParameters hv)
      | inflate hdue hr => exact hmade hdue hr

end Repeats

/-! ## Items -/

/-- All items that menu look-ups have found, they find now. -/
def ItemsCurrent (s : Solver) : Prop :=
  ∀ op o, s.graph.op? op = some o → o.kind = .findView .menuItem → ∀ n ∈ s.results op,
    ∃ r ∈ s.receivers op, n ∈ foundBelow s.graph (s.idsOf op) .menuItem r

instance (s : Solver) : Decidable s.ItemsCurrent :=
  decidable_of_iff (∀ op ∈ List.range s.graph.size, (s.graph.op? op).any (·.kind = .findView .menuItem) = true →
      ∀ n ∈ (s.results op).toList, ∃ r ∈ (s.receivers op).toList, n ∈ foundBelow s.graph (s.idsOf op) .menuItem r) <| by
    simp only [ItemsCurrent, List.mem_range, ExtTreeSet.mem_toList, Option.any_eq_true, decide_eq_true_eq]
    exact ⟨fun h op o ho hk => h op (Graph.op?_lt ho) ⟨o, ho, hk⟩, fun h op _ ⟨o, ho, hk⟩ => h op o ho hk⟩

/-- What enters the results of a menu look-up is what it finds. -/
theorem Enters.found_item {o : Op} (hs : Inv c s) (he : Enters c s t p ⟨op, .result⟩ n) (ho : s.graph.op? op = some o)
    (hk : o.kind = .findView .menuItem) : ∃ r ∈ s.receivers op, n ∈ foundBelow s.graph (s.idsOf op) .menuItem r := by
  cases he with
  | seed _ hn =>
    obtain ⟨_, _, _, _, hr, _⟩ := hs.candidates _ _ hn
    exact absurd rfl (Graph.mem_operandsReached.mp hr).2.2.1
  | propagate _ hx => exact absurd rfl (Graph.mem_operandsReached.mp (hs.downstream _ _ hx).2).2.2.1
  | find _ hf =>
    obtain ⟨r, hr, hn⟩ := List.mem_flatMap.mp ((finds_view ho hk).mpr hf)
    exact ⟨r, ExtTreeSet.mem_toList.mp hr, hn⟩
  | inflate hdue =>
    cases hdue with
    | result ho' hk' =>
      obtain rfl := Option.some.inj (ho.symm.trans ho')
      rw [hk] at hk'
      cases hk'

/-- What holds in a second run once the flowgraph is classified. -/
structure Again (c : Context) (t s : Solver) : Prop where
  inv : Inv c s
  repeats : s.Repeats t
  ids : ∀ op, s.idsOf op = t.idsOf op
  items : s.ItemsCurrent

theorem Step.again (ht : Solved c t) (h : Again c t s) (hst : Step c p s s') : Again c t s' := by
  have hinv := hst.inv h.inv
  have hrep := hst.repeats h.repeats h.inv ht fun _ => h.ids
  have hids : ∀ op, s'.idsOf op = t.idsOf op := fun op => by
    refine ExtTreeSet.ext_mem fun n => ⟨hrep.ids hinv ht, fun hn => hst.le.ids op n ?_⟩
    rw [h.ids]
    exact hn
  have hgraph : s'.graph = s.graph := hrep.graph.trans h.repeats.graph.symm
  refine ⟨hinv, hrep, hids, fun op o ho hk n hn => ?_⟩
  rw [hgraph] at ho
  have key : ∃ r ∈ s.receivers op, n ∈ foundBelow s.graph (s.idsOf op) .menuItem r := by
    rcases hst.solution_cases (x := ⟨op, .result⟩) hn with hn | he
    · exact h.items op o ho hk n hn
    · exact he.found_item h.inv ho hk
  obtain ⟨r, hr, hn⟩ := key
  refine ⟨r, hst.le.receivers hr, ?_⟩
  rw [hgraph, hids, ← h.ids]
  exact hn

theorem Run.again (ht : Solved c t) (h : Again c t s) (hst : Run c s s') : Again c t s' := by
  induction hst with
  | refl => exact h
  | tail _ hst ih => exact hst.choose_spec.again ht ih

/-- Classification finds no results. -/
theorem Steps.results_classify (hs : Inv c s) (hst : Steps c .classify s s') (hn : n ∈ s'.results op) :
    n ∈ s.results op := by
  induction hst with
  | refl => exact hn
  | tail hst h ih =>
    rcases h.solution_cases (x := ⟨op, .result⟩) hn with hn | he
    · exact ih hn
    · cases he with
      | seed _ hn =>
        obtain ⟨_, _, _, _, hr, _⟩ := (Steps.inv hs hst).candidates _ _ hn
        exact absurd rfl (Graph.mem_operandsReached.mp hr).2.2.1

theorem Steps.repeats_classify (ht : Solved c t) (hs : Inv c s) (h : s.Repeats t) (hst : Steps c .classify s s') :
    s'.Repeats t := by
  induction hst with
  | refl => exact h
  | tail hst hstep ih => exact Step.repeats (p := .classify) ih (Steps.inv hs hst) ht nofun hstep

/-- The first classification of a second run. -/
theorem again_of_classify (ht : Solved c t) (hst : Steps c .classify { flowgraph := t.flowgraph } s)
    (hc : Classified c s) : Again c t s := by
  have hinit : Inv c { flowgraph := t.flowgraph } := inv_init ht.inv.sound
  have hinv := Steps.inv hinit hst
  have hrep := Steps.repeats_classify ht hinit (repeats_init rfl) hst
  refine ⟨hinv, hrep, fun op => ExtTreeSet.ext_mem fun n => ⟨hrep.ids hinv ht, fun hn => ?_⟩, ?_⟩
  · exact hc.ids op n (hrep.graph ▸ ht.inv.ids op n hn)
  · intro op o _ _ n hn
    have := Steps.results_classify hinit hst hn
    simp [results, solution] at this

/-! ## A second run knows no less -/

theorem mem_foundBelow_menuItem {g : Graph} {ids : NodeSet} : n ∈ foundBelow g ids .menuItem r ↔
    n ∈ descendantsWithId g ids r ∨ descendantsWithId g ids r = [] ∧ n ∈ properDescendants g r := by
  cases h : descendantsWithId g ids r <;> simp [foundBelow, h]

/-- What has root views is a window. -/
theorem Inv.isWindow_of_root (hs : Inv c s) (hv : v ∈ s.rootsOf w) : (s.graph.object? w).any (·.isWindow) = true := by
  cases hs.roots w v hv with
  | set _ _ hw => exact (mem_receiversWhere.mp hw).2
  | inflated hdue =>
    cases hdue with
    | content _ _ hw => exact (mem_receiversWhere.mp hw).2

/-- What a solver knows of the nodes of depth at most `k`, another knows too. -/
structure Covered (k : Nat) (s u : Solver) : Prop where
  solution : ∀ op slot, ∀ n ∈ s.solution op slot, u.graph.depth n ≤ k → n ∈ u.solution op slot
  roots : ∀ w, ∀ v ∈ s.rootsOf w, u.graph.depth v ≤ k → v ∈ u.rootsOf w

section Covered

variable (ht : Solved c t) (hu : Solved c u) (h : Again c t u)
include ht hu h

/-- Windows are where flow brings them, in a second run as in the first. -/
theorem Again.window (hn : n ∈ t.solution op slot) (hw : (t.graph.object? n).any (·.isWindow) = true) :
    n ∈ u.solution op slot := by
  have hgraph := h.repeats.graph
  cases ht.inv.solution ⟨op, slot⟩ n hn with
  | candidate ha hn =>
    have hcand := hu.classified.objects _ _ (hgraph ▸ ht.inv.candidates _ _ hn)
    exact hu.classified.seeded _ _ hcand (hgraph ▸ ha)
  | result _ _ hn => exact absurd hw (ht.inv.not_isWindow_of_result hn)
  | found | inflated => exact absurd hw (ht.inv.not_isWindow_of_result hn)

theorem Again.receiversWhere (hn : n ∈ t.receiversWhere op (·.isWindow)) : n ∈ u.receiversWhere op (·.isWindow) := by
  obtain ⟨hn, hw⟩ := mem_receiversWhere.mp hn
  exact mem_receiversWhere.mpr ⟨h.window ht hu hn hw, h.repeats.graph ▸ hw⟩

theorem Again.layoutDue {key : InflationKey} (hdue : t.LayoutDue key) : u.LayoutDue key := by
  have hids : ∀ {op l}, l ∈ t.idsIn op .layout → l ∈ u.idsIn op .layout := by
    intro op l hl
    rw [idsIn, h.ids, h.repeats.graph]
    exact hl
  cases hdue with
  | result ho hk hl => exact .result (h.repeats.graph ▸ ho) hk (hids hl)
  | content ho hk hw hl => exact .content (h.repeats.graph ▸ ho) hk (h.receiversWhere ht hu hw) (hids hl)

/-- Inflated widgets are delivered in a second run as in the first. -/
theorem Again.delivered {key : InflationKey} (hdue : t.LayoutDue key)
    (hr : t.flowgraph.inflations[key]? = some (some r)) : u.Delivered key r := by
  obtain ⟨root, hroot, hdel⟩ := hu.inflated.layouts key (h.layoutDue ht hu hdue)
  rw [h.repeats.flowgraph] at hroot
  exact hdel r (Option.some.inj (hroot.symm.trans hr))

end Covered

/-- An item that the first run finds, a second run finds, as the look-up finds it in the end. -/
theorem Covered.item {o : Op} (hu : Solved c u) (h : Again c t u) (hitems : t.ItemsCurrent)
    (hk : ∀ j < k, Covered j t u) (hcov : Covered k s u) (ho : t.graph.op? op = some o)
    (hkind : o.kind = .findView .menuItem) (hr : r ∈ s.receivers op) (hn : n ∈ t.graph.descendants r)
    (hres : n ∈ t.results op) (hdepth : u.graph.depth n ≤ k) : Finds c u op n := by
  have hgraph := h.repeats.graph
  have hclosed : u.graph.Closed := hu.inv.valid.closed
  obtain ⟨r', hr', hn'⟩ := hitems op o ho hkind n hres
  rw [← hgraph] at hn ho
  rw [← hgraph, ← h.ids] at hn'
  rcases mem_foundBelow_menuItem.mp hn' with hid | ⟨_, hproper⟩
  · -- an item with the right id is found below every receiver around it
    have hr : r ∈ u.receivers op := hcov.solution _ _ _ hr ((Graph.depth_le hclosed hn).trans hdepth)
    have hn := mem_descendantsWithId.mpr ⟨hn, (mem_descendantsWithId.mp hid).2⟩
    exact .view ho hkind hr (mem_foundBelow_menuItem.mpr (.inl hn))
  · -- any other item is found below a receiver that is not as deep
    obtain ⟨hdesc, hne⟩ := mem_properDescendants.mp hproper
    have hlt : u.graph.depth r' < k := (Graph.depth_lt hclosed hu.inv.sound.acyclic hdesc hne).trans_le hdepth
    exact .view ho hkind ((hk _ hlt).solution _ _ _ hr' (Nat.le_refl _)) hn'

/-- What the first run finds, a second run finds. -/
theorem Covered.finds (ht : Solved c t) (hu : Solved c u) (h : Again c t u) (hitems : t.ItemsCurrent)
    (hk : ∀ j < k, Covered j t u) (hcov : Covered k s u) (hs : Inv c s) (hle : s.Le t) (hf : Finds c s op n)
    (hres : n ∈ t.results op) (hdepth : u.graph.depth n ≤ k) : Finds c u op n := by
  have hgraph := h.repeats.graph
  have hclosed : u.graph.Closed := hu.inv.valid.closed
  -- a node that another is inside of is not as deep
  have habove : ∀ {r}, n ∈ t.graph.descendants r → u.graph.depth r ≤ k := fun hn =>
    (Graph.depth_le hclosed (hgraph ▸ hn)).trans hdepth
  cases hf with
  | @view o q r ho hkind hr hn =>
    have ho := (hle.op? op).trans ho
    have hbelow := hle.graph.descendants (mem_descendants_of_foundBelow hn)
    cases q with
    | menuItem => exact hcov.item hu h hitems hk ho hkind hr hbelow hres hdepth
    | ordinary =>
      refine .view (hgraph ▸ ho) hkind (hcov.solution _ _ _ hr (habove hbelow)) ?_
      rw [foundBelow_ordinary] at hn ⊢
      rw [hgraph, h.ids]
      exact hle.descendantsWithId hn
  | navigation ho hkind hr hn =>
    have hbelow := hle.graph.descendants (mem_descendants_of_navigated hs.valid.closed hn)
    exact .navigation (hgraph ▸ (hle.op? op).trans ho) hkind (hcov.solution _ _ _ hr (habove hbelow))
      (hgraph ▸ hle.navigated hn)
  | @window o w ho hkind hw hn =>
    have hwindow : ∀ {v}, v ∈ s.rootsOf w → w ∈ u.receivers op := fun hv =>
      h.window ht hu (hle.receivers hw) (hle.graph.object?_any Obj.blind_isWindow (hs.isWindow_of_root hv))
    rcases mem_foundIn.mp hn with ⟨hcontent, hact, hroot⟩ | ⟨v, hv, hn⟩
    · refine .window (hgraph ▸ (hle.op? op).trans ho) hkind (hwindow hroot) (mem_foundIn.mpr (.inl ⟨?_, ?_, ?_⟩))
      · rw [hgraph, h.ids]
        exact hle.asksForContent hcontent
      · rw [hgraph]
        exact hle.graph.object?_any Obj.blind_isActivity hact
      · exact hcov.roots _ _ hroot hdepth
    · have hn := hle.descendantsWithId hn
      have hv' := hcov.roots _ _ hv (habove (mem_descendantsWithId.mp hn).1)
      rw [← hgraph, ← h.ids] at hn
      exact .window (hgraph ▸ (hle.op? op).trans ho) hkind (hwindow hv) (mem_foundIn.mpr (.inr ⟨v, hv', hn⟩))

/-- **A step of the first run finds nothing that a second run does not find**, if the second run finds all that was
found before and all that is not as deep. -/
theorem Step.covered (ht : Solved c t) (hu : Solved c u) (h : Again c t u) (hitems : t.ItemsCurrent)
    (hk : ∀ j < k, Covered j t u) (hcov : Covered k s u) (hs : Inv c s) (hle : s'.Le t) (hst : Step c p s s') :
    Covered k s' u := by
  have hgraph := h.repeats.graph
  have hst' := hst.le.trans hle
  have haccepts : ∀ {x n}, accepts c.project.program s.graph x n = true → accepts c.project.program u.graph x n = true :=
    fun ha => hgraph ▸ accepts_mono hs.valid hst' ha
  refine ⟨fun op slot n hn hdepth => ?_, fun w v hv hdepth => ?_⟩
  · rcases hst.solution_cases (x := ⟨op, slot⟩) hn with hn' | he
    · exact hcov.solution _ _ _ hn' hdepth
    · cases he with
      | seed ha hn =>
        have hcand := ht.inv.candidates _ _ (hst'.candidates _ _ hn)
        exact hu.classified.seeded _ _ (hu.classified.objects _ _ (hgraph ▸ hcand)) (haccepts ha)
      | propagate ha hx hn =>
        obtain ⟨hop, hreach⟩ := ht.inv.downstream _ _ (hst'.downstream _ _ hx)
        have hdown := hu.classified.results _ _ (hgraph ▸ hop) (hgraph ▸ hreach)
        exact hu.propagated _ _ hdown _ (hcov.solution _ _ _ hn hdepth) (haccepts ha)
      | find ha hf =>
        have hf := hcov.finds ht hu h hitems hk hs hst' hf (hle.solution _ _ _ hn) hdepth
        obtain ⟨o, ho, htag⟩ := hf.tag_mem
        exact (hu.resolved_of ho htag).found _ hf (haccepts ha)
      | inflate hdue hr => exact h.delivered ht hu (hdue.mono hst') (hle.inflations _ _ hr)
  · rcases hst.roots_cases hv with hv | hv
    · exact hcov.roots _ _ hv hdepth
    · cases hv with
      | set ho hkind hw hv =>
        obtain ⟨hv, hwidget⟩ := mem_widgetParameters.mp hv
        have hw := h.receiversWhere ht hu (hst'.receiversWhere Obj.blind_isWindow hw)
        have hv := mem_widgetParameters.mpr ⟨hcov.solution _ _ _ hv hdepth,
          hgraph ▸ hst'.graph.object?_any Obj.blind_isWidget hwidget⟩
        exact (hu.resolved_of (hgraph ▸ (hst'.op? _).trans ho) (by rw [hkind]; decide)).root hkind _ hw _ hv
      | inflate hdue hr => exact h.delivered ht hu (hdue.mono hst') (hle.inflations _ _ hr)

theorem Run.covered (ht : Solved c t) (hu : Solved c u) (h : Again c t u) (hitems : t.ItemsCurrent)
    (hk : ∀ j < k, Covered j t u) (hcov : Covered k s u) (hs : Inv c s) (hle : s'.Le t) (hst : Run c s s') :
    Covered k s' u := by
  induction hst with
  | refl => exact hcov
  | tail hrun hst ih =>
    obtain ⟨_, hst⟩ := hst
    exact hst.covered ht hu h hitems hk (ih (hst.le.trans hle)) (Run.inv hs hrun) hle

/-- A second run knows all that the first does, by induction on the depth of what is known. -/
theorem Again.covered {f : Flowgraph} (hf : f.Sound) (hrun : Run c { flowgraph := f } t) (ht : Solved c t)
    (hu : Solved c u) (h : Again c t u) (hitems : t.ItemsCurrent) (k : Nat) : Covered k t u := by
  induction k using Nat.strong_induction_on with
  | _ k ih =>
    have hstart : Covered k { flowgraph := f } u := by
      refine ⟨fun op slot n hn => ?_, fun w v hv => ?_⟩
      · simp [Solver.solution] at hn
      · simp [rootsOf] at hv
    exact Run.covered ht hu h hitems ih hstart (inv_init hf) (.refl t) hrun

/-! ## Solving again -/

/-- A second run does not fail. -/
theorem solve_again (ht : Solved c t) :
    ∃ u, solve c { flowgraph := t.flowgraph } = (.ok (), u) ∧ Again c t u ∧ Solved c u := by
  have hinit : Inv c { flowgraph := t.flowgraph } := inv_init ht.inv.sound
  have hclassify := classify_tries (c := c) (s := { flowgraph := t.flowgraph })
  rcases hx : classify c { flowgraph := t.flowgraph } with ⟨e | ⟨⟩, s⟩
  · obtain ⟨s', hst, hstrict, hviolated⟩ := hclassify.error hx
    have hrep := Steps.repeats_classify ht hinit (repeats_init rfl) hst
    exact absurd hviolated (hrep.not_violated (Steps.inv hinit hst) ht hstrict)
  · obtain ⟨hst, hc⟩ := hclassify.ok hx
    have hagain := again_of_classify ht hst hc
    have hrest := solveClassified_tries hagain.inv hc (Steps.settled_classify hst rfl)
    rcases hy : solveClassified c s with ⟨e | ⟨⟩, u⟩
    · obtain ⟨s', hrun, hstrict, hviolated⟩ := hrest.error hy
      have hagain := Run.again ht hagain hrun
      exact absurd hviolated (hagain.repeats.not_violated hagain.inv ht hstrict)
    · obtain ⟨hrun, hu⟩ := hrest.ok hy
      exact ⟨u, (bind_run_ok hx).trans hy, Run.again ht hagain hrun, hu⟩

/-- A second run with the same solution finds all items again. -/
theorem Again.itemsCurrent (h : Again c t u) (hsame : ∀ op slot, u.solution op slot = t.solution op slot) :
    t.ItemsCurrent := by
  intro op o ho hk n hn
  have hitems := h.items op o (h.repeats.graph ▸ ho) hk n (by rw [results, hsame]; exact hn)
  rw [receivers, hsame, h.repeats.graph, h.ids] at hitems
  exact hitems

/-- **Solving again.** A second run with the flowgraph of the first neither fails nor changes the flowgraph nor finds
anything new. It gives the same solution exactly if the items that menu look-ups found are still what they find. -/
theorem solve_again_iff (h : analyze c = .ok t) :
    ∃ u, solve c { flowgraph := t.flowgraph } = (.ok (), u) ∧ u.Repeats t ∧
      ((∀ op slot, u.solution op slot = t.solution op slot) ∧ (∀ w, u.rootsOf w = t.rootsOf w) ↔ t.ItemsCurrent) := by
  obtain ⟨f, hf, hrun, ht⟩ := solved_of_analyze h
  obtain ⟨u, hsolve, hagain, hu⟩ := solve_again ht
  refine ⟨u, hsolve, hagain.repeats, fun hsame => hagain.itemsCurrent hsame.1, fun hitems => ?_⟩
  have hcov := fun k => Again.covered hf hrun ht hu hagain hitems k
  refine ⟨fun op slot => ?_, fun w => ?_⟩
  · refine ExtTreeSet.ext_mem fun n => ⟨hagain.repeats.solution op slot n, fun hn => ?_⟩
    exact (hcov _).solution op slot n hn (Nat.le_refl _)
  · refine ExtTreeSet.ext_mem fun v => ⟨hagain.repeats.roots w v, fun hv => ?_⟩
    exact (hcov _).roots w v hv (Nat.le_refl _)

end Solver

/-- The activity inflates a menu with an item of id 6, adds an item of id 5, and looks for an item. -/
def Example.withMenu (id : Int) : Context :=
  let menu : Local := ⟨"menu", .ref "android.view.Menu"⟩
  let item : Local := ⟨"item", .ref "android.view.MenuItem"⟩
  let inflater : Local := ⟨"inflater", .ref "android.view.MenuInflater"⟩
  let onCreateOptionsMenu := methodOf "onCreateOptionsMenu" [menu.ty] ⟨.boolean, 0⟩ [
    .assign (.var this) .this,
    .assign (.var menu) (.parameter 0),
    .call (callOn inflater "inflate" [.int, menu.ty] ⟨.void, 0⟩ [.int 70, .var menu]),
    .call (callOn menu "add" [.int, .int, .int, .ref "java.lang.CharSequence"] item.ty
      [.int 0, .int 5, .int 0, .str "Save"]),
    .assign (.var item) (.call (callOn menu "findItem" [.int] item.ty [.int id])),
    .ret (some (.int 1))]
  application [onCreateOptionsMenu] {
    menus := byId [(70, templateOf none none [templateOf none (some 6) []])]
    menuIds := byId [(70, "main")]
    widgetIds := byId [(5, "save"), (6, "open")] }

namespace Solver

/-- A second run finds the inflated item again. -/
theorem solve_again_inflated : ∃ t u, analyze (Example.withMenu 6) = .ok t ∧ 15 ∈ t.results 14 ∧
    solve (Example.withMenu 6) { flowgraph := t.flowgraph } = (.ok (), u) ∧ u.results 14 = t.results 14 := by
  have heval : (analyze (Example.withMenu 6)).toOption.any (fun t => 15 ∈ t.results 14 ∧ t.ItemsCurrent) = true := by
    decide +kernel
  obtain ⟨t, ht, hk⟩ := exists_of_analyze heval
  obtain ⟨hmem, hitems⟩ := of_decide_eq_true hk
  obtain ⟨u, hsolve, _, hsame⟩ := solve_again_iff ht
  exact ⟨t, u, ht, hmem, hsolve, (hsame.mpr hitems).1 14 .result⟩

/-- **Solving again can lose an item.** The look-up takes the inflated item as no item has the right id, and the item
that is added then has it. -/
theorem solve_again_loses_item : ¬∀ c t, analyze c = .ok t →
    ∃ u, solve c { flowgraph := t.flowgraph } = (.ok (), u) ∧
      (∀ op slot, u.solution op slot = t.solution op slot) ∧ ∀ w, u.rootsOf w = t.rootsOf w := by
  have heval : (analyze (Example.withMenu 5)).toOption.any (fun t => ¬t.ItemsCurrent) = true := by decide +kernel
  obtain ⟨t, ht, hitems⟩ := exists_of_analyze heval
  obtain ⟨_, _, _, hsolved⟩ := solved_of_analyze ht
  obtain ⟨u, hsolve, hagain, _⟩ := solve_again hsolved
  intro hall
  obtain ⟨u', hsolve', hsame, _⟩ := hall _ _ ht
  obtain rfl : u = u' := congrArg Prod.snd (hsolve.symm.trans hsolve')
  exact of_decide_eq_true hitems (hagain.itemsCurrent hsame)

end Solver

end WidgetFlow
