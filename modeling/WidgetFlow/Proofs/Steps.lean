import WidgetFlow.Proofs.Copies

/-!
# What a solver can do

A solver takes steps of a few kinds (`Solver.Step`), each with the reason for what it adds: flow brings an id or an
object to an operand, an operation finds a node, a layout is inflated because its id reaches an inflating operation.
Everything else about solving is derived from these steps. The steps belong to phases, as the invariants that hold
between phases are broken and restored within them.

* `Step.le`: a step removes nothing (`Solver.Le`);
* `Step.solution_cases`, `Step.roots_cases` and their like: what a step adds to each registry, and why.
-/

namespace WidgetFlow

open Std Relation Flowgraph

/-! ## What flow brings to operands -/

namespace Graph

variable {g g' : Graph} {n op : NodeId} {x : Operand}

/-- An id reaches the parameter of an operation that expects it. -/
def TakesId (g : Graph) (op id : NodeId) : Prop :=
  ∃ i o, g.id? id = some i ∧ g.op? op = some o ∧ Operand.mk op .parameter ∈ g.operandsReached id
    ∧ o.kind.expectsId i.space = true

/-- An object reaches an operand of an operation that expects it there. -/
def TakesObject (g : Graph) (x : Operand) (n : NodeId) : Prop :=
  ∃ object o, g.object? n = some object ∧ g.op? x.op = some o ∧ x ∈ g.operandsReached n
    ∧ o.kind.expects x.slot object = true

/-- An id reaches an operation that does not expect it. -/
def RefusesId (g : Graph) (op id : NodeId) : Prop :=
  ∃ i o slot, g.id? id = some i ∧ g.op? op = some o ∧ Operand.mk op slot ∈ g.operandsReached id
    ∧ ¬(slot = .parameter ∧ o.kind.expectsId i.space = true) ∧ ¬(slot = .parameter ∧ o.kind.ignoresId i.space = true)

/-- An object reaches an operation that does not expect it. -/
def RefusesObject (g : Graph) (op n : NodeId) : Prop :=
  ∃ object o slot, g.object? n = some object ∧ g.op? op = some o ∧ Operand.mk op slot ∈ g.operandsReached n
    ∧ o.kind.expects slot object = false

/-- A value reaches an operation that does not expect it. -/
def Refuses (g : Graph) (op n : NodeId) : Prop := g.RefusesId op n ∨ g.RefusesObject op n

/-- The fault of a value that reaches an operation that does not expect it. -/
def unexpected (g : Graph) (n op : NodeId) : Fault :=
  ⟨.unexpectedFlow (g.describe n) (g.describe op), g.opLabel? op⟩

theorem mem_operandsReached : x ∈ g.operandsReached n ↔ x.op ≠ n ∧ x.op ∈ g.forward n ∧ x.slot ≠ .result ∧
    ∃ o y, g.op? x.op = some o ∧ o.operand? x.slot = some y ∧ y ∈ g.forward n := by
  obtain ⟨op, slot⟩ := x
  simp only [operandsReached, List.mem_flatMap, ExtTreeSet.mem_toList]
  constructor
  · rintro ⟨m, hm, h⟩
    split at h
    · rename_i o ho
      split at h
      · cases h
      · rename_i hne
        obtain ⟨slot', hslot, h⟩ := List.mem_filterMap.mp h
        split at h
        · rename_i hy
          cases h
          obtain ⟨y, hy, hf⟩ := (Option.any_eq_true _ _).mp hy
          refine ⟨hne, hm, ?_, o, y, ho, hy, ExtTreeSet.contains_iff_mem.mp hf⟩
          rintro rfl
          simp at hslot
        · cases h
    · cases h
  · rintro ⟨hne, hf, hslot, o, y, ho, hy, hfy⟩
    refine ⟨op, hf, ?_⟩
    rw [ho]
    show _ ∈ if op = n then _ else _
    rw [if_neg hne]
    refine List.mem_filterMap.mpr ⟨slot, ?_, ?_⟩
    · cases slot with
      | receiver => simp
      | parameter => simp
      | result => exact absurd rfl hslot
    · rw [if_pos]
      exact (Option.any_eq_true _ _).mpr ⟨y, hy, ExtTreeSet.contains_iff_mem.mpr hfy⟩

theorem Extends.operandsReached (h : g.Extends g') (hx : x ∈ g.operandsReached n) : x ∈ g'.operandsReached n := by
  obtain ⟨hne, hf, hslot, o, y, ho, hy, hfy⟩ := mem_operandsReached.mp hx
  exact mem_operandsReached.mpr ⟨hne, h.forward hf, hslot, o, y, h.op? ho, hy, h.forward hfy⟩

theorem TakesId.mono (h : g.TakesId op n) (hg : g.Extends g') : g'.TakesId op n := by
  obtain ⟨i, o, hi, ho, hr, he⟩ := h
  exact ⟨i, o, hg.id? hi, hg.op? ho, hg.operandsReached hr, he⟩

end Graph

/-- What an operation expects does not depend on the views of context menus. -/
theorem OpKind.blind_expects (kind : OpKind) (slot : Slot) : Obj.Blind (kind.expects slot) := fun _ _ _ _ => rfl

/-- Both ends of an arc are nodes. -/
def Graph.Spans (g : Graph) (a : Arc) : Prop := a.src < g.size ∧ a.dst < g.size

theorem Graph.Refuses.spans {g : Graph} {op n : NodeId} (h : g.Refuses op n) : g.Spans ⟨n, op⟩ := by
  rcases h with ⟨i, o, slot, hi, ho, _⟩ | ⟨object, o, slot, hobj, ho, _⟩
  · exact ⟨id?_lt hi, op?_lt ho⟩
  · exact ⟨object?_lt hobj, op?_lt ho⟩

theorem Graph.TakesObject.mono {g g' : Graph} {x : Operand} {n : NodeId} (h : g.TakesObject x n) (hg : g.Grows g') :
    g'.TakesObject x n := by
  obtain ⟨object, o, hn, ho, hr, he⟩ := h
  have he' := hg.object?_map (OpKind.blind_expects o.kind x.slot) (by rw [hn]; exact congrArg some he)
  obtain ⟨object', hn', he'⟩ := Option.map_eq_some_iff.mp he'
  exact ⟨object', o, hn', hg.toExtends.op? ho, hg.toExtends.operandsReached hr, he'⟩

namespace Solver

variable {s t u : Solver} {c : Context} {op n m l w v : NodeId} {x : Operand} {slot : Slot}

/-! ## Reading and changing a solver -/

/-- The objects that flow reaches at an operand. -/
def candidatesOf (s : Solver) (x : Operand) : NodeSet := s.candidates.getD x ∅

/-- The operands that the result of an operation reaches. -/
def downstreamOf (s : Solver) (op : NodeId) : ExtTreeSet Operand := s.downstream.getD op ∅

def addId (s : Solver) (op id : NodeId) : Solver :=
  { s with ids := s.ids.alter op fun found => some ((found.getD ∅).insert id) }

def addCandidate (s : Solver) (x : Operand) (n : NodeId) : Solver :=
  { s with candidates := s.candidates.alter x fun found => some ((found.getD ∅).insert n) }

def addDownstream (s : Solver) (op : NodeId) (xs : List Operand) : Solver :=
  { s with downstream := s.downstream.alter op fun found => some ((found.getD ∅).insertMany xs) }

def addSolutions (s : Solver) (x : Operand) (ns : List NodeId) : Solver :=
  { s with solutions := s.solutions.insert x ((s.solution x.op x.slot).insertMany ns) }

def addRoots (s : Solver) (window : NodeId) (vs : List NodeId) : Solver :=
  { s with roots := s.roots.insert window ((s.rootsOf window).insertMany vs) }

def setGraph (s : Solver) (g : Graph) : Solver :=
  { s with flowgraph := { s.flowgraph with graph := g } }

/-- Remembers an inflation. -/
def cache (s : Solver) (key : InflationKey) (root : Option NodeId) : Solver :=
  { s with flowgraph := { s.flowgraph with inflations := s.flowgraph.inflations.insert key root } }

/-- Hands the topmost widget of an inflation to its window, or to the result of its operation. -/
def deliver (s : Solver) (key : InflationKey) (root : NodeId) : Solver :=
  match key.target with
  | none => { s with
      solutions := s.solutions.alter ⟨key.op, .result⟩ fun found => some ((found.getD ∅).insert root) }
  | some w => { s with roots := s.roots.alter w fun found => some ((found.getD ∅).insert root) }

theorem mem_idsOf_addId {id : NodeId} : n ∈ (s.addId op id).idsOf m ↔ m = op ∧ n = id ∨ n ∈ s.idsOf m :=
  Container.mem_getD_alter

theorem mem_candidatesOf_addCandidate {y : Operand} :
    n ∈ (s.addCandidate x m).candidatesOf y ↔ y = x ∧ n = m ∨ n ∈ s.candidatesOf y :=
  Container.mem_getD_alter

theorem mem_downstreamOf_addDownstream {xs : List Operand} :
    x ∈ (s.addDownstream op xs).downstreamOf m ↔ m = op ∧ x ∈ xs ∨ x ∈ s.downstreamOf m :=
  Container.mem_getD_alter_insertMany

theorem mem_solution_addSolutions {ns : List NodeId} :
    n ∈ (s.addSolutions x ns).solution op slot ↔ ⟨op, slot⟩ = x ∧ n ∈ ns ∨ n ∈ s.solution op slot :=
  Container.mem_getD_insert_insertMany

theorem mem_rootsOf_addRoots {vs : List NodeId} :
    n ∈ (s.addRoots w vs).rootsOf m ↔ m = w ∧ n ∈ vs ∨ n ∈ s.rootsOf m :=
  Container.mem_getD_insert_insertMany

theorem mem_solution_deliver {key : InflationKey} {r : NodeId} : n ∈ (s.deliver key r).solution op slot ↔
    (key.target = none ∧ op = key.op ∧ slot = .result ∧ n = r) ∨ n ∈ s.solution op slot := by
  unfold deliver
  split
  · rename_i h
    refine Container.mem_getD_alter.trans ?_
    simp [h, and_assoc, solution]
  · rename_i w h
    simp [h, solution]

theorem mem_rootsOf_deliver {key : InflationKey} {r : NodeId} : n ∈ (s.deliver key r).rootsOf w ↔
    (key.target = some w ∧ n = r) ∨ n ∈ s.rootsOf w := by
  unfold deliver
  split
  · rename_i h
    simp [h, rootsOf]
  · rename_i w' h
    refine Container.mem_getD_alter.trans ?_
    simp [h, rootsOf, eq_comm]

/-- A delivery changes solutions and roots only. -/
theorem deliver_eq {key : InflationKey} {r : NodeId} : s.deliver key r =
    { s with solutions := (s.deliver key r).solutions, roots := (s.deliver key r).roots } := by
  unfold deliver
  split <;> rfl

@[simp] theorem flowgraph_deliver {key : InflationKey} {r : NodeId} : (s.deliver key r).flowgraph = s.flowgraph := by
  unfold deliver
  split <;> rfl

@[simp] theorem graph_deliver {key : InflationKey} {r : NodeId} : (s.deliver key r).graph = s.graph :=
  congrArg Flowgraph.graph flowgraph_deliver

theorem mem_receiversWhere {p : Obj → Bool} :
    n ∈ s.receiversWhere op p ↔ n ∈ s.receivers op ∧ (s.graph.object? n).any p = true := by
  rw [receiversWhere, List.mem_filter, ExtTreeSet.mem_toList]

theorem mem_widgetParameters :
    n ∈ s.widgetParameters op ↔ n ∈ s.parameters op ∧ (s.graph.object? n).any (·.isWidget) = true := by
  rw [widgetParameters, List.mem_filter, ExtTreeSet.mem_toList]

theorem mem_idsIn {space : IdSpace} :
    n ∈ s.idsIn op space ↔ n ∈ s.idsOf op ∧ (s.graph.id? n).any (·.space = space) = true := by
  rw [idsIn, List.mem_filter, ExtTreeSet.mem_toList]

theorem mem_listenersOf :
    n ∈ s.listenersOf op ↔ (s.graph.op? op).any (·.kind.tag = .setListener) = true ∧ n ∈ s.parameters op := by
  unfold listenersOf
  split <;> simp_all

theorem mem_orderedIds : n ∈ s.orderedIds op ↔
    n ∈ s.idsOf op ∧ ∀ q, (s.graph.op? op).bind (·.parameter) = some q → n ∈ s.graph.backwardOrder q := by
  unfold orderedIds
  split
  · rename_i q hq
    simp [hq, and_comm]
  · rename_i hq
    simp [hq]

theorem mem_parameterSources {k : NodeKind → Bool} : n ∈ s.parameterSources op k ↔
    ∃ q, (s.graph.op? op).bind (·.parameter) = some q ∧ n ∈ s.graph.backwardOrder q
      ∧ (s.graph.node? n).any (k ·.kind) = true := by
  unfold parameterSources
  split
  · rename_i q hq
    simp [hq, Graph.backward]
  · rename_i hq
    simp [hq]

theorem lt_of_mem_parameterSources {k : NodeKind → Bool} (h : n ∈ s.parameterSources op k) : n < s.graph.size := by
  obtain ⟨_, _, _, ha⟩ := mem_parameterSources.mp h
  obtain ⟨a, ha, _⟩ := (Option.any_eq_true _ _).mp ha
  exact Graph.node?_lt ha

/-! ## The order -/

/-- Everything in `s` is in `t`. There are no new operations, and each inflated widget is a new node. -/
structure Le (s t : Solver) : Prop where
  graph : s.graph.Grows t.graph
  op? : ∀ n, t.graph.op? n = s.graph.op? n
  ids : ∀ op, ∀ n ∈ s.idsOf op, n ∈ t.idsOf op
  candidates : ∀ x, ∀ n ∈ s.candidatesOf x, n ∈ t.candidatesOf x
  downstream : ∀ op, ∀ x ∈ s.downstreamOf op, x ∈ t.downstreamOf op
  solution : ∀ op slot, ∀ n ∈ s.solution op slot, n ∈ t.solution op slot
  roots : ∀ w, ∀ n ∈ s.rootsOf w, n ∈ t.rootsOf w
  inflations : ∀ (key : InflationKey) r, s.flowgraph.inflations[key]? = some r → t.flowgraph.inflations[key]? = some r
  modelled : t.flowgraph.listeners.modelled = s.flowgraph.listeners.modelled
  dispatched : ∀ d ∈ s.flowgraph.listeners.dispatched, d ∈ t.flowgraph.listeners.dispatched
  reported : ∀ a ∈ s.reported, a ∈ t.reported
  rejected : ∀ a ∈ s.rejected, a ∈ t.rejected
  inflated : s.statistics.inflated ≤ t.statistics.inflated
  nodes : t.statistics.inflated + s.graph.size ≤ s.statistics.inflated + t.graph.size

namespace Le

theorem refl (s : Solver) : s.Le s :=
  ⟨.refl _, fun _ => rfl, fun _ _ h => h, fun _ _ h => h, fun _ _ h => h, fun _ _ _ h => h, fun _ _ h => h,
    fun _ _ h => h, rfl, fun _ h => h, fun _ h => h, fun _ h => h, Nat.le_refl _, Nat.le_refl _⟩

theorem trans (h : s.Le t) (h' : t.Le u) : s.Le u where
  graph := h.graph.trans h'.graph
  op? n := (h'.op? n).trans (h.op? n)
  ids op n hn := h'.ids op n (h.ids op n hn)
  candidates x n hn := h'.candidates x n (h.candidates x n hn)
  downstream op x hx := h'.downstream op x (h.downstream op x hx)
  solution op slot n hn := h'.solution op slot n (h.solution op slot n hn)
  roots w n hn := h'.roots w n (h.roots w n hn)
  inflations key r hr := h'.inflations key r (h.inflations key r hr)
  modelled := h'.modelled.trans h.modelled
  dispatched d hd := h'.dispatched d (h.dispatched d hd)
  reported a ha := h'.reported a (h.reported a ha)
  rejected a ha := h'.rejected a (h.rejected a ha)
  inflated := h.inflated.trans h'.inflated
  nodes := by
    have := h.nodes
    have := h'.nodes
    omega

variable (h : s.Le t)
include h

theorem receivers (hn : n ∈ s.receivers op) : n ∈ t.receivers op := h.solution op .receiver n hn

theorem receiversWhere {p : Obj → Bool} (hp : Obj.Blind p) (hn : n ∈ s.receiversWhere op p) :
    n ∈ t.receiversWhere op p := by
  obtain ⟨hn, ho⟩ := mem_receiversWhere.mp hn
  exact mem_receiversWhere.mpr ⟨h.receivers hn, h.graph.object?_any hp ho⟩

theorem widgetParameters (hn : n ∈ s.widgetParameters op) : n ∈ t.widgetParameters op := by
  obtain ⟨hn, ho⟩ := mem_widgetParameters.mp hn
  exact mem_widgetParameters.mpr ⟨h.solution op .parameter n hn, h.graph.object?_any Obj.blind_isWidget ho⟩

theorem listenersOf (hn : n ∈ s.listenersOf op) : n ∈ t.listenersOf op := by
  obtain ⟨ho, hn⟩ := mem_listenersOf.mp hn
  exact mem_listenersOf.mpr ⟨by rw [h.op?]; exact ho, h.solution op .parameter n hn⟩

theorem idsIn {space : IdSpace} (hn : n ∈ s.idsIn op space) : n ∈ t.idsIn op space := by
  obtain ⟨hn, hi⟩ := mem_idsIn.mp hn
  obtain ⟨i, hi, hs⟩ := (Option.any_eq_true _ _).mp hi
  exact mem_idsIn.mpr ⟨h.ids op n hn, (Option.any_eq_true _ _).mpr ⟨i, h.graph.toExtends.id? hi, hs⟩⟩

end Le

/-! ## Reasons -/

/-- A look-up finds a node among what is known. -/
inductive Finds (c : Context) (s : Solver) (op n : NodeId) : Prop
  | view {o : Op} {q : FindQuery} {r : NodeId} (ho : s.graph.op? op = some o) (hk : o.kind = .findView q)
      (hr : r ∈ s.receivers op) (hn : n ∈ foundBelow s.graph (s.idsOf op) q r)
  | window {o : Op} {w : NodeId} (ho : s.graph.op? op = some o) (hk : o.kind = .findInWindow) (hw : w ∈ s.receivers op)
      (hn : n ∈ s.foundIn (s.idsOf op) (asksForContent c.project.resources s.graph (s.idsOf op)) w)
  | navigation {o : Op} {d : Navigation} {r : NodeId} (ho : s.graph.op? op = some o) (hk : o.kind = .navigate d)
      (hr : r ∈ s.receivers op) (hn : n ∈ navigated s.graph d r)

/-- A layout id reaches an inflating operation, and the window of the operation is known. -/
inductive LayoutDue (s : Solver) : InflationKey → Prop
  | result {op l : NodeId} {o : Op} (ho : s.graph.op? op = some o) (hk : o.kind.tag = .inflate)
      (hl : l ∈ s.idsIn op .layout) : LayoutDue s ⟨op, l, none⟩
  | content {op l w : NodeId} {o : Op} (ho : s.graph.op? op = some o) (hk : o.kind.tag = .setContent)
      (hw : w ∈ s.receiversWhere op (·.isWindow)) (hl : l ∈ s.idsIn op .layout) : LayoutDue s ⟨op, l, some w⟩

/-- A menu id reaches an inflating operation whose menu is known. -/
inductive MenuDue (s : Solver) : InflationKey → Prop
  | menu {op l m : NodeId} {o : Op} (ho : s.graph.op? op = some o) (hk : o.kind.tag = .inflateMenu)
      (hm : m ∈ s.receiversWhere op (·.isMenu)) (hl : l ∈ s.idsIn op .menu) : MenuDue s ⟨op, l, some m⟩

/-- The topmost widget of an inflation is where it belongs. -/
def Delivered (s : Solver) (key : InflationKey) (r : NodeId) : Prop :=
  match key.target with
  | none => r ∈ s.results key.op
  | some w => r ∈ s.rootsOf w

theorem LayoutDue.mono {key : InflationKey} (h : s.LayoutDue key) (hst : s.Le t) : t.LayoutDue key := by
  cases h with
  | result ho hk hl => exact .result ((hst.op? _).trans ho) hk (hst.idsIn hl)
  | content ho hk hw hl =>
    exact .content ((hst.op? _).trans ho) hk (hst.receiversWhere Obj.blind_isWindow hw) (hst.idsIn hl)

theorem Delivered.mono {key : InflationKey} {r : NodeId} (h : s.Delivered key r) (hst : s.Le t) :
    t.Delivered key r := by
  unfold Delivered at *
  split at h
  · exact hst.solution _ _ _ h
  · exact hst.roots _ _ h

theorem delivered_deliver {key : InflationKey} {r : NodeId} : (s.deliver key r).Delivered key r := by
  unfold Delivered
  split
  · rename_i h
    exact mem_solution_deliver.mpr (.inl ⟨h, rfl, rfl, rfl⟩)
  · rename_i w h
    exact mem_rootsOf_deliver.mpr (.inl ⟨h, rfl⟩)

/-! ## Steps -/

end Solver

/-- A flowgraph with one more node. -/
def Flowgraph.withNode (f : Flowgraph) (k : NodeKind) : Flowgraph := { f with graph := f.graph.push k }

/-- Gives a node its attributes. -/
def Node.equip (id : Option NodeId) (texts drawables : List NodeId) (a : Node) : Node :=
  { a with id := id, texts := a.texts.insertMany texts, drawables := a.drawables.insertMany drawables }

theorem Node.equip_grows {id : Option NodeId} {texts drawables : List NodeId} {a : Node} (h : a.id = none) :
    a.Grows (a.equip id texts drawables) := by
  refine ⟨.refl _, fun i hi => ?_, fun _ h => Container.mem_insertMany.mpr (.inl h),
    fun _ h => Container.mem_insertMany.mpr (.inl h)⟩
  rw [h] at hi
  cases hi

/-- Widgets can be inside everything but a window, whose root views are kept apart. -/
def Obj.isHost (o : Obj) : Bool := !o.isWindow

theorem Obj.blind_isHost : Obj.Blind Obj.isHost := fun _ _ _ _ => rfl

theorem Obj.isHost_iff {o : Obj} : o.isHost = true ↔ o.isWindow = false := by rw [isHost, Bool.not_eq_true']

theorem Obj.isHost_of_isWidget {o : Obj} (h : o.isWidget = true) : o.isHost = true := by
  cases o <;> first | rfl | cases h

theorem Obj.isHost_of_isMenu {o : Obj} (h : o.isMenu = true) : o.isHost = true := by
  cases o <;> first | rfl | cases h

namespace Graph

variable {g g' : Graph} {r : Resources} {layout n : NodeId}

/-- The class of the topmost widget of the layout that an id names. -/
def layoutClass? (g : Graph) (r : Resources) (layout : NodeId) : Option String :=
  (g.id? layout).bind fun i => r.layouts[i.value]?.bind (·.cls)

/-- A node is the topmost widget of a layout. -/
def IsTopmost (g : Graph) (r : Resources) (layout n : NodeId) : Prop :=
  ∃ cls, g.layoutClass? r layout = some cls ∧ g.object? n = some (.inflated cls)

theorem object?_any_imp {k k' : Obj → Bool} (hk : ∀ {o}, k o = true → k' o = true) (h : (g.object? n).any k = true) :
    (g.object? n).any k' = true := by
  obtain ⟨o, ho, h⟩ := (Option.any_eq_true _ _).mp h
  exact (Option.any_eq_true _ _).mpr ⟨o, ho, hk h⟩

theorem isHost_of_isWidget (h : (g.object? n).any (·.isWidget) = true) : (g.object? n).any (·.isHost) = true :=
  object?_any_imp Obj.isHost_of_isWidget h

theorem not_isWindow_of_isHost (h : (g.object? n).any (·.isHost) = true) :
    ¬(g.object? n).any (·.isWindow) = true := by
  obtain ⟨o, ho, hno⟩ := (Option.any_eq_true _ _).mp h
  rw [ho]
  exact Bool.eq_false_iff.mp (Obj.isHost_iff.mp hno)

theorem IsTopmost.isWidget (h : g.IsTopmost r layout n) : (g.object? n).any (·.isWidget) = true := by
  obtain ⟨cls, _, ho⟩ := h
  rw [ho]
  rfl

theorem IsTopmost.mono (h : g.IsTopmost r layout n) (hg : g.Grows g') : g'.IsTopmost r layout n := by
  obtain ⟨cls, hcls, ho⟩ := h
  obtain ⟨i, hi, ht⟩ := Option.bind_eq_some_iff.mp hcls
  exact ⟨cls, Option.bind_eq_some_iff.mpr ⟨i, hg.toExtends.id? hi, ht⟩, hg.object?_inflated ho⟩

end Graph

namespace Solver

variable {s t u : Solver} {c : Context} {op n m l w v : NodeId} {x : Operand} {slot : Slot}

/-- A solver with a new widget. -/
def made (s : Solver) (f : Flowgraph) (log : List Log.Entry) (origin : NodeId × NodeId) (pending : Bool) : Solver :=
  { s with
    flowgraph := f, log := log, origins := s.origins.insert s.graph.size origin, pending := pending
    statistics := { s.statistics with inflated := s.statistics.inflated + 1 } }

/-- One step of an inflation: a widget with its attributes and the flow into the methods of its class, a widget inside
another, or an entry of the log. -/
inductive Inflates (c : Context) : Solver → Solver → Prop
  | note {s : Solver} {log : List Log.Entry} {rejected : ExtTreeSet Arc}
      (h : c.settings.strict = true → rejected = s.rejected) (hr : ∀ a ∈ s.rejected, a ∈ rejected)
      (hb : ∀ a ∈ rejected, a ∈ s.rejected ∨ s.graph.Spans a) :
      Inflates c s { s with log := log, rejected := rejected }
  | widget {s : Solver} {object : Obj} {f₁ f₂ : Flowgraph} {id : Option NodeId} {texts drawables : List NodeId}
      {origin : NodeId × NodeId} {pending : Bool} {log : List Log.Entry}
      (hobj : object.isWidget = true)
      (h₁ : Edits c.Interns (s.flowgraph.withNode (.object object)) f₁)
      (hfresh : (f₁.graph.node? s.graph.size).any (·.id.isNone) = true)
      (h₂ : Edits c.Interns
        { f₁ with graph := f₁.graph.modify s.graph.size (Node.equip id texts drawables) } f₂)
      (hp : pending = false → s.pending = false ∧ ∀ a ∈ f₂.graph.flow, a ∈ s.graph.flow)
      (hb : ∀ n, id = some n ∨ n ∈ texts ∨ n ∈ drawables → n < f₁.graph.size) :
      Inflates c s (s.made f₂ log origin pending)
  | nest {s : Solver} {child parent : NodeId} {g : Graph} {added : Bool}
      (hc : (s.graph.object? child).any (·.isWidget) = true) (hp : (s.graph.object? parent).any (·.isHost) = true)
      (h : s.graph.nest child parent = .ok (g, added)) : Inflates c s (s.setGraph g)

/-- The end of the inflation of a layout. -/
def finish (s : Solver) (key : InflationKey) : Option NodeId → Solver
  | some r => (s.cache key (some r)).deliver key r
  | none => s.cache key none

/-- The parts of a pass. -/
inductive Phase where
  | classify | resolve | dispatch | inflate

/-- **One step of a solver**, with the reason for what it adds. The inflation of a layout or menu is one step. -/
inductive Step (c : Context) : Phase → Solver → Solver → Prop
  | note {p : Phase} {s : Solver} {log : List Log.Entry} {reported rejected : ExtTreeSet Arc} {statistics : Statistics}
      (hi : statistics.inflated = s.statistics.inflated)
      (hs : c.settings.strict = true → reported = s.reported ∧ rejected = s.rejected)
      (hm : (∀ a ∈ s.reported, a ∈ reported) ∧ ∀ a ∈ s.rejected, a ∈ rejected)
      (hb : (∀ a ∈ reported, a ∈ s.reported ∨ s.graph.Spans a) ∧ ∀ a ∈ rejected, a ∈ s.rejected ∨ s.graph.Spans a) :
      Step c p s { s with log := log, reported := reported, rejected := rejected, statistics := statistics }
  | settle {s : Solver} : Step c .classify s { s with pending := false }
  | id {s : Solver} {op id : NodeId} (h : s.graph.TakesId op id) : Step c .classify s (s.addId op id)
  | candidate {s : Solver} {x : Operand} {n : NodeId} (h : s.graph.TakesObject x n) :
      Step c .classify s (s.addCandidate x n)
  | downstream {s : Solver} {op : NodeId} {xs : List Operand} (ho : s.graph.isOp op = true)
      (h : ∀ x ∈ xs, x ∈ s.graph.operandsReached op) : Step c .classify s (s.addDownstream op xs)
  | seed {s : Solver} {x : Operand} {ns : List NodeId}
      (h : ∀ n ∈ ns, accepts c.project.program s.graph x n = true ∧ n ∈ s.candidatesOf x) (hx : x ∈ s.candidates) :
      Step c .classify s (s.addSolutions x ns)
  | propagate {s : Solver} {x : Operand} {ns : List NodeId}
      (h : ∀ n ∈ ns, accepts c.project.program s.graph x n = true ∧ ∃ op, x ∈ s.downstreamOf op ∧ n ∈ s.results op)
      (hx : s.graph.isOp x.op = true) :
      Step c .resolve s (s.addSolutions x ns)
  | find {s : Solver} {op : NodeId} {ns : List NodeId}
      (h : ∀ n ∈ ns, accepts c.project.program s.graph ⟨op, .result⟩ n = true ∧ Finds c s op n)
      (hx : s.graph.isOp op = true) :
      Step c .resolve s (s.addSolutions ⟨op, .result⟩ ns)
  | root {s : Solver} {op w : NodeId} {o : Op} {vs : List NodeId} (ho : s.graph.op? op = some o)
      (hk : o.kind = .setRoot) (hw : w ∈ s.receiversWhere op (·.isWindow)) (hv : ∀ v ∈ vs, v ∈ s.widgetParameters op) :
      Step c .resolve s (s.addRoots w vs)
  | nest {s : Solver} {op child parent : NodeId} {o : Op} {g : Graph} {added : Bool} (ho : s.graph.op? op = some o)
      (hk : o.kind = .addChild) (hc : child ∈ s.widgetParameters op) (hp : parent ∈ s.receivers op)
      (h : s.graph.nest child parent = .ok (g, added)) : Step c .resolve s (s.setGraph g)
  | bindId {s : Solver} {op n id : NodeId} {o : Op} (ho : s.graph.op? op = some o) (hk : o.kind = .setId)
      (hn : n ∈ s.receivers op) (hi : id ∈ s.orderedIds op) (hnone : (s.graph.node? n).any (·.id.isNone) = true) :
      Step c .resolve s (s.setGraph (s.graph.modify n fun a => { a with id := some id }))
  | texts {s : Solver} {op n : NodeId} {o : Op} {ts : List NodeId} (ho : s.graph.op? op = some o)
      (hk : o.kind = .setText) (hn : n ∈ s.receivers op) (ht : ∀ t ∈ ts, t ∈ s.parameterSources op isText) :
      Step c .resolve s (s.setGraph (s.graph.modify n fun a => { a with texts := a.texts.insertMany ts }))
  | drawables {s : Solver} {op n : NodeId} {o : Op} {ds : List NodeId} (ho : s.graph.op? op = some o)
      (hk : o.kind = .setImage) (hn : n ∈ s.receivers op) (hd : ∀ d ∈ ds, d ∈ s.parameterSources op isDrawable) :
      Step c .resolve s (s.setGraph (s.graph.modify n fun a => { a with drawables := a.drawables.insertMany ds }))
  | dispatch {s : Solver} {op view listener : NodeId} {f : Flowgraph} (hv : view ∈ s.receivers op)
      (hl : listener ∈ s.listenersOf op) (hm : op ∉ s.flowgraph.listeners.modelled)
      (hd : (op, view, listener) ∉ s.flowgraph.listeners.dispatched)
      (h : Edits c.Interns (s.flowgraph.mark op view listener) f) (hserved : f.Served c op view listener) :
      Step c .dispatch s { s with flowgraph := f }
  | layout {s t : Solver} {key : InflationKey} {root : Option NodeId} (hdue : s.LayoutDue key)
      (hnew : s.flowgraph.inflations[key]? = none) (hin : ReflTransGen (Inflates c) s t)
      (hroot : ∀ r, root = some r → t.graph.IsTopmost c.project.resources key.id r)
      (hsize : t.statistics.inflated ≤ s.statistics.inflated + c.project.resources.size)
      (hquiet : t.statistics.inflated = s.statistics.inflated → root = none ∧ t.graph = s.graph)
      (hgrown : ∃ w, Grown c.project.resources (key.op, key.id) (s.graph.parts c.project.resources key) w
        (s.graph.arcsOf key w) s t ∧ root = w.top?) :
      Step c .inflate s (t.finish key root)
  | menu {s t : Solver} {key : InflationKey} (hdue : s.MenuDue key) (hnew : s.flowgraph.inflations[key]? = none)
      (hin : ReflTransGen (Inflates c) (s.cache key none) t)
      (hsize : t.statistics.inflated ≤ s.statistics.inflated + c.project.resources.size)
      (hquiet : t.statistics.inflated = s.statistics.inflated → t.graph = s.graph)
      (hgrown : ∃ w, Grown c.project.resources (key.op, key.id) (s.graph.parts c.project.resources key) w
        (s.graph.arcsOf key w) (s.cache key none) t) : Step c .inflate s t
  | reuse {s : Solver} {key : InflationKey} {r : NodeId} (hdue : s.LayoutDue key)
      (h : s.flowgraph.inflations[key]? = some (some r)) : Step c .inflate s (s.deliver key r)

/-- A sequence of steps of one phase. -/
abbrev Steps (c : Context) (p : Phase) : Solver → Solver → Prop := ReflTransGen (Step c p)

/-- A sequence of steps. -/
abbrev Run (c : Context) : Solver → Solver → Prop := ReflTransGen fun s t => ∃ p, Step c p s t

theorem Steps.run {p : Phase} (h : Steps c p s t) : Run c s t := by
  induction h with
  | refl => exact .refl
  | tail _ h ih => exact ih.tail ⟨p, h⟩

/-! ## Nothing is removed -/

end Solver

/-- Nesting keeps a graph, or adds an arc that closes no cycle. -/
theorem Graph.nest_ok {g g' : Graph} {child parent : NodeId} {added : Bool}
    (h : g.nest child parent = .ok (g', added)) :
    (added = false ∧ g' = g ∧ Arc.mk child parent ∈ g.containment) ∨
    (added = true ∧ g' = { g with containment := g.containment.insert ⟨child, parent⟩ }
      ∧ Arc.mk child parent ∉ g.containment ∧ parent ∉ g.descendants child) := by
  unfold nest at h
  split at h
  · cases h
  · split at h
    · rename_i hc
      cases h
      exact .inl ⟨rfl, rfl, ExtTreeSet.contains_iff_mem.mp hc⟩
    · rename_i hc
      split at h
      · cases h
      · rename_i hd
        cases h
        exact .inr ⟨rfl, rfl, fun hm => hc (ExtTreeSet.contains_iff_mem.mpr hm), hd⟩

theorem Graph.nest_grows {g g' : Graph} {child parent : NodeId} {added : Bool}
    (h : g.nest child parent = .ok (g', added)) : g.Grows g' := by
  rcases nest_ok h with ⟨-, rfl, -⟩ | ⟨-, rfl, -⟩
  · exact .refl _
  · exact ⟨fun _ a ha => ⟨a, ha, .refl a⟩, fun _ _ h => h, fun _ h => Container.mem_insert.mpr (.inr h)⟩

theorem Graph.nodes_nest {g g' : Graph} {child parent : NodeId} {added : Bool}
    (h : g.nest child parent = .ok (g', added)) : g'.nodes = g.nodes := by
  rcases nest_ok h with ⟨-, rfl, -⟩ | ⟨-, rfl, -⟩ <;> rfl

theorem Graph.object?_nest {g g' : Graph} {n child parent : NodeId} {added : Bool}
    (h : g.nest child parent = .ok (g', added)) : g'.object? n = g.object? n := by
  rw [object?, node?, nodes_nest h]
  rfl

theorem Graph.mem_containment_nest {g g' : Graph} {child parent : NodeId} {added : Bool} {a : Arc}
    (h : g.nest child parent = .ok (g', added)) : a ∈ g'.containment ↔ a ∈ g.containment ∨ a = ⟨child, parent⟩ := by
  rcases nest_ok h with ⟨-, rfl, hmem⟩ | ⟨-, rfl, -⟩
  · exact (or_iff_left_of_imp fun (ha : a = _) => ha ▸ hmem).symm
  · exact Container.mem_insert.trans or_comm

theorem Graph.flow_nest {g g' : Graph} {child parent : NodeId} {added : Bool}
    (h : g.nest child parent = .ok (g', added)) : g'.flow = g.flow := by
  rcases nest_ok h with ⟨-, rfl, -⟩ | ⟨-, rfl, -⟩ <;> rfl

namespace Solver

variable {s t u : Solver} {c : Context} {op n m l w v : NodeId} {x : Operand} {slot : Slot} {p : Phase}

/-- A solver with a larger flowgraph. -/
theorem le_of_flowgraph {f : Flowgraph} (hg : s.graph.Grows f.graph) (hop : ∀ n, f.graph.op? n = s.graph.op? n)
    (hi : ∀ (key : InflationKey) r, s.flowgraph.inflations[key]? = some r → f.inflations[key]? = some r)
    (hm : f.listeners.modelled = s.flowgraph.listeners.modelled)
    (hd : ∀ d ∈ s.flowgraph.listeners.dispatched, d ∈ f.listeners.dispatched) : s.Le { s with flowgraph := f } :=
  { Le.refl s with
    graph := hg, op? := hop, inflations := hi, modelled := hm, dispatched := hd
    nodes := Nat.add_le_add_left hg.toExtends.size _ }

theorem le_setGraph {g : Graph} (hg : s.graph.Grows g) (hop : ∀ n, g.op? n = s.graph.op? n) : s.Le (s.setGraph g) :=
  le_of_flowgraph hg hop (fun _ _ h => h) rfl fun _ h => h

theorem le_nest {child parent : NodeId} {g : Graph} {added : Bool} (h : s.graph.nest child parent = .ok (g, added)) :
    s.Le (s.setGraph g) :=
  le_setGraph (Graph.nest_grows h) fun n => by rw [Graph.op?, Graph.node?, Graph.nodes_nest h]; rfl

theorem le_modify {f : Node → Node} (hf : ∀ a, s.graph.node? n = some a → a.Grows (f a))
    (hk : ∀ a, (f a).kind = a.kind) : s.Le (s.setGraph (s.graph.modify n f)) :=
  le_setGraph (Graph.modify_grows hf) fun _ => Graph.op?_modify fun a => by rw [hk]

theorem le_addSolutions {ns : List NodeId} : s.Le (s.addSolutions x ns) :=
  { Le.refl s with solution := fun _ _ _ h => mem_solution_addSolutions.mpr (.inr h) }

theorem le_cache {key : InflationKey} {root : Option NodeId} (h : s.flowgraph.inflations[key]? = none) :
    s.Le (s.cache key root) :=
  le_of_flowgraph (.refl _) (fun _ => rfl) (fun _ _ hr => Container.getElem?_insert_of_getElem? h hr) rfl fun _ h => h

theorem le_deliver {key : InflationKey} {r : NodeId} : s.Le (s.deliver key r) := by
  refine ⟨by rw [graph_deliver]; exact .refl _, fun n => by rw [graph_deliver], ?_, ?_, ?_,
    fun _ _ _ h => mem_solution_deliver.mpr (.inr h), fun _ _ h => mem_rootsOf_deliver.mpr (.inr h),
    fun _ _ h => by rw [flowgraph_deliver]; exact h, by rw [flowgraph_deliver],
    fun _ h => by rw [flowgraph_deliver]; exact h, ?_, ?_, ?_, ?_⟩
  all_goals rw [deliver_eq]
  · exact fun _ _ h => h
  · exact fun _ _ h => h
  · exact fun _ _ h => h
  · exact fun _ h => h
  · exact fun _ h => h
  · exact Nat.le_refl _

theorem le_finish {key : InflationKey} {root : Option NodeId} (h : s.flowgraph.inflations[key]? = none) :
    s.Le (s.finish key root) := by
  cases root with
  | none => exact le_cache h
  | some r => exact (le_cache h).trans le_deliver

theorem Inflates.le (h : Inflates c s t) : s.Le t := by
  cases h with
  | note _ hr => exact { Le.refl s with rejected := hr }
  | nest _ _ h => exact le_nest h
  | @widget object f₁ f₂ id texts drawables origin pending log hobj h₁ hfresh h₂ hp =>
    have hmod : f₁.graph.Grows (f₁.graph.modify s.graph.size (Node.equip id texts drawables)) := by
      refine Graph.modify_grows fun a ha => Node.equip_grows ?_
      rw [ha] at hfresh
      exact Option.isNone_iff_eq_none.mp hfresh
    have hle : s.Le { s with flowgraph := f₂ } := by
      refine le_of_flowgraph (Graph.push_grows.trans (h₁.grows.trans (hmod.trans h₂.grows))) (fun n => ?_)
        (fun key r hr => ?_) ?_ fun d hd => ?_
      · rw [h₂.op?]
        exact (Graph.op?_modify (f := Node.equip id texts drawables) fun a => rfl).trans
          (h₁.op?.trans (Graph.op?_push rfl))
      · rw [h₂.inflations]
        show f₁.inflations[key]? = some r
        rw [h₁.inflations]
        exact hr
      · exact h₂.modelled.trans h₁.modelled
      · rw [h₂.dispatched]
        show d ∈ f₁.listeners.dispatched
        rw [h₁.dispatched]
        exact hd
    refine { hle with inflated := Nat.le_succ _, nodes := ?_ }
    have hsize : (s.graph.push (.object object)).size ≤ f₂.graph.size :=
      (h₁.grows.trans (hmod.trans h₂.grows)).toExtends.size
    rw [Graph.size_push] at hsize
    show s.statistics.inflated + 1 + s.graph.size ≤ s.statistics.inflated + f₂.graph.size
    omega

theorem le_of_inflates (h : ReflTransGen (Inflates c) s t) : s.Le t := by
  induction h with
  | refl => exact .refl _
  | tail _ h ih => exact ih.trans h.le

theorem inflations_of_inflates (h : ReflTransGen (Inflates c) s t) :
    t.flowgraph.inflations = s.flowgraph.inflations := by
  induction h with
  | refl => rfl
  | tail _ h ih =>
    rw [← ih]
    cases h with
    | note | nest => rfl
    | widget _ h₁ _ h₂ => exact h₂.inflations.trans h₁.inflations

/-- **A step removes nothing.** -/
theorem Step.le (h : Step c p s t) : s.Le t := by
  cases h with
  | note hi _ hm =>
    exact { Le.refl s with
      reported := hm.1, rejected := hm.2, inflated := hi.ge, nodes := Nat.add_le_add_right hi.le _ }
  | settle => exact { Le.refl s with }
  | id => exact { Le.refl s with ids := fun _ _ h => mem_idsOf_addId.mpr (.inr h) }
  | candidate => exact { Le.refl s with candidates := fun _ _ h => mem_candidatesOf_addCandidate.mpr (.inr h) }
  | downstream => exact { Le.refl s with downstream := fun _ _ h => mem_downstreamOf_addDownstream.mpr (.inr h) }
  | seed | propagate | find => exact le_addSolutions
  | root => exact { Le.refl s with roots := fun _ _ h => mem_rootsOf_addRoots.mpr (.inr h) }
  | nest _ _ _ _ h => exact le_nest h
  | bindId _ _ _ _ hnone =>
    refine le_modify (fun a ha => ⟨.refl _, fun i hi => ?_, fun _ h => h, fun _ h => h⟩) fun _ => rfl
    rw [ha] at hnone
    rw [Option.isNone_iff_eq_none.mp hnone] at hi
    cases hi
  | texts =>
    exact le_modify (fun a _ => ⟨.refl _, fun _ h => h, fun _ h => Container.mem_insertMany.mpr (.inl h), fun _ h => h⟩)
      fun _ => rfl
  | drawables =>
    exact le_modify (fun a _ => ⟨.refl _, fun _ h => h, fun _ h => h, fun _ h => Container.mem_insertMany.mpr (.inl h)⟩)
      fun _ => rfl
  | dispatch _ _ _ _ h =>
    refine le_of_flowgraph h.grows (fun n => h.op?) (fun key r hr => ?_) h.modelled fun d hd => ?_
    · rw [h.inflations]
      exact hr
    · rw [h.dispatched]
      exact List.mem_append_left _ hd
  | layout _ hnew hin =>
    exact (le_of_inflates hin).trans (le_finish (by rw [inflations_of_inflates hin]; exact hnew))
  | menu _ hnew hin => exact (le_cache hnew).trans (le_of_inflates hin)
  | reuse => exact le_deliver

theorem Steps.le (h : Steps c p s t) : s.Le t := by
  induction h with
  | refl => exact .refl _
  | tail _ h ih => exact ih.trans h.le

theorem Run.le (h : Run c s t) : s.Le t := by
  induction h with
  | refl => exact .refl _
  | tail _ h ih => exact ih.trans h.choose_spec.le

/-! ## What a step adds -/

/-- Two solvers with the same registries. -/
structure Alike (s t : Solver) : Prop where
  ids : t.ids = s.ids
  candidates : t.candidates = s.candidates
  downstream : t.downstream = s.downstream
  solutions : t.solutions = s.solutions
  roots : t.roots = s.roots

theorem alike_of_inflates (h : ReflTransGen (Inflates c) s t) : s.Alike t := by
  induction h with
  | refl => exact ⟨rfl, rfl, rfl, rfl, rfl⟩
  | tail _ h ih => cases h <;> exact ⟨ih.ids, ih.candidates, ih.downstream, ih.solutions, ih.roots⟩

/-- The reason why a node enters the solution of an operand. -/
inductive Enters (c : Context) (s t : Solver) : Phase → Operand → NodeId → Prop
  | seed {x : Operand} {n : NodeId} (ha : accepts c.project.program s.graph x n = true) (hn : n ∈ s.candidatesOf x) :
      Enters c s t .classify x n
  | propagate {x : Operand} {op n : NodeId} (ha : accepts c.project.program s.graph x n = true)
      (hx : x ∈ s.downstreamOf op) (hn : n ∈ s.results op) : Enters c s t .resolve x n
  | find {op n : NodeId} (ha : accepts c.project.program s.graph ⟨op, .result⟩ n = true) (hf : Finds c s op n) :
      Enters c s t .resolve ⟨op, .result⟩ n
  | inflate {op l n : NodeId} (hdue : s.LayoutDue ⟨op, l, none⟩)
      (hr : t.flowgraph.inflations[InflationKey.mk op l none]? = some (some n)) : Enters c s t .inflate ⟨op, .result⟩ n

/-- The reason why a view becomes a root of a window. -/
inductive BecomesRoot (s t : Solver) (w v : NodeId) : Phase → Prop
  | set {op : NodeId} {o : Op} (ho : s.graph.op? op = some o) (hk : o.kind = .setRoot)
      (hw : w ∈ s.receiversWhere op (·.isWindow)) (hv : v ∈ s.widgetParameters op) : BecomesRoot s t w v .resolve
  | inflate {op l : NodeId} (hdue : s.LayoutDue ⟨op, l, some w⟩)
      (hr : t.flowgraph.inflations[InflationKey.mk op l (some w)]? = some (some v)) : BecomesRoot s t w v .inflate

theorem mem_solution_finish {key : InflationKey} {root : Option NodeId} : n ∈ (s.finish key root).solution op slot ↔
    (key.target = none ∧ op = key.op ∧ slot = .result ∧ root = some n) ∨ n ∈ s.solution op slot := by
  cases root with
  | none => simp [finish, cache, solution]
  | some r =>
    refine (mem_solution_deliver (s := s.cache key (some r))).trans (or_congr ?_ Iff.rfl)
    rw [Option.some_inj, eq_comm (a := n)]

theorem mem_rootsOf_finish {key : InflationKey} {root : Option NodeId} : n ∈ (s.finish key root).rootsOf w ↔
    (key.target = some w ∧ root = some n) ∨ n ∈ s.rootsOf w := by
  cases root with
  | none => simp [finish, cache, rootsOf]
  | some r =>
    refine (mem_rootsOf_deliver (s := s.cache key (some r))).trans (or_congr ?_ Iff.rfl)
    rw [Option.some_inj, eq_comm (a := n)]

theorem finish_eq {key : InflationKey} {root : Option NodeId} : s.finish key root =
    { s with
      flowgraph := { s.flowgraph with inflations := s.flowgraph.inflations.insert key root }
      solutions := (s.finish key root).solutions, roots := (s.finish key root).roots } := by
  cases root with
  | none => rfl
  | some r => exact deliver_eq

/-- **What enters a solution.** -/
theorem Step.solution_cases (h : Step c p s t) (hn : n ∈ t.solution x.op x.slot) :
    n ∈ s.solution x.op x.slot ∨ Enters c s t p x n := by
  cases h with
  | note | settle | id | candidate | downstream | root | nest | bindId | texts | drawables | dispatch => exact .inl hn
  | seed h =>
    rcases mem_solution_addSolutions.mp hn with ⟨hx, hm⟩ | hn
    · obtain rfl : x = _ := hx
      exact .inr (.seed (h n hm).1 (h n hm).2)
    · exact .inl hn
  | propagate h =>
    rcases mem_solution_addSolutions.mp hn with ⟨hx, hm⟩ | hn
    · obtain rfl : x = _ := hx
      obtain ⟨ha, op, hx, hr⟩ := h n hm
      exact .inr (.propagate ha hx hr)
    · exact .inl hn
  | find h =>
    rcases mem_solution_addSolutions.mp hn with ⟨hx, hm⟩ | hn
    · obtain rfl : x = _ := hx
      exact .inr (.find (h n hm).1 (h n hm).2)
    · exact .inl hn
  | @layout _ t' key root hdue hnew hin =>
    rcases mem_solution_finish.mp hn with ⟨hkey, hop, hslot, rfl⟩ | hn
    · obtain ⟨op, l, target⟩ := key
      obtain ⟨op', slot⟩ := x
      obtain rfl : target = none := hkey
      obtain rfl : op' = op := hop
      obtain rfl : slot = .result := hslot
      refine .inr (.inflate hdue ?_)
      rw [finish_eq, ExtTreeMap.getElem?_insert_self]
    · rw [solution, (alike_of_inflates hin).solutions] at hn
      exact .inl hn
  | menu _ _ hin =>
    rw [solution, (alike_of_inflates hin).solutions] at hn
    exact .inl hn
  | @reuse _ key r hdue hr =>
    rcases mem_solution_deliver.mp hn with ⟨hkey, hop, hslot, rfl⟩ | hn
    · obtain ⟨op, l, target⟩ := key
      obtain ⟨op', slot⟩ := x
      obtain rfl : target = none := hkey
      obtain rfl : op' = op := hop
      obtain rfl : slot = .result := hslot
      refine .inr (.inflate hdue ?_)
      rw [flowgraph_deliver]
      exact hr
    · exact .inl hn

/-- What becomes a root. -/
theorem Step.roots_cases (h : Step c p s t) (hn : n ∈ t.rootsOf w) : n ∈ s.rootsOf w ∨ BecomesRoot s t w n p := by
  cases h with
  | note | settle | id | candidate | downstream | seed | propagate | find | nest | bindId | texts | drawables
  | dispatch => exact .inl hn
  | root ho hk hw hv =>
    rcases mem_rootsOf_addRoots.mp hn with ⟨rfl, hm⟩ | hn
    · exact .inr (.set ho hk hw (hv n hm))
    · exact .inl hn
  | @layout _ t' key root hdue hnew hin =>
    rcases mem_rootsOf_finish.mp hn with ⟨hkey, rfl⟩ | hn
    · obtain ⟨op, l, target⟩ := key
      obtain rfl : target = some w := hkey
      refine .inr (.inflate hdue ?_)
      rw [finish_eq, ExtTreeMap.getElem?_insert_self]
    · rw [rootsOf, (alike_of_inflates hin).roots] at hn
      exact .inl hn
  | menu _ _ hin =>
    rw [rootsOf, (alike_of_inflates hin).roots] at hn
    exact .inl hn
  | @reuse _ key r hdue hr =>
    rcases mem_rootsOf_deliver.mp hn with ⟨hkey, rfl⟩ | hn
    · obtain ⟨op, l, target⟩ := key
      obtain rfl : target = some w := hkey
      refine .inr (.inflate hdue ?_)
      rw [flowgraph_deliver]
      exact hr
    · exact .inl hn

/-- What flow reaches changes only when it is classified. -/
theorem Step.registries (h : Step c p s t) (hp : p ≠ .classify) :
    t.ids = s.ids ∧ t.candidates = s.candidates ∧ t.downstream = s.downstream := by
  cases h with
  | settle | id | candidate | downstream | seed => exact absurd rfl hp
  | note | propagate | find | root | nest | bindId | texts | drawables | dispatch => exact ⟨rfl, rfl, rfl⟩
  | @layout _ t' key root _ _ hin =>
    have h := alike_of_inflates hin
    rw [finish_eq]
    exact ⟨h.ids, h.candidates, h.downstream⟩
  | menu _ _ hin =>
    have h := alike_of_inflates hin
    exact ⟨h.ids, h.candidates, h.downstream⟩
  | reuse =>
    rw [deliver_eq]
    exact ⟨rfl, rfl, rfl⟩

/-- Classifying changes the registries only. -/
theorem Step.flowgraph_classify (h : Step c .classify s t) : t.flowgraph = s.flowgraph := by
  cases h <;> rfl

theorem Step.ids_cases (h : Step c p s t) (hn : n ∈ t.idsOf op) : n ∈ s.idsOf op ∨ s.graph.TakesId op n := by
  by_cases hp : p = .classify
  · subst hp
    cases h with
    | note | settle | candidate | downstream | seed => exact .inl hn
    | id h =>
      rcases mem_idsOf_addId.mp hn with ⟨rfl, rfl⟩ | hn
      · exact .inr h
      · exact .inl hn
  · rw [idsOf, (h.registries hp).1] at hn
    exact .inl hn

theorem Step.candidates_cases (h : Step c p s t) (hn : n ∈ t.candidatesOf x) :
    n ∈ s.candidatesOf x ∨ s.graph.TakesObject x n := by
  by_cases hp : p = .classify
  · subst hp
    cases h with
    | note | settle | id | downstream | seed => exact .inl hn
    | candidate h =>
      rcases mem_candidatesOf_addCandidate.mp hn with ⟨rfl, rfl⟩ | hn
      · exact .inr h
      · exact .inl hn
  · rw [candidatesOf, (h.registries hp).2.1] at hn
    exact .inl hn

theorem Step.downstream_cases (h : Step c p s t) (hx : x ∈ t.downstreamOf op) :
    x ∈ s.downstreamOf op ∨ s.graph.isOp op = true ∧ x ∈ s.graph.operandsReached op := by
  by_cases hp : p = .classify
  · subst hp
    cases h with
    | note | settle | id | candidate | seed => exact .inl hx
    | downstream ho h =>
      rcases mem_downstreamOf_addDownstream.mp hx with ⟨rfl, hm⟩ | hx
      · exact .inr ⟨ho, h x hm⟩
      · exact .inl hx
  · rw [downstreamOf, (h.registries hp).2.2] at hx
    exact .inl hx

end Solver

end WidgetFlow
