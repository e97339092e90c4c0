import WidgetFlow.Graph.Containment
import WidgetFlow.Graph.Reach
import WidgetFlow.Proofs.Container
import WidgetFlow.Proofs.Search

/-!
# Graphs that grow

Two orders on graphs. `Graph.Extends g g'` is for the construction: `g'` has the nodes of `g` and its edges of flow with
their labels, and a node stays what it is up to the views of a context menu and the question whether a dialog can be
cancelled. `Graph.Grows g g'` is for solving: `g'` has also the ids, texts and drawables of the nodes and the edges of
containment, and only the views of context menus change. Reachability along flow is monotone for the first
(`Extends.forward`), what is inside a node for the second (`Grows.descendants`).

`Graph.KeepsFlow g g'` says in addition that no flow and no operation was added; then reachability is the same
(`KeepsFlow.forward`), if the edges of `g` are between nodes of `g`.
-/

namespace WidgetFlow

open Std

/-! ## Nodes -/

/-- A node that is the same but for the views of a context menu. -/
inductive NodeKind.Grows : NodeKind → NodeKind → Prop
  | refl (k : NodeKind) : Grows k k
  | views {h : String} {p : NodeId} {v v' : NodeSet} :
      (∀ n ∈ v, n ∈ v') → Grows (.object (.contextMenu h p v)) (.object (.contextMenu h p v'))

namespace NodeKind.Grows

variable {k k' k'' : NodeKind}

theorem trans (h : k.Grows k') (h' : k'.Grows k'') : k.Grows k'' := by
  cases h with
  | refl => exact h'
  | views hv =>
    cases h' with
    | refl => exact .views hv
    | views hv' => exact .views fun n hn => hv' n (hv n hn)

end NodeKind.Grows

/-- A node that is the same but for the views of a context menu and for whether a dialog can be cancelled. -/
inductive NodeKind.Alike : NodeKind → NodeKind → Prop
  | refl (k : NodeKind) : Alike k k
  | views {h : String} {p : NodeId} {v v' : NodeSet} :
      Alike (.object (.contextMenu h p v)) (.object (.contextMenu h p v'))
  | cancelable {cls : String} {site : Option Label} {b b' : Bool} :
      Alike (.object (.dialog cls site b)) (.object (.dialog cls site b'))

namespace NodeKind.Alike

variable {k k' k'' : NodeKind}

theorem trans (h : k.Alike k') (h' : k'.Alike k'') : k.Alike k'' := by
  cases h with
  | refl => exact h'
  | views => cases h' <;> exact .views
  | cancelable => cases h' <;> exact .cancelable

theorem op? (h : k.Alike k') : k'.op? = k.op? := by cases h <;> rfl

theorem pointer? (h : k.Alike k') : k'.pointer? = k.pointer? := by cases h <;> rfl

theorem id? (h : k.Alike k') : k'.id? = k.id? := by cases h <;> rfl

theorem isDialog (h : k.Alike k') : k'.object?.any (·.isDialog) = k.object?.any (·.isDialog) := by cases h <;> rfl

theorem cls (h : k.Alike k') : k'.object?.map (·.cls) = k.object?.map (·.cls) := by cases h <;> rfl

theorem string {t : String} (h : k.Alike k') (hk : k.object? = some (.string t)) : k'.object? = some (.string t) := by
  cases h with
  | refl => exact hk
  | views => cases hk
  | cancelable => cases hk

end NodeKind.Alike

theorem NodeKind.Grows.alike {k k' : NodeKind} (h : k.Grows k') : k.Alike k' := by
  cases h with
  | refl => exact .refl _
  | views _ => exact .views

/-- What there is at most one node for: a local or field, an id, a text, an activity class, and the menu parameter of a
context menu. -/
inductive Key where
  | pointer (p : Pointer)
  | id (space : IdSpace) (value : Int)
  | string (s : String)
  | activity (cls : String)
  | contextMenu (parameter : NodeId)
  deriving DecidableEq

/-- The key of a node, if it has one. -/
def NodeKind.key? : NodeKind → Option Key
  | .pointer p => some (.pointer p)
  | .id i => some (.id i.space i.value)
  | .object (.string s) => some (.string s)
  | .object (.activity cls) => some (.activity cls)
  | .object (.contextMenu _ p _) => some (.contextMenu p)
  | .object _ | .op _ => none

theorem NodeKind.Alike.key? {k k' : NodeKind} (h : k.Alike k') : k'.key? = k.key? := by cases h <;> rfl

/-- The kinds of nodes that are asked for by name: locals and fields, ids, texts and activities. -/
def NodeKind.isNamed : NodeKind → Bool
  | .pointer _ | .id _ | .object (.string _) | .object (.activity _) => true
  | _ => false

namespace NodeKind

variable {k k' : NodeKind}

theorem op?_of_isNamed (h : k.isNamed = true) : k.op? = none := by
  cases k with
  | op => cases h
  | object | pointer | id => rfl

theorem key?_eq_pointer {p : Pointer} : k.key? = some (.pointer p) ↔ k = .pointer p := by
  cases k with
  | object o => cases o <;> simp [key?]
  | pointer | id | op => simp [key?]

theorem key?_eq_id {space : IdSpace} {value : Int} :
    k.key? = some (.id space value) ↔ ∃ i, k = .id i ∧ i.space = space ∧ i.value = value := by
  cases k with
  | object o => cases o <;> simp [key?]
  | pointer | id | op => simp [key?]

theorem key?_eq_string {t : String} : k.key? = some (.string t) ↔ k = .object (.string t) := by
  cases k with
  | object o => cases o <;> simp [key?]
  | pointer | id | op => simp [key?]

theorem key?_eq_activity {cls : String} : k.key? = some (.activity cls) ↔ k = .object (.activity cls) := by
  cases k with
  | object o => cases o <;> simp [key?]
  | pointer | id | op => simp [key?]

theorem key?_eq_contextMenu {p : NodeId} :
    k.key? = some (.contextMenu p) ↔ ∃ h v, k = .object (.contextMenu h p v) := by
  cases k with
  | object o => cases o <;> simp [key?]
  | pointer | id | op => simp [key?]

end NodeKind

/-- A widget of a layout. -/
def Obj.isInflated : Obj → Bool
  | .inflated _ => true
  | _ => false

/-- An item of a menu. -/
def Obj.isMenuItem : Obj → Bool
  | .menuItem _ _ => true
  | _ => false

theorem NodeKind.Alike.isInflated {k k' : NodeKind} (h : k.Alike k') :
    k'.object?.any (·.isInflated) = k.object?.any (·.isInflated) := by
  cases h <;> rfl

/-- A property of objects that does not look at the views of context menus. -/
def Obj.Blind {β : Type} (f : Obj → β) : Prop :=
  ∀ h p v v', f (.contextMenu h p v) = f (.contextMenu h p v')

theorem Obj.blind_isWindow : Obj.Blind Obj.isWindow := fun _ _ _ _ => rfl

theorem Obj.blind_isMenu : Obj.Blind Obj.isMenu := fun _ _ _ _ => rfl

theorem Obj.blind_isWidget : Obj.Blind Obj.isWidget := fun _ _ _ _ => rfl

theorem Obj.blind_isInflated : Obj.Blind Obj.isInflated := fun _ _ _ _ => rfl

theorem Obj.blind_isMenuItem : Obj.Blind Obj.isMenuItem := fun _ _ _ _ => rfl

theorem Obj.isWidget_of_isInflated {o : Obj} (h : o.isInflated = true) : o.isWidget = true := by
  cases o <;> first | rfl | cases h

theorem Obj.isWidget_of_isMenuItem {o : Obj} (h : o.isMenuItem = true) : o.isWidget = true := by
  cases o <;> first | rfl | cases h

theorem Obj.blind_isActivity : Obj.Blind Obj.isActivity := fun _ _ _ _ => rfl

theorem NodeKind.Grows.object? {β : Type} {f : Obj → β} (hf : Obj.Blind f) {k k' : NodeKind} (h : k.Grows k') :
    k'.object?.map f = k.object?.map f := by
  cases h with
  | refl => rfl
  | views _ => exact congrArg some (hf _ _ _ _)

theorem NodeKind.Grows.widget {o : Obj} {k k' : NodeKind} (h : k.Grows k') (ho : o.isWidget = true)
    (hk : k.object? = some o) : k'.object? = some o := by
  cases h with
  | refl => exact hk
  | views =>
    cases hk
    cases ho

/-- A node with at least the id, the texts and the drawables of another. -/
structure Node.Grows (a b : Node) : Prop where
  kind : a.kind.Grows b.kind
  id : ∀ i, a.id = some i → b.id = some i
  texts : ∀ t ∈ a.texts, t ∈ b.texts
  drawables : ∀ d ∈ a.drawables, d ∈ b.drawables

namespace Node.Grows

variable {a b d : Node}

theorem refl (a : Node) : a.Grows a := ⟨.refl _, fun _ h => h, fun _ h => h, fun _ h => h⟩

theorem trans (h : a.Grows b) (h' : b.Grows d) : a.Grows d :=
  ⟨h.kind.trans h'.kind, fun i hi => h'.id i (h.id i hi), fun t ht => h'.texts t (h.texts t ht),
    fun t ht => h'.drawables t (h.drawables t ht)⟩

end Node.Grows

namespace Graph

variable {g g' g'' : Graph} {n m : NodeId}

/-! ## Reading a graph -/

theorem node?_lt {a : Node} (h : g.node? n = some a) : n < g.size :=
  (Array.getElem?_eq_some_iff.mp h).1

theorem exists_node? (h : n < g.size) : ∃ a, g.node? n = some a := ⟨_, Array.getElem?_eq_getElem h⟩

theorem node?_of_object? {o : Obj} (h : g.object? n = some o) : ∃ a, g.node? n = some a ∧ a.kind.object? = some o :=
  Option.bind_eq_some_iff.mp h

theorem node?_of_op? {o : Op} (h : g.op? n = some o) : ∃ a, g.node? n = some a ∧ a.kind.op? = some o :=
  Option.bind_eq_some_iff.mp h

theorem node?_of_id? {i : ResourceId} (h : g.id? n = some i) : ∃ a, g.node? n = some a ∧ a.kind.id? = some i :=
  Option.bind_eq_some_iff.mp h

theorem object?_lt {o : Obj} (h : g.object? n = some o) : n < g.size := by
  obtain ⟨a, ha, _⟩ := node?_of_object? h
  exact node?_lt ha

theorem op?_lt {o : Op} (h : g.op? n = some o) : n < g.size := by
  obtain ⟨a, ha, _⟩ := node?_of_op? h
  exact node?_lt ha

theorem lt_of_isOp (h : g.isOp n = true) : n < g.size := (Option.isSome_iff_exists.mp h).elim fun _ => op?_lt

theorem isOp_of_op? {o : Op} (h : g.op? n = some o) : g.isOp n = true := by rw [isOp, h]; rfl

theorem pointer?_lt {p : Pointer} (h : g.pointer? n = some p) : n < g.size := by
  obtain ⟨a, ha, -⟩ := Option.bind_eq_some_iff.mp h
  exact node?_lt ha

theorem id?_lt {i : ResourceId} (h : g.id? n = some i) : n < g.size := by
  obtain ⟨a, ha, _⟩ := node?_of_id? h
  exact node?_lt ha

theorem mem_ids : n ∈ g.ids ↔ n < g.size := List.mem_range

theorem mem_nonOps : n ∈ g.nonOps ↔ n < g.size ∧ g.op? n = none := by
  simp [nonOps, mem_ids, isOp]

theorem mem_ops : n ∈ g.ops ↔ ∃ o, g.op? n = some o := by
  simp only [ops, List.mem_filter, mem_ids, isOp, Option.isSome_iff_exists]
  exact ⟨And.right, fun ⟨o, ho⟩ => ⟨op?_lt ho, o, ho⟩⟩

theorem mem_objects : n ∈ g.objects ↔ ∃ o, g.object? n = some o := by
  simp only [objects, List.mem_filter, mem_ids, Option.isSome_iff_exists]
  exact ⟨And.right, fun ⟨o, ho⟩ => ⟨object?_lt ho, o, ho⟩⟩

theorem mem_resourceIds : n ∈ g.resourceIds ↔ ∃ i, g.id? n = some i := by
  simp only [resourceIds, List.mem_filter, mem_ids, Option.isSome_iff_exists]
  exact ⟨And.right, fun ⟨i, hi⟩ => ⟨id?_lt hi, i, hi⟩⟩

theorem mem_operations {tag : OpTag} : n ∈ g.operations tag ↔ ∃ o, g.op? n = some o ∧ o.kind.tag = tag := by
  simp only [operations, List.mem_filter, mem_ids, Option.any_eq_true, decide_eq_true_eq]
  exact ⟨And.right, fun ⟨o, ho, ht⟩ => ⟨op?_lt ho, o, ho, ht⟩⟩

theorem pairwise_operations {tag : OpTag} : (g.operations tag).Pairwise (· < ·) :=
  List.pairwise_lt_range.sublist List.filter_sublist

/-- An operation is no object. -/
theorem op?_of_object? {o : Obj} (h : g.object? n = some o) : g.op? n = none := by
  obtain ⟨a, ha, hk⟩ := node?_of_object? h
  cases hkind : a.kind <;> simp_all [op?, NodeKind.object?, NodeKind.op?]

theorem op?_of_id? {i : ResourceId} (h : g.id? n = some i) : g.op? n = none := by
  obtain ⟨a, ha, hk⟩ := node?_of_id? h
  cases hkind : a.kind <;> simp_all [op?, NodeKind.id?, NodeKind.op?]

section Ends

variable {l : List Arc}

theorem mem_filterMap_dst : m ∈ l.filterMap (fun a => if a.src = n then some a.dst else none) ↔ Arc.mk n m ∈ l := by
  rw [List.mem_filterMap]
  constructor
  · rintro ⟨⟨s, d⟩, ha, h⟩
    obtain ⟨hs, hd⟩ := Option.ite_none_right_eq_some.mp h
    cases hd
    obtain rfl : s = n := hs
    exact ha
  · exact fun h => ⟨⟨n, m⟩, h, by simp⟩

theorem mem_filterMap_src : m ∈ l.filterMap (fun a => if a.dst = n then some a.src else none) ↔ Arc.mk m n ∈ l := by
  rw [List.mem_filterMap]
  constructor
  · rintro ⟨⟨s, d⟩, ha, h⟩
    obtain ⟨hd, hs⟩ := Option.ite_none_right_eq_some.mp h
    cases hs
    obtain rfl : d = n := hd
    exact ha
  · exact fun h => ⟨⟨m, n⟩, h, by simp⟩

variable (hl : l.Pairwise fun a b => compare a b = .lt)
include hl

/-- Of edges that have one end in common, the other ends ascend with the edges. -/
theorem pairwise_filterMap_end {near far : Arc → NodeId}
    (hfar : ∀ {a b : Arc}, compare a b = .lt → near a = near b → far a < far b) :
    (l.filterMap fun a => if near a = n then some (far a) else none).Pairwise (· < ·) := by
  rw [List.pairwise_filterMap]
  refine hl.imp fun {a b} hab x hx y hy => ?_
  obtain ⟨ha, hx⟩ := Option.ite_none_right_eq_some.mp hx
  obtain ⟨hb, hy⟩ := Option.ite_none_right_eq_some.mp hy
  cases hx
  cases hy
  exact hfar hab (ha.trans hb.symm)

theorem pairwise_filterMap_src : (l.filterMap fun a => if a.dst = n then some a.src else none).Pairwise (· < ·) := by
  refine pairwise_filterMap_end hl fun {a b} hab hdst => ?_
  rcases Ordering.then_eq_lt.mp hab with hlt | ⟨_, hlt⟩
  · exact Nat.compare_eq_lt.mp hlt
  · rw [compareOn, hdst, Nat.compare_eq_lt] at hlt
    exact absurd hlt (Nat.lt_irrefl b.dst)

end Ends

theorem mem_successors : m ∈ g.successors n ↔ Arc.mk n m ∈ g.flow := by
  rw [successors, mem_filterMap_dst, ExtTreeMap.mem_keys]

theorem mem_predecessors : m ∈ g.predecessors n ↔ Arc.mk m n ∈ g.flow := by
  rw [predecessors, mem_filterMap_src, ExtTreeMap.mem_keys]

theorem mem_behind {start : NodeId} :
    m ∈ g.behind start n ↔ Arc.mk m n ∈ g.flow ∧ (g.isOp start = true → g.isOp m = false) := by
  unfold behind
  split
  · rename_i h
    simp [mem_predecessors, h]
  · rename_i h
    simp [mem_predecessors, h]

theorem mem_children : m ∈ g.children n ↔ Arc.mk m n ∈ g.containment := by
  rw [children, mem_filterMap_src, ExtTreeSet.mem_toList]

theorem pairwise_predecessors : (g.predecessors n).Pairwise (· < ·) := pairwise_filterMap_src ExtTreeMap.ordered_keys

theorem pairwise_children : (g.children n).Pairwise (· < ·) := pairwise_filterMap_src ExtTreeSet.ordered_toList

theorem mem_forward : m ∈ g.forward n ↔ Search.Leads g.successors g.nonOps n m := by
  rw [forward, Container.mem_ofList, Search.mem_bfs]

theorem mem_descendants : m ∈ g.descendants n ↔ Search.Leads g.children g.ids n m := by
  rw [descendants, Container.mem_ofList, Search.mem_bfs]

theorem mem_backwardOrder : m ∈ g.backwardOrder n ↔ Search.Leads (g.behind n) g.nonOps n m := by
  rw [backwardOrder, Search.mem_bfs]

/-- What flow reaches at a node that is no operation, it reaches at the next node. -/
theorem mem_forward_of_flow {x y : NodeId} (hx : x ∈ g.forward n) (hlt : x < g.size) (hop : g.op? x = none)
    (h : Arc.mk x y ∈ g.flow) : y ∈ g.forward n :=
  mem_forward.mpr (.step (mem_forward.mp hx) (.inr (mem_nonOps.mpr ⟨hlt, hop⟩)) (mem_successors.mpr h))

/-! ## The order of the construction -/

/-- The nodes and the flow of `g` are in `g'`. -/
structure Extends (g g' : Graph) : Prop where
  node : ∀ n a, g.node? n = some a → ∃ b, g'.node? n = some b ∧ a.kind.Alike b.kind
  flow : ∀ (a : Arc) (l : Option Label), g.flow[a]? = some l → g'.flow[a]? = some l

namespace Extends

theorem refl (g : Graph) : g.Extends g := ⟨fun _ a h => ⟨a, h, .refl _⟩, fun _ _ h => h⟩

theorem trans (h : g.Extends g') (h' : g'.Extends g'') : g.Extends g'' := by
  refine ⟨fun n a ha => ?_, fun a l ha => h'.flow a l (h.flow a l ha)⟩
  obtain ⟨b, hb, hab⟩ := h.node n a ha
  obtain ⟨d, hd, hbd⟩ := h'.node n b hb
  exact ⟨d, hd, hab.trans hbd⟩

variable (h : g.Extends g')
include h

theorem lt (hn : n < g.size) : n < g'.size := by
  obtain ⟨a, ha⟩ := exists_node? hn
  obtain ⟨b, hb, _⟩ := h.node n a ha
  exact node?_lt hb

theorem size : g.size ≤ g'.size := Nat.not_lt.mp fun hlt => Nat.lt_irrefl _ (h.lt hlt)

theorem mem_flow {a : Arc} (ha : a ∈ g.flow) : a ∈ g'.flow := by
  obtain ⟨l, hl⟩ := Option.isSome_iff_exists.mp (ExtTreeMap.mem_iff_isSome_getElem?.mp ha)
  exact ExtTreeMap.mem_iff_isSome_getElem?.mpr (Option.isSome_iff_exists.mpr ⟨l, h.flow a l hl⟩)

theorem op?_of_lt (hn : n < g.size) : g'.op? n = g.op? n := by
  obtain ⟨a, ha⟩ := exists_node? hn
  obtain ⟨b, hb, hab⟩ := h.node n a ha
  simp [Graph.op?, ha, hb, hab.op?]

theorem pointer?_of_lt (hn : n < g.size) : g'.pointer? n = g.pointer? n := by
  obtain ⟨a, ha⟩ := exists_node? hn
  obtain ⟨b, hb, hab⟩ := h.node n a ha
  simp [Graph.pointer?, ha, hb, hab.pointer?]

theorem id?_of_lt (hn : n < g.size) : g'.id? n = g.id? n := by
  obtain ⟨a, ha⟩ := exists_node? hn
  obtain ⟨b, hb, hab⟩ := h.node n a ha
  simp [Graph.id?, ha, hb, hab.id?]

theorem op? {o : Op} (ho : g.op? n = some o) : g'.op? n = some o := by rw [h.op?_of_lt (op?_lt ho), ho]

theorem pointer? {p : Pointer} (hp : g.pointer? n = some p) : g'.pointer? n = some p := by
  rw [h.pointer?_of_lt (pointer?_lt hp), hp]

theorem id? {i : ResourceId} (hi : g.id? n = some i) : g'.id? n = some i := by rw [h.id?_of_lt (id?_lt hi), hi]

theorem string {t : String} (ht : g.object? n = some (.string t)) : g'.object? n = some (.string t) := by
  obtain ⟨a, ha, hk⟩ := node?_of_object? ht
  obtain ⟨b, hb, hab⟩ := h.node n a ha
  rw [object?, hb]
  exact hab.string hk

theorem isDialog (hn : (g.object? n).any (·.isDialog) = true) : (g'.object? n).any (·.isDialog) = true := by
  obtain ⟨o, ho, hd⟩ := (Option.any_eq_true _ _).mp hn
  obtain ⟨a, ha, hk⟩ := node?_of_object? ho
  obtain ⟨b, hb, hab⟩ := h.node n a ha
  rw [object?, hb]
  show b.kind.object?.any _ = true
  rw [hab.isDialog, hk]
  exact hd

/-- The way back from a node, if there are no new operations. -/
theorem backwardOrder (hop : ∀ n, g'.op? n = g.op? n) (hm : m ∈ g.backwardOrder n) : m ∈ g'.backwardOrder n := by
  rw [mem_backwardOrder] at hm ⊢
  refine hm.mono (fun a b hb => ?_) fun a ha => ?_
  · obtain ⟨hf, hb⟩ := mem_behind.mp hb
    refine mem_behind.mpr ⟨h.mem_flow hf, ?_⟩
    simp only [isOp, hop]
    exact hb
  · obtain ⟨hlt, hno⟩ := mem_nonOps.mp ha
    exact mem_nonOps.mpr ⟨h.lt hlt, by rw [hop, hno]⟩

/-- The way back from a node that is no operation. -/
theorem backwardOrder_of_op? (hn : n < g.size) (hop : g.op? n = none) (hm : m ∈ g.backwardOrder n) :
    m ∈ g'.backwardOrder n := by
  rw [mem_backwardOrder] at hm ⊢
  refine hm.mono (fun a b hb => ?_) fun a ha => ?_
  · refine mem_behind.mpr ⟨h.mem_flow (mem_behind.mp hb).1, fun hstart => ?_⟩
    rw [isOp, h.op?_of_lt hn, hop] at hstart
    cases hstart
  · obtain ⟨hlt, hno⟩ := mem_nonOps.mp ha
    exact mem_nonOps.mpr ⟨h.lt hlt, by rw [h.op?_of_lt hlt, hno]⟩

theorem forward (hm : m ∈ g.forward n) : m ∈ g'.forward n := by
  rw [mem_forward] at hm ⊢
  refine hm.mono (fun a b hb => ?_) fun a ha => ?_
  · exact mem_successors.mpr (h.mem_flow (mem_successors.mp hb))
  · obtain ⟨hlt, hop⟩ := mem_nonOps.mp ha
    exact mem_nonOps.mpr ⟨h.lt hlt, by rw [h.op?_of_lt hlt, hop]⟩

end Extends

/-! ## The order of solving -/

/-- Everything in `g` is in `g'`. -/
structure Grows (g g' : Graph) : Prop where
  node : ∀ n a, g.node? n = some a → ∃ b, g'.node? n = some b ∧ a.Grows b
  flow : ∀ (a : Arc) (l : Option Label), g.flow[a]? = some l → g'.flow[a]? = some l
  containment : ∀ a ∈ g.containment, a ∈ g'.containment

namespace Grows

theorem refl (g : Graph) : g.Grows g := ⟨fun _ a h => ⟨a, h, .refl a⟩, fun _ _ h => h, fun _ h => h⟩

theorem trans (h : g.Grows g') (h' : g'.Grows g'') : g.Grows g'' := by
  refine ⟨fun n a ha => ?_, fun a l ha => h'.flow a l (h.flow a l ha),
    fun a ha => h'.containment a (h.containment a ha)⟩
  obtain ⟨b, hb, hab⟩ := h.node n a ha
  obtain ⟨d, hd, hbd⟩ := h'.node n b hb
  exact ⟨d, hd, hab.trans hbd⟩

variable (h : g.Grows g')
include h

theorem toExtends : g.Extends g' := by
  refine ⟨fun n a ha => ?_, h.flow⟩
  obtain ⟨b, hb, hab⟩ := h.node n a ha
  exact ⟨b, hb, hab.kind.alike⟩

/-- A node of `g` is the same object in `g'`, but for the views of a context menu. -/
theorem object?_map_of_lt {β : Type} {f : Obj → β} (hf : Obj.Blind f) (hn : n < g.size) :
    (g'.object? n).map f = (g.object? n).map f := by
  obtain ⟨a, ha⟩ := exists_node? hn
  obtain ⟨b, hb, hab⟩ := h.node n a ha
  rw [Graph.object?, Graph.object?, ha, hb]
  exact hab.kind.object? hf

theorem object?_map {β : Type} {f : Obj → β} (hf : Obj.Blind f) {v : β} (hv : (g.object? n).map f = some v) :
    (g'.object? n).map f = some v := by
  obtain ⟨o, ho, rfl⟩ := Option.map_eq_some_iff.mp hv
  rw [h.object?_map_of_lt hf (object?_lt ho), ho]
  rfl

theorem object?_any {f : Obj → Bool} (hf : Obj.Blind f) (hv : (g.object? n).any f = true) :
    (g'.object? n).any f = true := by
  obtain ⟨o, ho, hfo⟩ := (Option.any_eq_true _ _).mp hv
  obtain ⟨o', ho', hv'⟩ := Option.map_eq_some_iff.mp (h.object?_map hf (by rw [ho]; exact congrArg some hfo))
  exact (Option.any_eq_true _ _).mpr ⟨o', ho', hv'⟩

theorem object?_any_of_lt {f : Obj → Bool} (hf : Obj.Blind f) (hn : n < g.size) :
    (g'.object? n).any f = (g.object? n).any f := by
  have hmap := h.object?_map_of_lt hf hn
  cases ho : g.object? n <;> cases ho' : g'.object? n <;> simp_all

/-- An object keeps every property that does not look at the views of context menus. -/
theorem object?_any_eq {f : Obj → Bool} (hf : Obj.Blind f) {o : Obj} (ho : g.object? n = some o) :
    (g'.object? n).any f = (g.object? n).any f := h.object?_any_of_lt hf (object?_lt ho)

/-- A widget stays what it is. -/
theorem object?_widget {o : Obj} (ho : o.isWidget = true) (hn : g.object? n = some o) : g'.object? n = some o := by
  obtain ⟨a, ha, hk⟩ := node?_of_object? hn
  obtain ⟨b, hb, hab⟩ := h.node n a ha
  rw [Graph.object?, hb]
  exact hab.kind.widget ho hk

theorem object?_inflated {cls : String} (hn : g.object? n = some (.inflated cls)) :
    g'.object? n = some (.inflated cls) := h.object?_widget rfl hn

theorem nodeId {i : NodeId} (hi : (g.node? n).bind (·.id) = some i) : (g'.node? n).bind (·.id) = some i := by
  obtain ⟨a, ha, hid⟩ := Option.bind_eq_some_iff.mp hi
  obtain ⟨b, hb, hab⟩ := h.node n a ha
  rw [hb]
  exact hab.id i hid

theorem children (hm : m ∈ g.children n) : m ∈ g'.children n :=
  mem_children.mpr (h.containment _ (mem_children.mp hm))

theorem descendants (hm : m ∈ g.descendants n) : m ∈ g'.descendants n := by
  rw [mem_descendants] at hm ⊢
  exact hm.mono (fun _ _ hb => h.children hb) fun a ha => mem_ids.mpr (h.toExtends.lt (mem_ids.mp ha))

end Grows

/-! ## Edges between nodes -/

/-- The edges of a graph are between its nodes. -/
structure Closed (g : Graph) : Prop where
  flow : ∀ a ∈ g.flow, a.src < g.size ∧ a.dst < g.size
  containment : ∀ a ∈ g.containment, a.src < g.size ∧ a.dst < g.size

/-- No flow and no operation was added. -/
structure KeepsFlow (g g' : Graph) : Prop where
  grows : g.Grows g'
  flow : ∀ a ∈ g'.flow, a ∈ g.flow
  op? : ∀ n o, g'.op? n = some o → g.op? n = some o

namespace KeepsFlow

/-- Without new flow there is nothing new to reach. -/
theorem forward (h : g.KeepsFlow g') (hg : g.Closed) (hm : m ∈ g'.forward n) : m ∈ g.forward n := by
  rw [mem_forward] at hm ⊢
  induction hm with
  | refl => exact .refl
  | step _ ha hb ih =>
    have hflow := h.flow _ (mem_successors.mp hb)
    refine .step ih ?_ (mem_successors.mpr hflow)
    rcases ha with rfl | ha
    · exact .inl rfl
    · have hlt := (hg.flow _ hflow).1
      exact .inr (mem_nonOps.mpr ⟨hlt, by rw [← h.grows.toExtends.op?_of_lt hlt]; exact (mem_nonOps.mp ha).2⟩)

end KeepsFlow

end Graph

end WidgetFlow
