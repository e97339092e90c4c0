import WidgetFlow.Flowgraph.Callback
import WidgetFlow.Proofs.Growth
import WidgetFlow.Proofs.Run
import WidgetFlow.Solution.State

/-!
# What an edit can do

The edits that a solver makes of a flowgraph are sequences of a few kinds of change (`Flowgraph.Change`): a node for a
local, an id or a text that had none, an edge into a local or field, a context menu for a local that had none, one more
view that shows a context menu, and entries that the graph does not see. The changes keep a flowgraph well formed
(`Flowgraph.Valid`) and let its graph grow. Each function that the solver shares with the construction is followed once,
and the ones that tell whether there is new flow tell the truth (`Flowgraph.Reports`). After a dispatch the view and the
listener flow into the methods that the settings name (`Flowgraph.Served`).
-/

namespace WidgetFlow

open Std Relation

namespace Graph

variable {g g' : Graph} {n m x y : NodeId} {k : NodeKind} {l : Option Label}

/-! ## More nodes and more flow -/

@[simp] theorem size_push : (g.push k).size = g.size + 1 := Array.size_push _

@[simp] theorem size_connect : (g.connect x y l).size = g.size := rfl

@[simp] theorem size_modify {f : Node → Node} : (g.modify n f).size = g.size := Array.size_modify

theorem node?_push : (g.push k).node? m = if m = g.size then some { kind := k } else g.node? m := Array.getElem?_push

theorem object?_push : (g.push k).object? m = if m = g.size then k.object? else g.object? m := by
  rw [object?, node?_push]
  split <;> rfl

theorem object?_eq_none (h : g.size ≤ m) : g.object? m = none := by
  rw [object?, node?, Array.getElem?_eq_none h]
  rfl

theorem node?_modify {f : Node → Node} : (g.modify n f).node? m = if n = m then (g.node? m).map f else g.node? m :=
  Array.getElem?_modify

theorem object?_modify {f : Node → Node} (hf : ∀ a, (f a).kind = a.kind) : (g.modify n f).object? m = g.object? m := by
  rw [object?, object?, node?_modify]
  split
  · cases g.node? m with
    | none => rfl
    | some a => exact congrArg NodeKind.object? (hf a)
  · rfl

theorem mem_flow_connect {a : Arc} : a ∈ (g.connect x y l).flow ↔ a = ⟨x, y⟩ ∨ a ∈ g.flow := by
  rw [connect, ExtTreeMap.mem_insertIfNew, LawfulEqCmp.compare_eq_iff_eq, eq_comm]

theorem connect_of_mem (h : Arc.mk x y ∈ g.flow) : g.connect x y l = g := by
  have hflow : g.flow.insertIfNew ⟨x, y⟩ l = g.flow := by
    refine ExtTreeMap.ext_getElem? fun a => ?_
    rw [ExtTreeMap.getElem?_insertIfNew, if_neg fun ha => ha.2 h]
  rw [connect, hflow]

theorem push_grows : g.Grows (g.push k) := by
  refine ⟨fun m a hm => ⟨a, ?_, .refl a⟩, fun _ _ h => h, fun _ h => h⟩
  rw [node?_push, if_neg (Nat.ne_of_lt (node?_lt hm)), hm]

theorem connect_grows : g.Grows (g.connect x y l) := by
  refine ⟨fun _ a hm => ⟨a, hm, .refl a⟩, fun a v ha => ?_, fun _ h => h⟩
  rw [connect, ExtTreeMap.getElem?_insertIfNew, if_neg, ha]
  rintro ⟨h, hn⟩
  obtain rfl := LawfulEqCmp.eq_of_compare h
  exact hn (ExtTreeMap.mem_iff_isSome_getElem?.mpr (by rw [ha]; rfl))

theorem modify_grows {f : Node → Node} (h : ∀ a, g.node? n = some a → a.Grows (f a)) : g.Grows (g.modify n f) := by
  refine ⟨fun m a hm => ?_, fun _ _ h => h, fun _ h => h⟩
  rw [node?_modify]
  split
  · rename_i he
    subst he
    exact ⟨f a, by rw [hm]; rfl, h a hm⟩
  · exact ⟨a, hm, .refl a⟩

theorem modify_extends {f : Node → Node} (h : ∀ a : Node, a.kind.Alike (f a).kind) : g.Extends (g.modify n f) := by
  refine ⟨fun m a ha => ?_, fun _ _ h => h⟩
  rw [node?_modify]
  split
  · exact ⟨f a, by rw [ha]; rfl, h a⟩
  · exact ⟨a, ha, .refl _⟩

theorem Closed.of_flow (h : g.Closed) (hs : g.size ≤ g'.size) (hc : g'.containment = g.containment)
    (hf : ∀ a ∈ g'.flow, a ∈ g.flow ∨ a.src < g'.size ∧ a.dst < g'.size) : g'.Closed := by
  refine ⟨fun a ha => ?_, fun a ha => ?_⟩
  · rcases hf a ha with ha | ha
    · exact ⟨Nat.lt_of_lt_of_le (h.flow a ha).1 hs, Nat.lt_of_lt_of_le (h.flow a ha).2 hs⟩
    · exact ha
  · rw [hc] at ha
    exact ⟨Nat.lt_of_lt_of_le (h.containment a ha).1 hs, Nat.lt_of_lt_of_le (h.containment a ha).2 hs⟩

/-! ## The first node of a kind -/

theorem find?_eq_some {p : NodeKind → Bool} : g.find? p = some n ↔
    (∃ a, g.node? n = some a ∧ p a.kind) ∧ ∀ m < n, ∀ a, g.node? m = some a → p a.kind = false := by
  rw [find?, Array.findIdx?_eq_some_iff_getElem]
  constructor
  · rintro ⟨hn, hp, hmin⟩
    refine ⟨⟨_, Array.getElem?_eq_getElem hn, hp⟩, fun m hm a ha => ?_⟩
    obtain ⟨hlt, rfl⟩ := Array.getElem?_eq_some_iff.mp ha
    exact Bool.eq_false_iff.mpr (hmin m hm)
  · rintro ⟨⟨a, ha, hp⟩, hmin⟩
    obtain ⟨hlt, rfl⟩ := Array.getElem?_eq_some_iff.mp ha
    exact ⟨hlt, hp, fun j hj => Bool.eq_false_iff.mp (hmin j hj _ (Array.getElem?_eq_getElem (Nat.lt_trans hj hlt)))⟩

theorem find?_eq_none {p : NodeKind → Bool} : g.find? p = none ↔ ∀ m a, g.node? m = some a → p a.kind = false := by
  rw [find?, Array.findIdx?_eq_none_iff]
  constructor
  · exact fun h m a ha => h a (Array.mem_of_getElem? ha)
  · intro h a ha
    obtain ⟨m, hm⟩ := Array.mem_iff_getElem?.mp ha
    exact h m a hm

/-- The first node of a kind stays the first. -/
theorem Extends.find? {p : NodeKind → Bool} (h : g.Extends g') (hp : ∀ k k', NodeKind.Alike k k' → p k' = p k)
    (hn : g.find? p = some n) : g'.find? p = some n := by
  obtain ⟨⟨a, ha, hpa⟩, hmin⟩ := find?_eq_some.mp hn
  obtain ⟨b, hb, hab⟩ := h.node n a ha
  refine find?_eq_some.mpr ⟨⟨b, hb, by rw [hp _ _ hab]; exact hpa⟩, fun m hm b hb => ?_⟩
  obtain ⟨a', ha'⟩ := exists_node? (Nat.lt_trans hm (node?_lt ha))
  obtain ⟨b', hb', hab'⟩ := h.node m a' ha'
  obtain rfl : b' = b := Option.some.inj (hb'.symm.trans hb)
  rw [hp _ _ hab']
  exact hmin m hm a' ha'

/-! ## Kinds of nodes -/

/-- A node that is no operation. -/
def IsValue (g : Graph) (n : NodeId) : Prop := n < g.size ∧ g.op? n = none

/-- The node of a local or field, where values can flow to. -/
def IsPointer (g : Graph) (n : NodeId) : Prop := ∃ p, g.pointer? n = some p

/-- The node of a local. -/
def IsVar (g : Graph) (n : NodeId) : Prop := ∃ l, g.pointer? n = some (.var l)

/-- The node of a local, an id or a text, which can be the parameter of an operation. -/
def IsArg (g : Graph) (n : NodeId) : Prop :=
  g.IsVar n ∨ (∃ i, g.id? n = some i) ∨ ∃ t, g.object? n = some (.string t)

theorem Extends.isValue (h : g.Extends g') (hn : g.IsValue n) : g'.IsValue n :=
  ⟨h.lt hn.1, by rw [h.op?_of_lt hn.1, hn.2]⟩

theorem not_isValue_of_op? {o : Op} (h : g.op? n = some o) : ¬g.IsValue n := fun hn => by
  rw [hn.2] at h
  cases h

theorem isValue_of_node? {a : Node} (h : g.node? n = some a) (hk : a.kind.op? = none) : g.IsValue n :=
  ⟨node?_lt h, by simp [op?, h, hk]⟩

theorem isValue_of_object? {o : Obj} (h : g.object? n = some o) : g.IsValue n := ⟨object?_lt h, op?_of_object? h⟩

theorem IsPointer.isValue (h : g.IsPointer n) : g.IsValue n := by
  obtain ⟨p, hp⟩ := h
  obtain ⟨a, ha, hk⟩ := Option.bind_eq_some_iff.mp hp
  refine isValue_of_node? ha ?_
  cases hkind : a.kind <;> simp_all [NodeKind.pointer?, NodeKind.op?]

theorem IsVar.isPointer (h : g.IsVar n) : g.IsPointer n := h.elim fun l hl => ⟨.var l, hl⟩

theorem IsVar.isValue (h : g.IsVar n) : g.IsValue n := h.isPointer.isValue

theorem IsVar.isArg (h : g.IsVar n) : g.IsArg n := .inl h

theorem IsArg.isValue (h : g.IsArg n) : g.IsValue n := by
  rcases h with h | ⟨i, hi⟩ | ⟨t, ht⟩
  · exact h.isValue
  · obtain ⟨a, ha, hk⟩ := node?_of_id? hi
    refine isValue_of_node? ha ?_
    cases hkind : a.kind <;> simp_all [NodeKind.id?, NodeKind.op?]
  · exact isValue_of_object? ht

theorem Extends.isPointer (h : g.Extends g') (hn : g.IsPointer n) : g'.IsPointer n := by
  obtain ⟨p, hp⟩ := hn
  exact ⟨p, by rw [h.pointer?_of_lt (IsPointer.isValue ⟨p, hp⟩).1, hp]⟩

theorem Extends.isVar (h : g.Extends g') (hn : g.IsVar n) : g'.IsVar n := by
  obtain ⟨l, hl⟩ := hn
  exact ⟨l, h.pointer? hl⟩

theorem Extends.isArg (h : g.Extends g') (hn : g.IsArg n) : g'.IsArg n := by
  rcases hn with hn | ⟨i, hi⟩ | ⟨t, ht⟩
  · exact .inl (h.isVar hn)
  · exact .inr (.inl ⟨i, h.id? hi⟩)
  · exact .inr (.inr ⟨t, h.string ht⟩)

theorem isPointer_of_node? {a : Node} {p : Pointer} (h : g.node? n = some a) (hk : a.kind = .pointer p) :
    g.IsPointer n := ⟨p, by rw [pointer?, h, Option.bind_some, hk]; rfl⟩

theorem isVar_of_node? {a : Node} {v : Local} (h : g.node? n = some a) (hk : a.kind = .pointer (.var v)) : g.IsVar n :=
  ⟨v, by rw [pointer?, h, Option.bind_some, hk]; rfl⟩

theorem isArg_of_string {a : Node} {t : String} (h : g.node? n = some a) (hk : a.kind = .object (.string t)) :
    g.IsArg n := .inr (.inr ⟨t, by rw [object?, h, Option.bind_some, hk]; rfl⟩)

theorem isValue_push (hk : k.op? = none) : (g.push k).IsValue g.size :=
  isValue_of_node? (a := { kind := k }) (by rw [node?_push, if_pos rfl]) hk

theorem op?_push (hk : k.op? = none) : (g.push k).op? m = g.op? m := by
  simp only [op?, node?_push]
  split
  · rename_i h
    have hnone : g.node? m = none := Array.getElem?_eq_none (Nat.le_of_eq h.symm)
    rw [hnone]
    exact hk
  · rfl

theorem op?_modify {f : Node → Node} (hf : ∀ a, (f a).kind.op? = a.kind.op?) : (g.modify n f).op? m = g.op? m := by
  simp only [op?, node?_modify]
  split
  · cases g.node? m with
    | none => rfl
    | some a => exact hf a
  · rfl

end Graph

/-! ## Operands -/

/-- The slots that an operation of a kind has. -/
def OpTag.slots : OpTag → List Slot
  | inflate => [.parameter, .result]
  | setContent | setRoot | addChild | setId | setText | setImage | setListener | inflateMenu => [.receiver, .parameter]
  | findView | findInWindow => [.receiver, .parameter, .result]
  | navigate => [.receiver, .result]

/-- The slots in which an operation has an operand. -/
def Op.slots (o : Op) : List Slot := Slot.all.filter fun slot => (o.operand? slot).isSome

theorem Op.mem_slots {o : Op} {slot : Slot} : slot ∈ o.slots ↔ (o.operand? slot).isSome := by
  simp only [slots, List.mem_filter, and_iff_right_iff_imp]
  intro _
  cases slot <;> simp [Slot.all]

namespace Graph

variable {g g' : Graph} {o : Op} {a : Arc}

/-- An operation has the operands that its kind asks for. -/
structure Suits (g : Graph) (o : Op) : Prop where
  slots : o.slots = o.kind.tag.slots
  receiver : ∀ x, o.receiver = some x → g.IsVar x
  parameter : ∀ x, o.parameter = some x → g.IsArg x
  result : ∀ x, o.result = some x → g.IsVar x

theorem Extends.suits (h : g.Extends g') (ho : g.Suits o) : g'.Suits o :=
  ⟨ho.slots, fun x hx => h.isVar (ho.receiver x hx), fun x hx => h.isArg (ho.parameter x hx),
    fun x hx => h.isVar (ho.result x hx)⟩

theorem Suits.isValue {slot : Slot} {x : NodeId} (h : g.Suits o) (hx : o.operand? slot = some x) : g.IsValue x := by
  cases slot with
  | receiver => exact (h.receiver x hx).isValue
  | parameter => exact (h.parameter x hx).isValue
  | result => exact (h.result x hx).isValue

/-- The reason for an edge of flow: a value flows into a local or field, an operand into its operation, or an operation
into its result. -/
inductive Carries (g : Graph) : Arc → Prop
  | value {x y : NodeId} (hx : g.IsValue x) (hy : g.IsPointer y) : Carries g ⟨x, y⟩
  | operand {x n : NodeId} {o : Op} (ho : g.op? n = some o) (hx : o.receiver = some x ∨ o.parameter = some x) :
      Carries g ⟨x, n⟩
  | result {n y : NodeId} {o : Op} (ho : g.op? n = some o) (hy : o.result = some y) : Carries g ⟨n, y⟩

theorem Extends.carries (h : g.Extends g') (ha : g.Carries a) : g'.Carries a := by
  cases ha with
  | value hx hy => exact .value (h.isValue hx) (h.isPointer hy)
  | operand ho hx => exact .operand (h.op? ho) hx
  | result ho hy => exact .result (h.op? ho) hy

end Graph

/-! ## What is named -/

/-- The nodes that a node names have numbers below `k`: its id, its texts and drawables, and the menu parameter and the
views of a context menu. -/
structure Node.Bounded (k : Nat) (a : Node) : Prop where
  id : ∀ i, a.id = some i → i < k
  texts : ∀ t ∈ a.texts, t < k
  drawables : ∀ d ∈ a.drawables, d < k
  menu : ∀ h p v, a.kind = .object (.contextMenu h p v) → p < k ∧ ∀ x ∈ v, x < k

theorem Node.Bounded.mono {k k' : Nat} {a : Node} (h : a.Bounded k) (hk : k ≤ k') : a.Bounded k' where
  id i hi := Nat.lt_of_lt_of_le (h.id i hi) hk
  texts t ht := Nat.lt_of_lt_of_le (h.texts t ht) hk
  drawables d hd := Nat.lt_of_lt_of_le (h.drawables d hd) hk
  menu handler p v ha :=
    have hm := h.menu handler p v ha
    ⟨Nat.lt_of_lt_of_le hm.1 hk, fun x hx => Nat.lt_of_lt_of_le (hm.2 x hx) hk⟩

/-- A node without attributes names what its kind names. -/
theorem Node.bounded_of_kind {k : Nat} {kind : NodeKind}
    (h : ∀ handler p v, kind = .object (.contextMenu handler p v) → p < k ∧ ∀ x ∈ v, x < k) :
    Node.Bounded k { kind := kind } where
  id := nofun
  texts t ht := by simp at ht
  drawables d hd := by simp at hd
  menu := h

/-- The operations, views and listeners of the registrations have numbers below `k`. -/
structure Listeners.Bounded (k : Nat) (l : Listeners) : Prop where
  events : ∀ n ∈ l.events, n < k
  handlers : ∀ n ∈ l.handlers, n < k
  registrations : ∀ n ∈ l.registrations, n < k
  modelled : ∀ n ∈ l.modelled, n < k
  dispatched : ∀ n v m, (n, v, m) ∈ l.dispatched → n < k ∧ v < k ∧ m < k
  tasks : ∀ t ∈ l.tasks, t.op < k

theorem Listeners.Bounded.mono {k k' : Nat} {l : Listeners} (h : l.Bounded k) (hk : k ≤ k') : l.Bounded k' where
  events n hn := Nat.lt_of_lt_of_le (h.events n hn) hk
  handlers n hn := Nat.lt_of_lt_of_le (h.handlers n hn) hk
  registrations n hn := Nat.lt_of_lt_of_le (h.registrations n hn) hk
  modelled n hn := Nat.lt_of_lt_of_le (h.modelled n hn) hk
  dispatched n v m hn :=
    have hd := h.dispatched n v m hn
    ⟨Nat.lt_of_lt_of_le hd.1 hk, Nat.lt_of_lt_of_le hd.2.1 hk, Nat.lt_of_lt_of_le hd.2.2 hk⟩
  tasks t ht := Nat.lt_of_lt_of_le (h.tasks t ht) hk

/-- The operation, the id and the window or menu of an inflation have numbers below `k`. -/
structure InflationKey.Bounded (k : Nat) (key : InflationKey) : Prop where
  op : key.op < k
  id : key.id < k
  target : ∀ w, key.target = some w → w < k

theorem InflationKey.Bounded.mono {k k' : Nat} {key : InflationKey} (h : key.Bounded k) (hk : k ≤ k') :
    key.Bounded k' :=
  ⟨Nat.lt_of_lt_of_le h.op hk, Nat.lt_of_lt_of_le h.id hk, fun w hw => Nat.lt_of_lt_of_le (h.target w hw) hk⟩

namespace Graph

variable {g g' : Graph} {n : NodeId} {k : NodeKind}

/-- What the nodes of a graph name are nodes of it. -/
def NodesBounded (g : Graph) : Prop := ∀ n a, g.node? n = some a → a.Bounded g.size

theorem NodesBounded.of_nodes (h : g.NodesBounded) (hn : g'.nodes = g.nodes) : g'.NodesBounded := by
  intro n a ha
  rw [node?, hn] at ha
  rw [size, hn]
  exact h n a ha

theorem NodesBounded.push (h : g.NodesBounded) (hk : Node.Bounded (g.size + 1) { kind := k }) :
    (g.push k).NodesBounded := by
  intro n a ha
  rw [size_push]
  rw [node?_push] at ha
  split at ha
  · cases ha
    exact hk
  · exact (h n a ha).mono (Nat.le_succ _)

theorem NodesBounded.modify {f : Node → Node} (h : g.NodesBounded)
    (hf : ∀ a, a.Bounded g.size → (f a).Bounded g.size) : (g.modify n f).NodesBounded := by
  intro m a ha
  rw [size_modify]
  rw [node?_modify] at ha
  split at ha
  · obtain ⟨b, hb, rfl⟩ := Option.map_eq_some_iff.mp ha
    exact hf b (h m b hb)
  · exact h m a ha

end Graph

/-! ## Well formed flowgraphs -/

/-- What is remembered about the graph is remembered of its nodes. -/
structure Flowgraph.Filed (f : Flowgraph) : Prop where
  optionsMenus : ∀ (a : String) n, f.optionsMenus[a]? = some n → n < f.graph.size
  contextMenus : ∀ p n : NodeId, f.contextMenus[p]? = some n → p < f.graph.size ∧ n < f.graph.size
  arrays : ∀ n ∈ f.arrays, n < f.graph.size
  listeners : f.listeners.Bounded f.graph.size
  dialogs : ∀ d ∈ f.dialogs, d < f.graph.size
  dialogVars : ∀ d ∈ f.dialogVars, d < f.graph.size
  filledDialogs : ∀ d ∈ f.filledDialogs, d < f.graph.size
  itemLayouts : ∀ a ∈ f.itemLayouts, a < f.graph.size
  inflations : ∀ (key : InflationKey) root, f.inflations[key]? = some root →
    key.Bounded f.graph.size ∧ ∀ r, root = some r → r < f.graph.size

/-- A larger graph. -/
theorem Flowgraph.Filed.of_size {f : Flowgraph} {g : Graph} (h : f.Filed) (hs : f.graph.size ≤ g.size) :
    Filed { f with graph := g } where
  optionsMenus a n hn := Nat.lt_of_lt_of_le (h.optionsMenus a n hn) hs
  contextMenus p n hn :=
    have hm := h.contextMenus p n hn
    ⟨Nat.lt_of_lt_of_le hm.1 hs, Nat.lt_of_lt_of_le hm.2 hs⟩
  arrays n hn := Nat.lt_of_lt_of_le (h.arrays n hn) hs
  listeners := h.listeners.mono hs
  dialogs d hd := Nat.lt_of_lt_of_le (h.dialogs d hd) hs
  dialogVars d hd := Nat.lt_of_lt_of_le (h.dialogVars d hd) hs
  filledDialogs d hd := Nat.lt_of_lt_of_le (h.filledDialogs d hd) hs
  itemLayouts a ha := Nat.lt_of_lt_of_le (h.itemLayouts a ha) hs
  inflations key root hkey :=
    have hi := h.inflations key root hkey
    ⟨hi.1.mono hs, fun r hr => Nat.lt_of_lt_of_le (hi.2 r hr) hs⟩

/-- Edges, nodes and registries name nodes of the graph, the operands of an operation flow into it and it into its result,
and nothing else flows into or out of an operation. -/
structure Flowgraph.Valid (f : Flowgraph) : Prop where
  closed : f.graph.Closed
  nodes : f.graph.NodesBounded
  filed : f.Filed
  carries : ∀ a ∈ f.graph.flow, f.graph.Carries a
  suits : ∀ n o, f.graph.op? n = some o → f.graph.Suits o
  wired : ∀ n o, f.graph.op? n = some o → ∀ x, o.receiver = some x ∨ o.parameter = some x → Arc.mk x n ∈ f.graph.flow
  returns : ∀ n o, f.graph.op? n = some o → ∀ x, o.result = some x → Arc.mk n x ∈ f.graph.flow
  allocs : ∀ (l : Label) n, f.allocs[l]? = some n → f.graph.IsValue n
  itemMenus : ∀ (m : String) n, f.itemMenus[m]? = some n → f.graph.IsVar n
  dialogVars : ∀ (d : NodeId) n, f.dialogVars[d]? = some n → f.graph.IsVar n
  itemLayouts : ∀ a, ∀ n ∈ f.itemLayouts.getD a ∅, f.graph.IsArg n

namespace Flowgraph

variable {f f' f'' : Flowgraph} {n m x y : NodeId}

/-- A flowgraph with a larger graph, the same operations and the same registries. -/
theorem Valid.of_graph {g : Graph} (h : f.Valid) (hg : f.graph.Extends g) (hc : g.Closed) (hn : g.NodesBounded)
    (hop : ∀ n, g.op? n = f.graph.op? n) (hf : ∀ a ∈ g.flow, a ∈ f.graph.flow ∨ g.Carries a) :
    Valid { f with graph := g } where
  closed := hc
  nodes := hn
  filed := h.filed.of_size hg.size
  carries a ha := (hf a ha).elim (fun ha => hg.carries (h.carries a ha)) id
  suits n o ho := hg.suits (h.suits n o (by rw [← hop n]; exact ho))
  wired n o ho x hx := hg.mem_flow (h.wired n o (by rw [← hop n]; exact ho) x hx)
  returns n o ho x hx := hg.mem_flow (h.returns n o (by rw [← hop n]; exact ho) x hx)
  allocs l n hn := hg.isValue (h.allocs l n hn)
  itemMenus l n hn := hg.isVar (h.itemMenus l n hn)
  dialogVars d n hn := hg.isVar (h.dialogVars d n hn)
  itemLayouts a n hn := hg.isArg (h.itemLayouts a n hn)

theorem var?_isVar {l : Local} (h : f.var? l = some n) : f.graph.IsVar n := by
  obtain ⟨⟨a, ha, hp⟩, _⟩ := Graph.find?_eq_some.mp h
  exact Graph.isVar_of_node? ha (of_decide_eq_true hp)

theorem var?_mono {l : Local} (hg : f.graph.Extends f'.graph) (h : f.var? l = some n) : f'.var? l = some n := by
  refine hg.find? (fun k k' hk => ?_) h
  cases hk <;> simp

/-! ## Changes -/

/-- One change that a solver makes of a flowgraph. New nodes are of a kind in `U`. -/
inductive Change (U : NodeKind → Prop) : Flowgraph → Flowgraph → Prop
  | log {f : Flowgraph} (es : List Log.Entry) : Change U f { f with log := es }
  | handlers {f : Flowgraph} {op : NodeId} {signatures : List String} (hop : op < f.graph.size) :
      Change U f { f with listeners := { f.listeners with
        handlers := f.listeners.handlers.alter op fun s => some ((s.getD ∅).insertMany signatures) } }
  | node {f : Flowgraph} {k : NodeKind} (hU : U k) (hk : k.isNamed = true)
      (hnew : ∀ n a, f.graph.node? n = some a → a.kind.key? ≠ k.key?) : Change U f { f with graph := f.graph.push k }
  | flow {f : Flowgraph} {a b : NodeId} {l : Option Label} (ha : f.graph.IsValue a) (hb : f.graph.IsPointer b) :
      Change U f { f with graph := f.graph.connect a b l }
  | menu {f : Flowgraph} {handler : String} {p v : NodeId} {l : Local} (hU : U (.pointer (.var l)))
      (hp : f.var? l = some p) (hnew : f.contextMenus[p]? = none) (hv : v < f.graph.size) :
      Change U f { f with
        graph := (f.graph.push (.object (.contextMenu handler p {v}))).connect f.graph.size p none
        contextMenus := f.contextMenus.insert p f.graph.size }
  | shown {f : Flowgraph} {m v : NodeId} (hv : v < f.graph.size) :
      Change U f { f with graph := f.graph.modify m (Node.showOn v) }

/-- A sequence of changes. -/
abbrev Edits (U : NodeKind → Prop) : Flowgraph → Flowgraph → Prop := ReflTransGen (Change U)

end Flowgraph

theorem Node.showOn_grows {v : NodeId} (a : Node) : a.Grows (a.showOn v) := by
  unfold Node.showOn
  split
  · rename_i h p views hk
    refine ⟨?_, fun _ h => h, fun _ h => h, fun _ h => h⟩
    rw [hk]
    exact .views fun x hx => Container.mem_insert.mpr (.inr hx)
  · exact .refl a

theorem Node.Bounded.showOn {k : Nat} {v : NodeId} {a : Node} (h : a.Bounded k) (hv : v < k) :
    (a.showOn v).Bounded k := by
  unfold Node.showOn
  split
  · rename_i handler p views hk
    obtain ⟨hp, hviews⟩ := h.menu handler p views hk
    refine ⟨h.id, h.texts, h.drawables, fun handler' p' views' hk' => ?_⟩
    cases hk'
    refine ⟨hp, fun x hx => ?_⟩
    rcases Container.mem_insert.mp hx with rfl | hx
    · exact hv
    · exact hviews x hx
  · exact h

/-- A node that is asked for by name names nothing. -/
theorem Node.bounded_of_isNamed {k : Nat} {kind : NodeKind} (h : kind.isNamed = true) :
    Node.Bounded k { kind := kind } :=
  Node.bounded_of_kind fun _ _ _ hk => by rw [hk] at h; cases h

namespace Flowgraph

variable {U : NodeKind → Prop} {f f' f'' : Flowgraph} {n m x y : NodeId} {c : Context}

namespace Change

theorem grows (h : Change U f f') : f.graph.Grows f'.graph := by
  cases h with
  | log | handlers => exact .refl _
  | node => exact Graph.push_grows
  | flow => exact Graph.connect_grows
  | menu => exact Graph.push_grows.trans Graph.connect_grows
  | shown => exact Graph.modify_grows fun a _ => a.showOn_grows

theorem containment (h : Change U f f') : f'.graph.containment = f.graph.containment := by
  cases h <;> rfl

theorem op? (h : Change U f f') : f'.graph.op? n = f.graph.op? n := by
  cases h with
  | log | handlers | flow => rfl
  | node _ hk => exact Graph.op?_push (NodeKind.op?_of_isNamed hk)
  | menu => exact Graph.op?_push rfl
  | shown => exact Graph.op?_modify fun a => a.showOn_grows.kind.alike.op?

/-- What no new node is, no node becomes. -/
theorem object?_any {k : Obj → Bool} (hU : ∀ kind, U kind → kind.object?.any k = false)
    (hk : ∀ h p v, k (.contextMenu h p v) = false) (h : Change U f f') :
    (f'.graph.object? n).any k = (f.graph.object? n).any k := by
  rcases Nat.lt_or_ge n f.graph.size with hn | hn
  · exact h.grows.object?_any_of_lt (fun _ _ _ _ => by rw [hk, hk]) hn
  · have hnone := Graph.object?_eq_none hn
    rw [hnone]
    cases h with
    | log | handlers | flow => exact congrArg (Option.any k) hnone
    | node hkind =>
      rw [Graph.object?_push]
      split
      · exact hU _ hkind
      · rw [hnone]
    | @menu handler p v =>
      show ((f.graph.push _).object? n).any k = false
      rw [Graph.object?_push]
      split
      · exact hk handler p {v}
      · rw [hnone]
        rfl
    | shown =>
      rw [Graph.object?_eq_none]
      rw [Graph.size_modify]
      exact hn

theorem closed (h : Change U f f') (hf : f.graph.Closed) : f'.graph.Closed := by
  refine hf.of_flow h.grows.toExtends.size h.containment ?_
  cases h with
  | log | handlers | node | shown => exact fun a ha => .inl ha
  | flow ha hb =>
    intro e he
    rcases Graph.mem_flow_connect.mp he with rfl | he
    · exact .inr ⟨ha.1, hb.isValue.1⟩
    · exact .inl he
  | menu _ hp =>
    intro e he
    rcases Graph.mem_flow_connect.mp he with rfl | he
    · rw [Graph.size_connect, Graph.size_push]
      exact .inr ⟨Nat.lt_succ_self _, Nat.lt_succ_of_lt (var?_isVar hp).isValue.1⟩
    · exact .inl he

/-- New flow is into a local or field. -/
theorem carries {a : Arc} (h : Change U f f') (ha : a ∈ f'.graph.flow) : a ∈ f.graph.flow ∨ f'.graph.Carries a := by
  have hext := h.grows.toExtends
  cases h with
  | log | handlers | node | shown => exact .inl ha
  | flow hx hy =>
    rcases Graph.mem_flow_connect.mp ha with rfl | ha
    · exact .inr (.value (hext.isValue hx) (hext.isPointer hy))
    · exact .inl ha
  | menu _ hp =>
    rcases Graph.mem_flow_connect.mp ha with rfl | ha
    · exact .inr (.value (Graph.connect_grows.toExtends.isValue (Graph.isValue_push rfl))
        (hext.isPointer (var?_isVar hp).isPointer))
    · exact .inl ha

theorem nodesBounded (h : Change U f f') (hf : f.graph.NodesBounded) : f'.graph.NodesBounded := by
  cases h with
  | log | handlers | flow => exact hf.of_nodes rfl
  | node _ hk => exact hf.push (Node.bounded_of_isNamed hk)
  | @menu handler p v l _ hp _ hv =>
    refine Graph.NodesBounded.of_nodes (hf.push (Node.bounded_of_kind fun handler' p' views hk => ?_)) rfl
    cases hk
    refine ⟨Nat.lt_succ_of_lt (var?_isVar hp).isValue.1, fun x hx => ?_⟩
    obtain rfl : v = x := by simpa using hx
    exact Nat.lt_succ_of_lt hv
  | shown hv => exact hf.modify fun a ha => ha.showOn hv

theorem filed (h : Change U f f') (hf : f.Filed) : f'.Filed := by
  have hgraph := hf.of_size h.grows.toExtends.size
  cases h with
  | log | node | flow | shown => exact { hgraph with }
  | handlers hop =>
    refine { hgraph with listeners := { hf.listeners with handlers := fun n hn => ?_ } }
    rcases Container.key_mem_alter.mp hn with rfl | hn
    · exact hop
    · exact hf.listeners.handlers n hn
  | menu _ hp _ hv =>
    refine { hgraph with contextMenus := fun q n hn => ?_ }
    rw [ExtTreeMap.getElem?_insert] at hn
    split at hn
    · rename_i he
      cases hn
      rw [← LawfulEqCmp.eq_of_compare he, Graph.size_connect, Graph.size_push]
      exact ⟨Nat.lt_succ_of_lt (var?_isVar hp).isValue.1, Nat.lt_succ_self _⟩
    · exact hgraph.contextMenus q n hn

theorem valid (h : Change U f f') (hf : f.Valid) : f'.Valid := by
  have hfiled := h.filed hf.filed
  have hv := hf.of_graph h.grows.toExtends (h.closed hf.closed) (h.nodesBounded hf.nodes) (fun n => h.op?)
    fun a => h.carries
  cases h <;> exact { hv with filed := hfiled }

theorem inflations (h : Change U f f') : f'.inflations = f.inflations := by cases h <;> rfl

theorem dialogs (h : Change U f f') : f'.dialogs = f.dialogs := by cases h <;> rfl

theorem deferred (h : Change U f f') : f'.deferred = f.deferred := by cases h <;> rfl

theorem modelled (h : Change U f f') : f'.listeners.modelled = f.listeners.modelled := by cases h <;> rfl

theorem dispatched (h : Change U f f') : f'.listeners.dispatched = f.listeners.dispatched := by cases h <;> rfl

theorem registrations (h : Change U f f') : f'.listeners.registrations = f.listeners.registrations := by
  cases h <;> rfl

end Change

namespace Edits

theorem grows (h : Edits U f f') : f.graph.Grows f'.graph := by
  induction h with
  | refl => exact .refl _
  | tail _ h ih => exact ih.trans h.grows

theorem valid (h : Edits U f f') (hf : f.Valid) : f'.Valid := by
  induction h with
  | refl => exact hf
  | tail _ h ih => exact h.valid ih

/-- What no change touches is as before after any number of changes. -/
theorem keeps {α : Type} {k : Flowgraph → α} (h : Edits U f f') (hk : ∀ {f f'}, Change U f f' → k f' = k f) :
    k f' = k f := by
  induction h with
  | refl => rfl
  | tail _ h ih => exact (hk h).trans ih

theorem containment (h : Edits U f f') : f'.graph.containment = f.graph.containment :=
  h.keeps Change.containment

theorem op? (h : Edits U f f') : f'.graph.op? n = f.graph.op? n :=
  h.keeps Change.op?

theorem inflations (h : Edits U f f') : f'.inflations = f.inflations :=
  h.keeps Change.inflations

theorem modelled (h : Edits U f f') : f'.listeners.modelled = f.listeners.modelled :=
  h.keeps Change.modelled

theorem dispatched (h : Edits U f f') : f'.listeners.dispatched = f.listeners.dispatched :=
  h.keeps Change.dispatched

theorem registrations (h : Edits U f f') : f'.listeners.registrations = f.listeners.registrations :=
  h.keeps Change.registrations

theorem var? {l : Local} (h : Edits U f f') (hn : f.var? l = some n) : f'.var? l = some n :=
  var?_mono h.grows.toExtends hn

end Edits

/-! ## New flow -/

/-- The answer of an edit that tells whether there is new flow. -/
structure Reports (b : Bool) (f f' : Flowgraph) : Prop where
  new : b = true → ∃ a ∈ f'.graph.flow, a ∉ f.graph.flow
  same : b = false → f'.graph = f.graph

theorem Reports.refl (f : Flowgraph) : Reports false f f := ⟨nofun, fun _ => rfl⟩

theorem Reports.or {b b' : Bool} (h : Reports b f f') (h' : Reports b' f' f'') (hg : f.graph.Grows f'.graph)
    (hg' : f'.graph.Grows f''.graph) : Reports (b || b') f f'' := by
  refine ⟨fun hb => ?_, fun hb => ?_⟩
  · cases b with
    | true =>
      obtain ⟨a, ha, hn⟩ := h.new rfl
      exact ⟨a, hg'.toExtends.mem_flow ha, hn⟩
    | false =>
      obtain ⟨a, ha, hn⟩ := h'.new hb
      exact ⟨a, ha, fun hm => hn (hg.toExtends.mem_flow hm)⟩
  · obtain ⟨rfl, rfl⟩ := Bool.or_eq_false_iff.mp hb
    rw [h'.same rfl, h.same rfl]

/-- All new flow is out of one node. -/
def FlowsFrom (x : NodeId) (f f' : Flowgraph) : Prop := ∀ a ∈ f'.graph.flow, a ∈ f.graph.flow ∨ a.src = x

theorem FlowsFrom.trans (h : FlowsFrom x f f') (h' : FlowsFrom x f' f'') : FlowsFrom x f f'' := fun a ha =>
  (h' a ha).elim (h a) .inr

/-- A sequence of changes whose new flow is out of one node. -/
def EditsFrom (U : NodeKind → Prop) (x : NodeId) (f f' : Flowgraph) : Prop := Edits U f f' ∧ FlowsFrom x f f'

instance : IsPreorder Flowgraph (EditsFrom U x) where
  refl _ := ⟨.refl, fun _ ha => .inl ha⟩
  trans _ _ _ h h' := ⟨h.1.trans h'.1, h.2.trans h'.2⟩

/-- A value flows into the node of a local. -/
def FlowsInto (f : Flowgraph) (x : NodeId) (l : Local) : Prop := ∃ n, f.var? l = some n ∧ Arc.mk x n ∈ f.graph.flow

theorem FlowsInto.mono {l : Local} (h : f.FlowsInto x l) (hg : f.graph.Extends f'.graph) : f'.FlowsInto x l := by
  obtain ⟨n, hn, hflow⟩ := h
  exact ⟨n, var?_mono hg hn, hg.mem_flow hflow⟩

/-! ## Nodes -/

/-- A node was looked up, and made if there was none. -/
structure Interned (p : NodeKind → Bool) (f : Flowgraph) (n : NodeId) (f' : Flowgraph) : Prop where
  first : f'.graph.find? p = some n
  flow : f'.graph.flow = f.graph.flow
  nodes : ∀ m < f.graph.size, f'.graph.node? m = f.graph.node? m
  old : n < f.graph.size → f' = f

theorem intern_does {p : NodeKind → Bool} {k : NodeKind} (hU : U k) (hk : k.isNamed = true)
    (hp : ∀ k', k'.key? = k.key? → p k' = true) : Does (Edits U) c f (intern p k) (Interned p f) := by
  unfold intern
  refine .read rfl ?_
  cases hfind : f.graph.find? p with
  | some n => exact .pure ⟨hfind, rfl, fun _ _ => rfl, fun _ => rfl⟩
  | none =>
    have hnone := Graph.find?_eq_none.mp hfind
    refine .of_run rfl (.single (.node hU hk fun n a ha he => ?_))
      ⟨?_, rfl, fun m hm => ?_, fun h => absurd h (Nat.lt_irrefl _)⟩
    · have := hnone n a ha
      rw [hp _ he] at this
      cases this
    · refine Graph.find?_eq_some.mpr ⟨⟨{ kind := k }, by rw [Graph.node?_push, if_pos rfl], hp k rfl⟩,
        fun m hm a ha => ?_⟩
      rw [Graph.node?_push, if_neg (Nat.ne_of_lt hm)] at ha
      exact hnone m a ha
    · rw [Graph.node?_push, if_neg (Nat.ne_of_lt hm)]

theorem Interned.node {p : NodeKind → Bool} (h : Interned p f n f') :
    ∃ a, f'.graph.node? n = some a ∧ p a.kind = true :=
  (Graph.find?_eq_some.mp h.first).1

theorem Interned.node_eq {k : NodeKind} (h : Interned (· = k) f n f') : ∃ a, f'.graph.node? n = some a ∧ a.kind = k :=
  h.node.imp fun _ ha => ⟨ha.1, of_decide_eq_true ha.2⟩

theorem Interned.isVar {l : Local} (h : Interned (· = .pointer (.var l)) f n f') : f'.graph.IsVar n := by
  obtain ⟨a, ha, hk⟩ := h.node_eq
  exact Graph.isVar_of_node? ha hk

theorem Interned.isArg_of_id {space : IdSpace} {value : Int} (h : Interned (isIdOf space value) f n f') :
    f'.graph.IsArg n := by
  obtain ⟨a, ha, hk⟩ := h.node
  refine .inr (.inl ?_)
  rw [Graph.id?, ha]
  cases hkind : a.kind with
  | id i => exact ⟨i, by rw [Option.bind_some, hkind]; rfl⟩
  | object | pointer | op =>
    rw [hkind] at hk
    cases hk

theorem varNode_does {l : Local} (hU : U (.pointer (.var l))) :
    Does (Edits U) c f (varNode l) (Interned (· = .pointer (.var l)) f) :=
  intern_does hU rfl fun _ hk => decide_eq_true (NodeKind.key?_eq_pointer.mp hk)

theorem idNode_does {space : IdSpace} {value : Int}
    (hU : U (.id ⟨space, value, c.project.resources.idName? space value⟩)) :
    Does (Edits U) c f (idNode space value) (Interned (isIdOf space value) f) := by
  refine .read rfl (intern_does hU rfl fun k hk => ?_)
  obtain ⟨i, rfl, hspace, hvalue⟩ := NodeKind.key?_eq_id.mp hk
  simp [isIdOf, hspace, hvalue]

theorem stringNode_does {t : String} (hU : U (.object (.string t))) :
    Does (Edits U) c f (stringNode t) (Interned (· = .object (.string t)) f) :=
  intern_does hU rfl fun _ hk => decide_eq_true (NodeKind.key?_eq_string.mp hk)

/-! ## Flow -/

/-- An edge was added, if it was not there. -/
structure Connected (x y : NodeId) (b : Bool) (f f' : Flowgraph) : Prop where
  flow : Arc.mk x y ∈ f'.graph.flow
  reports : Reports b f f'
  source : FlowsFrom x f f'

theorem addEdge_does {l : Option Label} (hx : f.graph.IsValue x) (hy : f.graph.IsPointer y) :
    Does (Edits U) c f (addEdge x y l) fun b f' => Connected x y b f f' := by
  refine .of_run rfl (.single (.flow hx hy))
    ⟨Graph.mem_flow_connect.mpr (.inl rfl), ⟨fun hb => ?_, fun hb => ?_⟩, fun a ha => ?_⟩
  · refine ⟨⟨x, y⟩, Graph.mem_flow_connect.mpr (.inl rfl), fun hm => ?_⟩
    rw [Graph.hasFlow, ExtTreeMap.contains_iff_mem.mpr hm] at hb
    cases hb
  · rw [Bool.not_eq_false'] at hb
    exact Graph.connect_of_mem (ExtTreeMap.contains_iff_mem.mp hb)
  · rcases Graph.mem_flow_connect.mp ha with rfl | ha
    · exact .inr rfl
    · exact .inl ha

/-- A value was let into a local. -/
structure LetInto (x : NodeId) (l : Local) (b : Bool) (f f' : Flowgraph) : Prop where
  into : f'.FlowsInto x l
  reports : Reports b f f'
  source : FlowsFrom x f f'

theorem flowTo_does {l : Local} {lab : Option Label} (hU : U (.pointer (.var l))) (hf : f.Valid)
    (hx : f.graph.IsValue x) : Does (Edits U) c f (flowTo x l lab) fun b f' => LetInto x l b f f' := by
  unfold flowTo
  refine .bind (varNode_does hU) fun y f₁ h₁ hy => ?_
  have hd := addEdge_does (U := U) (c := c) (l := lab) (h₁.grows.toExtends.isValue hx) hy.isVar.isPointer
  refine hd.imp fun b f₂ h₂ hb => ⟨⟨y, h₂.var? hy.first, hb.flow⟩, ⟨fun h => ?_, fun h => ?_⟩, ?_⟩
  · obtain ⟨a, ha, hn⟩ := hb.reports.new h
    exact ⟨a, ha, fun hm => hn (h₁.grows.toExtends.mem_flow hm)⟩
  · -- the edge was there before, so the local had its node
    have hg := hb.reports.same h
    have hflow := hb.flow
    rw [hg, hy.flow] at hflow
    rw [hg, hy.old (hf.closed.flow _ hflow).2]
  · exact FlowsFrom.trans (fun a ha => .inl (by rw [← hy.flow]; exact ha)) hb.source

/-- The nodes for the receiver and the parameters of a method are allowed. -/
structure Formals (U : NodeKind → Prop) (m : Method) : Prop where
  this : ∀ l, m.this? = some l → U (.pointer (.var l))
  param : ∀ i l, m.param? i = some l → U (.pointer (.var l))

theorem flowToThis_does {k : Method} (hU : Formals U k) (hf : f.Valid) (hx : f.graph.IsValue x) :
    Does (Edits U) c f (flowToThis x k) fun _ f' => FlowsFrom x f f' := by
  unfold flowToThis
  cases h : k.this? with
  | some l => exact (flowTo_does (hU.this l h) hf hx).discard.imp fun _ _ _ h => h.elim fun _ h => h.source
  | none => exact .pure fun a ha => .inl ha

theorem flowToParam_does {k : Method} {i : Nat} {lab : Option Label} (hU : Formals U k) (hf : f.Valid)
    (hx : f.graph.IsValue x) : Does (Edits U) c f (flowToParam x k i lab) fun _ _ => True := by
  unfold flowToParam
  cases h : k.param? i with
  | some l => exact (flowTo_does (hU.param i l h) hf hx).discard.any
  | none => exact .pure trivial

/-! ## Context menus -/

theorem connectItemMenus_does {menu : NodeId} {handler : String} (hf : f.Valid) (hm : f.graph.IsValue menu) :
    Does (Edits U) c f (connectItemMenus menu handler) fun _ _ => True := by
  unfold connectItemMenus
  refine .read rfl ?_
  refine .each fun r _ f₁ h₁ => ?_
  split
  · rename_i v hv
    have hext := h₁.grows.toExtends
    exact (addEdge_does (hext.isValue hm) (hext.isPointer (hf.itemMenus r v hv).isPointer)).discard.any
  · exact .pure trivial

theorem contextMenu_does {handler : String} {p v : NodeId} {l : Local} (hU : U (.pointer (.var l))) (hf : f.Valid)
    (hp : f.var? l = some p) (hv : v < f.graph.size) :
    Does (Edits U) c f (contextMenu handler p v) fun _ _ => True := by
  unfold contextMenu
  refine .read rfl ?_
  cases h : f.contextMenus[p]? with
  | some menu => exact ⟨.single (.shown hv), trivial⟩
  | none =>
    -- the node, its edge and its entry are one change
    have hstep : Change U f { f with
        graph := (f.graph.push (.object (.contextMenu handler p {v}))).connect f.graph.size p none
        contextMenus := f.contextMenus.insert p f.graph.size } := .menu hU hp h hv
    have hd : Does (Edits U) c _ (connectItemMenus f.graph.size handler) _ :=
      connectItemMenus_does (hstep.valid hf) (Graph.connect_grows.toExtends.isValue (Graph.isValue_push rfl))
    exact ⟨.head hstep hd.moves, trivial⟩

/-- The methods of the program have allowed nodes for their receivers and parameters. -/
abbrev AllFormals (U : NodeKind → Prop) (p : Program) : Prop := ∀ m ∈ p.methods, Formals U m

end Flowgraph

namespace Program

theorem callback?_mem {p : Program} {start sub : String} {m : Method} (h : p.callback? start sub = some m) :
    m ∈ p.methods := by
  obtain ⟨k, hk, hm⟩ := List.exists_of_findSome?_eq_some (Option.filter_eq_some_iff.mp h).1
  obtain ⟨name, _, hn⟩ := List.mem_filterMap.mp hk
  exact mem_methods_of_declared? hn (Option.filter_eq_some_iff.mp hm).1

theorem mem_methods_of_class? {p : Program} {name : String} {k : Class} {m : Method} (h : p.class? name = some k)
    (hm : m ∈ k.methods) : m ∈ p.methods :=
  List.mem_flatMap.mpr ⟨k, List.mem_map.mpr ⟨(name, k), ExtTreeMap.mem_toList_iff_getElem?_eq_some.mpr h, rfl⟩, hm⟩

end Program

/-- The class of the object at a node. -/
def Graph.classOf? (g : Graph) (n : NodeId) : Option String := (g.object? n).map (·.cls)

theorem Graph.Extends.classOf? {g g' : Graph} {n : NodeId} (h : g.Extends g') (hn : n < g.size) :
    g'.classOf? n = g.classOf? n := by
  obtain ⟨a, ha⟩ := exists_node? hn
  obtain ⟨b, hb, hab⟩ := h.node n a ha
  rw [Graph.classOf?, Graph.classOf?, object?, object?, ha, hb]
  exact hab.cls

theorem Graph.Grows.classOf? {g g' : Graph} {n : NodeId} (h : g.Grows g') (hn : n < g.size) :
    g'.classOf? n = g.classOf? n :=
  h.toExtends.classOf? hn

namespace Flowgraph

variable {U : NodeKind → Prop} {f f' f'' : Flowgraph} {n m x y : NodeId} {c : Context}

theorem viewContextMenu_does {cls : String} (hU : AllFormals U c.project.program) (hf : f.Valid)
    (hx : f.graph.IsValue x) :
    Does (Edits U) c f (viewContextMenu x cls) fun menu f' => menu = none → f'.graph.flow = f.graph.flow := by
  unfold viewContextMenu
  refine .read rfl ?_
  split
  · rename_i handler hh
    have hU' := hU handler (Program.callback?_mem hh)
    split
    · rename_i this parameter ht hp
      refine .bind (flowTo_does (hU'.this this ht) hf hx).discard fun _ f₁ h₁ _ => ?_
      refine .bind (varNode_does (hU'.param 0 parameter hp)) fun menuVar f₂ h₂ hm => ?_
      refine .bind (varNode_does (hU'.this this ht)) fun viewVar f₃ h₃ hview => ?_
      have hf₃ := h₃.valid (h₂.valid (h₁.valid hf))
      refine .map ((contextMenu_does (hU'.param 0 parameter hp) hf₃ (h₃.var? hm.first) hview.isVar.isValue.1).imp
        fun _ _ _ _ h => ?_)
      cases h
    · exact .pure fun _ => rfl
  · exact .pure fun _ => rfl

theorem widgetCallbacks_does {cls : String} (hU : AllFormals U c.project.program) (hf : f.Valid)
    (hx : f.graph.IsValue x) :
    Does (Edits U) c f (widgetCallbacks x cls) fun menu f' => menu = none → FlowsFrom x f f' := by
  have hthis : ∀ k ∈ c.project.program.methods, ∀ f₁, EditsFrom U x f f₁ →
      Does (EditsFrom U x) c f₁ (flowToThis x k) fun _ _ => True := by
    intro k hk f₁ h₁
    have h := flowToThis_does (c := c) (hU k hk) (h₁.1.valid hf) (h₁.1.grows.toExtends.isValue hx)
    exact ⟨⟨h.moves, h.post⟩, trivial⟩
  unfold widgetCallbacks
  refine .read rfl ?_
  extract_lets menu finish
  have hmenu : ∀ u f₁, EditsFrom U x f f₁ →
      Does (Edits U) c f₁ (menu u) fun menu f' => menu = none → FlowsFrom x f f' := by
    intro u f₁ h₁
    have h : Does (Edits U) c f₁ (viewContextMenu x cls) _ :=
      viewContextMenu_does hU (h₁.1.valid hf) (h₁.1.grows.toExtends.isValue hx)
    exact h.imp fun menu f' _ hm hn a ha => h₁.2 a (by rw [← hm hn]; exact ha)
  have hfinish : ∀ u f₁, EditsFrom U x f f₁ →
      Does (Edits U) c f₁ (finish u) fun menu f' => menu = none → FlowsFrom x f f' := by
    intro u f₁ h₁
    cases hk : c.project.program.callback? cls Framework.onFinishInflate with
    | none =>
      have hrun : finish u = menu () := by simp only [finish, hk]
      rw [hrun]
      exact hmenu () f₁ h₁
    | some k =>
      have hrun : finish u = flowToThis x k >>= menu := by simp only [finish, hk]
      rw [hrun]
      have h := hthis k (Program.callback?_mem hk) f₁ h₁
      exact .bind (h.mono (S := fun _ f₂ => EditsFrom U x f₁ f₂) (fun _ h => h.1) fun _ _ h _ => h)
        fun u f₂ _ h₂ => hmenu u f₂ (trans_of (EditsFrom U x) h₁ h₂)
  split
  · rename_i k hk
    have hall : Does (EditsFrom U x) c f
        ((k.methods.filter fun m => m.isConstructor && m.isConcrete).forM (flowToThis x)) fun _ _ => True :=
      .each fun m hm f₁ h₁ =>
        hthis m (Program.mem_methods_of_class? (Option.filter_eq_some_iff.mp hk).1 (List.mem_filter.mp hm).1) f₁ h₁
    exact .bind (hall.mono (S := fun _ f₁ => EditsFrom U x f f₁) (fun _ h => h.1) fun _ _ h _ => h)
      fun u f₁ _ h₁ => hfinish u f₁ h₁
  · exact hfinish () f (refl_of (EditsFrom U x) f)

/-! ## Dispatch -/

theorem reporting : Reporting (Edits U) Reports :=
  ⟨Reports.refl, fun h h' hb hb' => hb.or hb' h.grows h'.grows⟩

theorem bindHandlers_does {op : NodeId} {signatures : List String} (hop : op < f.graph.size) :
    Does (Edits U) c f (bindHandlers op signatures) fun _ f' => f'.graph = f.graph :=
  .of_run rfl (.single (.handlers hop)) rfl

theorem remark_does {r : Remark} {l : Option Label} :
    Does (Edits U) c f (remark r l) fun _ f' => f'.graph = f.graph :=
  .of_run rfl (.single (.log _)) rfl

theorem report_tries {v : Violation} {l : Option Label} :
    Tries (Edits U) (fun t u => c.settings.strict = true ∧ u = t) c f (report v l) fun _ f' => f'.graph = f.graph := by
  unfold report
  refine .read rfl ?_
  split
  · rename_i h
    exact .of_error rfl .refl ⟨h, rfl⟩
  · exact .lift (.of_run rfl (.single (.log _)) rfl)

/-- A listener flows into the receiver of a method, and a view into the parameter of the method that is for it, if its
class fits there. -/
structure Handles (p : Program) (f : Flowgraph) (view listener : NodeId) (viewClass : Option String)
    (position : Option Nat) (handler : Method) : Prop where
  this : ∀ l, handler.this? = some l → f.FlowsInto listener l
  view : ∀ l cls bound, position.bind handler.param? = some l → viewClass = some cls → l.ty.className? = some bound →
    p.isSubtype cls bound = true → f.FlowsInto view l

theorem Handles.mono {p : Program} {view listener : NodeId} {viewClass : Option String} {position : Option Nat}
    {handler : Method} (h : f.Handles p view listener viewClass position handler) (hg : f.graph.Extends f'.graph) :
    f'.Handles p view listener viewClass position handler :=
  ⟨fun l hl => (h.this l hl).mono hg, fun l cls bound hl hc hb hs => (h.view l cls bound hl hc hb hs).mono hg⟩

/-- A method of the listener that the settings name is run by the events of the view. -/
def Hears (p : Program) (f : Flowgraph) (view listener : NodeId) (viewClass listenerClass : Option String)
    (spec : HandlerSpec) : Prop :=
  ∀ cls handler, listenerClass = some cls → p.callback? cls spec.subSignature = some handler →
    f.Handles p view listener viewClass spec.viewPosition handler

theorem Handles.hears {p : Program} {view listener : NodeId} {viewClass : Option String} {cls : String}
    {spec : HandlerSpec} {handler : Method} (h : f.Handles p view listener viewClass spec.viewPosition handler)
    (hh : p.callback? cls spec.subSignature = some handler) :
    f.Hears p view listener viewClass (some cls) spec := by
  intro cls' handler' hcls hh'
  obtain rfl : cls = cls' := Option.some.inj hcls
  obtain rfl : handler = handler' := Option.some.inj (hh.symm.trans hh')
  exact h

theorem dispatchTo_does {op view listener : NodeId} {location : Option Label} {spec : HandlerSpec}
    (hU : AllFormals U c.project.program) (hf : f.Valid) (hop : op < f.graph.size) :
    Does (Edits U) c f (dispatchTo op view listener location spec) fun b f' => Reports b f f' ∧
      f'.Hears c.project.program view listener (f.graph.classOf? view) (f.graph.classOf? listener) spec := by
  unfold dispatchTo
  refine .read rfl (.read rfl ?_)
  split
  · rename_i o ho
    have hclass : f.graph.classOf? listener = some o.cls := by rw [Graph.classOf?, ho]; rfl
    rw [hclass]
    split
    · rename_i handler hh
      have hU' := hU handler (Program.callback?_mem hh)
      refine .bind (bindHandlers_does hop) fun _ f₁ h₁ hg₁ => ?_
      extract_lets toView
      have hview : ∀ b f₂, Edits U f f₂ → Reports b f f₂ → (∀ l, handler.this? = some l → f₂.FlowsInto listener l) →
          Does (Edits U) c f₂ (toView b) fun b f' => Reports b f f' ∧
            f'.Hears c.project.program view listener (f.graph.classOf? view) (some o.cls) spec := by
        intro b f₂ h₂ hb hthis
        dsimp only [toView]
        split
        · rename_i l hl
          obtain ⟨i, _, hi⟩ := Option.bind_eq_some_iff.mp hl
          refine .ite (fun hfits => ?_) fun hfits => ?_
          · obtain ⟨v, hv⟩ : ∃ v, f.graph.object? view = some v := by
              cases hv : f.graph.object? view with
              | none => rw [hv] at hfits; cases hfits
              | some v => exact ⟨v, rfl⟩
            have hvalue := h₂.grows.toExtends.isValue (Graph.isValue_of_object? hv)
            refine .bind (flowTo_does (hU'.param i l hi) (h₂.valid hf) hvalue) fun b' f₃ h₃ hb' => ?_
            have hhandles : f₃.Handles c.project.program view listener (f.graph.classOf? view) spec.viewPosition
                handler := by
              refine ⟨fun l hl => (hthis l hl).mono h₃.grows.toExtends, fun l' _ _ hl' _ _ _ => ?_⟩
              obtain rfl : l = l' := Option.some.inj (hl.symm.trans hl')
              exact hb'.into
            exact .pure ⟨hb.or hb'.reports h₂.grows h₃.grows, hhandles.hears hh⟩
          · -- what does not fit is only logged
            refine .bind remark_does fun _ f₃ h₃ hg₃ => ?_
            have hhandles : f₃.Handles c.project.program view listener (f.graph.classOf? view) spec.viewPosition
                handler := by
              refine ⟨fun l hl => (hthis l hl).mono h₃.grows.toExtends, fun l' cls bound hl' hc hbound hsub => ?_⟩
              obtain rfl : l = l' := Option.some.inj (hl.symm.trans hl')
              obtain ⟨v, hv, rfl⟩ := Option.map_eq_some_iff.mp hc
              rw [hv, hbound] at hfits
              exact absurd hsub hfits
            exact .pure ⟨⟨fun h => by rw [hg₃]; exact hb.new h, fun h => by rw [hg₃]; exact hb.same h⟩,
              hhandles.hears hh⟩
        · rename_i hnone
          have hhandles : f₂.Handles c.project.program view listener (f.graph.classOf? view) spec.viewPosition
              handler := ⟨hthis, fun l _ _ hl => absurd hl (hnone l)⟩
          exact .pure ⟨hb, hhandles.hears hh⟩
      have hb₁ : Reports false f f₁ := ⟨nofun, fun _ => hg₁⟩
      split
      · rename_i this hthis
        have hvalue := h₁.grows.toExtends.isValue (Graph.isValue_of_object? ho)
        refine .bind (flowTo_does (hU'.this this hthis) (h₁.valid hf) hvalue) fun b f₂ h₂ hb => ?_
        refine hview b f₂ (h₁.trans h₂) (hb₁.or hb.reports h₁.grows h₂.grows) fun l hl => ?_
        obtain rfl : this = l := Option.some.inj (hthis.symm.trans hl)
        exact hb.into
      · rename_i hnone
        refine .read rfl (hview false f₁ h₁ hb₁ fun l hl => ?_)
        rw [hnone] at hl
        cases hl
    · rename_i hnone
      refine .pure ⟨.refl f, fun cls handler hcls hh => ?_⟩
      obtain rfl : o.cls = cls := Option.some.inj hcls
      exact absurd hh (hnone handler)
  · rename_i hnone
    refine .pure ⟨.refl f, fun cls handler hcls _ => ?_⟩
    obtain ⟨o, ho, -⟩ := Option.map_eq_some_iff.mp hcls
    exact absurd ho (hnone o)

/-- All methods that the settings name are run. -/
theorem dispatchEach_tries {E : Flowgraph → Flowgraph → Prop} {op view listener : NodeId} {location : Option Label}
    {specs : List HandlerSpec} (hU : AllFormals U c.project.program) (hf : f.Valid) (hop : op < f.graph.size)
    (hv : view < f.graph.size) (hl : listener < f.graph.size) :
    Tries (Edits U) E c f (sweep (fun spec => dispatchTo op view listener location spec) specs) fun b f' =>
      Reports b f f' ∧ ∀ spec ∈ specs,
        f'.Hears c.project.program view listener (f.graph.classOf? view) (f.graph.classOf? listener) spec := by
  have hstep : ∀ spec t, Edits U f t →
      Does (Edits U) c t (dispatchTo op view listener location spec) fun b u => Reports b t u ∧
        u.Hears c.project.program view listener (f.graph.classOf? view) (f.graph.classOf? listener) spec := by
    intro spec t ht
    rw [← ht.grows.classOf? hv, ← ht.grows.classOf? hl]
    exact dispatchTo_does hU (ht.valid hf) (ht.grows.toExtends.lt hop)
  have hreports : Tries (Edits U) E c f (sweep (fun spec => dispatchTo op view listener location spec) specs) _ :=
    .sweep reporting (C := fun _ _ => True) (fun _ _ _ _ _ _ => trivial)
      fun spec _ t ht => .lift ((hstep spec t ht).imp fun b u _ h => ⟨h.1, fun _ => trivial⟩)
  have hall : Tries (Edits U) E c f (sweep (fun spec => dispatchTo op view listener location spec) specs) _ :=
    .sweep_all (fun spec t u h hC cls handler hcls hh => (hC cls handler hcls hh).mono h.grows.toExtends)
      fun spec _ t ht => .lift ((hstep spec t ht).imp fun b u _ h => h.2)
  exact (hreports.and hall).imp fun b f' _ h => ⟨h.1.1, h.2⟩

/-- A registration with one more view and listener that were dispatched. -/
def mark (f : Flowgraph) (op view listener : NodeId) : Flowgraph :=
  { f with listeners := { f.listeners with dispatched := f.listeners.dispatched ++ [(op, view, listener)] } }

theorem mark_valid {op view listener : NodeId} (hf : f.Valid) (hop : op < f.graph.size) (hv : view < f.graph.size)
    (hl : listener < f.graph.size) : (f.mark op view listener).Valid := by
  refine { hf with filed := { hf.filed with listeners := { hf.filed.listeners with dispatched := fun n v m hn => ?_ } } }
  rcases List.mem_append.mp hn with hn | hn
  · exact hf.filed.listeners.dispatched n v m hn
  · cases List.mem_singleton.mp hn
    exact ⟨hop, hv, hl⟩

theorem dispatch_skip {op view listener : NodeId}
    (h : op ∈ f.listeners.modelled ∨ (op, view, listener) ∈ f.listeners.dispatched) :
    dispatch op view listener c f = (.ok false, f) := by
  have hread : (get : Build Flowgraph) c f = (.ok f, f) := rfl
  unfold dispatch
  rcases h with h | h
  · rw [bind_run_ok hread, if_pos h]
    rfl
  · rw [bind_run_ok hread]
    split <;> rfl

/-- Unless the view is a context menu, its events run the methods of the listener that the settings name for the
registration. -/
def Served (c : Context) (f : Flowgraph) (op view listener : NodeId) : Prop :=
  (f.graph.object? view).any (·.isContextMenu) = false →
  ∀ i spec, f.listeners.registrations[op]? = some i → c.settings.listeners[i]? = some spec →
    ∀ h ∈ spec.handlers,
      f.Hears c.project.program view listener (f.graph.classOf? view) (f.graph.classOf? listener) h

theorem Served.mono {op view listener : NodeId} (h : f.Served c op view listener) (hg : f.graph.Grows f'.graph)
    (hr : f'.listeners.registrations = f.listeners.registrations) (hv : view < f.graph.size)
    (hl : listener < f.graph.size) : f'.Served c op view listener := by
  intro hmenu i spec hi hspec d hd cls handler hcls hh
  rw [hg.object?_any_of_lt (fun _ _ _ _ => rfl) hv] at hmenu
  rw [hg.classOf? hl] at hcls
  rw [hr] at hi
  rw [hg.classOf? hv]
  exact (h hmenu i spec hi hspec d hd cls handler hcls hh).mono hg.toExtends

/-- A dispatch that was not made before marks the view and the listener, then lets them flow. -/
theorem dispatch_tries {op view listener : NodeId} (hU : AllFormals U c.project.program) (hf : f.Valid)
    (hop : op < f.graph.size) (hv : view < f.graph.size) (hl : listener < f.graph.size)
    (hm : op ∉ f.listeners.modelled) (hd : (op, view, listener) ∉ f.listeners.dispatched) :
    Tries (fun _ => Edits U (f.mark op view listener))
      (fun t u => c.settings.strict = true ∧ u = t ∧ f.listeners.registrations[op]? = none) c f
      (dispatch op view listener) fun b f' => Reports b f f' ∧ f'.Served c op view listener := by
  unfold dispatch
  refine .read rfl ?_
  rw [if_neg hm, if_neg hd]
  refine .after (R := Edits U) (t := f.mark op view listener) rfl ?_ fun _ h => h
  have hr : Reports false f (f.mark op view listener) := ⟨nofun, fun _ => rfl⟩
  split
  · rename_i hmenu
    refine .pure ⟨hr, fun hno => ?_⟩
    rw [show (f.graph.object? view).any (·.isContextMenu) = false from hno] at hmenu
    cases hmenu
  · extract_lets location
    split
    · rename_i registration hreg
      split
      · rename_i hnone
        refine .pure ⟨hr, fun _ i spec _ _ d _ cls handler hcls _ => ?_⟩
        obtain ⟨o, ho, -⟩ := Option.map_eq_some_iff.mp hcls
        rw [show f.graph.object? listener = some o from ho] at hnone
        cases hnone
      · refine .read rfl ?_
        refine (dispatchEach_tries hU (mark_valid hf hop hv hl) hop hv hl).imp fun b f' h hb => ⟨?_, ?_⟩
        · exact (Bool.false_or b) ▸ hr.or hb.1 (.refl _) h.grows
        · intro _ i spec hi hspec d hd
          rw [h.registrations] at hi
          obtain rfl : registration = i := Option.some.inj (hreg.symm.trans hi)
          rw [h.grows.classOf? hv, h.grows.classOf? hl]
          rw [hspec] at hb
          exact hb.2 d hd
    · rename_i hreg
      have hnone := Option.eq_none_iff_forall_ne_some.mpr hreg
      refine .bind (Q := fun _ f' => f'.graph = f.graph) ?_ fun _ f' h hg => .pure
        ⟨⟨nofun, fun _ => hg⟩, fun _ i spec hi => ?_⟩
      · exact report_tries.mono (fun _ h => h) (fun t u h => ⟨h.1, h.2, hnone⟩) fun _ _ _ h => h
      · rw [h.registrations] at hi
        exact absurd hi (hreg i)

end Flowgraph

end WidgetFlow
