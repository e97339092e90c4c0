import WidgetFlow.Flowgraph.Construction
import WidgetFlow.Proofs.Edits

/-!
# What the construction can do

The construction is a sequence of a few kinds of change (`Flowgraph.Addition`): the changes that a solver makes too, a
new object, a new operation, the registration of a listener with all that is entered for it, an attribute of a node, a
record of a dialog, a call that waits, and an entry in a registry of nodes. Each kind of change lets the graph grow,
keeps the flowgraph well formed, inflates nothing and puts nothing into anything, gives no node a text or a drawable, and
forgets no dialog and no call that waits (`Flowgraph.Advances`).
-/

namespace WidgetFlow

open Std Relation

/-! ## Operations -/

namespace Graph

variable {g : Graph} {o : Op} {n : NodeId}

theorem node?_pushOp : (g.pushOp o).node? n = (g.push (.op o)).node? n := by
  unfold pushOp
  split <;> split <;> split <;> rfl

theorem object?_pushOp : (g.pushOp o).object? n = g.object? n := by
  rw [object?, node?_pushOp]
  show (g.push (.op o)).object? n = _
  rw [object?_push]
  split
  · rename_i hn
    rw [object?_eq_none (Nat.le_of_eq hn.symm)]
    rfl
  · rfl

theorem containment_pushOp : (g.pushOp o).containment = g.containment := by
  unfold pushOp
  split <;> split <;> split <;> rfl

theorem size_pushOp : (g.pushOp o).size = g.size + 1 := by
  unfold pushOp
  split <;> split <;> split <;> exact size_push

/-- The flow of a new operation is from its operands and to its result. -/
theorem mem_flow_pushOp {a : Arc} : a ∈ (g.pushOp o).flow ↔ a ∈ g.flow ∨
    (∃ x, (o.receiver = some x ∨ o.parameter = some x) ∧ a = ⟨x, g.size⟩) ∨
      ∃ x, o.result = some x ∧ a = ⟨g.size, x⟩ := by
  have hpush : (g.push (.op o)).flow = g.flow := rfl
  unfold pushOp
  split <;> rename_i hp <;> split <;> rename_i hr <;> split <;> rename_i hs <;>
    simp only [mem_flow_connect, hpush, hp, hr, hs] <;> grind

theorem pushOp_grows : g.Grows (g.pushOp o) := by
  refine ⟨fun m a hm => ?_, fun a l ha => ?_, fun a ha => by rw [containment_pushOp]; exact ha⟩
  · rw [node?_pushOp]
    exact push_grows.node m a hm
  · have hpush : (g.push (.op o)).flow[a]? = some l := ha
    unfold pushOp
    split <;> split <;> split <;> repeat first | exact hpush | refine connect_grows.flow _ _ ?_

theorem op?_pushOp : (g.pushOp o).op? n = if n = g.size then some o else g.op? n := by
  simp only [op?, node?_pushOp, node?_push]
  split <;> rfl

theorem op?_pushOp_self : (g.pushOp o).op? g.size = some o := by rw [op?_pushOp, if_pos rfl]

theorem op?_pushOp_cases {o' : Op} (h : (g.pushOp o).op? n = some o') : n = g.size ∧ o = o' ∨ g.op? n = some o' := by
  rw [op?_pushOp] at h
  split at h
  · exact .inl ⟨‹_›, Option.some.inj h⟩
  · exact .inr h

/-- An operation whose operands exist has edges between existing nodes. -/
theorem Closed.pushOp (h : g.Closed) (ho : ∀ slot x, o.operand? slot = some x → x < g.size) : (g.pushOp o).Closed := by
  have hlt : ∀ slot x, o.operand? slot = some x → x < (g.pushOp o).size := fun slot x hx => by
    rw [size_pushOp]
    exact Nat.lt_succ_of_lt (ho slot x hx)
  have hself : g.size < (g.pushOp o).size := by rw [size_pushOp]; exact Nat.lt_succ_self _
  refine h.of_flow pushOp_grows.toExtends.size containment_pushOp fun a ha => ?_
  rcases mem_flow_pushOp.mp ha with ha | ⟨x, hx | hx, rfl⟩ | ⟨x, hx, rfl⟩
  · exact .inl ha
  · exact .inr ⟨hlt .receiver x hx, hself⟩
  · exact .inr ⟨hlt .parameter x hx, hself⟩
  · exact .inr ⟨hself, hlt .result x hx⟩

theorem NodesBounded.pushOp (h : g.NodesBounded) : (g.pushOp o).NodesBounded := by
  intro n a ha
  rw [node?_pushOp] at ha
  have hpush : (g.push (.op o)).NodesBounded := h.push (Node.bounded_of_kind nofun)
  have hb := hpush n a ha
  rw [size_push] at hb
  rw [size_pushOp]
  exact hb

end Graph

/-! ## Registrations -/

/-- The registration of a listener by a new operation `op`: its event is entered, and either it needs no dispatch or the
position of its method among the listeners of the settings is entered. -/
structure Listeners.Registers (c : Context) (op : NodeId) (l l' : Listeners) : Prop where
  events : ∃ e, l'.events = l.events.insert op e
  handlers : l'.handlers = l.handlers
  registrations : l'.registrations = l.registrations ∨
    ∃ i spec, c.settings.listeners[i]? = some spec ∧ l'.registrations = l.registrations.insert op i
  modelled : l'.modelled = l.modelled ∨ l'.modelled = l.modelled.insert op
  entered : op ∈ l'.modelled ∨ op ∈ l'.registrations
  dispatched : l'.dispatched = l.dispatched
  tasks : ∀ t ∈ l'.tasks, t ∈ l.tasks ∨ t.op = op ∧ ∀ i, t.registration = some i → i < c.settings.listeners.length

theorem Listeners.Registers.bounded {c : Context} {n : NodeId} {l l' : Listeners} (h : l.Registers c n l')
    (hl : l.Bounded n) : l'.Bounded (n + 1) := by
  have hl := hl.mono (Nat.le_succ n)
  constructor
  case events =>
    intro k hk
    obtain ⟨e, he⟩ := h.events
    rw [he] at hk
    exact (Container.key_mem_insert.mp hk).elim (fun hk => hk ▸ Nat.lt_succ_self n) (hl.events k)
  case handlers => rw [h.handlers]; exact hl.handlers
  case registrations =>
    rcases h.registrations with hr | ⟨i, spec, -, hr⟩ <;> rw [hr]
    · exact hl.registrations
    · exact fun k hk => (Container.key_mem_insert.mp hk).elim (fun hk => hk ▸ Nat.lt_succ_self n) (hl.registrations k)
  case modelled =>
    rcases h.modelled with hm | hm <;> rw [hm]
    · exact hl.modelled
    · exact fun k hk => (Container.mem_insert.mp hk).elim (fun hk => hk ▸ Nat.lt_succ_self n) (hl.modelled k)
  case dispatched => rw [h.dispatched]; exact hl.dispatched
  case tasks => exact fun t ht => (h.tasks t ht).elim (hl.tasks t) fun ht => ht.1 ▸ Nat.lt_succ_self n

namespace Flowgraph

variable {c : Context} {f f' f'' : Flowgraph} {n x y : NodeId}

/-- A new operation, with the operands that its kind asks for. -/
theorem Valid.pushOp {o : Op} (hf : f.Valid) (ho : f.graph.Suits o) : Valid { f with graph := f.graph.pushOp o } := by
  have hext := (Graph.pushOp_grows (g := f.graph) (o := o)).toExtends
  constructor
  case closed => exact hf.closed.pushOp fun slot x hx => (ho.isValue hx).1
  case nodes => exact hf.nodes.pushOp
  case filed => exact hf.filed.of_size hext.size
  case carries =>
    intro a ha
    rcases Graph.mem_flow_pushOp.mp ha with ha | ⟨x, hx, rfl⟩ | ⟨x, hx, rfl⟩
    · exact hext.carries (hf.carries a ha)
    · exact .operand Graph.op?_pushOp_self hx
    · exact .result Graph.op?_pushOp_self hx
  case suits =>
    intro n o' ho'
    rcases Graph.op?_pushOp_cases ho' with ⟨rfl, rfl⟩ | ho'
    · exact hext.suits ho
    · exact hext.suits (hf.suits n o' ho')
  case wired =>
    intro n o' ho' x hx
    rcases Graph.op?_pushOp_cases ho' with ⟨rfl, rfl⟩ | ho'
    · exact Graph.mem_flow_pushOp.mpr (.inr (.inl ⟨x, hx, rfl⟩))
    · exact hext.mem_flow (hf.wired n o' ho' x hx)
  case returns =>
    intro n o' ho' x hx
    rcases Graph.op?_pushOp_cases ho' with ⟨rfl, rfl⟩ | ho'
    · exact Graph.mem_flow_pushOp.mpr (.inr (.inr ⟨x, hx, rfl⟩))
    · exact hext.mem_flow (hf.returns n o' ho' x hx)
  case allocs => exact fun l n h => hext.isValue (hf.allocs l n h)
  case itemMenus => exact fun m n h => hext.isVar (hf.itemMenus m n h)
  case dialogVars => exact fun d n h => hext.isVar (hf.dialogVars d n h)
  case itemLayouts => exact fun a n h => hext.isArg (hf.itemLayouts a n h)

/-! ## Texts and drawables -/

end Flowgraph

namespace Graph

variable {g : Graph} {o : Op} {n : NodeId} {k : NodeKind}

/-- No node has a text or a drawable. -/
def Bare (g : Graph) : Prop := ∀ n a, g.node? n = some a → a.texts = ∅ ∧ a.drawables = ∅

theorem Bare.push (h : g.Bare) : (g.push k).Bare := by
  intro n a ha
  rw [node?_push] at ha
  split at ha
  · cases ha
    exact ⟨rfl, rfl⟩
  · exact h n a ha

theorem Bare.pushOp (h : g.Bare) : (g.pushOp o).Bare := by
  intro n a ha
  rw [node?_pushOp] at ha
  exact h.push n a ha

theorem Bare.modify {f : Node → Node} (h : g.Bare)
    (hf : ∀ a, (f a).texts = a.texts ∧ (f a).drawables = a.drawables) : (g.modify n f).Bare := by
  intro m a ha
  rw [node?_modify] at ha
  split at ha
  · obtain ⟨b, hb, rfl⟩ := Option.map_eq_some_iff.mp ha
    rw [(hf b).1, (hf b).2]
    exact h m b hb
  · exact h m a ha

end Graph

namespace Flowgraph

variable {c : Context} {f f' f'' : Flowgraph} {n x y : NodeId}

theorem Change.bare {U : NodeKind → Prop} (h : Change U f f') (hf : f.graph.Bare) : f'.graph.Bare := by
  cases h with
  | log | handlers | flow => exact hf
  | node | menu => exact hf.push
  | shown =>
    apply hf.modify
    intro a
    unfold Node.showOn
    split <;> exact ⟨rfl, rfl⟩

/-! ## Additions -/

/-- The node is no widget of a layout. -/
def Plain (k : NodeKind) : Prop := k.object?.any (·.isInflated) = false

theorem plain_pointer {p : Pointer} : Plain (.pointer p) := rfl

theorem plain_id {i : ResourceId} : Plain (.id i) := rfl

/-- An entry in a registry of nodes. -/
structure Files (f f' : Flowgraph) : Prop where
  graph : f'.graph = f.graph
  valid : f.Valid → f'.Valid
  contextMenus : f'.contextMenus = f.contextMenus
  listeners : f'.listeners = f.listeners
  inflations : f'.inflations = f.inflations
  dialogs : f'.dialogs = f.dialogs
  deferred : f'.deferred = f.deferred

/-- One change that the construction makes of a flowgraph. -/
inductive Addition (c : Context) : Flowgraph → Flowgraph → Prop
  | edit {f f' : Flowgraph} (h : Change Plain f f') : Addition c f f'
  | object {f : Flowgraph} {k : NodeKind} (hp : Plain k) (ho : k.op? = none) (hk : k.key? = none) :
      Addition c f { f with graph := f.graph.push k }
  | op {f : Flowgraph} {o : Op} (ho : f.graph.Suits o) (hk : o.kind.tag ≠ .setListener) :
      Addition c f { f with graph := f.graph.pushOp o }
  | registration {f : Flowgraph} {o : Op} {l : Listeners} (ho : f.graph.Suits o) (hk : o.kind.tag = .setListener)
      (hl : f.listeners.Registers c f.graph.size l) :
      Addition c f { f with graph := f.graph.pushOp o, listeners := l }
  | modify {f : Flowgraph} {n : NodeId} {g : Node → Node} (hg : ∀ a : Node, a.kind.Alike (g a).kind)
      (hb : ∀ a : Node, a.Bounded f.graph.size → (g a).Bounded f.graph.size)
      (hbare : ∀ a : Node, (g a).texts = a.texts ∧ (g a).drawables = a.drawables) :
      Addition c f { f with graph := f.graph.modify n g }
  | dialog {f : Flowgraph} {n : NodeId} {g : DialogRecord → DialogRecord} (hn : n < f.graph.size)
      (hshows : ∀ r, ∀ l ∈ r.shows, l ∈ (g r).shows) (hdismisses : ∀ r, ∀ l ∈ r.dismisses, l ∈ (g r).dismisses) :
      Addition c f { f with dialogs := f.dialogs.alter n fun r => some (g (r.getD {})) }
  | deferred {f : Flowgraph} (d : Deferred) : Addition c f { f with deferred := f.deferred ++ [d] }
  | entry {f f' : Flowgraph} (h : Files f f') : Addition c f f'

/-- A sequence of changes. -/
abbrev Additions (c : Context) : Flowgraph → Flowgraph → Prop := ReflTransGen (Addition c)

/-! ## What no change undoes -/

/-- What is known of a dialog. -/
def recordOf (f : Flowgraph) (dialog : NodeId) : DialogRecord := f.dialogs.getD dialog {}

/-- The graph grew, the flowgraph stayed well formed, nothing was inflated, no node got a text or a drawable, and nothing
was forgotten. -/
structure Advances (f f' : Flowgraph) : Prop where
  graph : f.graph.Extends f'.graph
  valid : f.Valid → f'.Valid
  containment : f'.graph.containment = f.graph.containment
  inflations : f'.inflations = f.inflations
  inflated : ∀ n, (f'.graph.object? n).any (·.isInflated) = (f.graph.object? n).any (·.isInflated)
  bare : f.graph.Bare → f'.graph.Bare
  shows : ∀ d, ∀ l ∈ (f.recordOf d).shows, l ∈ (f'.recordOf d).shows
  dismisses : ∀ d, ∀ l ∈ (f.recordOf d).dismisses, l ∈ (f'.recordOf d).dismisses
  deferred : ∀ d ∈ f.deferred, d ∈ f'.deferred

instance : IsPreorder Flowgraph Advances where
  refl _ := ⟨.refl _, id, rfl, rfl, fun _ => rfl, id, fun _ _ h => h, fun _ _ h => h, fun _ h => h⟩
  trans _ _ _ h h' := ⟨h.graph.trans h'.graph, h'.valid ∘ h.valid, h'.containment.trans h.containment,
    h'.inflations.trans h.inflations, fun n => (h'.inflated n).trans (h.inflated n), h'.bare ∘ h.bare,
    fun d l hl => h'.shows d l (h.shows d l hl), fun d l hl => h'.dismisses d l (h.dismisses d l hl),
    fun d hd => h'.deferred d (h.deferred d hd)⟩

/-- A larger graph. -/
theorem advances_of_graph {g : Graph} (hg : f.graph.Extends g) (hv : f.Valid → Valid { f with graph := g })
    (hc : g.containment = f.graph.containment)
    (hi : ∀ n, (g.object? n).any (·.isInflated) = (f.graph.object? n).any (·.isInflated))
    (hb : f.graph.Bare → g.Bare) : Advances f { f with graph := g } :=
  ⟨hg, hv, hc, rfl, hi, hb, fun _ _ h => h, fun _ _ h => h, fun _ h => h⟩

theorem Change.advances (h : Change Plain f f') : Advances f f' where
  graph := h.grows.toExtends
  valid := h.valid
  containment := h.containment
  inflations := h.inflations
  inflated _ := h.object?_any (fun _ hk => hk) fun _ _ _ => rfl
  bare := h.bare
  shows d l hl := by
    rw [recordOf, h.dialogs]
    exact hl
  dismisses d l hl := by
    rw [recordOf, h.dialogs]
    exact hl
  deferred d hd := by
    rw [h.deferred]
    exact hd

theorem advances_push {k : NodeKind} (hp : Plain k) (ho : k.op? = none) (hk : k.key? = none) :
    Advances f { f with graph := f.graph.push k } := by
  refine advances_of_graph Graph.push_grows.toExtends (fun hf => ?_) rfl (fun n => ?_) (·.push)
  · refine hf.of_graph Graph.push_grows.toExtends (hf.closed.of_flow (by simp) rfl fun _ ha => .inl ha) ?_
      (fun _ => Graph.op?_push ho) fun _ ha => .inl ha
    refine hf.nodes.push (Node.bounded_of_kind fun h p v he => ?_)
    rw [he] at hk
    cases hk
  · rw [Graph.object?_push]
    split
    · rename_i hn
      rw [hp, Graph.object?_eq_none (Nat.le_of_eq hn.symm)]
      rfl
    · rfl

theorem advances_pushOp {o : Op} (ho : f.graph.Suits o) : Advances f { f with graph := f.graph.pushOp o } :=
  advances_of_graph Graph.pushOp_grows.toExtends (fun hf => hf.pushOp ho) Graph.containment_pushOp
    (fun _ => by rw [Graph.object?_pushOp]) (·.pushOp)

theorem advances_registers {o : Op} {l : Listeners} (ho : f.graph.Suits o)
    (hl : f.listeners.Registers c f.graph.size l) :
    Advances f { f with graph := f.graph.pushOp o, listeners := l } := by
  refine { advances_pushOp ho with valid := fun hf => ?_ }
  have hv := hf.pushOp ho
  refine { hv with filed := { hv.filed with listeners := ?_ } }
  rw [Graph.size_pushOp]
  exact hl.bounded hf.filed.listeners

theorem advances_modify {g : Node → Node} (hg : ∀ a : Node, a.kind.Alike (g a).kind)
    (hb : ∀ a : Node, a.Bounded f.graph.size → (g a).Bounded f.graph.size)
    (hbare : ∀ a : Node, (g a).texts = a.texts ∧ (g a).drawables = a.drawables) :
    Advances f { f with graph := f.graph.modify n g } := by
  have hext : f.graph.Extends (f.graph.modify n g) := Graph.modify_extends hg
  refine advances_of_graph hext (fun hf => ?_) rfl (fun m => ?_) fun hf => hf.modify hbare
  · exact hf.of_graph hext (hf.closed.of_flow (by simp) rfl fun _ ha => .inl ha) (hf.nodes.modify hb)
      (fun _ => Graph.op?_modify fun a => (hg a).op?) fun _ ha => .inl ha
  · rw [Graph.object?, Graph.object?, Graph.node?_modify]
    split
    · cases f.graph.node? m with
      | none => rfl
      | some a => exact (hg a).isInflated
    · rfl

theorem recordOf_alter {g : DialogRecord → DialogRecord} {d : NodeId} :
    recordOf { f with dialogs := f.dialogs.alter n fun r => some (g (r.getD {})) } d =
      if d = n then g (f.recordOf d) else f.recordOf d := by
  show (f.dialogs.alter n _).getD d {} = _
  rw [ExtTreeMap.getD_alter]
  split
  · rename_i h
    obtain rfl := LawfulEqCmp.eq_of_compare h
    rw [if_pos rfl, Option.getD_some, ← ExtTreeMap.getD_eq_getD_getElem?]
    rfl
  · rename_i h
    rw [if_neg fun e => h (by rw [e]; exact ReflCmp.compare_self)]
    rfl

/-- A record that is added to. -/
theorem advances_record {g : DialogRecord → DialogRecord} (hn : n < f.graph.size)
    (hshows : ∀ r, ∀ l ∈ r.shows, l ∈ (g r).shows) (hdismisses : ∀ r, ∀ l ∈ r.dismisses, l ∈ (g r).dismisses) :
    Advances f { f with dialogs := f.dialogs.alter n fun r => some (g (r.getD {})) } where
  graph := .refl _
  valid hf := by
    refine { hf with filed := { hf.filed with dialogs := fun d hd => ?_ } }
    exact (Container.key_mem_alter.mp hd).elim (fun hd => hd ▸ hn) (hf.filed.dialogs d)
  containment := rfl
  inflations := rfl
  inflated _ := rfl
  bare := id
  shows d l hl := by
    rw [recordOf_alter]
    split
    · exact hshows _ l hl
    · exact hl
  dismisses d l hl := by
    rw [recordOf_alter]
    split
    · exact hdismisses _ l hl
    · exact hl
  deferred _ h := h

theorem Files.advances (h : Files f f') : Advances f f' where
  graph := h.graph ▸ .refl _
  valid := h.valid
  containment := by rw [h.graph]
  inflations := h.inflations
  inflated n := by rw [h.graph]
  bare hf := by
    rw [h.graph]
    exact hf
  shows d l hl := by
    rw [recordOf, h.dialogs]
    exact hl
  dismisses d l hl := by
    rw [recordOf, h.dialogs]
    exact hl
  deferred d hd := by
    rw [h.deferred]
    exact hd

theorem Addition.advances (h : Addition c f f') : Advances f f' := by
  cases h with
  | edit h => exact h.advances
  | object hp ho hk => exact advances_push hp ho hk
  | op ho => exact advances_pushOp ho
  | registration ho _ hl => exact advances_registers ho hl
  | modify hg hb hbare => exact advances_modify hg hb hbare
  | dialog hn hshows hdismisses => exact advances_record hn hshows hdismisses
  | deferred d =>
    exact ⟨.refl _, fun hf => { hf with filed := { hf.filed with } }, rfl, rfl, fun _ => rfl, id, fun _ _ h => h,
      fun _ _ h => h, fun _ h => List.mem_append_left _ h⟩
  | entry h => exact h.advances

namespace Additions

theorem advances (h : Additions c f f') : Advances f f' := by
  induction h with
  | refl => exact refl_of Advances f
  | tail _ h ih => exact trans_of Advances ih h.advances

theorem graph (h : Additions c f f') : f.graph.Extends f'.graph := h.advances.graph

theorem valid (h : Additions c f f') (hf : f.Valid) : f'.Valid := h.advances.valid hf

theorem shows (h : Additions c f f') : ∀ d, ∀ l ∈ (f.recordOf d).shows, l ∈ (f'.recordOf d).shows := h.advances.shows

theorem dismisses (h : Additions c f f') : ∀ d, ∀ l ∈ (f.recordOf d).dismisses, l ∈ (f'.recordOf d).dismisses :=
  h.advances.dismisses

theorem deferred (h : Additions c f f') : ∀ d ∈ f.deferred, d ∈ f'.deferred := h.advances.deferred

end Additions

theorem Edits.additions (h : Edits Plain f f') : Additions c f f' := by
  induction h with
  | refl => exact .refl
  | tail _ h ih => exact .tail ih (.edit h)

end Flowgraph

end WidgetFlow
