import WidgetFlow.Proofs.Passes

/-!
# Whatever is stored about a node is stored about a node of the graph

A flowgraph stores the numbers of nodes in its edges, in operations, in attributes, in context menus and in its
registries (`Flowgraph.Mentions`), and a solver stores more of them in what it has found (`Solver.Mentions`). All of
them are below the number of nodes, so whatever reads a stored number finds a node (`mentioned_exist`). For a flowgraph
this is part of `Flowgraph.Valid`, and for the elements of what a solver has found it follows from `Solver.Inv`. An
entry of a registry can be without elements, so the keys are followed by an invariant of their own (`Solver.Anchored`).
-/

namespace WidgetFlow

open Std Relation

/-! ## Stored nodes -/

/-- The number of a node is stored in a flowgraph. -/
inductive Flowgraph.Mentions (f : Flowgraph) : NodeId → Prop
  | flow {a : Arc} {n : NodeId} (h : a ∈ f.graph.flow) (hn : n = a.src ∨ n = a.dst) : Mentions f n
  | containment {a : Arc} {n : NodeId} (h : a ∈ f.graph.containment) (hn : n = a.src ∨ n = a.dst) : Mentions f n
  | operand {op n : NodeId} {o : Op} {slot : Slot} (ho : f.graph.op? op = some o) (hn : o.operand? slot = some n) :
      Mentions f n
  | id {m n : NodeId} {a : Node} (ha : f.graph.node? m = some a) (hn : a.id = some n) : Mentions f n
  | text {m n : NodeId} {a : Node} (ha : f.graph.node? m = some a) (hn : n ∈ a.texts) : Mentions f n
  | drawable {m n : NodeId} {a : Node} (ha : f.graph.node? m = some a) (hn : n ∈ a.drawables) : Mentions f n
  | menu {m p n : NodeId} {a : Node} {handler : String} {views : NodeSet} (ha : f.graph.node? m = some a)
      (hk : a.kind = .object (.contextMenu handler p views)) (hn : n = p ∨ n ∈ views) : Mentions f n
  | alloc {l : Label} {n : NodeId} (h : f.allocs[l]? = some n) : Mentions f n
  | optionsMenu {activity : String} {n : NodeId} (h : f.optionsMenus[activity]? = some n) : Mentions f n
  | contextMenu {p m n : NodeId} (h : f.contextMenus[p]? = some m) (hn : n = p ∨ n = m) : Mentions f n
  | itemMenu {handler : String} {n : NodeId} (h : f.itemMenus[handler]? = some n) : Mentions f n
  | array {n : NodeId} (h : n ∈ f.arrays) : Mentions f n
  | event {op : NodeId} (h : op ∈ f.listeners.events) : Mentions f op
  | handlers {op : NodeId} (h : op ∈ f.listeners.handlers) : Mentions f op
  | registration {op : NodeId} (h : op ∈ f.listeners.registrations) : Mentions f op
  | modelled {op : NodeId} (h : op ∈ f.listeners.modelled) : Mentions f op
  | dispatched {op view listener n : NodeId} (h : (op, view, listener) ∈ f.listeners.dispatched)
      (hn : n = op ∨ n = view ∨ n = listener) : Mentions f n
  | task {t : MenuTask} (h : t ∈ f.listeners.tasks) : Mentions f t.op
  | dialog {d : NodeId} (h : d ∈ f.dialogs) : Mentions f d
  | dialogVar {d v n : NodeId} (h : f.dialogVars[d]? = some v) (hn : n = d ∨ n = v) : Mentions f n
  | filledDialog {d : NodeId} (h : d ∈ f.filledDialogs) : Mentions f d
  | itemLayouts {adapter : NodeId} (h : adapter ∈ f.itemLayouts) : Mentions f adapter
  | itemLayout {adapter n : NodeId} (h : n ∈ f.itemLayouts.getD adapter ∅) : Mentions f n
  | inflation {key : InflationKey} {root : Option NodeId} {n : NodeId} (h : f.inflations[key]? = some root)
      (hn : n = key.op ∨ n = key.id ∨ key.target = some n ∨ root = some n) : Mentions f n

/-- The number of a node is stored in a solver. -/
inductive Solver.Mentions (s : Solver) : NodeId → Prop
  | flowgraph {n : NodeId} (h : s.flowgraph.Mentions n) : Mentions s n
  | ids {op : NodeId} (h : op ∈ s.ids) : Mentions s op
  | id {op n : NodeId} (h : n ∈ s.idsOf op) : Mentions s n
  | candidates {x : Operand} (h : x ∈ s.candidates) : Mentions s x.op
  | candidate {x : Operand} {n : NodeId} (h : n ∈ s.candidatesOf x) : Mentions s n
  | downstream {op : NodeId} (h : op ∈ s.downstream) : Mentions s op
  | operand {op : NodeId} {x : Operand} (h : x ∈ s.downstreamOf op) : Mentions s x.op
  | solutions {x : Operand} (h : x ∈ s.solutions) : Mentions s x.op
  | solution {op n : NodeId} {slot : Slot} (h : n ∈ s.solution op slot) : Mentions s n
  | roots {w : NodeId} (h : w ∈ s.roots) : Mentions s w
  | root {w v : NodeId} (h : v ∈ s.rootsOf w) : Mentions s v
  | origin {m n : NodeId} {o : NodeId × NodeId} (h : s.origins[m]? = some o) (hn : n = m ∨ n = o.1 ∨ n = o.2) :
      Mentions s n
  | reported {a : Arc} {n : NodeId} (h : a ∈ s.reported) (hn : n = a.src ∨ n = a.dst) : Mentions s n
  | rejected {a : Arc} {n : NodeId} (h : a ∈ s.rejected) (hn : n = a.src ∨ n = a.dst) : Mentions s n

theorem Flowgraph.Valid.lt_of_mentions {f : Flowgraph} {n : NodeId} (hf : f.Valid) (h : f.Mentions n) :
    n < f.graph.size := by
  cases h with
  | flow h hn => exact hn.elim (fun hn => hn ▸ (hf.closed.flow _ h).1) fun hn => hn ▸ (hf.closed.flow _ h).2
  | containment h hn =>
    exact hn.elim (fun hn => hn ▸ (hf.closed.containment _ h).1) fun hn => hn ▸ (hf.closed.containment _ h).2
  | operand ho hn => exact ((hf.suits _ _ ho).isValue hn).1
  | id ha hn => exact (hf.nodes _ _ ha).id n hn
  | text ha hn => exact (hf.nodes _ _ ha).texts n hn
  | drawable ha hn => exact (hf.nodes _ _ ha).drawables n hn
  | menu ha hk hn =>
    obtain ⟨hp, hviews⟩ := (hf.nodes _ _ ha).menu _ _ _ hk
    exact hn.elim (fun hn => hn ▸ hp) (hviews n)
  | alloc h => exact (hf.allocs _ n h).1
  | optionsMenu h => exact hf.filed.optionsMenus _ n h
  | contextMenu h hn =>
    exact hn.elim (fun hn => hn ▸ (hf.filed.contextMenus _ _ h).1) fun hn => hn ▸ (hf.filed.contextMenus _ _ h).2
  | itemMenu h => exact (hf.itemMenus _ n h).isValue.1
  | array h => exact hf.filed.arrays n h
  | event h => exact hf.filed.listeners.events n h
  | handlers h => exact hf.filed.listeners.handlers n h
  | registration h => exact hf.filed.listeners.registrations n h
  | modelled h => exact hf.filed.listeners.modelled n h
  | dispatched h hn =>
    obtain ⟨hop, hview, hlistener⟩ := hf.filed.listeners.dispatched _ _ _ h
    rcases hn with rfl | rfl | rfl
    · exact hop
    · exact hview
    · exact hlistener
  | task h => exact hf.filed.listeners.tasks _ h
  | dialog h => exact hf.filed.dialogs n h
  | @dialogVar d v _ h hn =>
    rcases hn with rfl | rfl
    · exact hf.filed.dialogVars n (ExtTreeMap.mem_iff_isSome_getElem?.mpr (by rw [h]; rfl))
    · exact (hf.dialogVars d n h).isValue.1
  | filledDialog h => exact hf.filed.filledDialogs n h
  | itemLayouts h => exact hf.filed.itemLayouts n h
  | itemLayout h => exact (hf.itemLayouts _ n h).isValue.1
  | inflation h hn =>
    obtain ⟨hkey, hroot⟩ := hf.filed.inflations _ _ h
    rcases hn with rfl | rfl | hn | hn
    · exact hkey.op
    · exact hkey.id
    · exact hkey.target n hn
    · exact hroot n hn

namespace Solver

open Flowgraph

variable {s t : Solver} {c : Context} {f : Flowgraph} {p : Phase} {key : InflationKey}

/-! ## Keys of registries -/

/-- The keys of what was found are operations, and windows, origins and what was reported are nodes. -/
structure Anchored (s : Solver) : Prop where
  ids : ∀ op ∈ s.ids, s.graph.isOp op = true
  candidates : ∀ x ∈ s.candidates, s.graph.isOp x.op = true
  downstream : ∀ op ∈ s.downstream, s.graph.isOp op = true
  solutions : ∀ x ∈ s.solutions, s.graph.isOp x.op = true
  roots : ∀ w ∈ s.roots, w < s.graph.size
  origins : ∀ n o, s.origins[n]? = some o → n < s.graph.size ∧ o.1 < s.graph.size ∧ o.2 < s.graph.size
  reported : ∀ a ∈ s.reported, s.graph.Spans a
  rejected : ∀ a ∈ s.rejected, s.graph.Spans a

theorem anchored_init : Anchored { flowgraph := f } := by
  constructor <;> simp

theorem Spans.mono {a : Arc} (h : s.graph.Spans a) (hle : s.Le t) : t.graph.Spans a :=
  ⟨hle.graph.toExtends.lt h.1, hle.graph.toExtends.lt h.2⟩

/-- A larger graph, with the same registries. -/
theorem Anchored.of_le (h : s.Anchored) (hle : s.Le t) (ha : s.Alike t)
    (ho : ∀ n o, t.origins[n]? = some o →
      s.origins[n]? = some o ∨ n < t.graph.size ∧ o.1 < s.graph.size ∧ o.2 < s.graph.size)
    (hrep : t.reported = s.reported) (hrej : ∀ a ∈ t.rejected, a ∈ s.rejected ∨ t.graph.Spans a) : t.Anchored := by
  have hop : ∀ {n}, s.graph.isOp n = true → t.graph.isOp n = true := fun h => by rw [Graph.isOp, hle.op?]; exact h
  have hlt : ∀ {n}, n < s.graph.size → n < t.graph.size := hle.graph.toExtends.lt
  constructor
  case ids => exact fun op hmem => hop (h.ids op (ha.ids ▸ hmem))
  case candidates => exact fun x hmem => hop (h.candidates x (ha.candidates ▸ hmem))
  case downstream => exact fun op hmem => hop (h.downstream op (ha.downstream ▸ hmem))
  case solutions => exact fun x hmem => hop (h.solutions x (ha.solutions ▸ hmem))
  case roots => exact fun w hmem => hlt (h.roots w (ha.roots ▸ hmem))
  case origins =>
    intro n o hn
    rcases ho n o hn with hn | ⟨hn, ho₁, ho₂⟩
    · obtain ⟨hn, ho₁, ho₂⟩ := h.origins n o hn
      exact ⟨hlt hn, hlt ho₁, hlt ho₂⟩
    · exact ⟨hn, hlt ho₁, hlt ho₂⟩
  case reported =>
    intro a hmem
    rw [hrep] at hmem
    exact Spans.mono (h.reported a hmem) hle
  case rejected => exact fun a hmem => (hrej a hmem).elim (fun hmem => Spans.mono (h.rejected a hmem) hle) id

/-- What an inflation refuses, it refuses to put one node into another. -/
theorem rejected_of_inflates (h : ReflTransGen (Inflates c) s t) :
    t.reported = s.reported ∧ ∀ a ∈ t.rejected, a ∈ s.rejected ∨ t.graph.Spans a := by
  induction h with
  | refl => exact ⟨rfl, fun _ ha => .inl ha⟩
  | @tail u v _ h ih =>
    obtain ⟨hrep, hrej⟩ := ih
    have hle := h.le
    have hkeep : ∀ a ∈ u.rejected, a ∈ s.rejected ∨ v.graph.Spans a := fun a ha =>
      (hrej a ha).imp_right fun h => Spans.mono h hle
    cases h with
    | note _ _ hb => exact ⟨hrep, fun a ha => (hb a ha).elim (hkeep a) .inr⟩
    | nest | widget => exact ⟨hrep, hkeep⟩

theorem Anchored.of_inflates {origin : NodeId × NodeId} {ns : List NodeId} {as : List Arc} (h : s.Anchored)
    (hin : ReflTransGen (Inflates c) s t) (hp : Plants origin ns as s t) (ho : origin.1 < s.graph.size)
    (ho' : origin.2 < s.graph.size) : t.Anchored := by
  obtain ⟨hrep, hrej⟩ := rejected_of_inflates hin
  refine h.of_le (le_of_inflates hin) (alike_of_inflates hin) (fun n o hn => ?_) hrep hrej
  rw [hp.origins] at hn
  split at hn
  · rename_i hmem
    cases hn
    exact .inr ⟨hp.lt hmem, ho, ho'⟩
  · exact .inl hn

theorem Anchored.cache {root : Option NodeId} (h : s.Anchored) : (s.cache key root).Anchored := { h with }

theorem Anchored.deliver {r : NodeId} (h : s.Anchored) (hop : s.graph.isOp key.op = true)
    (hw : ∀ w, key.target = some w → w < s.graph.size) : (s.deliver key r).Anchored := by
  unfold Solver.deliver
  split
  · refine { h with solutions := fun x hx => ?_ }
    rcases Container.key_mem_alter.mp hx with rfl | hx
    · exact hop
    · exact h.solutions x hx
  · rename_i w htarget
    refine { h with roots := fun w' hw' => ?_ }
    rcases Container.key_mem_alter.mp hw' with rfl | hw'
    · exact hw w' htarget
    · exact h.roots w' hw'

theorem Anchored.addSolutions {x : Operand} {ns : List NodeId} (h : s.Anchored) (hx : s.graph.isOp x.op = true) :
    (s.addSolutions x ns).Anchored :=
  { h with solutions := fun y hy => (Container.key_mem_insert.mp hy).elim (fun hy => hy ▸ hx) (h.solutions y) }

theorem LayoutDue.isOp (h : s.LayoutDue key) : s.graph.isOp key.op = true := by
  cases h with
  | result ho | content ho => exact Graph.isOp_of_op? ho

/-- **A step keeps all stored numbers below the number of nodes.** -/
theorem Step.anchored (hs : Inv c s) (ha : s.Anchored) (h : Step c p s t) : t.Anchored := by
  have hle := h.le
  cases h with
  | note _ _ _ hb =>
    exact { ha with
      reported := fun a h => (hb.1 a h).elim (ha.reported a) fun h => h
      rejected := fun a h => (hb.2 a h).elim (ha.rejected a) fun h => h }
  | settle => exact { ha with }
  | id h =>
    obtain ⟨_, o, _, ho, _⟩ := h
    refine { ha with ids := fun op hop => ?_ }
    rcases Container.key_mem_alter.mp hop with rfl | hop
    · exact Graph.isOp_of_op? ho
    · exact ha.ids op hop
  | candidate h =>
    obtain ⟨_, o, _, ho, _⟩ := h
    refine { ha with candidates := fun x hx => ?_ }
    rcases Container.key_mem_alter.mp hx with rfl | hx
    · exact Graph.isOp_of_op? ho
    · exact ha.candidates x hx
  | downstream ho _ =>
    refine { ha with downstream := fun op hop => ?_ }
    rcases Container.key_mem_alter.mp hop with rfl | hop
    · exact ho
    · exact ha.downstream op hop
  | seed _ hx => exact ha.addSolutions (ha.candidates _ hx)
  | propagate _ hx => exact ha.addSolutions hx
  | find _ hx => exact ha.addSolutions hx
  | root _ _ hw _ =>
    refine { ha with roots := fun w' hw' => ?_ }
    rcases Container.key_mem_insert.mp hw' with rfl | hw'
    · exact hs.solution_lt (mem_receiversWhere.mp hw).1
    · exact ha.roots w' hw'
  | nest | bindId | texts | drawables | dispatch =>
    exact ha.of_le hle ⟨rfl, rfl, rfl, rfl, rfl⟩ (fun _ _ h => .inl h) rfl fun _ h => .inl h
  | @layout _ t' key root hdue hnew hin _ _ _ hgrown =>
    obtain ⟨w, hgrown, -⟩ := hgrown
    have hkey := hs.bounded_of_layoutDue hdue
    have hin' := ha.of_inflates hin hgrown.plants hkey.op hkey.id
    have hle' := le_of_inflates hin
    cases root with
    | none => exact hin'.cache
    | some r =>
      have hop : t'.graph.isOp key.op = true := by rw [Graph.isOp, hle'.op?]; exact hdue.isOp
      exact hin'.cache.deliver hop fun w hw => hle'.graph.toExtends.lt (hkey.target w hw)
  | menu hdue hnew hin _ _ hgrown =>
    obtain ⟨w, hgrown⟩ := hgrown
    have hkey := hs.bounded_of_menuDue hdue
    exact ha.cache.of_inflates hin hgrown.plants hkey.op hkey.id
  | reuse hdue _ => exact ha.deliver hdue.isOp (hs.bounded_of_layoutDue hdue).target

theorem Run.anchored (hs : Inv c s) (ha : s.Anchored) (h : Run c s t) : t.Anchored := by
  induction h with
  | refl => exact ha
  | tail hr h ih => exact h.choose_spec.anchored (Run.inv hs hr) ih

theorem Reached.anchored (hf : Available c f) (hs : Reached c f s) : s.Anchored :=
  Run.anchored hf.poised.inv anchored_init (hs.lasts hf.poised).run

/-! ## What is stored exists -/

theorem lt_of_mentions {n : NodeId} (hs : Inv c s) (ha : s.Anchored) (h : s.Mentions n) : n < s.graph.size := by
  cases h with
  | flowgraph h => exact hs.valid.lt_of_mentions h
  | ids h => exact Graph.lt_of_isOp (ha.ids n h)
  | id h =>
    obtain ⟨_, _, hi, _⟩ := hs.ids _ n h
    exact Graph.id?_lt hi
  | candidates h => exact Graph.lt_of_isOp (ha.candidates _ h)
  | candidate h =>
    obtain ⟨_, _, ho, _⟩ := hs.candidates _ n h
    exact Graph.object?_lt ho
  | downstream h => exact Graph.lt_of_isOp (ha.downstream n h)
  | operand h => exact Graph.lt_of_isOp (hs.isOp_of_downstream h)
  | solutions h => exact Graph.lt_of_isOp (ha.solutions _ h)
  | solution h => exact hs.solution_lt h
  | roots h => exact ha.roots n h
  | root h =>
    obtain ⟨o, ho, _⟩ := (Option.any_eq_true _ _).mp (hs.isWidget_of_root h)
    exact Graph.object?_lt ho
  | origin h hn =>
    obtain ⟨hm, ho, ho'⟩ := ha.origins _ _ h
    rcases hn with rfl | rfl | rfl
    · exact hm
    · exact ho
    · exact ho'
  | reported h hn => exact hn.elim (fun hn => hn ▸ (ha.reported _ h).1) fun hn => hn ▸ (ha.reported _ h).2
  | rejected h hn => exact hn.elim (fun hn => hn ▸ (ha.rejected _ h).1) fun hn => hn ▸ (ha.rejected _ h).2

/-- **Whatever is stored about a node is stored about a node of the graph**, in what the construction leaves behind,
whether it fails or not, and in every solver that callers can come to. Ids, downstream operands and solutions are
stored under operations. -/
theorem mentioned_exist (c : Context) :
    (∀ n, (construct c {}).2.Mentions n → n < (construct c {}).2.graph.size) ∧
    ∀ f s, Available c f → Reached c f s →
      (∀ n, s.Mentions n → n < s.graph.size) ∧ (∀ op ∈ s.ids, s.graph.isOp op = true) ∧
      (∀ op ∈ s.downstream, s.graph.isOp op = true) ∧ ∀ x ∈ s.solutions, s.graph.isOp x.op = true := by
  refine ⟨fun _ => (construct_additions.valid valid_empty).lt_of_mentions, fun f s hf hs => ?_⟩
  have ha := hs.anchored hf
  exact ⟨fun _ => lt_of_mentions (hs.inv hf) ha, ha.ids, ha.downstream, ha.solutions⟩

/-- All that is stored in a solved flowgraph is about its eleven nodes, the two inflated views among them. -/
theorem withLayout_mentions : ∃ f s, Available Example.withLayout f ∧ Reached Example.withLayout f s ∧
    s.Mentions 9 ∧ s.Mentions 10 ∧ (∀ n, s.Mentions n → n < 11) ∧ s.graph.isOp 7 = true := by
  have heval : (analyze Example.withLayout).toOption.any (fun s => 9 ∈ s.rootsOf 2 ∧ 10 ∈ s.solution 7 .result ∧
      ⟨7, .result⟩ ∈ s.solutions ∧ s.graph.size = 11) = true := by
    decide +kernel
  obtain ⟨s, hs, hk⟩ := exists_of_analyze heval
  obtain ⟨hroot, hresult, hkey, hsize⟩ := of_decide_eq_true hk
  obtain ⟨f, hf, hreached⟩ := reached_of_analyze hs
  obtain ⟨hlt, -, -, hops⟩ := (mentioned_exist Example.withLayout).2 f s (.built hf) hreached
  rw [hsize] at hlt
  exact ⟨f, s, .built hf, hreached, .root hroot, .solution hresult, hlt, hops _ hkey⟩

end Solver

end WidgetFlow
