import WidgetFlow.Proofs.Steps

/-!
# What holds at every step

Whatever a solver has found it has found for a reason (`Solver.Inv`): ids and objects are where flow brings them, each
element of a solution fits its operand and is a candidate, a result, found by a look-up or inflated, and each root view
was set or inflated. The reasons survive as the solver goes on, with one exception. An item that a menu look-up finds
because no item has the right id stays in the solution when such an item turns up later, so all that can be said of it is
that it is inside a receiver (`Solver.Found`).

The containment of widgets has no cycles, and only what expects a window has one as an operand.
-/

namespace WidgetFlow

open Std Relation Flowgraph

/-! ## Containment -/

namespace Graph

variable {g g' : Graph} {n m child parent : NodeId}

/-- `m` is `n` or inside it. -/
abbrev Below (g : Graph) (n m : NodeId) : Prop := ReflTransGen (fun x y => Arc.mk y x ∈ g.containment) n m

/-- Nothing is inside itself. -/
def Acyclic (g : Graph) : Prop := ∀ a ∈ g.containment, ¬g.Below a.src a.dst

theorem below_of_mem_descendants (h : m ∈ g.descendants n) : g.Below n m := by
  rw [mem_descendants] at h
  induction h with
  | refl => exact .refl
  | step _ _ hb ih => exact ih.tail (mem_children.mp hb)

theorem mem_descendants_of_below (hg : g.Closed) (h : g.Below n m) : m ∈ g.descendants n := by
  rw [mem_descendants]
  induction h with
  | refl => exact .refl
  | tail _ hb ih => exact .step ih (.inr (mem_ids.mpr (hg.containment _ hb).2)) (mem_children.mpr hb)

/-- A way down that was not there before takes the new arc. -/
theorem below_insert (h : Graph.Below { g with containment := g.containment.insert ⟨child, parent⟩ } n m) :
    g.Below n m ∨ g.Below n parent ∧ g.Below child m := by
  induction h with
  | refl => exact .inl .refl
  | tail _ hb ih =>
    rcases Container.mem_insert.mp hb with hb | hb
    · cases hb
      rcases ih with h | h
      · exact .inr ⟨h, .refl⟩
      · exact .inr ⟨h.1, .refl⟩
    · exact ih.imp (·.tail hb) fun h => ⟨h.1, h.2.tail hb⟩

theorem Acyclic.nest {added : Bool} (h : g.Acyclic) (hc : g.Closed) (hn : g.nest child parent = .ok (g', added)) :
    g'.Acyclic := by
  rcases nest_ok hn with ⟨-, rfl, -⟩ | ⟨-, rfl, -, hp⟩
  · exact h
  · have hno : ¬g.Below child parent := fun hb => hp (mem_descendants_of_below hc hb)
    intro a ha hb
    rcases Container.mem_insert.mp ha with rfl | ha
    · exact (below_insert hb).elim hno fun h => hno h.1
    · rcases below_insert hb with hb | ⟨h₁, h₂⟩
      · exact h a ha hb
      · -- `child` is above the parent of `a`, which is above its child, which is above `parent`
        exact hno (h₂.trans (.head ha h₁))

/-- If nothing old is inside of anything new, then a new node goes into an old one. -/
theorem nest_new {k : NodeId} (h : ∀ a ∈ g.containment, k ≤ a.dst → k ≤ a.src) (hc : k ≤ child) (hp : parent < k) :
    ∃ g' added, g.nest child parent = .ok (g', added) := by
  have hbelow : ∀ m, g.Below child m → k ≤ m := by
    intro m hm
    induction hm with
    | refl => exact hc
    | tail _ hb ih => exact h _ hb ih
  have hne : child ≠ parent := Nat.ne_of_gt (Nat.lt_of_lt_of_le hp hc)
  have hnot : parent ∉ g.descendants child := by
    intro hmem
    exact Nat.not_lt.mpr (hbelow parent (below_of_mem_descendants hmem)) hp
  unfold nest
  rw [if_neg hne, if_neg hnot]
  split
  · exact ⟨_, _, rfl⟩
  · exact ⟨_, _, rfl⟩

/-- What is inside a node is the node itself or a child of something. -/
theorem mem_descendants_cases (h : m ∈ g.descendants n) : m = n ∨ ∃ p, Arc.mk m p ∈ g.containment := by
  rcases (below_of_mem_descendants h).cases_tail with h | ⟨p, _, h⟩
  · exact .inl h
  · exact .inr ⟨p, h⟩

end Graph

/-- A well formed flowgraph in which widgets only are inside others, no window has widgets inside, no widget is inside
itself, and the topmost widgets of inflated layouts are known. -/
structure Flowgraph.Sound (f : Flowgraph) : Prop where
  valid : f.Valid
  widgets : ∀ a ∈ f.graph.containment, (f.graph.object? a.src).any (·.isWidget) = true
  hosts : ∀ a ∈ f.graph.containment, (f.graph.object? a.dst).any (·.isHost) = true
  acyclic : f.graph.Acyclic
  cached : ∀ (key : InflationKey) r, f.inflations[key]? = some (some r) →
    (f.graph.object? r).any (·.isWidget) = true

theorem Node.Bounded.equip {k : Nat} {a : Node} {id : Option NodeId} {texts drawables : List NodeId} (h : a.Bounded k)
    (hb : ∀ n, id = some n ∨ n ∈ texts ∨ n ∈ drawables → n < k) : (a.equip id texts drawables).Bounded k where
  id n hn := hb n (.inl hn)
  texts n hn := (Container.mem_insertMany.mp hn).elim (h.texts n) fun hn => hb n (.inr (.inl hn))
  drawables n hn := (Container.mem_insertMany.mp hn).elim (h.drawables n) fun hn => hb n (.inr (.inr hn))
  menu := h.menu

namespace Flowgraph

variable {f f' : Flowgraph}

/-- A larger flowgraph with the same containment. -/
theorem Sound.of_grows (h : f.Sound) (hv : f'.Valid) (hg : f.graph.Grows f'.graph)
    (hc : f'.graph.containment = f.graph.containment)
    (hi : ∀ (key : InflationKey) r, f'.inflations[key]? = some (some r) →
      f.inflations[key]? = some (some r) ∨ (f'.graph.object? r).any (·.isWidget) = true) : f'.Sound where
  valid := hv
  widgets a ha := by
    rw [hc] at ha
    exact hg.object?_any Obj.blind_isWidget (h.widgets a ha)
  hosts a ha := by
    rw [hc] at ha
    exact hg.object?_any Obj.blind_isHost (h.hosts a ha)
  acyclic a ha hb := by
    have hbelow : f'.graph.Below = f.graph.Below := by
      unfold Graph.Below
      rw [hc]
    rw [hc] at ha
    rw [hbelow] at hb
    exact h.acyclic a ha hb
  cached key r hr := by
    rcases hi key r hr with hr | hr
    · exact hg.object?_any Obj.blind_isWidget (h.cached key r hr)
    · exact hr

theorem Sound.edits {U : NodeKind → Prop} (h : f.Sound) (he : Edits U f f') : f'.Sound :=
  h.of_grows (he.valid h.valid) he.grows he.containment fun key r hr => .inl (by rw [← he.inflations]; exact hr)

theorem Sound.nest {child parent : NodeId} {g : Graph} {added : Bool} (h : f.Sound)
    (hc : (f.graph.object? child).any (·.isWidget) = true) (hp : (f.graph.object? parent).any (·.isHost) = true)
    (hn : f.graph.nest child parent = .ok (g, added)) : Sound { f with graph := g } := by
  have hgrows := Graph.nest_grows hn
  have hnodes := Graph.nodes_nest hn
  have hobj : ∀ m, g.object? m = f.graph.object? m := fun m => by rw [Graph.object?, Graph.node?, hnodes]; rfl
  obtain ⟨_, ho, _⟩ := (Option.any_eq_true _ _).mp hc
  obtain ⟨_, ho', _⟩ := (Option.any_eq_true _ _).mp hp
  have harc : ∀ a ∈ g.containment, a = ⟨child, parent⟩ ∨ a ∈ f.graph.containment := by
    intro a ha
    rcases Graph.nest_ok hn with ⟨-, rfl, -⟩ | ⟨-, rfl, -⟩
    · exact .inr ha
    · exact Container.mem_insert.mp ha
  have hsize : g.size = f.graph.size := by rw [Graph.size, hnodes]; rfl
  refine ⟨h.valid.of_graph hgrows.toExtends ⟨fun a ha => ?_, fun a ha => ?_⟩ (h.valid.nodes.of_nodes hnodes)
    (fun n => ?_) fun a ha => ?_, fun a ha => ?_, fun a ha => ?_, h.acyclic.nest h.valid.closed hn, fun key r hr => ?_⟩
  · rw [Graph.flow_nest hn] at ha
    rw [hsize]
    exact h.valid.closed.flow a ha
  · rw [hsize]
    rcases harc a ha with rfl | ha
    · exact ⟨Graph.object?_lt ho, Graph.object?_lt ho'⟩
    · exact h.valid.closed.containment a ha
  · rw [Graph.op?, Graph.node?, hnodes]
    rfl
  · exact .inl (by rw [← Graph.flow_nest hn]; exact ha)
  · show (g.object? a.src).any _ = true
    rw [hobj]
    rcases harc a ha with rfl | ha
    · exact hc
    · exact h.widgets a ha
  · show (g.object? a.dst).any _ = true
    rw [hobj]
    rcases harc a ha with rfl | ha
    · exact hp
    · exact h.hosts a ha
  · show (g.object? r).any _ = true
    rw [hobj]
    exact h.cached key r hr

theorem Sound.modify {n : NodeId} {change : Node → Node} (h : f.Sound)
    (hg : ∀ a, f.graph.node? n = some a → a.Grows (change a)) (hk : ∀ a, (change a).kind = a.kind)
    (hb : ∀ a : Node, a.Bounded f.graph.size → (change a).Bounded f.graph.size) :
    Sound { f with graph := f.graph.modify n change } := by
  have hgrows := Graph.modify_grows hg
  refine h.of_grows
    (h.valid.of_graph hgrows.toExtends ?_ (h.valid.nodes.modify hb) (fun m => Graph.op?_modify fun a => by rw [hk])
    fun _ ha => .inl ha) hgrows rfl fun _ _ hr => .inl hr
  exact h.valid.closed.of_flow hgrows.toExtends.size rfl fun a ha => .inl ha

theorem Sound.withNode {object : Obj} (h : f.Sound) (hobj : object.isWidget = true) :
    (f.withNode (.object object)).Sound := by
  have hgrows : f.graph.Grows (f.graph.push (.object object)) := Graph.push_grows
  have hbounded : Node.Bounded (f.graph.size + 1) { kind := .object object } :=
    Node.bounded_of_kind fun _ _ _ he => by cases he; cases hobj
  refine h.of_grows (h.valid.of_graph hgrows.toExtends ?_ (h.valid.nodes.push hbounded) (fun m => Graph.op?_push rfl)
    fun _ ha => .inl ha) hgrows rfl fun _ _ hr => .inl hr
  exact h.valid.closed.of_flow hgrows.toExtends.size rfl fun a ha => .inl ha

theorem Sound.mark {op view listener : NodeId} (h : f.Sound) (hop : op < f.graph.size) (hv : view < f.graph.size)
    (hl : listener < f.graph.size) : (f.mark op view listener).Sound :=
  h.of_grows (mark_valid h.valid hop hv hl) (.refl _) rfl fun _ _ hr => .inl hr

theorem Valid.cache {key : InflationKey} {root : Option NodeId} (h : f.Valid) (hkey : key.Bounded f.graph.size)
    (hr : ∀ r, root = some r → r < f.graph.size) : Valid { f with inflations := f.inflations.insert key root } := by
  refine { h with filed := { h.filed with inflations := fun key' root' hkey' => ?_ } }
  rw [ExtTreeMap.getElem?_insert] at hkey'
  split at hkey'
  · rename_i he
    cases hkey'
    rw [← LawfulEqCmp.eq_of_compare he]
    exact ⟨hkey, hr⟩
  · exact h.filed.inflations key' root' hkey'

theorem Sound.cache {key : InflationKey} {root : Option NodeId} (h : f.Sound) (hkey : key.Bounded f.graph.size)
    (hr : ∀ r, root = some r → (f.graph.object? r).any (·.isWidget) = true) :
    Sound { f with inflations := f.inflations.insert key root } := by
  have hlt : ∀ r, root = some r → r < f.graph.size := fun r he => by
    obtain ⟨o, ho, _⟩ := (Option.any_eq_true _ _).mp (hr r he)
    exact Graph.object?_lt ho
  refine h.of_grows (h.valid.cache hkey hlt) (.refl _) rfl fun key' r hkey' => ?_
  rw [ExtTreeMap.getElem?_insert] at hkey'
  split at hkey'
  · exact .inr (hr r (Option.some.inj hkey'))
  · exact .inl hkey'

end Flowgraph

namespace Solver

variable {s t u : Solver} {c : Context} {op n m l w v r : NodeId} {x : Operand} {slot : Slot} {p : Phase}

/-! ## Look-ups -/

theorem mem_descendantsWithId {g : Graph} {ids : NodeSet} :
    n ∈ descendantsWithId g ids r ↔ n ∈ g.descendants r ∧ ∃ i ∈ ids, (g.node? n).bind (·.id) = some i := by
  simp only [descendantsWithId, List.mem_filter, ExtTreeSet.mem_toList, Option.any_eq_true, ExtTreeSet.contains_iff_mem]
  exact and_congr_right fun _ => ⟨fun ⟨i, hi, hm⟩ => ⟨i, hm, hi⟩, fun ⟨i, hm, hi⟩ => ⟨i, hi, hm⟩⟩

theorem mem_properDescendants {g : Graph} : n ∈ properDescendants g r ↔ n ∈ g.descendants r ∧ n ≠ r := by
  simp only [properDescendants, List.mem_filter, ExtTreeSet.mem_toList, decide_eq_true_eq]

theorem foundBelow_ordinary {g : Graph} {ids : NodeSet} : foundBelow g ids .ordinary r = descendantsWithId g ids r := by
  simp [foundBelow]

theorem mem_descendants_of_foundBelow {g : Graph} {ids : NodeSet} {q : FindQuery} (h : n ∈ foundBelow g ids q r) :
    n ∈ g.descendants r := by
  simp only [foundBelow] at h
  split at h
  · exact (mem_properDescendants.mp h).1
  · exact (mem_descendantsWithId.mp h).1

theorem mem_foundIn {ids : NodeSet} {content : Bool} : n ∈ s.foundIn ids content w ↔
    (content = true ∧ (s.graph.object? w).any (·.isActivity) = true ∧ n ∈ s.rootsOf w) ∨
    ∃ v ∈ s.rootsOf w, n ∈ descendantsWithId s.graph ids v := by
  simp only [foundIn, List.mem_append, List.mem_flatMap, ExtTreeSet.mem_toList]
  refine or_congr_left ?_
  split
  · rename_i h
    rw [Bool.and_eq_true] at h
    simp [h.1, h.2]
  · rename_i h
    rw [Bool.and_eq_true] at h
    simp only [List.not_mem_nil, false_iff]
    exact fun h' => h ⟨h'.1, h'.2.1⟩

theorem asksForContent_eq_true {r : Resources} {g : Graph} {ids : NodeSet} : asksForContent r g ids = true ↔
    ∃ value, r.systemWidgets["content"]? = some value ∧ ∃ n ∈ ids, ∃ i, g.id? n = some i ∧ i.value = value := by
  unfold asksForContent
  split
  · rename_i value h
    simp only [h, Option.some.injEq, exists_eq_left', List.any_eq_true, ExtTreeSet.mem_toList, Option.any_eq_true,
      decide_eq_true_eq]
  · rename_i h
    simp [h]

theorem mem_descendants_of_navigated {g : Graph} {d : Navigation} (hg : g.Closed) (h : n ∈ navigated g d r) :
    n ∈ g.descendants r := by
  cases d with
  | descendantsAndSelf => exact ExtTreeSet.mem_toList.mp h
  | children => exact Graph.mem_descendants_of_below hg (.single (Graph.mem_children.mp h))
  | descendantsNoSelf => exact (mem_properDescendants.mp h).1

section Mono

variable (h : s.Le t)
include h

theorem Le.descendantsWithId (hn : n ∈ descendantsWithId s.graph (s.idsOf op) r) :
    n ∈ descendantsWithId t.graph (t.idsOf op) r := by
  obtain ⟨hd, i, hi, hid⟩ := mem_descendantsWithId.mp hn
  exact mem_descendantsWithId.mpr ⟨h.graph.descendants hd, i, h.ids op i hi, h.graph.nodeId hid⟩

theorem Le.asksForContent (hc : asksForContent c.project.resources s.graph (s.idsOf op) = true) :
    asksForContent c.project.resources t.graph (t.idsOf op) = true := by
  obtain ⟨value, hv, n, hn, i, hi, hval⟩ := asksForContent_eq_true.mp hc
  exact asksForContent_eq_true.mpr ⟨value, hv, n, h.ids op n hn, i, h.graph.toExtends.id? hi, hval⟩

theorem Le.foundIn (hn : n ∈ s.foundIn (s.idsOf op) (Solver.asksForContent c.project.resources s.graph (s.idsOf op)) w) :
    n ∈ t.foundIn (t.idsOf op) (Solver.asksForContent c.project.resources t.graph (t.idsOf op)) w := by
  rcases mem_foundIn.mp hn with ⟨hc, ha, hr⟩ | ⟨v, hv, hn⟩
  · exact mem_foundIn.mpr (.inl ⟨h.asksForContent hc, h.graph.object?_any Obj.blind_isActivity ha, h.roots w n hr⟩)
  · exact mem_foundIn.mpr (.inr ⟨v, h.roots w v hv, h.descendantsWithId hn⟩)

theorem Le.navigated {d : Navigation} (hn : n ∈ navigated s.graph d r) : n ∈ Solver.navigated t.graph d r := by
  cases d with
  | descendantsAndSelf => exact ExtTreeSet.mem_toList.mpr (h.graph.descendants (ExtTreeSet.mem_toList.mp hn))
  | children => exact h.graph.children hn
  | descendantsNoSelf =>
    obtain ⟨hd, hne⟩ := mem_properDescendants.mp hn
    exact mem_properDescendants.mpr ⟨h.graph.descendants hd, hne⟩

/-- What a look-up finds it finds later too, unless it looks among the items of a menu. -/
theorem Finds.mono {o : Op} (hf : Finds c s op n) (ho : s.graph.op? op = some o)
    (hk : o.kind ≠ .findView .menuItem) : Finds c t op n := by
  cases hf with
  | @view o' q r ho' hk' hr hn =>
    obtain rfl : o' = o := Option.some.inj (ho'.symm.trans ho)
    cases q with
    | menuItem => exact absurd hk' hk
    | ordinary =>
      rw [foundBelow_ordinary] at hn
      refine .view ((h.op? op).trans ho) hk' (h.receivers hr) ?_
      rw [foundBelow_ordinary]
      exact h.descendantsWithId hn
  | window ho' hk' hw hn => exact .window ((h.op? op).trans ho') hk' (h.receivers hw) (h.foundIn hn)
  | navigation ho' hk' hr hn => exact .navigation ((h.op? op).trans ho') hk' (h.receivers hr) (h.navigated hn)

end Mono

/-! ## Types -/

/-- The declared type of an operand stays the same. -/
theorem operandTy?_eq (hs : s.flowgraph.Valid) (h : s.Le t) : t.graph.operandTy? x = s.graph.operandTy? x := by
  have hptr : ∀ o y, s.graph.op? x.op = some o → o.operand? x.slot = some y →
      t.graph.pointer? y = s.graph.pointer? y := by
    intro o y ho hy
    exact h.graph.toExtends.pointer?_of_lt ((hs.suits _ o ho).isValue hy).1
  unfold Graph.operandTy?
  rw [h.op?]
  cases ho : s.graph.op? x.op with
  | none => rfl
  | some o =>
    cases hy : o.operand? x.slot with
    | none => simp [hy]
    | some y => simp [hy, hptr o y ho hy]

theorem object?_of_accepts {p : Program} {g : Graph} (ha : accepts p g x n = true) : ∃ o, g.object? n = some o := by
  obtain ⟨o, ho, _⟩ := (Option.any_eq_true _ _).mp ha
  exact ⟨o, ho⟩

/-- Whether an object fits an operand stays the same. -/
theorem accepts_eq {o : Obj} (hs : s.flowgraph.Valid) (h : s.Le t) (ho : s.graph.object? n = some o) :
    accepts c.project.program t.graph x n = accepts c.project.program s.graph x n := by
  unfold accepts
  rw [operandTy?_eq hs h]
  exact h.graph.object?_any_eq (f := fun o => c.project.program.fits (s.graph.operandTy? x) o.cls)
    (fun _ _ _ _ => rfl) ho

theorem accepts_mono (hs : s.flowgraph.Valid) (h : s.Le t) (ha : accepts c.project.program s.graph x n = true) :
    accepts c.project.program t.graph x n = true := by
  obtain ⟨o, ho⟩ := object?_of_accepts ha
  rw [accepts_eq hs h ho, ha]

/-! ## Reasons that last -/

/-- A look-up found a node. -/
inductive Found (c : Context) (s : Solver) (op n : NodeId) : Prop
  | still {o : Op} (ho : s.graph.op? op = some o) (hk : o.kind ≠ .findView .menuItem) (hf : Finds c s op n)
  | item {o : Op} {r : NodeId} (ho : s.graph.op? op = some o) (hk : o.kind = .findView .menuItem)
      (hr : r ∈ s.receivers op) (hn : n ∈ s.graph.descendants r)

/-- The reason why a node is in the solution of an operand. -/
inductive Justified (c : Context) (s : Solver) : Operand → NodeId → Prop
  | candidate {x : Operand} {n : NodeId} (ha : accepts c.project.program s.graph x n = true)
      (hn : n ∈ s.candidatesOf x) : Justified c s x n
  | result {x : Operand} {op n : NodeId} (ha : accepts c.project.program s.graph x n = true)
      (hx : x ∈ s.downstreamOf op) (hn : n ∈ s.results op) : Justified c s x n
  | found {op n : NodeId} (ha : accepts c.project.program s.graph ⟨op, .result⟩ n = true) (hf : Found c s op n) :
      Justified c s ⟨op, .result⟩ n
  | inflated {op l n : NodeId} (hdue : s.LayoutDue ⟨op, l, none⟩)
      (hr : s.flowgraph.inflations[InflationKey.mk op l none]? = some (some n)) : Justified c s ⟨op, .result⟩ n

/-- The reason why a view is a root of a window. -/
inductive IsRoot (s : Solver) (w v : NodeId) : Prop
  | set {op : NodeId} {o : Op} (ho : s.graph.op? op = some o) (hk : o.kind = .setRoot)
      (hw : w ∈ s.receiversWhere op (·.isWindow)) (hv : v ∈ s.widgetParameters op)
  | inflated {op l : NodeId} (hdue : s.LayoutDue ⟨op, l, some w⟩)
      (hr : s.flowgraph.inflations[InflationKey.mk op l (some w)]? = some (some v))

/-- **What holds at every step.** -/
structure Inv (c : Context) (s : Solver) : Prop where
  sound : s.flowgraph.Sound
  clean : c.settings.strict = true → s.reported = ∅ ∧ s.rejected = ∅
  ids : ∀ op, ∀ n ∈ s.idsOf op, s.graph.TakesId op n
  candidates : ∀ x, ∀ n ∈ s.candidatesOf x, s.graph.TakesObject x n
  downstream : ∀ op, ∀ x ∈ s.downstreamOf op, s.graph.isOp op = true ∧ x ∈ s.graph.operandsReached op
  solution : ∀ x : Operand, ∀ n ∈ s.solution x.op x.slot, Justified c s x n
  roots : ∀ w, ∀ v ∈ s.rootsOf w, s.IsRoot w v
  windows : ∀ op slot, ∀ n ∈ s.solution op slot, (s.graph.object? n).any (·.isWindow) = true →
    ∃ o, s.graph.op? op = some o ∧ o.kind.expectsWindow slot = true

theorem Found.mono (hf : Found c s op n) (h : s.Le t) : Found c t op n := by
  cases hf with
  | still ho hk hf => exact .still ((h.op? op).trans ho) hk (hf.mono h ho hk)
  | item ho hk hr hn => exact .item ((h.op? op).trans ho) hk (h.receivers hr) (h.graph.descendants hn)

theorem Justified.mono (hs : s.flowgraph.Valid) (h : s.Le t) (hj : Justified c s x n) : Justified c t x n := by
  cases hj with
  | candidate ha hn => exact .candidate (accepts_mono hs h ha) (h.candidates _ _ hn)
  | result ha hx hn => exact .result (accepts_mono hs h ha) (h.downstream _ _ hx) (h.solution _ _ _ hn)
  | found ha hf => exact .found (accepts_mono hs h ha) (hf.mono h)
  | inflated hdue hr => exact .inflated (hdue.mono h) (h.inflations _ _ hr)

theorem IsRoot.mono (hr : s.IsRoot w v) (h : s.Le t) : t.IsRoot w v := by
  cases hr with
  | set ho hk hw hv =>
    exact .set ((h.op? _).trans ho) hk (h.receiversWhere Obj.blind_isWindow hw) (h.widgetParameters hv)
  | inflated hdue hr => exact .inflated (hdue.mono h) (h.inflations _ _ hr)

/-- What enters a solution for a reason has a lasting reason. -/
theorem Enters.justified (hs : s.flowgraph.Valid) (h : s.Le t) (he : Enters c s t p x n) : Justified c t x n := by
  cases he with
  | seed ha hn => exact .candidate (accepts_mono hs h ha) (h.candidates _ _ hn)
  | propagate ha hx hn => exact .result (accepts_mono hs h ha) (h.downstream _ _ hx) (h.solution _ _ _ hn)
  | inflate hdue hr => exact .inflated (hdue.mono h) hr
  | find ha hf =>
    refine .found (accepts_mono hs h ha) (Found.mono ?_ h)
    cases hf with
    | @view o q r ho hk hr hn =>
      cases q with
      | ordinary => exact .still ho (by rw [hk]; nofun) (.view ho hk hr hn)
      | menuItem => exact .item ho hk hr (mem_descendants_of_foundBelow hn)
    | window ho hk hw hn => exact .still ho (by rw [hk]; nofun) (.window ho hk hw hn)
    | navigation ho hk hr hn => exact .still ho (by rw [hk]; nofun) (.navigation ho hk hr hn)

theorem BecomesRoot.isRoot (h : s.Le t) (hr : BecomesRoot s t w v p) : t.IsRoot w v := by
  cases hr with
  | set ho hk hw hv => exact IsRoot.mono (.set ho hk hw hv) h
  | inflate hdue hr => exact .inflated (hdue.mono h) hr

/-! ## Consequences -/

namespace Inv

variable (hs : Inv c s)
include hs

theorem valid : s.flowgraph.Valid := hs.sound.valid

/-- Solutions hold objects. -/
theorem object? (hn : n ∈ s.solution op slot) : ∃ o, s.graph.object? n = some o := by
  cases hs.solution ⟨op, slot⟩ n hn with
  | candidate ha | result ha | found ha => exact object?_of_accepts ha
  | inflated _ hr =>
    obtain ⟨o, ho, _⟩ := (Option.any_eq_true _ _).mp (hs.sound.cached _ _ hr)
    exact ⟨o, ho⟩

theorem solution_lt (hn : n ∈ s.solution op slot) : n < s.graph.size :=
  Graph.object?_lt (hs.object? hn).choose_spec

theorem isOp_of_downstream (hx : x ∈ s.downstreamOf op) : s.graph.isOp x.op = true := by
  obtain ⟨_, _, _, o, _, ho, _⟩ := Graph.mem_operandsReached.mp (hs.downstream op x hx).2
  exact Graph.isOp_of_op? ho

theorem spans {child parent : NodeId} (hc : child ∈ s.widgetParameters op) (hp : parent ∈ s.receivers op) :
    s.graph.Spans ⟨child, parent⟩ :=
  ⟨hs.solution_lt (mem_widgetParameters.mp hc).1, hs.solution_lt hp⟩

/-- The operation, the layout and the window of an inflation that is due are nodes. -/
theorem bounded_of_layoutDue {key : InflationKey} (h : s.LayoutDue key) : key.Bounded s.graph.size := by
  cases h with
  | @result op l o ho _ hl =>
    obtain ⟨i, _, hi, _⟩ := hs.ids op l (mem_idsIn.mp hl).1
    exact ⟨Graph.op?_lt ho, Graph.id?_lt hi, nofun⟩
  | @content op l w o ho _ hw hl =>
    obtain ⟨i, _, hi, _⟩ := hs.ids op l (mem_idsIn.mp hl).1
    exact ⟨Graph.op?_lt ho, Graph.id?_lt hi, fun w' hw' =>
      Option.some.inj hw' ▸ hs.solution_lt (mem_receiversWhere.mp hw).1⟩

theorem bounded_of_menuDue {key : InflationKey} (h : s.MenuDue key) : key.Bounded s.graph.size := by
  cases h with
  | @menu op l m o ho _ hm hl =>
    obtain ⟨i, _, hi, _⟩ := hs.ids op l (mem_idsIn.mp hl).1
    exact ⟨Graph.op?_lt ho, Graph.id?_lt hi, fun m' hm' =>
      Option.some.inj hm' ▸ hs.solution_lt (mem_receiversWhere.mp hm).1⟩

/-- Root views are widgets. -/
theorem isWidget_of_root (hv : v ∈ s.rootsOf w) : (s.graph.object? v).any (·.isWidget) = true := by
  cases hs.roots w v hv with
  | set _ _ _ hv => exact (mem_widgetParameters.mp hv).2
  | inflated _ hr => exact hs.sound.cached _ _ hr

/-- What an operation that does not expect a window has as a receiver is no window. -/
theorem isHost_of_receiver {o : Op} (ho : s.graph.op? op = some o) (hk : o.kind.expectsWindow .receiver = false)
    (hr : r ∈ s.receivers op) : (s.graph.object? r).any (·.isHost) = true := by
  obtain ⟨object, hobj⟩ := hs.object? hr
  rw [hobj]
  refine Obj.isHost_iff.mpr (Bool.eq_false_iff.mpr fun hw => ?_)
  obtain ⟨o', ho', hexp⟩ := hs.windows _ _ _ hr (by rw [hobj]; exact hw)
  obtain rfl : o = o' := Option.some.inj (ho.symm.trans ho')
  rw [hk] at hexp
  cases hexp

/-- What a look-up finds is no window. -/
theorem not_isWindow_of_finds (hf : Finds c s op n) : ¬(s.graph.object? n).any (·.isWindow) = true := by
  refine Graph.not_isWindow_of_isHost ?_
  -- below a receiver there are widgets, and the receiver itself is no window
  have hbelow : ∀ {o r}, s.graph.op? op = some o → o.kind.expectsWindow .receiver = false → r ∈ s.receivers op →
      n ∈ s.graph.descendants r → (s.graph.object? n).any (·.isHost) = true := by
    intro o r ho hk hr hn
    rcases Graph.mem_descendants_cases hn with rfl | ⟨q, hq⟩
    · exact hs.isHost_of_receiver ho hk hr
    · exact Graph.isHost_of_isWidget (hs.sound.widgets _ hq)
  cases hf with
  | view ho hk hr hn => exact hbelow ho (by rw [hk]; rfl) hr (mem_descendants_of_foundBelow hn)
  | navigation ho hk hr hn => exact hbelow ho (by rw [hk]; rfl) hr (mem_descendants_of_navigated hs.valid.closed hn)
  | window ho hk hw hn =>
    rcases mem_foundIn.mp hn with ⟨_, _, hroot⟩ | ⟨v, hv, hn⟩
    · exact Graph.isHost_of_isWidget (hs.isWidget_of_root hroot)
    · rcases Graph.mem_descendants_cases (mem_descendantsWithId.mp hn).1 with rfl | ⟨q, hq⟩
      · exact Graph.isHost_of_isWidget (hs.isWidget_of_root hv)
      · exact Graph.isHost_of_isWidget (hs.sound.widgets _ hq)

/-- Results are no windows. -/
theorem not_isWindow_of_result (hn : n ∈ s.results op) : ¬(s.graph.object? n).any (·.isWindow) = true := by
  intro hw
  obtain ⟨o, _, he⟩ := hs.windows op .result n hn hw
  simp [OpKind.expectsWindow] at he

end Inv

/-! ## Steps keep it -/

theorem sound_of_inflates (hs : s.flowgraph.Sound) (h : ReflTransGen (Inflates c) s t) : t.flowgraph.Sound := by
  induction h with
  | refl => exact hs
  | tail _ h ih =>
    cases h with
    | note => exact ih
    | nest hc hp h => exact ih.nest hc hp h
    | @widget object f₁ f₂ id texts drawables origin pending log hobj h₁ hfresh h₂ _ hb =>
      have h₁ := (ih.withNode hobj).edits h₁
      refine Sound.edits (h₁.modify (fun a ha => Node.equip_grows ?_) (fun _ => rfl) fun a ha => ha.equip hb) h₂
      rw [ha] at hfresh
      exact Option.isNone_iff_eq_none.mp hfresh

theorem Step.sound (hs : Inv c s) (h : Step c p s t) : t.flowgraph.Sound := by
  cases h with
  | note | settle | id | candidate | downstream | seed | propagate | find | root => exact hs.sound
  | nest ho hk hc hp h =>
    exact hs.sound.nest (mem_widgetParameters.mp hc).2 (hs.isHost_of_receiver ho (by rw [hk]; rfl) hp) h
  | @bindId _ op n id _ _ _ _ hi hnone =>
    refine hs.sound.modify (fun a ha => ⟨.refl _, fun i hi => ?_, fun _ h => h, fun _ h => h⟩) (fun _ => rfl)
      fun a ha => { ha with id := fun i hi' => ?_ }
    · rw [graph] at hnone
      rw [ha] at hnone
      rw [Option.isNone_iff_eq_none.mp hnone] at hi
      cases hi
    · obtain ⟨_, _, hid, _⟩ := hs.ids op id (mem_orderedIds.mp hi).1
      exact Option.some.inj hi' ▸ Graph.id?_lt hid
  | texts _ _ _ ht =>
    refine hs.sound.modify (fun a _ => ⟨.refl _, fun _ h => h, fun _ h => Container.mem_insertMany.mpr (.inl h),
      fun _ h => h⟩) (fun _ => rfl) fun a ha => { ha with texts := fun d hd => ?_ }
    exact (Container.mem_insertMany.mp hd).elim (ha.texts d) fun hd => lt_of_mem_parameterSources (ht d hd)
  | drawables _ _ _ ht =>
    refine hs.sound.modify (fun a _ => ⟨.refl _, fun _ h => h, fun _ h => h,
      fun _ h => Container.mem_insertMany.mpr (.inl h)⟩) (fun _ => rfl) fun a ha => { ha with drawables := fun d hd => ?_ }
    exact (Container.mem_insertMany.mp hd).elim (ha.drawables d) fun hd => lt_of_mem_parameterSources (ht d hd)
  | dispatch hv hl _ _ h =>
    obtain ⟨hop, hl⟩ := mem_listenersOf.mp hl
    obtain ⟨o, ho, _⟩ := (Option.any_eq_true _ _).mp hop
    exact (hs.sound.mark (Graph.op?_lt ho) (hs.solution_lt hv) (hs.solution_lt hl)).edits h
  | layout hdue _ hin hroot =>
    rw [finish_eq]
    have hkey := (hs.bounded_of_layoutDue hdue).mono (le_of_inflates hin).graph.toExtends.size
    exact (sound_of_inflates hs.sound hin).cache hkey fun r hr => (hroot r hr).isWidget
  | menu hdue _ hin =>
    exact sound_of_inflates (s := s.cache _ none) (hs.sound.cache (hs.bounded_of_menuDue hdue) nofun) hin
  | reuse =>
    rw [flowgraph_deliver]
    exact hs.sound

theorem Step.clean (hs : Inv c s) (h : Step c p s t) (hstrict : c.settings.strict = true) :
    t.reported = ∅ ∧ t.rejected = ∅ := by
  have hinfl : ∀ {s t : Solver}, ReflTransGen (Inflates c) s t →
      t.reported = s.reported ∧ t.rejected = s.rejected := by
    intro s t h
    induction h with
    | refl => exact ⟨rfl, rfl⟩
    | tail _ h ih =>
      cases h with
      | note h => exact ⟨ih.1, (h hstrict).trans ih.2⟩
      | nest | widget => exact ih
  have hs := hs.clean hstrict
  cases h with
  | settle | id | candidate | downstream | seed | propagate | find | root | nest | bindId | texts | drawables
  | dispatch => exact hs
  | note _ h =>
    obtain ⟨h₁, h₂⟩ := h hstrict
    exact ⟨h₁.trans hs.1, h₂.trans hs.2⟩
  | layout _ _ hin =>
    rw [finish_eq]
    exact ⟨(hinfl hin).1.trans hs.1, (hinfl hin).2.trans hs.2⟩
  | menu _ _ hin => exact ⟨(hinfl hin).1.trans hs.1, (hinfl hin).2.trans hs.2⟩
  | reuse =>
    rw [deliver_eq]
    exact hs

/-- No window enters a solution but where flow brings it. -/
theorem Enters.not_isWindow (hs : Inv c s) (h : s.Le t) (ht : t.flowgraph.Sound) (he : Enters c s t p x n)
    (hp : p ≠ .classify) : ¬(t.graph.object? n).any (·.isWindow) = true := by
  -- a node is a window after the step if it is one before
  have hback : ∀ {o}, s.graph.object? n = some o → (t.graph.object? n).any (·.isWindow) = true →
      (s.graph.object? n).any (·.isWindow) = true := by
    intro o ho hw
    rw [← h.graph.object?_any_eq Obj.blind_isWindow ho]
    exact hw
  intro hw
  cases he with
  | seed => exact hp rfl
  | propagate ha _ hn => exact hs.not_isWindow_of_result hn (hback (object?_of_accepts ha).choose_spec hw)
  | find ha hf => exact hs.not_isWindow_of_finds hf (hback (object?_of_accepts ha).choose_spec hw)
  | inflate _ hr => exact Graph.not_isWindow_of_isHost (Graph.isHost_of_isWidget (ht.cached _ _ hr)) hw

/-- What enters a solution as a window, flow brings to an operand that expects it. -/
theorem Enters.expectsWindow (hs : Inv c s) (h : s.Le t) (ht : t.flowgraph.Sound) (he : Enters c s t p x n)
    (hw : (t.graph.object? n).any (·.isWindow) = true) :
    ∃ o, s.graph.op? x.op = some o ∧ o.kind.expectsWindow x.slot = true := by
  cases he with
  | seed ha hn =>
    obtain ⟨object, o, hobj, ho, _, hexp⟩ := hs.candidates _ _ hn
    rw [h.graph.object?_any_eq Obj.blind_isWindow hobj, hobj] at hw
    refine ⟨o, ho, ?_⟩
    rw [OpKind.expects, if_pos (by exact hw)] at hexp
    exact hexp
  | propagate ha hx hn => exact absurd hw (Enters.not_isWindow hs h ht (.propagate ha hx hn) nofun)
  | find ha hf => exact absurd hw (Enters.not_isWindow hs h ht (.find ha hf) nofun)
  | inflate hdue hr => exact absurd hw (Enters.not_isWindow hs h ht (.inflate hdue hr) nofun)

/-- **A step keeps the invariant.** -/
theorem Step.inv (hs : Inv c s) (h : Step c p s t) : Inv c t where
  sound := h.sound hs
  clean := h.clean hs
  ids op n hn := by
    rcases h.ids_cases hn with hn | hn
    · exact (hs.ids op n hn).mono h.le.graph.toExtends
    · exact hn.mono h.le.graph.toExtends
  candidates x n hn := by
    rcases h.candidates_cases hn with hn | hn
    · exact (hs.candidates x n hn).mono h.le.graph
    · exact hn.mono h.le.graph
  downstream op x hx := by
    have key : s.graph.isOp op = true ∧ x ∈ s.graph.operandsReached op :=
      (h.downstream_cases hx).elim (hs.downstream op x) fun hx => hx
    exact ⟨by rw [Graph.isOp, h.le.op?]; exact key.1, h.le.graph.toExtends.operandsReached key.2⟩
  solution x n hn := by
    rcases h.solution_cases hn with hn | hn
    · exact (hs.solution x n hn).mono hs.valid h.le
    · exact hn.justified hs.valid h.le
  roots w v hv := by
    rcases h.roots_cases hv with hv | hv
    · exact (hs.roots w v hv).mono h.le
    · exact hv.isRoot h.le
  windows op slot n hn hw := by
    have key : ∃ o, s.graph.op? op = some o ∧ o.kind.expectsWindow slot = true := by
      rcases h.solution_cases (x := ⟨op, slot⟩) hn with hn | hn
      · refine hs.windows op slot n hn ?_
        obtain ⟨o, ho⟩ := hs.object? hn
        rw [← h.le.graph.object?_any_eq Obj.blind_isWindow ho]
        exact hw
      · exact hn.expectsWindow hs h.le (h.sound hs) hw
    obtain ⟨o, ho, he⟩ := key
    exact ⟨o, (h.le.op? op).trans ho, he⟩

theorem Steps.inv (hs : Inv c s) (h : Steps c p s t) : Inv c t := by
  induction h with
  | refl => exact hs
  | tail _ h ih => exact h.inv ih

theorem Run.inv (hs : Inv c s) (h : Run c s t) : Inv c t := by
  induction h with
  | refl => exact hs
  | tail _ h ih => exact h.choose_spec.inv ih

/-- A solver that has not started. -/
theorem inv_init {f : Flowgraph} (hf : f.Sound) : Inv c { flowgraph := f } where
  sound := hf
  clean _ := ⟨rfl, rfl⟩
  ids op n hn := by simp [idsOf] at hn
  candidates x n hn := by simp [candidatesOf] at hn
  downstream op x hx := by simp [downstreamOf] at hx
  solution x n hn := by simp [solution] at hn
  roots w v hv := by simp [rootsOf] at hv
  windows op slot n hn := by simp [solution] at hn

end Solver

end WidgetFlow
