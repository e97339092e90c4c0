import WidgetFlow.Proofs.CallBinding

/-!
# Elements of arrays

What is written into an array flows to where an element of it is read. The arrays are looked at one after the other: the
flow that is added for one of them can bring a later one to more locals, and the first look at a written `new` makes an
object, which can bring flow of its own. So the two directions are about two different graphs (`linkArrays_exact`):

* if an array reaches the locals of a write and of a read before the step, the written value flows to the read;
* new flow is from a write to a read whose locals one array reaches after the step, or it came with a written object.

Nothing is asked of the flowgraph. All functions below only go onward (`Onward`), and the flow that they add has a
reason that lasts (`Adds`).
-/

namespace WidgetFlow

open Std

/-- What a statement assigns. -/
def Site.source? (s : Site) : Option Expr :=
  match s.instr.stmt with
  | .assign _ rhs => some rhs
  | _ => none

/-- The local that a statement assigns to. -/
def Site.target? (s : Site) : Option Local :=
  match s.instr.stmt with
  | .assign (.var l) _ => some l
  | _ => none

namespace Site

variable {s : Site}

theorem source?_eq_some {e : Expr} : s.source? = some e ↔ ∃ lhs, s.instr.stmt = .assign lhs e := by
  unfold source?
  split <;> simp_all

theorem target?_eq_some {l : Local} : s.target? = some l ↔ ∃ e, s.instr.stmt = .assign (.var l) e := by
  unfold target?
  split <;> simp_all

end Site

/-- The class of the object that an expression makes. -/
def Expr.newClass? : Expr → Option String
  | .new cls => some cls
  | .newArray element => some (element.text ++ "[]")
  | _ => none

namespace Flowgraph

variable {α : Type} {c : Context} {f f' f'' : Flowgraph} {n x y : NodeId} {a : Arc} {site : Site}

/-! ## Flow for a reason -/

/-- Nodes, edges, objects and menus are only added, and the statements that wait stay the same. -/
structure Onward (f f' : Flowgraph) : Prop where
  graph : f.graph.Extends f'.graph
  deferred : f'.deferred = f.deferred
  allocs : ∀ (l : Label) n, f.allocs[l]? = some n → f'.allocs[l]? = some n
  contextMenus : ∀ p m : NodeId, f.contextMenus[p]? = some m → f'.contextMenus[p]? = some m
  itemHandlers : f'.itemHandlers = f.itemHandlers
  itemMenus : f'.itemMenus = f.itemMenus

namespace Onward

theorem of_graph {g : Graph} (h : f.graph.Extends g) : Onward f { f with graph := g } :=
  ⟨h, rfl, fun _ _ h => h, fun _ _ h => h, rfl, rfl⟩

theorem refl (f : Flowgraph) : Onward f f := of_graph (.refl _)

theorem trans (h : Onward f f') (h' : Onward f' f'') : Onward f f'' where
  graph := h.graph.trans h'.graph
  deferred := h'.deferred.trans h.deferred
  allocs l n hn := h'.allocs l n (h.allocs l n hn)
  contextMenus p m hm := h'.contextMenus p m (h.contextMenus p m hm)
  itemHandlers := h'.itemHandlers.trans h.itemHandlers
  itemMenus := h'.itemMenus.trans h.itemMenus

variable (h : Onward f f')
include h

theorem sites {role : Role} : f'.sites role = f.sites role := by rw [Flowgraph.sites, Flowgraph.sites, h.deferred]

theorem allocs_eq_none {l : Label} (hl : f'.allocs[l]? = none) : f.allocs[l]? = none := by
  rw [Option.eq_none_iff_forall_ne_some] at hl ⊢
  exact fun n hn => hl n (h.allocs l n hn)

theorem contextMenus_eq_none {p : NodeId} (hp : f'.contextMenus[p]? = none) : f.contextMenus[p]? = none := by
  rw [Option.eq_none_iff_forall_ne_some] at hp ⊢
  exact fun m hm => hp m (h.contextMenus p m hm)

end Onward

theorem Edits.onward {U : NodeKind → Prop} (h : Edits U f f') : Onward f f' := by
  induction h with
  | refl => exact .refl _
  | tail _ hchange ih =>
    have hgraph := hchange.grows.toExtends
    refine ih.trans ?_
    cases hchange with
    | log | handlers => exact { Onward.refl _ with }
    | node | flow | shown => exact .of_graph hgraph
    | menu _ _ hnew =>
      exact { Onward.of_graph hgraph with
        contextMenus := fun p m hm => Container.getElem?_insert_of_getElem? hnew hm }

/-- A reason for an edge. It lasts. -/
structure Reason where
  holds : Flowgraph → Arc → Prop
  lasts : ∀ {f f' a}, Onward f f' → holds f a → holds f' a

variable {J : Reason}

/-- Flow was added, and all of it has a reason. -/
structure Adds (J : Reason) (f f' : Flowgraph) : Prop where
  onward : Onward f f'
  flow : ∀ a ∈ f'.graph.flow, a ∈ f.graph.flow ∨ J.holds f' a

theorem Adds.of_flow (h : Onward f f') (hflow : f'.graph.flow = f.graph.flow) : Adds J f f' :=
  ⟨h, fun a ha => .inl (by rw [← hflow]; exact ha)⟩

instance : IsPreorder Flowgraph (Adds J) where
  refl f := .of_flow (.refl f) rfl
  trans f f' f'' h h' := by
    refine ⟨h.onward.trans h'.onward, fun a ha => ?_⟩
    rcases h'.flow a ha with ha | ha
    · exact (h.flow a ha).imp_right (J.lasts h'.onward)
    · exact .inr ha

/-- Edits that add no flow. -/
theorem adds_of_edits {U : NodeKind → Prop} {x : Edit α} {Q : α → Flowgraph → Prop} (h : Does (Edits U) c f x Q)
    (hflow : ∀ r f', Q r f' → f'.graph.flow = f.graph.flow) : Does (Adds J) c f x Q :=
  ⟨.of_flow h.moves.onward (hflow _ _ h.post), h.post⟩

theorem varNode_adds {l : Local} : Does (Adds J) c f (varNode l) fun n f' => f'.var? l = some n :=
  (adds_of_edits (varNode_does plain_pointer) fun _ _ h => h.flow).imp fun _ _ _ h => h.first

theorem addEdge_adds {l : Option Label} (hJ : J.holds f ⟨x, y⟩) :
    Does (Adds J) c f (addEdge x y l) fun _ f' => Arc.mk x y ∈ f'.graph.flow := by
  have honward : Onward f { f with graph := f.graph.connect x y l } := .of_graph Graph.connect_grows.toExtends
  refine .of_run rfl ⟨honward, fun a ha => ?_⟩ (Graph.mem_flow_connect.mpr (.inl rfl))
  rcases Graph.mem_flow_connect.mp ha with rfl | ha
  · exact .inr (J.lasts honward hJ)
  · exact .inl ha

theorem flowTo_adds {l : Local} {lab : Option Label}
    (hJ : ∀ f' t, Onward f f' → f'.var? l = some t → J.holds f' ⟨x, t⟩) :
    Does (Adds J) c f (flowTo x l lab) fun _ f' => f'.FlowsInto x l := by
  unfold flowTo
  refine .bind varNode_adds fun t f₁ h₁ ht => ?_
  exact (addEdge_adds (hJ f₁ t h₁.onward ht)).imp fun _ f₂ h₂ ha => ⟨t, var?_mono h₂.onward.graph ht, ha⟩

theorem flowToThis_adds {m : Method}
    (hJ : ∀ f' l t, Onward f f' → m.this? = some l → f'.var? l = some t → J.holds f' ⟨x, t⟩) :
    Does (Adds J) c f (flowToThis x m) fun _ _ => True := by
  unfold flowToThis
  cases hm : m.this? with
  | some l => exact (flowTo_adds fun f' t hf ht => hJ f' l t hf hm ht).discard.any
  | none => exact .pure trivial

/-! ## Flow that comes with a new object -/

/-- A method receives the selected item of the context menu that `handler` fills. -/
def ReceivesItem (f : Flowgraph) (handler receiver : String) : Prop :=
  ∃ activity creations, (activity, creations) ∈ f.itemHandlers.toList ∧ receiver ∈ creations.getD handler ∅

/-- Since `f₀` there is a context menu for the parameter of the method with which views of class `cls` fill one. -/
structure NewMenu (c : Context) (f₀ : Flowgraph) (cls : String) (f : Flowgraph) (handler : Method)
    (parameter menu : NodeId) : Prop where
  isView : c.project.program.isView cls = true
  fills : c.project.program.callback? cls Framework.viewOnCreateContextMenu = some handler
  through : ∃ l, handler.param? 0 = some l ∧ f.var? l = some parameter
  old : f₀.contextMenus[parameter]? = none
  new : f.contextMenus[parameter]? = some menu

/-- The flow that comes with the object `n` of class `cls`. A dialog flows into the methods of its life cycle. A view
flows into the method that fills its context menu. If the menu is a new one, it flows into the parameter of the method
and to the methods that receive the selected item. -/
inductive AllocationFlow (c : Context) (f₀ : Flowgraph) (cls : String) (n : NodeId) (f : Flowgraph) : Arc → Prop
  | lifecycle {sub : String} {m : Method} {l : Local} {t : NodeId} (hcls : c.project.program.isDialog cls = true)
      (hsub : sub ∈ Framework.dialogLifecycle) (hm : c.project.program.callback? cls sub = some m)
      (hl : m.this? = some l) (ht : f.var? l = some t) : AllocationFlow c f₀ cls n f ⟨n, t⟩
  | view {m : Method} {l : Local} {t : NodeId} (hcls : c.project.program.isView cls = true)
      (hm : c.project.program.callback? cls Framework.viewOnCreateContextMenu = some m) (hl : m.this? = some l)
      (ht : f.var? l = some t) : AllocationFlow c f₀ cls n f ⟨n, t⟩
  | menu {handler : Method} {parameter menu : NodeId} (h : NewMenu c f₀ cls f handler parameter menu) :
      AllocationFlow c f₀ cls n f ⟨menu, parameter⟩
  | item {handler : Method} {parameter menu v : NodeId} {receiver : String}
      (h : NewMenu c f₀ cls f handler parameter menu) (hr : f.ReceivesItem handler.signature receiver)
      (hv : f.itemMenus[receiver]? = some v) : AllocationFlow c f₀ cls n f ⟨menu, v⟩

variable {f₀ f₁ : Flowgraph} {cls : String}

theorem ReceivesItem.lasts {handler receiver : String} (h : Onward f f') (hr : f.ReceivesItem handler receiver) :
    f'.ReceivesItem handler receiver := by
  rw [ReceivesItem, h.itemHandlers]
  exact hr

theorem NewMenu.lasts {handler : Method} {parameter menu : NodeId} (h : Onward f f')
    (hm : NewMenu c f₀ cls f handler parameter menu) : NewMenu c f₀ cls f' handler parameter menu := by
  obtain ⟨l, hl, hp⟩ := hm.through
  exact { hm with
    through := ⟨l, hl, var?_mono h.graph hp⟩
    new := h.contextMenus _ _ hm.new }

theorem AllocationFlow.lasts (h : Onward f f') (ha : AllocationFlow c f₀ cls n f a) :
    AllocationFlow c f₀ cls n f' a := by
  cases ha with
  | lifecycle hcls hsub hm hl ht => exact .lifecycle hcls hsub hm hl (var?_mono h.graph ht)
  | view hcls hm hl ht => exact .view hcls hm hl (var?_mono h.graph ht)
  | menu hm => exact .menu (hm.lasts h)
  | item hm hr hv => exact .item (hm.lasts h) (hr.lasts h) (by rw [h.itemMenus]; exact hv)

/-- What is new since a later flowgraph is new since an earlier one. -/
theorem AllocationFlow.since (h : Onward f₀ f₁) (ha : AllocationFlow c f₁ cls n f a) :
    AllocationFlow c f₀ cls n f a := by
  cases ha with
  | lifecycle hcls hsub hm hl ht => exact .lifecycle hcls hsub hm hl ht
  | view hcls hm hl ht => exact .view hcls hm hl ht
  | menu hm => exact .menu { hm with old := h.contextMenus_eq_none hm.old }
  | item hm hr hv => exact .item { hm with old := h.contextMenus_eq_none hm.old } hr hv

theorem dialogLifecycle_adds (hcls : c.project.program.isDialog cls = true)
    (hJ : ∀ f' a, Onward f f' → AllocationFlow c f cls n f' a → J.holds f' a) :
    Does (Adds J) c f (dialogLifecycle cls n) fun _ _ => True := by
  unfold dialogLifecycle
  refine .read rfl (.bind (.each fun m hm f₁ h₁ => flowToThis_adds fun f' l t h' hl ht => ?_) fun _ f₁ _ _ => ?_)
  · obtain ⟨sub, hsub, hm⟩ := List.mem_filterMap.mp hm
    exact hJ f' _ (h₁.onward.trans h') (.lifecycle hcls hsub hm hl ht)
  · exact .of_run rfl (.of_flow { Onward.refl f₁ with } rfl) trivial

theorem connectItemMenus_adds {menu : NodeId} {handler : String}
    (hJ : ∀ r v, f.ReceivesItem handler r → f.itemMenus[r]? = some v → J.holds f ⟨menu, v⟩) :
    Does (Adds J) c f (connectItemMenus menu handler) fun _ _ => True := by
  unfold connectItemMenus
  refine .read rfl (.each fun r hr f₁ h₁ => ?_)
  have hreceives : f.ReceivesItem handler r := by
    rw [ExtTreeSet.mem_toList, Container.mem_ofList, List.mem_flatMap] at hr
    obtain ⟨⟨activity, creations⟩, hmem, hr⟩ := hr
    exact ⟨activity, creations, hmem, ExtTreeSet.mem_toList.mp hr⟩
  split
  · rename_i v hv
    exact (addEdge_adds (J.lasts h₁.onward (hJ r v hreceives hv))).discard.any
  · exact .pure trivial

theorem contextMenu_adds {handler : String} {p v : NodeId}
    (hJ : ∀ f' menu, Onward f f' → f.contextMenus[p]? = none → f'.contextMenus[p]? = some menu →
      J.holds f' ⟨menu, p⟩ ∧
        ∀ r v, f'.ReceivesItem handler r → f'.itemMenus[r]? = some v → J.holds f' ⟨menu, v⟩) :
    Does (Adds J) c f (contextMenu handler p v) fun _ _ => True := by
  unfold contextMenu
  refine .read rfl ?_
  cases hmenu : f.contextMenus[p]? with
  | some menu => exact ⟨.of_flow (.of_graph (Graph.modify_grows fun a _ => a.showOn_grows).toExtends) rfl, trivial⟩
  | none =>
    -- the reason for the edge is the entry, which is made after it
    let f₁ := { f with
      graph := (f.graph.push (.object (.contextMenu handler p {v}))).connect f.graph.size p none
      contextMenus := f.contextMenus.insert p f.graph.size }
    have h₁ : Onward f f₁ :=
      { Onward.of_graph (Graph.push_grows.trans Graph.connect_grows).toExtends with
        contextMenus := fun q m hm => Container.getElem?_insert_of_getElem? hmenu hm }
    obtain ⟨hedge, hitems⟩ := hJ f₁ f.graph.size h₁ hmenu ExtTreeMap.getElem?_insert_self
    have hadds : Adds J f f₁ := by
      refine ⟨h₁, fun a ha => ?_⟩
      rcases Graph.mem_flow_connect.mp ha with rfl | ha
      · exact .inr hedge
      · exact .inl ha
    have hd : Does (Adds J) c f₁ (connectItemMenus f.graph.size handler) _ := connectItemMenus_adds hitems
    exact ⟨trans_of (Adds J) hadds hd.moves, trivial⟩

theorem viewContextMenu_adds (hcls : c.project.program.isView cls = true)
    (hJ : ∀ f' a, Onward f f' → AllocationFlow c f cls n f' a → J.holds f' a) :
    Does (Adds J) c f (viewContextMenu n cls) fun _ _ => True := by
  unfold viewContextMenu
  refine .read rfl ?_
  split
  · rename_i handler hh
    split
    · rename_i this parameter hthis hparameter
      refine .bind (flowTo_adds fun f' t h' ht => hJ f' _ h' (.view hcls hh hthis ht)).discard fun _ f₁ h₁ _ => ?_
      refine .bind varNode_adds fun menuVar f₂ h₂ hvar => .bind varNode_adds fun viewVar f₃ h₃ _ => ?_
      have h := (h₁.onward.trans h₂.onward).trans h₃.onward
      refine .map (contextMenu_adds fun f' menu h' hold hnew => ?_)
      have hmenu : NewMenu c f cls f' handler menuVar menu :=
        { isView := hcls
          fills := hh
          through := ⟨parameter, hparameter, var?_mono (h₃.onward.trans h').graph hvar⟩
          old := h.contextMenus_eq_none hold
          new := hnew }
      exact ⟨hJ f' _ (h.trans h') (.menu hmenu), fun r v hr hv => hJ f' _ (h.trans h') (.item hmenu hr hv)⟩
    · exact .pure trivial
  · exact .pure trivial

theorem allocOnce_adds {object : Obj} {found : NodeId → Edit Unit}
    (hfound : ∀ n f₁, Onward f f₁ → f.allocs[site.label]? = none → f₁.allocs[site.label]? = some n →
      Does (Adds J) c f₁ (found n) fun _ _ => True) :
    Does (Adds J) c f (allocOnce site object found) fun n f' => f'.allocs[site.label]? = some n := by
  unfold allocOnce
  refine .read rfl ?_
  cases hsite : f.allocs[site.label]? with
  | some n => exact .pure hsite
  | none =>
    let f₁ := { f with
      graph := f.graph.push (.object object)
      allocs := f.allocs.insert site.label f.graph.size }
    have h₁ : Onward f f₁ :=
      { Onward.of_graph Graph.push_grows.toExtends with
        allocs := fun l m hm => Container.getElem?_insert_of_getElem? hsite hm }
    have hn : f₁.allocs[site.label]? = some f.graph.size := ExtTreeMap.getElem?_insert_self
    have hd := hfound f.graph.size f₁ h₁ hsite hn
    exact ⟨trans_of (Adds J) (.of_flow h₁ rfl) hd.moves, hd.moves.onward.allocs _ _ hn⟩

/-- Since `f₀` the statement made an object, and the edge came with it. -/
def CameWith (c : Context) (f₀ : Flowgraph) (site : Site) (e : Expr) (f : Flowgraph) (a : Arc) : Prop :=
  ∃ cls n, e.newClass? = some cls ∧ f₀.allocs[site.label]? = none ∧ f.allocs[site.label]? = some n ∧
    AllocationFlow c f₀ cls n f a

theorem CameWith.lasts {e : Expr} (h : Onward f f') (ha : CameWith c f₀ site e f a) : CameWith c f₀ site e f' a := by
  obtain ⟨cls, n, hcls, hold, hnew, ha⟩ := ha
  exact ⟨cls, n, hcls, hold, h.allocs _ _ hnew, ha.lasts h⟩

theorem CameWith.since {e : Expr} (h : Onward f₀ f₁) (ha : CameWith c f₁ site e f a) : CameWith c f₀ site e f a := by
  obtain ⟨cls, n, hcls, hold, hnew, ha⟩ := ha
  exact ⟨cls, n, hcls, h.allocs_eq_none hold, hnew, ha.since h⟩

theorem allocNode_adds {e : Expr} (hcls : e.newClass? = some cls)
    (hJ : ∀ f' a, Onward f f' → CameWith c f site e f' a → J.holds f' a) :
    Does (Adds J) c f (allocNode cls site) fun n f' => f'.allocs[site.label]? = some n := by
  have hcame : ∀ n f₁, Onward f f₁ → f.allocs[site.label]? = none → f₁.allocs[site.label]? = some n →
      ∀ f' a, Onward f₁ f' → AllocationFlow c f₁ cls n f' a → J.holds f' a := by
    intro n f₁ h₁ hold hnew f' a h' ha
    exact hJ f' a (h₁.trans h') ⟨cls, n, hcls, hold, h'.allocs _ _ hnew, ha.since h₁⟩
  unfold allocNode
  refine .read rfl ?_
  split
  · rename_i hdialog
    exact allocOnce_adds fun n f₁ h₁ hold hnew => dialogLifecycle_adds hdialog (hcame n f₁ h₁ hold hnew)
  split
  · rename_i hview
    exact allocOnce_adds fun n f₁ h₁ hold hnew => (viewContextMenu_adds hview (hcame n f₁ h₁ hold hnew)).discard.any
  refine .read rfl ?_
  split <;> exact allocOnce_adds fun _ _ _ _ _ => .pure trivial

/-! ## What a statement assigns -/

/-- The node of what a statement assigns, if there is one. -/
def exprNode? (r : Resources) (f : Flowgraph) (site : Site) : Expr → Option NodeId
  | .value v | .cast v _ => f.nodeOf? r v
  | .new _ | .newArray _ => f.allocs[site.label]?
  | .instanceField _ field | .staticField field => f.graph.find? (· = .pointer (.field field))
  | .arrayRead _ _ | .call _ | .this | .parameter _ | .caughtException | .other => none

/-- New objects and fields have nodes, and values that have one. -/
def exprHasNode (r : Resources) : Expr → Bool
  | .value v | .cast v _ => hasNode r v
  | .new _ | .newArray _ | .instanceField _ _ | .staticField _ => true
  | .arrayRead _ _ | .call _ | .this | .parameter _ | .caughtException | .other => false

theorem exprNode?_lasts {r : Resources} {e : Expr} (h : Onward f f') (hn : exprNode? r f site e = some n) :
    exprNode? r f' site e = some n := by
  cases e with
  | value | cast => exact nodeOf?_mono h.graph hn
  | new | newArray => exact h.allocs _ _ hn
  | instanceField _ field | staticField field =>
    have hfield : f.graph.find? (· = .pointer (.field field)) = some n := hn
    refine h.graph.find? (fun k k' hk => ?_) hfield
    cases hk <;> simp
  | arrayRead | call | this | parameter | caughtException | other => cases hn

theorem fieldNode_adds {field : Field} :
    Does (Adds J) c f (fieldNode field) fun n f' => f'.graph.find? (· = .pointer (.field field)) = some n := by
  have hd : Does (Edits Plain) c f (fieldNode field) (Interned (· = .pointer (.field field)) f) :=
    intern_does plain_pointer rfl fun _ hk => decide_eq_true (NodeKind.key?_eq_pointer.mp hk)
  exact (adds_of_edits hd fun _ _ h => h.flow).imp fun _ _ _ h => h.first

theorem exprNode_adds {e : Expr} (hJ : ∀ f' a, Onward f f' → CameWith c f site e f' a → J.holds f' a) :
    Does (Adds J) c f (exprNode e site) fun o f' =>
      o = exprNode? c.project.resources f' site e ∧ (exprHasNode c.project.resources e = true → o ≠ none) := by
  have hvalue : ∀ v, Does (Adds J) c f (valueNode v) fun o f' =>
      o = f'.nodeOf? c.project.resources v ∧ (hasNode c.project.resources v = true → o ≠ none) := fun v =>
    (adds_of_edits valueNode_does fun _ _ h => h.flow).imp fun _ _ _ h => ⟨h.eq, h.found⟩
  cases e with
  | value v | cast v _ => exact hvalue v
  | new cls => exact .map ((allocNode_adds rfl hJ).imp fun n f' _ hn => ⟨hn.symm, by simp⟩)
  | newArray element =>
    refine .bind (allocNode_adds rfl hJ) fun n f₁ h₁ hn => ?_
    have hnode : ∀ f' : Flowgraph, f'.allocs = f₁.allocs → some n = f'.allocs[site.label]? := by
      intro f' h'
      rw [h', hn]
    dsimp only
    split
    · exact .of_run rfl (.of_flow { Onward.refl f₁ with } rfl) ⟨hnode _ rfl, by simp⟩
    · exact .pure ⟨hnode f₁ rfl, by simp⟩
  | instanceField _ field | staticField field => exact .map (fieldNode_adds.imp fun n f' _ hn => ⟨hn.symm, by simp⟩)
  | arrayRead | call | this | parameter | caughtException | other => exact .pure ⟨rfl, by simp [exprHasNode]⟩

/-! ## Writes and reads -/

/-- An array reaches the local whose element a statement writes or reads. -/
def Touches (f : Flowgraph) (array : NodeId) (site : Site) : Prop :=
  ∃ l n, site.array? = some l ∧ n ∈ f.graph.forward array ∧ f.graph.pointer? n = some (.var l)

/-- The edge goes from what one statement assigns to the local that another one assigns to. -/
def Passes (r : Resources) (f : Flowgraph) (write read : Site) (a : Arc) : Prop :=
  ∃ e l, write.source? = some e ∧ read.target? = some l ∧ exprNode? r f write e = some a.src ∧ f.var? l = some a.dst

/-- The edge goes from a write to a read, and one array reaches the locals of both. -/
def ElementFlow (r : Resources) (f₀ f : Flowgraph) (a : Arc) : Prop :=
  ∃ array ∈ f₀.arrays, ∃ write ∈ f₀.sites .arrayWrite, ∃ read ∈ f₀.sites .arrayRead,
    f.Touches array write ∧ f.Touches array read ∧ f.Passes r write read a

variable {r : Resources} {array : NodeId} {write read : Site}

theorem Touches.lasts (h : Onward f f') (ht : f.Touches array site) : f'.Touches array site := by
  obtain ⟨l, n, hl, hn, hp⟩ := ht
  exact ⟨l, n, hl, h.graph.forward hn, h.graph.pointer? hp⟩

theorem Passes.lasts (h : Onward f f') (ha : f.Passes r write read a) : f'.Passes r write read a := by
  obtain ⟨e, l, he, hl, hsrc, hdst⟩ := ha
  exact ⟨e, l, he, hl, exprNode?_lasts h hsrc, var?_mono h.graph hdst⟩

theorem ElementFlow.lasts (h : Onward f f') (ha : ElementFlow r f₀ f a) : ElementFlow r f₀ f' a := by
  obtain ⟨array, harray, write, hwrite, read, hread, hw, hr, ha⟩ := ha
  exact ⟨array, harray, write, hwrite, read, hread, hw.lasts h, hr.lasts h, ha.lasts h⟩

theorem mem_sitesOn {role : Role} : site ∈ f.sitesOn role (localsOf f.graph array) ↔
    site ∈ f.sites role ∧ f.Touches array site := by
  simp only [sitesOn, localsOf, List.mem_flatMap, List.mem_filterMap, List.mem_filter, ExtTreeSet.mem_toList,
    decide_eq_true_eq, Touches]
  constructor
  · rintro ⟨l, ⟨n, hn, hl⟩, hsite, harray⟩
    split at hl
    · rename_i l' hp
      cases hl
      exact ⟨hsite, l, n, harray, hn, hp⟩
    · cases hl
  · rintro ⟨hsite, l, n, harray, hn, hp⟩
    exact ⟨l, ⟨n, hn, by rw [hp]⟩, hsite, harray⟩

/-- The reasons for flow that is added since `f₀`. -/
def arrayReason (c : Context) (f₀ : Flowgraph) : Reason where
  holds f a := ElementFlow c.project.resources f₀ f a ∨
    ∃ write ∈ f₀.sites .arrayWrite, ∃ e, write.source? = some e ∧ CameWith c f₀ write e f a
  lasts h ha := ha.imp (·.lasts h) fun ⟨write, hwrite, e, he, ha⟩ => ⟨write, hwrite, e, he, ha.lasts h⟩

/-- If a written value has a node and is read into a local, it flows there. -/
def Passed (r : Resources) (f : Flowgraph) (write read : Site) : Prop :=
  ∀ e l, write.source? = some e → exprHasNode r e = true → read.target? = some l →
    ∃ a ∈ f.graph.flow, f.Passes r write read a

theorem Passed.lasts (h : Onward f f') (hp : f.Passed r write read) : f'.Passed r write read := by
  intro e l he hnode hl
  obtain ⟨a, ha, hpass⟩ := hp e l he hnode hl
  exact ⟨a, h.graph.mem_flow ha, hpass.lasts h⟩

/-- A value flows into the local that a statement reads into. -/
theorem passRead_adds (hJ : ∀ f' l t, Onward f f' → read.target? = some l → f'.var? l = some t → J.holds f' ⟨x, t⟩) :
    Does (Adds J) c f (match read.instr.stmt with
      | .assign (.var target) _ => discard (flowTo x target (some read.label))
      | _ => return ()) fun _ f' => ∀ l, read.target? = some l → f'.FlowsInto x l := by
  split
  · rename_i target e hstmt
    have htarget : read.target? = some target := Site.target?_eq_some.mpr ⟨e, hstmt⟩
    refine (flowTo_adds fun f' t h' ht => hJ f' target t h' htarget ht).discard.imp fun _ f' _ hflow l hl => ?_
    cases htarget.symm.trans hl
    exact hflow.elim fun _ h => h
  · rename_i hother
    refine .pure fun l hl => ?_
    obtain ⟨e, hstmt⟩ := Site.target?_eq_some.mp hl
    exact absurd hstmt (hother l e)

theorem linkArray_adds (h₀ : Onward f₀ f) (harray : array ∈ f₀.arrays) :
    Does (Adds (arrayReason c f₀)) c f (linkArray array) fun _ f' =>
      ∀ write ∈ f.sitesOn .arrayWrite (localsOf f.graph array),
        ∀ read ∈ f.sitesOn .arrayRead (localsOf f.graph array), f'.Passed c.project.resources write read := by
  unfold linkArray
  refine .read rfl (.forM (fun w _ t u h hp r hr => (hp r hr).lasts h.onward) fun w hw f₁ h₁ => ?_)
  rw [mem_sitesOn, h₀.sites] at hw
  split
  · rename_i lhs rhs hstmt
    have hsource : w.source? = some rhs := Site.source?_eq_some.mpr ⟨lhs, hstmt⟩
    refine .bind (exprNode_adds fun f' a h' ha => ?_) fun o f₂ h₂ ho => ?_
    · exact .inr ⟨w, hw.1, rhs, hsource, ha.since (h₀.trans h₁.onward)⟩
    obtain ⟨hnode, hfound⟩ := ho
    cases o with
    | none =>
      refine .pure fun r _ e l he hhas _ => ?_
      cases hsource.symm.trans he
      exact absurd rfl (hfound hhas)
    | some x =>
      refine .forM (fun r _ t u h hp => hp.lasts h.onward) fun r hr f₃ h₃ => ?_
      rw [mem_sitesOn, h₀.sites] at hr
      have hpass : ∀ {f' l t}, Onward f₃ f' → r.target? = some l → f'.var? l = some t →
          f'.Passes c.project.resources w r ⟨x, t⟩ := fun h' hl ht =>
        ⟨rhs, _, hsource, hl, exprNode?_lasts (h₃.onward.trans h') hnode.symm, ht⟩
      refine (passRead_adds fun f' l t h' hl ht => ?_).imp fun _ f₄ h₄ hflow e l _ _ hl => ?_
      · -- the array reaches both locals from the start of its turn on
        have hon := ((h₁.onward.trans h₂.onward).trans h₃.onward).trans h'
        exact .inl ⟨array, harray, w, hw.1, r, hr.1, hw.2.lasts hon, hr.2.lasts hon, hpass h' hl ht⟩
      · obtain ⟨t, ht, ha⟩ := hflow l hl
        exact ⟨⟨x, t⟩, ha, hpass h₄.onward hl ht⟩
  · rename_i hother
    refine .pure fun r _ e l he _ _ => ?_
    obtain ⟨lhs, hstmt⟩ := Site.source?_eq_some.mp he
    exact absurd hstmt (hother lhs e)

theorem linkArrays_adds : Does (Adds (arrayReason c f)) c f linkArrays fun _ f' =>
    ∀ array ∈ f.arrays.toList, ∀ write ∈ f.sites .arrayWrite, ∀ read ∈ f.sites .arrayRead,
      f.Touches array write → f.Touches array read → f'.Passed c.project.resources write read := by
  unfold linkArrays
  refine .read rfl (.forM (fun array _ t u h hp w hw r hr htw htr => (hp w hw r hr htw htr).lasts h.onward)
    fun array harray f₁ h₁ => ?_)
  refine (linkArray_adds h₁.onward (ExtTreeSet.mem_toList.mp harray)).imp fun _ f₂ _ hall w hw r hr htw htr => ?_
  rw [← h₁.onward.sites] at hw hr
  exact hall w (mem_sitesOn.mpr ⟨hw, htw.lasts h₁.onward⟩) r (mem_sitesOn.mpr ⟨hr, htr.lasts h₁.onward⟩)

end Flowgraph

/-! ## An array inside another one -/

namespace Example.Nested

def outer : Local := ⟨"outer", ⟨.ref "java.lang.Object", 1⟩⟩

def inner : Local := ⟨"inner", ⟨.ref "android.view.View", 1⟩⟩

/-- The inner array, as an element of the outer one. -/
def element : Local := ⟨"element", inner.ty⟩

def button : Local := ⟨"button", .ref "android.widget.Button"⟩

def picked : Local := ⟨"picked", .ref "android.view.View"⟩

def siteOf (index : Nat) (lhs : Place) (rhs : Expr) : Site :=
  ⟨methodOf "fill" [] ⟨.void, 0⟩ [], .ofStmt "fill" index, .assign lhs rhs⟩

def writeOuter : Site := siteOf 0 (.arrayWrite outer (.int 0)) (.value (.var inner))

def readOuter : Site := siteOf 1 (.var element) (.arrayRead outer (.int 0))

def writeInner : Site := siteOf 2 (.arrayWrite inner (.int 0)) (.value (.var button))

def readElement : Site := siteOf 3 (.var picked) (.arrayRead element (.int 0))

def graph : Graph :=
  let kinds : List NodeKind := [.object (.alloc "java.lang.Object[]" (.ofStmt "fill" 4)),
    .object (.alloc "android.view.View[]" (.ofStmt "fill" 5)), .pointer (.var outer), .pointer (.var inner)]
  ((kinds.foldl Graph.push {}).connect 0 2 none).connect 1 3 none

/-- The inner array is written into the outer one. A view is written into the inner array, and read from what was read
from the outer one. -/
def flowgraph : Flowgraph where
  graph := graph
  arrays := {0, 1}
  deferred := [⟨.arrayWrite, writeOuter⟩, ⟨.arrayRead, readOuter⟩, ⟨.arrayWrite, writeInner⟩, ⟨.arrayRead, readElement⟩]

end Example.Nested

namespace Flowgraph

/-- **Elements of arrays flow from writes to reads, and nothing else is added.** If an array reaches the locals of a
write and of a read before the step, an edge goes from what is written, if it has a node, to the local that is read
into. Each new edge goes from a write to a read whose locals one array reaches after the step, or it came with a new
object that is written. -/
theorem linkArrays_exact {c : Context} {f f' : Flowgraph} (h : (linkArrays c f).2 = f') :
    (∀ array ∈ f.arrays, ∀ write ∈ f.sites .arrayWrite, ∀ read ∈ f.sites .arrayRead,
      f.Touches array write → f.Touches array read → ∀ e l, write.source? = some e →
      exprHasNode c.project.resources e = true → read.target? = some l →
      ∃ a ∈ f'.graph.flow, f'.Passes c.project.resources write read a) ∧
    ∀ a ∈ f'.graph.flow, a ∉ f.graph.flow →
      (∃ array ∈ f.arrays, ∃ write ∈ f.sites .arrayWrite, ∃ read ∈ f.sites .arrayRead,
        f'.Touches array write ∧ f'.Touches array read ∧ f'.Passes c.project.resources write read a) ∨
      ∃ write ∈ f.sites .arrayWrite, ∃ e, write.source? = some e ∧ CameWith c f write e f' a := by
  subst h
  have hd : Does (Adds (arrayReason c f)) c f linkArrays _ := linkArrays_adds
  refine ⟨fun array harray write hwrite read hread hw hr => ?_, fun a ha hnew => ?_⟩
  · exact hd.post array (ExtTreeSet.mem_toList.mpr harray) write hwrite read hread hw hr
  · exact (hd.moves.flow a ha).resolve_left hnew

open Example Example.Nested in
/-- The inner array is read from the outer one, and after that the view is read from it. -/
theorem picked_from_nested : ∃ f', (linkArrays (application [] {}) flowgraph).2 = f' ∧
    flowgraph.Touches 0 writeOuter ∧ flowgraph.Touches 0 readOuter ∧
    (∃ a ∈ f'.graph.flow, f'.Passes {} writeOuter readOuter a) ∧
    f'.var? button = some 5 ∧ f'.var? picked = some 6 ∧ Arc.mk 5 6 ∈ f'.graph.flow ∧ Arc.mk 5 6 ∉ flowgraph.graph.flow ∧
    ElementFlow {} flowgraph f' ⟨5, 6⟩ := by
  have hwrite : flowgraph.Touches 0 writeOuter := ⟨outer, 2, rfl, by decide +kernel, by decide +kernel⟩
  have hread : flowgraph.Touches 0 readOuter := ⟨outer, 2, rfl, by decide +kernel, by decide +kernel⟩
  have hold : Arc.mk 5 6 ∉ flowgraph.graph.flow := by decide +kernel
  have hnew : Arc.mk 5 6 ∈ (linkArrays (application [] {}) flowgraph).2.graph.flow := by decide +kernel
  obtain ⟨hcomplete, hreasons⟩ := linkArrays_exact (c := application [] {}) (f := flowgraph) rfl
  refine ⟨_, rfl, hwrite, hread, ?_, by decide +kernel, by decide +kernel, hnew, hold, ?_⟩
  · exact hcomplete 0 (by decide +kernel) writeOuter (by decide +kernel) readOuter (by decide +kernel) hwrite hread
      (.value (.var inner)) element rfl rfl rfl
  · refine (hreasons _ hnew hold).resolve_right fun ⟨write, hsite, e, he, cls, _, hcls, _⟩ => ?_
    have hnone : ∀ w ∈ flowgraph.sites .arrayWrite, w.source?.bind Expr.newClass? = none := by decide +kernel
    have hbind := hnone write hsite
    rw [he, Option.bind_some, hcls] at hbind
    cases hbind

end Flowgraph

end WidgetFlow
