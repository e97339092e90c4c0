import WidgetFlow.Proofs.Additions

/-!
# Building a flowgraph

Every function of the construction is followed once. It is a sequence of the changes that the construction can make
(`Flowgraph.Additions`), and the nodes that it hands on are of a kind that can be the operand they become. Hence
`build_valid`.
-/

namespace WidgetFlow

open Std Relation

/-- A kind of node that stays the same as the graph grows. -/
def Graph.Stays (P : Graph → NodeId → Prop) : Prop := ∀ g g' n, g.Extends g' → P g n → P g' n

theorem Graph.isVar_stays : Stays IsVar := fun _ _ _ h => h.isVar

theorem Graph.isArg_stays : Stays IsArg := fun _ _ _ h => h.isArg

namespace Flowgraph

variable {α β : Type} {c : Context} {f f' : Flowgraph} {n x y : NodeId}

/-- An edit of a well formed flowgraph that ends with `Q`. -/
structure Makes (c : Context) (f : Flowgraph) (x : Edit α) (Q : α → Flowgraph → Prop) : Prop where
  run : f.Valid → Does (Additions c) c f x Q

/-- An edit of a well formed flowgraph that a violation can end. -/
structure Builds (c : Context) (f : Flowgraph) (x : Build α) (Q : α → Flowgraph → Prop) : Prop where
  run : f.Valid → Tries (Additions c) (Additions c) c f x Q

/-! ## Rules -/

namespace Makes

variable {x : Edit α} {Q Q' : α → Flowgraph → Prop} {P : β → Flowgraph → Prop}

theorem imp (h : Makes c f x Q) (hQ : ∀ a f', Q a f' → Q' a f') : Makes c f x Q' :=
  ⟨fun hf => (h.run hf).imp fun a t _ => hQ a t⟩

theorem any (h : Makes c f x Q) : Makes c f x fun _ _ => True := h.imp fun _ _ _ => trivial

theorem pure {a : α} (h : Q a f) : Makes c f (Pure.pure a) Q := ⟨fun _ => .pure h⟩

theorem read {k : α → Edit β} {a : α} (hx : x c f = (a, f)) (h : Makes c f (k a) P) : Makes c f (x >>= k) P :=
  ⟨fun hf => .read hx (h.run hf)⟩

theorem bind {k : α → Edit β} (hx : Makes c f x Q)
    (hk : ∀ a f', f.graph.Extends f'.graph → Q a f' → Makes c f' (k a) P) : Makes c f (x >>= k) P :=
  ⟨fun hf => .bind (hx.run hf) fun a f' h hq => (hk a f' h.graph hq).run (h.valid hf)⟩

/-- What follows keeps what was reached. -/
theorem keep {k : α → Edit β} {S : Flowgraph → Prop} (hx : Makes c f x fun _ f' => S f')
    (hS : ∀ f f', Additions c f f' → S f → S f')
    (hk : ∀ a f', f.graph.Extends f'.graph → Makes c f' (k a) fun _ _ => True) : Makes c f (x >>= k) fun _ f' => S f' :=
  ⟨fun hf => .bind (hx.run hf) fun a f₁ h hs =>
    ((hk a f₁ h.graph).run (h.valid hf)).imp fun _ f' h' _ => hS f₁ f' h' hs⟩

theorem map {g : α → β} (h : Makes c f x fun a f' => P (g a) f') : Makes c f (g <$> x) P := ⟨fun hf => .map (h.run hf)⟩

theorem discard (h : Makes c f x Q) : Makes c f (discard x) fun _ _ => True := ⟨fun hf => (h.run hf).discard.any⟩

theorem each {g : α → Edit PUnit} {l : List α}
    (h : ∀ a ∈ l, ∀ f', f.graph.Extends f'.graph → Makes c f' (g a) fun _ _ => True) :
    Makes c f (l.forM g) fun _ _ => True :=
  ⟨fun hf => .each fun a ha f' h' => (h a ha f' h'.graph).run (h'.valid hf)⟩

theorem foldlM {I : β → Flowgraph → Prop} {g : β → α → Edit β} {l : List α} {b : β} (hb : I b f)
    (h : ∀ b, ∀ a ∈ l, ∀ f', f.graph.Extends f'.graph → I b f' → Makes c f' (g b a) I) :
    Makes c f (l.foldlM g b) I :=
  ⟨fun hf => .foldlM hb fun b a ha f' h' hb' => (h b a ha f' h'.graph hb').run (h'.valid hf)⟩

theorem mapM {g : α → Edit β} {l : List α} (hP : ∀ b f f', f.graph.Extends f'.graph → P b f → P b f')
    (h : ∀ a ∈ l, ∀ f', f.graph.Extends f'.graph → Makes c f' (g a) P) :
    Makes c f (l.mapM g) fun bs f' => ∀ b ∈ bs, P b f' :=
  ⟨fun hf => .mapM (fun b _ _ h' => hP b _ _ h'.graph) fun a ha f' h' => (h a ha f' h'.graph).run (h'.valid hf)⟩

end Makes

namespace Builds

variable {x : Build α} {Q Q' : α → Flowgraph → Prop} {P : β → Flowgraph → Prop}

theorem pure {a : α} (h : Q a f) : Builds c f (Pure.pure a) Q := ⟨fun _ => .pure h⟩

theorem read {k : α → Build β} {a : α} (hx : x c f = (.ok a, f)) (h : Builds c f (k a) P) : Builds c f (x >>= k) P :=
  ⟨fun hf => .read hx (h.run hf)⟩

theorem bind {k : α → Build β} (hx : Builds c f x Q)
    (hk : ∀ a f', f.graph.Extends f'.graph → Q a f' → Builds c f' (k a) P) : Builds c f (x >>= k) P :=
  ⟨fun hf => .bind (hx.run hf) fun a f' h hq => (hk a f' h.graph hq).run (h.valid hf)⟩

theorem ite {p : Prop} [Decidable p] {y : Build α} (hx : Builds c f x Q) (hy : Builds c f y Q) :
    Builds c f (if p then x else y) Q := by
  split
  · exact hx
  · exact hy

theorem lift {x : Edit α} (h : Makes c f x Q) : Builds c f (liftM x) Q := ⟨fun hf => .lift (h.run hf)⟩

theorem liftBind {x : Edit α} {k : α → Build β} (hx : Makes c f x Q)
    (hk : ∀ a f', f.graph.Extends f'.graph → Q a f' → Builds c f' (k a) P) :
    Builds c f ((liftM x : Build α) >>= k) P :=
  .bind (.lift hx) hk

theorem each {g : α → Build PUnit} {l : List α}
    (h : ∀ a ∈ l, ∀ f', f.graph.Extends f'.graph → Builds c f' (g a) fun _ _ => True) :
    Builds c f (l.forM g) fun _ _ => True :=
  ⟨fun hf => .each fun a ha f' h' => (h a ha f' h'.graph).run (h'.valid hf)⟩

end Builds

/-! ## Single changes -/

/-- An action that makes one change. -/
theorem Makes.one {x : Edit Unit} (h : Addition c f (x c f).2) : Makes c f x fun _ f' => f' = (x c f).2 :=
  ⟨fun _ => ⟨.single h, rfl⟩⟩

theorem remark_makes {r : Remark} {l : Option Label} : Makes c f (remark r l) fun _ _ => True :=
  (Makes.one (.edit (.log _))).any

theorem defer_makes {r : Role} {s : Site} : Makes c f (defer r s) fun _ _ => True := (Makes.one (.deferred _)).any

/-- A record that is added to. -/
theorem updateDialog_records {g : DialogRecord → DialogRecord} (hn : f.graph.IsValue n)
    (hshows : ∀ r, ∀ l ∈ r.shows, l ∈ (g r).shows) (hdismisses : ∀ r, ∀ l ∈ r.dismisses, l ∈ (g r).dismisses) :
    Makes c f (updateDialog n g) fun _ f' => f'.recordOf n = g (f.recordOf n) := by
  refine (Makes.one (.dialog hn.1 hshows hdismisses)).imp fun _ f' hf' => ?_
  rw [hf']
  exact recordOf_alter.trans (if_pos rfl)

theorem updateDialog_makes {g : DialogRecord → DialogRecord} (hn : f.graph.IsValue n)
    (hshows : ∀ r, ∀ l ∈ r.shows, l ∈ (g r).shows) (hdismisses : ∀ r, ∀ l ∈ r.dismisses, l ∈ (g r).dismisses) :
    Makes c f (updateDialog n g) fun _ _ => True :=
  (updateDialog_records hn hshows hdismisses).any

theorem bindHandlers_makes {signatures : List String} (hn : n < f.graph.size) :
    Makes c f (bindHandlers n signatures) fun _ _ => True :=
  (Makes.one (.edit (.handlers hn))).any

theorem report_builds {v : Violation} {l : Option Label} : Builds c f (report v l) fun _ _ => True := by
  unfold report
  refine .read rfl ?_
  split
  · exact ⟨fun _ => .of_error rfl .refl .refl⟩
  · exact .lift (Makes.one (.edit (.log _))).any

theorem addNode_makes {k : NodeKind} (hp : Plain k) (ho : k.op? = none) (hk : k.key? = none) :
    Makes c f (addNode k) fun n f' => f'.graph.IsValue n :=
  ⟨fun _ => .of_run rfl (.single (.object hp ho hk)) (Graph.isValue_push ho)⟩

theorem addEdge_makes {l : Option Label} (hx : f.graph.IsValue x) (hy : f.graph.IsPointer y) :
    Makes c f (addEdge x y l) fun _ _ => True :=
  ⟨fun _ => (addEdge_does hx hy).mono (fun _ h => Edits.additions h) fun _ _ _ _ => trivial⟩

theorem updateNode_makes {g : Node → Node} (hg : ∀ a : Node, a.kind.Alike (g a).kind)
    (hb : ∀ a : Node, a.Bounded f.graph.size → (g a).Bounded f.graph.size)
    (hbare : ∀ a : Node, (g a).texts = a.texts ∧ (g a).drawables = a.drawables) :
    Makes c f (updateNode n g) fun _ _ => True :=
  (Makes.one (.modify hg hb hbare)).any

theorem notCancelable_alike (a : Node) : a.kind.Alike (notCancelable a).kind := by
  unfold notCancelable
  split
  · rename_i h
    rw [h]
    exact .cancelable
  · exact .refl _

/-! ## Operations -/

/-- The node that an edit hands on, if it hands one on, is of a kind. -/
def SomeIn (P : Graph → NodeId → Prop) (o : Option NodeId) (f : Flowgraph) : Prop := ∀ n, o = some n → P f.graph n

/-- The nodes that an edit hands on are of a kind. -/
def AllIn (P : Graph → NodeId → Prop) (ns : List NodeId) (f : Flowgraph) : Prop := ∀ n ∈ ns, P f.graph n

section

variable {P Q : Graph → NodeId → Prop}

theorem SomeIn.none : SomeIn P none f := nofun

theorem SomeIn.some (h : P f.graph n) : SomeIn P (some n) f := fun _ hn => Option.some.inj hn ▸ h

theorem SomeIn.imp {o : Option NodeId} (hPQ : ∀ {g n}, P g n → Q g n) (h : SomeIn P o f) : SomeIn Q o f := fun n hn =>
  hPQ (h n hn)

theorem AllIn.mono {ns : List NodeId} (hP : Graph.Stays P) (hg : f.graph.Extends f'.graph) (h : AllIn P ns f) :
    AllIn P ns f' :=
  fun n hn => hP _ _ n hg (h n hn)

theorem Makes.filterMapM {g : α → Edit (Option NodeId)} {l : List α} (hP : Graph.Stays P)
    (h : ∀ a ∈ l, ∀ f', f.graph.Extends f'.graph → Makes c f' (g a) (SomeIn P)) :
    Makes c f (l.filterMapM g) (AllIn P) :=
  ⟨fun hf => .filterMapM (P := fun n f => P f.graph n) (fun _ _ _ h' hn => hP _ _ _ h'.graph hn) fun a ha f' h' =>
    ((h a ha f' h'.graph).run (h'.valid hf)).imp fun _ _ _ ho n hn => ho n hn⟩

end

theorem addOp_makes {k : OpKind} {site : CallSite} {r p s : Option NodeId} (hr : SomeIn Graph.IsVar r f)
    (hp : SomeIn Graph.IsArg p f) (hs : SomeIn Graph.IsVar s f)
    (hk : (Op.mk k site (site.origin != .program) r p s).slots = k.tag.slots) (ht : (k.tag == .setListener) = false) :
    Makes c f (addOp k site r p s) fun _ _ => True :=
  ⟨fun _ => .of_run rfl (.single (.op ⟨hk, hr, hp, hs⟩ (ne_of_beq_false ht))) trivial⟩

/-- An action that registers a listener. The operation and all that is entered for it are one change. -/
theorem Builds.register {x : Build α} {a : α} {o : Op} {l : Listeners}
    (hx : x c f = (.ok a, { f with graph := f.graph.pushOp o, listeners := l })) (ho : f.graph.Suits o)
    (hk : o.kind.tag = .setListener) (hl : f.listeners.Registers c f.graph.size l) : Builds c f x fun _ _ => True :=
  ⟨fun _ => .of_ok hx (.single (.registration ho hk hl)) trivial⟩

/-- A listener that the framework registers. -/
theorem addSynthetic_makes {m : Bool} {site : CallSite} {event : EventKind} {signatures : List String}
    (hx : f.graph.IsVar x) (hy : f.graph.IsArg y) :
    Makes c f (addOp (.setListener m) site (some x) (some y) none >>= fun op => registerSynthetic op event signatures)
      fun _ _ => True := by
  have hsuits : f.graph.Suits ⟨.setListener m, site, site.origin != .program, some x, some y, none⟩ :=
    ⟨rfl, SomeIn.some hx, SomeIn.some hy, nofun⟩
  have hregisters : f.listeners.Registers c f.graph.size { f.listeners with
      modelled := f.listeners.modelled.insert f.graph.size, events := f.listeners.events.insert f.graph.size event } :=
    ⟨⟨event, rfl⟩, rfl, .inl rfl, .inr rfl, .inl (Container.mem_insert.mpr (.inl rfl)), rfl, fun t ht => .inl ht⟩
  refine ⟨fun _ => .of_run rfl (.head (.registration hsuits rfl hregisters) (.single (.edit (.handlers ?_)))) trivial⟩
  rw [Graph.size_pushOp]
  exact Nat.lt_succ_self _

/-! ## Registries -/

/-- A registry of nodes with one more entry. -/
theorem of_mem_insert {κ : Type} [Ord κ] [TransOrd κ] [LawfulEqOrd κ] {m : ExtTreeMap κ NodeId} {k : κ}
    {P : NodeId → Prop} (hm : ∀ (k : κ) n, m[k]? = some n → P n) (hx : P x) (k' : κ) (n : NodeId)
    (hn : (m.insert k x)[k']? = some n) : P n := by
  rw [ExtTreeMap.getElem?_insert] at hn
  split at hn
  · cases hn
    exact hx
  · exact hm k' n hn

/-- An action that enters a node in a registry. -/
theorem Makes.enter {x : Edit Unit} (h : Files f (x c f).2) : Makes c f x fun _ _ => True := (Makes.one (.entry h)).any

theorem insertAlloc_makes {l : Label} (hx : f.graph.IsValue x) :
    Makes c f (modify fun f => { f with allocs := f.allocs.insert l x }) fun _ _ => True :=
  .enter ⟨rfl, fun hf => { hf with filed := { hf.filed with }, allocs := of_mem_insert hf.allocs hx }, rfl, rfl, rfl,
    rfl, rfl⟩

theorem insertItemMenu_makes {m : String} (hx : f.graph.IsVar x) :
    Makes c f (modify fun f => { f with itemMenus := f.itemMenus.insert m x }) fun _ _ => True :=
  .enter ⟨rfl, fun hf => { hf with filed := { hf.filed with }, itemMenus := of_mem_insert hf.itemMenus hx }, rfl, rfl,
    rfl, rfl, rfl⟩

theorem insertOptionsMenu_makes {activity : String} (hx : f.graph.IsValue x) :
    Makes c f (modify fun f => { f with optionsMenus := f.optionsMenus.insert activity x }) fun _ _ => True :=
  .enter ⟨rfl, fun hf =>
      { hf with filed := { hf.filed with optionsMenus := of_mem_insert hf.filed.optionsMenus hx.1 } },
    rfl, rfl, rfl, rfl, rfl⟩

theorem insertArray_makes (hx : f.graph.IsValue x) :
    Makes c f (modify fun f => { f with arrays := f.arrays.insert x }) fun _ _ => True := by
  refine .enter
    ⟨rfl, fun hf => { hf with filed := { hf.filed with arrays := fun n hn => ?_ } }, rfl, rfl, rfl, rfl, rfl⟩
  exact (Container.mem_insert.mp hn).elim (fun hn => hn ▸ hx.1) (hf.filed.arrays n)

theorem insertFilledDialog_makes (hx : f.graph.IsValue x) :
    Makes c f (modify fun f => { f with filledDialogs := f.filledDialogs.insert x }) fun _ _ => True := by
  refine .enter ⟨rfl, fun hf => { hf with filed := { hf.filed with filledDialogs := fun n hn => ?_ } }, rfl, rfl, rfl,
    rfl, rfl⟩
  exact (Container.mem_insert.mp hn).elim (fun hn => hn ▸ hx.1) (hf.filed.filledDialogs n)

theorem insertDialogVar_makes {d : NodeId} (hd : f.graph.IsValue d) (hx : f.graph.IsVar x) :
    Makes c f (modify fun f => { f with dialogVars := f.dialogVars.insert d x }) fun _ _ => True := by
  refine .enter ⟨rfl, fun hf => ?_, rfl, rfl, rfl, rfl, rfl⟩
  refine { hf with
    filed := { hf.filed with dialogVars := fun e he => ?_ }, dialogVars := of_mem_insert hf.dialogVars hx }
  exact (Container.key_mem_insert.mp he).elim (fun he => he ▸ hd.1) (hf.filed.dialogVars e)

theorem insertItemLayouts_makes {a : NodeId} {ns : List NodeId} (ha : f.graph.IsValue a) (hn : AllIn Graph.IsArg ns f) :
    Makes c f (modify fun f => { f with
      itemLayouts := f.itemLayouts.alter a fun s => some ((s.getD ∅).insertMany ns) }) fun _ _ => True := by
  refine .enter ⟨rfl, fun hf => ?_, rfl, rfl, rfl, rfl, rfl⟩
  refine { hf with
    filed := { hf.filed with itemLayouts := fun b hb => ?_ }, itemLayouts := fun b n h => ?_ }
  · exact (Container.key_mem_alter.mp hb).elim (fun hb => hb ▸ ha.1) (hf.filed.itemLayouts b)
  · rcases Container.mem_getD_alter_insertMany.mp h with ⟨-, h⟩ | h
    · exact hn n h
    · exact hf.itemLayouts b n h

/-! ## Nodes and flow -/

theorem Makes.of_edits {x : Edit α} {Q : α → Flowgraph → Prop}
    (h : f.Valid → Does (Edits Plain) c f x Q) : Makes c f x Q :=
  ⟨fun hf => (h hf).mono (fun _ h => h.additions) fun _ _ _ h => h⟩

theorem formals (m : Method) : Formals Plain m := ⟨fun _ _ => plain_pointer, fun _ _ _ => plain_pointer⟩

theorem intern_makes {k : NodeKind} {P : Graph → NodeId → Prop} (hp : Plain k) (hk : k.isNamed = true)
    (heq : ∀ k', k'.key? = k.key? → k' = k) (hP : ∀ {g n a}, g.node? n = some a → a.kind = k → P g n) :
    Makes c f (intern (· = k) k) fun n f' => P f'.graph n := by
  refine .of_edits fun _ => (intern_does hp hk fun k' h => decide_eq_true (heq k' h)).imp fun n f' _ h => ?_
  obtain ⟨a, ha, hk⟩ := h.node_eq
  exact hP ha hk

theorem varNode_makes {l : Local} : Makes c f (varNode l) fun n f' => f'.graph.IsVar n :=
  intern_makes rfl rfl (fun _ => NodeKind.key?_eq_pointer.mp) Graph.isVar_of_node?

theorem fieldNode_makes {l : Field} : Makes c f (fieldNode l) fun n f' => f'.graph.IsPointer n :=
  intern_makes rfl rfl (fun _ => NodeKind.key?_eq_pointer.mp) Graph.isPointer_of_node?

theorem stringNode_makes {t : String} : Makes c f (stringNode t) fun n f' => f'.graph.IsArg n :=
  intern_makes rfl rfl (fun _ => NodeKind.key?_eq_string.mp) Graph.isArg_of_string

theorem activityNode_makes {cls : String} : Makes c f (activityNode cls) fun n f' => f'.graph.IsValue n :=
  intern_makes rfl rfl (fun _ => NodeKind.key?_eq_activity.mp) fun ha hk => Graph.isValue_of_node? ha (by rw [hk]; rfl)

theorem idNode_makes {space : IdSpace} {v : Int} : Makes c f (idNode space v) fun n f' => f'.graph.IsArg n :=
  .of_edits fun _ => (idNode_does plain_id).imp fun _ _ _ h => h.isArg_of_id

theorem freshVar_makes {cls : String} : Makes c f (freshVar cls) fun n f' => f'.graph.IsVar n := by
  unfold freshVar
  refine .read rfl ?_
  exact .bind (.enter ⟨rfl, fun hf => { hf with filed := { hf.filed with } }, rfl, rfl, rfl, rfl, rfl⟩)
    fun _ _ _ _ => varNode_makes

theorem knownIdNode_makes {v : Int} : Makes c f (knownIdNode v) (SomeIn Graph.IsArg) := by
  unfold knownIdNode
  refine .read rfl ?_
  split
  · exact .map (idNode_makes.imp fun _ _ => .some)
  · exact .pure .none

theorem systemLayoutNode_makes {name : String} : Makes c f (systemLayoutNode name) (SomeIn Graph.IsArg) := by
  unfold systemLayoutNode
  refine .read rfl ?_
  split
  · exact .map (idNode_makes.imp fun _ _ => .some)
  · exact .pure .none

theorem systemWidgetNode_makes {name : String} : Makes c f (systemWidgetNode name) (SomeIn Graph.IsArg) := by
  unfold systemWidgetNode
  refine .read rfl ?_
  split
  · exact .map (idNode_makes.imp fun _ _ => .some)
  · exact .pure .none

theorem widgetIdNode_makes {v : Int} : Makes c f (widgetIdNode v) fun n f' => f'.graph.IsArg n :=
  .read rfl idNode_makes

theorem createIdNodes_makes : Makes c f createIdNodes fun _ _ => True := by
  unfold createIdNodes
  refine .read rfl ?_
  exact .each fun space _ f₁ _ => .each fun v _ f₂ _ => idNode_makes.discard

theorem valueNode_makes {v : Value} : Makes c f (valueNode v) (SomeIn Graph.IsArg) := by
  cases v with
  | var l => exact .map (varNode_makes.imp fun _ _ h => .some h.isArg)
  | int n => exact knownIdNode_makes
  | str t => exact .map (stringNode_makes.imp fun _ _ => .some)
  | null => exact .pure .none
  | other ty => exact .pure .none

theorem valueNode?_makes {v : Option Value} : Makes c f (valueNode? v) (SomeIn Graph.IsArg) := by
  cases v with
  | some v => exact valueNode_makes
  | none => exact .pure .none

theorem flowTo_makes {l : Local} {lab : Option Label} (hx : f.graph.IsValue x) :
    Makes c f (flowTo x l lab) fun _ _ => True :=
  .of_edits fun hf => (flowTo_does plain_pointer hf hx).any

theorem flowToThis_makes {m : Method} (hx : f.graph.IsValue x) : Makes c f (flowToThis x m) fun _ _ => True :=
  .of_edits fun hf => (flowToThis_does (formals m) hf hx).any

theorem flowToParam_makes {m : Method} {i : Nat} {lab : Option Label} (hx : f.graph.IsValue x) :
    Makes c f (flowToParam x m i lab) fun _ _ => True :=
  .of_edits fun hf => (flowToParam_does (formals m) hf hx).any

theorem objectsReaching_makes {l : Local} :
    Makes c f (objectsReaching l) (AllIn Graph.IsValue) := by
  unfold objectsReaching
  refine .bind varNode_makes fun v f₁ h₁ hv => .read rfl (.pure fun n hn => ?_)
  obtain ⟨o, ho⟩ := Option.isSome_iff_exists.mp (List.mem_filter.mp hn).2
  exact Graph.isValue_of_object? ho

theorem objectsReaching?_makes {l : Option Local} :
    Makes c f (objectsReaching? l) (AllIn Graph.IsValue) := by
  cases l with
  | some l => exact objectsReaching_makes
  | none => exact .pure nofun

/-! ## Menus -/

theorem contextMenu_makes {handler : String} {p v : NodeId} {l : Local} (hp : f.var? l = some p)
    (hv : f.graph.IsValue v) : Makes c f (contextMenu handler p v) fun _ _ => True :=
  .of_edits fun hf => contextMenu_does (l := l) plain_pointer hf hp hv.1

theorem viewContextMenu_makes {cls : String} (hx : f.graph.IsValue x) :
    Makes c f (viewContextMenu x cls) fun _ _ => True :=
  .of_edits fun hf => (viewContextMenu_does (fun m _ => formals m) hf hx).any

theorem itemSelection_makes {menu : Option NodeId} {menuClass activity creation receiver : String} {i : Nat}
    (hm : SomeIn Graph.IsValue menu f) :
    Makes c f (itemSelection menu menuClass activity creation receiver i) fun _ _ => True := by
  unfold itemSelection
  refine .read rfl ?_
  split
  · split
    · extract_lets signature select
      have hselect : ∀ v f₁, SomeIn Graph.IsVar v f₁ → Makes c f₁ (select v) fun _ _ => True := by
        intro v f₁ hv
        dsimp only [select]
        split
        · refine .bind freshVar_makes fun item f₂ h₂ hitem => ?_
          refine .bind (addOp_makes (.some (h₂.isVar (hv _ rfl))) .none (.some hitem) rfl rfl).discard fun _ f₃ h₃ _ => ?_
          exact (flowTo_makes (h₃.isVar hitem).isValue).discard
        · exact .pure trivial
      refine .bind (.enter ⟨rfl, fun hf => { hf with filed := { hf.filed with } }, rfl, rfl, rfl, rfl, rfl⟩)
        fun _ f₁ h₁ _ => ?_
      split
      · refine .bind freshVar_makes fun v f₂ h₂ hv => ?_
        refine .bind (addEdge_makes (h₂.isValue (h₁.isValue (hm _ rfl))) hv.isPointer).discard fun _ f₃ h₃ _ => ?_
        exact .read rfl (hselect _ f₃ (.some (h₃.isVar hv)))
      · refine .read rfl ?_
        split
        · exact .read rfl (hselect none f₁ .none)
        · refine .bind freshVar_makes fun v f₂ h₂ hv => ?_
          refine .bind (insertItemMenu_makes hv) fun _ f₃ h₃ _ => ?_
          exact .read rfl (hselect _ f₃ (.some (h₃.isVar hv)))
    · exact .pure trivial
  · exact .pure trivial

theorem optionsMenu_makes {activity : String} : Makes c f (optionsMenu activity) fun _ _ => True := by
  unfold optionsMenu
  refine .read rfl ?_
  refine .bind (addNode_makes rfl rfl rfl) fun menu f₁ h₁ hmenu => ?_
  refine .bind (insertOptionsMenu_makes hmenu) fun _ f₂ h₂ _ => ?_
  refine .bind (.each fun sub _ f₃ h₃ => ?_) fun _ f₃ h₃ _ => ?_
  · split
    · exact flowToParam_makes (h₃.isValue (h₂.isValue hmenu))
    · exact .pure trivial
  · extract_lets creation
    have hmenu₃ := h₃.isValue (h₂.isValue hmenu)
    exact .bind (itemSelection_makes (.some hmenu₃)) fun _ f₄ h₄ _ => itemSelection_makes (.some (h₄.isValue hmenu₃))

theorem contextItemSelection_makes {activity : String} :
    Makes c f (contextItemSelection activity) fun _ _ => True := by
  unfold contextItemSelection
  refine .read rfl ?_
  split
  · exact .bind (itemSelection_makes .none) fun _ f₁ h₁ _ => itemSelection_makes .none
  · exact .pure trivial

/-! ## Listeners -/

/-- A report, after which the call is of no use. -/
theorem unusable_builds {v : Violation} {l : Option Label} :
    Builds c f (report v l >>= fun _ => pure Recognition.unusable) fun _ _ => True :=
  .bind report_builds fun _ _ _ _ => .pure trivial

/-- The settings know the method of a registration, or it is `registerForContextMenu`. -/
def KnownMethod (c : Context) (call : Call) : Option (Nat × ListenerSpec) → Prop
  | some (i, spec) => c.settings.listeners[i]? = some spec
  | none => (call.target.subSignature == Framework.registerForContextMenu) = true

theorem registerListener_builds {site : Site} {call : Call} {view listener : Local} {spec : Option (Nat × ListenerSpec)}
    (hspec : KnownMethod c call spec) :
    Builds c f (registerListener site call view listener spec) fun _ _ => True := by
  unfold registerListener
  refine .read rfl (.read rfl ?_)
  extract_lets settings onMenu
  split
  · exact unusable_builds
  split
  · exact unusable_builds
  refine .liftBind varNode_makes fun v f₁ h₁ hv => ?_
  refine .liftBind varNode_makes fun w f₂ h₂ hw => ?_
  have hsuits : f₂.graph.Suits ⟨.setListener onMenu, site.callSite, site.callSite.origin != .program, v, w, none⟩ :=
    ⟨rfl, SomeIn.some (h₂.isVar hv), SomeIn.some hw.isArg, nofun⟩
  have hself : ∀ l : NodeSet, f₂.graph.size ∈ l.insert f₂.graph.size := fun l => Container.mem_insert.mpr (.inl rfl)
  cases spec with
  | some s =>
    obtain ⟨i, s⟩ := s
    have hi : i < c.settings.listeners.length := (List.getElem?_eq_some_iff.mp hspec).1
    cases honMenu : onMenu with
    | true =>
      rw [honMenu] at hsuits
      refine .register rfl hsuits rfl ?_
      refine ⟨⟨_, rfl⟩, rfl, .inr ⟨i, s, hspec, rfl⟩, .inr rfl, .inl (hself _), rfl, fun t ht => ?_⟩
      refine (List.mem_append.mp ht).imp_right fun ht => ?_
      rw [List.mem_singleton.mp ht]
      exact ⟨rfl, fun j hj => Option.some.inj hj ▸ hi⟩
    | false =>
      rw [honMenu] at hsuits
      refine .register rfl hsuits rfl ?_
      exact ⟨⟨_, rfl⟩, rfl, .inr ⟨i, s, hspec, rfl⟩, .inl rfl, .inr (Container.key_mem_insert.mpr (.inl rfl)), rfl,
        fun t ht => .inl ht⟩
  | none =>
    have honMenu : onMenu = true := Bool.or_eq_true_iff.mpr (.inr hspec)
    rw [honMenu] at hsuits ⊢
    refine .register rfl hsuits rfl ?_
    refine ⟨⟨_, rfl⟩, rfl, .inl rfl, .inr rfl, .inl (hself _), rfl, fun t ht => ?_⟩
    refine (List.mem_append.mp ht).imp_right fun ht => ?_
    rw [List.mem_singleton.mp ht]
    exact ⟨rfl, nofun⟩

theorem recognizeListener_builds {site : Site} {call : Call} :
    Builds c f (recognizeListener site call) fun _ _ => True := by
  unfold recognizeListener
  split
  · refine .read rfl (.read rfl ?_)
    dsimp only
    split
    · rename_i index spec hfound
      obtain ⟨i, -, hfound⟩ := Option.bind_eq_some_iff.mp hfound
      obtain ⟨s, hs, hfound⟩ := Option.bind_eq_some_iff.mp hfound
      cases hfound
      split
      · exact .pure trivial
      · split
        · exact registerListener_builds hs
        · exact .pure trivial
        · exact unusable_builds
    · split
      · rename_i hsub
        split
        · exact registerListener_builds (Bool.and_eq_true_iff.mp hsub).1
        · exact .pure trivial
        · exact unusable_builds
      · exact .pure trivial
  · exact .pure trivial

theorem runMenuTask_makes {task : MenuTask} (hop : task.op < f.graph.size) :
    Makes c f (runMenuTask task) fun _ _ => True := by
  unfold runMenuTask
  split
  · exact .pure trivial
  refine .read rfl ?_
  extract_lets p onMenu
  refine .bind varNode_makes fun listener f₁ h₁ hlistener => ?_
  refine .bind varNode_makes fun view f₂ h₂ hview => ?_
  refine .each fun ⟨signature, handler⟩ _ f₃ h₃ => ?_
  dsimp -zeta only
  extract_lets position bindView
  have hbind : ∀ u f₄, f₃.graph.Extends f₄.graph → Makes c f₄ (bindView u) fun _ _ => True := by
    intro u f₄ h₄
    dsimp only [bindView]
    split
    · split
      · refine .bind (flowTo_makes (h₄.isValue (h₃.isValue hview.isValue))).discard fun _ f₅ h₅ _ => ?_
        exact bindHandlers_makes ((((h₁.trans h₂).trans h₃).trans h₄).trans h₅ |>.lt hop)
      · exact remark_makes
    · exact .pure trivial
  refine .bind (flowToThis_makes (h₃.isValue (h₂.isValue hlistener.isValue))) fun _ f₄ h₄ _ => ?_
  split
  · split
    · rename_i l _
      have hvar : Makes c f₄ (varNode l) fun n f' => f'.var? l = some n :=
        .of_edits fun _ => (varNode_does plain_pointer).imp fun _ _ _ h => h.first
      refine .bind hvar fun menu f₅ h₅ hmenu => ?_
      have hview₅ := h₅.isValue (h₄.isValue (h₃.isValue hview.isValue))
      exact .bind (contextMenu_makes hmenu hview₅).discard fun u f₆ h₆ _ => hbind u f₆ ((h₄.trans h₅).trans h₆)
    · exact .read rfl (hbind () f₄ h₄)
  · exact hbind () f₄ h₄

theorem runMenuTasks_makes : Makes c f runMenuTasks fun _ _ => True := by
  refine ⟨fun hf => .read rfl ?_⟩
  have htasks : Makes c f (f.listeners.tasks.forM runMenuTask) fun _ _ => True := .each fun task htask _ h =>
    runMenuTask_makes (h.lt (hf.filed.listeners.tasks task htask))
  exact htasks.run hf

end Flowgraph

end WidgetFlow
