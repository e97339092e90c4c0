import WidgetFlow.Proofs.Building

/-!
# The routine of the construction

There is one action that shows dialogs and gives them their content. What the construction does besides is routine
(`Routine`). No dialog is recorded as shown, none is filled, no window gets the content of a dialog, and a new dialog has
a record at once. A dialog may get the local that stands for it. This is a fresh one, so no two dialogs share a local
(`OwnLocals`).

Every registration of a listener is entered when it is made: it needs no dispatch, or it is known by which method of the
settings it was made (`Registered`).
-/

namespace WidgetFlow

open Std

/-- The operations that give a window the content of a dialog. -/
def Op.isContent (o : Op) : Bool := o.kind.tag == .setContent && o.site.origin == .synthetic .dialogContent

theorem Op.isContent_iff {o : Op} :
    o.isContent = true ↔ o.kind.tag = .setContent ∧ o.site.origin = .synthetic .dialogContent := by
  simp [isContent]

namespace Graph

variable {g g' : Graph} {n v : NodeId} {o : Op}

/-- The operation gives the window the content of a dialog. -/
def IsContent (g : Graph) (op window : NodeId) : Prop :=
  ∃ o, g.op? op = some o ∧ o.isContent = true ∧ o.receiver = some window

theorem isContent_of_op? (h : ∀ n, g'.op? n = g.op? n) : g'.IsContent n v ↔ g.IsContent n v := by
  rw [IsContent, IsContent, h]

theorem Extends.isContent (h : g.Extends g') (hn : g.IsContent n v) : g'.IsContent n v := by
  obtain ⟨o, ho, hcontent⟩ := hn
  exact ⟨o, h.op? ho, hcontent⟩

theorem isContent_pushOp : (g.pushOp o).IsContent n v ↔
    (n = g.size ∧ o.isContent = true ∧ o.receiver = some v) ∨ g.IsContent n v := by
  constructor
  · rintro ⟨o', ho', hcontent⟩
    rcases op?_pushOp_cases ho' with ⟨hn, rfl⟩ | ho'
    · exact .inl ⟨hn, hcontent⟩
    · exact .inr ⟨o', ho', hcontent⟩
  · rintro (⟨rfl, hcontent⟩ | hn)
    · exact ⟨o, op?_pushOp_self, hcontent⟩
    · exact pushOp_grows.toExtends.isContent hn

end Graph

/-- The kinds of nodes other than operations and dialogs. -/
def NodeKind.isSimple : NodeKind → Bool
  | .op _ | .object (.dialog _ _ _) => false
  | _ => true

theorem NodeKind.op?_of_isSimple {k : NodeKind} (h : k.isSimple = true) : k.op? = none := by
  cases k with
  | op => cases h
  | object | pointer | id => rfl

theorem NodeKind.isDialog_of_isSimple {k : NodeKind} (h : k.isSimple = true) :
    k.object?.any (·.isDialog) = false := by
  cases k with
  | object o => cases o <;> first | rfl | cases h
  | op | pointer | id => rfl

namespace Flowgraph

variable {c : Context} {f f' : Flowgraph} {n d v : NodeId}

/-! ## Registrations that are entered -/

/-- A registration needs no dispatch, or its method is known. -/
def Entered (l : Listeners) (op : NodeId) : Prop := op ∈ l.modelled ∨ (l.registrations[op]?).isSome = true

/-- Every registration is entered. -/
def Registered (f : Flowgraph) : Prop :=
  ∀ op o, f.graph.op? op = some o → o.kind.tag = .setListener → Entered f.listeners op

/-- The registrations stay entered, nothing is put into anything, and no node is lost. -/
structure Keeps (f f' : Flowgraph) : Prop where
  registered : f.Registered → f'.Registered
  containment : f'.graph.containment = f.graph.containment
  size : f.graph.size ≤ f'.graph.size

instance : IsPreorder Flowgraph Keeps where
  refl _ := ⟨id, rfl, Nat.le_refl _⟩
  trans _ _ _ h h' :=
    ⟨fun hf => h'.registered (h.registered hf), h'.containment.trans h.containment, Nat.le_trans h.size h'.size⟩

/-- What is entered stays entered, if no operation is new. -/
theorem registered_of (hl : ∀ op, Entered f.listeners op → Entered f'.listeners op)
    (ho : ∀ op, f'.graph.op? op = f.graph.op? op) (hf : f.Registered) : f'.Registered := by
  intro op o hop htag
  rw [ho op] at hop
  exact hl op (hf op o hop htag)

/-- A new registration is entered at once. -/
theorem keeps_pushOp {o : Op} (hg : f'.graph = f.graph.pushOp o)
    (hl : ∀ op, Entered f.listeners op → Entered f'.listeners op)
    (hnew : o.kind.tag = .setListener → Entered f'.listeners f.graph.size) : Keeps f f' := by
  constructor
  · intro hf op o' hop htag
    rw [hg] at hop
    rcases Graph.op?_pushOp_cases hop with ⟨rfl, rfl⟩ | hop
    · exact hnew htag
    · exact hl op (hf op o' hop htag)
  · rw [hg, Graph.containment_pushOp]
  · rw [hg, Graph.size_pushOp]
    exact Nat.le_succ _

/-! ## The locals of dialogs -/

/-- The locals that stand for dialogs are fresh ones, and no two dialogs share one. -/
structure OwnLocals (f : Flowgraph) : Prop where
  fresh : ∀ d v : NodeId, f.dialogVars[d]? = some v →
    ∃ k < f.fresh, ∃ ty, f.graph.pointer? v = some (.var ⟨s!"$fake{k}", ty⟩)
  inj : ∀ d d' v : NodeId, f.dialogVars[d]? = some v → f.dialogVars[d']? = some v → d = d'

/-- A number can be read off its digits. -/
theorem digits_inj {i k : Nat} (h : Nat.toDigits 10 i = Nat.toDigits 10 k) : i = k := by
  rw [← Nat.ofDigitChars_ten_toDigits (n := i), h, Nat.ofDigitChars_ten_toDigits]

/-- The numbers of fresh locals can be read off their names. -/
theorem fresh_inj {i k : Nat} (h : s!"$fake{i}" = s!"$fake{k}") : i = k := by
  have h : "$fake" ++ toString i = "$fake" ++ toString k := by simpa using h
  rw [String.append_right_inj, Nat.toString_eq_ofList_toDigits, Nat.toString_eq_ofList_toDigits,
    String.ofList_inj] at h
  exact digits_inj h

namespace OwnLocals

theorem mono (h : f.OwnLocals) (hg : f.graph.Extends f'.graph) (hfresh : f.fresh ≤ f'.fresh)
    (hv : f'.dialogVars = f.dialogVars) : f'.OwnLocals := by
  constructor
  · intro d v hd
    rw [hv] at hd
    obtain ⟨k, hk, ty, hp⟩ := h.fresh d v hd
    exact ⟨k, Nat.lt_of_lt_of_le hk hfresh, ty, hg.pointer? hp⟩
  · rw [hv]
    exact h.inj

/-- The next fresh local stands for no dialog yet. -/
theorem insert {g : Graph} {ty : Ty} (h : f.OwnLocals) (hg : f.graph.Extends g)
    (hp : g.pointer? v = some (.var ⟨s!"$fake{f.fresh}", ty⟩)) :
    OwnLocals { f with graph := g, fresh := f.fresh + 1, dialogVars := f.dialogVars.insert d v } := by
  have hnew : ∀ d' : NodeId, f.dialogVars[d']? ≠ some v := by
    intro d' hd'
    obtain ⟨k, hk, ty', hp'⟩ := h.fresh d' v hd'
    rw [hg.pointer? hp'] at hp
    simp only [Option.some.injEq, Pointer.var.injEq, Local.mk.injEq] at hp
    exact Nat.ne_of_lt hk (fresh_inj hp.1)
  constructor
  · intro d' v' hd'
    rw [ExtTreeMap.getElem?_insert] at hd'
    split at hd'
    · cases hd'
      exact ⟨f.fresh, Nat.lt_succ_self _, ty, hp⟩
    · obtain ⟨k, hk, ty', hp'⟩ := h.fresh d' v' hd'
      exact ⟨k, Nat.lt_succ_of_lt hk, ty', hg.pointer? hp'⟩
  · intro d₁ d₂ w h₁ h₂
    rw [ExtTreeMap.getElem?_insert] at h₁ h₂
    split at h₁
    · rename_i he₁
      cases h₁
      split at h₂
      · rename_i he₂
        rw [← LawfulEqCmp.eq_of_compare he₁, LawfulEqCmp.eq_of_compare he₂]
      · exact absurd h₂ (hnew d₂)
    · split at h₂
      · cases h₂
        exact absurd h₁ (hnew d₁)
      · exact h.inj d₁ d₂ w h₁ h₂

end OwnLocals

/-! ## Routine -/

/-- No dialog is shown or filled, and nothing that is known of dialogs is lost. -/
structure Unshown (f f' : Flowgraph) : Prop extends Keeps f f' where
  graph : f.graph.Extends f'.graph
  contents : ∀ n v, f'.graph.IsContent n v ↔ f.graph.IsContent n v
  shows : ∀ d, (f'.recordOf d).shows = (f.recordOf d).shows
  filled : f'.filledDialogs = f.filledDialogs
  entries : ∀ d ∈ f.dialogs, d ∈ f'.dialogs
  windows : ∀ d v : NodeId, f.dialogVars[d]? = some v → f'.dialogVars[d]? = some v
  locals : f.OwnLocals → f'.OwnLocals

instance : IsPreorder Flowgraph Unshown where
  refl _ := ⟨refl_of Keeps _, .refl _, fun _ _ => .rfl, fun _ => rfl, rfl, fun _ h => h, fun _ _ h => h, id⟩
  trans _ _ _ h h' := ⟨trans_of Keeps h.toKeeps h'.toKeeps, h.graph.trans h'.graph,
    fun n v => (h'.contents n v).trans (h.contents n v), fun d => (h'.shows d).trans (h.shows d),
    h'.filled.trans h.filled, fun d hd => h'.entries d (h.entries d hd),
    fun d v hv => h'.windows d v (h.windows d v hv), h'.locals ∘ h.locals⟩

/-- The new dialogs have a property. -/
def NewDialogs (f f' : Flowgraph) (p : NodeId → Prop) : Prop :=
  ∀ n, (f'.graph.object? n).any (·.isDialog) = true → (f.graph.object? n).any (·.isDialog) = true ∨ p n

/-- No dialog is shown or filled, nothing that is known of dialogs is lost, and a new dialog has a record. -/
structure Routine (f f' : Flowgraph) : Prop extends Unshown f f' where
  listed : NewDialogs f f' (· ∈ f'.dialogs)

instance : IsPreorder Flowgraph Routine where
  refl _ := ⟨refl_of Unshown _, fun _ h => .inl h⟩
  trans _ _ _ h h' := by
    refine ⟨trans_of Unshown h.toUnshown h'.toUnshown, fun n hn => ?_⟩
    rcases h'.listed n hn with hn | hn
    · exact (h.listed n hn).imp_right (h'.entries n)
    · exact .inr hn

/-! ## Single changes -/

/-- The same is known of dialogs. -/
structure SameDialogs (f f' : Flowgraph) : Prop where
  records : f'.dialogs = f.dialogs
  filled : f'.filledDialogs = f.filledDialogs
  windows : f'.dialogVars = f.dialogVars
  fresh : f.fresh ≤ f'.fresh

theorem sameDialogs_graph {g : Graph} : SameDialogs f { f with graph := g } := ⟨rfl, rfl, rfl, Nat.le_refl _⟩

theorem SameDialogs.unshown (h : SameDialogs f f') (hk : Keeps f f') (hg : f.graph.Extends f'.graph)
    (hc : ∀ n v, f'.graph.IsContent n v ↔ f.graph.IsContent n v) : Unshown f f' where
  toKeeps := hk
  graph := hg
  contents := hc
  shows d := by rw [recordOf, h.records]; rfl
  filled := h.filled
  entries d hd := h.records ▸ hd
  windows d v hv := h.windows ▸ hv
  locals hf := hf.mono hg h.fresh h.windows

/-- No object becomes a dialog. -/
theorem Unshown.routine (h : Unshown f f')
    (ho : ∀ n, (f'.graph.object? n).any (·.isDialog) = (f.graph.object? n).any (·.isDialog)) : Routine f f' :=
  ⟨h, fun n hn => .inl (ho n ▸ hn)⟩

/-- A change beside the graph. -/
theorem SameDialogs.routine (h : SameDialogs f f') (hg : f'.graph = f.graph)
    (hl : ∀ op, Entered f.listeners op → Entered f'.listeners op) : Routine f f' := by
  have hkeeps : Keeps f f' :=
    ⟨registered_of hl fun _ => by rw [hg], by rw [hg], Nat.le_of_eq (by rw [hg])⟩
  exact (h.unshown hkeeps (hg ▸ .refl _) fun _ _ => by rw [hg]).routine fun _ => by rw [hg]

theorem unshown_push {k : NodeKind} (hk : k.op? = none) : Unshown f { f with graph := f.graph.push k } := by
  have hop : ∀ n, (f.graph.push k).op? n = f.graph.op? n := fun _ => Graph.op?_push hk
  have hg : f.graph.Extends (f.graph.push k) := Graph.push_grows.toExtends
  exact sameDialogs_graph.unshown ⟨registered_of (fun _ h => h) hop, rfl, hg.size⟩ hg fun _ _ =>
    Graph.isContent_of_op? hop

theorem newDialogs_push {k : NodeKind} : NewDialogs f { f with graph := f.graph.push k } (· = f.graph.size) := by
  intro n hn
  by_cases hsize : n = f.graph.size
  · exact .inr hsize
  · rw [Graph.object?_push, if_neg hsize] at hn
    exact .inl hn

theorem routine_push {k : NodeKind} (hk : k.isSimple = true) : Routine f { f with graph := f.graph.push k } := by
  refine (unshown_push (NodeKind.op?_of_isSimple hk)).routine fun n => ?_
  rw [Graph.object?_push]
  split
  · rename_i hn
    rw [NodeKind.isDialog_of_isSimple hk, Graph.object?_eq_none (Nat.le_of_eq hn.symm)]
    rfl
  · rfl

theorem routine_connect {src dst : NodeId} {l : Option Label} :
    Routine f { f with graph := f.graph.connect src dst l } :=
  Unshown.routine (sameDialogs_graph.unshown ⟨registered_of (fun _ h => h) fun _ => rfl, rfl, Nat.le_refl _⟩
    Graph.connect_grows.toExtends fun _ _ => Graph.isContent_of_op? fun _ => rfl) fun _ => rfl

theorem routine_modify {g : Node → Node} (hg : ∀ a : Node, a.kind.Alike (g a).kind) :
    Routine f { f with graph := f.graph.modify n g } := by
  have hop : ∀ m, (f.graph.modify n g).op? m = f.graph.op? m := fun _ => Graph.op?_modify fun a => (hg a).op?
  have hext : f.graph.Extends (f.graph.modify n g) := Graph.modify_extends hg
  refine Unshown.routine (sameDialogs_graph.unshown ⟨registered_of (fun _ h => h) hop, rfl, hext.size⟩ hext
    fun _ _ => Graph.isContent_of_op? hop) fun m => ?_
  rw [Graph.object?, Graph.object?, Graph.node?_modify]
  split
  · cases f.graph.node? m with
    | none => rfl
    | some a => exact (hg a).isDialog
  · rfl

/-- A new operation that gives no dialog its content. If it is a registration, it is entered. -/
theorem routine_pushOp {o : Op} (hg : f'.graph = f.graph.pushOp o) (hs : SameDialogs f f')
    (hl : ∀ op, Entered f.listeners op → Entered f'.listeners op)
    (hnew : o.kind.tag = .setListener → Entered f'.listeners f.graph.size) (ho : o.isContent = false) :
    Routine f f' := by
  have hext : f.graph.Extends f'.graph := hg ▸ Graph.pushOp_grows.toExtends
  refine (hs.unshown (keeps_pushOp hg hl hnew) hext fun n v => ?_).routine fun n => ?_
  · simp [hg, Graph.isContent_pushOp, ho]
  · rw [hg, Graph.object?_pushOp]

/-- A record is added to or made, but the dialog is not shown. -/
theorem routine_record {g : DialogRecord → DialogRecord} (hg : ∀ r, (g r).shows = r.shows) :
    Routine f { f with dialogs := f.dialogs.alter n fun r => some (g (r.getD {})) } where
  toKeeps := ⟨id, rfl, Nat.le_refl _⟩
  graph := .refl _
  contents _ _ := .rfl
  shows d := by
    rw [recordOf_alter]
    split
    · exact hg _
    · rfl
  filled := rfl
  entries d hd := Container.key_mem_alter.mpr (.inr hd)
  windows _ _ h := h
  locals hf := hf.mono (.refl _) (Nat.le_refl _) rfl
  listed _ h := .inl h

theorem updateDialog_routine {g : DialogRecord → DialogRecord} (hg : ∀ r, (g r).shows = r.shows) :
    Does Routine c f (updateDialog n g) fun _ f' => n ∈ f'.dialogs :=
  .of_run rfl (routine_record hg) (Container.key_mem_alter.mpr (.inl rfl))

/-! ## The local of a dialog -/

theorem varNode_routine {l : Local} :
    Does Anyhow c f (varNode l) fun v f' =>
      ∃ g, f' = { f with graph := g } ∧ g.pointer? v = some (.var l) ∧ Routine f { f with graph := g } := by
  unfold varNode intern
  refine .read rfl ?_
  split
  · rename_i v hv
    obtain ⟨⟨a, ha, hk⟩, -⟩ := Graph.find?_eq_some.mp hv
    refine .pure ⟨f.graph, rfl, ?_, refl_of Routine f⟩
    rw [Graph.pointer?, ha, Option.bind_some, of_decide_eq_true hk]
    rfl
  · refine .of_run rfl trivial ⟨_, rfl, ?_, routine_push rfl⟩
    rw [Graph.pointer?, Graph.node?_push, if_pos rfl]
    rfl

theorem freshVar_routine {cls : String} :
    Does Anyhow c f (freshVar cls) fun v f' =>
      ∃ g, f' = { f with graph := g, fresh := f.fresh + 1 } ∧
        g.pointer? v = some (.var ⟨s!"$fake{f.fresh}", .ref cls⟩) ∧ Routine f f' := by
  have hcount : Routine f { f with fresh := f.fresh + 1 } :=
    SameDialogs.routine ⟨rfl, rfl, rfl, Nat.le_succ _⟩ rfl fun _ h => h
  unfold freshVar
  refine .read rfl ?_
  refine .bind (Q := fun _ t => t = { f with fresh := f.fresh + 1 }) (.of_run rfl trivial rfl) fun _ f₁ _ hf₁ => ?_
  subst hf₁
  refine varNode_routine.imp fun v f' _ ⟨g, hg, hp, h⟩ => ?_
  subst hg
  exact ⟨g, rfl, hp, trans_of Routine hcount h⟩

/-- A dialog without a local gets the next fresh one. -/
theorem routine_window {g : Graph} {ty : Ty} (h : Routine f { f with graph := g, fresh := f.fresh + 1 })
    (hd : f.dialogVars[d]? = none) (hp : g.pointer? v = some (.var ⟨s!"$fake{f.fresh}", ty⟩)) :
    Routine f { f with graph := g, fresh := f.fresh + 1, dialogVars := f.dialogVars.insert d v } := by
  refine ⟨{ h.toUnshown with windows := fun d' v' hd' => ?_, locals := fun hf => hf.insert h.graph hp }, h.listed⟩
  rw [ExtTreeMap.getElem?_insert, if_neg, hd']
  intro he
  rw [← LawfulEqCmp.eq_of_compare he, hd] at hd'
  cases hd'

theorem dialogVar_routine : Does Routine c f (dialogVar d) fun v f' => f'.dialogVars[d]? = some v := by
  unfold dialogVar
  refine .read rfl ?_
  cases hd : f.dialogVars[d]? with
  | some v => exact .pure hd
  | none =>
    dsimp only
    refine .restore (T := Anyhow) ?_
    refine .bind freshVar_routine fun v f₁ _ ⟨g, hf₁, hp, h⟩ => ?_
    subst hf₁
    have hflow : (g.connect d v none).pointer? v = some (.var ⟨s!"$fake{f.fresh}", _⟩) := hp
    exact .of_run rfl trivial
      ⟨routine_window (trans_of Routine h routine_connect) hd hflow, ExtTreeMap.getElem?_insert_self⟩

end Flowgraph

end WidgetFlow
