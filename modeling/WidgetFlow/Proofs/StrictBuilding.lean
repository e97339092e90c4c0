import WidgetFlow.Proofs.Routine
import WidgetFlow.Proofs.Strictness

/-!
# Strict and lenient construction

The construction of a flowgraph in two modes: nodes, menus and listeners. An edit does not look at strictness and logs
no error (`Calm`), and what can report a violation is the same in both modes up to the first one (`Fair`).

All of this is routine (`Flowgraph.Routine`), so every registration of a listener is entered. A dispatch therefore never
meets a registration that it cannot look up, and is the same in both modes (`dispatch_mirrors`).
-/

namespace WidgetFlow

open Std

theorem Calm.keeps {α : Type} {x : Edit α} (h : Calm Flowgraph.Routine x) : Calm Flowgraph.Keeps x :=
  h.mono fun _ _ h => h.toKeeps

theorem Fair.keeps {α : Type} {x : Build α} (h : Fair Flowgraph.Routine x) : Fair Flowgraph.Keeps x :=
  h.mono fun _ _ h => h.toKeeps

namespace Flowgraph

variable {α β : Type} {c : Context} {f f' : Flowgraph}

/-! ## Single changes -/

theorem program_calm : Calm Routine program := ⟨fun _ f => .of_run rfl rfl (refl_of Routine f) rfl⟩

theorem resources_calm : Calm Routine resources := ⟨fun _ f => .of_run rfl rfl (refl_of Routine f) rfl⟩

theorem get_calm : Calm Routine get := ⟨fun _ f => .of_run rfl rfl (refl_of Routine f) rfl⟩

theorem getGraph_calm : Calm Routine getGraph := ⟨fun _ f => .of_run rfl rfl (refl_of Routine f) rfl⟩

theorem get_fair : Fair Routine get := ⟨fun _ f => .of_run rfl rfl (refl_of Routine f) rfl⟩

/-- What a change beside the graph, the registrations, the dialogs and the errors leaves alone. -/
structure Beside (f f' : Flowgraph) : Prop where
  graph : f'.graph = f.graph
  listeners : ∀ op, Entered f.listeners op → Entered f'.listeners op
  dialogs : SameDialogs f f'
  silent : record f' = record f

theorem Beside.of_eq
    (h : (f'.graph, f'.listeners, f'.log, f'.dialogs, f'.filledDialogs, f'.dialogVars, f'.fresh) =
      (f.graph, f.listeners, f.log, f.dialogs, f.filledDialogs, f.dialogVars, f.fresh)) : Beside f f' := by
  simp only [Prod.mk.injEq] at h
  obtain ⟨hg, hl, he, hd, hf, hv, hn⟩ := h
  exact ⟨hg, fun _ h => hl ▸ h, ⟨hd, hf, hv, Nat.le_of_eq hn.symm⟩, congrArg (fun l => (Log.errors l, ∅)) he⟩

theorem Beside.routine (h : Beside f f') : Routine f f' := h.dialogs.routine h.graph h.listeners

theorem modify_calm {g : Flowgraph → Flowgraph} (h : ∀ f, Beside f (g f)) : Calm Routine (modify g) :=
  ⟨fun _ f => .of_run rfl rfl (h f).routine (h f).silent⟩

theorem modify_fair {g : Flowgraph → Flowgraph} (h : ∀ f, Beside f (g f)) : Fair Routine (modify g) :=
  ⟨fun _ f => .of_run rfl rfl (h f).routine (h f).silent⟩

/-- A change of what is known of dialogs. -/
theorem modify_keeps {g : Flowgraph → Flowgraph} (hg : ∀ f, (g f).graph = f.graph)
    (hl : ∀ f, (g f).listeners = f.listeners) (he : ∀ f, (g f).log = f.log) : Calm Keeps (modify g) := by
  constructor
  intro c f
  have hkeeps : Keeps f (g f) :=
    ⟨registered_of (fun _ h => (hl f).symm ▸ h) fun _ => by rw [hg], by rw [hg], Nat.le_of_eq (by rw [hg])⟩
  exact .of_run rfl rfl hkeeps (congrArg (fun l => (Log.errors l, ∅)) (he f))

theorem errors_log {e : Log.Entry} {l : List Log.Entry} (h : e.level ≠ .error) :
    Log.errors (l ++ [e]) = Log.errors l := by
  simp [Log.errors, h]

theorem logEntry_calm {level : Log.Level} {text : String} {l : Option Label} (h : level ≠ .error) :
    Calm Routine (logEntry level text l) :=
  modify_calm fun _ => ⟨rfl, fun _ h => h, ⟨rfl, rfl, rfl, Nat.le_refl _⟩, Prod.ext (errors_log h) rfl⟩

theorem remark_calm {r : Remark} {l : Option Label} : Calm Routine (remark r l) := logEntry_calm nofun

theorem defer_calm {role : Role} {site : Site} : Calm Routine (defer role site) :=
  modify_calm fun _ => .of_eq rfl

theorem updateDialog_calm {n : NodeId} {g : DialogRecord → DialogRecord} (hg : ∀ r, (g r).shows = r.shows) :
    Calm Routine (updateDialog n g) :=
  ⟨fun _ _ => .of_run rfl rfl (routine_record hg) rfl⟩

theorem updateListeners_calm {g : Listeners → Listeners} (h : ∀ l op, Entered l op → Entered (g l) op) :
    Calm Routine (updateListeners g) :=
  modify_calm fun f => ⟨rfl, h f.listeners, ⟨rfl, rfl, rfl, Nat.le_refl _⟩, rfl⟩

theorem bindHandlers_calm {op : NodeId} {signatures : List String} : Calm Routine (bindHandlers op signatures) :=
  updateListeners_calm fun _ _ h => h

theorem addNode_calm {k : NodeKind} (hk : k.isSimple = true) : Calm Routine (addNode k) :=
  ⟨fun _ _ => .of_run rfl rfl (routine_push hk) rfl⟩

theorem addEdge_calm {src dst : NodeId} {l : Option Label} : Calm Routine (addEdge src dst l) :=
  ⟨fun _ _ => .of_run rfl rfl routine_connect rfl⟩

theorem updateNode_calm {n : NodeId} {g : Node → Node} (hg : ∀ a : Node, a.kind.Alike (g a).kind) :
    Calm Routine (updateNode n g) :=
  ⟨fun _ _ => .of_run rfl rfl (routine_modify hg) rfl⟩

/-- A new operation that is no registration. -/
theorem addOp_keeps {k : OpKind} {site : CallSite} {r p s : Option NodeId} (hk : (k.tag == .setListener) = false) :
    Calm Keeps (addOp k site r p s) :=
  ⟨fun _ _ => .of_run rfl rfl (keeps_pushOp rfl (fun _ h => h) fun h => absurd h (beq_eq_false_iff_ne.mp hk)) rfl⟩

/-- The operations that neither register a listener nor give a dialog its content. -/
def isSimpleOp (k : OpKind) (site : CallSite) : Bool :=
  k.tag != .setListener && site.origin != .synthetic .dialogContent

theorem addOp_calm {k : OpKind} {site : CallSite} {r p s : Option NodeId} (hk : isSimpleOp k site = true) :
    Calm Routine (addOp k site r p s) := by
  obtain ⟨htag, horigin⟩ := Bool.and_eq_true_iff.mp hk
  constructor
  intro c f
  refine .of_run rfl rfl (routine_pushOp rfl sameDialogs_graph (fun _ h => h) (fun h => ?_) ?_) rfl
  · rw [h] at htag
    cases htag
  · exact Bool.and_eq_false_imp.mpr fun _ => beq_eq_false_iff_ne.mpr (bne_iff_ne.mp horigin)

/-- A violation is logged in lenient mode and ends a strict run. -/
theorem report_fair {v : Violation} {l : Option Label} : Fair Routine (report v l) := by
  constructor
  intro c f
  let e : Log.Entry := { text := v.text, level := .error, location := l, source := some logSource }
  have h₁ : report v l (c.mode true) f = (.error ⟨v, l⟩, f) := rfl
  have h₀ : report v l (c.mode false) f = (.ok (), { f with log := f.log ++ [e] }) := rfl
  have hroutine : Routine f { f with log := f.log ++ [e] } :=
    SameDialogs.routine ⟨rfl, rfl, rfl, Nat.le_refl _⟩ rfl fun _ h => h
  have htells : e.TellsOf ⟨v, l⟩ := ⟨rfl, rfl⟩
  exact .of_error h₁ h₀ hroutine Log.errors_append htells (refl_of (Still Routine) f) trivial

/-! ## Nodes -/

theorem intern_calm {p : NodeKind → Bool} {k : NodeKind} (hk : k.isSimple = true) : Calm Routine (intern p k) := by
  unfold intern
  apply getGraph_calm.bind
  intro g
  split
  · exact .pure
  · exact addNode_calm hk

theorem varNode_calm {l : Local} : Calm Routine (varNode l) := intern_calm rfl

theorem fieldNode_calm {field : Field} : Calm Routine (fieldNode field) := intern_calm rfl

theorem freshVar_calm {cls : String} : Calm Routine (freshVar cls) :=
  get_calm.bind fun _ => .bind (modify_calm fun _ => ⟨rfl, fun _ h => h, ⟨rfl, rfl, rfl, Nat.le_succ _⟩, rfl⟩) fun _ =>
    varNode_calm

theorem idNode_calm {space : IdSpace} {value : Int} : Calm Routine (idNode space value) :=
  resources_calm.bind fun _ => intern_calm rfl

theorem knownIdNode_calm {value : Int} : Calm Routine (knownIdNode value) := by
  unfold knownIdNode
  apply resources_calm.bind
  intro r
  split
  · exact .map idNode_calm
  · exact .pure

theorem systemLayoutNode_calm {name : String} : Calm Routine (systemLayoutNode name) := by
  unfold systemLayoutNode
  apply resources_calm.bind
  intro r
  split
  · exact .map idNode_calm
  · exact .pure

theorem systemWidgetNode_calm {name : String} : Calm Routine (systemWidgetNode name) := by
  unfold systemWidgetNode
  apply resources_calm.bind
  intro r
  split
  · exact .map idNode_calm
  · exact .pure

theorem widgetIdNode_calm {value : Int} : Calm Routine (widgetIdNode value) := resources_calm.bind fun _ => idNode_calm

theorem createIdNodes_calm : Calm Routine createIdNodes :=
  resources_calm.bind fun _ => .each fun _ => .each fun _ => .discard idNode_calm

theorem stringNode_calm {s : String} : Calm Routine (stringNode s) := intern_calm rfl

theorem activityNode_calm {cls : String} : Calm Routine (activityNode cls) := intern_calm rfl

theorem valueNode_calm {v : Value} : Calm Routine (valueNode v) := by
  cases v with
  | var l => exact .map varNode_calm
  | int n => exact knownIdNode_calm
  | str s => exact .map stringNode_calm
  | null | other => exact .pure

theorem valueNode?_calm {v : Option Value} : Calm Routine (valueNode? v) := by
  cases v with
  | some v => exact valueNode_calm
  | none => exact .pure

/-! ## Flow into locals -/

theorem flowTo_calm {src : NodeId} {l : Local} {label : Option Label} : Calm Routine (flowTo src l label) :=
  varNode_calm.bind fun _ => addEdge_calm

theorem flowToThis_calm {src : NodeId} {m : Method} : Calm Routine (flowToThis src m) := by
  unfold flowToThis
  split
  · exact .discard flowTo_calm
  · exact .pure

theorem flowToParam_calm {src : NodeId} {m : Method} {i : Nat} {label : Option Label} :
    Calm Routine (flowToParam src m i label) := by
  unfold flowToParam
  split
  · exact .discard flowTo_calm
  · exact .pure

theorem objectsReaching_calm {l : Local} : Calm Routine (objectsReaching l) :=
  varNode_calm.bind fun _ => getGraph_calm.bind fun _ => .pure

theorem objectsReaching?_calm {l : Option Local} : Calm Routine (objectsReaching? l) := by
  cases l with
  | some l => exact objectsReaching_calm
  | none => exact .pure

/-! ## Menus -/

theorem connectItemMenus_calm {menu : NodeId} {handler : String} : Calm Routine (connectItemMenus menu handler) := by
  unfold connectItemMenus
  apply get_calm.bind
  intro f
  apply Calm.each
  intro r
  split
  · exact .discard addEdge_calm
  · exact .pure

theorem contextMenu_calm {handler : String} {parameter view : NodeId} :
    Calm Routine (contextMenu handler parameter view) := by
  unfold contextMenu
  apply get_calm.bind
  intro f
  split
  · exact (updateNode_calm fun a => a.showOn_grows.kind.alike).bind fun _ => .pure
  · apply (addNode_calm rfl).bind
    intro menu
    apply addEdge_calm.discard.bind
    intro _
    refine .bind (modify_calm fun _ => .of_eq rfl) fun _ => ?_
    exact connectItemMenus_calm.bind fun _ => .pure

theorem viewContextMenu_calm {view : NodeId} {cls : String} : Calm Routine (viewContextMenu view cls) := by
  unfold viewContextMenu
  apply program_calm.bind
  intro p
  split
  · split
    · apply flowTo_calm.discard.bind
      intro _
      exact varNode_calm.bind fun _ => varNode_calm.bind fun _ => .map contextMenu_calm
    · exact .pure
  · exact .pure

theorem itemSelection_calm {menu : Option NodeId} {menuClass activity creation receiver : String} {i : Nat} :
    Calm Routine (itemSelection menu menuClass activity creation receiver i) := by
  unfold itemSelection
  apply program_calm.bind
  intro p
  split
  · split
    · refine .bind (modify_calm fun _ => .of_eq rfl) fun _ => ?_
      extract_lets look
      -- the item is looked up in the menu and flows into the parameter of the method
      have hlook : ∀ menuVar, Calm Routine (look menuVar) := by
        intro menuVar
        unfold look
        split
        · apply freshVar_calm.bind
          intro itemVar
          exact (addOp_calm rfl).discard.bind fun _ => .discard flowTo_calm
        · exact .pure
      split
      · apply freshVar_calm.bind
        intro var
        exact addEdge_calm.discard.bind fun _ => Calm.pure.bind fun _ => hlook _
      · apply get_calm.bind
        intro f
        split
        · exact Calm.pure.bind fun _ => hlook _
        · apply freshVar_calm.bind
          intro var
          refine .bind (modify_calm fun _ => .of_eq rfl) fun _ => ?_
          exact Calm.pure.bind fun _ => hlook _
    · exact .pure
  · exact .pure

theorem optionsMenu_calm {activity : String} : Calm Routine (optionsMenu activity) := by
  unfold optionsMenu
  apply program_calm.bind
  intro p
  apply (addNode_calm rfl).bind
  intro menu
  refine .bind (modify_calm fun _ => .of_eq rfl) fun _ => ?_
  apply Calm.bind
  · apply Calm.each
    intro sub
    split
    · exact flowToParam_calm
    · exact .pure
  · intro _
    exact itemSelection_calm.bind fun _ => itemSelection_calm

theorem contextItemSelection_calm {activity : String} : Calm Routine (contextItemSelection activity) := by
  unfold contextItemSelection
  apply program_calm.bind
  intro p
  split
  · exact itemSelection_calm.bind fun _ => itemSelection_calm
  · exact .pure

/-! ## Listeners -/

/-- What is entered stays entered when more registrations are. -/
theorem entered_mono {l l' : Listeners} {op : NodeId} (hm : op ∈ l.modelled → op ∈ l'.modelled)
    (hr : (l.registrations[op]?).isSome = true → (l'.registrations[op]?).isSome = true) (h : Entered l op) :
    Entered l' op :=
  h.imp hm hr

theorem isSome_insert {l : Listeners} {op op' : NodeId} {index : Nat} (h : (l.registrations[op]?).isSome = true) :
    ((l.registrations.insert op' index)[op]?).isSome = true := by
  rw [ExtTreeMap.getElem?_insert]
  split
  · rfl
  · exact h

/-- A listener that the framework registers is entered together with its operation. -/
theorem addSynthetic_calm {m : Bool} {site : CallSite} {r p s : Option NodeId} {event : EventKind}
    {signatures : List String} :
    Calm Routine (addOp (.setListener m) site r p s >>= fun op => registerSynthetic op event signatures) := by
  constructor
  intro c f
  refine .of_run rfl rfl (routine_pushOp rfl ⟨rfl, rfl, rfl, Nat.le_refl _⟩ (fun op => ?_) (fun _ => ?_) rfl) rfl
  · exact entered_mono (fun h => ExtTreeSet.mem_insert.mpr (.inr h)) id
  · exact .inl ExtTreeSet.mem_insert_self

/-- A report, after which the call is of no use. -/
theorem unusable_fair {v : Violation} {l : Option Label} :
    Fair Routine (report v l >>= fun _ => pure Recognition.unusable) :=
  report_fair.bind fun _ => .pure

theorem registerListener_fair {site : Site} {call : Call} {view listener : Local} {spec : Option (Nat × ListenerSpec)}
    (hspec : spec = none → call.target.subSignature = Framework.registerForContextMenu) :
    Fair Routine (registerListener site call view listener spec) := by
  unfold registerListener
  apply Fair.liftBind program_calm
  intro p
  apply Fair.context fun _ => rfl
  intro c
  extract_lets settings onMenu listenerType
  have hmenu : spec = none → onMenu = true := by
    intro h
    simp [onMenu, hspec h]
  clear_value onMenu listenerType
  split
  · exact unusable_fair
  split
  · exact unusable_fair
  apply Fair.liftBind varNode_calm
  intro v
  apply Fair.liftBind varNode_calm
  intro w
  -- the operation and what is entered for it are one change
  let o : Op :=
    { kind := .setListener onMenu, site := site.callSite, artificial := site.callSite.origin != .program
      receiver := some v, parameter := some w, result := none }
  constructor
  intro c f
  have hsame : ∀ l, SameDialogs f { f with graph := f.graph.pushOp o, listeners := l } := fun _ =>
    ⟨rfl, rfl, rfl, Nat.le_refl _⟩
  rcases spec with _ | ⟨index, s⟩
  · obtain rfl := hmenu rfl
    refine .of_run rfl rfl (routine_pushOp (o := o) rfl (hsame _) (fun op => ?_) (fun _ => ?_) rfl) rfl
    · exact entered_mono (fun h => ExtTreeSet.mem_insert.mpr (.inr h)) id
    · exact .inl ExtTreeSet.mem_insert_self
  · cases onMenu with
    | true =>
      refine .of_run rfl rfl (routine_pushOp (o := o) rfl (hsame _) (fun op => ?_) (fun _ => ?_) rfl) rfl
      · exact entered_mono (fun h => ExtTreeSet.mem_insert.mpr (.inr h)) isSome_insert
      · exact .inl ExtTreeSet.mem_insert_self
    | false =>
      refine .of_run rfl rfl (routine_pushOp (o := o) rfl (hsame _) (fun op => ?_) (fun _ => ?_) rfl) rfl
      · exact entered_mono id isSome_insert
      · exact .inr (by simp)

theorem recognizeListener_fair {site : Site} {call : Call} : Fair Routine (recognizeListener site call) := by
  unfold recognizeListener
  split
  · apply Fair.liftBind program_calm
    intro p
    apply Fair.context fun _ => rfl
    intro c
    dsimp only
    split
    · split
      · exact .pure
      · split
        · exact registerListener_fair nofun
        · exact .pure
        · exact unusable_fair
    · split
      · rename_i h
        have hsub : call.target.subSignature = Framework.registerForContextMenu := by
          simp only [Bool.and_eq_true, beq_iff_eq] at h
          exact h.1
        split
        · exact registerListener_fair fun _ => hsub
        · exact .pure
        · exact unusable_fair
      · exact .pure
  · exact .pure

theorem runMenuTask_calm {task : MenuTask} : Calm Routine (runMenuTask task) := by
  unfold runMenuTask
  split
  · exact .pure
  apply Calm.context fun _ => rfl
  intro c
  extract_lets p onMenu
  apply varNode_calm.bind
  intro listenerVar
  apply varNode_calm.bind
  intro viewVar
  apply Calm.each
  rintro ⟨signature, handler⟩
  dsimp -zeta only
  extract_lets position bindView
  have hbind : ∀ u, Calm Routine (bindView u) := by
    intro u
    dsimp only [bindView]
    split
    · split
      · exact flowTo_calm.discard.bind fun _ => bindHandlers_calm
      · exact remark_calm
    · exact .pure
  apply flowToThis_calm.bind
  intro _
  split
  · split
    · exact varNode_calm.bind fun _ => contextMenu_calm.discard.bind hbind
    · exact hbind ()
  · exact hbind ()

theorem runMenuTasks_calm : Calm Routine runMenuTasks := get_calm.bind fun _ => .each fun _ => runMenuTask_calm

/-! ## Dispatch -/

theorem dispatchTo_calm {op view listener : NodeId} {location : Option Label} {spec : HandlerSpec} :
    Calm Routine (dispatchTo op view listener location spec) := by
  unfold dispatchTo
  apply program_calm.bind
  intro p
  apply getGraph_calm.bind
  intro g
  split
  · split
    · apply bindHandlers_calm.bind
      intro _
      extract_lets answer
      have hanswer : ∀ toThis, Calm Routine (answer toThis) := by
        intro toThis
        dsimp -zeta only [answer]
        split
        · extract_lets fits
          split
          · exact flowTo_calm.bind fun _ => .pure
          · exact remark_calm.bind fun _ => .pure
        · exact .pure
      split
      · exact flowTo_calm.bind hanswer
      · exact .bind .pure hanswer
    · exact .pure
  · exact .pure

/-- A dispatch does the same in both modes, if the registration is entered. -/
theorem dispatch_mirrors {op view listener : NodeId} (h : Entered f.listeners op) :
    Mirrors (Still Routine) (fun _ => Anyhow) c f (dispatch op view listener) := by
  unfold dispatch
  refine .read rfl rfl ?_
  split
  · exact .pure
  · rename_i hop
    split
    · exact .pure
    · have hmark : Calm Routine (updateListeners fun l => { l with
          dispatched := l.dispatched ++ [(op, view, listener)] }) := updateListeners_calm fun _ _ h => h
      apply Mirrors.liftBind (hmark.run c f).still
      intro _ f' _
      split
      · exact .pure
      · extract_lets location
        split
        · split
          · exact .pure
          · apply Mirrors.context rfl
            exact .sweep fun _ _ _ _ => .lift (dispatchTo_calm.run _ _).still
        · rename_i hnone
          rcases h with h | h
          · exact absurd h hop
          · cases hr : f.listeners.registrations[op]? with
            | none =>
              rw [hr] at h
              cases h
            | some registration => exact absurd hr (hnone registration)

end Flowgraph

end WidgetFlow
