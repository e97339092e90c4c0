import WidgetFlow.Proofs.DialogCalls
import WidgetFlow.Proofs.ItemLayouts
import WidgetFlow.Proofs.Naming

/-!
# The locals of a construction

The construction gives nodes to the locals of the statements that it deals with, and asks for fresh locals in between.
Each of its functions is followed once (`construct_tame`). A local is taken from a statement, from a call in it, or from
a method of the program that the framework runs. Statements that were put off come back by their receivers
(`resolveReceivers_groups`), by the constructors that they run (`knows_itemLayoutArgs`) or by their arrays.
-/

namespace WidgetFlow.Flowgraph

open Std Program

variable {c : Context} {site : Site} {call : Call} {n : NodeId} {l : Local}

/-! ## Menus -/

theorem connectItemMenus_tame {menu : NodeId} {handler : String} : Tame c (connectItemMenus menu handler) := by
  refine .get fun f _ => .each fun r _ => ?_
  split
  · exact .discard addEdge_tame
  · exact .pure

theorem contextMenu_tame {handler : String} {parameter view : NodeId} :
    Tame c (contextMenu handler parameter view) := by
  refine .get fun f _ => ?_
  split
  · exact (updateNode_tame fun a => a.showOn_grows.kind.alike).bind fun _ => .pure
  · refine addObject_tame.bind fun menu => addEdge_tame.discard.bind fun _ => ?_
    exact .bind (modify_tame fun _ => .of_eq rfl) fun _ => connectItemMenus_tame.bind fun _ => .pure

theorem viewContextMenu_tame {view : NodeId} {cls : String} : Tame c (viewContextMenu view cls) := by
  refine .program ?_
  split
  · rename_i handler hhandler
    have hm := callback?_mem hhandler
    split
    · rename_i this parameter ht hp
      refine (flowTo_tame (mentions_this hm ht)).discard.bind fun _ => ?_
      refine (varNode_tame (mentions_param hm hp)).bind fun _ => ?_
      exact (varNode_tame (mentions_this hm ht)).bind fun _ => .map contextMenu_tame
    · exact .pure
  · exact .pure

theorem itemSelection_tame {menu : Option NodeId} {menuClass activity creation receiver : String} {i : Nat} :
    Tame c (itemSelection menu menuClass activity creation receiver i) := by
  refine .program ?_
  split
  · rename_i handler hhandler
    split
    · rename_i parameter hparameter
      refine .bind (modify_tame fun _ => .of_eq rfl) fun _ => ?_
      extract_lets look
      -- the item is looked up in the menu and flows into the parameter of the method
      have hlook : ∀ menuVar, Tame c (look menuVar) := by
        intro menuVar
        unfold look
        split
        · refine freshVar_tame.bind fun itemVar => addOp_tame.discard.bind fun _ => .discard ?_
          exact flowTo_tame (mentions_param (callback?_mem hhandler) hparameter)
        · exact .pure
      split
      · exact freshVar_tame.bind fun _ => addEdge_tame.discard.bind fun _ => Tame.pure.bind fun _ => hlook _
      · refine .get fun f _ => ?_
        split
        · exact Tame.pure.bind fun _ => hlook _
        · refine freshVar_tame.bind fun var => .bind (modify_tame fun _ => .of_eq rfl) fun _ => ?_
          exact Tame.pure.bind fun _ => hlook _
    · exact .pure
  · exact .pure

theorem optionsMenu_tame {activity : String} : Tame c (optionsMenu activity) := by
  refine .program (addObject_tame.bind fun menu => .bind (modify_tame fun _ => .of_eq rfl) fun _ => ?_)
  refine .bind (.each fun sub _ => ?_) fun _ => itemSelection_tame.bind fun _ => itemSelection_tame
  split
  · exact flowToParam_tame (callback?_mem ‹_›)
  · exact .pure

theorem contextItemSelection_tame {activity : String} : Tame c (contextItemSelection activity) := by
  refine .program ?_
  split
  · exact itemSelection_tame.bind fun _ => itemSelection_tame
  · exact .pure

/-! ## Listeners -/

theorem registerSynthetic_tame {event : EventKind} {signatures : List String} :
    Tame c (registerSynthetic n event signatures) :=
  .bind (updateListeners_tame fun _ _ h => .inl h) fun _ => bindHandlers_tame

/-- A report, after which the call is of no use. -/
theorem unusable_tame {v : Violation} {l : Option Label} :
    Tamed c (report v l >>= fun _ => pure Recognition.unusable) :=
  report_tamed.bind fun _ => .pure

theorem registerListener_tame {view listener : Local} {spec : Option (Nat × ListenerSpec)}
    (hview : c.project.program.Mentions view) (hlistener : c.project.program.Mentions listener) :
    Tamed c (registerListener site call view listener spec) := by
  unfold registerListener
  refine .program (.read ?_)
  extract_lets settings onMenu listenerType
  split
  · exact unusable_tame
  split
  · exact unusable_tame
  refine .liftBind (varNode_tame hview) fun v => .liftBind (varNode_tame hlistener) fun w => ?_
  refine .liftBind addOp_tame fun op => ?_
  extract_lets answer task put
  have hput : ∀ u, Tamed c (put u) := by
    intro u
    dsimp only [put]
    split
    · refine .liftBind (updateListeners_tame fun ls t ht => ?_) fun _ => .pure
      rcases List.mem_append.mp ht with ht | ht
      · exact .inl ht
      · obtain rfl := List.mem_singleton.mp ht
        exact .inr (by simp [Knows, task, hview, hlistener])
    · exact .pure
  split
  · exact .liftBind (updateListeners_tame fun _ _ h => .inl h) hput
  · exact .liftBind (updateListeners_tame fun _ _ h => .inl h) hput

theorem recognizeListener_tame (h : c.project.program.Knows call.locals) : Tamed c (recognizeListener site call) := by
  unfold recognizeListener
  split
  · rename_i receiver hreceiver
    refine .program (.read ?_)
    dsimp only
    split
    · split
      · exact .pure
      · split
        · exact registerListener_tame (h.receiver hreceiver) (h.argVar ‹_›)
        · exact .pure
        · exact unusable_tame
    · split
      · split
        · exact registerListener_tame (h.argVar ‹_›) (h.receiver hreceiver)
        · exact .pure
        · exact unusable_tame
      · exact .pure
  · exact .pure

/-- The methods of a registration are methods of the program. -/
theorem menuHandlers_mem {task : MenuTask} {signature : String} {m : Method}
    (h : (signature, m) ∈ (menuHandlers c task).toList) : m ∈ c.project.program.methods := by
  unfold menuHandlers at h
  extract_lets p declared prototypes at h
  split at h
  · obtain ⟨m', hm, he⟩ := List.mem_map.mp (Container.mem_of_mem_toList_ofList h)
    cases he
    obtain ⟨k, -, hm⟩ := List.mem_flatMap.mp hm
    obtain ⟨sub, -, hm⟩ := List.mem_filterMap.mp hm
    exact callback?_mem hm
  · simp [ExtTreeMap.mem_toList_iff_getElem?_eq_some] at h

theorem runMenuTask_tame {task : MenuTask} (h : c.project.program.Knows [task.view, task.listener]) :
    Tame c (runMenuTask task) := by
  unfold runMenuTask
  split
  · exact .pure
  refine .read ?_
  extract_lets p onMenu
  have hview := h task.view (by simp)
  refine (varNode_tame (h task.listener (by simp))).bind fun _ => (varNode_tame hview).bind fun view => ?_
  refine .each fun x hx => ?_
  obtain ⟨signature, handler⟩ := x
  have hm := menuHandlers_mem hx
  dsimp -zeta only
  extract_lets position bindView
  have hbind : ∀ u, Tame c (bindView u) := by
    intro u
    dsimp only [bindView]
    split
    · rename_i parameter hparameter
      obtain ⟨i, -, hi⟩ := Option.bind_eq_some_iff.mp hparameter
      split
      · exact (flowTo_tame (mentions_param hm hi)).discard.bind fun _ => bindHandlers_tame
      · exact remark_tame
    · exact .pure
  refine (flowToThis_tame hm).bind fun _ => ?_
  split
  · split
    · refine (varNode_tame (mentions_param hm ‹_›)).bind fun _ => ?_
      exact contextMenu_tame.discard.bind hbind
    · exact hbind ()
  · exact hbind ()

theorem runMenuTasks_tame : Tame c runMenuTasks := .get fun _ hf => .each fun t ht => runMenuTask_tame (hf.tasks t ht)

/-! ## Operands -/

theorem idOperand_tame {v : Value} (h : c.project.program.Knows v.locals) : Tame c (idOperand v) := by
  cases v with
  | var l => exact .map (varNode_tame (knows_var.mp h))
  | int n => exact knownIdNode_tame
  | str | null | other => exact .pure

/-- A new operation, which is the answer. -/
theorem operation_tame {k : OpKind} {place : CallSite} {r p s : Option NodeId} :
    Tamed c (do let op ← addOp k place r p s; return Recognition.operation op) :=
  .liftBind addOp_tame fun _ => .pure

/-- An operation on the nodes of two locals. -/
theorem binary_tame {l m : Local} {k : OpKind} {place : CallSite} {r p s : NodeId → NodeId → Option NodeId}
    (hl : c.project.program.Mentions l) (hm : c.project.program.Mentions m) :
    Tamed c (do
      let a ← varNode l
      let b ← varNode m
      let op ← addOp k place (r a b) (p a b) (s a b)
      return Recognition.operation op) :=
  .liftBind (varNode_tame hl) fun _ => .liftBind (varNode_tame hm) fun _ => operation_tame

/-- A remark, after which the call is answered. -/
theorem remarked_tame {r : Remark} {l : Option Label} {answer : Recognition} :
    Tamed c (do remark r l; return answer) :=
  .liftBind remark_tame fun _ => .pure

/-! ## Calls that are operations -/

section Recognizers

/-- The operands of an inflation are arguments of the call. -/
theorem inflateOperands_mem {p : Program} {layout : Value} {root : Option Value}
    (h : inflateOperands p call = some (layout, root)) : layout ∈ call.args ∧ ∀ v, root = some v → v ∈ call.args := by
  have harg : ∀ {i v}, call.arg? i = some v → v ∈ call.args := fun h => List.mem_of_getElem? h
  unfold inflateOperands at h
  grind [Option.map_eq_some_iff]

variable (h : c.project.program.KnowsCall site call)
include h

theorem recognizeInflate_tame : Tamed c (recognizeInflate site call) := by
  unfold recognizeInflate
  refine .program ?_
  split
  · rename_i layoutArg rootArg hoperands
    obtain ⟨hlayout, hroot⟩ := inflateOperands_mem hoperands
    split
    · exact .pure
    refine .liftBind (idOperand_tame (h.call.value hlayout)) fun layout => ?_
    split
    · split
      · rename_i root lhs hr
        obtain ⟨v, hv, hvar⟩ := Option.bind_eq_some_iff.mp hr
        refine .liftBind freshVar_tame fun view => .liftBind addOp_tame fun op => ?_
        refine .liftBind (varNode_tame ((h.call.value (hroot v hv)).var? hvar)) fun rootVar => ?_
        refine .liftBind addOp_tame.discard fun _ => ?_
        extract_lets answer
        split
        · exact .liftBind (flowTo_tame (h.site.result ‹_›)).discard fun _ => .pure
        · exact .pure
      · exact .liftBind (varNode_tame (h.site.result ‹_›)) fun _ => operation_tame
      · exact .pure
    · exact .pure
  · exact .pure

theorem recognizeSetContent_tame : Tamed c (recognizeSetContent site call) := by
  refine .program ?_
  split
  · exact .pure
  split
  · split
    · exact .pure
    refine .liftBind (idOperand_tame (h.call.arg ‹_›)) fun layout => ?_
    split
    · exact .liftBind (varNode_tame (h.call.receiver ‹_›)) fun _ => operation_tame
    · exact .pure
  · exact .pure

theorem recognizeSetRoot_tame : Tamed c (recognizeSetRoot site call) := by
  refine .program ?_
  split
  · exact .pure
  split
  · exact binary_tame (h.call.receiver ‹_›) (h.call.argVar ‹_›)
  · exact .pure
  · exact .pure

theorem recognizeAddChild_tame : Tamed c (recognizeAddChild site call) := by
  refine .program ?_
  split
  · exact .pure
  split
  · exact binary_tame (h.call.receiver ‹_›) (h.call.argVar ‹_›)
  · exact .pure
  · exact .pure

theorem recognizeFindView_tame : Tamed c (recognizeFindView site call) := by
  refine .program ?_
  dsimp only
  split
  · split
    · rename_i receiver idArg hreceiver harg
      split
      · rename_i lhs hlhs
        have hfind : ∀ {query id}, Tamed c (recognizeFindView.find site receiver lhs query id) :=
          binary_tame (h.call.receiver hreceiver) (h.site.result hlhs)
        split
        · refine .liftBind knownIdNode_tame fun known => ?_
          split
          · exact .bind .pure fun _ => hfind
          · exact .liftBind widgetIdNode_tame fun _ => hfind
        · exact .pure
        · refine .liftBind (idOperand_tame (h.call.arg harg)) fun id => ?_
          split
          · exact hfind
          · exact remarked_tame
      · exact .pure
    · exact .pure
  · exact .pure

theorem recognizeFindInWindow_tame : Tamed c (recognizeFindInWindow site call) := by
  refine .program ?_
  split
  · exact .pure
  split
  · rename_i receiver idArg hreceiver harg
    split
    · refine .liftBind (idOperand_tame (h.call.arg harg)) fun id => ?_
      split
      · exact binary_tame (h.call.receiver hreceiver) (h.site.result ‹_›)
      · exact remarked_tame
    · exact .pure
  · exact .pure

theorem recognizeNavigate_tame : Tamed c (recognizeNavigate site call) := by
  refine .program ?_
  split
  · split
    · exact .pure
    · split
      · rename_i receiver hreceiver
        split
        · exact binary_tame (h.call.receiver hreceiver) (h.site.result ‹_›)
        · exact .pure
      · exact .pure
  · exact .pure

theorem recognizeIdSetter_tame {kind : OpKind} {sub : String} : Tamed c (recognizeIdSetter kind sub site call) := by
  refine .program ?_
  split
  · exact .pure
  split
  · split
    · exact .pure
    refine .liftBind (idOperand_tame (h.call.arg ‹_›)) fun id => ?_
    split
    · exact .liftBind (varNode_tame (h.call.receiver ‹_›)) fun _ => operation_tame
    · exact remarked_tame
  · exact .pure

theorem recognizeAddItem_tame : Tamed c (recognizeAddItem site call) := by
  refine .program ?_
  split
  · exact .pure
  split
  · rename_i receiver hreceiver
    refine .get fun f _ => ?_
    extract_lets addItem
    -- from the item on, nothing depends on whether it is new
    have haddItem : ∀ item, Tamed c (addItem item) := by
      intro item
      dsimp -zeta only [addItem]
      extract_lets link
      have hlink : ∀ v, Tamed c (link v) := by
        intro v
        refine .liftBind addEdge_tame.discard fun _ => ?_
        extract_lets operate
        have hoperate : ∀ u, Tamed c (operate u) := by
          intro u
          refine .liftBind (varNode_tame (h.call.receiver hreceiver)) fun menu => .liftBind addOp_tame fun op => ?_
          refine .liftBind (valueNode?_tame fun v hv => h.call.value (List.mem_of_getLast? hv)) fun title => ?_
          extract_lets answer
          split
          · exact .liftBind addOp_tame.discard fun _ => .pure
          · exact .pure
        split
        · split
          · refine .liftBind widgetIdNode_tame fun id => ?_
            exact .liftBind (updateNode_tame fun _ => .refl _) hoperate
          · exact hoperate ()
        · exact hoperate ()
      split
      · exact .liftBind (varNode_tame (h.site.result ‹_›)) hlink
      · exact .liftBind freshVar_tame hlink
    split
    · exact .bind .pure haddItem
    · refine .liftBind addObject_tame fun item => .bind (modify_tamed fun _ => .of_eq rfl) fun _ => ?_
      exact .bind .pure haddItem
  · exact .pure

theorem recognizeSetTitle_tame : Tamed c (recognizeSetTitle site call) := by
  refine .program ?_
  split
  · exact .pure
  split
  · rename_i receiver hreceiver
    refine .liftBind (valueNode?_tame fun v hv => h.call.arg hv) fun title => ?_
    split
    · refine .liftBind (varNode_tame (h.call.receiver hreceiver)) fun item => .liftBind addOp_tame fun op => ?_
      extract_lets answer
      split
      · exact .liftBind (flowTo_tame (h.site.result ‹_›)).discard fun _ => .pure
      · exact .pure
    · exact .pure
  · exact .pure

theorem recognizeInflateMenu_tame : Tamed c (recognizeInflateMenu site call) := by
  refine .program ?_
  split
  · exact .pure
  split
  · rename_i idArg menu harg hmenu
    split
    · exact .pure
    refine .liftBind (idOperand_tame (h.call.arg harg)) fun id => ?_
    split
    · exact .liftBind (varNode_tame (h.call.argVar hmenu)) fun _ => operation_tame
    · exact .pure
  · exact .pure
  · exact .pure

theorem recognizeGetTabHost_tame : Tamed c (recognizeGetTabHost site call) := by
  unfold recognizeGetTabHost
  split
  · exact .pure
  split
  · refine .program ?_
    split
    · exact .pure
    refine .liftBind systemLayoutNode_tame fun layout => .liftBind systemWidgetNode_tame fun hostId => ?_
    split
    · refine .liftBind (varNode_tame (h.call.receiver ‹_›)) fun activity => .liftBind addOp_tame fun content => ?_
      split
      · exact .liftBind (varNode_tame (h.site.result ‹_›)) fun _ => operation_tame
      · exact .pure
    · exact unusable_tame
  · exact .pure

theorem recognizeGetListView_tame : Tamed c (recognizeGetListView site call) := by
  refine .program ?_
  split
  · exact .pure
  split
  · rename_i receiver hreceiver
    split
    · refine .liftBind systemWidgetNode_tame fun listId => ?_
      split
      · exact binary_tame (h.call.receiver hreceiver) (h.site.result ‹_›)
      · exact remarked_tame
    · exact .pure
  · exact .pure

theorem recognizers_tame {r : Site → Call → Build Recognition} (hr : r ∈ recognizers) : Tamed c (r site call) := by
  simp only [recognizers, List.mem_cons, List.not_mem_nil, or_false] at hr
  rcases hr with rfl | rfl | rfl | rfl | rfl | rfl | rfl | rfl | rfl | rfl | rfl | rfl | rfl | rfl | rfl
  · exact recognizeInflate_tame h
  · exact recognizeSetContent_tame h
  · exact recognizeFindView_tame h
  · exact recognizeFindInWindow_tame h
  · exact recognizeNavigate_tame h
  · exact recognizeSetRoot_tame h
  · exact recognizeAddChild_tame h
  · exact recognizeIdSetter_tame h
  · exact recognizeIdSetter_tame h
  · exact recognizeListener_tame h.call
  · exact recognizeAddItem_tame h
  · exact recognizeSetTitle_tame h
  · exact recognizeInflateMenu_tame h
  · exact recognizeGetTabHost_tame h
  · exact recognizeGetListView_tame h

omit h in
theorem firstRecognition_tame {rs : List (Site → Call → Build Recognition)} (hrs : ∀ r ∈ rs, Tamed c (r site call)) :
    Tamed c (firstRecognition site call rs) := by
  induction rs with
  | nil => exact .pure
  | cons r rs ih =>
    refine (hrs r List.mem_cons_self).bind fun answer => ?_
    split
    · exact ih fun r hr => hrs r (List.mem_cons_of_mem _ hr)
    · exact .pure

theorem recognize_tame : Tamed c (recognize site call) :=
  firstRecognition_tame fun _ hr => recognizers_tame h hr

end Recognizers

/-! ## New objects -/

theorem allocOnce_tame {object : Obj} {found : NodeId → Edit Unit} (hfound : ∀ n, Tame c (found n)) :
    Tame c (allocOnce site object found) := by
  refine .get fun f _ => ?_
  split
  · exact .pure
  · refine addObject_tame.bind fun n => .bind (modify_tame fun _ => .of_eq rfl) fun _ => ?_
    exact (hfound n).bind fun _ => .pure

theorem dialogNode_tame {cls : String} : Tame c (dialogNode cls site) := by
  refine allocOnce_tame fun n => .program (.bind (.each fun m hm => ?_) fun _ => updateDialog_tame)
  obtain ⟨sub, -, hm⟩ := List.mem_filterMap.mp hm
  exact flowToThis_tame (callback?_mem hm)

theorem allocNode_tame {cls : String} : Tame c (allocNode cls site) := by
  refine .program ?_
  split
  · exact dialogNode_tame
  split
  · exact allocOnce_tame fun _ => viewContextMenu_tame.discard
  refine .read ?_
  split
  · exact allocOnce_tame fun _ => .pure
  · exact allocOnce_tame fun _ => .pure

theorem exprNode_tame {e : Expr} (h : c.project.program.Knows e.locals) : Tame c (exprNode e site) := by
  unfold exprNode
  split
  · exact valueNode_tame h
  · exact valueNode_tame h
  · exact .map allocNode_tame
  · refine allocNode_tame.bind fun n => ?_
    extract_lets answer
    split
    · exact .bind (modify_tame fun _ => .of_eq rfl) fun _ => .pure
    · exact .pure
  · exact .map fieldNode_tame
  · exact .map fieldNode_tame
  all_goals exact .pure

theorem placeNode_tame {place : Place} (h : c.project.program.Knows place.locals) : Tame c (placeNode place) := by
  cases place with
  | var l => exact .map (varNode_tame (h l (by simp [Place.locals])))
  | instanceField _ field => exact .map fieldNode_tame
  | staticField field => exact .map fieldNode_tame
  | arrayWrite _ _ => exact .pure

/-! ## Activities -/

theorem dialogPreparation_tame {activity : String} : Tame c (dialogPreparation activity) := by
  refine .program (.each fun v hv => ?_)
  obtain ⟨m, hm, hv⟩ := List.mem_flatMap.mp hv
  obtain ⟨sub, -, hm⟩ := List.mem_filterMap.mp hm
  refine (valueNode_tame (knows_return (callback?_mem hm) hv)).bind fun dialog => ?_
  split
  · refine .each fun l hl => ?_
    obtain ⟨m, hm, hl⟩ := List.mem_filterMap.mp hl
    obtain ⟨sub, -, hm⟩ := List.mem_filterMap.mp hm
    exact (flowTo_tame (mentions_param (callback?_mem hm) hl)).discard
  · exact .pure

theorem activityCallbacks_tame {cls : String} : Tame c (activityCallbacks cls) := by
  refine activityNode_tame.bind fun activity => dialogPreparation_tame.bind fun _ => ?_
  refine optionsMenu_tame.bind fun _ => contextItemSelection_tame.bind fun _ => .program (.read (.each fun m hm => ?_))
  obtain ⟨sub, -, hm⟩ := List.mem_filterMap.mp hm
  exact flowToThis_tame (callback?_mem hm)

theorem addCallbacks_tame : Tame c addCallbacks := .program (.each fun _ _ => activityCallbacks_tame)

theorem addDefaultList_tame {cls : String} {activity : NodeId} : Tame c (addDefaultList cls activity) := by
  refine .read (systemLayoutNode_tame.bind fun layout => ?_)
  split
  · exact freshVar_tame.bind fun _ => addEdge_tame.discard.bind fun _ => addOp_tame.discard
  · exact remark_tame

theorem addDefaultRoots_tame : Tame c addDefaultRoots := by
  refine .get fun f _ => .each fun x _ => .graph fun g => ?_
  split
  · exact .pure
  refine .program ?_
  split
  · exact addDefaultList_tame
  · exact remark_tame

theorem addListItemClick_tame {cls : String} {activity listId : NodeId} {handler : Method}
    (hm : handler ∈ c.project.program.methods) : Tame c (addListItemClick cls activity handler listId) := by
  refine freshVar_tame.bind fun window => addEdge_tame.discard.bind fun _ => ?_
  refine freshVar_tame.bind fun list => addOp_tame.discard.bind fun _ => ?_
  refine freshVar_tame.bind fun item => addOp_tame.discard.bind fun _ => ?_
  refine addObject_tame.bind fun listener => freshVar_tame.bind fun listenerVar => addEdge_tame.discard.bind fun _ => ?_
  refine (flowToParam_tame hm).bind fun _ => (flowToParam_tame hm).bind fun _ => (flowToThis_tame hm).bind fun _ => ?_
  exact addOp_tame.bind fun _ => registerSynthetic_tame

theorem addListItemClicks_tame : Tame c addListItemClicks := by
  refine .program (.get fun f _ => ?_)
  dsimp only
  split
  · exact .pure
  refine systemWidgetNode_tame.bind fun listId => ?_
  split
  · refine .each fun x hx => ?_
    obtain ⟨y, -, hy⟩ := List.mem_filterMap.mp hx
    obtain ⟨handler, hm, rfl⟩ := Option.map_eq_some_iff.mp hy
    exact addListItemClick_tame (callback?_mem hm)
  · exact remark_tame

/-! ## Lists and their adapters -/

theorem deferListCall_tame (h : c.project.program.Knows site.locals) : Tame c (deferListCall site call) := by
  refine .program ?_
  dsimp only
  split
  · exact (defer_tame h).bind fun _ => .pure
  split
  · split
    · exact (defer_tame h).bind fun _ => .pure
    · split
      · exact (defer_tame h).bind fun _ => .pure
      · exact .pure
  · exact .pure

/-- The calls that are followed from a call are in the program. -/
theorem knows_of_handsOn {p : Program} {d : Call} (h : HandsOn p call d) : p.Knows d.locals := by
  obtain ⟨m, hm, hd⟩ := handsOn_iff.mp h
  obtain ⟨⟨i, hi, hd⟩, -⟩ := (mem_delegations.mp hd).1
  exact Knows.call (s := ⟨m, i⟩) (knows_stmt hm.mem hi) hd

/-- The layouts of a call are written in it or in the constructors that it runs. -/
theorem knows_itemLayoutArgs {p : Program} {v : Value} (hcall : p.Knows call.locals)
    (h : v ∈ itemLayoutArgs p ∅ [call]) : p.Knows v.locals := by
  obtain ⟨_, hmem, last, hreach, hlast⟩ := reach_of_mem_itemLayoutArgs h
  obtain rfl := List.mem_singleton.mp hmem
  rcases hreach.cases_tail with rfl | ⟨d, -, hd⟩
  · exact hcall.arg hlast.2
  · exact (knows_of_handsOn hd).arg hlast.2

theorem recordItemLayouts_tame (h : c.project.program.Knows site.locals) : Tame c (recordItemLayouts site) := by
  unfold recordItemLayouts
  split
  · rename_i call hcall
    have hknows := h.call hcall
    split
    · refine .program ?_
      dsimp only
      split
      · exact .pure
      refine .bind (.filterMapM fun v hv => valueNode_tame ?_) fun nodes => ?_
      · exact knows_itemLayoutArgs hknows hv
      · refine (objectsReaching_tame (hknows.receiver ‹_›)).bind fun adapters => ?_
        exact .each fun _ _ => modify_tame fun _ => .of_eq rfl
    · exact .pure
  · exact .pure

theorem itemLayoutsOf_tame : Tame c (itemLayoutsOf n) := .get fun _ _ => .pure

theorem addReturnedItems_tame {m : Method} (hm : m ∈ c.project.program.methods) :
    Tame c (addReturnedItems n m site) := by
  refine .bind (.each fun item hitem => ?_) fun _ => flowToParam_tame hm
  exact (varNode_tame (mentions_return hm hitem)).bind fun _ => addOp_tame.discard

theorem addAdapterItems_tame {adapter : NodeId} : Tame c (addAdapterItems n site adapter) := by
  refine .graph fun g => ?_
  split
  · refine .program ?_
    split
    · exact addReturnedItems_tame (callback?_mem ‹_›)
    split
    · refine itemLayoutsOf_tame.bind fun layouts => ?_
      extract_lets place addItems
      have hitems : ∀ u, Tame c (addItems u) := fun _ => .each fun layout _ =>
        freshVar_tame.bind fun item => addOp_tame.discard.bind fun _ => addOp_tame.discard
      split
      · exact remark_tame.bind hitems
      · exact hitems ()
    split
    · exact remark_tame
    · exact .pure
  · exact .pure

theorem runSetAdapter_tame (h : c.project.program.Knows site.locals) : Tame c (runSetAdapter site) := by
  unfold runSetAdapter
  split
  · rename_i call hcall
    have hknows := h.call hcall
    split
    · refine (varNode_tame (hknows.receiver ‹_›)).bind fun list => ?_
      exact (objectsReaching_tame (hknows.argVar? ‹_›)).bind fun _ => .each fun _ _ => addAdapterItems_tame
    · exact .pure
  · exact .pure

theorem runGetView_tame (h : c.project.program.Knows site.locals) : Tame c (runGetView site) := by
  unfold runGetView
  split
  · rename_i receiver lhs hreceiver hlhs
    refine (varNode_tame (h.result hlhs)).bind fun result => ?_
    refine (objectsReaching_tame (h.receiver? hreceiver)).bind fun adapters => .each fun adapter _ => .graph fun g => ?_
    split
    · refine .program ?_
      split
      · exact itemLayoutsOf_tame.bind fun _ => .each fun _ _ => addOp_tame.discard
      · exact .pure
    · exact .pure
  · exact .pure

/-- The statements that wait are statements of the program. -/
theorem Pending.sites {f : Flowgraph} {role : Role} (hf : Pending c f) (hs : site ∈ f.sites role) :
    c.project.program.Knows site.locals := by
  obtain ⟨d, hd, rfl⟩ := List.mem_map.mp hs
  exact hf.deferred d (List.mem_filter.mp hd).1

theorem runLists_tame : Tame c runLists := by
  refine .get fun _ h₁ => .bind (.each fun _ hs => recordItemLayouts_tame (h₁.sites hs)) fun _ => ?_
  refine .get fun _ h₂ => .bind (.each fun _ hs => runSetAdapter_tame (h₂.sites hs)) fun _ => ?_
  exact .get fun _ h₃ => .each fun _ hs => runGetView_tame (h₃.sites hs)

/-! ## Receivers -/

/-- A local that calls are grouped by was there before or is the receiver of one of them. -/
theorem mem_of_mem_foldl_byReceiver {step : ExtTreeMap Local (List Site) → Site → ExtTreeMap Local (List Site)}
    (hsome : ∀ m s r, s.receiver? = some r → step m s = m.alter r fun ss => some (ss.getD [] ++ [s]))
    (hnone : ∀ m s, s.receiver? = none → step m s = m) {ss : List Site} {m : ExtTreeMap Local (List Site)}
    (h : l ∈ ss.foldl step m) : (∃ s ∈ ss, s.receiver? = some l) ∨ l ∈ m := by
  induction ss generalizing m with
  | nil => exact .inr h
  | cons s ss ih =>
    rcases ih h with ⟨s', hs', hr⟩ | h
    · exact .inl ⟨s', List.mem_cons_of_mem _ hs', hr⟩
    · cases hr : s.receiver? with
      | some r =>
        rw [hsome m s r hr] at h
        rcases Container.key_mem_alter.mp h with rfl | h
        · exact .inl ⟨s, List.mem_cons_self, hr⟩
        · exact .inr h
      | none =>
        rw [hnone m s hr] at h
        exact .inr h

theorem exists_site_of_mem {f : Flowgraph} {role : Role} (h : l ∈ f.sitesByReceiver role) :
    ∃ s ∈ f.sites role, s.receiver? = some l := by
  refine (mem_of_mem_foldl_byReceiver ?_ ?_ h).resolve_right ExtTreeMap.not_mem_empty
  · intro m s r hr
    rw [hr]
  · intro m s hr
    rw [hr]

/-- The receivers and their calls are in the program. -/
theorem Pending.receivers {f : Flowgraph} {role : Role} {sites : List Site} (hf : Pending c f)
    (h : (l, sites) ∈ (f.sitesByReceiver role).toList) :
    c.project.program.Mentions l ∧ ∀ s ∈ sites, c.project.program.Knows s.locals := by
  have hget := ExtTreeMap.mem_toList_iff_getElem?_eq_some.mp h
  constructor
  · obtain ⟨s, hs, hr⟩ := exists_site_of_mem (ExtTreeMap.mem_iff_isSome_getElem?.mpr (Option.isSome_of_eq_some hget))
    exact (hf.sites hs).receiver? hr
  · intro s hs
    have hmem : s ∈ (f.sitesByReceiver role).getD l [] := by
      rw [ExtTreeMap.getD_eq_getD_getElem?, hget]
      exact hs
    exact hf.sites (mem_sitesByReceiver.mp hmem).1

/-- The calls of the objects are in the program. -/
def Grouped (c : Context) (calls : ExtTreeMap NodeId (List Site)) : Prop :=
  ∀ n, ∀ s ∈ calls.getD n [], c.project.program.Knows s.locals

theorem Grouped.toList {calls : ExtTreeMap NodeId (List Site)} {sites : List Site} (h : Grouped c calls)
    (hmem : (n, sites) ∈ calls.toList) : ∀ s ∈ sites, c.project.program.Knows s.locals := by
  have hget := ExtTreeMap.mem_toList_iff_getElem?_eq_some.mp hmem
  have hcalls := h n
  rw [ExtTreeMap.getD_eq_getD_getElem?, hget] at hcalls
  exact hcalls

theorem resolveReceivers_groups {f : Flowgraph} {role : Role} {p : Obj → Bool} (hf : Underway c f) :
    Does (Stays c) c f (resolveReceivers role p) fun calls _ => Grouped c calls := by
  refine .read rfl (.foldlM (fun n s hs => by simp at hs) fun calls x hx f₁ h₁ hcalls => ?_)
  obtain ⟨receiver, sites⟩ := x
  obtain ⟨hreceiver, hsites⟩ := (hf.elim fun _ h => h.pending).receivers hx
  refine .bind ((objectsReaching_tame hreceiver).does f₁ (h₁ hf)) fun reaching f₂ h₂ _ => .read rfl ?_
  -- the calls of the receiver are added to those of its objects
  have hadded : ∀ ns : List NodeId,
      Grouped c (ns.foldl (fun m n => m.alter n fun ss => some (ss.getD [] ++ sites)) calls) := by
    intro ns n s hs
    rcases Container.mem_getD_foldl_alter_append.mp hs with ⟨-, hs⟩ | hs
    · exact hsites s hs
    · exact hcalls n s hs
  dsimp only
  split
  · exact .bind (remark_tame.does f₂ (h₂ (h₁ hf))) fun _ _ _ _ => .pure (hadded _)
  · exact .pure (hadded _)

theorem resolveReceivers_tame {α : Type} {role : Role} {p : Obj → Bool} {k : ExtTreeMap NodeId (List Site) → Edit α}
    (hk : ∀ calls, Grouped c calls → Tame c (k calls)) : Tame c (resolveReceivers role p >>= k) :=
  ⟨fun _ hf => .bind (resolveReceivers_groups hf) fun calls f' h hcalls => (hk calls hcalls).does f' (h hf)⟩

theorem resolveReceivers_tamed {α : Type} {role : Role} {p : Obj → Bool} {k : ExtTreeMap NodeId (List Site) → Build α}
    (hk : ∀ calls, Grouped c calls → Tamed c (k calls)) :
    Tamed c ((liftM (resolveReceivers role p) : Build _) >>= k) :=
  ⟨fun _ hf => .bind (.lift (resolveReceivers_groups hf)) fun calls f' h hcalls => (hk calls hcalls).tries f' (h hf)⟩

/-! ## Dialogs -/

theorem deferDialogCall_tame (h : c.project.program.Knows site.locals) : Tame c (deferDialogCall site call) := by
  have hdefer : ∀ role, Tame c (do defer role site; return true) := fun _ => (defer_tame h).bind fun _ => .pure
  unfold deferDialogCall
  split
  · refine .program ?_
    dsimp only
    split
    · split
      · exact .pure
      split
      · exact hdefer _
      split
      · exact hdefer _
      split
      · exact hdefer _
      · exact .pure
    · split
      · split
        · exact hdefer _
        split
        · exact hdefer _
        · exact .pure
      · exact .pure
  · exact .pure

theorem deferBuilderCall_tame (h : c.project.program.KnowsCall site call) : Tame c (deferBuilderCall site call) := by
  unfold deferBuilderCall
  split
  · split
    · exact .program .pure
    dsimp only
    split
    · refine (defer_tame h.site).bind fun _ => ?_
      split
      · refine (varNode_tame (h.call.receiver ‹_›)).bind fun _ => ?_
        exact (flowTo_tame (h.site.result ‹_›)).discard.bind fun _ => .pure
      · exact .pure
    split
    · exact (defer_tame h.site).bind fun _ => .pure
    · exact .pure
  · exact .pure

theorem dialogVar_tame {dialog : NodeId} : Tame c (dialogVar dialog) := by
  refine .get fun f _ => ?_
  split
  · exact .pure
  · refine freshVar_tame.bind fun var => addEdge_tame.discard.bind fun _ => ?_
    exact .bind (modify_tame fun _ => .of_eq rfl) fun _ => .pure

theorem findSystemWidget_tame {window : NodeId} {name cls : String} {place : CallSite} :
    Tame c (findSystemWidget window name cls place) := by
  refine systemWidgetNode_tame.bind fun id => ?_
  split
  · exact freshVar_tame.bind fun _ => addOp_tame.discard.bind fun _ => .pure
  · exact remark_tame.bind fun _ => .pure

theorem dialogCustomLayout_tame {dialog layout : NodeId} : Tame c (dialogCustomLayout dialog layout site) := by
  refine dialogVar_tame.bind fun window => findSystemWidget_tame.bind fun custom => ?_
  split
  · exact freshVar_tame.bind fun view => addOp_tame.discard.bind fun _ => addOp_tame.discard
  · exact .pure

theorem dialogSetView_tame {dialog : NodeId} {view : Option Value}
    (h : ∀ v, view = some v → c.project.program.Knows v.locals) : Tamed c (dialogSetView dialog site view) := by
  unfold dialogSetView
  split
  · exact .pure
  · exact .pure
  · refine .liftBind dialogVar_tame fun window => .liftBind findSystemWidget_tame fun custom => ?_
    split
    · exact .liftBind (varNode_tame (knows_var.mp (h _ rfl))) fun _ => .lift addOp_tame.discard
    · exact .pure
  · refine .liftBind knownIdNode_tame fun layout => ?_
    split
    · refine .graph fun g => ?_
      split
      · exact .lift dialogCustomLayout_tame
      · exact .lift remark_tame
    · exact .lift remark_tame
  · exact report_tamed

theorem dialogContent_tame {dialog : NodeId} : Tame c (dialogContent dialog site) := by
  refine systemLayoutNode_tame.bind fun layout => ?_
  split
  · exact dialogVar_tame.bind fun window => addOp_tame.discard
  · exact remark_tame

theorem pickerContent_tame {dialog : NodeId} {layoutName : String} : Tame c (pickerContent dialog layoutName site) := by
  refine dialogVar_tame.bind fun window => findSystemWidget_tame.discard.bind fun _ => ?_
  refine systemLayoutNode_tame.bind fun layout => ?_
  split
  · exact dialogCustomLayout_tame
  · exact remark_tame

theorem showDialog_tame {dialog : NodeId} : Tame c (showDialog dialog site) := by
  refine updateDialog_tame.bind fun _ => .graph fun g => ?_
  split
  · refine .program ?_
    split
    · exact .pure
    refine .get fun f _ => ?_
    split
    · exact .pure
    refine .bind (modify_tame fun _ => .of_eq rfl) fun _ => dialogContent_tame.bind fun _ => ?_
    split
    · exact pickerContent_tame
    · exact .pure
  · exact .pure

theorem bindDialogHandlers_tame {dialog : NodeId} {listener : Option Value} {sub : String}
    (h : ∀ v, listener = some v → c.project.program.Knows v.locals) :
    Tame c (bindDialogHandlers dialog listener sub) := by
  refine .bind (objectsReaching?_tame fun l hl => ?_) fun objects => .program (.graph fun g => ?_)
  · obtain ⟨v, hv, hl⟩ := Option.bind_eq_some_iff.mp hl
    exact (h v hv).var? hl
  · refine .bind (.each fun x hx => ?_) fun _ => .pure
    obtain ⟨n, -, hx⟩ := List.mem_filterMap.mp hx
    obtain ⟨o, -, hx⟩ := Option.bind_eq_some_iff.mp hx
    obtain ⟨m, hm, hx⟩ := Option.bind_eq_some_iff.mp hx
    cases hx
    exact (flowToThis_tame (callback?_mem hm)).bind fun _ => flowToParam_tame (callback?_mem hm)

theorem dialogListener_tame {dialog : NodeId} {listener : Option Value} {sub : String}
    (h : ∀ v, listener = some v → c.project.program.Knows v.locals) : Tame c (dialogListener dialog listener sub) := by
  refine (bindDialogHandlers_tame h).bind fun methods => ?_
  split
  · exact .pure
  · exact updateDialog_tame

theorem dialogButton_tame {dialog : NodeId} {which : Nat} {listener : Option Value}
    (h : ∀ v, listener = some v → c.project.program.Knows v.locals) :
    Tame c (dialogButton dialog which listener site) := by
  refine dialogVar_tame.bind fun window => findSystemWidget_tame.bind fun button => ?_
  split
  · refine (bindDialogHandlers_tame h).bind fun methods => addObject_tame.bind fun object => ?_
    refine freshVar_tame.bind fun listenerVar => addEdge_tame.discard.bind fun _ => addOp_tame.bind fun op => ?_
    exact registerSynthetic_tame.bind fun _ => updateDialog_tame
  · exact .pure

theorem applySetter_tame {dialog : NodeId} {onBuilder : Bool} (h : c.project.program.Knows call.locals) :
    Tamed c (applySetter dialog site call onBuilder) := by
  have harg : ∀ i v, call.arg? i = some v → c.project.program.Knows v.locals := fun _ _ hv => h.arg hv
  have hlistener : ∀ sub, Tamed c (liftM (dialogListener dialog (call.arg? 0) sub)) :=
    fun _ => .lift (dialogListener_tame (harg 0))
  have hbutton : ∀ which, Tamed c (liftM (dialogButton dialog which (call.arg? 1) site)) :=
    fun _ => .lift (dialogButton_tame (harg 1))
  unfold applySetter
  refine .ite (hlistener _) (.ite (hlistener _) (.ite (hlistener _) (.ite (hlistener _) ?_)))
  refine .ite (dialogSetView_tame (harg 0)) (.ite (.ite (.lift (updateNode_tame notCancelable_alike)) .pure) ?_)
  refine .ite (.ite (hbutton _) (.ite (hbutton _) (.ite (hbutton _) .pure))) (.ite (.ite ?_ .pure) .pure)
  split
  · exact .lift (dialogButton_tame fun v hv => h.value (List.mem_of_getLast? hv))
  · exact .pure

theorem applySetters_tame {dialog : NodeId} {sites : List Site} {onBuilder : Bool}
    (h : ∀ s ∈ sites, c.project.program.Knows s.locals) : Tamed c (applySetters dialog sites onBuilder) := by
  refine .each fun s hs => ?_
  split
  · exact applySetter_tame ((h s hs).call ‹_›)
  · exact .pure

theorem runBuilders_tame : Tamed c runBuilders := by
  refine resolveReceivers_tamed fun creates hcreates => resolveReceivers_tamed fun setters hsetters => ?_
  refine .each fun x hx => .each fun s hs => .liftBind dialogNode_tame fun dialog => ?_
  obtain ⟨builder, sites⟩ := x
  extract_lets fill
  have hfill : ∀ u, Tamed c (fill u) := by
    intro u
    refine (applySetters_tame (hsetters builder)).bind fun _ => ?_
    split
    · exact .lift showDialog_tame
    · exact .pure
  split
  · exact .liftBind (flowTo_tame ((hcreates.toList hx s hs).result ‹_›)).discard hfill
  · exact hfill ()

theorem dialogsOfActivity_tame (h : c.project.program.Knows site.locals) : Tame c (dialogsOfActivity site) := by
  unfold dialogsOfActivity
  split
  · refine (objectsReaching_tame (h.receiver? ‹_›)).bind fun reaching => .graph fun g => .program ?_
    refine .bind (.foldlM fun found l hl => ?_) fun _ => .pure
    obtain ⟨cls, -, hl⟩ := List.mem_flatMap.mp hl
    obtain ⟨m, hm, hl⟩ := List.mem_flatMap.mp hl
    obtain ⟨sub, -, hm⟩ := List.mem_filterMap.mp hm
    exact (objectsReaching_tame (mentions_return (callback?_mem hm) hl)).bind fun _ => .graph fun _ => .pure
  · exact .pure

theorem runActivityDialogs_tame {role : Role} {act : NodeId → Site → Edit Unit} (hact : ∀ d s, Tame c (act d s)) :
    Tame c (runActivityDialogs role act) := by
  refine .get fun f hf => .each fun s hs => (dialogsOfActivity_tame (hf.sites hs)).bind fun dialogs => ?_
  dsimp only
  split
  · exact remark_tame.bind fun _ => .each fun d _ => hact d s
  · exact .each fun d _ => hact d s

theorem runDialogs_tame : Tamed c runDialogs := by
  refine runBuilders_tame.bind fun _ => resolveReceivers_tamed fun shows _ => ?_
  refine .bind (.each fun _ _ => .each fun _ _ => .lift showDialog_tame) fun _ => ?_
  refine resolveReceivers_tamed fun dismisses _ => .bind (.each fun _ _ => .lift updateDialog_tame) fun _ => ?_
  refine resolveReceivers_tamed fun setters hsetters => ?_
  refine .bind (.each fun x hx => applySetters_tame (hsetters.toList hx)) fun _ => ?_
  refine .liftBind (runActivityDialogs_tame fun _ _ => showDialog_tame) fun _ => ?_
  exact .lift (runActivityDialogs_tame fun _ _ => updateDialog_tame)

/-! ## Tabs -/

theorem deferTabCall_tame (h : c.project.program.KnowsCall site call) : Tamed c (deferTabCall site call) := by
  unfold deferTabCall
  split
  · refine .program ?_
    dsimp only
    split
    · split
      · split
        · exact .lift (defer_tame h.site)
        · exact .pure
        · exact report_tamed
      split
      · split
        · refine .liftBind (allocOnce_tame fun _ => .pure) fun _ => ?_
          exact .lift (flowTo_tame (h.site.result ‹_›)).discard
        · exact .pure
      · exact .pure
    split
    · split
      · refine .liftBind (defer_tame h.site) fun _ => ?_
        split
        · refine .liftBind (varNode_tame (h.call.receiver ‹_›)) fun _ => ?_
          exact .lift (flowTo_tame (h.site.result ‹_›)).discard
        · exact .pure
      · exact .pure
    · exact .pure
  · exact .pure

theorem tabIndicator_tame (h : c.project.program.Knows site.locals) : Tame c (tabIndicator site) := by
  unfold tabIndicator
  split
  · rename_i call hcall
    have hknows := h.call hcall
    split
    · split
      · exact .map (varNode_tame (hknows.argVar? ‹_›))
      · exact .pure
    · refine systemLayoutNode_tame.bind fun layout => ?_
      extract_lets place label
      have hlabel : ∀ l, Tame c (label l) := by
        intro l
        dsimp -zeta only [label]
        split
        · refine freshVar_tame.bind fun indicator => addOp_tame.discard.bind fun _ => ?_
          refine (valueNode?_tame fun v hv => hknows.arg hv).bind fun text => ?_
          extract_lets answer
          split
          · exact addOp_tame.discard.bind fun _ => .pure
          · exact .pure
        · exact remark_tame.bind fun _ => .pure
      split
      · exact .bind .pure hlabel
      · exact systemLayoutNode_tame.bind hlabel
  · exact .pure

theorem factoryContents_tame {factory : Local} (h : c.project.program.Mentions factory) :
    Tame c (factoryContents factory) := by
  refine (objectsReaching_tame h).bind fun objects => .program (.graph fun g => ?_)
  refine .bind (.mapM fun n _ => ?_) fun _ => .pure
  split
  · rename_i create hcreate
    obtain ⟨o, -, hm⟩ := Option.bind_eq_some_iff.mp hcreate
    refine (flowToThis_tame (callback?_mem hm)).bind fun _ => .mapM fun l hl => ?_
    exact varNode_tame (mentions_return (callback?_mem hm) hl)
  · exact .pure

theorem tabContent_tame {views : TabViews} (h : c.project.program.Knows site.locals) :
    Tame c (tabContent views site) := by
  unfold tabContent
  split
  · rename_i call hcall
    have hknows := h.call hcall
    dsimp only
    split
    · refine (valueNode?_tame fun v hv => hknows.arg hv).bind fun id => ?_
      split
      · refine .graph fun g => ?_
        split
        · exact .pure
        · exact freshVar_tame.bind fun _ => addOp_tame.discard.bind fun _ => .pure
      · exact remark_tame.bind fun _ => .pure
    split
    · split
      · exact (factoryContents_tame (hknows.argVar? ‹_›)).bind fun _ => .pure
      · exact .pure
    · exact remark_tame.bind fun _ => .pure
  · exact .pure

theorem addToTabHost_tame {host : NodeId} {views : List NodeId} {name cls : String} {origin : Synthesis} :
    Tame c (addToTabHost host views name cls origin site) := by
  have hfind : Tame c (findInTabHost host name cls site) := by
    refine systemWidgetNode_tame.bind fun id => ?_
    split
    · exact freshVar_tame.bind fun _ => addOp_tame.discard.bind fun _ => .pure
    · exact remark_tame.bind fun _ => .pure
  unfold addToTabHost
  split
  · exact .pure
  refine hfind.bind fun parent => ?_
  split
  · exact .each fun _ _ => addOp_tame.discard
  · exact .pure

theorem addTab_tame {host : NodeId} {views : TabViews} : Tame c (addTab host views site) := by
  refine addToTabHost_tame.bind fun _ => addToTabHost_tame.bind fun _ => .each fun x _ => ?_
  exact freshVar_tame.bind fun _ => addOp_tame.discard

theorem tabViews_tame : Tame c tabViews := by
  refine resolveReceivers_tame fun indicators hindicators => ?_
  refine .bind (.foldlM fun views x hx => ?_) fun views => resolveReceivers_tame fun contents hcontents => ?_
  · exact .bind (.filterMapM fun s hs => tabIndicator_tame (hindicators.toList hx s hs)) fun _ => .pure
  · refine .foldlM fun views x hx => ?_
    exact .bind (.foldlM fun _ s hs => tabContent_tame (hcontents.toList hx s hs)) fun _ => .pure

theorem runTabs_tame : Tame c runTabs := by
  refine tabViews_tame.bind fun views => .get fun f hf => .each fun s hs => ?_
  have hknows := hf.sites hs
  split
  · rename_i host spec hhost hspec
    obtain ⟨v, hv, hspec⟩ := Option.bind_eq_some_iff.mp hspec
    obtain ⟨call, hcall, harg⟩ := Option.bind_eq_some_iff.mp hv
    refine (varNode_tame (hknows.receiver? hhost)).bind fun hostVar => ?_
    refine (objectsReaching_tame (((hknows.call hcall).arg harg).var? hspec)).bind fun reaching => .graph fun g => ?_
    dsimp only
    split
    · exact remark_tame.bind fun _ => .each fun _ _ => addTab_tame
    · exact .each fun _ _ => addTab_tame
  · exact .pure

/-! ## Statements -/

theorem deferCall_tame (h : c.project.program.KnowsCall site call) : Tamed c (deferCall site call) := by
  refine .liftBind (deferListCall_tame h.site) fun _ => ?_
  split
  · exact .pure
  refine .liftBind (deferDialogCall_tame h.site) fun _ => ?_
  split
  · exact .pure
  refine .liftBind (deferBuilderCall_tame h) fun _ => ?_
  split
  · exact .pure
  · exact deferTabCall_tame h

theorem flowValue_tame {v : Value} (hv : c.project.program.Knows v.locals) (hl : c.project.program.Mentions l) :
    Tame c (flowValue v l site) := by
  refine (valueNode_tame hv).bind fun n => ?_
  split
  · exact (flowTo_tame hl).discard
  · exact .pure

theorem bindCall_tame {m : Method} (h : c.project.program.KnowsCall site call) (hm : m ∈ c.project.program.methods) :
    Tame c (bindCall site call m) := by
  unfold bindCall
  extract_lets bindArgs
  have hargs : ∀ u, Tame c (bindArgs u) := by
    intro u
    refine .bind (.each fun x hx => ?_) fun _ => ?_
    · obtain ⟨arg, i⟩ := x
      dsimp only
      split
      · rename_i formal hformal
        refine flowValue_tame (h.call.value (List.fst_mem_of_mem_zipIdx hx)) ?_
        exact mentions_param hm (Option.filter_eq_some_iff.mp hformal).1
      · exact .pure
    · split
      · rename_i lhs hlhs
        refine .each fun v hv => flowValue_tame (knows_return hm hv) ?_
        exact h.site.result (Option.filter_eq_some_iff.mp hlhs).1
      · exact .pure
  split
  · rename_i receiver this hreceiver hthis
    refine (flowValue_tame (knows_var.mpr (h.call.receiver hreceiver)) ?_).bind hargs
    exact mentions_this hm (Option.filter_eq_some_iff.mp hthis).1
  · exact hargs ()

theorem callees_mem {p : Program} {signature : String} {m : Method} (h : (signature, m) ∈ (callees p call).toList) :
    m ∈ p.methods := by
  unfold callees at h
  extract_lets sub cls methods at h
  rw [ExtTreeMap.mem_toList_iff_getElem?_eq_some, ExtTreeMap.getElem?_filter', Option.filter_eq_some_iff,
    ← ExtTreeMap.mem_toList_iff_getElem?_eq_some] at h
  obtain ⟨m', hm, he⟩ := List.mem_map.mp (Container.mem_of_mem_toList_ofList h.1)
  cases he
  dsimp only [methods] at hm
  split at hm
  · obtain ⟨k, -, hm⟩ := List.mem_filterMap.mp hm
    exact resolveVirtual_mem hm
  · exact resolveSpecial_mem (Option.mem_toList.mp hm)

theorem addCall_tame (h : c.project.program.KnowsCall site call) : Tamed c (addCall site call) := by
  refine (recognize_tame h).bind fun answer => ?_
  split
  · exact .pure
  · exact .pure
  · refine (deferCall_tame h).bind fun _ => .program (.each fun x hx => .lift ?_)
    exact bindCall_tame h (callees_mem hx)

theorem runMethod?_mem {p : Program} {e : Expr} {m : Method} (h : runMethod? p e = some m) : m ∈ p.methods := by
  cases e with
  | new cls =>
    obtain ⟨k, hk, hm⟩ := Option.bind_eq_some_iff.mp (Option.filter_eq_some_iff.mp h).1
    exact mem_methods_of_declared? hk hm
  | _ => cases h

theorem addAssignment_tame {lhs : Place} {rhs : Expr} (h : c.project.program.Knows site.locals)
    (hs : site.instr.stmt = .assign lhs rhs) : Tame c (addAssignment site lhs rhs) := by
  have hsides : c.project.program.Knows (lhs.locals ++ rhs.locals) := by
    rw [Site.locals, hs] at h
    exact h
  unfold addAssignment
  split
  · exact .pure
  split
  · exact .pure
  · exact .pure
  · exact .pure
  · exact defer_tame h
  · exact defer_tame h
  · refine (exprNode_tame fun l hl => hsides l (List.mem_append_right _ hl)).bind fun source => ?_
    refine (placeNode_tame fun l hl => hsides l (List.mem_append_left _ hl)).bind fun target => ?_
    split
    · refine addEdge_tame.discard.bind fun _ => .program ?_
      split
      · rename_i this hthis
        obtain ⟨m, hm, hthis⟩ := Option.bind_eq_some_iff.mp hthis
        exact (flowTo_tame (mentions_this (runMethod?_mem hm) hthis)).discard
      · exact .pure
    · exact .pure

theorem sitesOn_mem {f : Flowgraph} {role : Role} {ls : List Local} (h : site ∈ f.sitesOn role ls) :
    site ∈ f.sites role := by
  obtain ⟨l, -, h⟩ := List.mem_flatMap.mp h
  exact (List.mem_filter.mp h).1

theorem linkArray_tame {array : NodeId} : Tame c (linkArray array) := by
  refine .get fun f hf => .each fun w hw => ?_
  have hwrite := hf.sites (sitesOn_mem hw)
  split
  · rename_i lhs rhs hs
    rw [Site.locals, hs] at hwrite
    refine (exprNode_tame fun l hl => hwrite l (List.mem_append_right _ hl)).bind fun source => ?_
    split
    · refine .each fun r hr => ?_
      have hread := hf.sites (sitesOn_mem hr)
      split
      · rename_i target rhs hs
        rw [Site.locals, hs] at hread
        exact (flowTo_tame (hread target (by simp [Stmt.locals, Place.locals]))).discard
      · exact .pure
    · exact .pure
  · exact .pure

theorem linkArrays_tame : Tame c linkArrays := .get fun _ _ => .each fun _ _ => linkArray_tame

theorem addStmt_tame (h : c.project.program.Knows site.locals) : Tamed c (addStmt site) := by
  unfold addStmt
  split
  · exact addCall_tame (h.knowsCall ‹_›)
  · exact .lift (addAssignment_tame h ‹_›)
  · exact .pure

theorem addStmts_tame : Tamed c addStmts := by
  refine .program (.each fun m hm => .each fun i hi => addStmt_tame ?_)
  exact knows_stmt (mem_methods_of_application hm) hi

/-! ## The whole -/

theorem construct_tame : Tamed c construct := by
  refine .liftBind createIdNodes_tame fun _ => .liftBind addCallbacks_tame fun _ => addStmts_tame.bind fun _ => ?_
  refine .liftBind linkArrays_tame fun _ => runDialogs_tame.bind fun _ => .liftBind addDefaultRoots_tame fun _ => ?_
  refine .liftBind addListItemClicks_tame fun _ => .liftBind runLists_tame fun _ => .liftBind runTabs_tame fun _ => ?_
  exact .liftBind runMenuTasks_tame fun _ => .graph fun _ => .lift remark_tame

end WidgetFlow.Flowgraph
