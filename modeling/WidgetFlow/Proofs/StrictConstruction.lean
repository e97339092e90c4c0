import WidgetFlow.Flowgraph.Construction
import WidgetFlow.Proofs.StrictBuilding

/-!
# Strict and lenient construction, as a whole

The recognisers, new objects, lists, dialogs, tabs, assignments and calls, each function followed once. A strict
construction ends at the first violation that the lenient one logs, and is the lenient one if there is none
(`construct_fair`). All but the showing of dialogs is routine.
-/

namespace WidgetFlow.Flowgraph

open Std

variable {c : Context} {f : Flowgraph} {site : Site} {call : Call}

/-! ## Operands -/

theorem idOperand_calm {v : Value} : Calm Routine (idOperand v) := by
  cases v with
  | var l => exact .map varNode_calm
  | int n => exact knownIdNode_calm
  | str | null | other => exact .pure

/-- A new operation, which is the answer. -/
theorem operation_fair {k : OpKind} {place : CallSite} {r p s : Option NodeId} (hk : isSimpleOp k place = true) :
    Fair Routine (do let op ← addOp k place r p s; return Recognition.operation op) :=
  .liftBind (addOp_calm hk) fun _ => .pure

/-- An operation on the nodes of two locals. -/
theorem binary_fair {l m : Local} {k : OpKind} {place : CallSite} {r p s : NodeId → NodeId → Option NodeId}
    (hk : isSimpleOp k place = true) :
    Fair Routine (do
      let a ← varNode l
      let b ← varNode m
      let op ← addOp k place (r a b) (p a b) (s a b)
      return Recognition.operation op) :=
  .liftBind varNode_calm fun _ => .liftBind varNode_calm fun _ => operation_fair hk

/-- A remark, after which the call is answered. -/
theorem remarked_fair {r : Remark} {l : Option Label} {answer : Recognition} :
    Fair Routine (do remark r l; return answer) :=
  .liftBind remark_calm fun _ => .pure

/-! ## Layouts and content -/

theorem recognizeInflate_fair : Fair Routine (recognizeInflate site call) := by
  unfold recognizeInflate
  apply Fair.liftBind program_calm
  intro p
  split
  · split
    · exact .pure
    apply Fair.liftBind idOperand_calm
    intro layout
    split
    · split
      · apply Fair.liftBind freshVar_calm
        intro view
        apply Fair.liftBind (addOp_calm rfl)
        intro op
        apply Fair.liftBind varNode_calm
        intro root
        apply Fair.liftBind (addOp_calm rfl).discard
        intro _
        extract_lets answer
        split
        · exact .liftBind flowTo_calm.discard fun _ => .pure
        · exact .pure
      · exact .liftBind varNode_calm fun _ => operation_fair rfl
      · exact .pure
    · exact .pure
  · exact .pure

theorem recognizeSetContent_fair : Fair Routine (recognizeSetContent site call) := by
  unfold recognizeSetContent
  apply Fair.liftBind program_calm
  intro p
  split
  · exact .pure
  split
  · split
    · exact .pure
    apply Fair.liftBind idOperand_calm
    intro layout
    split
    · exact .liftBind varNode_calm fun _ => operation_fair rfl
    · exact .pure
  · exact .pure

theorem recognizeSetRoot_fair : Fair Routine (recognizeSetRoot site call) := by
  unfold recognizeSetRoot
  apply Fair.liftBind program_calm
  intro p
  split
  · exact .pure
  split
  · exact binary_fair rfl
  · exact .pure
  · exact .pure

theorem recognizeAddChild_fair : Fair Routine (recognizeAddChild site call) := by
  unfold recognizeAddChild
  apply Fair.liftBind program_calm
  intro p
  split
  · exact .pure
  split
  · exact binary_fair rfl
  · exact .pure
  · exact .pure

/-! ## Look-up -/

theorem find_fair {receiver lhs : Local} {query : FindQuery} {id : NodeId} :
    Fair Routine (recognizeFindView.find site receiver lhs query id) :=
  binary_fair rfl

theorem recognizeFindView_fair : Fair Routine (recognizeFindView site call) := by
  unfold recognizeFindView
  apply Fair.liftBind program_calm
  intro p
  dsimp only
  split
  · split
    · split
      · split
        · apply Fair.liftBind knownIdNode_calm
          intro known
          split
          · exact .bind .pure fun _ => find_fair
          · exact .liftBind widgetIdNode_calm fun _ => find_fair
        · exact .pure
        · apply Fair.liftBind idOperand_calm
          intro id
          split
          · exact find_fair
          · exact remarked_fair
      · exact .pure
    · exact .pure
  · exact .pure

theorem recognizeFindInWindow_fair : Fair Routine (recognizeFindInWindow site call) := by
  unfold recognizeFindInWindow
  apply Fair.liftBind program_calm
  intro p
  split
  · exact .pure
  split
  · split
    · apply Fair.liftBind idOperand_calm
      intro id
      split
      · exact binary_fair rfl
      · exact remarked_fair
    · exact .pure
  · exact .pure

theorem recognizeNavigate_fair : Fair Routine (recognizeNavigate site call) := by
  unfold recognizeNavigate
  apply Fair.liftBind program_calm
  intro p
  split
  · split
    · exact .pure
    · split
      · split
        · exact binary_fair rfl
        · exact .pure
      · exact .pure
  · exact .pure

/-! ## Attributes -/

theorem recognizeIdSetter_fair {kind : OpKind} {sub : String} (hk : isSimpleOp kind site.callSite = true) :
    Fair Routine (recognizeIdSetter kind sub site call) := by
  unfold recognizeIdSetter
  apply Fair.liftBind program_calm
  intro p
  split
  · exact .pure
  split
  · split
    · exact .pure
    apply Fair.liftBind idOperand_calm
    intro id
    split
    · exact .liftBind varNode_calm fun _ => operation_fair hk
    · exact remarked_fair
  · exact .pure

/-! ## Menus -/

theorem recognizeAddItem_fair : Fair Routine (recognizeAddItem site call) := by
  unfold recognizeAddItem
  apply Fair.liftBind program_calm
  intro p
  split
  · exact .pure
  split
  · apply get_fair.bind
    intro f
    extract_lets addItem
    -- from the item on, nothing depends on whether it is new
    have haddItem : ∀ item, Fair Routine (addItem item) := by
      intro item
      dsimp -zeta only [addItem]
      extract_lets link
      have hlink : ∀ v, Fair Routine (link v) := by
        intro v
        apply Fair.liftBind addEdge_calm.discard
        intro _
        extract_lets operate
        have hoperate : ∀ u, Fair Routine (operate u) := by
          intro u
          apply Fair.liftBind varNode_calm
          intro menu
          apply Fair.liftBind (addOp_calm rfl)
          intro op
          apply Fair.liftBind valueNode?_calm
          intro title
          extract_lets answer
          split
          · exact .liftBind (addOp_calm rfl).discard fun _ => .pure
          · exact .pure
        split
        · split
          · apply Fair.liftBind widgetIdNode_calm
            intro id
            exact .liftBind (updateNode_calm fun _ => .refl _) hoperate
          · exact hoperate ()
        · exact hoperate ()
      split
      · exact .liftBind varNode_calm hlink
      · exact .liftBind freshVar_calm hlink
    split
    · exact .bind .pure haddItem
    · apply Fair.liftBind (addNode_calm rfl)
      intro item
      refine .bind (modify_fair fun _ => .of_eq rfl) fun _ => ?_
      exact .bind .pure haddItem
  · exact .pure

theorem recognizeSetTitle_fair : Fair Routine (recognizeSetTitle site call) := by
  unfold recognizeSetTitle
  apply Fair.liftBind program_calm
  intro p
  split
  · exact .pure
  split
  · apply Fair.liftBind valueNode?_calm
    intro title
    split
    · apply Fair.liftBind varNode_calm
      intro item
      apply Fair.liftBind (addOp_calm rfl)
      intro op
      extract_lets answer
      split
      · exact .liftBind flowTo_calm.discard fun _ => .pure
      · exact .pure
    · exact .pure
  · exact .pure

theorem recognizeInflateMenu_fair : Fair Routine (recognizeInflateMenu site call) := by
  unfold recognizeInflateMenu
  apply Fair.liftBind program_calm
  intro p
  split
  · exact .pure
  split
  · split
    · exact .pure
    apply Fair.liftBind idOperand_calm
    intro id
    split
    · exact .liftBind varNode_calm fun _ => operation_fair rfl
    · exact .pure
  · exact .pure
  · exact .pure

/-! ## Activities with tabs or a list -/

theorem recognizeGetTabHost_fair : Fair Routine (recognizeGetTabHost site call) := by
  unfold recognizeGetTabHost
  split
  · exact .pure
  split
  · apply Fair.liftBind program_calm
    intro p
    split
    · exact .pure
    apply Fair.liftBind systemLayoutNode_calm
    intro layout
    apply Fair.liftBind systemWidgetNode_calm
    intro hostId
    split
    · apply Fair.liftBind varNode_calm
      intro activity
      apply Fair.liftBind (addOp_calm rfl)
      intro content
      split
      · exact .liftBind varNode_calm fun _ => operation_fair rfl
      · exact .pure
    · exact unusable_fair
  · exact .pure

theorem recognizeGetListView_fair : Fair Routine (recognizeGetListView site call) := by
  unfold recognizeGetListView
  apply Fair.liftBind program_calm
  intro p
  split
  · exact .pure
  split
  · split
    · apply Fair.liftBind systemWidgetNode_calm
      intro listId
      split
      · exact binary_fair rfl
      · exact remarked_fair
    · exact .pure
  · exact .pure

/-! ## All shapes -/

theorem recognizers_fair {r : Site → Call → Build Recognition} (hr : r ∈ recognizers) : Fair Routine (r site call) := by
  simp only [recognizers, List.mem_cons, List.not_mem_nil, or_false] at hr
  rcases hr with rfl | rfl | rfl | rfl | rfl | rfl | rfl | rfl | rfl | rfl | rfl | rfl | rfl | rfl | rfl
  · exact recognizeInflate_fair
  · exact recognizeSetContent_fair
  · exact recognizeFindView_fair
  · exact recognizeFindInWindow_fair
  · exact recognizeNavigate_fair
  · exact recognizeSetRoot_fair
  · exact recognizeAddChild_fair
  · exact recognizeIdSetter_fair rfl
  · exact recognizeIdSetter_fair rfl
  · exact recognizeListener_fair
  · exact recognizeAddItem_fair
  · exact recognizeSetTitle_fair
  · exact recognizeInflateMenu_fair
  · exact recognizeGetTabHost_fair
  · exact recognizeGetListView_fair

theorem firstRecognition_fair {rs : List (Site → Call → Build Recognition)} (hrs : ∀ r ∈ rs, Fair Routine (r site call)) :
    Fair Routine (firstRecognition site call rs) := by
  induction rs with
  | nil => exact .pure
  | cons r rs ih =>
    unfold firstRecognition
    apply (hrs r List.mem_cons_self).bind
    intro answer
    split
    · exact ih fun r hr => hrs r (List.mem_cons_of_mem _ hr)
    · exact .pure

theorem recognize_fair : Fair Routine (recognize site call) := firstRecognition_fair fun _ hr => recognizers_fair hr

/-! ## New objects -/

theorem allocOnce_calm {object : Obj} {found : NodeId → Edit Unit} (hobject : (NodeKind.object object).isSimple = true)
    (hfound : ∀ n, Calm Routine (found n)) : Calm Routine (allocOnce site object found) := by
  unfold allocOnce
  apply get_calm.bind
  intro f
  split
  · exact .pure
  · apply (addNode_calm hobject).bind
    intro n
    refine .bind (modify_calm fun _ => .of_eq rfl) fun _ => ?_
    exact (hfound n).bind fun _ => .pure

theorem dialogLifecycle_calm {cls : String} {dialog : NodeId} : Calm Routine (dialogLifecycle cls dialog) :=
  program_calm.bind fun _ => .bind (.each fun _ => flowToThis_calm) fun _ => updateDialog_calm fun _ => rfl

theorem dialogLifecycle_lists {cls : String} {dialog : NodeId} :
    Does Routine c f (dialogLifecycle cls dialog) fun _ f' => dialog ∈ f'.dialogs := by
  unfold dialogLifecycle
  refine .read rfl ?_
  refine .bind (Calm.each fun _ => flowToThis_calm).does fun _ f₁ _ _ => ?_
  exact updateDialog_routine fun _ => rfl

/-- A new dialog gets its record with the methods of its life cycle. -/
theorem dialogNode_routine {cls : String} : Does Routine c f (dialogNode cls site) fun _ _ => True := by
  have h : Does Unshown c f (dialogNode cls site) fun _ f' => NewDialogs f f' (· ∈ f'.dialogs) := by
    unfold dialogNode allocOnce
    refine .read rfl ?_
    split
    · exact .pure fun _ h => .inl h
    refine .bind (Q := fun n f₁ => NewDialogs f f₁ (· = n)) (.of_run rfl (unshown_push rfl) newDialogs_push)
      fun n f₁ _ hnew => ?_
    have hfile : Routine f₁ { f₁ with allocs := f₁.allocs.insert site.label n } :=
      SameDialogs.routine ⟨rfl, rfl, rfl, Nat.le_refl _⟩ rfl fun _ h => h
    refine .bind (Q := fun _ f₂ => Routine f₁ f₂) (.of_run rfl hfile.toUnshown hfile) fun _ f₂ _ h₂ => ?_
    have hlife : Does Unshown c f₂ (dialogLifecycle cls n) fun _ f₃ => Routine f₂ f₃ ∧ n ∈ f₃.dialogs :=
      dialogLifecycle_lists.mono (fun _ h => h.toUnshown) fun _ _ h hn => ⟨h, hn⟩
    refine .bind hlife fun _ f₃ _ h₃ => .pure fun m hm => ?_
    -- a dialog of the last state was there before, or is the new one, or was listed on the way
    rcases (trans_of Routine h₂ h₃.1).listed m hm with hm | hm
    · rcases hnew m hm with hm | rfl
      · exact .inl hm
      · exact .inr h₃.2
    · exact .inr hm
  exact ⟨⟨h.moves, h.post⟩, trivial⟩

theorem dialogNode_calm {cls : String} : Calm Routine (dialogNode cls site) := by
  refine Calm.of_does (T := Unshown) ?_ fun _ _ => dialogNode_routine
  unfold dialogNode allocOnce
  apply (get_calm.mono fun _ _ h => h.toUnshown).bind
  intro f
  split
  · exact .pure
  · refine .bind ⟨fun _ _ => .of_run rfl rfl (unshown_push rfl) rfl⟩ fun n => ?_
    refine Calm.mono (R := Routine) ?_ fun _ _ h => h.toUnshown
    refine .bind (modify_calm fun _ => .of_eq rfl) fun _ => ?_
    exact dialogLifecycle_calm.bind fun _ => .pure

theorem allocNode_calm {cls : String} : Calm Routine (allocNode cls site) := by
  unfold allocNode
  apply program_calm.bind
  intro p
  split
  · exact dialogNode_calm
  split
  · exact allocOnce_calm rfl fun _ => viewContextMenu_calm.discard
  apply Calm.context fun _ => rfl
  intro c
  split
  · exact allocOnce_calm rfl fun _ => .pure
  · exact allocOnce_calm rfl fun _ => .pure

theorem exprNode_calm {e : Expr} : Calm Routine (exprNode e site) := by
  unfold exprNode
  split
  · exact valueNode_calm
  · exact valueNode_calm
  · exact .map allocNode_calm
  · apply allocNode_calm.bind
    intro n
    extract_lets answer
    split
    · exact .bind (modify_calm fun _ => .of_eq rfl) fun _ => .pure
    · exact .pure
  · exact .map fieldNode_calm
  · exact .map fieldNode_calm
  all_goals exact .pure

theorem placeNode_calm {place : Place} : Calm Routine (placeNode place) := by
  cases place with
  | var l => exact .map varNode_calm
  | instanceField _ field => exact .map fieldNode_calm
  | staticField field => exact .map fieldNode_calm
  | arrayWrite _ _ => exact .pure

/-! ## Activities and their lists -/

theorem dialogPreparation_calm {activity : String} : Calm Routine (dialogPreparation activity) := by
  unfold dialogPreparation
  apply program_calm.bind
  intro p
  apply Calm.each
  intro v
  apply valueNode_calm.bind
  intro dialog
  split
  · exact .each fun _ => flowTo_calm.discard
  · exact .pure

theorem activityCallbacks_calm {cls : String} : Calm Routine (activityCallbacks cls) := by
  unfold activityCallbacks
  apply activityNode_calm.bind
  intro activity
  apply dialogPreparation_calm.bind
  intro _
  apply optionsMenu_calm.bind
  intro _
  apply contextItemSelection_calm.bind
  intro _
  apply program_calm.bind
  intro p
  exact .context (fun _ => rfl) fun _ => .each fun _ => flowToThis_calm

theorem addCallbacks_calm : Calm Routine addCallbacks := program_calm.bind fun _ => .each fun _ => activityCallbacks_calm

theorem addDefaultList_calm {cls : String} {activity : NodeId} : Calm Routine (addDefaultList cls activity) := by
  unfold addDefaultList
  apply Calm.context fun _ => rfl
  intro c
  apply systemLayoutNode_calm.bind
  intro layout
  split
  · apply freshVar_calm.bind
    intro window
    exact addEdge_calm.discard.bind fun _ => (addOp_calm rfl).discard
  · exact remark_calm

theorem addDefaultRoots_calm : Calm Routine addDefaultRoots := by
  unfold addDefaultRoots
  apply get_calm.bind
  intro f
  apply Calm.each
  rintro ⟨cls, activity⟩
  apply getGraph_calm.bind
  intro g
  split
  · exact .pure
  apply program_calm.bind
  intro p
  split
  · exact addDefaultList_calm
  · exact remark_calm

theorem addListItemClick_calm {cls : String} {activity listId : NodeId} {handler : Method} :
    Calm Routine (addListItemClick cls activity handler listId) := by
  unfold addListItemClick
  apply freshVar_calm.bind
  intro window
  apply addEdge_calm.discard.bind
  intro _
  apply freshVar_calm.bind
  intro list
  apply (addOp_calm rfl).discard.bind
  intro _
  apply freshVar_calm.bind
  intro item
  apply (addOp_calm rfl).discard.bind
  intro _
  apply (addNode_calm rfl).bind
  intro listener
  apply freshVar_calm.bind
  intro listenerVar
  apply addEdge_calm.discard.bind
  intro _
  apply flowToParam_calm.bind
  intro _
  apply flowToParam_calm.bind
  intro _
  apply flowToThis_calm.bind
  intro _
  exact addSynthetic_calm

theorem addListItemClicks_calm : Calm Routine addListItemClicks := by
  unfold addListItemClicks
  apply program_calm.bind
  intro p
  apply get_calm.bind
  intro f
  dsimp only
  split
  · exact .pure
  apply systemWidgetNode_calm.bind
  intro listId
  split
  · exact .each fun _ => addListItemClick_calm
  · exact remark_calm

/-! ## Lists and their adapters -/

theorem deferListCall_calm : Calm Routine (deferListCall site call) := by
  unfold deferListCall
  apply program_calm.bind
  intro p
  dsimp only
  split
  · exact defer_calm.bind fun _ => .pure
  split
  · split
    · exact defer_calm.bind fun _ => .pure
    · split
      · exact defer_calm.bind fun _ => .pure
      · exact .pure
  · exact .pure

theorem recordItemLayouts_calm : Calm Routine (recordItemLayouts site) := by
  unfold recordItemLayouts
  split
  · split
    · apply program_calm.bind
      intro p
      dsimp only
      split
      · exact .pure
      refine .bind (.filterMapM fun _ => valueNode_calm) fun nodes => ?_
      apply objectsReaching_calm.bind
      intro adapters
      exact .each fun _ => modify_calm fun _ => .of_eq rfl
    · exact .pure
  · exact .pure

theorem itemLayoutsOf_calm {adapter : NodeId} : Calm Routine (itemLayoutsOf adapter) := get_calm.bind fun _ => .pure

theorem addReturnedItems_calm {list : NodeId} {getView : Method} : Calm Routine (addReturnedItems list getView site) := by
  refine .bind (.each fun item => ?_) fun _ => flowToParam_calm
  exact varNode_calm.bind fun _ => (addOp_calm rfl).discard

theorem addAdapterItems_calm {list adapter : NodeId} : Calm Routine (addAdapterItems list site adapter) := by
  unfold addAdapterItems
  apply getGraph_calm.bind
  intro g
  split
  · apply program_calm.bind
    intro p
    split
    · exact addReturnedItems_calm
    split
    · apply itemLayoutsOf_calm.bind
      intro layouts
      extract_lets place addItems
      have hitems : ∀ u, Calm Routine (addItems u) := by
        intro u
        apply Calm.each
        intro layout
        apply freshVar_calm.bind
        intro item
        exact (addOp_calm rfl).discard.bind fun _ => (addOp_calm rfl).discard
      split
      · exact remark_calm.bind hitems
      · exact hitems ()
    split
    · exact remark_calm
    · exact .pure
  · exact .pure

theorem runSetAdapter_calm : Calm Routine (runSetAdapter site) := by
  unfold runSetAdapter
  split
  · split
    · apply varNode_calm.bind
      intro list
      exact objectsReaching_calm.bind fun _ => .each fun _ => addAdapterItems_calm
    · exact .pure
  · exact .pure

theorem runGetView_calm : Calm Routine (runGetView site) := by
  unfold runGetView
  split
  · apply varNode_calm.bind
    intro result
    apply objectsReaching_calm.bind
    intro adapters
    apply Calm.each
    intro adapter
    apply getGraph_calm.bind
    intro g
    split
    · apply program_calm.bind
      intro p
      split
      · exact itemLayoutsOf_calm.bind fun _ => .each fun _ => (addOp_calm rfl).discard
      · exact .pure
    · exact .pure
  · exact .pure

theorem runLists_calm : Calm Routine runLists := by
  unfold runLists
  apply get_calm.bind
  intro f₁
  refine .bind (.each fun _ => recordItemLayouts_calm) fun _ => ?_
  apply get_calm.bind
  intro f₂
  refine .bind (.each fun _ => runSetAdapter_calm) fun _ => ?_
  exact get_calm.bind fun _ => .each fun _ => runGetView_calm

/-! ## Dialogs -/

theorem deferDialogCall_calm : Calm Routine (deferDialogCall site call) := by
  unfold deferDialogCall
  split
  · apply program_calm.bind
    intro p
    dsimp only
    split
    · split
      · exact .pure
      split
      · exact defer_calm.bind fun _ => .pure
      split
      · exact defer_calm.bind fun _ => .pure
      split
      · exact defer_calm.bind fun _ => .pure
      · exact .pure
    · split
      · split
        · exact defer_calm.bind fun _ => .pure
        split
        · exact defer_calm.bind fun _ => .pure
        · exact .pure
      · exact .pure
  · exact .pure

theorem deferBuilderCall_calm : Calm Routine (deferBuilderCall site call) := by
  unfold deferBuilderCall
  split
  · split
    · exact program_calm.bind fun _ => .pure
    dsimp only
    split
    · apply defer_calm.bind
      intro _
      split
      · exact varNode_calm.bind fun _ => flowTo_calm.discard.bind fun _ => .pure
      · exact .pure
    split
    · exact defer_calm.bind fun _ => .pure
    · exact .pure
  · exact .pure

theorem resolveReceivers_calm {role : Role} {p : Obj → Bool} : Calm Routine (resolveReceivers role p) := by
  unfold resolveReceivers
  apply get_calm.bind
  intro f
  apply Calm.foldlM
  rintro resolved ⟨receiver, sites⟩
  apply objectsReaching_calm.bind
  intro reaching
  apply getGraph_calm.bind
  intro g
  dsimp only
  split
  · exact remark_calm.bind fun _ => .pure
  · exact .pure

theorem dialogVar_calm {dialog : NodeId} : Calm Routine (dialogVar dialog) := by
  refine Calm.of_does (T := Keeps) ?_ fun _ _ => dialogVar_routine
  unfold dialogVar
  apply get_calm.keeps.bind
  intro f
  split
  · exact .pure
  · apply freshVar_calm.keeps.bind
    intro var
    apply addEdge_calm.discard.keeps.bind
    intro _
    exact .bind (modify_keeps (fun _ => rfl) (fun _ => rfl) fun _ => rfl) fun _ => .pure

theorem findSystemWidget_calm {window : NodeId} {name cls : String} {place : CallSite}
    (hplace : isSimpleOp .findInWindow place = true) : Calm Routine (findSystemWidget window name cls place) := by
  unfold findSystemWidget
  apply systemWidgetNode_calm.bind
  intro id
  split
  · exact freshVar_calm.bind fun _ => (addOp_calm hplace).discard.bind fun _ => .pure
  · exact remark_calm.bind fun _ => .pure

theorem dialogCustomLayout_calm {dialog layout : NodeId} : Calm Routine (dialogCustomLayout dialog layout site) := by
  unfold dialogCustomLayout
  apply dialogVar_calm.bind
  intro window
  apply (findSystemWidget_calm rfl).bind
  intro custom
  split
  · apply freshVar_calm.bind
    intro view
    exact (addOp_calm rfl).discard.bind fun _ => (addOp_calm rfl).discard
  · exact .pure

theorem dialogSetView_fair {dialog : NodeId} {view : Option Value} : Fair Routine (dialogSetView dialog site view) := by
  unfold dialogSetView
  split
  · exact .pure
  · exact .pure
  · apply Fair.liftBind dialogVar_calm
    intro window
    apply Fair.liftBind (findSystemWidget_calm rfl)
    intro custom
    split
    · exact .liftBind varNode_calm fun _ => .lift (addOp_calm rfl).discard
    · exact .pure
  · apply Fair.liftBind knownIdNode_calm
    intro layout
    split
    · apply Fair.liftBind getGraph_calm
      intro g
      split
      · exact .lift dialogCustomLayout_calm
      · exact .lift remark_calm
    · exact .lift remark_calm
  · exact report_fair

theorem dialogContent_calm {dialog : NodeId} : Calm Keeps (dialogContent dialog site) := by
  unfold dialogContent
  apply systemLayoutNode_calm.keeps.bind
  intro layout
  split
  · apply dialogVar_calm.keeps.bind
    intro window
    exact (addOp_keeps rfl).discard
  · exact remark_calm.keeps

theorem pickerContent_calm {dialog : NodeId} {layoutName : String} :
    Calm Routine (pickerContent dialog layoutName site) := by
  unfold pickerContent
  apply dialogVar_calm.bind
  intro window
  apply (findSystemWidget_calm rfl).discard.bind
  intro _
  apply systemLayoutNode_calm.bind
  intro layout
  split
  · exact dialogCustomLayout_calm
  · exact remark_calm

theorem showDialog_calm {dialog : NodeId} : Calm Keeps (showDialog dialog site) := by
  unfold showDialog
  refine .bind (modify_keeps (fun _ => rfl) (fun _ => rfl) fun _ => rfl) fun _ => ?_
  apply getGraph_calm.keeps.bind
  intro g
  split
  · apply program_calm.keeps.bind
    intro p
    split
    · exact .pure
    apply get_calm.keeps.bind
    intro f
    split
    · exact .pure
    refine .bind (modify_keeps (fun _ => rfl) (fun _ => rfl) fun _ => rfl) fun _ => ?_
    apply dialogContent_calm.bind
    intro _
    split
    · exact pickerContent_calm.keeps
    · exact .pure
  · exact .pure

theorem dismissDialog_calm {dialog : NodeId} {labels : List Label} : Calm Routine (dismissDialog dialog labels) :=
  updateDialog_calm fun _ => rfl

theorem bindDialogHandlers_calm {dialog : NodeId} {listener : Option Value} {sub : String} :
    Calm Routine (bindDialogHandlers dialog listener sub) := by
  unfold bindDialogHandlers
  apply objectsReaching?_calm.bind
  intro objects
  apply program_calm.bind
  intro p
  apply getGraph_calm.bind
  intro g
  refine .bind (.each fun _ => ?_) fun _ => .pure
  exact flowToThis_calm.bind fun _ => flowToParam_calm

theorem dialogListener_calm {dialog : NodeId} {listener : Option Value} {sub : String} :
    Calm Routine (dialogListener dialog listener sub) := by
  unfold dialogListener
  apply bindDialogHandlers_calm.bind
  intro methods
  split
  · exact .pure
  · exact updateDialog_calm fun _ => rfl

theorem dialogButton_calm {dialog : NodeId} {which : Nat} {listener : Option Value} :
    Calm Routine (dialogButton dialog which listener site) := by
  unfold dialogButton
  apply dialogVar_calm.bind
  intro window
  apply (findSystemWidget_calm rfl).bind
  intro button
  split
  · apply bindDialogHandlers_calm.bind
    intro methods
    apply (addNode_calm rfl).bind
    intro object
    apply freshVar_calm.bind
    intro listenerVar
    apply addEdge_calm.discard.bind
    intro _
    rw [← bind_assoc]
    exact addSynthetic_calm.bind fun _ => updateDialog_calm fun _ => rfl
  · exact .pure

theorem applySetter_fair {dialog : NodeId} {onBuilder : Bool} :
    Fair Routine (applySetter dialog site call onBuilder) := by
  unfold applySetter
  refine .ite (.lift dialogListener_calm) ?_
  refine .ite (.lift dialogListener_calm) ?_
  refine .ite (.lift dialogListener_calm) ?_
  refine .ite (.lift dialogListener_calm) ?_
  refine .ite dialogSetView_fair ?_
  refine .ite (.ite (.lift (updateNode_calm notCancelable_alike)) .pure) ?_
  refine .ite ?_ (.ite (.ite ?_ .pure) .pure)
  · refine .ite (.lift dialogButton_calm) ?_
    exact .ite (.lift dialogButton_calm) (.ite (.lift dialogButton_calm) .pure)
  · split
    · exact .lift dialogButton_calm
    · exact .pure

theorem applySetters_fair {dialog : NodeId} {sites : List Site} {onBuilder : Bool} :
    Fair Routine (applySetters dialog sites onBuilder) := by
  apply Fair.each
  intro s
  split
  · exact applySetter_fair
  · exact .pure

theorem runBuilders_fair : Fair Keeps runBuilders := by
  unfold runBuilders
  apply Fair.liftBind resolveReceivers_calm.keeps
  intro creates
  apply Fair.liftBind resolveReceivers_calm.keeps
  intro setters
  apply Fair.each
  rintro ⟨builder, sites⟩
  apply Fair.each
  intro s
  apply Fair.liftBind dialogNode_calm.keeps
  intro dialog
  extract_lets fill
  have hfill : ∀ u, Fair Keeps (fill u) := by
    intro u
    apply applySetters_fair.keeps.bind
    intro _
    split
    · exact .lift showDialog_calm
    · exact .pure
  split
  · exact .liftBind flowTo_calm.discard.keeps hfill
  · exact hfill ()

theorem dialogsOfActivity_calm : Calm Routine (dialogsOfActivity site) := by
  unfold dialogsOfActivity
  split
  · apply objectsReaching_calm.bind
    intro reaching
    apply getGraph_calm.bind
    intro g
    apply program_calm.bind
    intro p
    refine .bind (.foldlM fun found l => ?_) fun _ => .pure
    exact objectsReaching_calm.bind fun _ => getGraph_calm.bind fun _ => .pure
  · exact .pure

theorem runActivityDialogs_calm {role : Role} {act : NodeId → Site → Edit Unit} (hact : ∀ d s, Calm Keeps (act d s)) :
    Calm Keeps (runActivityDialogs role act) := by
  unfold runActivityDialogs
  apply get_calm.keeps.bind
  intro f
  apply Calm.each
  intro s
  apply dialogsOfActivity_calm.keeps.bind
  intro dialogs
  dsimp only
  split
  · exact remark_calm.keeps.bind fun _ => .each fun d => hact d s
  · exact .each fun d => hact d s

theorem runDialogs_fair : Fair Keeps runDialogs := by
  unfold runDialogs
  apply runBuilders_fair.bind
  intro _
  apply Fair.liftBind resolveReceivers_calm.keeps
  intro shows
  refine .bind (.each fun _ => .each fun _ => .lift showDialog_calm) fun _ => ?_
  apply Fair.liftBind resolveReceivers_calm.keeps
  intro dismisses
  refine .bind (.each fun _ => .lift dismissDialog_calm.keeps) fun _ => ?_
  apply Fair.liftBind resolveReceivers_calm.keeps
  intro setters
  refine .bind (.each fun _ => applySetters_fair.keeps) fun _ => ?_
  refine .liftBind (runActivityDialogs_calm fun _ _ => showDialog_calm) fun _ => ?_
  exact .lift (runActivityDialogs_calm fun _ _ => dismissDialog_calm.keeps)

/-! ## Tabs -/

theorem deferTabCall_fair : Fair Routine (deferTabCall site call) := by
  unfold deferTabCall
  split
  · apply Fair.liftBind program_calm
    intro p
    dsimp only
    split
    · split
      · split
        · exact .lift defer_calm
        · exact .pure
        · exact report_fair
      split
      · split
        · refine .liftBind (allocOnce_calm rfl fun _ => .pure) fun _ => ?_
          exact .lift flowTo_calm.discard
        · exact .pure
      · exact .pure
    split
    · split
      · apply Fair.liftBind defer_calm
        intro _
        split
        · exact .liftBind varNode_calm fun _ => .lift flowTo_calm.discard
        · exact .pure
      · exact .pure
    · exact .pure
  · exact .pure

theorem tabIndicator_calm : Calm Routine (tabIndicator site) := by
  unfold tabIndicator
  split
  · split
    · split
      · exact .map varNode_calm
      · exact .pure
    · apply systemLayoutNode_calm.bind
      intro layout
      extract_lets place label
      have hlabel : ∀ l, Calm Routine (label l) := by
        intro l
        dsimp -zeta only [label]
        split
        · apply freshVar_calm.bind
          intro indicator
          apply (addOp_calm rfl).discard.bind
          intro _
          apply valueNode?_calm.bind
          intro text
          extract_lets answer
          split
          · exact (addOp_calm rfl).discard.bind fun _ => .pure
          · exact .pure
        · exact remark_calm.bind fun _ => .pure
      split
      · exact .bind .pure hlabel
      · exact systemLayoutNode_calm.bind hlabel
  · exact .pure

theorem factoryContents_calm {factory : Local} : Calm Routine (factoryContents factory) := by
  unfold factoryContents
  apply objectsReaching_calm.bind
  intro objects
  apply program_calm.bind
  intro p
  apply getGraph_calm.bind
  intro g
  refine .bind (.mapM fun n => ?_) fun _ => .pure
  split
  · exact flowToThis_calm.bind fun _ => .mapM fun _ => varNode_calm
  · exact .pure

theorem tabContent_calm {views : TabViews} : Calm Routine (tabContent views site) := by
  unfold tabContent
  split
  · dsimp only
    split
    · apply valueNode?_calm.bind
      intro id
      split
      · apply getGraph_calm.bind
        intro g
        split
        · exact .pure
        · exact freshVar_calm.bind fun _ => (addOp_calm rfl).discard.bind fun _ => .pure
      · exact remark_calm.bind fun _ => .pure
    split
    · split
      · exact factoryContents_calm.bind fun _ => .pure
      · exact .pure
    · exact remark_calm.bind fun _ => .pure
  · exact .pure

theorem findInTabHost_calm {host : NodeId} {name cls : String} : Calm Routine (findInTabHost host name cls site) := by
  unfold findInTabHost
  apply systemWidgetNode_calm.bind
  intro id
  split
  · exact freshVar_calm.bind fun _ => (addOp_calm rfl).discard.bind fun _ => .pure
  · exact remark_calm.bind fun _ => .pure

theorem addToTabHost_calm {host : NodeId} {views : List NodeId} {name cls : String} {origin : Synthesis}
    (horigin : isSimpleOp .addChild (site.synthetic origin) = true) :
    Calm Routine (addToTabHost host views name cls origin site) := by
  unfold addToTabHost
  split
  · exact .pure
  apply findInTabHost_calm.bind
  intro parent
  split
  · exact .each fun _ => (addOp_calm horigin).discard
  · exact .pure

theorem addTab_calm {host : NodeId} {views : TabViews} : Calm Routine (addTab host views site) := by
  unfold addTab
  apply (addToTabHost_calm rfl).bind
  intro _
  apply (addToTabHost_calm rfl).bind
  intro _
  apply Calm.each
  rintro ⟨id, location⟩
  exact freshVar_calm.bind fun _ => (addOp_calm rfl).discard

theorem tabViews_calm : Calm Routine tabViews := by
  unfold tabViews
  apply resolveReceivers_calm.bind
  intro indicators
  refine .bind (.foldlM fun views p => ?_) fun views => ?_
  · exact .bind (.filterMapM fun _ => tabIndicator_calm) fun _ => .pure
  · apply resolveReceivers_calm.bind
    intro contents
    apply Calm.foldlM
    intro views p
    exact .bind (.foldlM fun _ _ => tabContent_calm) fun _ => .pure

theorem runTabs_calm : Calm Routine runTabs := by
  unfold runTabs
  apply tabViews_calm.bind
  intro views
  apply get_calm.bind
  intro f
  apply Calm.each
  intro s
  split
  · apply varNode_calm.bind
    intro host
    apply objectsReaching_calm.bind
    intro reaching
    apply getGraph_calm.bind
    intro g
    dsimp only
    split
    · exact remark_calm.bind fun _ => .each fun _ => addTab_calm
    · exact .each fun _ => addTab_calm
  · exact .pure

/-! ## Statements -/

theorem deferCall_fair : Fair Routine (deferCall site call) := by
  unfold deferCall
  apply Fair.liftBind deferListCall_calm
  intro _
  split
  · exact .pure
  apply Fair.liftBind deferDialogCall_calm
  intro _
  split
  · exact .pure
  apply Fair.liftBind deferBuilderCall_calm
  intro _
  split
  · exact .pure
  · exact deferTabCall_fair

theorem flowValue_calm {v : Value} {l : Local} : Calm Routine (flowValue v l site) := by
  unfold flowValue
  apply valueNode_calm.bind
  intro n
  split
  · exact flowTo_calm.discard
  · exact .pure

theorem bindCall_calm {m : Method} : Calm Routine (bindCall site call m) := by
  unfold bindCall
  extract_lets bindArgs
  have hargs : ∀ u, Calm Routine (bindArgs u) := by
    intro u
    refine .bind (.each fun ⟨arg, i⟩ => ?_) fun _ => ?_
    · dsimp only
      split
      · exact flowValue_calm
      · exact .pure
    · split
      · exact .each fun _ => flowValue_calm
      · exact .pure
  split
  · exact flowValue_calm.bind hargs
  · exact hargs ()

theorem addCall_fair : Fair Routine (addCall site call) := by
  unfold addCall
  apply recognize_fair.bind
  intro answer
  split
  · exact .pure
  · exact .pure
  · apply deferCall_fair.bind
    intro _
    exact .liftBind program_calm fun _ => .each fun _ => .lift bindCall_calm

theorem addAssignment_calm {lhs : Place} {rhs : Expr} : Calm Routine (addAssignment site lhs rhs) := by
  unfold addAssignment
  split
  · exact .pure
  split
  · exact .pure
  · exact .pure
  · exact .pure
  · exact defer_calm
  · exact defer_calm
  · apply exprNode_calm.bind
    intro source
    apply placeNode_calm.bind
    intro target
    split
    · apply addEdge_calm.discard.bind
      intro _
      apply program_calm.bind
      intro p
      split
      · exact flowTo_calm.discard
      · exact .pure
    · exact .pure

theorem linkArray_calm {array : NodeId} : Calm Routine (linkArray array) := by
  unfold linkArray
  apply get_calm.bind
  intro f
  apply Calm.each
  intro w
  split
  · apply exprNode_calm.bind
    intro source
    split
    · apply Calm.each
      intro r
      split
      · exact flowTo_calm.discard
      · exact .pure
    · exact .pure
  · exact .pure

theorem linkArrays_calm : Calm Routine linkArrays := get_calm.bind fun _ => .each fun _ => linkArray_calm

theorem addStmt_fair : Fair Routine (addStmt site) := by
  unfold addStmt
  split
  · exact addCall_fair
  · exact .lift addAssignment_calm
  · exact .pure

theorem addStmts_fair : Fair Routine addStmts :=
  .liftBind program_calm fun _ => .each fun _ => .each fun _ => addStmt_fair

/-! ## The whole -/

theorem construct_fair : Fair Keeps construct := by
  unfold construct
  apply Fair.liftBind createIdNodes_calm.keeps
  intro _
  apply Fair.liftBind addCallbacks_calm.keeps
  intro _
  apply addStmts_fair.keeps.bind
  intro _
  apply Fair.liftBind linkArrays_calm.keeps
  intro _
  apply runDialogs_fair.bind
  intro _
  apply Fair.liftBind addDefaultRoots_calm.keeps
  intro _
  apply Fair.liftBind addListItemClicks_calm.keeps
  intro _
  apply Fair.liftBind runLists_calm.keeps
  intro _
  apply Fair.liftBind runTabs_calm.keeps
  intro _
  apply Fair.liftBind runMenuTasks_calm.keeps
  intro _
  exact .liftBind getGraph_calm.keeps fun _ => .lift remark_calm.keeps

end WidgetFlow.Flowgraph
