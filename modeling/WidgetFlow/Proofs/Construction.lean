import WidgetFlow.Flowgraph.Construction
import WidgetFlow.Proofs.Recognition

/-!
# The construction makes well formed flowgraphs

New objects, lists, dialogs, tabs, assignments and calls, each function followed once. Hence a flowgraph that was built
is well formed, and nothing is inflated or inside anything before it is solved (`build_valid`).
-/

namespace WidgetFlow.Flowgraph

open Std

variable {α : Type} {c : Context} {f f' : Flowgraph} {n x : NodeId} {site : Site} {call : Call}

/-! ## New objects -/

theorem allocOnce_makes {object : Obj} {found : NodeId → Edit Unit} (hobj : object.isInflated = false)
    (hkey : (NodeKind.object object).key? = none)
    (hfound : ∀ n f, f.graph.IsValue n → Makes c f (found n) fun _ _ => True) :
    Makes c f (allocOnce site object found) fun n f' => f'.graph.IsValue n := by
  unfold allocOnce
  refine .read rfl ?_
  split
  · rename_i n hn
    exact ⟨fun hf => .pure (hf.allocs _ _ hn)⟩
  · refine .bind (addNode_makes hobj rfl hkey) fun n f₁ h₁ hn => ?_
    refine .bind (insertAlloc_makes hn) fun _ f₂ h₂ _ => ?_
    exact .bind (hfound n f₂ (h₂.isValue hn)) fun _ f₃ h₃ _ => .pure (h₃.isValue (h₂.isValue hn))

theorem dialogLifecycle_makes {cls : String} (hn : f.graph.IsValue n) :
    Makes c f (dialogLifecycle cls n) fun _ _ => True := by
  unfold dialogLifecycle
  refine .read rfl ?_
  refine .bind (.each fun m _ f₁ h₁ => flowToThis_makes (h₁.isValue hn)) fun _ f₁ h₁ _ => ?_
  exact updateDialog_makes (h₁.isValue hn) (fun _ _ h => h) fun _ _ h => h

theorem dialogNode_makes {cls : String} : Makes c f (dialogNode cls site) fun n f' => f'.graph.IsValue n :=
  allocOnce_makes rfl rfl fun _ _ => dialogLifecycle_makes

theorem allocNode_makes {cls : String} : Makes c f (allocNode cls site) fun n f' => f'.graph.IsValue n := by
  unfold allocNode
  refine .read rfl ?_
  split
  · exact dialogNode_makes
  split
  · exact allocOnce_makes rfl rfl fun n f hn => (viewContextMenu_makes hn).discard
  refine .read rfl ?_
  split <;> exact allocOnce_makes rfl rfl fun _ _ _ => .pure trivial

theorem exprNode_makes {e : Expr} : Makes c f (exprNode e site) (SomeIn Graph.IsValue) := by
  unfold exprNode
  split
  · exact valueNode_makes.imp fun _ _ h => h.imp Graph.IsArg.isValue
  · exact valueNode_makes.imp fun _ _ h => h.imp Graph.IsArg.isValue
  · exact .map (allocNode_makes.imp fun _ _ => .some)
  · refine .bind allocNode_makes fun n f₁ h₁ hn => ?_
    dsimp only
    split
    · exact .bind (insertArray_makes hn) fun _ f₂ h₂ _ => .pure (.some (h₂.isValue hn))
    · exact .pure (.some hn)
  · exact .map (fieldNode_makes.imp fun _ _ h => .some h.isValue)
  · exact .map (fieldNode_makes.imp fun _ _ h => .some h.isValue)
  all_goals exact .pure .none

theorem placeNode_makes {p : Place} : Makes c f (placeNode p) (SomeIn Graph.IsPointer) := by
  cases p with
  | var l => exact .map (varNode_makes.imp fun _ _ h => .some h.isPointer)
  | instanceField base l => exact .map (fieldNode_makes.imp fun _ _ => .some)
  | staticField l => exact .map (fieldNode_makes.imp fun _ _ => .some)
  | arrayWrite base i => exact .pure .none

/-! ## Methods that the framework runs -/

theorem dialogPreparation_makes {activity : String} : Makes c f (dialogPreparation activity) fun _ _ => True := by
  unfold dialogPreparation
  refine .read rfl ?_
  refine .each fun v _ f₁ h₁ => ?_
  refine .bind valueNode_makes fun dialog f₂ h₂ hdialog => ?_
  split
  · exact .each fun l _ f₃ h₃ => (flowTo_makes (h₃.isValue (hdialog _ rfl).isValue)).discard
  · exact .pure trivial

theorem activityCallbacks_makes {cls : String} : Makes c f (activityCallbacks cls) fun _ _ => True := by
  unfold activityCallbacks
  refine .bind activityNode_makes fun activity f₁ h₁ hactivity => ?_
  refine .bind dialogPreparation_makes fun _ f₂ h₂ _ => ?_
  refine .bind optionsMenu_makes fun _ f₃ h₃ _ => ?_
  refine .bind contextItemSelection_makes fun _ f₄ h₄ _ => ?_
  refine .read rfl (.read rfl ?_)
  have h := ((h₂.trans h₃).trans h₄).isValue hactivity
  exact .each fun m _ f₅ h₅ => flowToThis_makes (h₅.isValue h)

theorem addCallbacks_makes : Makes c f addCallbacks fun _ _ => True :=
  .read rfl (.each fun _ _ _ _ => activityCallbacks_makes)

/-- The activities of a flowgraph are nodes. -/
theorem activities_isValue {cls : String} (h : (cls, n) ∈ f.activities.toList) : f.graph.IsValue n := by
  obtain ⟨m, _, hm⟩ := List.mem_filterMap.mp (Container.mem_of_mem_toList_ofList h)
  split at hm
  · rename_i ho
    cases hm
    exact Graph.isValue_of_object? ho
  · cases hm

theorem addDefaultList_makes {cls : String} (hn : f.graph.IsValue n) :
    Makes c f (addDefaultList cls n) fun _ _ => True := by
  unfold addDefaultList
  refine .read rfl ?_
  refine .bind systemLayoutNode_makes fun layout f₁ h₁ hlayout => ?_
  split
  · refine .bind freshVar_makes fun window f₂ h₂ hwindow => ?_
    refine .bind (addEdge_makes (h₂.isValue (h₁.isValue hn)) hwindow.isPointer).discard fun _ f₃ h₃ _ => ?_
    exact (addOp_makes (.some (h₃.isVar hwindow)) (.some (h₃.isArg (h₂.isArg (hlayout _ rfl)))) .none rfl rfl).discard
  · exact remark_makes

theorem addDefaultRoots_makes : Makes c f addDefaultRoots fun _ _ => True := by
  unfold addDefaultRoots
  refine .read rfl ?_
  refine .each fun ⟨cls, activity⟩ hmem f₁ h₁ => ?_
  refine .read rfl ?_
  split
  · exact .pure trivial
  refine .read rfl ?_
  split
  · exact addDefaultList_makes (h₁.isValue (activities_isValue hmem))
  · exact remark_makes

theorem addListItemClick_makes {cls : String} {handler : Method} {listId : NodeId} (hn : f.graph.IsValue n)
    (hid : f.graph.IsArg listId) : Makes c f (addListItemClick cls n handler listId) fun _ _ => True := by
  unfold addListItemClick
  refine .bind freshVar_makes fun window f₁ h₁ hwindow => ?_
  refine .bind (addEdge_makes (h₁.isValue hn) hwindow.isPointer).discard fun _ f₂ h₂ _ => ?_
  refine .bind freshVar_makes fun list f₃ h₃ hlist => ?_
  have hid₃ := ((h₁.trans h₂).trans h₃).isArg hid
  refine .bind (addOp_makes (.some ((h₂.trans h₃).isVar hwindow)) (.some hid₃) (.some hlist) rfl rfl).discard
    fun _ f₄ h₄ _ => ?_
  refine .bind freshVar_makes fun item f₅ h₅ hitem => ?_
  have hlist₅ := (h₄.trans h₅).isVar hlist
  refine .bind (addOp_makes (.some hlist₅) .none (.some hitem) rfl rfl).discard fun _ f₆ h₆ _ => ?_
  refine .bind (addNode_makes rfl rfl rfl) fun listener f₇ h₇ hlistener => ?_
  refine .bind freshVar_makes fun v f₈ h₈ hv => ?_
  refine .bind (addEdge_makes (h₈.isValue hlistener) hv.isPointer).discard fun _ f₉ h₉ _ => ?_
  have hlist₉ := ((h₆.trans h₇).trans (h₈.trans h₉)).isVar hlist₅
  refine .bind (flowToParam_makes hlist₉.isValue) fun _ f₁₀ h₁₀ _ => ?_
  have hitem₁₀ := (((h₆.trans h₇).trans (h₈.trans h₉)).trans h₁₀).isValue hitem.isValue
  refine .bind (flowToParam_makes hitem₁₀) fun _ f₁₁ h₁₁ _ => ?_
  have h₀₉ := (((h₁.trans h₂).trans h₃).trans (h₄.trans h₅)).trans ((h₆.trans h₇).trans (h₈.trans h₉))
  refine .bind (flowToThis_makes ((h₀₉.trans (h₁₀.trans h₁₁)).isValue hn)) fun _ f₁₂ h₁₂ _ => ?_
  have h₉₁₂ := (h₁₀.trans h₁₁).trans h₁₂
  have hv₁₂ := (h₉.trans h₉₁₂).isVar hv
  exact addSynthetic_makes (h₉₁₂.isVar hlist₉) hv₁₂.isArg

theorem addListItemClicks_makes : Makes c f addListItemClicks fun _ _ => True := by
  unfold addListItemClicks
  refine .read rfl (.read rfl ?_)
  dsimp only
  split
  · exact .pure trivial
  refine .bind systemWidgetNode_makes fun listId f₁ h₁ hid => ?_
  split
  · refine .each fun ⟨cls, activity, handler⟩ hmem f₂ h₂ => ?_
    obtain ⟨⟨cls', a⟩, ha, h⟩ := List.mem_filterMap.mp hmem
    obtain ⟨m, _, hm⟩ := Option.map_eq_some_iff.mp h
    cases hm
    exact addListItemClick_makes ((h₁.trans h₂).isValue (activities_isValue ha)) (h₂.isArg (hid _ rfl))
  · exact remark_makes

/-! ## Lists -/

theorem deferListCall_makes : Makes c f (deferListCall site call) fun _ _ => True := by
  unfold deferListCall
  refine .read rfl ?_
  dsimp only
  split
  · exact .bind defer_makes fun _ _ _ _ => .pure trivial
  split
  · split
    · exact .bind defer_makes fun _ _ _ _ => .pure trivial
    · split
      · exact .bind defer_makes fun _ _ _ _ => .pure trivial
      · exact .pure trivial
  · exact .pure trivial

theorem recordItemLayouts_makes : Makes c f (recordItemLayouts site) fun _ _ => True := by
  unfold recordItemLayouts
  split
  · split
    · refine .read rfl ?_
      dsimp only
      split
      · exact .pure trivial
      refine .bind (.filterMapM Graph.isArg_stays fun v _ f₁ h₁ => valueNode_makes) fun nodes f₁ h₁ hn => ?_
      refine .bind objectsReaching_makes fun adapters f₂ h₂ hadapters => .each fun adapter hadapter f₃ h₃ => ?_
      exact insertItemLayouts_makes (h₃.isValue (hadapters adapter hadapter)) (hn.mono Graph.isArg_stays (h₂.trans h₃))
    · exact .pure trivial
  · exact .pure trivial

theorem itemLayoutsOf_makes : Makes c f (itemLayoutsOf n) (AllIn Graph.IsArg) :=
  ⟨fun hf => .read rfl (.pure fun m hm => hf.itemLayouts n m (ExtTreeSet.mem_toList.mp hm))⟩

theorem addReturnedItems_makes {getView : Method} (hn : f.graph.IsVar n) :
    Makes c f (addReturnedItems n getView site) fun _ _ => True := by
  unfold addReturnedItems
  refine .bind (.each fun item _ f₁ h₁ => ?_) fun _ f₁ h₁ _ => flowToParam_makes (h₁.isVar hn).isValue
  refine .bind varNode_makes fun v f₂ h₂ hv => ?_
  exact (addOp_makes (.some (h₂.isVar (h₁.isVar hn))) (.some hv.isArg) .none rfl rfl).discard

theorem addAdapterItems_makes {adapter : NodeId} (hn : f.graph.IsVar n) :
    Makes c f (addAdapterItems n site adapter) fun _ _ => True := by
  unfold addAdapterItems
  refine .read rfl ?_
  split
  · refine .read rfl ?_
    split
    · exact addReturnedItems_makes hn
    · split
      · refine .bind itemLayoutsOf_makes fun layouts f₁ h₁ hlayouts => ?_
        extract_lets _ inflate
        have hinflate : ∀ u f₂, f₁.graph.Extends f₂.graph → Makes c f₂ (inflate u) fun _ _ => True := by
          intro u f₂ h₂
          refine .each fun layout hl f₃ h₃ => ?_
          refine .bind freshVar_makes fun item f₄ h₄ hitem => ?_
          have hlayout := ((h₂.trans h₃).trans h₄).isArg (hlayouts layout hl)
          refine .bind (addOp_makes .none (.some hlayout) (.some hitem) rfl rfl).discard fun _ f₅ h₅ _ => ?_
          have hlist := ((h₁.trans h₂).trans ((h₃.trans h₄).trans h₅)).isVar hn
          exact (addOp_makes (.some hlist) (.some (h₅.isVar hitem).isArg) .none rfl rfl).discard
        split
        · exact .bind remark_makes fun u f₂ h₂ _ => hinflate u f₂ h₂
        · exact hinflate () f₁ (.refl _)
      · split
        · exact remark_makes
        · exact .pure trivial
  · exact .pure trivial

theorem runSetAdapter_makes : Makes c f (runSetAdapter site) fun _ _ => True := by
  unfold runSetAdapter
  split
  · split
    · refine .bind varNode_makes fun list f₁ h₁ hlist => ?_
      refine .bind objectsReaching_makes fun adapters f₂ h₂ _ => ?_
      exact .each fun adapter _ f₃ h₃ => addAdapterItems_makes (h₃.isVar (h₂.isVar hlist))
    · exact .pure trivial
  · exact .pure trivial

theorem runGetView_makes : Makes c f (runGetView site) fun _ _ => True := by
  unfold runGetView
  split
  · refine .bind varNode_makes fun result f₁ h₁ hresult => ?_
    refine .bind objectsReaching_makes fun adapters f₂ h₂ _ => ?_
    refine .each fun adapter _ f₃ h₃ => .read rfl ?_
    split
    · refine .read rfl ?_
      split
      · refine .bind itemLayoutsOf_makes fun layouts f₄ h₄ hlayouts => ?_
        refine .each fun layout hl f₅ h₅ => ?_
        have hresult₅ := ((h₂.trans h₃).trans (h₄.trans h₅)).isVar hresult
        exact (addOp_makes .none (.some (h₅.isArg (hlayouts layout hl))) (.some hresult₅) rfl rfl).discard
      · exact .pure trivial
    · exact .pure trivial
  · exact .pure trivial

theorem runLists_makes : Makes c f runLists fun _ _ => True := by
  unfold runLists
  refine .read rfl (.bind (.each fun _ _ _ _ => recordItemLayouts_makes) fun _ f₁ _ _ => ?_)
  refine .read rfl (.bind (.each fun _ _ _ _ => runSetAdapter_makes) fun _ f₂ _ _ => ?_)
  exact .read rfl (.each fun _ _ _ _ => runGetView_makes)

/-! ## Dialogs -/

theorem deferDialogCall_makes : Makes c f (deferDialogCall site call) fun _ _ => True := by
  have hdefer : ∀ role, Makes c f (do defer role site; return true) fun _ _ => True := fun _ =>
    .bind defer_makes fun _ _ _ _ => .pure trivial
  unfold deferDialogCall
  split
  · refine .read rfl ?_
    dsimp only
    split
    · split
      · exact .pure trivial
      split
      · exact hdefer _
      split
      · exact hdefer _
      split
      · exact hdefer _
      · exact .pure trivial
    split
    · split
      · exact hdefer _
      split
      · exact hdefer _
      · exact .pure trivial
    · exact .pure trivial
  · exact .pure trivial

theorem deferBuilderCall_makes : Makes c f (deferBuilderCall site call) fun _ _ => True := by
  unfold deferBuilderCall
  split
  · split
    · exact .read rfl (.pure trivial)
    dsimp only
    split
    · refine .bind defer_makes fun _ f₁ h₁ _ => ?_
      split
      · refine .bind varNode_makes fun builder f₂ h₂ hbuilder => ?_
        exact .bind (flowTo_makes hbuilder.isValue).discard fun _ _ _ _ => .pure trivial
      · exact .pure trivial
    split
    · exact .bind defer_makes fun _ _ _ _ => .pure trivial
    · exact .pure trivial
  · exact .pure trivial

/-- The keys of a map are no operations. -/
def KeysIn (m : ExtTreeMap NodeId α) (f : Flowgraph) : Prop := ∀ n a, (n, a) ∈ m.toList → f.graph.IsValue n

theorem KeysIn.mono {m : ExtTreeMap NodeId α} (hg : f.graph.Extends f'.graph) (h : KeysIn m f) : KeysIn m f' :=
  fun n a hn => hg.isValue (h n a hn)

theorem KeysIn.alter {m : ExtTreeMap NodeId α} {g : Option α → Option α} (hm : KeysIn m f) (hn : f.graph.IsValue n) :
    KeysIn (m.alter n g) f := by
  intro k a hk
  rw [ExtTreeMap.mem_toList_iff_getElem?_eq_some, ExtTreeMap.getElem?_alter] at hk
  split at hk
  · rename_i he
    rw [← LawfulEqCmp.eq_of_compare he]
    exact hn
  · exact hm k a (ExtTreeMap.mem_toList_iff_getElem?_eq_some.mpr hk)

theorem KeysIn.foldl_alter {m : ExtTreeMap NodeId α} {g : Option α → Option α} {ns : List NodeId} (hm : KeysIn m f)
    (hns : AllIn Graph.IsValue ns f) : KeysIn (ns.foldl (fun m n => m.alter n g) m) f := by
  induction ns generalizing m with
  | nil => exact hm
  | cons n ns ih => exact ih (hm.alter (hns n List.mem_cons_self)) fun k hk => hns k (List.mem_cons_of_mem _ hk)

theorem resolveReceivers_makes {role : Role} {p : Obj → Bool} : Makes c f (resolveReceivers role p) KeysIn := by
  unfold resolveReceivers
  refine .read rfl ?_
  refine .foldlM (fun n a h => by simp at h) fun m ⟨receiver, sites⟩ _ f₁ h₁ hm => ?_
  refine .bind objectsReaching_makes fun reaching f₂ h₂ hreaching => .read rfl ?_
  have hobjects : AllIn Graph.IsValue (reaching.filter fun n => (f₂.graph.object? n).any p) f₂ := fun n hn =>
    hreaching n (List.mem_filter.mp hn).1
  dsimp only
  split
  · exact .bind remark_makes fun _ f₃ h₃ _ => .pure (((hm.mono h₂).foldl_alter hobjects).mono h₃)
  · exact .pure ((hm.mono h₂).foldl_alter hobjects)

theorem dialogVar_makes (hn : f.graph.IsValue n) : Makes c f (dialogVar n) fun v f' => f'.graph.IsVar v := by
  unfold dialogVar
  refine .read rfl ?_
  split
  · rename_i v hv
    exact ⟨fun hf => .pure (hf.dialogVars n v hv)⟩
  · dsimp only
    refine .bind freshVar_makes fun v f₁ h₁ hv => ?_
    refine .bind (addEdge_makes (h₁.isValue hn) hv.isPointer).discard fun _ f₂ h₂ _ => ?_
    refine .bind (insertDialogVar_makes ((h₁.trans h₂).isValue hn) (h₂.isVar hv)) fun _ f₃ h₃ _ => ?_
    exact .pure (h₃.isVar (h₂.isVar hv))

theorem findSystemWidget_makes {name cls : String} {place : CallSite} (hn : f.graph.IsVar n) :
    Makes c f (findSystemWidget n name cls place) (SomeIn Graph.IsVar) := by
  unfold findSystemWidget
  refine .bind systemWidgetNode_makes fun id f₁ h₁ hid => ?_
  split
  · refine .bind freshVar_makes fun result f₂ h₂ hresult => ?_
    have hn₂ := h₂.isVar (h₁.isVar hn)
    refine .bind (addOp_makes (.some hn₂) (.some (h₂.isArg (hid _ rfl))) (.some hresult) rfl rfl).discard
      fun _ f₃ h₃ _ => ?_
    exact .pure (.some (h₃.isVar hresult))
  · exact .bind remark_makes fun _ _ _ _ => .pure .none

theorem dialogCustomLayout_makes {layout : NodeId} (hn : f.graph.IsValue n) (hl : f.graph.IsArg layout) :
    Makes c f (dialogCustomLayout n layout site) fun _ _ => True := by
  unfold dialogCustomLayout
  refine .bind (dialogVar_makes hn) fun window f₁ h₁ hwindow => ?_
  refine .bind (findSystemWidget_makes hwindow) fun custom f₂ h₂ hcustom => ?_
  split
  · refine .bind freshVar_makes fun view f₃ h₃ hview => ?_
    have hl₃ := ((h₁.trans h₂).trans h₃).isArg hl
    refine .bind (addOp_makes .none (.some hl₃) (.some hview) rfl rfl).discard fun _ f₄ h₄ _ => ?_
    have hcustom₄ := (h₃.trans h₄).isVar (hcustom _ rfl)
    exact (addOp_makes (.some hcustom₄) (.some (h₄.isVar hview).isArg) .none rfl rfl).discard
  · exact .pure trivial

theorem dialogSetView_builds {view : Option Value} (hn : f.graph.IsValue n) :
    Builds c f (dialogSetView n site view) fun _ _ => True := by
  unfold dialogSetView
  split
  · exact .pure trivial
  · exact .pure trivial
  · refine .liftBind (dialogVar_makes hn) fun window f₁ h₁ hwindow => ?_
    refine .liftBind (findSystemWidget_makes hwindow) fun custom f₂ h₂ hcustom => ?_
    split
    · refine .liftBind varNode_makes fun v f₃ h₃ hv => ?_
      exact .lift (addOp_makes (.some (h₃.isVar (hcustom _ rfl))) (.some hv.isArg) .none rfl rfl).discard
    · exact .pure trivial
  · refine .liftBind knownIdNode_makes fun layout f₁ h₁ hlayout => ?_
    split
    · refine .read rfl ?_
      split
      · exact .lift (dialogCustomLayout_makes (h₁.isValue hn) (hlayout _ rfl))
      · exact .lift remark_makes
    · exact .lift remark_makes
  · exact report_builds

theorem dialogContent_makes (hn : f.graph.IsValue n) : Makes c f (dialogContent n site) fun _ _ => True := by
  unfold dialogContent
  refine .bind systemLayoutNode_makes fun layout f₁ h₁ hlayout => ?_
  split
  · refine .bind (dialogVar_makes (h₁.isValue hn)) fun window f₂ h₂ hwindow => ?_
    exact (addOp_makes (.some hwindow) (.some (h₂.isArg (hlayout _ rfl))) .none rfl rfl).discard
  · exact remark_makes

theorem pickerContent_makes {name : String} (hn : f.graph.IsValue n) :
    Makes c f (pickerContent n name site) fun _ _ => True := by
  unfold pickerContent
  refine .bind (dialogVar_makes hn) fun window f₁ h₁ hwindow => ?_
  refine .bind (findSystemWidget_makes hwindow).discard fun _ f₂ h₂ _ => ?_
  refine .bind systemLayoutNode_makes fun layout f₃ h₃ hlayout => ?_
  split
  · exact dialogCustomLayout_makes (((h₁.trans h₂).trans h₃).isValue hn) (hlayout _ rfl)
  · exact remark_makes

/-- A dialog that is shown is recorded as shown. -/
theorem showDialog_makes (hn : f.graph.IsValue n) :
    Makes c f (showDialog n site) fun _ f' => site.label ∈ (f'.recordOf n).shows := by
  unfold showDialog
  refine .keep ?_ (fun _ _ h => h.shows n _) fun _ f₁ h₁ => .read rfl ?_
  · refine Makes.imp (updateDialog_records hn ?_ fun _ _ h => h) fun _ f₁ hrecord => ?_
    · exact fun _ _ h => Container.mem_insert.mpr (.inr h)
    · rw [hrecord]
      exact Container.mem_insert.mpr (.inl rfl)
  split
  · refine .read rfl ?_
    split
    · exact .pure trivial
    refine .read rfl ?_
    split
    · exact .pure trivial
    refine .bind (insertFilledDialog_makes (h₁.isValue hn)) fun _ f₂ h₂ _ => ?_
    have hn₂ := h₂.isValue (h₁.isValue hn)
    refine .bind (dialogContent_makes hn₂) fun _ f₃ h₃ _ => ?_
    split
    · exact pickerContent_makes (h₃.isValue hn₂)
    · exact .pure trivial
  · exact .pure trivial

theorem dismissDialog_makes {labels : List Label} (hn : f.graph.IsValue n) :
    Makes c f (dismissDialog n labels) fun _ f' => ∀ l ∈ labels, l ∈ (f'.recordOf n).dismisses := by
  refine Makes.imp (updateDialog_records hn (fun _ _ h => h) ?_) fun _ f₁ hrecord l hl => ?_
  · exact fun _ _ h => Container.mem_insertMany.mpr (.inl h)
  · rw [hrecord]
    exact Container.mem_insertMany.mpr (.inr hl)

theorem bindDialogHandlers_makes {listener : Option Value} {sub : String} (hn : f.graph.IsValue n) :
    Makes c f (bindDialogHandlers n listener sub) fun _ _ => True := by
  unfold bindDialogHandlers
  refine .bind objectsReaching?_makes fun objects f₁ h₁ hobjects => .read rfl (.read rfl ?_)
  extract_lets bound
  have hbound : ∀ k m, (k, m) ∈ bound → f₁.graph.IsValue k := by
    intro k m hk
    obtain ⟨j, hj, h⟩ := List.mem_filterMap.mp hk
    obtain ⟨o, _, h⟩ := Option.bind_eq_some_iff.mp h
    obtain ⟨m', _, h⟩ := Option.bind_eq_some_iff.mp h
    cases h
    exact hobjects k hj
  refine .bind (.each fun ⟨k, m⟩ hk f₂ h₂ => ?_) fun _ _ _ _ => .pure trivial
  refine .bind (flowToThis_makes (h₂.isValue (hbound k m hk))) fun _ f₃ h₃ _ => ?_
  exact flowToParam_makes (((h₁.trans h₂).trans h₃).isValue hn)

theorem dialogListener_makes {listener : Option Value} {sub : String} (hn : f.graph.IsValue n) :
    Makes c f (dialogListener n listener sub) fun _ _ => True := by
  unfold dialogListener
  refine .bind (bindDialogHandlers_makes hn) fun methods f₁ h₁ _ => ?_
  split
  · exact .pure trivial
  · exact updateDialog_makes (h₁.isValue hn) (fun _ _ h => h) fun _ _ h => h

theorem dialogButton_makes {which : Nat} {listener : Option Value} (hn : f.graph.IsValue n) :
    Makes c f (dialogButton n which listener site) fun _ _ => True := by
  unfold dialogButton
  refine .bind (dialogVar_makes hn) fun window f₁ h₁ hwindow => ?_
  refine .bind (findSystemWidget_makes hwindow) fun button f₂ h₂ hbutton => ?_
  split
  · refine .bind (bindDialogHandlers_makes ((h₁.trans h₂).isValue hn)) fun methods f₃ h₃ _ => ?_
    refine .bind (addNode_makes rfl rfl rfl) fun object f₄ h₄ hobject => ?_
    refine .bind freshVar_makes fun v f₅ h₅ hv => ?_
    refine .bind (addEdge_makes (h₅.isValue hobject) hv.isPointer).discard fun _ f₆ h₆ _ => ?_
    have hbutton₆ := ((h₃.trans h₄).trans (h₅.trans h₆)).isVar (hbutton _ rfl)
    rw [← bind_assoc]
    refine .bind (addSynthetic_makes hbutton₆ (h₆.isVar hv).isArg) fun _ f₇ h₇ _ => ?_
    have hn₇ := ((((h₁.trans h₂).trans h₃).trans (h₄.trans h₅)).trans (h₆.trans h₇)).isValue hn
    exact updateDialog_makes hn₇ (fun _ _ h => h) fun _ _ h => Container.mem_insert.mpr (.inr h)
  · exact .pure trivial

theorem notCancelable_bounded {k : Nat} {a : Node} (h : a.Bounded k) : (notCancelable a).Bounded k := by
  unfold notCancelable
  split
  · exact { h with menu := nofun }
  · exact h

theorem notCancelable_bare (a : Node) :
    (notCancelable a).texts = a.texts ∧ (notCancelable a).drawables = a.drawables := by
  unfold notCancelable
  split <;> exact ⟨rfl, rfl⟩

theorem applySetter_builds {onBuilder : Bool} (hn : f.graph.IsValue n) :
    Builds c f (applySetter n site call onBuilder) fun _ _ => True := by
  unfold applySetter
  refine .ite (.lift (dialogListener_makes hn)) ?_
  refine .ite (.lift (dialogListener_makes hn)) ?_
  refine .ite (.lift (dialogListener_makes hn)) ?_
  refine .ite (.lift (dialogListener_makes hn)) ?_
  refine .ite (dialogSetView_builds hn) ?_
  refine .ite (.ite (.lift ?_) (.pure trivial)) ?_
  · exact updateNode_makes notCancelable_alike (fun _ => notCancelable_bounded) notCancelable_bare
  refine .ite ?_ (.ite (.ite ?_ (.pure trivial)) (.pure trivial))
  · refine .ite (.lift (dialogButton_makes hn)) ?_
    exact .ite (.lift (dialogButton_makes hn)) (.ite (.lift (dialogButton_makes hn)) (.pure trivial))
  · split
    · exact .lift (dialogButton_makes hn)
    · exact .pure trivial

theorem applySetters_builds {sites : List Site} {onBuilder : Bool} (hn : f.graph.IsValue n) :
    Builds c f (applySetters n sites onBuilder) fun _ _ => True := by
  refine .each fun s _ f₁ h₁ => ?_
  split
  · exact applySetter_builds (h₁.isValue hn)
  · exact .pure trivial

theorem runBuilders_builds : Builds c f runBuilders fun _ _ => True := by
  unfold runBuilders
  refine .liftBind resolveReceivers_makes fun creates f₁ h₁ _ => ?_
  refine .liftBind resolveReceivers_makes fun setters f₂ h₂ _ => ?_
  refine .each fun ⟨builder, sites⟩ _ f₃ h₃ => .each fun s _ f₄ h₄ => ?_
  refine .liftBind dialogNode_makes fun dialog f₅ h₅ hdialog => ?_
  extract_lets fill
  have hfill : ∀ u f₆, f₅.graph.Extends f₆.graph → Builds c f₆ (fill u) fun _ _ => True := by
    intro u f₆ h₆
    refine .bind (applySetters_builds (h₆.isValue hdialog)) fun _ f₇ h₇ _ => ?_
    split
    · exact .lift (showDialog_makes (h₇.isValue (h₆.isValue hdialog))).any
    · exact .pure trivial
  split
  · exact .liftBind (flowTo_makes hdialog).discard fun u f₆ h₆ _ => hfill u f₆ h₆
  · exact hfill () f₅ (.refl _)

theorem dialogsOfActivity_makes : Makes c f (dialogsOfActivity site) (AllIn Graph.IsValue) := by
  unfold dialogsOfActivity
  split
  · refine .bind objectsReaching_makes fun reaching f₁ h₁ _ => .read rfl (.read rfl ?_)
    dsimp only
    have hfold : ∀ ls : List Local, Makes c f₁ (ls.foldlM (fun (found : NodeSet) l => do
        let objects ← objectsReaching l
        let g ← getGraph
        return found.insertMany (objects.filter fun n => (g.object? n).any (·.isDialog))) ∅)
        fun found f' => ∀ n ∈ found, f'.graph.IsValue n := by
      refine fun ls => .foldlM (by simp) fun found l _ f₂ h₂ hfound => ?_
      refine .bind objectsReaching_makes fun objects f₃ h₃ hobjects => .read rfl (.pure fun n hn => ?_)
      rcases Container.mem_insertMany.mp hn with hn | hn
      · exact h₃.isValue (hfound n hn)
      · exact hobjects n (List.mem_filter.mp hn).1
    refine .bind (hfold _) fun found f₂ h₂ hfound => .pure fun n hn => ?_
    exact hfound n (ExtTreeSet.mem_toList.mp hn)
  · exact .pure nofun

theorem runActivityDialogs_makes {role : Role} {act : NodeId → Site → Edit Unit}
    (hact : ∀ n s f, f.graph.IsValue n → Makes c f (act n s) fun _ _ => True) :
    Makes c f (runActivityDialogs role act) fun _ _ => True := by
  unfold runActivityDialogs
  refine .read rfl (.each fun s _ f₁ h₁ => ?_)
  refine .bind dialogsOfActivity_makes fun dialogs f₂ h₂ hdialogs => ?_
  extract_lets apply
  have happly : ∀ u f₃, f₂.graph.Extends f₃.graph → Makes c f₃ (apply u) fun _ _ => True := fun u f₃ h₃ =>
    .each fun d hd f₄ h₄ => hact d s f₄ (h₄.isValue (h₃.isValue (hdialogs d hd)))
  split
  · exact .bind remark_makes fun u f₃ h₃ _ => happly u f₃ h₃
  · exact happly () f₂ (.refl _)

/-! ## Tabs -/

theorem deferTabCall_builds : Builds c f (deferTabCall site call) fun _ _ => True := by
  unfold deferTabCall
  split
  · refine .read rfl ?_
    dsimp only
    split
    · split
      · split
        · exact .lift defer_makes
        · exact .pure trivial
        · exact report_builds
      split
      · split
        · have hspec : Makes c f (tabSpecNode site) fun n f' => f'.graph.IsValue n :=
            allocOnce_makes rfl rfl fun _ _ _ => .pure trivial
          exact .liftBind hspec fun spec f₁ h₁ hn => .lift (flowTo_makes hn).discard
        · exact .pure trivial
      · exact .pure trivial
    split
    · split
      · refine .liftBind defer_makes fun _ f₁ h₁ _ => ?_
        split
        · exact .liftBind varNode_makes fun spec f₂ h₂ hn => .lift (flowTo_makes hn.isValue).discard
        · exact .pure trivial
      · exact .pure trivial
    · exact .pure trivial
  · exact .pure trivial

theorem tabIndicator_makes : Makes c f (tabIndicator site) (SomeIn Graph.IsVar) := by
  unfold tabIndicator
  split
  · split
    · split
      · exact .map (varNode_makes.imp fun _ _ => .some)
      · exact .pure .none
    · extract_lets place show_
      have hshow : ∀ layout f₁, SomeIn Graph.IsArg layout f₁ → Makes c f₁ (show_ layout) (SomeIn Graph.IsVar) := by
        intro layout f₁ hlayout
        dsimp -zeta only [show_]
        split
        · refine .bind freshVar_makes fun indicator f₂ h₂ hindicator => ?_
          refine .bind (addOp_makes .none (.some (h₂.isArg (hlayout _ rfl))) (.some hindicator) rfl rfl).discard
            fun _ f₃ h₃ _ => ?_
          refine .bind valueNode?_makes fun label f₄ h₄ hlabel => ?_
          have hindicator₄ := h₄.isVar (h₃.isVar hindicator)
          extract_lets answer
          split
          · refine .bind (addOp_makes (.some hindicator₄) (.some (hlabel _ rfl)) .none rfl rfl).discard fun _ f₅ h₅ _ => ?_
            exact .pure (.some (h₅.isVar hindicator₄))
          · exact .pure (.some hindicator₄)
        · exact .bind remark_makes fun _ _ _ _ => .pure .none
      refine .bind systemLayoutNode_makes fun layout f₁ h₁ hlayout => ?_
      split
      · exact .read rfl (hshow _ f₁ hlayout)
      · exact .bind systemLayoutNode_makes fun layout f₂ h₂ hlayout => hshow layout f₂ hlayout
  · exact .pure .none

theorem factoryContents_makes {factory : Local} : Makes c f (factoryContents factory) (AllIn Graph.IsVar) := by
  unfold factoryContents
  refine .bind objectsReaching_makes fun objects f₁ h₁ hobjects => .read rfl (.read rfl ?_)
  refine .bind (Q := fun made f' => ∀ ns ∈ made, AllIn Graph.IsVar ns f') ?_
    fun made f₂ h₂ hmade => .pure fun n hn => ?_
  · refine .mapM (fun ns _ _ h hns => hns.mono Graph.isVar_stays h) fun n hn f₂ h₂ => ?_
    split
    · refine .bind (flowToThis_makes (h₂.isValue (hobjects n hn))) fun _ f₃ h₃ _ => ?_
      exact .mapM (fun _ _ _ h => h.isVar) fun l _ f₄ h₄ => varNode_makes
    · exact .pure nofun
  · obtain ⟨ns, hns, hn⟩ := List.mem_flatten.mp hn
    exact hmade ns hns n hn

/-- The nodes that a tab brings are locals and arguments. -/
structure TabIn (v : TabViews) (f : Flowgraph) : Prop where
  indicators : AllIn Graph.IsVar v.indicators f
  contents : AllIn Graph.IsVar v.contents f
  contentIds : ∀ n l, (n, l) ∈ v.contentIds → f.graph.IsArg n

theorem TabIn.mono {v : TabViews} (hg : f.graph.Extends f'.graph) (h : TabIn v f) : TabIn v f' :=
  ⟨h.indicators.mono Graph.isVar_stays hg, h.contents.mono Graph.isVar_stays hg,
    fun n l hn => hg.isArg (h.contentIds n l hn)⟩

theorem TabIn.empty : TabIn {} f := ⟨nofun, nofun, nofun⟩

theorem tabContent_makes {v : TabViews} (hv : TabIn v f) : Makes c f (tabContent v site) TabIn := by
  unfold tabContent
  split
  · dsimp only
    split
    · refine .bind valueNode?_makes fun id f₁ h₁ hid => ?_
      have hv₁ := hv.mono h₁
      split
      · refine .read rfl ?_
        split
        · refine .pure ⟨hv₁.indicators, hv₁.contents, fun n l hn => ?_⟩
          rcases List.mem_append.mp hn with hn | hn
          · exact hv₁.contentIds n l hn
          · cases List.mem_singleton.mp hn
            exact hid _ rfl
        · refine .bind freshVar_makes fun content f₂ h₂ hcontent => ?_
          refine .bind (addOp_makes .none (.some (h₂.isArg (hid _ rfl))) (.some hcontent) rfl rfl).discard
            fun _ f₃ h₃ _ => ?_
          have hv₃ := hv₁.mono (h₂.trans h₃)
          refine .pure ⟨hv₃.indicators, fun n hn => ?_, hv₃.contentIds⟩
          rcases List.mem_append.mp hn with hn | hn
          · exact hv₃.contents n hn
          · rw [List.mem_singleton.mp hn]
            exact h₃.isVar hcontent
      · exact .bind remark_makes fun _ f₂ h₂ _ => .pure (hv₁.mono h₂)
    split
    · split
      · refine .bind factoryContents_makes fun made f₁ h₁ hmade => ?_
        have hv₁ := hv.mono h₁
        exact .pure ⟨hv₁.indicators, fun n hn => (List.mem_append.mp hn).elim (hv₁.contents n) (hmade n), hv₁.contentIds⟩
      · exact .pure hv
    · exact .bind remark_makes fun _ f₁ h₁ _ => .pure (hv.mono h₁)
  · exact .pure hv

theorem findInTabHost_makes {name cls : String} (hn : f.graph.IsVar n) :
    Makes c f (findInTabHost n name cls site) (SomeIn Graph.IsVar) := by
  unfold findInTabHost
  refine .bind systemWidgetNode_makes fun id f₁ h₁ hid => ?_
  split
  · refine .bind freshVar_makes fun result f₂ h₂ hresult => ?_
    have hn₂ := h₂.isVar (h₁.isVar hn)
    refine .bind (addOp_makes (.some hn₂) (.some (h₂.isArg (hid _ rfl))) (.some hresult) rfl rfl).discard
      fun _ f₃ h₃ _ => ?_
    exact .pure (.some (h₃.isVar hresult))
  · exact .bind remark_makes fun _ _ _ _ => .pure .none

theorem addToTabHost_makes {views : List NodeId} {name cls : String} {origin : Synthesis} (hn : f.graph.IsVar n)
    (hviews : AllIn Graph.IsVar views f) : Makes c f (addToTabHost n views name cls origin site) fun _ _ => True := by
  unfold addToTabHost
  split
  · exact .pure trivial
  refine .bind (findInTabHost_makes hn) fun parent f₁ h₁ hparent => ?_
  split
  · refine .each fun v hv f₂ h₂ => ?_
    have hv₂ := (h₁.trans h₂).isVar (hviews v hv)
    exact (addOp_makes (.some (h₂.isVar (hparent _ rfl))) (.some hv₂.isArg) .none rfl rfl).discard
  · exact .pure trivial

theorem addTab_makes {v : TabViews} (hn : f.graph.IsVar n) (hv : TabIn v f) :
    Makes c f (addTab n v site) fun _ _ => True := by
  unfold addTab
  refine .bind (addToTabHost_makes hn hv.indicators) fun _ f₁ h₁ _ => ?_
  refine .bind (addToTabHost_makes (h₁.isVar hn) (hv.mono h₁).contents) fun _ f₂ h₂ _ => ?_
  refine .each fun ⟨id, location⟩ hid f₃ h₃ => ?_
  refine .bind freshVar_makes fun content f₄ h₄ hcontent => ?_
  have h := ((h₁.trans h₂).trans h₃).trans h₄
  have hid := h.isArg (hv.contentIds id location hid)
  exact (addOp_makes (.some (h.isVar hn)) (.some hid) (.some hcontent) rfl rfl).discard

/-- What each tab brings is locals and arguments. -/
def TabsIn (m : ExtTreeMap NodeId TabViews) (f : Flowgraph) : Prop := ∀ n, TabIn (m.getD n {}) f

theorem TabsIn.insert {m : ExtTreeMap NodeId TabViews} {v : TabViews} (hm : TabsIn m f) (hv : TabIn v f) :
    TabsIn (m.insert n v) f := by
  intro k
  rw [ExtTreeMap.getD_insert]
  split
  · exact hv
  · exact hm k

theorem TabsIn.mono {m : ExtTreeMap NodeId TabViews} (hg : f.graph.Extends f'.graph) (h : TabsIn m f) : TabsIn m f' :=
  fun n => (h n).mono hg

theorem tabViews_makes : Makes c f tabViews TabsIn := by
  unfold tabViews
  refine .bind resolveReceivers_makes fun indicators f₁ h₁ _ => ?_
  refine .bind (Q := TabsIn) ?_ fun views f₂ h₂ hviews => ?_
  · refine .foldlM (fun n => by simpa using TabIn.empty) fun views ⟨spec, sites⟩ _ f₂ h₂ hviews => ?_
    refine .bind (.filterMapM Graph.isVar_stays fun s _ f₃ h₃ => tabIndicator_makes) fun found f₃ h₃ hfound => ?_
    exact .pure ((hviews.mono h₃).insert ⟨hfound, nofun, nofun⟩)
  · refine .bind resolveReceivers_makes fun contents f₃ h₃ _ => ?_
    refine .foldlM (hviews.mono h₃) fun views ⟨spec, sites⟩ _ f₄ h₄ hviews => ?_
    have hcontents : Makes c f₄ (sites.foldlM tabContent (views.getD spec {})) TabIn :=
      .foldlM (hviews spec) fun v s _ f₅ h₅ hv => tabContent_makes hv
    exact .bind hcontents fun v f₅ h₅ hv => .pure ((hviews.mono h₅).insert hv)

theorem runTabs_makes : Makes c f runTabs fun _ _ => True := by
  unfold runTabs
  refine .bind tabViews_makes fun views f₁ h₁ hviews => .read rfl (.each fun s _ f₂ h₂ => ?_)
  split
  · refine .bind varNode_makes fun host f₃ h₃ hhost => ?_
    refine .bind objectsReaching_makes fun reaching f₄ h₄ _ => .read rfl ?_
    extract_lets specs add
    have hadd : ∀ u f₅, f₄.graph.Extends f₅.graph → Makes c f₅ (add u) fun _ _ => True := by
      refine fun u f₅ h₅ => .each fun n _ f₆ h₆ => ?_
      have h := (h₄.trans h₅).trans h₆
      exact addTab_makes (h.isVar hhost) ((hviews n).mono ((h₂.trans h₃).trans h))
    split
    · exact .bind remark_makes fun u f₅ h₅ _ => hadd u f₅ h₅
    · exact hadd () f₄ (.refl _)
  · exact .pure trivial

/-! ## Calls and assignments -/

theorem deferCall_builds : Builds c f (deferCall site call) fun _ _ => True := by
  unfold deferCall
  refine .liftBind deferListCall_makes fun b f₁ _ _ => ?_
  split
  · exact .pure trivial
  refine .liftBind deferDialogCall_makes fun b f₂ _ _ => ?_
  split
  · exact .pure trivial
  refine .liftBind deferBuilderCall_makes fun b f₃ _ _ => ?_
  split
  · exact .pure trivial
  exact deferTabCall_builds

theorem flowValue_makes {v : Value} {l : Local} : Makes c f (flowValue v l site) fun _ _ => True := by
  unfold flowValue
  refine .bind valueNode_makes fun n f₁ h₁ hn => ?_
  split
  · exact (flowTo_makes (hn _ rfl).isValue).discard
  · exact .pure trivial

theorem bindCall_makes {m : Method} : Makes c f (bindCall site call m) fun _ _ => True := by
  unfold bindCall
  extract_lets bindRest
  have hrest : ∀ u f₁, Makes c f₁ (bindRest u) fun _ _ => True := by
    intro u f₁
    refine .bind (.each fun ⟨arg, i⟩ _ f₂ _ => ?_) fun _ f₂ _ _ => ?_
    · dsimp only
      split
      · exact flowValue_makes
      · exact .pure trivial
    · split
      · exact .each fun v _ f₃ _ => flowValue_makes
      · exact .pure trivial
  split
  · exact .bind flowValue_makes fun u f₁ _ _ => hrest u f₁
  · exact hrest () f

theorem addCall_builds : Builds c f (addCall site call) fun _ _ => True := by
  unfold addCall
  refine .bind recognize_builds fun answer f₁ h₁ _ => ?_
  split
  · exact .pure trivial
  · exact .pure trivial
  · refine .bind deferCall_builds fun _ f₂ h₂ _ => .read rfl ?_
    exact .each fun ⟨signature, m⟩ _ f₃ h₃ => .lift bindCall_makes

theorem addAssignment_makes {lhs : Place} {rhs : Expr} : Makes c f (addAssignment site lhs rhs) fun _ _ => True := by
  unfold addAssignment
  split
  · exact .pure trivial
  split
  · exact .pure trivial
  · exact .pure trivial
  · exact .pure trivial
  · exact defer_makes
  · exact defer_makes
  · refine .bind exprNode_makes fun source f₁ h₁ hsource => ?_
    refine .bind placeNode_makes fun target f₂ h₂ htarget => ?_
    split
    · refine .bind (addEdge_makes (h₂.isValue (hsource _ rfl)) (htarget _ rfl)).discard fun _ f₃ h₃ _ => .read rfl ?_
      split
      · exact (flowTo_makes ((h₂.trans h₃).isValue (hsource _ rfl))).discard
      · exact .pure trivial
    · exact .pure trivial

theorem linkArray_makes : Makes c f (linkArray n) fun _ _ => True := by
  unfold linkArray
  refine .read rfl (.each fun w _ f₁ h₁ => ?_)
  split
  · refine .bind exprNode_makes fun source f₂ h₂ hsource => ?_
    split
    · refine .each fun r _ f₃ h₃ => ?_
      split
      · exact (flowTo_makes (h₃.isValue (hsource _ rfl))).discard
      · exact .pure trivial
    · exact .pure trivial
  · exact .pure trivial

theorem linkArrays_makes : Makes c f linkArrays fun _ _ => True :=
  .read rfl (.each fun _ _ _ _ => linkArray_makes)

theorem addStmt_builds : Builds c f (addStmt site) fun _ _ => True := by
  unfold addStmt
  split
  · exact addCall_builds
  · exact .lift addAssignment_makes
  · exact .pure trivial

theorem addStmts_builds : Builds c f addStmts fun _ _ => True := by
  unfold addStmts
  exact .read rfl (.each fun m _ f₁ _ => .each fun i _ f₂ _ => addStmt_builds)

/-! ## All of it -/

/-- The construction until the calls on dialogs are looked at. -/
def collect : Build Unit := do
  createIdNodes
  addCallbacks
  addStmts
  linkArrays
  runBuilders

/-- The calls that show and dismiss dialogs. -/
def recordCalls : Build Unit := do
  let shows ← resolveReceivers .dialogShow (·.isDialog)
  shows.toList.forM fun (d, sites) => sites.forM fun s => showDialog d s
  let dismisses ← resolveReceivers .dialogDismiss (·.isDialog)
  dismisses.toList.forM fun (d, sites) => dismissDialog d (sites.map (·.label))

/-- The construction after that. -/
def finish : Build Unit := do
  let setters ← resolveReceivers .dialogSet (·.isDialog)
  setters.toList.forM fun (d, sites) => applySetters d sites false
  runActivityDialogs .activityShow showDialog
  runActivityDialogs .activityDismiss fun d s => dismissDialog d [s.label]
  addDefaultRoots
  addListItemClicks
  runLists
  runTabs
  runMenuTasks
  remark (.graphBuilt (← getGraph).size)

theorem construct_eq : construct = (do collect; recordCalls; finish) := by
  simp only [construct, collect, recordCalls, finish, runDialogs, bind_assoc]

theorem collect_builds : Builds c f collect fun _ _ => True := by
  unfold collect
  refine .liftBind createIdNodes_makes fun _ f₁ _ _ => ?_
  refine .liftBind addCallbacks_makes fun _ f₂ _ _ => ?_
  refine .bind addStmts_builds fun _ f₃ _ _ => ?_
  exact .liftBind linkArrays_makes fun _ f₄ _ _ => runBuilders_builds

theorem recordCalls_builds : Builds c f recordCalls fun _ _ => True := by
  unfold recordCalls
  refine .liftBind resolveReceivers_makes fun shows f₁ h₁ hshows => ?_
  refine .bind (.each fun ⟨d, sites⟩ hd f₂ h₂ => .each fun s _ f₃ h₃ => .lift ?_) fun _ f₂ h₂ _ => ?_
  · exact (showDialog_makes (h₃.isValue (h₂.isValue (hshows d sites hd)))).any
  refine .liftBind resolveReceivers_makes fun dismisses f₃ h₃ hdismisses => .each fun ⟨d, sites⟩ hd f₄ h₄ => .lift ?_
  exact (dismissDialog_makes (h₄.isValue (hdismisses d sites hd))).any

theorem finish_builds : Builds c f finish fun _ _ => True := by
  unfold finish
  refine .liftBind resolveReceivers_makes fun setters f₁ h₁ hsetters => ?_
  refine .bind (.each fun ⟨d, sites⟩ hd f₂ h₂ => applySetters_builds (h₂.isValue (hsetters d sites hd))) fun _ f₂ _ _ => ?_
  refine .liftBind (runActivityDialogs_makes fun _ _ _ hd => (showDialog_makes hd).any) fun _ f₃ _ _ => ?_
  refine .liftBind (runActivityDialogs_makes fun _ _ _ hd => (dismissDialog_makes hd).any) fun _ f₄ _ _ => ?_
  refine .liftBind addDefaultRoots_makes fun _ f₅ _ _ => ?_
  refine .liftBind addListItemClicks_makes fun _ f₆ _ _ => ?_
  refine .liftBind runLists_makes fun _ f₇ _ _ => ?_
  refine .liftBind runTabs_makes fun _ f₈ _ _ => ?_
  refine .liftBind runMenuTasks_makes fun _ f₉ _ _ => ?_
  exact .read rfl (.lift remark_makes)

theorem construct_builds : Builds c f construct fun _ _ => True := by
  rw [construct_eq]
  refine .bind collect_builds fun _ f₁ _ _ => ?_
  exact .bind recordCalls_builds fun _ f₂ _ _ => finish_builds

theorem valid_empty : Valid {} where
  closed := ⟨fun a h => by simp at h, fun a h => by simp at h⟩
  nodes n a h := by simp [Graph.node?] at h
  filed := by
    refine ⟨?_, ?_, ?_, ⟨?_, ?_, ?_, ?_, ?_, ?_⟩, ?_, ?_, ?_, ?_, ?_⟩
    all_goals simp
  carries a h := by simp at h
  suits n o h := by simp [Graph.op?, Graph.node?] at h
  wired n o h := by simp [Graph.op?, Graph.node?] at h
  returns n o h := by simp [Graph.op?, Graph.node?] at h
  allocs l n h := by simp at h
  itemMenus l n h := by simp at h
  dialogVars l n h := by simp at h
  itemLayouts l n h := by simp at h

theorem construct_of_build (h : build c = .ok f) : construct c {} = (.ok (), f) := by
  unfold build at h
  split at h
  · rename_i hrun
    cases h
    exact hrun
  · cases h

/-- The construction is a sequence of additions, also if a violation ends it. -/
theorem construct_additions : Additions c {} (construct c {}).2 := by
  have hc : Builds c {} construct fun _ _ => True := construct_builds
  have hrun := hc.run valid_empty
  rcases h : construct c {} with ⟨e | ⟨⟩, f⟩
  · obtain ⟨f', h₁, h₂⟩ := hrun.error h
    exact h₁.trans h₂
  · exact (hrun.ok h).1

theorem additions_of_build (h : build c = .ok f) : Additions c {} f := by
  have hadd := construct_additions (c := c)
  rw [construct_of_build h] at hadd
  exact hadd

/-- Nothing in a built flowgraph is inflated. -/
theorem not_isInflated_of_build (h : build c = .ok f) : (f.graph.object? n).any (·.isInflated) = false :=
  (additions_of_build h).advances.inflated n

/-- **Built flowgraphs are well formed**, and nothing is inflated or inside anything yet. -/
theorem build_valid (h : build c = .ok f) : f.Valid ∧ f.inflations = ∅ ∧ f.graph.containment = ∅ := by
  have hadv := (additions_of_build h).advances
  exact ⟨hadv.valid valid_empty, hadv.inflations, hadv.containment⟩

end WidgetFlow.Flowgraph
