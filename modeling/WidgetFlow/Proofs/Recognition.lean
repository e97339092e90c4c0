import WidgetFlow.Flowgraph.Recognition
import WidgetFlow.Proofs.Building

/-!
# The recognisers make well formed operations

Each recogniser hands nodes of locals, ids and texts to the operation that it makes, in the slots that the operation
has, so the flowgraph stays well formed (`recognize_builds`).
-/

namespace WidgetFlow.Flowgraph

variable {c : Context} {f : Flowgraph} {site : Site} {call : Call}

theorem idOperand_makes {v : Value} : Makes c f (idOperand v) (SomeIn Graph.IsArg) := by
  cases v with
  | var l => exact .map (varNode_makes.imp fun _ _ h => .some h.isArg)
  | int n => exact knownIdNode_makes
  | str | null | other => exact .pure .none

/-- A new operation, which is the answer. -/
theorem operation_builds {k : OpKind} {place : CallSite} {r p s : Option NodeId} (hr : SomeIn Graph.IsVar r f)
    (hp : SomeIn Graph.IsArg p f) (hs : SomeIn Graph.IsVar s f)
    (hk : (Op.mk k place (place.origin != .program) r p s).slots = k.tag.slots) (ht : (k.tag == .setListener) = false) :
    Builds c f (do let op ← addOp k place r p s; return Recognition.operation op) fun _ _ => True :=
  .liftBind (addOp_makes hr hp hs hk ht) fun _ _ _ _ => .pure trivial

/-! ## Layouts and content -/

theorem recognizeInflate_builds : Builds c f (recognizeInflate site call) fun _ _ => True := by
  unfold recognizeInflate
  refine .read rfl ?_
  split
  · split
    · exact .pure trivial
    refine .liftBind idOperand_makes fun layout f₁ h₁ hlayout => ?_
    split
    · split
      · refine .liftBind freshVar_makes fun view f₂ h₂ hview => ?_
        refine .liftBind (addOp_makes .none (.some (h₂.isArg (hlayout _ rfl))) (.some hview) rfl rfl) fun op f₃ h₃ _ => ?_
        refine .liftBind varNode_makes fun root f₄ h₄ hroot => ?_
        have hview₄ := h₄.isVar (h₃.isVar hview)
        refine .liftBind (addOp_makes (.some hroot) (.some hview₄.isArg) .none rfl rfl).discard fun _ f₅ h₅ _ => ?_
        extract_lets answer
        split
        · exact .liftBind (flowTo_makes (h₅.isValue hview₄.isValue)).discard fun _ _ _ _ => .pure trivial
        · exact .pure trivial
      · refine .liftBind varNode_makes fun result f₂ h₂ hresult => ?_
        exact operation_builds .none (.some (h₂.isArg (hlayout _ rfl))) (.some hresult) rfl rfl
      · exact .pure trivial
    · exact .pure trivial
  · exact .pure trivial

theorem recognizeSetContent_builds : Builds c f (recognizeSetContent site call) fun _ _ => True := by
  unfold recognizeSetContent
  refine .read rfl ?_
  split
  · exact .pure trivial
  split
  · split
    · exact .pure trivial
    refine .liftBind idOperand_makes fun layout f₁ h₁ hlayout => ?_
    split
    · refine .liftBind varNode_makes fun window f₂ h₂ hwindow => ?_
      exact operation_builds (.some hwindow) (.some (h₂.isArg (hlayout _ rfl))) .none rfl rfl
    · exact .pure trivial
  · exact .pure trivial

theorem recognizeSetRoot_builds : Builds c f (recognizeSetRoot site call) fun _ _ => True := by
  unfold recognizeSetRoot
  refine .read rfl ?_
  split
  · exact .pure trivial
  split
  · refine .liftBind varNode_makes fun window f₁ h₁ hwindow => ?_
    refine .liftBind varNode_makes fun view f₂ h₂ hview => ?_
    exact operation_builds (.some (h₂.isVar hwindow)) (.some hview.isArg) .none rfl rfl
  · exact .pure trivial
  · exact .pure trivial

theorem recognizeAddChild_builds : Builds c f (recognizeAddChild site call) fun _ _ => True := by
  unfold recognizeAddChild
  refine .read rfl ?_
  split
  · exact .pure trivial
  split
  · refine .liftBind varNode_makes fun parent f₁ h₁ hparent => ?_
    refine .liftBind varNode_makes fun child f₂ h₂ hchild => ?_
    exact operation_builds (.some (h₂.isVar hparent)) (.some hchild.isArg) .none rfl rfl
  · exact .pure trivial
  · exact .pure trivial

/-! ## Look-up -/

theorem find_builds {receiver lhs : Local} {query : FindQuery} {id : NodeId} (hid : f.graph.IsArg id) :
    Builds c f (recognizeFindView.find site receiver lhs query id) fun _ _ => True := by
  unfold recognizeFindView.find
  refine .liftBind varNode_makes fun r f₁ h₁ hr => ?_
  refine .liftBind varNode_makes fun s f₂ h₂ hs => ?_
  exact operation_builds (.some (h₂.isVar hr)) (.some (h₂.isArg (h₁.isArg hid))) (.some hs) rfl rfl

theorem recognizeFindView_builds : Builds c f (recognizeFindView site call) fun _ _ => True := by
  unfold recognizeFindView
  refine .read rfl ?_
  dsimp only
  split
  · split
    · split
      · split
        · refine .liftBind knownIdNode_makes fun known f₁ h₁ hknown => ?_
          split
          · exact .read rfl (find_builds (hknown _ rfl))
          · exact .liftBind widgetIdNode_makes fun id f₂ h₂ hid => find_builds hid
        · exact .pure trivial
        · refine .liftBind idOperand_makes fun id f₁ h₁ hid => ?_
          split
          · exact find_builds (hid _ rfl)
          · exact .liftBind remark_makes fun _ _ _ _ => .pure trivial
      · exact .pure trivial
    · exact .pure trivial
  · exact .pure trivial

theorem recognizeFindInWindow_builds : Builds c f (recognizeFindInWindow site call) fun _ _ => True := by
  unfold recognizeFindInWindow
  refine .read rfl ?_
  split
  · exact .pure trivial
  split
  · split
    · refine .liftBind idOperand_makes fun id f₁ h₁ hid => ?_
      split
      · refine .liftBind varNode_makes fun window f₂ h₂ hwindow => ?_
        refine .liftBind varNode_makes fun result f₃ h₃ hresult => ?_
        exact operation_builds (.some (h₃.isVar hwindow)) (.some (h₃.isArg (h₂.isArg (hid _ rfl)))) (.some hresult) rfl rfl
      · exact .liftBind remark_makes fun _ _ _ _ => .pure trivial
    · exact .pure trivial
  · exact .pure trivial

theorem recognizeNavigate_builds : Builds c f (recognizeNavigate site call) fun _ _ => True := by
  unfold recognizeNavigate
  refine .read rfl ?_
  split
  · split
    · exact .pure trivial
    · split
      · split
        · refine .liftBind varNode_makes fun receiver f₁ h₁ hreceiver => ?_
          refine .liftBind varNode_makes fun result f₂ h₂ hresult => ?_
          exact operation_builds (.some (h₂.isVar hreceiver)) .none (.some hresult) rfl rfl
        · exact .pure trivial
      · exact .pure trivial
  · exact .pure trivial

/-! ## Attributes -/

theorem recognizeIdSetter_builds {kind : OpKind} {sub : String} (hk : [.receiver, .parameter] = kind.tag.slots)
    (ht : (kind.tag == .setListener) = false) :
    Builds c f (recognizeIdSetter kind sub site call) fun _ _ => True := by
  unfold recognizeIdSetter
  refine .read rfl ?_
  split
  · exact .pure trivial
  split
  · split
    · exact .pure trivial
    refine .liftBind idOperand_makes fun id f₁ h₁ hid => ?_
    split
    · refine .liftBind varNode_makes fun view f₂ h₂ hview => ?_
      exact operation_builds (.some hview) (.some (h₂.isArg (hid _ rfl))) .none hk ht
    · exact .liftBind remark_makes fun _ _ _ _ => .pure trivial
  · exact .pure trivial

/-! ## Menus -/

theorem recognizeAddItem_builds : Builds c f (recognizeAddItem site call) fun _ _ => True := by
  unfold recognizeAddItem
  refine .read rfl ?_
  split
  · exact .pure trivial
  split
  · refine .read rfl ?_
    extract_lets addItem
    have haddItem : ∀ item f₁, f₁.graph.IsValue item → Builds c f₁ (addItem item) fun _ _ => True := by
      intro item f₁ hitem
      dsimp -zeta only [addItem]
      extract_lets link
      have hlink : ∀ v f₂, f₁.graph.Extends f₂.graph → f₂.graph.IsVar v → Builds c f₂ (link v) fun _ _ => True := by
        intro v f₂ h₂ hv
        refine .liftBind (addEdge_makes (h₂.isValue hitem) hv.isPointer).discard fun _ f₃ h₃ _ => ?_
        extract_lets operate
        have hoperate : ∀ u f₄, f₃.graph.Extends f₄.graph → Builds c f₄ (operate u) fun _ _ => True := by
          intro u f₄ h₄
          refine .liftBind varNode_makes fun menu f₅ h₅ hmenu => ?_
          have hv₅ := h₅.isVar (h₄.isVar (h₃.isVar hv))
          refine .liftBind (addOp_makes (.some hmenu) (.some hv₅.isArg) .none rfl rfl) fun op f₆ h₆ _ => ?_
          refine .liftBind valueNode?_makes fun title f₇ h₇ htitle => ?_
          extract_lets answer
          split
          · exact .liftBind (addOp_makes (.some (h₇.isVar (h₆.isVar hv₅))) (.some (htitle _ rfl)) .none rfl rfl).discard
              fun _ _ _ _ => .pure trivial
          · exact .pure trivial
        split
        · split
          · refine .liftBind widgetIdNode_makes fun id f₄ h₄ hid => ?_
            refine .liftBind (updateNode_makes (fun a => .refl _) (fun a ha => ?_) fun a => ⟨rfl, rfl⟩) fun u f₅ h₅ _ => ?_
            · exact { ha with id := fun i hi => Option.some.inj hi ▸ hid.isValue.1 }
            · exact hoperate u f₅ (h₄.trans h₅)
          · exact hoperate () f₃ (.refl _)
        · exact hoperate () f₃ (.refl _)
      split
      · exact .liftBind varNode_makes fun v f₂ h₂ hv => hlink v f₂ h₂ hv
      · exact .liftBind freshVar_makes fun v f₂ h₂ hv => hlink v f₂ h₂ hv
    split
    · rename_i item hitem
      exact ⟨fun hf => .read rfl ((haddItem item f (hf.allocs _ _ hitem)).run hf)⟩
    · refine .liftBind (addNode_makes rfl rfl rfl) fun item f₁ h₁ hitem => ?_
      refine .liftBind (insertAlloc_makes hitem) fun _ f₂ h₂ _ => ?_
      exact .read rfl (haddItem item f₂ (h₂.isValue hitem))
  · exact .pure trivial

theorem recognizeSetTitle_builds : Builds c f (recognizeSetTitle site call) fun _ _ => True := by
  unfold recognizeSetTitle
  refine .read rfl ?_
  split
  · exact .pure trivial
  split
  · refine .liftBind valueNode?_makes fun title f₁ h₁ htitle => ?_
    split
    · refine .liftBind varNode_makes fun item f₂ h₂ hitem => ?_
      refine .liftBind (addOp_makes (.some hitem) (.some (h₂.isArg (htitle _ rfl))) .none rfl rfl) fun op f₃ h₃ _ => ?_
      extract_lets answer
      split
      · exact .liftBind (flowTo_makes (h₃.isValue hitem.isValue)).discard fun _ _ _ _ => .pure trivial
      · exact .pure trivial
    · exact .pure trivial
  · exact .pure trivial

theorem recognizeInflateMenu_builds : Builds c f (recognizeInflateMenu site call) fun _ _ => True := by
  unfold recognizeInflateMenu
  refine .read rfl ?_
  split
  · exact .pure trivial
  split
  · split
    · exact .pure trivial
    refine .liftBind idOperand_makes fun id f₁ h₁ hid => ?_
    split
    · refine .liftBind varNode_makes fun menu f₂ h₂ hmenu => ?_
      exact operation_builds (.some hmenu) (.some (h₂.isArg (hid _ rfl))) .none rfl rfl
    · exact .pure trivial
  · exact .pure trivial
  · exact .pure trivial

/-! ## Activities with tabs or a list -/

theorem recognizeGetTabHost_builds : Builds c f (recognizeGetTabHost site call) fun _ _ => True := by
  unfold recognizeGetTabHost
  split
  · exact .pure trivial
  split
  · refine .read rfl ?_
    split
    · exact .pure trivial
    refine .liftBind systemLayoutNode_makes fun layout f₁ h₁ hlayout => ?_
    refine .liftBind systemWidgetNode_makes fun hostId f₂ h₂ hhost => ?_
    split
    · refine .liftBind varNode_makes fun activity f₃ h₃ hactivity => ?_
      have hlayout₃ := h₃.isArg (h₂.isArg (hlayout _ rfl))
      refine .liftBind (addOp_makes (.some hactivity) (.some hlayout₃) .none rfl rfl) fun content f₄ h₄ _ => ?_
      split
      · refine .liftBind varNode_makes fun result f₅ h₅ hresult => ?_
        have hhost₅ := h₅.isArg (h₄.isArg (h₃.isArg (hhost _ rfl)))
        exact operation_builds (.some (h₅.isVar (h₄.isVar hactivity))) (.some hhost₅) (.some hresult) rfl rfl
      · exact .pure trivial
    · exact unusable_builds
  · exact .pure trivial

theorem recognizeGetListView_builds : Builds c f (recognizeGetListView site call) fun _ _ => True := by
  unfold recognizeGetListView
  refine .read rfl ?_
  split
  · exact .pure trivial
  split
  · split
    · refine .liftBind systemWidgetNode_makes fun listId f₁ h₁ hlist => ?_
      split
      · refine .liftBind varNode_makes fun activity f₂ h₂ hactivity => ?_
        refine .liftBind varNode_makes fun result f₃ h₃ hresult => ?_
        have hlist₃ := h₃.isArg (h₂.isArg (hlist _ rfl))
        exact operation_builds (.some (h₃.isVar hactivity)) (.some hlist₃) (.some hresult) rfl rfl
      · exact .liftBind remark_makes fun _ _ _ _ => .pure trivial
    · exact .pure trivial
  · exact .pure trivial

/-! ## All shapes -/

theorem recognizers_builds {r : Site → Call → Build Recognition} (hr : r ∈ recognizers) :
    Builds c f (r site call) fun _ _ => True := by
  simp only [recognizers, List.mem_cons, List.not_mem_nil, or_false] at hr
  rcases hr with rfl | rfl | rfl | rfl | rfl | rfl | rfl | rfl | rfl | rfl | rfl | rfl | rfl | rfl | rfl
  · exact recognizeInflate_builds
  · exact recognizeSetContent_builds
  · exact recognizeFindView_builds
  · exact recognizeFindInWindow_builds
  · exact recognizeNavigate_builds
  · exact recognizeSetRoot_builds
  · exact recognizeAddChild_builds
  · exact recognizeIdSetter_builds rfl rfl
  · exact recognizeIdSetter_builds rfl rfl
  · exact recognizeListener_builds
  · exact recognizeAddItem_builds
  · exact recognizeSetTitle_builds
  · exact recognizeInflateMenu_builds
  · exact recognizeGetTabHost_builds
  · exact recognizeGetListView_builds

theorem firstRecognition_builds {rs : List (Site → Call → Build Recognition)}
    (hrs : ∀ r ∈ rs, ∀ f, Builds c f (r site call) fun _ _ => True) :
    Builds c f (firstRecognition site call rs) fun _ _ => True := by
  induction rs generalizing f with
  | nil => exact .pure trivial
  | cons r rs ih =>
    unfold firstRecognition
    refine .bind (hrs r List.mem_cons_self f) fun answer f₁ h₁ _ => ?_
    split
    · exact ih fun r hr => hrs r (List.mem_cons_of_mem _ hr)
    · exact .pure trivial

theorem recognize_builds : Builds c f (recognize site call) fun _ _ => True :=
  firstRecognition_builds fun _ hr _ => recognizers_builds hr

end WidgetFlow.Flowgraph
