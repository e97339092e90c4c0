import WidgetFlow.Proofs.Solving

/-!
# What the recognisers leave behind

The recognisers are asked one after the other, and all of them work on the same flowgraph. A recogniser can look up
operands, and make nodes for them, before it finds that the call is not for it. What is left of its work depends on the
answer (`Flowgraph.Told`): nothing but remarks, if it leaves the call to the others; no operation and no flow, if it finds
the operands of no use; and operations of one statement, if it makes one.

* `Silent`, `Inert`, `Signed`: what is left, from less to more;
* `Told.after`, `firstRecognition_tells`: a recogniser that leaves the call to the others is as if it had not been asked;
* `recognize_leaves`: the answer, and what is left.
-/

namespace WidgetFlow.Flowgraph

open Std

variable {c : Context} {f f' f'' : Flowgraph} {site : Site} {call : Call} {label : Label} {n : NodeId} {α : Type}
  {x : Edit α} {Q : α → Flowgraph → Prop}

/-! ## What is left -/

/-- Nothing happened but for remarks in the log. -/
def Silent (f f' : Flowgraph) : Prop :=
  ∃ entries : List Log.Entry, (∀ e ∈ entries, e.level = .debug) ∧ f' = { f with log := f.log ++ entries }

/-- No operation and no flow was added. -/
structure Inert (f f' : Flowgraph) : Prop where
  flow : f'.graph.flow = f.graph.flow
  op? : ∀ n, f'.graph.op? n = f.graph.op? n
  size : f.graph.size ≤ f'.graph.size

/-- The operations are there as before, and all others are new and of one statement. -/
structure Signed (label : Label) (f f' : Flowgraph) : Prop where
  old : ∀ n o, f.graph.op? n = some o → f'.graph.op? n = some o
  new : ∀ n o, f'.graph.op? n = some o → f.graph.op? n = some o ∨ f.graph.size ≤ n ∧ o.site.stmt = some label
  size : f.graph.size ≤ f'.graph.size

instance : IsPreorder Flowgraph Silent where
  refl f := ⟨[], by simp, by simp⟩
  trans := by
    rintro f _ _ ⟨es, hes, rfl⟩ ⟨es', hes', rfl⟩
    refine ⟨es ++ es', fun e he => ?_, by simp⟩
    exact (List.mem_append.mp he).elim (hes e) (hes' e)

instance : IsPreorder Flowgraph Inert where
  refl _ := ⟨rfl, fun _ => rfl, Nat.le_refl _⟩
  trans _ _ _ h h' := ⟨h'.flow.trans h.flow, fun n => (h'.op? n).trans (h.op? n), Nat.le_trans h.size h'.size⟩

instance : IsPreorder Flowgraph (Signed label) where
  refl _ := ⟨fun _ _ h => h, fun _ _ h => .inl h, Nat.le_refl _⟩
  trans _ _ _ h h' := by
    refine ⟨fun n o ho => h'.old n o (h.old n o ho), fun n o ho => ?_, Nat.le_trans h.size h'.size⟩
    rcases h'.new n o ho with ho | ⟨hn, hstmt⟩
    · exact h.new n o ho
    · exact .inr ⟨Nat.le_trans h.size hn, hstmt⟩

theorem Silent.inert (h : Silent f f') : Inert f f' := by
  obtain ⟨_, _, rfl⟩ := h
  exact ⟨rfl, fun _ => rfl, Nat.le_refl _⟩

theorem Inert.signed (h : Inert f f') : Signed label f f' :=
  ⟨fun n _ ho => (h.op? n).trans ho, fun n _ ho => .inl ((h.op? n).symm.trans ho), h.size⟩

/-- What is left when a recogniser has given its answer. -/
def Told (f : Flowgraph) : Recognition → Flowgraph → Prop
  | .operation n, f' => f.graph.size ≤ n ∧ f'.graph.isOp n = true
  | .unusable, f' => Inert f f'
  | .unrecognized, f' => Silent f f'

/-- From `f`, where nothing was added to speak of since `f₀`, the rest of a recogniser tells what it leaves. -/
abbrev Tells (f₀ : Flowgraph) (label : Label) (c : Context) (f : Flowgraph) (x : Build Recognition) : Prop :=
  Tries (Signed label) Anyhow c f x (Told f₀)

/-! ## Operands -/

theorem addNode_inert {k : NodeKind} (hk : k.op? = none) : Does Inert c f (addNode k) fun _ _ => True :=
  .of_run rfl ⟨rfl, fun _ => Graph.op?_push hk, by rw [Graph.size_push]; exact Nat.le_succ _⟩ trivial

theorem intern_inert {p : NodeKind → Bool} {k : NodeKind} (hk : k.op? = none) :
    Does Inert c f (intern p k) fun _ _ => True := by
  unfold intern
  refine .read rfl ?_
  split
  · exact .pure trivial
  · exact addNode_inert hk

theorem varNode_inert {l : Local} : Does Inert c f (varNode l) fun _ _ => True := intern_inert rfl

theorem freshVar_inert {cls : String} : Does Inert c f (freshVar cls) fun _ _ => True := by
  unfold freshVar
  refine .read rfl (.bind (.of_run rfl ?_ trivial) fun _ _ _ (_ : True) => varNode_inert)
  exact ⟨rfl, fun _ => rfl, Nat.le_refl _⟩

theorem idNode_inert {space : IdSpace} {value : Int} : Does Inert c f (idNode space value) fun _ _ => True :=
  .read rfl (intern_inert rfl)

/-- The node of an operand, without which nothing was done. -/
abbrev Given (f : Flowgraph) (o : Option NodeId) (f' : Flowgraph) : Prop := o = none → f' = f

theorem given {x : Edit NodeId} (h : Does Inert c f x fun _ _ => True) : Does Inert c f (some <$> x) (Given f) :=
  .map (h.imp fun _ _ _ _ hnone => absurd hnone (by simp))

theorem knownIdNode_inert {value : Int} : Does Inert c f (knownIdNode value) (Given f) := by
  unfold knownIdNode
  refine .read rfl ?_
  split
  · exact given idNode_inert
  · exact .pure fun _ => rfl

theorem systemLayoutNode_inert {name : String} : Does Inert c f (systemLayoutNode name) (Given f) := by
  unfold systemLayoutNode
  refine .read rfl ?_
  split
  · exact given idNode_inert
  · exact .pure fun _ => rfl

theorem systemWidgetNode_inert {name : String} : Does Inert c f (systemWidgetNode name) (Given f) := by
  unfold systemWidgetNode
  refine .read rfl ?_
  split
  · exact given idNode_inert
  · exact .pure fun _ => rfl

theorem widgetIdNode_inert {value : Int} : Does Inert c f (widgetIdNode value) fun _ _ => True :=
  .read rfl idNode_inert

theorem idOperand_inert {v : Value} : Does Inert c f (idOperand v) (Given f) := by
  cases v with
  | var l => exact given varNode_inert
  | int n => exact knownIdNode_inert
  | str | null | other => exact .pure fun _ => rfl

theorem valueNode?_inert {v : Option Value} : Does Inert c f (valueNode? v) (Given f) := by
  cases v with
  | none => exact .pure fun _ => rfl
  | some v =>
    cases v with
    | var l => exact given varNode_inert
    | int n => exact knownIdNode_inert
    | str s => exact given (intern_inert rfl)
    | null | other => exact .pure fun _ => rfl

theorem remark_silent {r : Remark} {l : Option Label} : Does Silent c f (remark r l) fun _ _ => True :=
  .of_run rfl ⟨[_], fun _ he => List.mem_singleton.mp he ▸ rfl, rfl⟩ trivial

/-! ## Answers -/

namespace Tells

variable {f₀ : Flowgraph}

/-- An operand is looked up. -/
theorem look {k : α → Build Recognition} (h₀ : Inert f₀ f) (hx : Does Inert c f x Q)
    (hk : ∀ a f₁, Inert f₀ f₁ → Q a f₁ → Tells f₀ label c f₁ (k a)) : Tells f₀ label c f (liftM x >>= k) := by
  have hsigned : Does (Signed label) c f x fun a f₁ => Inert f f₁ ∧ Q a f₁ := ⟨hx.moves.signed, hx.moves, hx.post⟩
  exact .liftBind hsigned fun a f₁ _ h₁ => hk a f₁ (trans_of Inert h₀ h₁.1) h₁.2

theorem unrecognized : Tells f label c f (pure .unrecognized) := .pure (refl_of Silent f)

theorem unusable (h₀ : Inert f₀ f) : Tells f₀ label c f (pure .unusable) := .pure h₀

/-- A remark, and then the call is left to the others. -/
theorem remark_unrecognized {r : Remark} {l : Option Label} :
    Tells f label c f (do remark r l; return .unrecognized) :=
  .liftBind (remark_silent.mono (fun _ h => h.inert.signed) fun _ _ h _ => h) fun _ _ _ h => .pure h

theorem remark_unusable {r : Remark} {l : Option Label} (h₀ : Inert f₀ f) :
    Tells f₀ label c f (do remark r l; return .unusable) :=
  look h₀ (remark_silent.mono (fun _ h => h.inert) fun _ _ _ h => h) fun _ _ h₁ _ => unusable h₁

/-- A report that does not end the analysis. -/
theorem report_unusable {v : Violation} {l : Option Label} (h₀ : Inert f₀ f) :
    Tells f₀ label c f (do report v l; return .unusable) := by
  have hlog : ∀ log, Inert f { f with log } := fun log => ⟨rfl, fun _ => rfl, Nat.le_refl _⟩
  have hreport : Tries (Signed label) Anyhow c f (report v l) fun _ f₁ => Inert f f₁ := by
    unfold report
    refine .read rfl ?_
    split
    · exact .of_error rfl (refl_of (Signed label) f) trivial
    · exact .of_ok rfl (hlog _).signed (hlog _)
  exact .bind hreport fun _ _ _ h₁ => unusable (trans_of Inert h₀ h₁)

end Tells

/-! ## Operations -/

/-- The node is an operation that was made since `f`. -/
def Fresh (f : Flowgraph) (n : NodeId) (f' : Flowgraph) : Prop := f.graph.size ≤ n ∧ f'.graph.isOp n = true

theorem Fresh.mono (h : Fresh f n f') (h' : Signed label f' f'') : Fresh f n f'' := by
  obtain ⟨o, ho⟩ := Option.isSome_iff_exists.mp h.2
  exact ⟨h.1, Graph.isOp_of_op? (h'.old n o ho)⟩

theorem addOp_signed {f₀ : Flowgraph} {k : OpKind} {place : CallSite} {r p s : Option NodeId}
    (hplace : place.stmt = some label) (hsize : f₀.graph.size ≤ f.graph.size) :
    Does (Signed label) c f (addOp k place r p s) fun n f' => Fresh f₀ n f' := by
  refine .of_run rfl ⟨fun n o ho => ?_, fun n o ho => ?_, ?_⟩ ⟨hsize, Graph.isOp_of_op? Graph.op?_pushOp_self⟩
  · exact Graph.pushOp_grows.toExtends.op? ho
  · rcases Graph.op?_pushOp_cases ho with ⟨rfl, rfl⟩ | ho
    · exact .inr ⟨Nat.le_refl _, hplace⟩
    · exact .inl ho
  · exact Graph.pushOp_grows.toExtends.size

theorem addEdge_signed {a b : NodeId} {l : Option Label} :
    Does (Signed label) c f (addEdge a b l) fun _ _ => True :=
  .of_run rfl ⟨fun _ _ h => h, fun _ _ h => .inl h, Nat.le_refl _⟩ trivial

theorem signed_of_inert (h : Does Inert c f x Q) : Does (Signed label) c f x Q :=
  h.mono (fun _ h => h.signed) fun _ _ _ h => h

theorem flowTo_signed {a : NodeId} {l : Local} {lab : Option Label} :
    Does (Signed label) c f (flowTo a l lab) fun _ _ => True :=
  .bind (signed_of_inert varNode_inert) fun _ _ _ _ => addEdge_signed

/-- A new operation, which is the answer. -/
theorem Tells.operation {f₀ : Flowgraph} {k : OpKind} {r p s : Option NodeId} (hsize : f₀.graph.size ≤ f.graph.size) :
    Tells f₀ site.label c f (do let op ← addOp k site.callSite r p s; return Recognition.operation op) :=
  .liftBind (addOp_signed rfl hsize) fun _ _ _ h => .pure h

/-! ## Layouts and content -/

theorem recognizeInflate_tells : Tells f site.label c f (recognizeInflate site call) := by
  unfold recognizeInflate
  refine .read rfl ?_
  split
  · split
    · exact Tells.unusable (refl_of Inert f)
    refine Tells.look (refl_of Inert f) idOperand_inert fun layout f₁ h₁ hlayout => ?_
    cases layout with
    | none =>
      cases hlayout rfl
      exact Tells.unrecognized
    | some layout =>
      dsimp only
      split
      · refine Tells.look h₁ freshVar_inert fun view f₂ h₂ _ => ?_
        refine .liftBind (addOp_signed rfl h₂.size) fun op f₃ h₃ hop => ?_
        refine .liftBind (signed_of_inert varNode_inert) fun root f₄ h₄ _ => ?_
        refine .liftBind (addOp_signed rfl (Nat.le_refl _)).discard fun _ f₅ h₅ _ => ?_
        split
        · exact .liftBind flowTo_signed.discard fun _ f₆ h₆ _ => .pure (((hop.mono h₄).mono h₅).mono h₆)
        · exact .pure ((hop.mono h₄).mono h₅)
      · exact Tells.look h₁ varNode_inert fun _ _ h₂ _ => Tells.operation h₂.size
      · exact Tells.unusable h₁
  · exact Tells.unrecognized

theorem recognizeSetContent_tells : Tells f site.label c f (recognizeSetContent site call) := by
  unfold recognizeSetContent
  refine .read rfl ?_
  split
  · exact Tells.unrecognized
  split
  · split
    · exact Tells.unusable (refl_of Inert f)
    refine Tells.look (refl_of Inert f) idOperand_inert fun layout f₁ h₁ hlayout => ?_
    cases layout with
    | none =>
      cases hlayout rfl
      exact Tells.unrecognized
    | some layout => exact Tells.look h₁ varNode_inert fun _ _ h₂ _ => Tells.operation h₂.size
  · exact Tells.unrecognized

theorem recognizeSetRoot_tells : Tells f site.label c f (recognizeSetRoot site call) := by
  unfold recognizeSetRoot
  refine .read rfl ?_
  split
  · exact Tells.unrecognized
  split
  · refine Tells.look (refl_of Inert f) varNode_inert fun _ _ h₁ _ => ?_
    exact Tells.look h₁ varNode_inert fun _ _ h₂ _ => Tells.operation h₂.size
  · exact Tells.unusable (refl_of Inert f)
  · exact Tells.unrecognized

theorem recognizeAddChild_tells : Tells f site.label c f (recognizeAddChild site call) := by
  unfold recognizeAddChild
  refine .read rfl ?_
  split
  · exact Tells.unrecognized
  split
  · refine Tells.look (refl_of Inert f) varNode_inert fun _ _ h₁ _ => ?_
    exact Tells.look h₁ varNode_inert fun _ _ h₂ _ => Tells.operation h₂.size
  · exact Tells.unusable (refl_of Inert f)
  · exact Tells.unrecognized

/-! ## Look-up -/

theorem find_tells {f₀ : Flowgraph} {receiver lhs : Local} {query : FindQuery} {id : NodeId} (h₀ : Inert f₀ f) :
    Tells f₀ site.label c f (recognizeFindView.find site receiver lhs query id) := by
  unfold recognizeFindView.find
  refine Tells.look h₀ varNode_inert fun _ _ h₁ _ => ?_
  exact Tells.look h₁ varNode_inert fun _ _ h₂ _ => Tells.operation h₂.size

theorem recognizeFindView_tells : Tells f site.label c f (recognizeFindView site call) := by
  unfold recognizeFindView
  refine .read rfl ?_
  dsimp only
  split
  · split
    · split
      · split
        · refine Tells.look (refl_of Inert f) knownIdNode_inert fun known f₁ h₁ hknown => ?_
          split
          · exact .read rfl (find_tells h₁)
          · exact Tells.look h₁ widgetIdNode_inert fun _ _ h₂ _ => find_tells h₂
        · exact Tells.unrecognized
        · refine Tells.look (refl_of Inert f) idOperand_inert fun id f₁ h₁ hid => ?_
          split
          · exact find_tells h₁
          · cases hid rfl
            exact Tells.remark_unrecognized
      · exact Tells.unusable (refl_of Inert f)
    · exact Tells.unrecognized
  · exact Tells.unrecognized

theorem recognizeFindInWindow_tells : Tells f site.label c f (recognizeFindInWindow site call) := by
  unfold recognizeFindInWindow
  refine .read rfl ?_
  split
  · exact Tells.unrecognized
  split
  · split
    · refine Tells.look (refl_of Inert f) idOperand_inert fun id f₁ h₁ hid => ?_
      split
      · refine Tells.look h₁ varNode_inert fun _ _ h₂ _ => ?_
        exact Tells.look h₂ varNode_inert fun _ _ h₃ _ => Tells.operation h₃.size
      · exact Tells.remark_unusable h₁
    · exact Tells.unusable (refl_of Inert f)
  · exact Tells.unrecognized

theorem recognizeNavigate_tells : Tells f site.label c f (recognizeNavigate site call) := by
  unfold recognizeNavigate
  refine .read rfl ?_
  split
  · split
    · exact Tells.unusable (refl_of Inert f)
    · split
      · split
        · refine Tells.look (refl_of Inert f) varNode_inert fun _ _ h₁ _ => ?_
          exact Tells.look h₁ varNode_inert fun _ _ h₂ _ => Tells.operation h₂.size
        · exact Tells.unusable (refl_of Inert f)
      · exact Tells.unrecognized
  · exact Tells.unrecognized

/-! ## Attributes -/

theorem recognizeIdSetter_tells {kind : OpKind} {sub : String} :
    Tells f site.label c f (recognizeIdSetter kind sub site call) := by
  unfold recognizeIdSetter
  refine .read rfl ?_
  split
  · exact Tells.unrecognized
  split
  · split
    · exact Tells.unusable (refl_of Inert f)
    refine Tells.look (refl_of Inert f) idOperand_inert fun id f₁ h₁ hid => ?_
    split
    · exact Tells.look h₁ varNode_inert fun _ _ h₂ _ => Tells.operation h₂.size
    · cases hid rfl
      exact Tells.remark_unrecognized
  · exact Tells.unrecognized

/-! ## Menus -/

theorem insertAlloc_inert {item : NodeId} :
    Does Inert c f (modify fun f => { f with allocs := f.allocs.insert label item }) fun _ _ => True :=
  .of_run rfl ⟨rfl, fun _ => rfl, Nat.le_refl _⟩ trivial

theorem bindId_signed {item id : NodeId} :
    Does (Signed label) c f (updateNode item fun n => { n with id := some id }) fun _ _ => True := by
  have hop : ∀ n, (f.graph.modify item fun a => { a with id := some id }).op? n = f.graph.op? n := fun n =>
    Graph.op?_modify fun _ => rfl
  refine .of_run rfl ⟨fun n o ho => (hop n).trans ho, fun n o ho => .inl ((hop n).symm.trans ho), ?_⟩ trivial
  exact Nat.le_of_eq Graph.size_modify.symm

theorem recognizeAddItem_tells : Tells f site.label c f (recognizeAddItem site call) := by
  unfold recognizeAddItem
  refine .read rfl ?_
  split
  · exact Tells.unrecognized
  split
  · refine .read rfl ?_
    extract_lets addItem
    have haddItem : ∀ item f₁, Inert f f₁ → Tells f site.label c f₁ (addItem item) := by
      intro item f₁ h₁
      dsimp -zeta only [addItem]
      extract_lets link
      have hlink : ∀ v f₂, Inert f f₂ → Tells f site.label c f₂ (link v) := by
        intro v f₂ h₂
        refine .liftBind addEdge_signed.discard fun _ f₃ h₃ _ => ?_
        extract_lets operate
        have hoperate : ∀ u f₄, f.graph.size ≤ f₄.graph.size → Tells f site.label c f₄ (operate u) := by
          intro u f₄ hsize
          refine .liftBind (signed_of_inert varNode_inert) fun menu f₅ h₅ _ => ?_
          refine .liftBind (addOp_signed rfl (Nat.le_trans hsize h₅.size)) fun op f₆ h₆ hop => ?_
          refine .liftBind (signed_of_inert valueNode?_inert) fun title f₇ h₇ _ => ?_
          extract_lets answer
          split
          · exact .liftBind (addOp_signed rfl (Nat.le_refl _)).discard fun _ f₈ h₈ _ => .pure ((hop.mono h₇).mono h₈)
          · exact .pure (hop.mono h₇)
        have hsize := Nat.le_trans h₂.size h₃.size
        split
        · split
          · refine .liftBind (signed_of_inert widgetIdNode_inert) fun id f₄ h₄ _ => ?_
            refine .liftBind bindId_signed fun u f₅ h₅ _ => ?_
            exact hoperate u f₅ (Nat.le_trans hsize (Nat.le_trans h₄.size h₅.size))
          · exact hoperate () f₃ hsize
        · exact hoperate () f₃ hsize
      split
      · exact Tells.look h₁ varNode_inert fun v f₂ h₂ _ => hlink v f₂ h₂
      · exact Tells.look h₁ freshVar_inert fun v f₂ h₂ _ => hlink v f₂ h₂
    split
    · rename_i item _
      exact .read rfl (haddItem item f (refl_of Inert f))
    · refine Tells.look (refl_of Inert f) (addNode_inert rfl) fun item f₁ h₁ _ => ?_
      refine Tells.look h₁ insertAlloc_inert fun _ f₂ h₂ _ => ?_
      exact .read rfl (haddItem item f₂ h₂)
  · exact Tells.unrecognized

theorem recognizeSetTitle_tells : Tells f site.label c f (recognizeSetTitle site call) := by
  unfold recognizeSetTitle
  refine .read rfl ?_
  split
  · exact Tells.unrecognized
  split
  · refine Tells.look (refl_of Inert f) valueNode?_inert fun title f₁ h₁ _ => ?_
    split
    · refine Tells.look h₁ varNode_inert fun item f₂ h₂ _ => ?_
      refine .liftBind (addOp_signed rfl h₂.size) fun op f₃ h₃ hop => ?_
      extract_lets answer
      split
      · exact .liftBind flowTo_signed.discard fun _ f₄ h₄ _ => .pure (hop.mono h₄)
      · exact .pure hop
    · exact Tells.unusable h₁
  · exact Tells.unrecognized

theorem recognizeInflateMenu_tells : Tells f site.label c f (recognizeInflateMenu site call) := by
  unfold recognizeInflateMenu
  refine .read rfl ?_
  split
  · exact Tells.unrecognized
  split
  · split
    · exact Tells.unusable (refl_of Inert f)
    refine Tells.look (refl_of Inert f) idOperand_inert fun id f₁ h₁ hid => ?_
    cases id with
    | none =>
      cases hid rfl
      exact Tells.unrecognized
    | some id => exact Tells.look h₁ varNode_inert fun _ _ h₂ _ => Tells.operation h₂.size
  · exact Tells.unusable (refl_of Inert f)
  · exact Tells.unrecognized

/-! ## Activities with tabs or a list -/

theorem recognizeGetTabHost_tells : Tells f site.label c f (recognizeGetTabHost site call) := by
  unfold recognizeGetTabHost
  split
  · exact Tells.unrecognized
  split
  · refine .read rfl ?_
    split
    · exact Tells.unrecognized
    refine Tells.look (refl_of Inert f) systemLayoutNode_inert fun layout f₁ h₁ _ => ?_
    refine Tells.look h₁ systemWidgetNode_inert fun hostId f₂ h₂ _ => ?_
    split
    · refine Tells.look h₂ varNode_inert fun activity f₃ h₃ _ => ?_
      refine .liftBind (addOp_signed rfl h₃.size) fun content f₄ h₄ hcontent => ?_
      split
      · refine .liftBind (signed_of_inert varNode_inert) fun result f₅ h₅ _ => Tells.operation ?_
        exact Nat.le_trans h₃.size (Nat.le_trans h₄.size h₅.size)
      · exact .pure hcontent
    · exact Tells.report_unusable h₂
  · exact Tells.unrecognized

theorem recognizeGetListView_tells : Tells f site.label c f (recognizeGetListView site call) := by
  unfold recognizeGetListView
  refine .read rfl ?_
  split
  · exact Tells.unrecognized
  split
  · split
    · refine Tells.look (refl_of Inert f) systemWidgetNode_inert fun listId f₁ h₁ _ => ?_
      split
      · refine Tells.look h₁ varNode_inert fun _ _ h₂ _ => ?_
        exact Tells.look h₂ varNode_inert fun _ _ h₃ _ => Tells.operation h₃.size
      · exact Tells.remark_unusable h₁
    · exact Tells.unusable (refl_of Inert f)
  · exact Tells.unrecognized

/-! ## Listeners -/

theorem updateListeners_signed {change : Listeners → Listeners} :
    Does (Signed label) c f (updateListeners change) fun _ _ => True :=
  .of_run rfl ⟨fun _ _ h => h, fun _ _ h => .inl h, Nat.le_refl _⟩ trivial

theorem registerListener_tells {view listener : Local} {spec : Option (Nat × ListenerSpec)} :
    Tells f site.label c f (registerListener site call view listener spec) := by
  unfold registerListener
  refine .read rfl (.read rfl ?_)
  extract_lets settings onMenu listenerType
  split
  · exact Tells.report_unusable (refl_of Inert f)
  split
  · exact Tells.report_unusable (refl_of Inert f)
  refine Tells.look (refl_of Inert f) varNode_inert fun _ f₁ h₁ _ => ?_
  refine Tells.look h₁ varNode_inert fun _ f₂ h₂ _ => ?_
  refine .liftBind (addOp_signed rfl h₂.size) fun op f₃ h₃ hop => ?_
  extract_lets finish task register
  have hregister : ∀ u f₄, Fresh f op f₄ → Tells f site.label c f₄ (register u) := by
    intro u f₄ hop
    dsimp -zeta only [register]
    split
    · exact .liftBind updateListeners_signed fun _ f₅ h₅ _ => .pure (hop.mono h₅)
    · exact .pure hop
  split
  · exact .liftBind updateListeners_signed fun u f₄ h₄ _ => hregister u f₄ (hop.mono h₄)
  · exact .liftBind updateListeners_signed fun u f₄ h₄ _ => hregister u f₄ (hop.mono h₄)

theorem recognizeListener_tells : Tells f site.label c f (recognizeListener site call) := by
  unfold recognizeListener
  split
  · refine .read rfl (.read rfl ?_)
    dsimp only
    split
    · split
      · exact Tells.unrecognized
      split
      · exact registerListener_tells
      · exact Tells.unusable (refl_of Inert f)
      · exact Tells.report_unusable (refl_of Inert f)
    · split
      · split
        · exact registerListener_tells
        · exact Tells.unusable (refl_of Inert f)
        · exact Tells.report_unusable (refl_of Inert f)
      · exact Tells.unrecognized
  · exact Tells.unrecognized

/-! ## All shapes -/

theorem recognizers_tell {r : Site → Call → Build Recognition} (hr : r ∈ recognizers) (f : Flowgraph) :
    Tells f site.label c f (r site call) := by
  simp only [recognizers, List.mem_cons, List.not_mem_nil, or_false] at hr
  rcases hr with rfl | rfl | rfl | rfl | rfl | rfl | rfl | rfl | rfl | rfl | rfl | rfl | rfl | rfl | rfl
  · exact recognizeInflate_tells
  · exact recognizeSetContent_tells
  · exact recognizeFindView_tells
  · exact recognizeFindInWindow_tells
  · exact recognizeNavigate_tells
  · exact recognizeSetRoot_tells
  · exact recognizeAddChild_tells
  · exact recognizeIdSetter_tells
  · exact recognizeIdSetter_tells
  · exact recognizeListener_tells
  · exact recognizeAddItem_tells
  · exact recognizeSetTitle_tells
  · exact recognizeInflateMenu_tells
  · exact recognizeGetTabHost_tells
  · exact recognizeGetListView_tells

/-- After remarks, an answer tells the same of what is left. -/
theorem Told.after {answer : Recognition} (h : Silent f f') (h' : Told f' answer f'') : Told f answer f'' := by
  cases answer with
  | operation n => exact ⟨Nat.le_trans h.inert.size h'.1, h'.2⟩
  | unusable => exact trans_of Inert h.inert h'
  | unrecognized => exact trans_of Silent h h'

/-- By induction on the recognisers that are still to be asked. All before them were silent. -/
theorem firstRecognition_tells {rs : List (Site → Call → Build Recognition)}
    (hrs : ∀ r ∈ rs, ∀ f, Tells f site.label c f (r site call)) :
    Tells f site.label c f (firstRecognition site call rs) := by
  induction rs generalizing f with
  | nil => exact Tells.unrecognized
  | cons r rs ih =>
    unfold firstRecognition
    refine .bind (hrs r List.mem_cons_self f) fun answer f₁ h₁ htold => ?_
    cases answer with
    | unrecognized =>
      have hrest := ih (f := f₁) fun r hr => hrs r (List.mem_cons_of_mem _ hr)
      exact hrest.imp fun _ _ _ h => h.after htold
    | unusable | operation => exact .pure htold

theorem recognize_tells : Tells f site.label c f (recognize site call) :=
  firstRecognition_tells fun _ hr => recognizers_tell hr

/-- **What is left of a call.** Whatever the flowgraph is, if a call is left as an ordinary one, then nothing is left but
remarks in the log. If its operands are of no use, then there is no new operation and no new flow. If it is an operation,
then this is a new one, the others are as before, and all that are new are of the statement of the call. -/
theorem recognize_leaves {answer : Recognition} (h : recognize site call c f = (.ok answer, f')) :
    (answer = .unrecognized → Silent f f') ∧ (answer = .unusable → Inert f f') ∧
    ∀ n, answer = .operation n → f.graph.size ≤ n ∧ f'.graph.isOp n = true ∧ Signed site.label f f' := by
  obtain ⟨hsigned, htold⟩ := recognize_tells.ok h
  refine ⟨?_, ?_, ?_⟩
  · rintro rfl
    exact htold
  · rintro rfl
    exact htold
  · rintro n rfl
    exact ⟨htold.1, htold.2, hsigned⟩

end WidgetFlow.Flowgraph

/-! ## Three look-ups -/

namespace WidgetFlow

theorem eq_ok_of_toOption {α : Type} {x : Except Fault α} {a : α} (h : x.toOption = some a) : x = .ok a := by
  cases x with
  | error e => cases h
  | ok b =>
    cases h
    rfl

namespace Example

/-- A look-up of a view in another view. -/
def lookUp (id : Int) : Call :=
  callOn ⟨"group", .ref "android.view.View"⟩ "findViewById" [.int] (.ref "android.view.View") [.int id]

/-- A statement, outside of the application, that assigns what a call returns. -/
def assigning (call : Call) : Site :=
  ⟨methodOf "onStart" [] ⟨.void, 0⟩ [], ⟨.ofStmt "onStart" 0, .assign (.var ⟨"view", call.target.ret⟩) (.call call)⟩⟩

/-- A statement that is a call. -/
def calling (call : Call) : Site := ⟨methodOf "onStart" [] ⟨.void, 0⟩ [], ⟨.ofStmt "onStart" 0, .call call⟩⟩

end Example

namespace Flowgraph

open Example

/-- The first look-up is for an id that is not known, the second is for nothing, and the third is an operation. -/
theorem recognize_leaves_lookUps : ∃ f₁ f₂ f₃,
    (recognize (assigning (lookUp 9)) (lookUp 9) withLayout {} = (.ok .unrecognized, f₁) ∧ f₁.log.length = 1 ∧
      Silent {} f₁) ∧
    (recognize (calling (lookUp 5)) (lookUp 5) withLayout f₁ = (.ok .unusable, f₂) ∧ Inert f₁ f₂) ∧
    recognize (assigning (lookUp 5)) (lookUp 5) withLayout f₂ = (.ok (.operation 3), f₃) ∧ f₂.graph.size ≤ 3 ∧
      f₃.graph.isOp 3 = true ∧ Signed (.ofStmt "onStart" 0) f₂ f₃ := by
  have heval : (recognize (assigning (lookUp 9)) (lookUp 9) withLayout {}).1.toOption = some .unrecognized ∧
      (recognize (assigning (lookUp 9)) (lookUp 9) withLayout {}).2.log.length = 1 ∧
      (recognize (calling (lookUp 5)) (lookUp 5) withLayout
        (recognize (assigning (lookUp 9)) (lookUp 9) withLayout {}).2).1.toOption = some .unusable ∧
      (recognize (assigning (lookUp 5)) (lookUp 5) withLayout
        (recognize (calling (lookUp 5)) (lookUp 5) withLayout
          (recognize (assigning (lookUp 9)) (lookUp 9) withLayout {}).2).2).1.toOption = some (.operation 3) := by
    decide +kernel
  rcases h₁ : recognize (assigning (lookUp 9)) (lookUp 9) withLayout {} with ⟨a₁, f₁⟩
  rw [h₁] at heval
  rcases h₂ : recognize (calling (lookUp 5)) (lookUp 5) withLayout f₁ with ⟨a₂, f₂⟩
  rw [h₂] at heval
  rcases h₃ : recognize (assigning (lookUp 5)) (lookUp 5) withLayout f₂ with ⟨a₃, f₃⟩
  rw [h₃] at heval
  obtain ⟨ha₁, hlog, ha₂, ha₃⟩ := heval
  obtain rfl := eq_ok_of_toOption ha₁
  obtain rfl := eq_ok_of_toOption ha₂
  obtain rfl := eq_ok_of_toOption ha₃
  refine ⟨f₁, f₂, f₃, ⟨rfl, hlog, (recognize_leaves h₁).1 rfl⟩, ⟨h₂, (recognize_leaves h₂).2.1 rfl⟩, h₃, ?_⟩
  exact (recognize_leaves h₃).2.2 3 rfl

end Flowgraph

end WidgetFlow
