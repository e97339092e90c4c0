import WidgetFlow.Proofs.Recognition

/-!
# What a call is taken for

The recognisers look at a call, at the program and at the ids of the application. They also make nodes, and which
numbers the nodes have depends on the flowgraph so far; whether the call is recognised does not. `Twins c S x y` says
that the actions `x` and `y` end alike, whatever flowgraph each of them starts from: both fail with the same violation,
or both end with answers that `S` relates. One rule for each construct goes through two runs at once, and each
recogniser is its own twin (`recognize_decides`). So a call that is left alone in one flowgraph is left alone in all
(`Ordinary.eq_unrecognized`).
-/

namespace WidgetFlow.Flowgraph

variable {α β γ δ : Type} {c : Context} {site : Site} {call : Call}

/-! ## Two runs -/

/-- The same violation, or answers that `S` relates. -/
def EndAlike (S : α → β → Prop) : Except Fault α → Except Fault β → Prop
  | .ok a, .ok b => S a b
  | .error e, .error e' => e = e'
  | _, _ => False

/-- The actions end alike, whatever flowgraph each of them starts from. -/
def Twins (c : Context) (S : α → β → Prop) (x : Build α) (y : Build β) : Prop :=
  ∀ f f', EndAlike S (x c f).1 (y c f').1

namespace Twins

variable {S : α → β → Prop} {T : γ → δ → Prop}

theorem pure {a : α} {b : β} (h : S a b) : Twins c S (Pure.pure a) (Pure.pure b) := fun _ _ => h

theorem bind {x : Build α} {y : Build β} {k : α → Build γ} {l : β → Build δ} (h : Twins c S x y)
    (hk : ∀ a b, S a b → Twins c T (k a) (l b)) : Twins c T (x >>= k) (y >>= l) := by
  intro f f'
  have hends := h f f'
  rcases hx : x c f with ⟨e | a, f₁⟩ <;> rcases hy : y c f' with ⟨e' | b, f₁'⟩ <;> rw [hx, hy] at hends
  · rw [bind_run_error hx, bind_run_error hy]
    exact hends
  · exact hends.elim
  · exact hends.elim
  · rw [bind_run_ok hx, bind_run_ok hy]
    exact hk a b hends f₁ f₁'

/-- Actions that cannot fail, followed by twins. -/
theorem step {x : Edit α} {y : Edit β} {k : α → Build γ} {l : β → Build δ} (hk : ∀ a b, Twins c T (k a) (l b)) :
    Twins c T ((liftM x : Build α) >>= k) ((liftM y : Build β) >>= l) :=
  bind (S := fun _ _ => True) (fun _ _ => trivial) fun a b _ => hk a b

theorem stepDiscard {x : Edit α} {y : Edit β} {k : Unit → Build γ} {l : Unit → Build δ}
    (hk : ∀ a b, Twins c T (k a) (l b)) :
    Twins c T (discard (liftM x : Build α) >>= k) (discard (liftM y : Build β) >>= l) :=
  bind (S := fun _ _ => True) (fun _ _ => trivial) fun a b _ => hk a b

/-- An action that gives the same answer everywhere. -/
theorem read {x : Build α} {k : α → Build γ} {l : α → Build δ} {a : α} (hx : ∀ f, x c f = (.ok a, f))
    (h : Twins c T (k a) (l a)) : Twins c T (x >>= k) (x >>= l) := by
  intro f f'
  rw [bind_run_ok (hx f), bind_run_ok (hx f')]
  exact h f f'

end Twins

/-- The edit finds a node in all flowgraphs, or in none. -/
def Steady (c : Context) (x : Edit (Option α)) : Prop := ∀ f f', (x c f).1.isSome = (x c f').1.isSome

/-- A look-up that finds a node everywhere or nowhere. -/
theorem Steady.twins {x : Edit (Option α)} {k : Option α → Build γ} {l : Option α → Build δ} {T : γ → δ → Prop}
    (h : Steady c x) (hnone : Twins c T (k none) (l none)) (hsome : ∀ a b, Twins c T (k (some a)) (l (some b))) :
    Twins c T ((liftM x : Build (Option α)) >>= k) ((liftM x : Build (Option α)) >>= l) := by
  refine .bind (S := fun a b : Option α => a.isSome = b.isSome) (fun f f' => h f f') fun a b hab => ?_
  cases a <;> cases b
  · exact hnone
  · cases hab
  · cases hab
  · exact hsome _ _

/-! ## Nodes -/

theorem steady_none : Steady c (pure none : Edit (Option α)) := fun _ _ => rfl

theorem steady_some {x : Edit α} : Steady c (some <$> x) := fun _ _ => rfl

theorem Steady.read {x : Edit β} {k : β → Edit (Option α)} {b : β} (hx : ∀ f, x c f = (b, f)) (h : Steady c (k b)) :
    Steady c (x >>= k) := by
  intro f f'
  show (k (x c f).1 c (x c f).2).1.isSome = (k (x c f').1 c (x c f').2).1.isSome
  rw [hx, hx]
  exact h f f'

theorem knownIdNode_steady {n : Int} : Steady c (knownIdNode n) := by
  refine .read (fun _ => rfl) ?_
  split
  · exact steady_some
  · exact steady_none

theorem systemLayoutNode_steady {name : String} : Steady c (systemLayoutNode name) := by
  refine .read (fun _ => rfl) ?_
  split
  · exact steady_some
  · exact steady_none

theorem systemWidgetNode_steady {name : String} : Steady c (systemWidgetNode name) := by
  refine .read (fun _ => rfl) ?_
  split
  · exact steady_some
  · exact steady_none

theorem idOperand_steady {v : Value} : Steady c (idOperand v) := by
  cases v with
  | var l => exact steady_some
  | int n => exact knownIdNode_steady
  | str | null | other => exact steady_none

theorem valueNode_steady {v : Value} : Steady c (valueNode v) := by
  cases v with
  | var l => exact steady_some
  | int n => exact knownIdNode_steady
  | str t => exact steady_some
  | null | other => exact steady_none

theorem valueNode?_steady {v : Option Value} : Steady c (valueNode? v) := by
  cases v with
  | some v => exact valueNode_steady
  | none => exact steady_none

/-! ## Verdicts -/

/-- Answers of one kind. -/
inductive Agree : Recognition → Recognition → Prop
  | operation {m n : NodeId} : Agree (.operation m) (.operation n)
  | unusable : Agree .unusable .unusable
  | unrecognized : Agree .unrecognized .unrecognized

/-- The action gives answers of one kind, whatever the flowgraph. -/
abbrev Decides (c : Context) (x : Build Recognition) : Prop := Twins c Agree x x

/-- The action ends with an operation, whatever the flowgraph. -/
def Operates (c : Context) (x : Build Recognition) : Prop := ∀ f, ∃ op f', x c f = (.ok (.operation op), f')

namespace Operates

variable {x y : Build Recognition}

theorem pure {op : NodeId} : Operates c (Pure.pure (.operation op)) := fun f => ⟨op, f, rfl⟩

/-- An action that cannot fail, followed by one that ends with an operation. -/
theorem after {x : Build α} {k : α → Build Recognition} (hx : ∀ f, ∃ a f', x c f = (.ok a, f'))
    (h : ∀ a, Operates c (k a)) : Operates c (x >>= k) := by
  intro f
  obtain ⟨a, f₁, hx⟩ := hx f
  rw [bind_run_ok hx]
  exact h a f₁

theorem step {x : Edit α} {k : α → Build Recognition} (h : ∀ a, Operates c (k a)) :
    Operates c ((liftM x : Build α) >>= k) :=
  after (fun _ => ⟨_, _, rfl⟩) h

theorem stepDiscard {x : Edit α} {k : Unit → Build Recognition} (h : ∀ u, Operates c (k u)) :
    Operates c (discard (liftM x : Build α) >>= k) :=
  after (fun _ => ⟨_, _, rfl⟩) h

theorem twins (hx : Operates c x) (hy : Operates c y) : Twins c Agree x y := by
  intro f f'
  obtain ⟨op, f₁, hx⟩ := hx f
  obtain ⟨op', f₁', hy⟩ := hy f'
  rw [hx, hy]
  exact .operation

theorem decides (hx : Operates c x) : Decides c x := hx.twins hx

end Operates

theorem recognizeInflate_decides : Decides c (recognizeInflate site call) := by
  unfold recognizeInflate
  refine .read (fun _ => rfl) ?_
  split
  · split
    · exact .pure .unusable
    refine idOperand_steady.twins (.pure .unrecognized) fun layout layout' => ?_
    dsimp only
    split
    · refine .step fun _ _ => .step fun _ _ => .step fun _ _ => .stepDiscard fun _ _ => ?_
      split
      · exact .stepDiscard fun _ _ => .pure .operation
      · exact .pure .operation
    · exact .step fun _ _ => .step fun _ _ => .pure .operation
    · exact .pure .unusable
  · exact .pure .unrecognized

theorem recognizeSetContent_decides : Decides c (recognizeSetContent site call) := by
  unfold recognizeSetContent
  refine .read (fun _ => rfl) ?_
  split
  · exact .pure .unrecognized
  split
  · split
    · exact .pure .unusable
    · exact idOperand_steady.twins (.pure .unrecognized) fun _ _ => .step fun _ _ => .step fun _ _ => .pure .operation
  · exact .pure .unrecognized

theorem recognizeSetRoot_decides : Decides c (recognizeSetRoot site call) := by
  unfold recognizeSetRoot
  refine .read (fun _ => rfl) ?_
  split
  · exact .pure .unrecognized
  split
  · exact .step fun _ _ => .step fun _ _ => .step fun _ _ => .pure .operation
  · exact .pure .unusable
  · exact .pure .unrecognized

theorem recognizeAddChild_decides : Decides c (recognizeAddChild site call) := by
  unfold recognizeAddChild
  refine .read (fun _ => rfl) ?_
  split
  · exact .pure .unrecognized
  split
  · exact .step fun _ _ => .step fun _ _ => .step fun _ _ => .pure .operation
  · exact .pure .unusable
  · exact .pure .unrecognized

theorem find_twins {receiver lhs : Local} {query : FindQuery} {m n : NodeId} :
    Twins c Agree (recognizeFindView.find site receiver lhs query m)
      (recognizeFindView.find site receiver lhs query n) :=
  .step fun _ _ => .step fun _ _ => .step fun _ _ => .pure .operation

theorem recognizeFindView_decides : Decides c (recognizeFindView site call) := by
  unfold recognizeFindView
  refine .read (fun _ => rfl) ?_
  dsimp only
  split
  · split
    · split
      · split
        · refine knownIdNode_steady.twins (.step fun _ _ => find_twins) fun m n => ?_
          exact .bind (S := fun _ _ => True) (.pure trivial) fun _ _ _ => find_twins
        · exact .pure .unrecognized
        · refine idOperand_steady.twins ?_ fun _ _ => find_twins
          exact .step fun _ _ => .pure .unrecognized
      · exact .pure .unusable
    · exact .pure .unrecognized
  · exact .pure .unrecognized

theorem recognizeFindInWindow_decides : Decides c (recognizeFindInWindow site call) := by
  unfold recognizeFindInWindow
  refine .read (fun _ => rfl) ?_
  split
  · exact .pure .unrecognized
  split
  · split
    · refine idOperand_steady.twins (.step fun _ _ => .pure .unusable) fun _ _ => ?_
      exact .step fun _ _ => .step fun _ _ => .step fun _ _ => .pure .operation
    · exact .pure .unusable
  · exact .pure .unrecognized

theorem recognizeNavigate_decides : Decides c (recognizeNavigate site call) := by
  unfold recognizeNavigate
  refine .read (fun _ => rfl) ?_
  split
  · split
    · exact .pure .unusable
    · split
      · split
        · exact .step fun _ _ => .step fun _ _ => .step fun _ _ => .pure .operation
        · exact .pure .unusable
      · exact .pure .unrecognized
  · exact .pure .unrecognized

theorem recognizeIdSetter_decides {kind : OpKind} {sub : String} :
    Decides c (recognizeIdSetter kind sub site call) := by
  unfold recognizeIdSetter
  refine .read (fun _ => rfl) ?_
  split
  · exact .pure .unrecognized
  split
  · split
    · exact .pure .unusable
    · refine idOperand_steady.twins (.step fun _ _ => .pure .unrecognized) fun _ _ => ?_
      exact .step fun _ _ => .step fun _ _ => .pure .operation
  · exact .pure .unrecognized

theorem recognizeSetTitle_decides : Decides c (recognizeSetTitle site call) := by
  unfold recognizeSetTitle
  refine .read (fun _ => rfl) ?_
  split
  · exact .pure .unrecognized
  split
  · refine valueNode?_steady.twins (.pure .unusable) fun _ _ => .step fun _ _ => .step fun _ _ => ?_
    split
    · exact .stepDiscard fun _ _ => .pure .operation
    · exact .pure .operation
  · exact .pure .unrecognized

theorem recognizeInflateMenu_decides : Decides c (recognizeInflateMenu site call) := by
  unfold recognizeInflateMenu
  refine .read (fun _ => rfl) ?_
  split
  · exact .pure .unrecognized
  split
  · split
    · exact .pure .unusable
    · exact idOperand_steady.twins (.pure .unrecognized) fun _ _ => .step fun _ _ => .step fun _ _ => .pure .operation
  · exact .pure .unusable
  · exact .pure .unrecognized

theorem report_twins {v : Violation} {l : Option Label} : Twins c Eq (report v l) (report v l) := by
  unfold report
  refine .read (fun _ => rfl) ?_
  split
  · exact fun _ _ => rfl
  · exact fun _ _ => rfl

/-- A violation makes a call unusable. -/
theorem unusable_decides {v : Violation} {l : Option Label} :
    Decides c (do report v l; return Recognition.unusable) :=
  .bind report_twins fun _ _ _ => .pure .unusable

theorem recognizeGetTabHost_decides : Decides c (recognizeGetTabHost site call) := by
  unfold recognizeGetTabHost
  split
  · exact .pure .unrecognized
  split
  · refine .read (fun _ => rfl) ?_
    split
    · exact .pure .unrecognized
    · refine systemLayoutNode_steady.twins (.step fun _ _ => unusable_decides) fun _ _ => ?_
      refine systemWidgetNode_steady.twins unusable_decides fun _ _ => .step fun _ _ => .step fun _ _ => ?_
      split
      · exact .step fun _ _ => .step fun _ _ => .pure .operation
      · exact .pure .operation
  · exact .pure .unrecognized

theorem recognizeGetListView_decides : Decides c (recognizeGetListView site call) := by
  unfold recognizeGetListView
  refine .read (fun _ => rfl) ?_
  split
  · exact .pure .unrecognized
  split
  · split
    · refine systemWidgetNode_steady.twins (.step fun _ _ => .pure .unusable) fun _ _ => ?_
      exact .step fun _ _ => .step fun _ _ => .step fun _ _ => .pure .operation
    · exact .pure .unusable
  · exact .pure .unrecognized

theorem recognizeAddItem_decides : Decides c (recognizeAddItem site call) := by
  unfold recognizeAddItem
  refine .read (fun _ => rfl) ?_
  split
  · exact .pure .unrecognized
  split
  · apply Operates.decides
    refine .after (fun _ => ⟨_, _, rfl⟩) fun f => ?_
    extract_lets addItem
    have haddItem : ∀ item, Operates c (addItem item) := by
      intro item
      dsimp -zeta only [addItem]
      extract_lets link
      have hlink : ∀ v, Operates c (link v) := by
        intro v
        refine .stepDiscard fun _ => ?_
        extract_lets operate
        have hoperate : ∀ u, Operates c (operate u) := by
          intro u
          refine .step fun menu => .step fun op => .step fun title => ?_
          extract_lets answer
          split
          · exact .stepDiscard fun _ => .pure
          · exact .pure
        split
        · split
          · exact .step fun _ => .step hoperate
          · exact hoperate ()
        · exact hoperate ()
      split
      · exact .step hlink
      · exact .step hlink
    split
    · exact .after (fun _ => ⟨_, _, rfl⟩) haddItem
    · exact .step fun _ => .step fun _ => .after (fun _ => ⟨_, _, rfl⟩) haddItem
  · exact .pure .unrecognized

theorem registerListener_decides {view listener : Local} {spec : Option (Nat × ListenerSpec)} :
    Decides c (registerListener site call view listener spec) := by
  unfold registerListener
  refine .read (fun _ => rfl) (.read (fun _ => rfl) ?_)
  dsimp only
  split
  · exact unusable_decides
  split
  · exact unusable_decides
  apply Operates.decides
  refine .step fun viewVar => .step fun listenerVar => .step fun op => ?_
  cases spec with
  | none | some _ =>
    refine .step fun _ => ?_
    split
    · exact .step fun _ => .pure
    · exact .pure

theorem recognizeListener_decides : Decides c (recognizeListener site call) := by
  unfold recognizeListener
  split
  · refine .read (fun _ => rfl) (.read (fun _ => rfl) ?_)
    dsimp only
    split
    · split
      · exact .pure .unrecognized
      split
      · exact registerListener_decides
      · exact .pure .unusable
      · exact unusable_decides
    · split
      · split
        · exact registerListener_decides
        · exact .pure .unusable
        · exact unusable_decides
      · exact .pure .unrecognized
  · exact .pure .unrecognized

/-! ## All shapes -/

theorem recognizers_decides {r : Site → Call → Build Recognition} (hr : r ∈ recognizers) : Decides c (r site call) := by
  simp only [recognizers, List.mem_cons, List.not_mem_nil, or_false] at hr
  rcases hr with rfl | rfl | rfl | rfl | rfl | rfl | rfl | rfl | rfl | rfl | rfl | rfl | rfl | rfl | rfl
  · exact recognizeInflate_decides
  · exact recognizeSetContent_decides
  · exact recognizeFindView_decides
  · exact recognizeFindInWindow_decides
  · exact recognizeNavigate_decides
  · exact recognizeSetRoot_decides
  · exact recognizeAddChild_decides
  · exact recognizeIdSetter_decides
  · exact recognizeIdSetter_decides
  · exact recognizeListener_decides
  · exact recognizeAddItem_decides
  · exact recognizeSetTitle_decides
  · exact recognizeInflateMenu_decides
  · exact recognizeGetTabHost_decides
  · exact recognizeGetListView_decides

theorem firstRecognition_decides {rs : List (Site → Call → Build Recognition)}
    (hrs : ∀ r ∈ rs, Decides c (r site call)) : Decides c (firstRecognition site call rs) := by
  induction rs with
  | nil => exact .pure .unrecognized
  | cons r rs ih =>
    refine .bind (hrs r List.mem_cons_self) fun a b hab => ?_
    cases hab with
    | operation => exact .pure .operation
    | unusable => exact .pure .unusable
    | unrecognized => exact ih fun r hr => hrs r (List.mem_cons_of_mem _ hr)

theorem recognize_decides : Decides c (recognize site call) := firstRecognition_decides fun _ => recognizers_decides

/-- The recognisers leave the call alone. -/
def Ordinary (c : Context) (site : Site) (call : Call) : Prop :=
  ∃ f f', recognize site call c f = (.ok .unrecognized, f')

/-- **A call that is left alone once is left alone always.** -/
theorem Ordinary.eq_unrecognized {answer : Recognition} {f f' : Flowgraph} (h : Ordinary c site call)
    (ha : recognize site call c f = (.ok answer, f')) : answer = .unrecognized := by
  obtain ⟨f₀, f₁, h₀⟩ := h
  have hdecides : Decides c (recognize site call) := recognize_decides
  have hends := hdecides f₀ f
  rw [h₀, ha] at hends
  cases hends
  rfl

end WidgetFlow.Flowgraph
