import Mathlib.Data.List.Sort
import WidgetFlow.Proofs.Solving
import WidgetFlow.Proofs.StrictConstruction

/-!
# The content of dialogs

An alert dialog gets its content when it is shown for the first time. A builder can show it, a call on the dialog, or a
call on an activity that made it, and each of them any number of times. The dialogs that have their content are
remembered, and they are the alert dialogs whose record has a show (`Furnished`). Showing a dialog keeps this
(`showDialog_furnished`), and so does the rest of the construction, which is routine. Hence a shown alert dialog has its
content once, and no other dialog has any (`length_contentOf_of_build`).
-/

namespace WidgetFlow

open Std

/-- The framework has a layout for alert dialogs. -/
def Context.hasAlertLayout (c : Context) : Bool := (c.project.resources.systemLayouts["alert_dialog"]?).isSome

namespace Flowgraph

variable {α : Type} {c : Context} {s : NodeSet} {f f' : Flowgraph} {d n v : NodeId} {site : Site}

/-- The operations that give a dialog its content: they are on the local that stands for the dialog. -/
def contentOf (f : Flowgraph) (dialog : NodeId) : List NodeId :=
  match f.dialogVars[dialog]? with
  | some window => (f.graph.operations .setContent).filter fun n => (f.graph.op? n).any fun o =>
      o.site.origin = .synthetic .dialogContent ∧ o.receiver = some window
  | none => []

theorem mem_contentOf : n ∈ f.contentOf d ↔ ∃ v, f.dialogVars[d]? = some v ∧ f.graph.IsContent n v := by
  unfold contentOf
  cases f.dialogVars[d]? with
  | none => simp
  | some v =>
    simp only [List.mem_filter, Graph.mem_operations, Option.any_eq_true, decide_eq_true_eq, Option.some.injEq,
      exists_eq_left', Graph.IsContent, Op.isContent_iff]
    constructor
    · rintro ⟨⟨o, ho, htag⟩, o', ho', horigin, hv⟩
      obtain rfl : o = o' := Option.some.inj (ho.symm.trans ho')
      exact ⟨o, ho, ⟨htag, horigin⟩, hv⟩
    · rintro ⟨o, ho, ⟨htag, horigin⟩, hv⟩
      exact ⟨⟨o, ho, htag⟩, o, ho, horigin, hv⟩

theorem pairwise_contentOf : (f.contentOf d).Pairwise (· < ·) := by
  unfold contentOf
  split
  · exact Graph.pairwise_operations.sublist List.filter_sublist
  · exact .nil

/-- The object is an alert dialog. -/
def IsAlert (c : Context) (f : Flowgraph) (n : NodeId) : Prop :=
  (f.graph.classOf? n).any (c.project.program.isSubtype · Framework.alertDialog) = true

theorem isAlert_of_lt (hg : f.graph.Extends f'.graph) (hd : d < f.graph.size) : IsAlert c f' d ↔ IsAlert c f d := by
  rw [IsAlert, IsAlert, hg.classOf? hd]

/-! ## Dialogs that have their content -/

/-- Every dialog has a record. The alert dialogs that are shown are remembered, and the dialogs of a set have their
content. -/
structure Furnished (c : Context) (s : NodeSet) (f : Flowgraph) : Prop where
  listed : ∀ d, (f.graph.object? d).any (·.isDialog) = true → d ∈ f.dialogs
  locals : f.OwnLocals
  located : ∀ n v, f.graph.IsContent n v → ∃ d : NodeId, f.dialogVars[d]? = some v
  shown : ∀ d, (f.recordOf d).shows.isEmpty = false → d < f.graph.size
  filled : ∀ d, d ∈ f.filledDialogs ↔ (f.recordOf d).shows.isEmpty = false ∧ IsAlert c f d
  content : ∀ d, (f.contentOf d).length = if d ∈ s ∧ c.hasAlertLayout = true then 1 else 0

namespace Furnished

theorem empty : Furnished c ∅ {} where
  listed d h := by simp [Graph.object?, Graph.node?] at h
  locals := ⟨fun d v h => by simp at h, fun d d' v h => by simp at h⟩
  located n v h := by
    obtain ⟨o, ho, -⟩ := h
    simp [Graph.op?, Graph.node?] at ho
  shown d h := by simp [recordOf] at h
  filled d := by simp [recordOf]
  content d := by simp [contentOf]

/-- The content of a dialog is on its own local, so it stays the same when another dialog gets a local. -/
theorem contentOf_eq (h : Furnished c s f) (hr : Routine f f') : f'.contentOf d = f.contentOf d := by
  refine pairwise_contentOf.eq_of_mem_iff pairwise_contentOf fun n => ?_
  rw [mem_contentOf, mem_contentOf]
  constructor
  · rintro ⟨v, hv, hn⟩
    have hn := (hr.contents n v).mp hn
    obtain ⟨d', hd'⟩ := h.located n v hn
    obtain rfl := (hr.locals h.locals).inj d' d v (hr.windows d' v hd') hv
    exact ⟨v, hd', hn⟩
  · rintro ⟨v, hv, hn⟩
    exact ⟨v, hr.windows d v hv, (hr.contents n v).mpr hn⟩

theorem routine (h : Furnished c s f) (hr : Routine f f') : Furnished c s f' where
  listed d hd := (hr.listed d hd).elim (fun hd => hr.entries d (h.listed d hd)) id
  locals := hr.locals h.locals
  located n v hn := by
    obtain ⟨d, hd⟩ := h.located n v ((hr.contents n v).mp hn)
    exact ⟨d, hr.windows d v hd⟩
  shown d hd := hr.graph.lt (h.shown d (hr.shows d ▸ hd))
  filled d := by
    rw [hr.filled, hr.shows, h.filled]
    exact and_congr_right fun hd => (isAlert_of_lt hr.graph (h.shown d hd)).symm
  content d := by rw [h.contentOf_eq hr, h.content]

/-- What is routine does not fill a dialog. -/
theorem keep (h : Furnished c f.filledDialogs f) (hr : Routine f f') : Furnished c f'.filledDialogs f' :=
  hr.filled ▸ h.routine hr

/-- A show is recorded, and an alert dialog is remembered. -/
theorem record {t : NodeSet} {label : Label} (h : Furnished c s f) (hd : d < f.graph.size)
    (ht : ∀ d', d' ∈ t ↔ d' ∈ f.filledDialogs ∨ d' = d ∧ IsAlert c f d) :
    Furnished c s { f with
      dialogs := f.dialogs.alter d fun r => some { r.getD {} with shows := (r.getD {}).shows.insert label }
      filledDialogs := t } := by
  have hrecord : ∀ d', recordOf { f with
      dialogs := f.dialogs.alter d fun r => some { r.getD {} with shows := (r.getD {}).shows.insert label }
      filledDialogs := t } d' =
        if d' = d then { f.recordOf d' with shows := (f.recordOf d').shows.insert label } else f.recordOf d' :=
    fun d' => recordOf_alter (g := fun r => { r with shows := r.shows.insert label })
  refine ⟨fun d' hd' => ?_, h.locals.mono (.refl _) (Nat.le_refl _) rfl, h.located, fun d' hd' => ?_, fun d' => ?_,
    h.content⟩
  · exact Container.key_mem_alter.mpr (.inr (h.listed d' hd'))
  · rw [hrecord] at hd'
    split at hd'
    · rename_i he
      exact he ▸ hd
    · exact h.shown d' hd'
  · rw [hrecord, ht, h.filled]
    by_cases he : d' = d
    · subst he
      rw [if_pos rfl, eq_self, true_and, or_iff_right_of_imp And.right]
      exact (and_iff_right (ExtTreeSet.isEmpty_eq_false_iff.mpr ExtTreeSet.insert_ne_empty)).symm
    · rw [if_neg he]
      exact or_iff_left fun h => he h.1

/-- A dialog that has a local gets its content. -/
theorem install {o : Op} (h : Furnished c s f) (hd : d ∉ s) (hv : f.dialogVars[d]? = some v)
    (ho : o.isContent = true) (hr : o.receiver = some v) (hc : c.hasAlertLayout = true) :
    Furnished c (s.insert d) { f with graph := f.graph.pushOp o } := by
  have hext : f.graph.Extends (f.graph.pushOp o) := Graph.pushOp_grows.toExtends
  have hmem : ∀ {d' n}, n ∈ contentOf { f with graph := f.graph.pushOp o } d' ↔
      (n = f.graph.size ∧ d' = d) ∨ n ∈ f.contentOf d' := by
    intro d' n
    simp only [mem_contentOf, Graph.isContent_pushOp, and_or_left, exists_or, ho, hr, true_and, Option.some.injEq]
    refine or_congr_left ⟨?_, ?_⟩
    · rintro ⟨w, hw, hn, rfl⟩
      exact ⟨hn, h.locals.inj d' d v hw hv⟩
    · rintro ⟨hn, rfl⟩
      exact ⟨v, hv, hn, rfl⟩
  refine ⟨fun d' hd' => ?_, h.locals.mono hext (Nat.le_refl _) rfl, fun n w hn => ?_, fun d' hd' => ?_, fun d' => ?_,
    fun d' => ?_⟩
  · rw [Graph.object?_pushOp] at hd'
    exact h.listed d' hd'
  · rcases Graph.isContent_pushOp.mp hn with ⟨-, -, hw⟩ | hn
    · exact ⟨d, hv.trans (hr.symm.trans hw)⟩
    · exact h.located n w hn
  · exact hext.lt (h.shown d' hd')
  · refine (h.filled d').trans (and_congr_right fun hd' => ?_)
    exact (isAlert_of_lt hext (h.shown d' hd')).symm
  · by_cases he : d' = d
    · subst he
      have hnone : f.contentOf d' = [] := List.length_eq_zero_iff.mp ((h.content d').trans (if_neg fun h => hd h.1))
      have hone : contentOf { f with graph := f.graph.pushOp o } d' = [f.graph.size] := by
        refine pairwise_contentOf.eq_of_mem_iff (List.pairwise_singleton _ _) fun n => ?_
        rw [hmem, hnone]
        simp
      rw [hone, if_pos ⟨ExtTreeSet.mem_insert_self, hc⟩]
      rfl
    · have hsame : contentOf { f with graph := f.graph.pushOp o } d' = f.contentOf d' := by
        refine pairwise_contentOf.eq_of_mem_iff pairwise_contentOf fun n => ?_
        rw [hmem]
        exact or_iff_right fun h => he h.2
      rw [hsame, h.content]
      simp only [Container.mem_insert, he, false_or]

/-- Without the layout, no dialog gets content. -/
theorem of_missing {s' : NodeSet} (h : Furnished c s f) (hc : c.hasAlertLayout = false) : Furnished c s' f :=
  { h with content := fun d => by rw [h.content, hc]; simp }

end Furnished

/-! ## A dialog is shown -/

theorem systemLayoutNode_found {name : String} :
    Does Routine c f (systemLayoutNode name) fun layout _ =>
      layout.isSome = (c.project.resources.systemLayouts[name]?).isSome := by
  unfold systemLayoutNode
  refine .read rfl ?_
  cases c.project.resources.systemLayouts[name]? with
  | none => exact .pure rfl
  | some value => exact .map (idNode_calm.does.imp fun _ _ _ _ => rfl)

theorem dialogContent_installs (h : Furnished c s f) (hd : d ∉ s) :
    Does Anyhow c f (dialogContent d site) fun _ f' =>
      Furnished c (s.insert d) f' ∧ f'.filledDialogs = f.filledDialogs := by
  unfold dialogContent
  refine .bind systemLayoutNode_found.forget fun layout f₁ _ ⟨h₁, hlayout⟩ => ?_
  cases layout with
  | none =>
    refine remark_calm.does.forget.imp fun _ f₂ _ ⟨h₂, _⟩ => ?_
    have hr := trans_of Routine h₁ h₂
    exact ⟨(h.routine hr).of_missing hlayout.symm, hr.filled⟩
  | some layout =>
    refine .bind dialogVar_routine.forget fun window f₂ _ ⟨h₂, hwindow⟩ => ?_
    have hr := trans_of Routine h₁ h₂
    exact .of_run rfl trivial ⟨(h.routine hr).install hd hwindow rfl rfl hlayout.symm, hr.filled⟩

/-- **Showing a dialog fills it if it is an alert dialog that was not shown before.** -/
theorem showDialog_furnished (h : Furnished c f.filledDialogs f) (hd : d < f.graph.size) :
    Does Anyhow c f (showDialog d site) fun _ f' => Furnished c f'.filledDialogs f' := by
  -- a dialog that is filled, or that is no alert dialog, gets the record only
  have hrecord : d ∈ f.filledDialogs ∨ ¬IsAlert c f d → Furnished c f.filledDialogs { f with
      dialogs := f.dialogs.alter d fun r =>
        some { r.getD {} with shows := (r.getD {}).shows.insert site.label } } := by
    intro hno
    refine h.record hd fun d' => (or_iff_left_of_imp ?_).symm
    rintro ⟨rfl, halert⟩
    exact hno.resolve_right fun h => h halert
  unfold showDialog
  refine .bind (Q := fun _ f₁ => f₁ = _) (.of_run rfl trivial rfl) fun _ f₁ _ hf₁ => ?_
  subst hf₁
  refine .read rfl ?_
  have hobject : ∀ o, f.graph.object? d = some o →
      (IsAlert c f d ↔ c.project.program.isSubtype o.cls Framework.alertDialog = true) := by
    intro o ho
    simp [IsAlert, Graph.classOf?, ho]
  cases ho : f.graph.object? d with
  | none =>
    refine .pure (hrecord (.inr fun h => ?_))
    simp [IsAlert, Graph.classOf?, ho] at h
  | some o =>
    refine .read rfl ?_
    split
    · rename_i hsub
      refine .pure (hrecord (.inr fun h => ?_))
      rw [(hobject o ho).mp h] at hsub
      cases hsub
    · rename_i hsub
      refine .read rfl ?_
      split
      · rename_i hfilled
        exact .pure (hrecord (.inl hfilled))
      · rename_i hnew
        have halert : IsAlert c f d := (hobject o ho).mpr (by simpa using hsub)
        refine .bind (Q := fun _ f₂ => f₂ = _) (.of_run rfl trivial rfl) fun _ f₂ _ hf₂ => ?_
        subst hf₂
        refine .bind (dialogContent_installs (h.record hd fun d' => ?_) hnew) fun _ f₃ _ hinstalled => ?_
        · rw [Container.mem_insert, or_comm, and_iff_left halert]
        have h₃ : Furnished c f₃.filledDialogs f₃ := hinstalled.2 ▸ hinstalled.1
        split
        · exact pickerContent_calm.does.forget.imp fun _ f₄ _ h₄ => h₃.keep h₄.1
        · exact .pure h₃

/-! ## The whole construction -/

/-- Additions after which the dialogs still have the content that they should have. -/
structure Furnishes (c : Context) (f f' : Flowgraph) : Prop where
  additions : Additions c f f'
  furnished : Furnished c f.filledDialogs f → Furnished c f'.filledDialogs f'

instance : IsPreorder Flowgraph (Furnishes c) where
  refl _ := ⟨.refl, id⟩
  trans _ _ _ h h' := ⟨h.additions.trans h'.additions, h'.furnished ∘ h.furnished⟩

theorem Furnishes.valid (h : Furnishes c f f') (hf : f.Valid) : f'.Valid := h.additions.valid hf

theorem Furnishes.isValue (h : Furnishes c f f') (hn : f.graph.IsValue n) : f'.graph.IsValue n :=
  h.additions.graph.isValue hn

theorem Makes.furnishes {x : Edit α} {Q : α → Flowgraph → Prop} (h : Makes c f x Q) (hx : Calm Routine x)
    (hf : f.Valid) : Does (Furnishes c) c f x Q :=
  ⟨⟨(h.run hf).moves, fun hs => hs.keep hx.does.moves⟩, (h.run hf).post⟩

theorem Builds.furnishes {x : Build α} {Q : α → Flowgraph → Prop} (h : Builds c f x Q) (hx : Fair Routine x)
    (hf : f.Valid) : Tries (Furnishes c) Anyhow c f x Q where
  ok hrun := ⟨⟨((h.run hf).ok hrun).1, fun hs => hs.keep (hx.moves hrun)⟩, ((h.run hf).ok hrun).2⟩
  error _ := ⟨f, refl_of (Furnishes c) f, trivial⟩

theorem showDialog_furnishes (hf : f.Valid) (hd : f.graph.IsValue d) :
    Does (Furnishes c) c f (showDialog d site) fun _ _ => True :=
  ⟨⟨((showDialog_makes hd).run hf).moves, fun hs => (showDialog_furnished hs hd.1).post⟩, trivial⟩

theorem dismissDialog_furnishes {labels : List Label} (hf : f.Valid) (hd : f.graph.IsValue d) :
    Does (Furnishes c) c f (dismissDialog d labels) fun _ _ => True :=
  (dismissDialog_makes hd).any.furnishes dismissDialog_calm hf

theorem runBuilders_furnishes (hf : f.Valid) : Tries (Furnishes c) Anyhow c f runBuilders fun _ _ => True := by
  unfold runBuilders
  refine .liftBind (resolveReceivers_makes.furnishes resolveReceivers_calm hf) fun creates f₁ h₁ _ => ?_
  have hf₁ := h₁.valid hf
  refine .liftBind (resolveReceivers_makes.furnishes resolveReceivers_calm hf₁) fun setters f₂ h₂ _ => ?_
  refine .each fun ⟨builder, sites⟩ _ f₃ h₃ => .each fun s _ f₄ h₄ => ?_
  have hf₄ := h₄.valid (h₃.valid (h₂.valid hf₁))
  refine .liftBind (dialogNode_makes.furnishes dialogNode_calm hf₄) fun dialog f₅ h₅ hdialog => ?_
  have hf₅ := h₅.valid hf₄
  extract_lets fill
  have hfill : ∀ u f₆, Furnishes c f₅ f₆ → Tries (Furnishes c) Anyhow c f₆ (fill u) fun _ _ => True := by
    intro u f₆ h₆
    have hf₆ := h₆.valid hf₅
    have hd := h₆.isValue hdialog
    refine .bind ((applySetters_builds hd).furnishes applySetters_fair hf₆) fun _ f₇ h₇ _ => ?_
    split
    · exact .lift (showDialog_furnishes (h₇.valid hf₆) (h₇.isValue hd))
    · exact .pure trivial
  split
  · exact .liftBind ((flowTo_makes hdialog).discard.furnishes flowTo_calm.discard hf₅) fun u f₆ h₆ _ => hfill u f₆ h₆
  · exact hfill () f₅ (refl_of (Furnishes c) f₅)

theorem runActivityDialogs_furnishes {role : Role} {act : NodeId → Site → Edit Unit} (hf : f.Valid)
    (hact : ∀ d s f, f.Valid → f.graph.IsValue d → Does (Furnishes c) c f (act d s) fun _ _ => True) :
    Does (Furnishes c) c f (runActivityDialogs role act) fun _ _ => True := by
  unfold runActivityDialogs
  refine .read rfl (.each fun s _ f₁ h₁ => ?_)
  have hf₁ := h₁.valid hf
  refine .bind (dialogsOfActivity_makes.furnishes dialogsOfActivity_calm hf₁) fun dialogs f₂ h₂ hdialogs => ?_
  have hf₂ := h₂.valid hf₁
  extract_lets apply
  have happly : ∀ u f₃, Furnishes c f₂ f₃ → Does (Furnishes c) c f₃ (apply u) fun _ _ => True := fun u f₃ h₃ =>
    .each fun d hd f₄ h₄ => hact d s f₄ (h₄.valid (h₃.valid hf₂)) (h₄.isValue (h₃.isValue (hdialogs d hd)))
  split
  · exact .bind (remark_makes.furnishes remark_calm hf₂) fun u f₃ h₃ _ => happly u f₃ h₃
  · exact happly () f₂ (refl_of (Furnishes c) f₂)

theorem collect_furnishes (hf : f.Valid) : Tries (Furnishes c) Anyhow c f collect fun _ _ => True := by
  unfold collect
  refine .liftBind (createIdNodes_makes.furnishes createIdNodes_calm hf) fun _ f₁ h₁ _ => ?_
  have hf₁ := h₁.valid hf
  refine .liftBind (addCallbacks_makes.furnishes addCallbacks_calm hf₁) fun _ f₂ h₂ _ => ?_
  have hf₂ := h₂.valid hf₁
  refine .bind (addStmts_builds.furnishes addStmts_fair hf₂) fun _ f₃ h₃ _ => ?_
  have hf₃ := h₃.valid hf₂
  refine .liftBind (linkArrays_makes.furnishes linkArrays_calm hf₃) fun _ f₄ h₄ _ => ?_
  exact runBuilders_furnishes (h₄.valid hf₃)

theorem recordCalls_furnishes (hf : f.Valid) : Tries (Furnishes c) Anyhow c f recordCalls fun _ _ => True := by
  unfold recordCalls
  refine .liftBind (resolveReceivers_makes.furnishes resolveReceivers_calm hf) fun shows f₁ h₁ hshows => ?_
  have hf₁ := h₁.valid hf
  refine .bind (.each fun ⟨d, sites⟩ hd f₂ h₂ => .each fun s _ f₃ h₃ => .lift ?_) fun _ f₂ h₂ _ => ?_
  · exact showDialog_furnishes (h₃.valid (h₂.valid hf₁)) (h₃.isValue (h₂.isValue (hshows d sites hd)))
  have hf₂ := h₂.valid hf₁
  refine .liftBind (resolveReceivers_makes.furnishes resolveReceivers_calm hf₂) fun dismisses f₃ h₃ hdismisses => ?_
  refine .each fun ⟨d, sites⟩ hd f₄ h₄ => .lift ?_
  exact dismissDialog_furnishes (h₄.valid (h₃.valid hf₂)) (h₄.isValue (hdismisses d sites hd))

theorem finish_furnishes (hf : f.Valid) : Tries (Furnishes c) Anyhow c f finish fun _ _ => True := by
  unfold finish
  refine .liftBind (resolveReceivers_makes.furnishes resolveReceivers_calm hf) fun setters f₁ h₁ hsetters => ?_
  have hf₁ := h₁.valid hf
  refine .bind (.each fun ⟨d, sites⟩ hd f₂ h₂ => ?_) fun _ f₂ h₂ _ => ?_
  · exact (applySetters_builds (h₂.isValue (hsetters d sites hd))).furnishes applySetters_fair (h₂.valid hf₁)
  have hf₂ := h₂.valid hf₁
  refine .liftBind (runActivityDialogs_furnishes hf₂ fun _ _ _ => showDialog_furnishes) fun _ f₃ h₃ _ => ?_
  have hf₃ := h₃.valid hf₂
  refine .liftBind (runActivityDialogs_furnishes hf₃ fun _ _ _ => dismissDialog_furnishes) fun _ f₄ h₄ _ => ?_
  have hf₄ := h₄.valid hf₃
  refine .liftBind (addDefaultRoots_makes.furnishes addDefaultRoots_calm hf₄) fun _ f₅ h₅ _ => ?_
  have hf₅ := h₅.valid hf₄
  refine .liftBind (addListItemClicks_makes.furnishes addListItemClicks_calm hf₅) fun _ f₆ h₆ _ => ?_
  have hf₆ := h₆.valid hf₅
  refine .liftBind (runLists_makes.furnishes runLists_calm hf₆) fun _ f₇ h₇ _ => ?_
  have hf₇ := h₇.valid hf₆
  refine .liftBind (runTabs_makes.furnishes runTabs_calm hf₇) fun _ f₈ h₈ _ => ?_
  have hf₈ := h₈.valid hf₇
  refine .liftBind (runMenuTasks_makes.furnishes runMenuTasks_calm hf₈) fun _ f₉ h₉ _ => ?_
  exact .read rfl (.lift (remark_makes.furnishes remark_calm (h₉.valid hf₈)))

theorem furnished_of_build (h : build c = .ok f) : Furnished c f.filledDialogs f := by
  have hrun := construct_of_build h
  rw [construct_eq] at hrun
  have hall : Tries (Furnishes c) Anyhow c {} (do collect; recordCalls; finish) fun _ _ => True := by
    refine .bind (collect_furnishes valid_empty) fun _ f₁ h₁ _ => ?_
    have hf₁ := h₁.valid valid_empty
    exact .bind (recordCalls_furnishes hf₁) fun _ f₂ h₂ _ => finish_furnishes (h₂.valid hf₁)
  exact (hall.ok hrun).1.furnished .empty

/-- **A shown alert dialog has its content once.** Every dialog has a record. However often and from wherever it is
shown, there is one operation that gives it its content, if it is an alert dialog with a show in its record and the
framework has the layout, and none otherwise. -/
theorem length_contentOf_of_build {cls : String} {label : Option Label} {cancelable : Bool} (h : build c = .ok f)
    (hd : f.graph.object? d = some (.dialog cls label cancelable)) :
    ∃ r, f.dialogs[d]? = some r ∧ (f.contentOf d).length =
      if c.project.program.isSubtype cls Framework.alertDialog = true ∧ r.shows.isEmpty = false ∧
        c.hasAlertLayout = true then 1 else 0 := by
  have hf := furnished_of_build h
  have hlisted : d ∈ f.dialogs := hf.listed d (by rw [hd]; rfl)
  obtain ⟨r, hr⟩ := Option.isSome_iff_exists.mp (ExtTreeMap.mem_iff_isSome_getElem?.mp hlisted)
  have hrecord : f.recordOf d = r := by rw [recordOf, ExtTreeMap.getD_eq_getD_getElem?, hr]; rfl
  have halert : IsAlert c f d ↔ c.project.program.isSubtype cls Framework.alertDialog = true := by
    simp [IsAlert, Graph.classOf?, hd, Obj.cls]
  refine ⟨r, hr, ?_⟩
  rw [hf.content]
  refine if_congr ?_ rfl rfl
  rw [hf.filled, hrecord, halert, and_assoc, and_left_comm]

end Flowgraph

/-- The activity shows a dialog that it makes with a builder. The builder shows it too, and so does a call on it. -/
def Example.withAlert : Context :=
  let builder : Local := ⟨"builder", .ref "android.app.AlertDialog$Builder"⟩
  let dialog : Local := ⟨"dialog", .ref "android.app.Dialog"⟩
  let onCreate := methodOf "onCreate" [.ref "android.os.Bundle"] ⟨.void, 0⟩ [
    .assign (.var this) .this,
    .call (callOn this "showDialog" [.int] ⟨.void, 0⟩ [.int 1])]
  let onCreateDialog := methodOf "onCreateDialog" [.int] dialog.ty [
    .assign (.var builder) (.new "android.app.AlertDialog$Builder"),
    .assign (.var dialog) (.call (callOn builder "show" [] dialog.ty [])),
    .call (callOn dialog "show" [] ⟨.void, 0⟩ []),
    .ret (some (.var dialog))]
  application [onCreate, onCreateDialog] { systemLayouts := .ofList [("alert_dialog", (9 : Int))] }

namespace Flowgraph

/-- The dialog is shown from three places and has its content once. -/
theorem length_contentOf_threeShows : ∃ f r, build Example.withAlert = .ok f ∧ f.dialogs[6]? = some r ∧
    r.shows.toList = [.ofStmt "onCreate" 1, .ofStmt "onCreateDialog" 1, .ofStmt "onCreateDialog" 2] ∧
    (f.contentOf 6).length = 1 := by
  have heval : (build Example.withAlert).toOption.any (fun f =>
      f.graph.object? 6 = some (.dialog "android.app.AlertDialog" (some (.ofStmt "onCreateDialog" 1)) true) ∧
      (f.recordOf 6).shows.toList =
        [.ofStmt "onCreate" 1, .ofStmt "onCreateDialog" 1, .ofStmt "onCreateDialog" 2]) = true := by
    decide +kernel
  obtain ⟨f, hf, hk⟩ := exists_of_toOption heval
  obtain ⟨hobject, hshows⟩ := of_decide_eq_true hk
  obtain ⟨r, hr, hlength⟩ := length_contentOf_of_build hf hobject
  rw [recordOf, ExtTreeMap.getD_eq_getD_getElem?, hr, Option.getD_some] at hshows
  have hshown : r.shows.isEmpty = false := by rw [← ExtTreeSet.isEmpty_toList, hshows]; rfl
  rw [if_pos ⟨by decide +kernel, hshown, by decide +kernel⟩] at hlength
  exact ⟨f, r, hf, hr, hshows, hlength⟩

end Flowgraph

end WidgetFlow
