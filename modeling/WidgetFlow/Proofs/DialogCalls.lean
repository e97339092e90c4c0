import WidgetFlow.Proofs.Solving

/-!
# Calls on dialogs

A call that shows or dismisses a dialog is recorded for the dialogs that reach its receiver. The receivers are looked at
once, after the builders have made their dialogs and have bound the listeners that were set on them (`collect`). What
flows by then is recorded (`calls_recorded`).

A listener that is set on the dialog itself is bound later (`finish`), and only then the dialog flows into the parameter
of its method. A call on this parameter is not recorded, although in the end the dialog reaches it (`call_not_recorded`).
-/

namespace WidgetFlow

open Std

namespace Flowgraph

variable {c : Context} {f f' : Flowgraph} {role : Role} {site : Site} {dialog n v : NodeId} {l : Local}

/-! ## Calls and the dialogs that reach them -/

/-- The call has the role, and the dialog reaches its receiver. -/
def Addresses (f : Flowgraph) (role : Role) (site : Site) (dialog : NodeId) : Prop :=
  site ∈ f.sites role ∧ (f.graph.object? dialog).any (·.isDialog) = true ∧
    ∃ r v, site.receiver? = some r ∧ f.var? r = some v ∧ dialog ∈ f.graph.backwardOrder v

theorem mem_sites : site ∈ f.sites role ↔ ⟨role, site⟩ ∈ f.deferred := by
  simp only [sites, List.mem_map, List.mem_filter, decide_eq_true_eq]
  constructor
  · rintro ⟨⟨_, _⟩, ⟨h, rfl⟩, rfl⟩
    exact h
  · exact fun h => ⟨⟨role, site⟩, ⟨h, rfl⟩, rfl⟩

/-- The way back from a local stays as the graph grows. -/
theorem mem_backwardOrder_mono (hg : f.graph.Extends f'.graph) (hv : f.var? l = some v)
    (hn : n ∈ f.graph.backwardOrder v) : n ∈ f'.graph.backwardOrder v := by
  have hvalue := (var?_isVar hv).isValue
  exact hg.backwardOrder_of_op? hvalue.1 hvalue.2 hn

theorem Addresses.mono (h : f.Addresses role site dialog) (hf : Additions c f f') : f'.Addresses role site dialog := by
  obtain ⟨hsite, hdialog, r, v, hr, hv, hback⟩ := h
  refine ⟨mem_sites.mpr (hf.deferred _ (mem_sites.mp hsite)), hf.graph.isDialog hdialog, r, v, hr, ?_, ?_⟩
  · exact var?_mono hf.graph hv
  · exact mem_backwardOrder_mono hf.graph hv hback

/-! ## Receivers -/

/-- Calls that are grouped by their receivers. -/
theorem mem_foldl_byReceiver {step : ExtTreeMap Local (List Site) → Site → ExtTreeMap Local (List Site)}
    (hsome : ∀ m s r, s.receiver? = some r → step m s = m.alter r fun ss => some (ss.getD [] ++ [s]))
    (hnone : ∀ m s, s.receiver? = none → step m s = m) {ss : List Site} {m : ExtTreeMap Local (List Site)} :
    site ∈ (ss.foldl step m).getD l [] ↔ (site ∈ ss ∧ site.receiver? = some l) ∨ site ∈ m.getD l [] := by
  induction ss generalizing m with
  | nil => simp
  | cons s ss ih =>
    rw [List.foldl_cons, ih, List.mem_cons, or_and_right]
    cases hr : s.receiver? with
    | some r =>
      have hs : site = s ∧ site.receiver? = some l ↔ l = r ∧ site = s := by
        constructor
        · rintro ⟨rfl, h⟩
          exact ⟨Option.some.inj (h.symm.trans hr), rfl⟩
        · rintro ⟨rfl, rfl⟩
          exact ⟨rfl, hr⟩
      rw [hsome m s r hr, Container.mem_getD_alter_append, List.mem_singleton, hs, or_left_comm, or_assoc]
    | none =>
      have hs : ¬(site = s ∧ site.receiver? = some l) := by
        rintro ⟨rfl, h⟩
        rw [hr] at h
        cases h
      rw [hnone m s hr, or_iff_right hs]

theorem mem_sitesByReceiver : site ∈ (f.sitesByReceiver role).getD l [] ↔
    site ∈ f.sites role ∧ site.receiver? = some l := by
  rw [sitesByReceiver, mem_foldl_byReceiver]
  · simp
  · intro m s r hr
    rw [hr]
  · intro m s hr
    rw [hr]

theorem objectsReaching_finds : Makes c f (objectsReaching l) fun ns f' =>
    ∀ v, f.var? l = some v → ∀ n ∈ f.graph.backwardOrder v, (f.graph.object? n).any (·.isDialog) = true →
      n ∈ ns ∧ (f'.graph.object? n).any (·.isDialog) = true := by
  unfold objectsReaching
  refine ⟨fun _ => .bind ((varNode_does plain_pointer).mono (fun _ h => h.additions) fun _ _ _ h => h)
    fun v' f₁ h₁ hv' => .read rfl (.pure fun v hv n hn hd => ?_)⟩
  obtain rfl : v' = v := Option.some.inj (hv'.first.symm.trans (var?_mono h₁.graph hv))
  have hd₁ := h₁.graph.isDialog hd
  refine ⟨List.mem_filter.mpr ⟨ExtTreeSet.mem_toList.mpr ?_, ?_⟩, hd₁⟩
  · exact Container.mem_ofList.mpr (mem_backwardOrder_mono h₁.graph hv hn)
  · obtain ⟨o, ho, _⟩ := (Option.any_eq_true _ _).mp hd₁
    rw [ho]
    rfl

/-- The calls on a receiver are among the calls of every dialog that reaches it. -/
def Resolves (f : Flowgraph) (calls : Local × List Site) (m : ExtTreeMap NodeId (List Site)) : Prop :=
  ∀ v, f.var? calls.1 = some v → ∀ n ∈ f.graph.backwardOrder v, (f.graph.object? n).any (·.isDialog) = true →
    ∀ site ∈ calls.2, site ∈ m.getD n []

/-- **Receivers are resolved to all dialogs that reach them.** -/
theorem resolveReceivers_finds : Makes c f (resolveReceivers role (·.isDialog)) fun resolved f' =>
    KeysIn resolved f' ∧ ∀ site dialog, f.Addresses role site dialog → site ∈ resolved.getD dialog [] := by
  refine ⟨fun hf => (resolveReceivers_makes.run hf).and ?_⟩
  unfold resolveReceivers
  refine .read rfl ((Does.foldlM_collect (P := Resolves f) fun m calls _ f₁ h₁ => ?_).imp ?_)
  · obtain ⟨receiver, sites⟩ := calls
    refine .bind (objectsReaching_finds.run (h₁.valid hf)) fun reaching f₂ h₂ hreaching => .read rfl ?_
    -- the calls are added to all of these dialogs, and none is taken away
    have hadded : Resolves f (receiver, sites) ((reaching.filter fun n => (f₂.graph.object? n).any (·.isDialog)).foldl
        (fun m n => m.alter n fun ss => some (ss.getD [] ++ sites)) m) := by
      intro v hv n hn hd site hsite
      obtain ⟨hmem, hd₂⟩ := hreaching v (var?_mono h₁.graph hv) n (mem_backwardOrder_mono h₁.graph hv hn)
        (h₁.graph.isDialog hd)
      exact Container.mem_getD_foldl_alter_append.mpr (.inl ⟨List.mem_filter.mpr ⟨hmem, hd₂⟩, hsite⟩)
    have hkept : ∀ calls, Resolves f calls m → Resolves f calls
        ((reaching.filter fun n => (f₂.graph.object? n).any (·.isDialog)).foldl
          (fun m n => m.alter n fun ss => some (ss.getD [] ++ sites)) m) :=
      fun _ h v hv n hn hd site hsite =>
        Container.mem_getD_foldl_alter_append.mpr (.inr (h v hv n hn hd site hsite))
    dsimp only
    split
    · exact .bind (remark_makes.run (h₂.valid (h₁.valid hf))) fun _ _ _ _ => .pure ⟨hadded, hkept⟩
    · exact .pure ⟨hadded, hkept⟩
  · rintro m f₁ - ⟨hall, -⟩ site dialog ⟨hsite, hdialog, r, v, hr, hv, hback⟩
    obtain ⟨sites, hentry, hmem⟩ := Container.exists_of_mem_getD (mem_sitesByReceiver.mpr ⟨hsite, hr⟩)
    exact hall (r, sites) hentry v hv dialog hback hdialog site hmem

/-! ## Records -/

/-- Every call on a dialog is recorded: those of the first flowgraph, in the records of the second. -/
structure Recorded (f f' : Flowgraph) : Prop where
  shows : ∀ site dialog, f.Addresses .dialogShow site dialog → site.label ∈ (f'.recordOf dialog).shows
  dismisses : ∀ site dialog, f.Addresses .dialogDismiss site dialog → site.label ∈ (f'.recordOf dialog).dismisses

theorem recordCalls_records (hf : f.Valid) :
    Tries (Additions c) (Additions c) c f recordCalls fun _ f' => Recorded f f' := by
  unfold recordCalls
  refine .liftBind (resolveReceivers_finds.run hf) fun shows f₁ h₁ ⟨hkeys, hshows⟩ => ?_
  refine .bind (Tries.forM (P := fun (a : NodeId × List Site) f => ∀ s ∈ a.2, s.label ∈ (f.recordOf a.1).shows)
    (fun a _ _ _ h hs s hmem => h.shows _ _ (hs s hmem)) fun ⟨d, sites⟩ hd f₂ h₂ => ?_) fun _ f₂ h₂ hrecorded => ?_
  · refine .forM (fun s _ _ _ h => h.shows d s.label) fun s _ f₃ h₃ => .lift ?_
    exact (showDialog_makes (h₃.graph.isValue (h₂.graph.isValue (hkeys d sites hd)))).run
      (h₃.valid (h₂.valid (h₁.valid hf)))
  have hf₂ := h₂.valid (h₁.valid hf)
  refine .liftBind (resolveReceivers_finds.run hf₂) fun dismisses f₃ h₃ ⟨hkeys', hdismisses⟩ => ?_
  refine (Tries.forM (P := fun (a : NodeId × List Site) f => ∀ s ∈ a.2, s.label ∈ (f.recordOf a.1).dismisses)
    (fun a _ _ _ h hs s hmem => h.dismisses _ _ (hs s hmem)) fun ⟨d, sites⟩ hd f₄ h₄ => .lift ?_).imp ?_
  · intro _ f₄ h₄ hrecorded'
    refine ⟨fun site dialog h => ?_, fun site dialog h => ?_⟩
    · obtain ⟨sites, hentry, hmem⟩ := Container.exists_of_mem_getD (hshows site dialog h)
      exact h₄.shows _ _ (h₃.shows _ _ (hrecorded (dialog, sites) hentry site hmem))
    · have h₂' := (h.mono h₁).mono h₂
      obtain ⟨sites, hentry, hmem⟩ := Container.exists_of_mem_getD (hdismisses site dialog h₂')
      exact hrecorded' (dialog, sites) hentry site hmem
  · have hd := h₄.graph.isValue (hkeys' d sites hd)
    refine ((dismissDialog_makes hd).run (h₄.valid (h₃.valid hf₂))).imp fun _ f₅ _ h s hmem => ?_
    exact h _ (List.mem_map_of_mem hmem)

/-- **Calls on dialogs are recorded.** If a dialog reaches the receiver of a call when the builders have made their
dialogs, then the call is in the record of the dialog when the construction is done. -/
theorem calls_recorded (h : build c = .ok f) :
    ∃ f₁, collect c {} = (.ok (), f₁) ∧ f₁.graph.Extends f.graph ∧ Recorded f₁ f := by
  have hrun := construct_of_build h
  rw [construct_eq] at hrun
  rcases hc : collect c {} with ⟨e | ⟨⟩, f₁⟩
  · rw [bind_run_error hc] at hrun
    cases hrun
  rw [bind_run_ok hc] at hrun
  have hcollect : Builds c {} collect fun _ _ => True := collect_builds
  have hf₁ := ((hcollect.run valid_empty).ok hc).1.valid valid_empty
  have hrest : Tries (Additions c) (Additions c) c f₁ (do recordCalls; finish) fun _ f' => Recorded f₁ f' := by
    refine .bind (recordCalls_records hf₁) fun _ f₂ h₂ hrecorded => ?_
    refine (finish_builds.run (h₂.valid hf₁)).imp fun _ f₃ h₃ _ => ?_
    exact ⟨fun s d hs => h₃.shows d _ (hrecorded.shows s d hs), fun s d hs => h₃.dismisses d _ (hrecorded.dismisses s d hs)⟩
  obtain ⟨hadvances, hrecorded⟩ := hrest.ok hrun
  exact ⟨f₁, rfl, hadvances.graph, hrecorded⟩

/-- What can be evaluated of a call on a dialog. -/
theorem exists_addresses {label : Label} (h : (f.sites role).any (fun s => s.label = label ∧
    (f.graph.object? dialog).any (·.isDialog) = true ∧
    (s.receiver?.bind f.var?).any (dialog ∈ f.graph.backwardOrder ·) = true) = true) :
    ∃ site, site.label = label ∧ f.Addresses role site dialog := by
  obtain ⟨site, hsite, hk⟩ := List.any_eq_true.mp h
  obtain ⟨hlabel, hdialog, hback⟩ := of_decide_eq_true hk
  obtain ⟨v, hv, hback⟩ := (Option.any_eq_true _ _).mp hback
  obtain ⟨r, hr, hv⟩ := Option.bind_eq_some_iff.mp hv
  exact ⟨site, hlabel, hsite, hdialog, r, v, hr, hv, of_decide_eq_true hback⟩

end Flowgraph

/-! ## A listener that dismisses its dialog -/

/-- The activity shows a dialog, listens to it, and dismisses it when it is cancelled. -/
def Example.withDialog : Context :=
  let dialog : Local := ⟨"dialog", .ref "android.app.Dialog"⟩
  let sender : Local := ⟨"sender", .ref "android.content.DialogInterface"⟩
  let same : Local := ⟨"same", .ref "android.app.Dialog"⟩
  let onCreate := methodOf "onCreate" [.ref "android.os.Bundle"] ⟨.void, 0⟩ [
    .assign (.var this) .this,
    .assign (.var dialog) (.new "android.app.Dialog"),
    .call (callOn dialog "setOnCancelListener" [.ref "android.content.DialogInterface$OnCancelListener"] ⟨.void, 0⟩
      [.var this]),
    .call (callOn dialog "show" [] ⟨.void, 0⟩ [])]
  let onCancel := methodOf "onCancel" [.ref "android.content.DialogInterface"] ⟨.void, 0⟩ [
    .assign (.var sender) (.parameter 0),
    .assign (.var same) (.cast (.var sender) same.ty),
    .call (callOn same "dismiss" [] ⟨.void, 0⟩ [])]
  application [onCreate, onCancel] {}

namespace Flowgraph

/-- In the end the dialog reaches the call that dismisses it, and the record of the dialog is without this call. -/
theorem withDialog_dismiss : ∃ f site, build Example.withDialog = .ok f ∧ f.Addresses .dialogDismiss site 3 ∧
    site.label ∉ (f.recordOf 3).dismisses := by
  have heval : (build Example.withDialog).toOption.any (fun f =>
      (f.sites .dialogDismiss).any (fun s => s.label = Label.ofStmt "onCancel" 2 ∧
        (f.graph.object? 3).any (·.isDialog) = true ∧
        (s.receiver?.bind f.var?).any (3 ∈ f.graph.backwardOrder ·) = true) = true ∧
      Label.ofStmt "onCancel" 2 ∉ (f.recordOf 3).dismisses) = true := by
    decide +kernel
  obtain ⟨f, hf, hk⟩ := exists_of_toOption heval
  obtain ⟨haddresses, hmissing⟩ := of_decide_eq_true hk
  obtain ⟨site, hlabel, h⟩ := exists_addresses haddresses
  exact ⟨f, site, hf, h, hlabel ▸ hmissing⟩

/-- The dialog reaches the call that shows it from the start, and the call is in its record. -/
theorem show_recorded : ∃ f, build Example.withDialog = .ok f ∧
    Label.ofStmt "onCreate" 3 ∈ (f.recordOf 3).shows := by
  have heval : ((collect Example.withDialog {}).2.sites .dialogShow).any (fun s =>
      s.label = Label.ofStmt "onCreate" 3 ∧
      ((collect Example.withDialog {}).2.graph.object? 3).any (·.isDialog) = true ∧
      (s.receiver?.bind (collect Example.withDialog {}).2.var?).any
        (3 ∈ (collect Example.withDialog {}).2.graph.backwardOrder ·) = true) = true := by
    decide +kernel
  obtain ⟨f, _, hf, -, -⟩ := withDialog_dismiss
  obtain ⟨f₁, hf₁, -, hrecorded⟩ := calls_recorded hf
  obtain ⟨site, hlabel, h⟩ := exists_addresses heval
  rw [hf₁] at h
  exact ⟨f, hf, hlabel ▸ hrecorded.shows site 3 h⟩

/-- **A call can be missing from the record of a dialog that reaches it.** The listener was bound after the receivers had
been looked at. -/
theorem call_not_recorded : ¬∀ c f, build c = .ok f → ∀ site dialog,
    (f.Addresses .dialogShow site dialog → site.label ∈ (f.recordOf dialog).shows) ∧
    (f.Addresses .dialogDismiss site dialog → site.label ∈ (f.recordOf dialog).dismisses) := by
  obtain ⟨f, site, hf, h, hmissing⟩ := withDialog_dismiss
  intro hall
  exact hmissing ((hall _ f hf site 3).2 h)

end Flowgraph

end WidgetFlow
