import WidgetFlow.Proofs.Passes

/-!
# Registrations of listeners are known

A registration of a listener is an operation of its own kind. When it is made, its event is entered, and so is the
position of its method among the listeners of the settings, unless the framework's dispatch is modelled by other means
(`Flowgraph.Enrolled`). The construction makes a registration and enters it in one change, and a solver makes and enters
none, so a dispatch always finds the method that registered its listener.

* `Additions.enrolled`, `Step.register`: what the construction enters stays entered;
* `registrations_known`: every registration is known, and no request reports one that is not.
-/

namespace WidgetFlow

open Std Relation

/-! ## What is entered -/

/-- Two registries that differ in handlers and dispatches at most. -/
structure Listeners.SameRegister (l l' : Listeners) : Prop where
  events : l'.events = l.events
  registrations : l'.registrations = l.registrations
  modelled : l'.modelled = l.modelled
  tasks : l'.tasks = l.tasks

namespace Listeners.SameRegister

theorem rfl {l : Listeners} : l.SameRegister l := ⟨.refl _, .refl _, .refl _, .refl _⟩

theorem trans {l l' l'' : Listeners} (h : l.SameRegister l') (h' : l'.SameRegister l'') : l.SameRegister l'' where
  events := h'.events.trans h.events
  registrations := h'.registrations.trans h.registrations
  modelled := h'.modelled.trans h.modelled
  tasks := h'.tasks.trans h.tasks

end Listeners.SameRegister

namespace Flowgraph

variable {c : Context} {f f' : Flowgraph} {U : NodeKind → Prop}

/-- The node is the registration of a listener. -/
def IsRegistration (f : Flowgraph) (n : NodeId) : Prop := ∃ o, f.graph.op? n = some o ∧ o.kind.tag = .setListener

/-- Each registration has an event, and needs no dispatch or was made by a listener method of the settings. All
positions that are entered are positions of listeners in the settings. -/
structure Enrolled (c : Context) (f : Flowgraph) : Prop where
  event : ∀ n, f.IsRegistration n → n ∈ f.listeners.events
  entered : ∀ n, f.IsRegistration n → n ∈ f.listeners.modelled ∨
    ∃ i, f.listeners.registrations[n]? = some i ∧ i < c.settings.listeners.length
  registered : ∀ (n : NodeId) i, f.listeners.registrations[n]? = some i → i < c.settings.listeners.length
  tasks : ∀ t ∈ f.listeners.tasks, ∀ i, t.registration = some i → i < c.settings.listeners.length

theorem enrolled_empty : Enrolled c {} := by
  constructor
  case event | entered =>
    rintro n ⟨o, ho, -⟩
    cases ho
  case registered =>
    intro n i hi
    simp at hi
  case tasks => simp

/-- No registration is new, and none is lost. -/
theorem Enrolled.of_same (h : f.Enrolled c) (hl : f.listeners.SameRegister f'.listeners)
    (hreg : ∀ n, f'.IsRegistration n → f.IsRegistration n) : f'.Enrolled c := by
  constructor
  case event =>
    intro n hn
    rw [hl.events]
    exact h.event n (hreg n hn)
  case entered =>
    intro n hn
    rw [hl.modelled, hl.registrations]
    exact h.entered n (hreg n hn)
  case registered =>
    rw [hl.registrations]
    exact h.registered
  case tasks =>
    rw [hl.tasks]
    exact h.tasks

theorem isRegistration_of_op? {n : NodeId} (ho : ∀ n, f'.graph.op? n = f.graph.op? n) (h : f'.IsRegistration n) :
    f.IsRegistration n := by
  obtain ⟨o, hn, ht⟩ := h
  exact ⟨o, ho n ▸ hn, ht⟩

theorem isRegistration_pushOp {n : NodeId} {o : Op} (h : IsRegistration { f with graph := f.graph.pushOp o } n) :
    n = f.graph.size ∧ o.kind.tag = .setListener ∨ f.IsRegistration n := by
  obtain ⟨o', ho', ht⟩ := h
  rcases Graph.op?_pushOp_cases ho' with ⟨rfl, rfl⟩ | ho'
  · exact .inl ⟨rfl, ht⟩
  · exact .inr ⟨o', ho', ht⟩

theorem IsRegistration.lt {n : NodeId} (h : f.IsRegistration n) : n < f.graph.size := by
  obtain ⟨o, ho, -⟩ := h
  exact Graph.op?_lt ho

/-- A new registration is entered with its event. -/
theorem Enrolled.register {o : Op} {l : Listeners} (h : f.Enrolled c) (hl : f.listeners.Registers c f.graph.size l) :
    Enrolled c { f with graph := f.graph.pushOp o, listeners := l } := by
  have hregistered : ∀ (n : NodeId) i, l.registrations[n]? = some i → i < c.settings.listeners.length := by
    intro n i hi
    rcases hl.registrations with hr | ⟨j, spec, hj, hr⟩ <;> rw [hr] at hi
    · exact h.registered n i hi
    · rw [ExtTreeMap.getElem?_insert] at hi
      split at hi
      · cases hi
        exact (List.getElem?_eq_some_iff.mp hj).1
      · exact h.registered n i hi
  constructor
  case event =>
    intro n hn
    obtain ⟨e, he⟩ := hl.events
    show n ∈ l.events
    rw [he, Container.key_mem_insert]
    exact (isRegistration_pushOp hn).imp (·.1) (h.event n)
  case entered =>
    intro n hn
    show n ∈ l.modelled ∨ _
    rcases isRegistration_pushOp hn with ⟨rfl, -⟩ | hn
    · refine hl.entered.imp_right fun hin => ?_
      obtain ⟨i, hi⟩ := Option.isSome_iff_exists.mp (ExtTreeMap.mem_iff_isSome_getElem?.mp hin)
      exact ⟨i, hi, hregistered _ i hi⟩
    -- an older operation has another number, so its entries are untouched
    · have hne : n ≠ f.graph.size := Nat.ne_of_lt hn.lt
      refine (h.entered n hn).imp (fun hm => ?_) fun ⟨i, hi, hlt⟩ => ⟨i, ?_, hlt⟩
      · rcases hl.modelled with hm' | hm' <;> rw [hm']
        · exact hm
        · exact Container.mem_insert.mpr (.inr hm)
      · rcases hl.registrations with hr | ⟨j, _, _, hr⟩
        · exact hr ▸ hi
        · show l.registrations[n]? = some i
          rw [hr, Container.getElem?_insert_of_ne hne]
          exact hi
  case registered => exact hregistered
  case tasks => exact fun t ht => (hl.tasks t ht).elim (h.tasks t) (·.2)

theorem Change.register (h : Change U f f') : f.listeners.SameRegister f'.listeners := by
  cases h <;> exact ⟨rfl, rfl, rfl, rfl⟩

theorem Edits.register (h : Edits U f f') : f.listeners.SameRegister f'.listeners := by
  induction h with
  | refl => exact .rfl
  | tail _ h ih => exact ih.trans h.register

theorem Addition.enrolled (h : Addition c f f') (hf : f.Enrolled c) : f'.Enrolled c := by
  cases h with
  | edit h => exact hf.of_same h.register fun _ => isRegistration_of_op? fun _ => h.op?
  | object _ ho => exact hf.of_same .rfl fun _ => isRegistration_of_op? fun _ => Graph.op?_push ho
  | op _ hk =>
    refine hf.of_same .rfl fun n hn => ?_
    exact (isRegistration_pushOp hn).resolve_left fun hn => hk hn.2
  | registration _ _ hl => exact hf.register hl
  | modify hg => exact hf.of_same .rfl fun _ => isRegistration_of_op? fun _ => Graph.op?_modify fun a => (hg a).op?
  | dialog | deferred => exact hf.of_same .rfl fun _ hn => hn
  | entry h =>
    refine hf.of_same (h.listeners ▸ .rfl) fun _ => isRegistration_of_op? fun _ => ?_
    rw [h.graph]

theorem Additions.enrolled (h : Additions c f f') (hf : f.Enrolled c) : f'.Enrolled c := by
  induction h with
  | refl => exact hf
  | tail _ h ih => exact h.enrolled ih

end Flowgraph

namespace Solver

open Flowgraph

variable {s t : Solver} {c : Context} {f : Flowgraph} {p : Phase}

theorem register_of_inflates (h : ReflTransGen (Inflates c) s t) :
    s.flowgraph.listeners.SameRegister t.flowgraph.listeners := by
  induction h with
  | refl => exact .rfl
  | tail _ h ih =>
    cases h with
    | note | nest => exact ih
    | widget _ h₁ _ h₂ => exact ih.trans (h₁.register.trans h₂.register)

/-- A solver registers nothing and forgets no registration. -/
theorem Step.register (h : Step c p s t) : s.flowgraph.listeners.SameRegister t.flowgraph.listeners := by
  cases h with
  | note | settle | id | candidate | downstream | seed | propagate | find | root | nest | bindId | texts | drawables =>
    exact .rfl
  | @dispatch _ op view listener _ _ _ _ _ h =>
    have hmark : s.flowgraph.listeners.SameRegister (s.flowgraph.mark op view listener).listeners :=
      ⟨rfl, rfl, rfl, rfl⟩
    exact hmark.trans h.register
  | layout _ _ hin =>
    rw [finish_eq]
    exact (register_of_inflates hin :)
  | menu _ _ hin => exact (register_of_inflates hin :)
  | reuse =>
    rw [flowgraph_deliver]
    exact .rfl

theorem Reached.enrolled (hf : Available c f) (hs : Reached c f s) : s.flowgraph.Enrolled c :=
  hs.keeps (construct_additions.enrolled enrolled_empty)
    (fun _ h hs => hs.of_same h.register fun _ => isRegistration_of_op? h.le.op?) hf

/-! ## What is reported -/

/-- The first letters of a text. -/
def opening (text : String) : List Char := text.toList.take 3

theorem opening_append {word rest : String} (h : 3 ≤ word.toList.length) : opening (word ++ rest) = opening word := by
  rw [opening, String.toList_append, List.take_append_of_le_length h]
  rfl

theorem opening_unknownRegistration {op : String} :
    opening (Violation.unknownRegistration op).text = opening "Unknown" := by
  have htext : (Violation.unknownRegistration op).text = "Unknown listener registration " ++ op := rfl
  rw [htext]
  exact opening_append (by decide)

theorem opening_unexpectedFlow {value op : String} :
    opening (Violation.unexpectedFlow value op).text = opening "Unexpected" := by
  have htext : (Violation.unexpectedFlow value op).text = "Unexpected flow of " ++ (value ++ (" into " ++ op)) := by
    rw [← String.append_assoc, ← String.append_assoc]
    rfl
  rw [htext]
  exact opening_append (by decide)

theorem opening_containmentCycle {child parent : String} :
    opening (Violation.containmentCycle child parent).text = opening "Adding" := by
  have htext : (Violation.containmentCycle child parent).text =
      "Adding " ++ (parent ++ (" as parent of " ++ (child ++ " would create a containment cycle"))) := by
    rw [← String.append_assoc, ← String.append_assoc, ← String.append_assoc]
    rfl
  rw [htext]
  exact opening_append (by decide)

/-- The text of a widget starts with its kind. -/
theorem describe_isWidget {g : Graph} {n : NodeId} (h : (g.object? n).any (·.isWidget) = true) :
    ∃ word ∈ ["INFL[", "MenuItem[", "VIEW["], ∃ rest, g.describe n = word ++ rest := by
  obtain ⟨o, ho, hw⟩ := (Option.any_eq_true _ _).mp h
  obtain ⟨a, ha, hk⟩ := Graph.node?_of_object? ho
  have hkind : a.kind = .object o := by
    cases hkind : a.kind <;> rw [hkind] at hk <;> cases hk
    rfl
  have hbracket : ∀ word cls, o.text = word ++ cls ++ "]" →
      g.describe n = word ++ (cls ++ "]" ++ "#" ++ toString n) := by
    intro word cls htext
    rw [Graph.describe, ha]
    simp only [hkind, NodeKind.text]
    show o.text ++ "#" ++ toString n = _
    rw [htext]
    simp only [String.append_assoc]
  cases o with
  | inflated cls => exact ⟨_, by simp, _, hbracket "INFL[" cls rfl⟩
  | menuItem cls => exact ⟨_, by simp, _, hbracket "MenuItem[" cls rfl⟩
  | viewAlloc cls => exact ⟨_, by simp, _, hbracket "VIEW[" cls rfl⟩
  | _ => cases hw

theorem opening_ownParent {g : Graph} {n : NodeId} (h : (g.object? n).any (·.isWidget) = true) :
    ∃ word ∈ ["INFL[", "MenuItem[", "VIEW["], opening (Violation.ownParent (g.describe n)).text = opening word := by
  obtain ⟨word, hword, rest, hn⟩ := describe_isWidget h
  have htext : (Violation.ownParent (g.describe n)).text = word ++ (rest ++ " cannot be its own parent") := by
    rw [hn, ← String.append_assoc]
    rfl
  have hlong : ∀ word ∈ ["INFL[", "MenuItem[", "VIEW["], 3 ≤ word.toList.length := by decide
  exact ⟨word, hword, htext ▸ opening_append (hlong word hword)⟩

theorem nest_violation {g : Graph} {child parent : NodeId} {v : Violation} (h : g.nest child parent = .error v) :
    v = .ownParent (g.describe child) ∨ v = .containmentCycle (g.describe child) (g.describe parent) := by
  unfold Graph.nest at h
  split at h
  · exact .inl (Except.error.inj h).symm
  · split at h
    · cases h
    · split at h
      · exact .inr (Except.error.inj h).symm
      · cases h

/-- What stops a strict run is an unexpected flow or a refused containment. -/
theorem Stops.text_ne {fault : Fault} {op : String} (h : Stops fault s t) :
    fault.violation.text ≠ (Violation.unknownRegistration op).text := by
  intro he
  have hopening := (congrArg opening he).trans opening_unknownRegistration
  cases h with
  | flow =>
    rw [Graph.unexpected, opening_unexpectedFlow] at hopening
    exact absurd hopening (by decide)
  | containment _ _ hc _ h =>
    rcases nest_violation h with rfl | rfl
    · obtain ⟨word, hword, hown⟩ := opening_ownParent (mem_widgetParameters.mp hc).2
      have hne : ∀ word ∈ ["INFL[", "MenuItem[", "VIEW["], opening word ≠ opening "Unknown" := by decide
      exact hne word hword (hown.symm.trans hopening)
    · rw [opening_containmentCycle] at hopening
      exact absurd hopening (by decide)

theorem Stops.errors_eq {fault : Fault} (h : Stops fault s t) : errors t = errors s := by
  cases h <;> rfl

/-- **What a request reports.** A strict one fails with it, and a lenient one logs it. -/
theorem Request.reports (hs : Poised c s) (x : Request) :
    (∀ fault, x.answer c s = .error fault → ∃ t u, Stops fault t u) ∧
    ∃ new, errors (x.after c s) = errors s ++ new ∧ ∀ e ∈ new, ∃ fault t u, e.TellsOf fault ∧ Stops fault t u := by
  obtain ⟨a, t, new, hlenient, -, hadds, hend⟩ := x.mirrors hs
  have hrun : x.act (c.mode c.settings.strict) s = (x.answer c s, x.after c s) := x.act_run
  cases hstrict : c.settings.strict with
  | false =>
    rw [hstrict, hlenient] at hrun
    obtain ⟨hanswer, hafter⟩ := Prod.mk.inj hrun
    rw [← hanswer, ← hafter]
    exact ⟨nofun, new, hadds.errors, hadds.tells⟩
  | true =>
    rw [hstrict] at hrun
    cases new with
    | nil =>
      obtain ⟨hanswer, hafter⟩ := Prod.mk.inj (hrun.symm.trans hend.1)
      rw [hanswer, hafter]
      exact ⟨nofun, [], hadds.errors, nofun⟩
    | cons e _ =>
      obtain ⟨fault, t', u, hfails, -, ⟨-, hstill⟩, hstops⟩ := hend
      obtain ⟨hanswer, hafter⟩ := Prod.mk.inj (hrun.symm.trans hfails)
      rw [hanswer, hafter]
      refine ⟨fun _ he => Except.error.inj he ▸ ⟨t', u, hstops⟩, [], ?_, nofun⟩
      rw [hstops.errors_eq, List.append_nil]
      exact congrArg Prod.fst hstill

end Solver

/-! ## A listener for clicks -/

/-- The activity listens to the clicks on a view that it finds in its layout. -/
def Example.withClick : Context :=
  let view : Local := ⟨"view", .ref "android.view.View"⟩
  let clicked : Local := ⟨"clicked", .ref "android.view.View"⟩
  let listener := classOf "android.view.View$OnClickListener" none true false []
  let onCreate := methodOf "onCreate" [.ref "android.os.Bundle"] ⟨.void, 0⟩ [
    .assign (.var this) .this,
    .call (callOn this "setContentView" [.int] ⟨.void, 0⟩ [.int 1]),
    .assign (.var view) (.call (callOn this "findViewById" [.int] view.ty [.int 5])),
    .call (callOn view "setOnClickListener" [.ref listener.name] ⟨.void, 0⟩ [.var this])]
  let onClick := methodOf "onClick" [clicked.ty] ⟨.void, 0⟩ [
    .assign (.var this) .this,
    .assign (.var clicked) (.parameter 0)]
  let main : Class :=
    ⟨"app.Main", some "android.app.Activity", [listener.name], false, false, true, [onCreate, onClick]⟩
  let app := application [onCreate, onClick] {
    layouts := byId [(1, templateOf (some "android.view.View") (some 5) [])]
    layoutIds := byId [(1, "main")]
    widgetIds := byId [(5, "save")] }
  { app with
    project.program.classes := app.project.program.classes.insertMany [(listener.name, listener), (main.name, main)]
    settings.listeners := [
      ⟨"android.view.View", .click, "void setOnClickListener(android.view.View$OnClickListener)", 0, listener.name,
        [⟨onClick.subSignature, some 0⟩]⟩] }

namespace Solver

open Flowgraph

/-! ## All registrations -/

/-- **Every registration of a listener is known**, in what the construction leaves behind and in every solver that
callers can come to, and no request fails with or logs a registration that is not known. -/
theorem registrations_known (c : Context) : (construct c {}).2.Enrolled c ∧
    ∀ f s, Available c f → Reached c f s → s.flowgraph.Enrolled c ∧ ∀ x : Request,
      (∀ op l, x.answer c s ≠ .error ⟨.unknownRegistration op, l⟩) ∧
      ∃ new, errors (x.after c s) = errors s ++ new ∧
        ∀ e ∈ new, ∀ op, e.text ≠ (Violation.unknownRegistration op).text := by
  refine ⟨construct_additions.enrolled enrolled_empty, fun f s hf hs => ⟨hs.enrolled hf, fun x => ?_⟩⟩
  obtain ⟨hfails, new, hnew, htells⟩ := x.reports (hf.poised.lasts (hs.lasts hf.poised))
  refine ⟨fun op l ha => ?_, new, hnew, fun e he op htext => ?_⟩
  · obtain ⟨t, u, hstops⟩ := hfails _ ha
    exact hstops.text_ne rfl
  · obtain ⟨fault, t, u, htold, hstops⟩ := htells e he
    exact hstops.text_ne (htold.1.symm.trans htext)

/-- The click on the view is dispatched by the only listener of the settings. -/
theorem click_registered : ∃ f s, Available Example.withClick f ∧ Reached Example.withClick f s ∧
    (8, 9, 2) ∈ s.flowgraph.listeners.dispatched ∧ 8 ∈ s.flowgraph.listeners.events ∧
    s.flowgraph.listeners.registrations[8]? = some 0 ∧
    ∀ op l, Request.pass.answer Example.withClick s ≠ .error ⟨.unknownRegistration op, l⟩ := by
  have heval : (analyze Example.withClick).toOption.any (fun s => (8, 9, 2) ∈ s.flowgraph.listeners.dispatched ∧
      (s.graph.op? 8).any (·.kind.tag = .setListener) ∧ 8 ∉ s.flowgraph.listeners.modelled) = true := by
    decide +kernel
  obtain ⟨s, hs, hk⟩ := exists_of_analyze heval
  obtain ⟨hdispatched, hop, hmodelled⟩ := of_decide_eq_true hk
  obtain ⟨o, ho, htag⟩ := (Option.any_eq_true _ _).mp hop
  obtain ⟨f, hf, hreached⟩ := reached_of_analyze hs
  obtain ⟨henrolled, hreports⟩ := (registrations_known Example.withClick).2 f s (.built hf) hreached
  have hregistration : s.flowgraph.IsRegistration 8 := ⟨o, ho, of_decide_eq_true htag⟩
  obtain ⟨i, hi, hlt⟩ := (henrolled.entered 8 hregistration).resolve_left hmodelled
  obtain rfl : i = 0 := Nat.lt_one_iff.mp hlt
  exact ⟨f, s, .built hf, hreached, hdispatched, henrolled.event 8 hregistration, hi, (hreports .pass).1⟩

end Solver

end WidgetFlow
