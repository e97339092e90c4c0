import WidgetFlow.Proofs.Typing
import WidgetFlow.Proofs.Visits

/-!
# What a dispatch lets flow

The events of a registration run methods of the listener. A dispatch lets the listener flow into the receiver of each
such method and the view into one of its parameters. It is made once for each view and listener, and tells whether there
is new flow. When a solver is done, all views and listeners that it has found have been dispatched.

A view flows into the parameter of a method if its class is a subtype of the declared class. The filter of solutions
lets more through (`Program.fits`): a view of a class that is not part of the program can be a receiver of a
registration, but it does not reach the methods that its events run.

* `dispatch_tells_of_flow`: what a dispatch does, in every flowgraph that is visited;
* `view_reaches_handler`: what has flown when a solver is done;
* `unknown_view_is_lost`: what has not.
-/

namespace WidgetFlow

open Std Relation

namespace Flowgraph

variable {c : Context} {f f' : Flowgraph} {op view listener : NodeId} {b : Bool}

namespace Dispatches

variable (h : Dispatches c op view listener f b f')
include h

theorem reports : Reports b f f' := by
  cases h with
  | skipped => exact .refl f
  | made _ _ _ hb => exact hb

theorem tells : b = true ↔ ∃ a ∈ f'.graph.flow, a ∉ f.graph.flow := by
  refine ⟨h.reports.new, fun hnew => ?_⟩
  obtain ⟨a, ha, hold⟩ := hnew
  cases b with
  | true => rfl
  | false =>
    rw [h.reports.same rfl] at ha
    exact absurd ha hold

theorem apart : f.graph.Apart f'.graph := by
  cases h with
  | skipped => exact .refl f.graph
  | made _ _ h => exact (h.apart.graph :)

theorem op? (n : NodeId) : f'.graph.op? n = f.graph.op? n := by
  cases h with
  | skipped => rfl
  | made _ _ h => exact (h.op? :)

theorem registrations : f'.listeners.registrations = f.listeners.registrations := by
  cases h with
  | skipped => rfl
  | made _ _ h => exact (h.registrations :)

theorem served (hall : f.AllServed c) (hm : op ∉ f.listeners.modelled) : f'.Served c op view listener := by
  cases h with
  | skipped h => exact hall op view listener (h.resolve_left hm)
  | made _ _ _ _ hserved => exact hserved

theorem modelled : f'.listeners.modelled = f.listeners.modelled := by
  cases h with
  | skipped => rfl
  | made _ _ h => exact (h.modelled :)

theorem dispatched {d : NodeId × NodeId × NodeId} (hd : d ∈ f.listeners.dispatched) : d ∈ f'.listeners.dispatched := by
  cases h with
  | skipped => exact hd
  | made _ _ h =>
    rw [h.dispatched]
    exact List.mem_append_left _ hd

end Dispatches

end Flowgraph

namespace Solver

open Flowgraph

variable {s t : Solver} {c : Context} {op view listener : NodeId}

/-! ## Dispatches are made once -/

/-- A dispatch that would be skipped is skipped after a turn. -/
theorem Intact.skips (hs : Intact c s) (h : Turn c s t)
    (hd : op ∈ s.flowgraph.listeners.modelled ∨ (op, view, listener) ∈ s.flowgraph.listeners.dispatched) :
    op ∈ t.flowgraph.listeners.modelled ∨ (op, view, listener) ∈ t.flowgraph.listeners.dispatched := by
  have hlasts : ∀ {t}, Lasts c s t →
      op ∈ t.flowgraph.listeners.modelled ∨ (op, view, listener) ∈ t.flowgraph.listeners.dispatched := by
    intro t h
    have hle := Run.le h.run
    rw [hle.modelled]
    exact hd.imp_right (hle.dispatched _)
  cases h with
  | request x => exact hlasts (x.lasts hs.poised)
  | part x => exact hlasts (x.lasts hs.poised)
  | restart => exact hd
  | dispatch ho hv hl =>
    obtain ⟨b, f, hrun, hdispatches⟩ := dispatch_run hs.inv.valid hs.enrolled ho hv hl
    rw [hrun, hdispatches.modelled]
    exact hd.imp_right hdispatches.dispatched

theorem Intact.dispatch_again (hs : Intact c s)
    (hd : op ∈ s.flowgraph.listeners.modelled ∨ (op, view, listener) ∈ s.flowgraph.listeners.dispatched)
    (h : Turns c s t) : Flowgraph.dispatch op view listener c t.flowgraph = (.ok false, t.flowgraph) := by
  have hkept : Intact c t ∧
      (op ∈ t.flowgraph.listeners.modelled ∨ (op, view, listener) ∈ t.flowgraph.listeners.dispatched) := by
    induction h with
    | refl => exact ⟨hs, hd⟩
    | tail _ h ih => exact ⟨ih.1.turn h, ih.1.skips h ih.2⟩
  exact dispatch_skip hkept.2

/-- **A dispatch tells exactly of its new flow.** In every flowgraph that is visited, for every registration of a
listener and any two nodes, it does not fail, and it tells whether there is a new edge of flow. Unless the registration
needs no dispatch or the view is a context menu, afterwards the listener flows into the receiver of each method that the
settings name and that the application has, and the view into the parameter of the method for it, if its class is a
subtype of the declared one. The same dispatch does nothing from then on. Containment, attributes and operations stay as
they are. -/
theorem dispatch_tells_of_flow (hs : Visited c s) (ho : s.flowgraph.IsRegistration op) (hv : view < s.graph.size)
    (hl : listener < s.graph.size) :
    ∃ b f, Flowgraph.dispatch op view listener c s.flowgraph = (.ok b, f) ∧
      (b = true ↔ ∃ a ∈ f.graph.flow, a ∉ s.graph.flow) ∧
      (op ∉ s.flowgraph.listeners.modelled → (s.graph.object? view).any (·.isContextMenu) = false →
        ∀ object, s.graph.object? listener = some object →
        ∃ i spec, s.flowgraph.listeners.registrations[op]? = some i ∧ c.settings.listeners[i]? = some spec ∧
          ∀ h ∈ spec.handlers, ∀ handler, c.project.program.callback? object.cls h.subSignature = some handler →
            (∀ this, handler.this? = some this → f.FlowsInto listener this) ∧
            ∀ parameter v bound, h.viewPosition.bind handler.param? = some parameter → s.graph.object? view = some v →
              parameter.ty.className? = some bound → c.project.program.isSubtype v.cls bound = true →
              f.FlowsInto view parameter) ∧
      (∀ t, Turns c { flowgraph := f } t →
        Flowgraph.dispatch op view listener c t.flowgraph = (.ok false, t.flowgraph)) ∧
      f.graph.containment = s.graph.containment ∧
      ∀ n, f.graph.attributes n = s.graph.attributes n ∧ f.graph.op? n = s.graph.op? n := by
  have hintact := hs.intact
  obtain ⟨b, f, hrun, hd⟩ := dispatch_run hintact.inv.valid hintact.enrolled ho hv hl
  refine ⟨b, f, hrun, hd.tells, fun hm hmenu object hobject => ?_,
    fun t => (hintact.dispatch ho hv hl hd).dispatch_again hd.entered, hd.apart.containment,
    fun n => ⟨hd.apart.attributes n, hd.op? n⟩⟩
  obtain ⟨i, hi, hlt⟩ := (hintact.enrolled.entered op ho).resolve_left hm
  refine ⟨i, c.settings.listeners[i], hi, List.getElem?_eq_getElem hlt, fun h hh handler hhandler => ?_⟩
  -- what is true of the flowgraph afterwards is read in the one before
  have hserved := hd.served hintact.served hm
  rw [Served, hd.registrations, hd.grows.object?_any_of_lt (fun _ _ _ _ => rfl) hv, hd.grows.classOf? hv,
    hd.grows.classOf? hl] at hserved
  have hclass : ∀ {n o}, s.graph.object? n = some o → s.graph.classOf? n = some o.cls := by
    intro n o hn
    rw [Graph.classOf?, hn]
    rfl
  have hhandles := hserved hmenu i _ hi (List.getElem?_eq_getElem hlt) h hh object.cls handler (hclass hobject) hhandler
  exact ⟨hhandles.this, fun parameter v bound hp hv' hb hsub =>
    hhandles.view parameter v.cls bound hp (hclass hv') hb hsub⟩

/-- The first dispatch of a click lets the view flow into the parameter of `onClick`, and a second one does nothing. -/
theorem click_tells_of_flow : ∃ s f, Visited Example.withClick s ∧
    Flowgraph.dispatch 8 9 2 Example.withClick s.flowgraph = (.ok true, f) ∧
    f.FlowsInto 9 ⟨"clicked", .ref "android.view.View"⟩ ∧
    Flowgraph.dispatch 8 9 2 Example.withClick f = (.ok false, f) := by
  have heval : (Flowgraph.build Example.withClick).toOption.any (fun f =>
      let s := Request.inflateAll.after Example.withClick (Request.classify.after Example.withClick { flowgraph := f })
      (s.graph.op? 8).any (·.kind.tag = .setListener) ∧ 8 ∉ s.flowgraph.listeners.modelled ∧
        s.flowgraph.listeners.registrations[8]? = some 0 ∧ s.graph.classOf? 2 = some "app.Main" ∧
        s.graph.classOf? 9 = some "android.view.View" ∧ (s.graph.object? 9).any (·.isContextMenu) = false ∧
        (Flowgraph.dispatch 8 9 2 Example.withClick s.flowgraph).1.toOption = some true) = true := by
    decide +kernel
  obtain ⟨f₀, hf₀, hk⟩ := exists_of_toOption heval
  obtain ⟨hop, hm, hregistered, hlistener, hview, hmenu, htrue⟩ := of_decide_eq_true hk
  have hs : Visited Example.withClick
      (Request.inflateAll.after Example.withClick (Request.classify.after Example.withClick { flowgraph := f₀ })) :=
    ⟨f₀, hf₀, .tail (.single (.request .classify)) (.request .inflateAll)⟩
  obtain ⟨o, ho, htag⟩ := (Option.any_eq_true _ _).mp hop
  obtain ⟨activity, hactivity, hcls⟩ := Option.map_eq_some_iff.mp hlistener
  obtain ⟨v, hv, hvcls⟩ := Option.map_eq_some_iff.mp hview
  obtain ⟨b, f, hrun, -, hserved, hagain, -⟩ := dispatch_tells_of_flow hs ⟨o, ho, of_decide_eq_true htag⟩
    (Graph.object?_lt hv) (Graph.object?_lt hactivity)
  rw [hrun] at htrue
  obtain rfl : b = true := Option.some.inj htrue
  obtain ⟨i, spec, hi, hspec, hhandlers⟩ := hserved hm hmenu activity hactivity
  obtain rfl : 0 = i := Option.some.inj (hregistered.symm.trans hi)
  obtain rfl := Option.some.inj hspec
  have hhandler : (Example.withClick.project.program.callback? activity.cls "void onClick(android.view.View)").any
      (fun m => m.param? 0 = some ⟨"clicked", .ref "android.view.View"⟩) = true := by
    rw [hcls]
    decide +kernel
  obtain ⟨handler, hcallback, hparameter⟩ := (Option.any_eq_true _ _).mp hhandler
  have hflows := (hhandlers _ List.mem_cons_self handler hcallback).2 _ v _ (of_decide_eq_true hparameter) hv rfl
    (by rw [hvcls]; exact Program.isSubtype_iff.mpr .refl)
  exact ⟨_, f, hs, hrun, hflows, hagain _ .refl⟩

/-! ## When a solver is done -/

/-- What a successful `solve` leaves behind. -/
theorem Intact.solved (hs : Intact c s) (h : solve c s = (.ok (), t)) : Solved (c.mode false) t ∧ Intact c t := by
  have hlenient : solve (c.mode false) s = (.ok (), t) := (solve_mirrors hs.poised).lenient (c.mode_strict ▸ h)
  exact ⟨((solve_tries hs.inv hs.settled).ok hlenient).2, hs.lasts ((solve_mirrors hs.poised).moves hlenient)⟩

/-- The settings name a method for the events of a registration, and `parameter` is for the view in the method of the
listener. -/
def Runs (c : Context) (s : Solver) (op listener : NodeId) (parameter : Local) : Prop :=
  ∃ i spec cls handler, s.flowgraph.listeners.registrations[op]? = some i ∧ c.settings.listeners[i]? = some spec ∧
    s.graph.classOf? listener = some cls ∧
    ∃ h ∈ spec.handlers, c.project.program.callback? cls h.subSignature = some handler ∧
      h.viewPosition.bind handler.param? = some parameter

/-- **Views reach the methods that their events run.** A solver is done. For a registration that needs a dispatch, a
view that is a receiver and no context menu, and a listener, the view flows into the parameter for it of each method
that the settings name, if its class is a subtype of the declared one. So it does if it fits the declared type, which is
no array type and not the type of all objects, and both classes are part of the program. -/
theorem view_reaches_handler {viewClass bound : String} {parameter : Local} (hs : Visited c s)
    (hsolve : solve c s = (.ok (), t)) (hm : op ∉ t.flowgraph.listeners.modelled) (hv : view ∈ t.receivers op)
    (hl : listener ∈ t.listenersOf op) (hmenu : (t.graph.object? view).any (·.isContextMenu) = false)
    (hclass : t.graph.classOf? view = some viewClass) (hruns : t.Runs c op listener parameter)
    (hbound : parameter.ty = .ref bound) :
    (c.project.program.isSubtype viewClass bound = true → t.flowgraph.FlowsInto view parameter) ∧
    (c.project.program.fits (some parameter.ty) viewClass = true → bound ≠ Framework.object →
      (c.project.program.class? bound).isSome = true → (c.project.program.class? viewClass).isSome = true →
      t.flowgraph.FlowsInto view parameter) := by
  obtain ⟨hsolved, hintact⟩ := hs.intact.solved hsolve
  have hserved := hintact.served op view listener ((hsolved.dispatched op view hv listener hl).resolve_left hm)
  obtain ⟨i, spec, cls, handler, hi, hspec, hcls, d, hd, hcallback, hparameter⟩ := hruns
  have hhandles := hserved hmenu i spec hi hspec d hd cls handler hcls hcallback
  have hflows : c.project.program.isSubtype viewClass bound = true → t.flowgraph.FlowsInto view parameter :=
    hhandles.view parameter viewClass bound hparameter hclass (by rw [hbound]; rfl)
  refine ⟨hflows, fun hfits hobject hknown hknown' => hflows ?_⟩
  rw [hbound, Program.fits_ref_iff] at hfits
  rcases hfits with h | h | h | h
  · exact absurd h hobject
  · rw [h] at hknown
    cases hknown
  · rw [h] at hknown'
    cases hknown'
  · exact Program.isSubtype_iff.mpr h

end Solver

/-! ## A view from elsewhere -/

/-- The view that the activity finds is of a class that is not part of the program. -/
def Example.withFancyView : Context :=
  { Example.withClick with project.resources.layouts := byId [(1, templateOf (some "lib.Fancy") (some 5) [])] }

namespace Solver

open Flowgraph

/-- What can be evaluated of a click on a view. -/
theorem exists_click (c : Context) (viewClass : String) (flows : Bool)
    (heval : (analyze c).toOption.any (fun t => 8 ∉ t.flowgraph.listeners.modelled ∧ 9 ∈ t.receivers 8 ∧
      2 ∈ t.listenersOf 8 ∧ (t.graph.object? 9).any (·.isContextMenu) = false ∧ t.graph.classOf? 9 = some viewClass ∧
      t.flowgraph.listeners.registrations[8]? = some 0 ∧ t.graph.classOf? 2 = some "app.Main" ∧
      (t.flowgraph.var? ⟨"clicked", .ref "android.view.View"⟩).any (Arc.mk 9 · ∈ t.graph.flow) = flows) = true)
    (hhandlers : (c.settings.listeners[0]?).any (fun spec => spec.handlers.any fun h =>
      (c.project.program.callback? "app.Main" h.subSignature).any fun m =>
        h.viewPosition.bind m.param? = some ⟨"clicked", .ref "android.view.View"⟩) = true) :
    ∃ t, analyze c = .ok t ∧ 8 ∉ t.flowgraph.listeners.modelled ∧ 9 ∈ t.receivers 8 ∧ 2 ∈ t.listenersOf 8 ∧
      (t.graph.object? 9).any (·.isContextMenu) = false ∧ t.graph.classOf? 9 = some viewClass ∧
      t.Runs c 8 2 ⟨"clicked", .ref "android.view.View"⟩ ∧
      (t.flowgraph.FlowsInto 9 ⟨"clicked", .ref "android.view.View"⟩ ↔ flows = true) := by
  obtain ⟨t, ht, hk⟩ := exists_of_analyze heval
  obtain ⟨hm, hv, hl, hmenu, hclass, hi, hcls, hflows⟩ := of_decide_eq_true hk
  obtain ⟨spec, hspec, hany⟩ := (Option.any_eq_true _ _).mp hhandlers
  obtain ⟨h, hh, hany⟩ := List.any_eq_true.mp hany
  obtain ⟨handler, hcallback, hparameter⟩ := (Option.any_eq_true _ _).mp hany
  refine ⟨t, ht, hm, hv, hl, hmenu, hclass,
    ⟨0, spec, "app.Main", handler, hi, hspec, hcls, h, hh, hcallback, of_decide_eq_true hparameter⟩, ?_⟩
  rw [← hflows, Option.any_eq_true]
  exact exists_congr fun n => and_congr_right fun _ => decide_eq_true_iff.symm

/-- The view is of a class that is declared. -/
theorem view_reaches_onClick : ∃ t, analyze Example.withClick = .ok t ∧ 9 ∈ t.receivers 8 ∧ 2 ∈ t.listenersOf 8 ∧
    t.flowgraph.FlowsInto 9 ⟨"clicked", .ref "android.view.View"⟩ := by
  obtain ⟨t, ht, hm, hv, hl, hmenu, hclass, hruns, -⟩ :=
    exists_click Example.withClick "android.view.View" true (by decide +kernel) (by decide +kernel)
  obtain ⟨f, hf, hsolve⟩ := analyze_eq_ok.mp ht
  have hs : Visited Example.withClick { flowgraph := f } := ⟨f, hf, .refl⟩
  have hflows := (view_reaches_handler hs hsolve hm hv hl hmenu hclass hruns rfl).1
    (Program.isSubtype_iff.mpr .refl)
  exact ⟨t, ht, hv, hl, hflows⟩

/-- **A view that fits can be lost.** It is a receiver of the registration, and its class is not part of the program. -/
theorem unknown_view_is_lost : ¬∀ c t op view listener viewClass parameter, analyze c = .ok t →
    op ∉ t.flowgraph.listeners.modelled → view ∈ t.receivers op → listener ∈ t.listenersOf op →
    (t.graph.object? view).any (·.isContextMenu) = false → t.graph.classOf? view = some viewClass →
    t.Runs c op listener parameter → c.project.program.fits (some parameter.ty) viewClass = true →
    t.flowgraph.FlowsInto view parameter := by
  obtain ⟨t, ht, hm, hv, hl, hmenu, hclass, hruns, hflows⟩ :=
    exists_click Example.withFancyView "lib.Fancy" false (by decide +kernel) (by decide +kernel)
  intro hall
  have hflow := hall _ t 8 9 2 _ _ ht hm hv hl hmenu hclass hruns (by decide +kernel)
  exact Bool.false_ne_true (hflows.mp hflow)

end Solver

end WidgetFlow
