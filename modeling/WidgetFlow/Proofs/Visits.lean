import WidgetFlow.Proofs.Registration

/-!
# Solvers in the middle of their work

`Solver.Reached` is about solvers between requests. A request consists of parts, and the rules for operations are
applied in between: a `Turn` is a request, a part of a pass, a new solver on the same flowgraph, or a dispatch that
someone else asks of the flowgraph. The solvers that turns lead to are `Visited`, whatever has failed on the way.

* `Flowgraph.AllServed`: what was dispatched has flown;
* `Step.served`: a step that dispatches serves, and no step undoes it;
* `Visited.intact`: what holds of every solver that is visited.
-/

namespace WidgetFlow

open Std Relation

/-! ## Dispatches that were made -/

namespace Flowgraph

variable {c : Context} {f f' : Flowgraph} {U : NodeKind → Prop} {op view listener : NodeId}

/-- Everything that was dispatched is served. -/
def AllServed (c : Context) (f : Flowgraph) : Prop :=
  ∀ op view listener, (op, view, listener) ∈ f.listeners.dispatched → f.Served c op view listener

/-- A flowgraph that grows serves what was served, and what is dispatched now has to be served. -/
theorem AllServed.mono (h : f.AllServed c) (hf : f.Valid) (hg : f.graph.Grows f'.graph)
    (hr : f'.listeners.registrations = f.listeners.registrations)
    (hd : ∀ op view listener, (op, view, listener) ∈ f'.listeners.dispatched →
      (op, view, listener) ∈ f.listeners.dispatched ∨ f'.Served c op view listener) : f'.AllServed c := by
  intro op view listener hin
  rcases hd op view listener hin with hold | hnew
  · obtain ⟨-, hv, hl⟩ := hf.filed.listeners.dispatched op view listener hold
    exact (h op view listener hold).mono hg hr hv hl
  · exact hnew

theorem Addition.dispatched (h : Addition c f f') : f'.listeners.dispatched = f.listeners.dispatched := by
  cases h with
  | edit h => exact h.dispatched
  | registration _ _ hl => exact hl.dispatched
  | entry h => rw [h.listeners]
  | object | op | modify | dialog | deferred => rfl

/-- The construction dispatches nothing. -/
theorem dispatched_construct : (construct c {}).2.listeners.dispatched = [] := by
  have hkeeps : ∀ {f f'}, Additions c f f' → f'.listeners.dispatched = f.listeners.dispatched := by
    intro f f' h
    induction h with
    | refl => rfl
    | tail _ h ih => exact h.dispatched.trans ih
  exact hkeeps construct_additions

theorem Enrolled.toRegistered (h : f.Enrolled c) : f.Registered := fun op o ho ht =>
  (h.entered op ⟨o, ho, ht⟩).imp_right fun hi => by rw [hi.choose_spec.1]; rfl

/-- What is left by a dispatch of a registration that is known. It never fails. -/
inductive Dispatches (c : Context) (op view listener : NodeId) (f : Flowgraph) : Bool → Flowgraph → Prop
  | skipped (h : op ∈ f.listeners.modelled ∨ (op, view, listener) ∈ f.listeners.dispatched) :
      Dispatches c op view listener f false f
  | made {b : Bool} {f' : Flowgraph} (hm : op ∉ f.listeners.modelled)
      (hd : (op, view, listener) ∉ f.listeners.dispatched) (h : Edits c.Interns (f.mark op view listener) f')
      (hb : Reports b f f') (hserved : f'.Served c op view listener) : Dispatches c op view listener f b f'

theorem dispatch_run (hf : f.Valid) (he : f.Enrolled c) (ho : f.IsRegistration op) (hv : view < f.graph.size)
    (hl : listener < f.graph.size) :
    ∃ b f', dispatch op view listener c f = (.ok b, f') ∧ Dispatches c op view listener f b f' := by
  by_cases hskip : op ∈ f.listeners.modelled ∨ (op, view, listener) ∈ f.listeners.dispatched
  · exact ⟨false, f, dispatch_skip hskip, .skipped hskip⟩
  · obtain ⟨hm, hd⟩ := not_or.mp hskip
    have htries := dispatch_tries (c := c) Context.allFormals hf ho.lt hv hl hm hd
    rcases hrun : dispatch op view listener c f with ⟨e | b, f'⟩
    · obtain ⟨-, -, -, -, hnone⟩ := htries.error hrun
      obtain ⟨i, hi, -⟩ := (he.entered op ho).resolve_left hm
      rw [hnone] at hi
      cases hi
    · obtain ⟨hedits, hb, hserved⟩ := htries.ok hrun
      exact ⟨b, f', rfl, .made hm hd hedits hb hserved⟩

namespace Dispatches

variable {b : Bool} (h : Dispatches c op view listener f b f')
include h

theorem grows : f.graph.Grows f'.graph := by
  cases h with
  | skipped => exact .refl _
  | made _ _ h => exact (h.grows :)

theorem sound (hf : f.Sound) (hop : op < f.graph.size) (hv : view < f.graph.size) (hl : listener < f.graph.size) :
    f'.Sound := by
  cases h with
  | skipped => exact hf
  | made _ _ h => exact (hf.mark hop hv hl).edits h

theorem enrolled (hf : f.Enrolled c) : f'.Enrolled c := by
  cases h with
  | skipped => exact hf
  | made _ _ h =>
    have hmark : (f.mark op view listener).Enrolled c := hf.of_same ⟨rfl, rfl, rfl, rfl⟩ fun _ hn => hn
    exact hmark.of_same h.register fun _ => isRegistration_of_op? fun _ => h.op?

theorem allServed (hf : f.AllServed c) (hvalid : f.Valid) : f'.AllServed c := by
  cases h with
  | skipped => exact hf
  | made _ _ h _ hserved =>
    refine hf.mono hvalid h.grows h.registrations fun op' view' listener' hin => ?_
    rw [h.dispatched] at hin
    rcases List.mem_append.mp hin with hin | hin
    · exact .inl hin
    · cases List.mem_singleton.mp hin
      exact .inr hserved

/-- A dispatch is skipped from now on. -/
theorem entered : op ∈ f'.listeners.modelled ∨ (op, view, listener) ∈ f'.listeners.dispatched := by
  cases h with
  | skipped h => exact h
  | made _ _ h =>
    rw [h.dispatched]
    exact .inr (List.mem_append_right _ (List.mem_singleton.mpr rfl))

end Dispatches

end Flowgraph

/-! ## Steps -/

namespace Solver

open Flowgraph

variable {s t : Solver} {c : Context} {f : Flowgraph} {p : Phase} {op view listener : NodeId}

theorem dispatched_of_inflates (h : ReflTransGen (Inflates c) s t) :
    t.flowgraph.listeners.dispatched = s.flowgraph.listeners.dispatched := by
  induction h with
  | refl => rfl
  | tail _ h ih =>
    rw [← ih]
    cases h with
    | note | nest => rfl
    | widget _ h₁ _ h₂ => exact h₂.dispatched.trans h₁.dispatched

/-- **What a step dispatches, it serves.** -/
theorem Step.served (h : Step c p s t) (hd : (op, view, listener) ∈ t.flowgraph.listeners.dispatched) :
    (op, view, listener) ∈ s.flowgraph.listeners.dispatched ∨ t.flowgraph.Served c op view listener := by
  cases h with
  | note | settle | id | candidate | downstream | seed | propagate | find | root | nest | bindId | texts | drawables =>
    exact .inl hd
  | dispatch _ _ _ _ h hserved =>
    rw [h.dispatched] at hd
    rcases List.mem_append.mp hd with hd | hd
    · exact .inl hd
    · cases List.mem_singleton.mp hd
      exact .inr hserved
  | layout _ _ hin =>
    rw [finish_eq] at hd
    exact .inl (dispatched_of_inflates hin ▸ hd)
  | menu _ _ hin => exact .inl (dispatched_of_inflates hin ▸ hd)
  | reuse =>
    rw [flowgraph_deliver] at hd
    exact .inl hd

theorem Step.allServed (hs : Inv c s) (h : Step c p s t) (hall : s.flowgraph.AllServed c) :
    t.flowgraph.AllServed c :=
  hall.mono hs.valid h.le.graph h.registrations fun _ _ _ => h.served

theorem Run.allServed (hs : Inv c s) (h : Run c s t) (hall : s.flowgraph.AllServed c) : t.flowgraph.AllServed c := by
  induction h with
  | refl => exact hall
  | tail h hlast ih => exact hlast.choose_spec.allServed (Run.inv hs h) ih

theorem Run.enrolled {c' : Context} (h : Run c s t) (hs : s.flowgraph.Enrolled c') : t.flowgraph.Enrolled c' := by
  induction h with
  | refl => exact hs
  | tail _ hlast ih =>
    obtain ⟨p, hstep⟩ := hlast
    exact ih.of_same hstep.register fun _ => isRegistration_of_op? hstep.le.op?

/-! ## Turns -/

/-- The parts of a pass that are no requests. -/
inductive Part where
  | count | propagate
  | resolve (op : NodeId)
  | dispatch (op : NodeId)

/-- What a solver does in a part of a pass. -/
def Part.act : Part → Solve Unit
  | .count => updateStatistics fun t => { t with passes := t.passes + 1 }
  | .propagate => discard (liftM Solver.propagate)
  | .resolve op => discard (Solver.resolve op)
  | .dispatch op => discard (resolveSetListener op)

/-- The solver after a part of a pass, whether it fails or not. -/
def Part.after (c : Context) (s : Solver) (x : Part) : Solver := (x.act c s).2

/-- What can happen to a solver, or to its flowgraph when it is given to a new one. -/
inductive Turn (c : Context) : Solver → Solver → Prop
  | request {s : Solver} (x : Request) : Turn c s (x.after c s)
  | part {s : Solver} (x : Part) : Turn c s (x.after c s)
  | restart {s : Solver} : Turn c s { flowgraph := s.flowgraph }
  | dispatch {s : Solver} {op view listener : NodeId} (ho : s.flowgraph.IsRegistration op) (hv : view < s.graph.size)
      (hl : listener < s.graph.size) :
      Turn c s { flowgraph := (Flowgraph.dispatch op view listener c s.flowgraph).2 }

/-- One turn after the other. -/
abbrev Turns (c : Context) : Solver → Solver → Prop := ReflTransGen (Turn c)

/-- The solvers that work on a flowgraph that was built. -/
def Visited (c : Context) (s : Solver) : Prop := ∃ f, Flowgraph.build c = .ok f ∧ Turns c { flowgraph := f } s

theorem Part.mirrors (hs : Poised c s) (x : Part) : Mirrors (Lasts c) Stops c s x.act := by
  cases x with
  | count =>
    have hcount : Quiet (Steps (c.mode false) .resolve) c s
        (updateStatistics fun t => { t with passes := t.passes + 1 }) :=
      quiet_of_does updateStatistics_calm (updateStatistics_does fun _ => rfl)
    exact .lift (hcount.mono fun _ => lasts_resolve)
  | propagate => exact .discard (.lift ((propagate_quiet hs.inv).mono fun _ => lasts_resolve))
  | resolve op => exact .discard ((resolve_mirrors hs.inv).mono fun _ => lasts_resolve)
  | dispatch op => exact .discard ((resolveSetListener_mirrors hs.inv hs.registered).mono fun _ => lasts_dispatch)

theorem Part.lasts (hs : Poised c s) (x : Part) : Lasts c s (x.after c s) := by
  have hleaves : Lasts c s (x.act (c.mode c.settings.strict) s).2 :=
    (x.mirrors hs).leaves fun _ _ _ ht hu => trans_of (Lasts c) ht (lasts_stops (Run.inv hs.inv ht.run) hu)
  rw [c.mode_strict] at hleaves
  exact hleaves

/-! ## What holds after every turn -/

/-- The invariant of solvers, with no flow that waits to be classified, and with registrations that are known and
dispatches that are served. -/
structure Intact (c : Context) (s : Solver) : Prop where
  inv : Inv (c.mode false) s
  settled : s.pending = false
  enrolled : s.flowgraph.Enrolled c
  served : s.flowgraph.AllServed c

theorem intact_of_build (h : Flowgraph.build c = .ok f) : Intact c { flowgraph := f } where
  inv := inv_init (sound_of_build h)
  settled := rfl
  enrolled := Reached.enrolled (.built h) .start
  served op view listener hd := by
    have hnone := dispatched_construct (c := c)
    rw [construct_of_build h] at hnone
    rw [hnone] at hd
    cases hd

namespace Intact

variable (hs : Intact c s)
include hs

theorem poised : Poised c s := ⟨hs.inv, hs.enrolled.toRegistered⟩

theorem lasts (h : Lasts c s t) : Intact c t where
  inv := Run.inv hs.inv h.run
  settled := h.settled hs.settled
  enrolled := Run.enrolled h.run hs.enrolled
  served := Run.allServed (c := c.mode false) hs.inv h.run hs.served

theorem restart : Intact c { flowgraph := s.flowgraph } := ⟨inv_init hs.inv.sound, rfl, hs.enrolled, hs.served⟩

theorem dispatch {b : Bool} {f : Flowgraph} (ho : s.flowgraph.IsRegistration op) (hv : view < s.graph.size)
    (hl : listener < s.graph.size) (h : Dispatches c op view listener s.flowgraph b f) : Intact c { flowgraph := f } :=
  ⟨inv_init (h.sound hs.inv.sound ho.lt hv hl), rfl, h.enrolled hs.enrolled, h.allServed hs.served hs.inv.valid⟩

theorem turn (h : Turn c s t) : Intact c t := by
  cases h with
  | request x => exact hs.lasts (x.lasts hs.poised)
  | part x => exact hs.lasts (x.lasts hs.poised)
  | restart => exact hs.restart
  | dispatch ho hv hl =>
    obtain ⟨b, f, hrun, hd⟩ := dispatch_run hs.inv.valid hs.enrolled ho hv hl
    rw [hrun]
    exact hs.dispatch ho hv hl hd

theorem turns (h : Turns c s t) : Intact c t := by
  induction h with
  | refl => exact hs
  | tail _ h ih => exact ih.turn h

end Intact

/-- **Every solver that is visited is intact.** -/
theorem Visited.intact (hs : Visited c s) : Intact c s := by
  obtain ⟨f, hf, hturns⟩ := hs
  exact (intact_of_build hf).turns hturns

end Solver

end WidgetFlow
