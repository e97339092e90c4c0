import WidgetFlow.Proofs.Construction
import WidgetFlow.Proofs.Inflating

/-!
# Solving reaches a solution

Between passes everything is classified and every layout is inflated (`Solver.Steady`). A pass that changes nothing
leaves nothing to do (`Solver.Solved`), and a pass that changes something finds a new fact. As only so many facts are
lacking, `solve` never runs out of passes.

* `upTo_tries`: rounds end for the right reason, if each but the last finds a new fact;
* `solve_tries`: a solver that does not fail is solved, and one that fails is strict and had a reason;
* `solved_of_analyze`: so an analysis gives a solved solver.
-/

namespace WidgetFlow

open Std Relation Flowgraph

namespace Solver

variable {s t u : Solver} {c : Context} {op n m l w v r : NodeId} {x : Operand} {slot : Slot} {p : Phase}

/-! ## Between passes -/

/-- What holds between passes. -/
structure Steady (c : Context) (s : Solver) : Prop where
  inv : Inv c s
  classified : Classified c s
  layouts : s.LayoutsDone
  settled : s.pending = false

/-- **A solver that has nothing left to do.** -/
structure Solved (c : Context) (s : Solver) : Prop where
  inv : Inv c s
  classified : Classified c s
  inflated : s.Inflated
  propagated : Propagated c s
  resolved : ∀ tag ∈ resolutionOrder, AllResolved c s tag
  dispatched : s.Dispatched

theorem Le.keepsFlow (h : s.Le t) (hflow : ∀ a ∈ t.graph.flow, a ∈ s.graph.flow) : s.graph.KeepsFlow t.graph :=
  ⟨h.graph, hflow, fun n _ ho => (h.op? n).symm.trans ho⟩

theorem Classified.of_same (h : Classified c s) (hs : Inv c s) (hst : s.Same t) (hle : s.Le t) : Classified c t :=
  h.of_keepsFlow hs hle (hle.keepsFlow fun _ ha => hst.graph ▸ ha) hst.candidates

theorem Solved.of_same (h : Solved c s) (hr : Run c s t) (hst : s.Same t) : Solved c t :=
  have hle := Run.le hr
  ⟨Run.inv h.inv hr, h.classified.of_same h.inv hst hle, h.inflated.of_same hst hle, h.propagated.congr hst,
    fun tag ht => (h.resolved tag ht).congr hst hle, h.dispatched.of_same hst hle⟩

theorem Steps.flow_resolve (h : Steps c .resolve s t) : t.graph.flow = s.graph.flow ∧ t.pending = s.pending := by
  induction h with
  | refl => exact ⟨rfl, rfl⟩
  | tail _ h ih =>
    cases h with
    | note | propagate | find | root | bindId | texts | drawables => exact ih
    | nest _ _ _ _ h => exact ⟨(Graph.flow_nest h).trans ih.1, ih.2⟩

theorem Steps.pending_dispatch (h : Steps c .dispatch s t) : t.pending = s.pending := by
  induction h with
  | refl => rfl
  | tail _ h ih => cases h <;> exact ih

theorem Steps.settled_classify (h : Steps c .classify s t) (hs : s.pending = false) : t.pending = false := by
  induction h with
  | refl => exact hs
  | tail _ h ih =>
    cases h with
    | settle => rfl
    | note | id | candidate | downstream | seed => exact ih

/-- Steps that bring no flow and classify nothing keep the solver steady. -/
theorem Steady.steps (h : Steady c s) (hst : Steps c p s t) (hp : p ≠ .classify)
    (hflow : ∀ a ∈ t.graph.flow, a ∈ s.graph.flow) (hpend : t.pending = false) : Steady c t :=
  have hle := Steps.le hst
  ⟨Steps.inv h.inv hst, h.classified.of_keepsFlow h.inv hle (hle.keepsFlow hflow) (Steps.registries hst hp).2.1,
    h.layouts.steps h.inv hst hp, hpend⟩

theorem Steady.resolve (h : Steady c s) (hst : Steps c .resolve s t) : Steady c t := by
  obtain ⟨hflow, hpend⟩ := Steps.flow_resolve hst
  exact h.steps hst nofun (fun a ha => hflow ▸ ha) (hpend.trans h.settled)

theorem reporting_run : Reporting (Run c) Reports := reporting fun _ _ h => Run.le h

/-- The steps of one phase as a part of a run. -/
theorem run_of_does {α : Type} {x : Refine α} {Q : α → Solver → Prop} (h : Does (Steps c p) c s x Q) :
    Does (Run c) c s x fun a t => Steps c p s t ∧ Q a t :=
  h.mono (fun _ => Steps.run) fun _ _ h hq => ⟨h, hq⟩

theorem run_of_tries {α : Type} {x : Solve α} {Q : α → Solver → Prop} (h : Tries (Steps c p) (Fails c) c s x Q) :
    Tries (Run c) (Fails c) c s x fun a t => Steps c p s t ∧ Q a t :=
  h.mono (fun _ => Steps.run) (fun _ _ h => h) fun _ _ h hq => ⟨h, hq⟩

/-! ## Rounds -/

/-- **Rounds end.** If each round but the last finds a new fact, there is a last one before the bound is reached. -/
theorem upTo_tries {round : Solve Bool} {I Q : Solver → Prop} {k N : Nat}
    (hround : ∀ s, I s → Tries (Run c) (Fails c) c s round fun b t =>
      (b = true → I t ∧ s.Gains t) ∧ (b = false → Q t))
    (hs : I s) (hroom : s.flowgraph.room c ≤ N) (hk : s.lacking N < k) :
    Tries (Run c) (Fails c) c s (upTo round k) fun b t => b = true ∧ Q t := by
  induction k generalizing s with
  | zero => exact absurd hk (Nat.not_lt_zero _)
  | succ k ih =>
    rw [upTo.eq_2]
    refine .bind (hround s hs) fun b t hst ⟨hgoes, hends⟩ => ?_
    cases b with
    | false => exact .pure ⟨rfl, hends rfl⟩
    | true =>
      obtain ⟨ht, hgains⟩ := hgoes rfl
      have hroom' := (Run.room_le hst).trans hroom
      have := lacking_lt (Run.le hst) hgains (size_le_room.trans hroom')
      exact ih ht hroom' (by omega)

/-! ## The inner loop -/

/-- A round that brings flow finds a new widget. -/
theorem inflateRound_tries (hs : Inv c s) (hc : Classified c s) (hp : s.pending = false) :
    Tries (Run c) (Fails c) c s inflateRound fun b t =>
      (b = true → Inv c t ∧ Classified c t ∧ t.pending = false ∧ s.statistics.inflated < t.statistics.inflated) ∧
      (b = false → Steady c t ∧ t.Inflated ∧
        (s.LayoutsDone → t.statistics.inflated = s.statistics.inflated → s.Same t)) := by
  unfold inflateRound
  refine .bind (inflate_tries hs) fun b t hst ⟨hinf, t', hst', hb, ht⟩ => ?_
  have ht' : t'.Same t := ht ▸ .settle t'
  have hle' : t'.Le t := ht ▸ Step.le (c := c) .settle
  have hpend : t.pending = false := by rw [ht]
  cases b with
  | true =>
    refine .bind (run_of_tries classify_tries) fun _ u htu ⟨hcl, hcu⟩ => .pure ⟨fun _ => ?_, nofun⟩
    refine ⟨Run.inv hs (hst.trans htu), hcu, Steps.settled_classify hcl hpend, ?_⟩
    exact Nat.lt_of_lt_of_le (Steps.inflated_lt hst' hp hb.symm) (hle'.trans (Run.le htu)).inflated
  | false =>
    obtain ⟨_, hflow⟩ := Steps.flow_inflate hst' hb.symm
    have hsteady : Steady c t := by
      refine ⟨Run.inv hs hst, Classified.of_same ?_ (Steps.inv hs hst') ht' hle', hinf.layouts, hpend⟩
      exact hc.of_keepsFlow hs (Steps.le hst') ((Steps.le hst').keepsFlow hflow) (Steps.registries hst' nofun).2.1
    refine .pure ⟨nofun, fun _ => ⟨hsteady, hinf, fun hd he => ?_⟩⟩
    have he : t'.statistics.inflated = s.statistics.inflated := by rw [← he, ht]
    exact (Steps.same_inflate hs hd hst' he).trans ht'

/-- Inflating and classifying ends once there is no new flow. -/
theorem inflateRounds_tries {k N : Nat} (hs : Inv c s) (hc : Classified c s) (hp : s.pending = false)
    (hroom : s.flowgraph.room c ≤ N) (hk : s.lacking N < k) :
    Tries (Run c) (Fails c) c s (upTo inflateRound k) fun b t => b = true ∧ Steady c t ∧ t.Inflated ∧
      (s.LayoutsDone → t.statistics.inflated = s.statistics.inflated → s.Same t) := by
  refine upTo_tries (I := fun t => (Inv c t ∧ Classified c t ∧ t.pending = false) ∧
    (t = s ∨ s.statistics.inflated < t.statistics.inflated)) (fun t ⟨⟨ht, hct, hpt⟩, hlater⟩ => ?_)
    ⟨⟨hs, hc, hp⟩, .inl rfl⟩ hroom hk
  refine (inflateRound_tries ht hct hpt).imp fun b u htu ⟨hgoes, hends⟩ => ⟨fun hb => ?_, fun hb => ?_⟩
  · obtain ⟨hu, hcu, hpu, hlt⟩ := hgoes hb
    refine ⟨⟨⟨hu, hcu, hpu⟩, .inr ?_⟩, (Run.le htu).gains hlt⟩
    rcases hlater with rfl | hlater
    · exact hlt
    · exact hlater.trans hlt
  · obtain ⟨hsteady, hinf, hsame⟩ := hends hb
    refine ⟨hsteady, hinf, fun hd he => ?_⟩
    rcases hlater with rfl | hlater
    · exact hsame hd he
    · have := (Run.le htu).inflated
      omega

theorem inflateAll_tries (hs : Inv c s) (hc : Classified c s) (hp : s.pending = false) :
    Tries (Run c) (Fails c) c s inflateAll fun b t => Steady c t ∧ t.Inflated ∧ (b = true → s.Gains t) ∧
      (b = false → s.LayoutsDone → s.Same t) := by
  unfold inflateAll
  refine .read rfl (.read rfl ?_)
  refine .bind (inflateRounds_tries hs hc hp (Nat.le_refl _) lacking_lt_bound).discard
    fun _ t hst ⟨_, _, hsteady, hinf, hsame⟩ => .read rfl (.pure ⟨hsteady, hinf, fun hb => ?_, fun hb hd => ?_⟩)
  · exact (Run.le hst).gains (of_decide_eq_true hb)
  · have := of_decide_eq_false hb
    have := (Run.le hst).inflated
    exact hsame hd (by omega)

/-! ## Passes -/

theorem resolveSweep_tries (hs : Inv c s) :
    Tries (Steps c .resolve) (Fails c) c s (sweep resolveAll resolutionOrder) fun b t => Reports b s t ∧
      (b = false → ∀ tag ∈ resolutionOrder, AllResolved c t tag) :=
  .sweep reporting_steps (fun _ _ _ h' hsame h => h.congr (hsame.same rfl) (Steps.le h')) fun _ _ _ h =>
    (resolveAll_tries (Steps.inv hs h)).imp fun _ _ _ hb => ⟨hb.1, fun hf => (hb.2 hf).2⟩

/-- The registrations, and then the results. -/
theorem dispatchAll_tries (hs : Inv c s) : Tries (Run c) (Fails c) c s dispatchAll fun b t => ∃ t',
    (Steps c .dispatch s t' ∧ Reports b.1 s t' ∧ (b.1 = false → t'.Dispatched)) ∧
    Steps c .resolve t' t ∧ Reports b.2 t' t ∧ (b.2 = false → Propagated c t) := by
  unfold dispatchAll
  refine .read rfl ?_
  refine .bind (run_of_tries (Tries.sweep reporting_steps (C := fun op t => ∀ view ∈ t.receivers op,
    ∀ listener ∈ t.listenersOf op, op ∈ t.flowgraph.listeners.modelled
      ∨ (op, view, listener) ∈ t.flowgraph.listeners.dispatched) ?_
    fun op _ t h => resolveSetListener_tries (Steps.inv hs h))) fun b t _ ⟨h, hb⟩ => ?_
  · intro op t u h hf hC
    have hsame := hf.same rfl
    rw [hsame.receivers, hsame.listenersOf, (Steps.le h).modelled]
    exact fun view hv listener hl => (hC view hv listener hl).imp_right ((Steps.le h).dispatched _)
  · refine .liftBind (run_of_does (propagate_does (Steps.inv hs h))) fun b' u _ h' =>
      .pure ⟨t, ⟨h, hb.1, fun hf op view hv listener hl => ?_⟩, h'⟩
    obtain ⟨o, ho, htag⟩ := (Option.any_eq_true _ _).mp (mem_listenersOf.mp hl).1
    refine hb.2 hf op (Graph.mem_operations.mpr ⟨o, ?_, of_decide_eq_true htag⟩) view hv listener hl
    exact ((Steps.le h).op? op).symm.trans ho

/-- Every rule is followed once. New flow is classified, and without it the solver stays steady. -/
theorem resolveOnce_tries (hs : Steady c s) : Tries (Run c) (Fails c) c s resolveOnce fun b t =>
    (Classified c t ∧ t.pending = false ∧ (b.2 = false → Steady c t)) ∧ (b.2 = true → b.1 = true) ∧ Reports b.1 s t ∧
    (b.1 = false → Propagated c t ∧ (∀ tag ∈ resolutionOrder, AllResolved c t tag) ∧ t.Dispatched) := by
  unfold resolveOnce
  refine .liftBind (run_of_does (p := .resolve) (updateStatistics_does fun _ => rfl)) fun _ s₀ _ ⟨h₀, heq⟩ => ?_
  have hsame₀ : s.Same s₀ := heq ▸ ⟨rfl, rfl, rfl, rfl, fun _ _ => rfl, fun _ => rfl⟩
  have hs₀ := hs.resolve h₀
  refine .liftBind (run_of_does (propagate_does hs₀.inv)) fun b₁ s₁ _ ⟨h₁, hb₁⟩ => ?_
  have hs₁ := hs₀.resolve h₁
  refine .bind (run_of_tries (resolveSweep_tries hs₁.inv)) fun b₂ s₂ _ ⟨h₂, hb₂⟩ => ?_
  have hs₂ := hs₁.resolve h₂
  refine .bind (dispatchAll_tries hs₂.inv) fun b s₃ h₂₃ ⟨s', ⟨h', hb', hdisp⟩, h₃, hb₃, hprop⟩ => ?_
  obtain ⟨flows, grown⟩ := b
  have hr₁ : Reports (false || b₁) s s₁ :=
    reporting_run.or (Steps.run h₀) (Steps.run h₁) ⟨nofun, fun _ => hsame₀⟩ hb₁.1
  rw [Bool.false_or] at hr₁
  have hr₂ := reporting_run.or (Steps.run (h₀.trans h₁)) (Steps.run h₂) hr₁ hb₂.1
  have hrun₂ : Run c s s₂ := Steps.run (h₀.trans (h₁.trans h₂))
  have hr' := reporting_run.or hrun₂ (Steps.run h') hr₂ hb'
  have hr₃ := reporting_run.or (hrun₂.trans (Steps.run h')) (Steps.run h₃) hr' hb₃
  have hpend' : s'.pending = false := (Steps.pending_dispatch h').trans hs₂.settled
  have hpend₃ : s₃.pending = false := (Steps.flow_resolve h₃).2.trans hpend'
  cases flows with
  | true =>
    refine .bind (run_of_tries classify_tries) fun _ t ht ⟨hcl, hct⟩ => .pure ?_
    have htrue : (b₁ || b₂ || true || grown) = true := by simp
    have hgains : s.Gains t := (hr₃.new htrue).mono_right (Run.le ht)
    rw [htrue]
    exact ⟨⟨hct, Steps.settled_classify hcl hpend₃, nofun⟩, fun _ => rfl, ⟨fun _ => hgains, nofun⟩, nofun⟩
  | false =>
    have hs₃ : Steady c s₃ := (hs₂.steps h' nofun (fun _ ha => (hb'.same rfl).graph ▸ ha) hpend').resolve h₃
    refine .pure ⟨⟨hs₃.classified, hs₃.settled, fun _ => hs₃⟩, nofun, hr₃, fun hb => ?_⟩
    simp only [Bool.or_eq_false_iff] at hb
    obtain ⟨⟨⟨_, hb₂f⟩, _⟩, hgrown⟩ := hb
    have hsame₃ := hb₃.same hgrown
    have hle₃ := (Steps.le h').trans (Steps.le h₃)
    exact ⟨hprop hgrown, fun tag htag => (hb₂.2 hb₂f tag htag).congr ((hb'.same rfl).trans hsame₃) hle₃,
      (hdisp rfl).of_same hsame₃ (Steps.le h₃)⟩

/-- **One pass.** -/
theorem pass_tries (hs : Steady c s) : Tries (Run c) (Fails c) c s pass fun b t =>
    Steady c t ∧ Reports b s t ∧ (b = false → Solved c t) := by
  unfold pass
  refine .bind (resolveOnce_tries hs) fun b t hst ⟨⟨hct, hpt, hsteady⟩, hflows, hrep, hsat⟩ => ?_
  obtain ⟨changed, flows⟩ := b
  refine .bind (inflateAll_tries (Run.inv hs.inv hst) hct hpt) fun inflated u htu ⟨hu, hinf, hgain, hsame⟩ => ?_
  dsimp only
  split
  · rename_i hnew
    have hprop := run_of_does (propagate_does hu.inv)
    refine .bind (Tries.discard (.lift hprop)) fun _ v huv ⟨_, h, _⟩ => .pure ?_
    have hgains : s.Gains v := by
      rcases Bool.or_eq_true_iff.mp hnew with hi | hf
      · exact ((hgain hi).mono_left (Run.le hst)).mono_right (Run.le huv)
      · exact (hrep.new (hflows hf)).mono_right (Run.le (htu.trans huv))
    have htrue : (changed || inflated) = true := by
      rcases Bool.or_eq_true_iff.mp hnew with hi | hf
      · rw [hi, Bool.or_true]
      · rw [show changed = true from hflows hf, Bool.true_or]
    rw [htrue]
    exact ⟨hu.resolve h, ⟨fun _ => hgains, nofun⟩, nofun⟩
  · rename_i hnew
    rw [Bool.not_eq_true, Bool.or_eq_false_iff] at hnew
    have hsame := hsame hnew.1 (hsteady hnew.2).layouts
    refine .pure ⟨hu, reporting_run.or hst htu hrep ⟨hgain, fun _ => hsame⟩, fun hb => ?_⟩
    obtain ⟨hprop, hres, hdisp⟩ := hsat (Bool.or_eq_false_iff.mp hb).1
    exact ⟨hu.inv, hu.classified, hinf, hprop.congr hsame, fun tag htag => (hres tag htag).congr hsame (Run.le htu),
      hdisp.of_same hsame (Run.le htu)⟩

/-- Passes end once one changes nothing. -/
theorem passes_tries {k N : Nat} (hs : Steady c s) (hroom : s.flowgraph.room c ≤ N) (hk : s.lacking N < k) :
    Tries (Run c) (Fails c) c s (upTo pass k) fun b t => b = true ∧ Solved c t := by
  refine upTo_tries (I := Steady c) (fun t ht => ?_) hs hroom hk
  exact (pass_tries ht).imp fun b u _ ⟨hsteady, hrep, hsolved⟩ => ⟨fun hb => ⟨hsteady, hrep.new hb⟩, hsolved⟩

/-! ## The whole -/

theorem solveClassified_tries (hs : Inv c s) (hc : Classified c s) (hp : s.pending = false) :
    Tries (Run c) (Fails c) c s solveClassified fun _ t => Solved c t := by
  unfold solveClassified
  refine .bind (inflateAll_tries hs hc hp).discard fun _ s₁ _ ⟨_, hsteady, _⟩ => ?_
  refine .read rfl ?_
  refine .bind (passes_tries hsteady (Nat.le_refl _) lacking_lt_bound).discard fun _ s₂ _ ⟨_, _, hsolved⟩ => ?_
  refine .read rfl (.lift ?_)
  exact (run_of_does (p := .resolve) logEntry_does).imp fun _ t h hsame => hsolved.of_same h hsame.2

/-- **Solving.** A solver that does not fail is solved. One that fails is strict, and there is a violation at some point
of its run. -/
theorem solve_tries (hs : Inv c s) (hp : s.pending = false) :
    Tries (Run c) (Fails c) c s solve fun _ t => Solved c t :=
  .bind (run_of_tries classify_tries) fun _ _ h ⟨hcl, hc⟩ =>
    solveClassified_tries (Run.inv hs h) hc (Steps.settled_classify hcl hp)

end Solver

/-! ## Analyses -/

namespace Flowgraph

variable {c : Context} {f : Flowgraph}

theorem sound_of_build (h : build c = .ok f) : f.Sound := by
  obtain ⟨hvalid, hinflations, hcontainment⟩ := build_valid h
  have hnone : ∀ a, a ∉ f.graph.containment := fun a ha => by simp [hcontainment] at ha
  refine ⟨hvalid, fun a ha => absurd ha (hnone a), fun a ha => absurd ha (hnone a), fun a ha => absurd ha (hnone a),
    fun key r hr => ?_⟩
  rw [hinflations] at hr
  simp at hr

end Flowgraph

theorem analyze_eq_ok {c : Context} {s : Solver} : analyze c = .ok s ↔
    ∃ f, Flowgraph.build c = .ok f ∧ Solver.solve c { flowgraph := f } = (.ok (), s) := by
  unfold analyze
  cases hf : Flowgraph.build c with
  | error e => simp
  | ok f =>
    dsimp only
    constructor
    · intro h
      split at h
      · rename_i s' hs
        cases h
        exact ⟨f, rfl, hs⟩
      · cases h
    · rintro ⟨f', hf', hs⟩
      cases hf'
      have hs : (Solver.solve.run c).run { flowgraph := f } = (.ok (), s) := hs
      rw [hs]

/-- An analysis starts with a sound flowgraph and ends with a solved solver. -/
theorem solved_of_analyze {c : Context} {s : Solver} (h : analyze c = .ok s) :
    ∃ f : Flowgraph, f.Sound ∧ Solver.Run c { flowgraph := f } s ∧ Solver.Solved c s := by
  obtain ⟨f, hf, hs⟩ := analyze_eq_ok.mp h
  have hsound := Flowgraph.sound_of_build hf
  exact ⟨f, hsound, (Solver.solve_tries (Solver.inv_init hsound) rfl).ok hs⟩

theorem exists_of_toOption {α : Type} {x : Except Fault α} {k : α → Bool} (h : x.toOption.any k = true) :
    ∃ a, x = .ok a ∧ k a = true := by
  cases x with
  | error e => simp [Except.toOption] at h
  | ok a => exact ⟨a, rfl, by simpa [Except.toOption] using h⟩

theorem eq_ok_of_isOk {σ : Type} {r : Except Fault Unit × σ} (h : r.1.isOk = true) : r = (.ok (), r.2) := by
  obtain ⟨e | ⟨⟩, t⟩ := r
  · cases h
  · rfl

/-- What can be evaluated of an analysis. -/
theorem exists_of_analyze {c : Context} {k : Solver → Bool} (h : (analyze c).toOption.any k = true) :
    ∃ s, analyze c = .ok s ∧ k s = true :=
  exists_of_toOption h

/-! ## An application -/

namespace Example

def classOf (name : String) (superclass : Option String) (isInterface isApplication : Bool) (methods : List Method) :
    Class :=
  ⟨name, superclass, [], isInterface, isInterface, isApplication, methods⟩

def methodOf (name : String) (params : List Ty) (ret : Ty) (body : List Stmt) : Method :=
  ⟨"app.Main", name, params, ret, false, false, body.zipIdx.map fun (stmt, i) => ⟨.ofStmt name i, stmt⟩⟩

def callOn (receiver : Local) (name : String) (params : List Ty) (ret : Ty) (args : List Value) : Call :=
  ⟨.virtual, ⟨receiver.ty.text, name, params, ret⟩, some receiver, args⟩

def templateOf (cls : Option String) (id : Option Int) (children : List Template) : Template :=
  ⟨cls, id, none, ∅, children⟩

def byId {α : Type} (l : List (Int × α)) : ExtTreeMap Int α := .ofList l

def this : Local := ⟨"this", .ref "app.Main"⟩

/-- An application with an activity and with two classes that extend each other. -/
def application (methods : List Method) (resources : Resources) : Context where
  project.program.classes := .ofList <| List.map (fun cls => (cls.name, cls)) [
    classOf "java.lang.Object" none false false [],
    classOf "android.app.Activity" (some "java.lang.Object") false false [],
    classOf "android.view.View" (some "java.lang.Object") false false [],
    classOf "android.view.Menu" none true false [],
    classOf "android.view.MenuItem" none true false [],
    classOf "android.view.MenuInflater" (some "java.lang.Object") false false [],
    classOf "app.Left" (some "app.Right") false true [],
    classOf "app.Right" (some "app.Left") false true [],
    classOf "app.Main" (some "android.app.Activity") false true methods]
  project.resources := resources
  settings.strict := false
  settings.apiLevel := 19
  settings.activityCallbacks := methods.map (·.subSignature)
  settings.listeners := []

/-- The activity sets a layout and looks for a view in it, which it assigns in a circle. -/
def withLayout : Context :=
  let view : Local := ⟨"view", .ref "android.view.View"⟩
  let same : Local := ⟨"same", .ref "android.view.View"⟩
  let onCreate := methodOf "onCreate" [.ref "android.os.Bundle"] ⟨.void, 0⟩ [
    .assign (.var this) .this,
    .call (callOn this "setContentView" [.int] ⟨.void, 0⟩ [.int 1]),
    .assign (.var view) (.call (callOn this "findViewById" [.int] view.ty [.int 5])),
    .assign (.var same) (.value (.var view)),
    .assign (.var view) (.value (.var same))]
  application [onCreate] {
    layouts := byId [(1, templateOf (some "android.view.View") none [templateOf (some "android.view.View") (some 5) []])]
    layoutIds := byId [(1, "main")]
    widgetIds := byId [(5, "save")] }

end Example

end WidgetFlow
