import WidgetFlow.Proofs.Monotonicity
import WidgetFlow.Proofs.Repetition

/-!
# Nothing happens after solving

Once `solve` has succeeded, a solver has nothing left to do (`Solver.Solved`). From then on every step finds what is
known already (`Step.repeats`), so all later requests leave the solver as it is. This holds for strict solvers too, and
also for one that failed earlier and was asked again: what it would report was reported before.

* `Run.repeats_self`: a run that starts from a solved solver adds nothing;
* `Solved.not_stops`, `Solved.not_gains`: so no later request fails, and none tells of a change;
* `fixpoint_of_solve`: any sequence of requests after a successful `solve`;
* `flowgraph_of_solve_again`: a new solver on the flowgraph of a solved one leaves the flowgraph as it is.
-/

namespace WidgetFlow

open Std Relation

namespace Solver

variable {s t u : Solver} {c : Context} {f : Flowgraph} {a b op : NodeId}

/-! ## Runs from a solved solver -/

/-- What the second run knows of two nodes, the first one knows. -/
theorem Repeats.holds (h : s.Repeats t) {k : FactKind} (hk : s.holds a b k = true) : t.holds a b k = true := by
  cases k with
  | receiver | parameter | result => exact decide_eq_true (h.solution _ _ _ (of_decide_eq_true hk))
  | root => exact decide_eq_true (h.roots _ _ (of_decide_eq_true hk))
  | child | flow | id | text | drawable | node =>
    unfold Solver.holds at hk ⊢
    rw [← h.graph]
    exact hk

/-- Everything that is known, and no more. -/
theorem Repeats.idsOf_eq (h : s.Repeats t) (hs : Inv c s) (ht : Solved c t) (hle : t.Le s) :
    s.idsOf op = t.idsOf op :=
  ExtTreeSet.ext_mem fun n => ⟨h.ids hs ht, hle.ids op n⟩

/-- **A run from a solved solver adds nothing.** -/
theorem Run.repeats_self (ht : Solved c t) (h : Run c t s) : s.Repeats t := by
  induction h with
  | refl => exact ⟨rfl, fun _ _ _ hn => hn, fun _ _ hv => hv⟩
  | tail h hst ih =>
    have hs := Run.inv ht.inv h
    exact hst.choose_spec.repeats ih hs ht fun _ _ => ih.idsOf_eq hs ht (Run.le h)

section Solved

variable (ht : Solved c t) (h : Run c t s)
include ht h

theorem Solved.classified_of_run : Classified c s := by
  have hrep := Run.repeats_self ht h
  have hle := Run.le h
  have hs := Run.inv ht.inv h
  constructor
  · intro op n hn
    exact hle.ids _ _ (ht.classified.ids op n (hrep.graph ▸ hn))
  · intro x n hn
    exact hle.candidates _ _ (ht.classified.objects x n (hrep.graph ▸ hn))
  · intro op x ho hx
    exact hle.downstream _ _ (ht.classified.results op x (hrep.graph ▸ ho) (hrep.graph ▸ hx))
  · intro x n hn ha
    have hcand := ht.classified.objects x n (hrep.graph ▸ hs.candidates x n hn)
    exact hle.solution _ _ _ (ht.classified.seeded x n hcand (hrep.graph ▸ ha))
  · intro op n hr
    exact hle.reported _ (ht.classified.marked op n (hrep.graph ▸ hr))

theorem Solved.steady_of_run (hp : s.pending = false) : Steady c s := by
  have hs := Run.inv ht.inv h
  refine ⟨hs, ht.classified_of_run h, fun key hdue => ?_, hp⟩
  exact (ht.inflated.layouts key ((Run.repeats_self ht h).layoutDue hs ht hdue)).mono (Run.le h)

/-- No new fact is found. -/
theorem Solved.not_gains (hu : Run c s u) : ¬s.Gains u := by
  rintro ⟨a, b, k, -, -, hk, hno⟩
  have hk := (Run.le h).holds ((Run.repeats_self ht (h.trans hu)).holds hk)
  rw [hno] at hk
  cases hk

/-- What could stop a strict solver was reported before. -/
theorem Solved.not_stops {e : Fault} : ¬Stops e s u := by
  have hrep := Run.repeats_self ht h
  have hle := Run.le h
  intro hstop
  cases hstop with
  | flow hr hnew => exact hnew (hle.reported _ (ht.classified.marked _ _ (hrep.graph ▸ hr)))
  | containment ho hk hc hp herr hnew =>
    have hres := ht.resolved_of (hrep.graph ▸ ho) (by rw [hk]; decide)
    rcases hres.child hk _ (hrep.solution _ _ _ hp) _ (hrep.widgetParameters hc) with harc | ⟨hmark, -⟩
    · exact Graph.nest_ne_error ht.inv.sound.acyclic harc (hrep.graph ▸ herr)
    · exact hnew (hle.rejected _ hmark)

end Solved

/-! ## Requests to a solved solver -/

/-- The two solvers have the same flowgraph and the same sets. -/
structure Unchanged (s t : Solver) : Prop where
  flowgraph : t.flowgraph = s.flowgraph
  ids : ∀ op, t.idsOf op = s.idsOf op
  solution : ∀ op slot, t.solution op slot = s.solution op slot
  roots : ∀ w, t.rootsOf w = s.rootsOf w

theorem Run.unchanged_self (ht : Solved c t) (h : Run c t s) : t.Unchanged s := by
  have hrep := Run.repeats_self ht h
  have hle := Run.le h
  constructor
  · exact hrep.flowgraph
  · exact fun op => hrep.idsOf_eq (Run.inv ht.inv h) ht hle
  · exact fun op slot => ExtTreeSet.ext_mem fun n => ⟨hrep.solution op slot n, hle.solution op slot n⟩
  · exact fun w => ExtTreeSet.ext_mem fun v => ⟨hrep.roots w v, hle.roots w v⟩

theorem map_run_ok {α β : Type} {x : Solve α} {k : α → β} {y : β} (h : (k <$> x) c s = (.ok y, u)) :
    ∃ z, x c s = (.ok z, u) ∧ k z = y := by
  rw [map_run] at h
  rcases hx : x c s with ⟨e | z, v⟩
  · rw [hx] at h
    cases h
  · rw [hx] at h
    cases h
    exact ⟨z, rfl, rfl⟩

/-- A steady solver that tells of a change has found a new fact. -/
theorem Request.gains_of_act {x : Request} (hs : Steady c s) (h : x.act c s = (.ok (some true), u)) : s.Gains u := by
  cases x with
  | classify | solve =>
    obtain ⟨_, -, hnone⟩ := map_run_ok h
    cases hnone
  | inflate =>
    obtain ⟨_, hrun, htrue⟩ := map_run_ok h
    cases htrue
    obtain ⟨-, -, s', hst, hpend, rfl⟩ := (inflate_tries hs.inv).ok hrun
    have hlt := Steps.inflated_lt hst hs.settled hpend.symm
    exact ((Steps.le hst).gains hlt).mono_right (Step.le (c := c) .settle)
  | inflateAll =>
    obtain ⟨_, hrun, htrue⟩ := map_run_ok h
    cases htrue
    obtain ⟨-, -, -, hgains, -⟩ := (inflateAll_tries hs.inv hs.classified hs.settled).ok hrun
    exact hgains rfl
  | pass =>
    obtain ⟨_, hrun, htrue⟩ := map_run_ok h
    cases htrue
    obtain ⟨-, -, hrep, -⟩ := (pass_tries hs).ok hrun
    exact hrep.new rfl

/-- The answer to a request that changes nothing. -/
def Request.idle : Request → Option Bool
  | .classify | .solve => none
  | .inflate | .inflateAll | .pass => some false

theorem Request.eq_idle {x : Request} {answer : Option Bool} (h : x.act c s = (.ok answer, u))
    (hno : answer ≠ some true) : answer = x.idle := by
  cases x with
  | classify | solve =>
    obtain ⟨_, -, rfl⟩ := map_run_ok h
    rfl
  | inflate | inflateAll | pass =>
    obtain ⟨changed, -, rfl⟩ := map_run_ok h
    cases changed with
    | false => rfl
    | true => exact absurd rfl hno

/-- Requests one after the other. -/
def serve (c : Context) (s : Solver) (xs : List Request) : Solver := xs.foldl (fun s x => x.after c s) s

theorem lasts_serve (hs : Poised c s) (xs : List Request) : Lasts c s (serve c s xs) := by
  induction xs generalizing s with
  | nil => exact refl_of (Lasts c) s
  | cons x xs ih =>
    have hx := x.lasts hs
    exact trans_of (Lasts c) hx (ih (hs.lasts hx))

/-- What a successful `solve` leaves behind. -/
theorem solved_of_solve (hf : Available c f) (hs : Reached c f s) (h : solve c s = (.ok (), t)) :
    Solved (c.mode false) t ∧ Lasts c { flowgraph := f } t := by
  have hlasts := hs.lasts hf.poised
  have hpoised := hf.poised.lasts hlasts
  have hlenient : solve (c.mode false) s = (.ok (), t) := (solve_mirrors hpoised).lenient (c.mode_strict ▸ h)
  refine ⟨((solve_tries hpoised.inv (hlasts.settled rfl)).ok hlenient).2, ?_⟩
  exact trans_of (Lasts c) hlasts ((solve_mirrors hpoised).moves hlenient)

/-- **After a successful `solve` nothing happens any more.** Whatever is asked of the solver afterwards, it succeeds,
tells of no change, and leaves the flowgraph, the ids, the solutions and the roots as they are. -/
theorem fixpoint_of_solve (hf : Available c f) (hs : Reached c f s) (h : solve c s = (.ok (), t)) (xs : List Request)
    (x : Request) : x.answer c (serve c t xs) = .ok x.idle ∧ t.Unchanged (x.after c (serve c t xs)) := by
  obtain ⟨hsolved, hlasts⟩ := solved_of_solve hf hs h
  have hpoised := hf.poised.lasts hlasts
  have hserved := lasts_serve hpoised xs
  -- nothing stops the request, so it does the same in both modes
  obtain ⟨answer, u, hact, hu⟩ := (x.mirrors (hpoised.lasts hserved)).unstopped fun e v w hv =>
    hsolved.not_stops (hserved.run.trans hv.run)
  have hidle : answer = x.idle := by
    refine Request.eq_idle (hact false) ?_
    rintro rfl
    have hsteady := hsolved.steady_of_run hserved.run (hserved.settled (hlasts.settled rfl))
    exact hsolved.not_gains hserved.run hu.run (Request.gains_of_act hsteady (hact false))
  have hrun : x.act c (serve c t xs) = (.ok answer, u) := hact c.settings.strict
  rw [x.act_run] at hrun
  obtain ⟨hanswer, hafter⟩ := Prod.mk.inj hrun
  rw [hanswer, hafter, hidle]
  exact ⟨rfl, Run.unchanged_self hsolved (hserved.run.trans hu.run)⟩

/-- The strict solver has failed once, succeeds when it is asked again, and another pass changes nothing. -/
theorem fixpoint_after_failure : ∃ f t, Flowgraph.build Example.withLayoutId = .ok f ∧
    (classify Example.withLayoutId { flowgraph := f }).1.isOk = false ∧
    solve Example.withLayoutId (Request.classify.after Example.withLayoutId { flowgraph := f }) = (.ok (), t) ∧
    Request.pass.answer Example.withLayoutId t = .ok (some false) ∧
    (Request.pass.after Example.withLayoutId t).flowgraph = t.flowgraph := by
  have heval : (Flowgraph.build Example.withLayoutId).toOption.any (fun f =>
      (classify Example.withLayoutId { flowgraph := f }).1.isOk = false ∧
      (solve Example.withLayoutId (Request.classify.after Example.withLayoutId { flowgraph := f })).1.isOk = true)
      = true := by
    decide +kernel
  obtain ⟨f, hf, hk⟩ := exists_of_toOption heval
  obtain ⟨hfails, hok⟩ := of_decide_eq_true hk
  have hsolve := eq_ok_of_isOk hok
  have hs : Reached Example.withLayoutId f (Request.classify.after Example.withLayoutId { flowgraph := f }) :=
    .request .start .classify
  obtain ⟨hanswer, hsame⟩ := fixpoint_of_solve (.built hf) hs hsolve [] .pass
  exact ⟨f, _, hf, hfails, hsolve, hanswer, hsame.flowgraph⟩

/-! ## A new solver -/

/-- **Solving again keeps the flowgraph.** If a new solver succeeds, then another new solver succeeds on what it has made
of the flowgraph. This one inflates nothing, and leaves the flowgraph as it is. -/
theorem flowgraph_of_solve_again (hf : Available c f) (h : solve c { flowgraph := f } = (.ok (), t)) :
    ∃ u, solve c { flowgraph := t.flowgraph } = (.ok (), u) ∧ u.flowgraph = t.flowgraph
      ∧ u.statistics.inflated = 0 := by
  have hsolved := ((solve_tries (inv_init hf.poised.inv.sound) rfl).ok h).2
  obtain ⟨u, hu, hagain, -⟩ := solve_again hsolved
  have hrun := ((solve_tries (inv_init hsolved.inv.sound) rfl).ok hu).1
  exact ⟨u, hu, hagain.repeats.flowgraph, (Run.le hrun).inflated_eq hagain.repeats.graph⟩

/-- A layout with two widgets is not inflated again. -/
theorem flowgraph_of_solve_layout_again : ∃ f t u, Flowgraph.build Example.withLayout = .ok f ∧
    solve Example.withLayout { flowgraph := f } = (.ok (), t) ∧ t.statistics.inflated = 2 ∧
    solve Example.withLayout { flowgraph := t.flowgraph } = (.ok (), u) ∧ u.flowgraph = t.flowgraph ∧
    u.statistics.inflated = 0 := by
  have heval : (analyze Example.withLayout).toOption.any (fun t => t.statistics.inflated = 2) = true := by
    decide +kernel
  obtain ⟨t, ht, hk⟩ := exists_of_analyze heval
  obtain ⟨f, hf, hsolve⟩ := analyze_eq_ok.mp ht
  obtain ⟨u, hu, hflowgraph, hinflated⟩ := flowgraph_of_solve_again (.built hf) hsolve
  exact ⟨f, t, u, hf, hsolve, of_decide_eq_true hk, hu, hflowgraph, hinflated⟩

end Solver

end WidgetFlow
