import WidgetFlow.Proofs.StrictSolving

/-!
# Passes that tell of no change

Callers drive a solver by its phases, and stop once a pass tells that nothing changed. It is shown for every solver that
they can come to (`Solver.Reached`), on a flowgraph that was constructed or that a solver has worked on before
(`Solver.Available`), what such a pass can still have done.

A pass counts the widgets that it inflates. A layout that was inflated before is not inflated again: its topmost widget
is taken from the memory of the flowgraph and handed to the window or the result of its operation, and this is not
counted. In a flowgraph that no solver has worked on before, everything in that memory has been handed over already.

* `Step.inflations_cases`: a step adds topmost widgets of layouts to the memory of inflations, and hands them over;
* `Reached.lasts`: in a solver that callers can come to no flow waits to be classified, whatever request has failed;
* `refreshed_of_pass`: a pass that tells of no change adds topmost widgets of layouts inflated before, and nothing else.
-/

namespace WidgetFlow

open Std Relation

namespace Solver

variable {s t u : Solver} {c : Context} {f : Flowgraph} {op n l w v r : NodeId} {slot : Slot} {p : Phase}
  {key : InflationKey}

/-! ## Requests -/

/-- What callers can ask of a solver. -/
inductive Request where
  | classify | inflate | inflateAll | pass | solve

/-- What a solver does at a request. Some requests tell whether something has changed. -/
def Request.act : Request → Solve (Option Bool)
  | .classify => (fun _ => none) <$> Solver.classify
  | .inflate => some <$> Solver.inflate
  | .inflateAll => some <$> Solver.inflateAll
  | .pass => some <$> Solver.pass
  | .solve => (fun _ => none) <$> Solver.solve

/-- The answer to a request. -/
def Request.answer (c : Context) (s : Solver) (x : Request) : Except Fault (Option Bool) := (x.act c s).1

/-- The solver after a request, whether it fails or not. -/
def Request.after (c : Context) (s : Solver) : Request → Solver
  | .classify => (Solver.classify c s).2
  | .inflate => (Solver.inflate c s).2
  | .inflateAll => (Solver.inflateAll c s).2
  | .pass => (Solver.pass c s).2
  | .solve => (Solver.solve c s).2

/-- The solvers that callers can come to from a new one. -/
inductive Reached (c : Context) (f : Flowgraph) : Solver → Prop
  | start : Reached c f { flowgraph := f }
  | request {s : Solver} (h : Reached c f s) (x : Request) : Reached c f (x.after c s)

/-- The flowgraphs of an application: the constructed one, and what solvers make of one. -/
inductive Available (c : Context) : Flowgraph → Prop
  | built {f : Flowgraph} (h : Flowgraph.build c = .ok f) : Available c f
  | solved {f : Flowgraph} {s : Solver} (hf : Available c f) (h : Reached c f s) : Available c s.flowgraph

/-- Callers come to the solver of an analysis. -/
theorem reached_of_analyze (h : analyze c = .ok s) : ∃ f, Flowgraph.build c = .ok f ∧ Reached c f s := by
  obtain ⟨f, hf, hsolve⟩ := analyze_eq_ok.mp h
  have hs := Reached.request (c := c) (f := f) .start .solve
  rw [Request.after, hsolve] at hs
  exact ⟨f, hf, hs⟩

theorem lasts_stops {fault : Fault} (hs : Inv (c.mode false) s) (h : Stops fault s t) : Lasts c s t := by
  cases h with
  | flow hr => exact ⟨.single ⟨.classify, report_step rfl hr⟩, id⟩
  | containment _ _ hc hp => exact ⟨.single ⟨.resolve, reject_step rfl (hs.spans hc hp)⟩, id⟩

theorem map_run {α β : Type} {x : Solve α} {k : α → β} : (k <$> x) c s = ((x c s).1.map k, (x c s).2) := by
  rw [map_eq_pure_bind]
  rcases h : x c s with ⟨e | a, t⟩
  · exact bind_run_error h
  · exact bind_run_ok h

theorem Request.act_run (x : Request) : x.act c s = (x.answer c s, x.after c s) := by
  have hafter : (x.act c s).2 = x.after c s := by
    cases x <;> rw [act, map_run, after]
  exact Prod.ext rfl hafter

theorem Request.mirrors (hs : Poised c s) (x : Request) : Mirrors (Lasts c) Stops c s x.act := by
  cases x with
  | classify => exact .map (classify_mirrors.mono fun _ => lasts_classify)
  | inflate => exact .map (inflate_mirrors hs.inv)
  | inflateAll => exact .map (inflateAll_mirrors hs.inv)
  | pass => exact .map (pass_mirrors hs)
  | solve => exact .map (solve_mirrors hs)

/-- A request is a run, after which no flow waits to be classified if none did before. -/
theorem Request.lasts (hs : Poised c s) (x : Request) : Lasts c s (x.after c s) := by
  have hleaves : Lasts c s (x.act (c.mode c.settings.strict) s).2 :=
    (x.mirrors hs).leaves fun _ _ _ ht hu => trans_of (Lasts c) ht (lasts_stops (Run.inv hs.inv ht.run) hu)
  rw [c.mode_strict, x.act_run] at hleaves
  exact hleaves

theorem Reached.lasts (hf : Poised c { flowgraph := f }) (h : Reached c f s) : Lasts c { flowgraph := f } s := by
  induction h with
  | start => exact refl_of (Lasts c) _
  | request _ x ih => exact trans_of (Lasts c) ih (x.lasts (hf.lasts ih))

theorem Available.poised (hf : Available c f) : Poised c { flowgraph := f } := by
  induction hf with
  | built h => exact ⟨inv_init (Flowgraph.sound_of_build h), Flowgraph.registered_of_build h⟩
  | solved _ h ih =>
    have hs := ih.lasts (h.lasts ih)
    exact ⟨inv_init hs.inv.sound, hs.registered⟩

/-- The invariant holds of every solver that callers can come to. -/
theorem Reached.inv (hf : Available c f) (hs : Reached c f s) : Inv (c.mode false) s :=
  (hf.poised.lasts (hs.lasts hf.poised)).inv

/-- What the construction leaves behind and steps keep holds of every flowgraph that callers can come to. -/
theorem Reached.keeps {P : Flowgraph → Prop} (hbuilt : P (Flowgraph.construct c {}).2)
    (hstep : ∀ {p s t}, Inv (c.mode false) s → Step (c.mode false) p s t → P s.flowgraph → P t.flowgraph)
    (hf : Available c f) (hs : Reached c f s) : P s.flowgraph := by
  have hrun : ∀ {f s}, Available c f → Reached c f s → P f → P s.flowgraph := by
    intro f s hf hs hP
    have hrun := (hs.lasts hf.poised).run
    clear hs
    induction hrun with
    | refl => exact hP
    | tail h hlast ih => exact hstep (Run.inv hf.poised.inv h) hlast.choose_spec ih
  have havailable : P f := by
    clear hs
    induction hf with
    | built h =>
      rw [Flowgraph.construct_of_build h] at hbuilt
      exact hbuilt
    | solved hf hs ih => exact hrun hf hs ih
  exact hrun hf hs havailable

/-! ## The memory of inflations -/

/-- **What a step adds to the memory of inflations.** A topmost widget of a layout is new, and it is handed over. -/
theorem Step.inflations_cases (h : Step c p s t) (hr : t.flowgraph.inflations[key]? = some (some r)) :
    s.flowgraph.inflations[key]? = some (some r) ∨
      t.Delivered key r ∧ t.graph.IsTopmost c.project.resources key.id r ∧
        s.statistics.inflated < t.statistics.inflated := by
  cases h with
  | note | settle | id | candidate | downstream | seed | propagate | find | root | nest | bindId | texts | drawables =>
    exact .inl hr
  | dispatch _ _ _ _ h =>
    rw [h.inflations] at hr
    exact .inl hr
  | @layout _ t' key' root hdue hnew hin hroot hsize hquiet =>
    by_cases hkey : key' = key
    · subst hkey
      obtain rfl : root = some r := by
        rw [finish_eq, ExtTreeMap.getElem?_insert_self] at hr
        exact Option.some.inj hr
      refine .inr ⟨delivered_deliver, ?_⟩
      rw [finish_eq]
      refine ⟨hroot r rfl, ?_⟩
      apply Nat.lt_of_le_of_ne (le_of_inflates hin).inflated
      intro he
      cases (hquiet he.symm).1
    · rw [finish_eq, Container.getElem?_insert_of_ne (Ne.symm hkey), inflations_of_inflates hin] at hr
      exact .inl hr
  | @menu _ _ key' hdue hnew hin =>
    rw [inflations_of_inflates hin] at hr
    by_cases hkey : key' = key
    · subst hkey
      rw [cache, ExtTreeMap.getElem?_insert_self] at hr
      cases hr
    · rw [cache, Container.getElem?_insert_of_ne (Ne.symm hkey)] at hr
      exact .inl hr
  | reuse =>
    rw [flowgraph_deliver] at hr
    exact .inl hr

/-- Without a new widget there is no new topmost widget. -/
theorem Run.inflations_of_quiet (h : Run c s t) (hi : t.statistics.inflated = s.statistics.inflated)
    (hr : t.flowgraph.inflations[key]? = some (some r)) : s.flowgraph.inflations[key]? = some (some r) := by
  induction h with
  | refl => exact hr
  | @tail u v hu h ih =>
    obtain ⟨p, h⟩ := h
    have := (Run.le hu).inflated
    have := h.le.inflated
    rcases h.inflations_cases hr with hr | ⟨-, -, hlt⟩
    · exact ih (by omega) hr
    · omega

/-- Everything in the memory of inflations has been handed over. -/
def AllDelivered (s : Solver) : Prop := ∀ key r, s.flowgraph.inflations[key]? = some (some r) → s.Delivered key r

theorem Step.allDelivered (hs : s.AllDelivered) (h : Step c p s t) : t.AllDelivered := by
  intro key r hr
  rcases h.inflations_cases hr with hr | ⟨hdel, -⟩
  · exact (hs key r hr).mono h.le
  · exact hdel

theorem Run.allDelivered (hs : s.AllDelivered) (h : Run c s t) : t.AllDelivered := by
  induction h with
  | refl => exact hs
  | tail _ h ih => exact h.choose_spec.allDelivered ih

/-! ## Inflation without new widgets -/

theorem Steps.graph_inflate (h : Steps c .inflate s t) (hi : t.statistics.inflated = s.statistics.inflated) :
    t.graph = s.graph := by
  induction h with
  | refl => rfl
  | @tail u v hu h ih =>
    have := (Steps.le hu).inflated
    have := h.le.inflated
    rw [← ih (by omega)]
    have hi : v.statistics.inflated = u.statistics.inflated := by omega
    cases h with
    | note => rfl
    | layout _ _ _ _ _ hquiet =>
      rw [finish_eq] at hi ⊢
      exact (hquiet hi).2
    | menu _ _ _ _ hquiet => exact hquiet hi
    | reuse => exact graph_deliver

/-- What inflation adds to a solution, a layout that is due brings. -/
theorem Steps.solution_inflate (hs : Inv c s) (h : Steps c .inflate s t) (hn : n ∈ t.solution op slot) :
    n ∈ s.solution op slot ∨ slot = .result ∧
      ∃ l, s.LayoutDue ⟨op, l, none⟩ ∧ t.flowgraph.inflations[InflationKey.mk op l none]? = some (some n) := by
  induction h with
  | refl => exact .inl hn
  | tail h h' ih =>
    rcases h'.solution_cases (x := ⟨op, slot⟩) hn with hn | he
    · rcases ih hn with hn | ⟨hslot, l, hdue, hr⟩
      · exact .inl hn
      · exact .inr ⟨hslot, l, hdue, h'.le.inflations _ _ hr⟩
    · cases he with
      | inflate hdue hr => exact .inr ⟨rfl, _, Steps.layoutDue hs h nofun hdue, hr⟩

theorem Steps.roots_inflate (hs : Inv c s) (h : Steps c .inflate s t) (hv : v ∈ t.rootsOf w) :
    v ∈ s.rootsOf w ∨
      ∃ op l, s.LayoutDue ⟨op, l, some w⟩ ∧ t.flowgraph.inflations[InflationKey.mk op l (some w)]? = some (some v) := by
  induction h with
  | refl => exact .inl hv
  | tail h h' ih =>
    rcases h'.roots_cases hv with hv | he
    · rcases ih hv with hv | ⟨op, l, hdue, hr⟩
      · exact .inl hv
      · exact .inr ⟨op, l, hdue, h'.le.inflations _ _ hr⟩
    · cases he with
      | inflate hdue hr => exact .inr ⟨_, _, Steps.layoutDue hs h nofun hdue, hr⟩

/-- A layout that is due was inflated before, and `r` is its topmost widget. -/
def Reusable (s : Solver) (key : InflationKey) (r : NodeId) : Prop :=
  s.LayoutDue key ∧ s.flowgraph.inflations[key]? = some (some r)

theorem Reusable.mono (h : s.Reusable key r) (hst : s.Le t) : t.Reusable key r :=
  ⟨h.1.mono hst, hst.inflations key _ h.2⟩

/-- The two solvers know the same, but for the topmost widgets of layouts that were inflated before. -/
structure Refreshed (s t : Solver) : Prop where
  graph : t.graph = s.graph
  ids : t.ids = s.ids
  candidates : t.candidates = s.candidates
  downstream : t.downstream = s.downstream
  solution : ∀ op slot n, n ∈ t.solution op slot ↔
    n ∈ s.solution op slot ∨ slot = .result ∧ ∃ l, s.Reusable ⟨op, l, none⟩ n
  roots : ∀ w v, v ∈ t.rootsOf w ↔ v ∈ s.rootsOf w ∨ ∃ op l, s.Reusable ⟨op, l, some w⟩ v

/-- Inflation hands over what was inflated before. -/
theorem Inflated.delivered (ht : t.Inflated) (hle : s.Le t) (h : s.Reusable key r) : t.Delivered key r := by
  obtain ⟨hdue, hr⟩ := h.mono hle
  obtain ⟨root, hroot, hdel⟩ := ht.layouts key hdue
  rw [hr] at hroot
  exact hdel r (Option.some.inj hroot).symm

theorem refreshed_of_inflate (hs : Inv c s) (h : Steps c .inflate s t)
    (hi : t.statistics.inflated = s.statistics.inflated) (hinf : ({ t with pending := false } : Solver).Inflated) :
    s.Refreshed { t with pending := false } := by
  have hle : s.Le { t with pending := false } := (Steps.le h).trans (Step.le (c := c) .settle)
  obtain ⟨hids, hcand, hdown⟩ := Steps.registries h nofun
  have hold : ∀ {key r}, t.flowgraph.inflations[key]? = some (some r) → s.flowgraph.inflations[key]? = some (some r) :=
    Run.inflations_of_quiet (Steps.run h) hi
  have hgraph := Steps.graph_inflate h hi
  refine ⟨hgraph, hids, hcand, hdown, ?_, ?_⟩
  · intro op slot n
    constructor
    · intro hn
      rcases Steps.solution_inflate hs h hn with hn | ⟨hslot, l, hdue, hr⟩
      · exact .inl hn
      · exact .inr ⟨hslot, l, hdue, hold hr⟩
    · rintro (hn | ⟨rfl, l, hl⟩)
      · exact hle.solution op slot n hn
      · exact hinf.delivered hle hl
  · intro w v
    constructor
    · intro hv
      rcases Steps.roots_inflate hs h hv with hv | ⟨op, l, hdue, hr⟩
      · exact .inl hv
      · exact .inr ⟨op, l, hdue, hold hr⟩
    · rintro (hv | ⟨op, l, hl⟩)
      · exact hle.roots w v hv
      · exact hinf.delivered hle hl

/-- Nothing is new if everything was handed over. -/
theorem Refreshed.same (h : s.Refreshed t) (hs : s.AllDelivered) : s.Same t := by
  refine ⟨h.graph, h.ids, h.candidates, h.downstream, ?_, ?_⟩
  · intro op slot
    apply ExtTreeSet.ext_mem
    intro n
    rw [h.solution op slot n]
    apply or_iff_left_of_imp
    rintro ⟨rfl, l, -, hr⟩
    exact hs _ n hr
  · intro w
    apply ExtTreeSet.ext_mem
    intro v
    rw [h.roots w v]
    apply or_iff_left_of_imp
    rintro ⟨op, l, -, hr⟩
    exact hs _ v hr

/-! ## Passes -/

/-- A run between solvers with the same graph inflates nothing. -/
theorem Le.inflated_eq (h : s.Le t) (hg : t.graph = s.graph) : t.statistics.inflated = s.statistics.inflated := by
  have := h.inflated
  have hnodes := h.nodes
  rw [hg] at hnodes
  omega

theorem Same.reusable (h : s.Same t) (hrun : Run c s t) : t.Reusable key r ↔ s.Reusable key r := by
  have hle := Run.le hrun
  constructor
  · rintro ⟨hdue, hr⟩
    exact ⟨h.layoutDue hdue, Run.inflations_of_quiet hrun (hle.inflated_eq h.graph) hr⟩
  · exact fun hr => hr.mono hle

theorem Same.refreshed (h : s.Same t) (hrun : Run c s t) (htu : t.Refreshed u) : s.Refreshed u where
  graph := htu.graph.trans h.graph
  ids := htu.ids.trans h.ids
  candidates := htu.candidates.trans h.candidates
  downstream := htu.downstream.trans h.downstream
  solution op slot n := by
    rw [htu.solution, h.solution]
    simp only [h.reusable hrun]
  roots w v := by
    rw [htu.roots, h.roots]
    simp only [h.reusable hrun]

/-- Resolving that tells of no change makes none, and leaves no flow to classify. -/
theorem resolveOnce_quiet (hs : Inv c s) : Tries (Run c) (Fails c) c s resolveOnce fun b t =>
    b.1 = false → b.2 = false ∧ s.Same t ∧ t.pending = s.pending := by
  unfold resolveOnce
  refine .liftBind (run_of_does (p := .resolve) (updateStatistics_does fun _ => rfl)) fun _ s₀ _ ⟨h₀, heq⟩ => ?_
  have hsame₀ : s.Same s₀ := heq ▸ ⟨rfl, rfl, rfl, rfl, fun _ _ => rfl, fun _ => rfl⟩
  have hs₀ := Steps.inv hs h₀
  refine .liftBind (run_of_does (propagate_does hs₀)) fun b₁ s₁ _ ⟨h₁, hb₁, _⟩ => ?_
  have hs₁ := Steps.inv hs₀ h₁
  refine .bind (run_of_tries (resolveSweep_tries hs₁)) fun b₂ s₂ _ ⟨h₂, hb₂, _⟩ => ?_
  have hs₂ := Steps.inv hs₁ h₂
  refine .bind (dispatchAll_tries hs₂) fun b s₃ h₂₃ ⟨s', ⟨h', hb', _⟩, h₃, hb₃, _⟩ => ?_
  obtain ⟨flows, grown⟩ := b
  cases flows with
  | true =>
    refine .bind (run_of_tries classify_tries) fun _ t _ _ => .pure fun hb => ?_
    simp at hb
  | false =>
    refine .pure fun hb => ?_
    simp only [Bool.or_eq_false_iff] at hb
    obtain ⟨⟨⟨hf₁, hf₂⟩, -⟩, hf₃⟩ := hb
    have hsame₁ := hsame₀.trans (hb₁.same hf₁)
    have hsame₂ := hsame₁.trans (hb₂.same hf₂)
    have hsame₃ := hsame₂.trans ((hb'.same rfl).trans (hb₃.same hf₃))
    refine ⟨rfl, hsame₃, ?_⟩
    calc s₃.pending = s'.pending := (Steps.flow_resolve h₃).2
      _ = s₂.pending := Steps.pending_dispatch h'
      _ = s.pending := (Steps.flow_resolve (h₀.trans (h₁.trans h₂))).2

/-- A round of inflation that is not the last makes a widget. -/
theorem inflateRound_quiet (hs : Inv c s) (hp : s.pending = false) :
    Tries (Run c) (Fails c) c s inflateRound fun b t =>
      (b = true → s.statistics.inflated < t.statistics.inflated) ∧
      (b = false → t.statistics.inflated = s.statistics.inflated → s.Refreshed t) := by
  unfold inflateRound
  refine .bind (inflate_tries hs) fun b t hst ⟨hinf, t', h', hb, ht⟩ => ?_
  cases b with
  | true =>
    refine .bind (run_of_tries classify_tries) fun _ u htu _ => .pure ⟨fun _ => ?_, nofun⟩
    calc s.statistics.inflated < t'.statistics.inflated := Steps.inflated_lt h' hp hb.symm
      _ = t.statistics.inflated := by rw [ht]
      _ ≤ u.statistics.inflated := (Run.le htu).inflated
  | false =>
    subst ht
    exact .pure ⟨nofun, fun _ hi => refreshed_of_inflate hs h' hi hinf⟩

section Lenient

variable (hs : Inv (c.mode false) s) (hp : s.pending = false)
include hs hp

theorem inflateRounds_quiet {k : Nat} :
    Tries (Run (c.mode false)) (Fails (c.mode false)) (c.mode false) s (upTo inflateRound (k + 1)) fun _ t =>
      t.statistics.inflated = s.statistics.inflated → s.Refreshed t := by
  rw [upTo.eq_2]
  refine .bind (inflateRound_quiet hs hp) fun again t hst h => ?_
  obtain ⟨hgoes, hends⟩ := h
  cases again with
  | false => exact .pure (hends rfl)
  | true =>
    -- the count has grown, and it does not go back
    have hlt := hgoes rfl
    have hmore : Mirrors (Lasts c) Stops c t (upTo inflateRound k) :=
      upTo_mirrors fun u h => inflateRound_mirrors (Run.inv (Run.inv hs hst) h.run)
    refine hmore.tries.mono (fun _ h => h.run) (fun _ _ h => h) fun _ u h _ he => ?_
    have := (Run.le h.run).inflated
    omega

theorem inflateAll_quiet : Tries (Run (c.mode false)) (Fails (c.mode false)) (c.mode false) s inflateAll fun b t =>
    b = false → s.Refreshed t := by
  unfold inflateAll
  refine .read rfl (.read rfl ?_)
  have hbound : 0 < s.flowgraph.bound (c.mode false) := Nat.lt_of_le_of_lt (Nat.zero_le _) lacking_lt_bound
  obtain ⟨k, hk⟩ := Nat.exists_eq_succ_of_ne_zero hbound.ne'
  rw [hk]
  refine .bind (inflateRounds_quiet hs hp).discard fun _ t hst ⟨_, hquiet⟩ => .read rfl (.pure fun hb => hquiet ?_)
  have := of_decide_eq_false hb
  have := (Run.le hst).inflated
  omega

/-- **One pass.** -/
theorem pass_quiet : Tries (Run (c.mode false)) (Fails (c.mode false)) (c.mode false) s pass fun b t =>
    b = false → s.Refreshed t := by
  unfold pass
  refine .bind (resolveOnce_quiet hs) fun b t hst hrep => ?_
  obtain ⟨changed, flows⟩ := b
  dsimp only at hrep
  have ht := Run.inv hs hst
  have hinf : Tries (Run (c.mode false)) (Fails (c.mode false)) (c.mode false) t inflateAll fun inflated u =>
      changed = false → inflated = false → s.Refreshed u := by
    by_cases hc : changed = false
    · obtain ⟨-, hsame, hpend⟩ := hrep hc
      exact (inflateAll_quiet ht (hpend.trans hp)).imp fun _ _ _ hquiet _ hb => hsame.refreshed hst (hquiet hb)
    · exact (inflateAll_mirrors ht).tries.mono (fun _ h => h.run) (fun _ _ h => h) fun _ _ _ _ h => absurd h hc
  refine .bind hinf fun inflated u htu hquiet => ?_
  dsimp only
  split
  · rename_i hnew
    have hprop := run_of_does (propagate_does (Run.inv ht htu))
    refine .bind (Tries.discard (.lift hprop)) fun _ v _ _ => .pure fun hb => ?_
    -- without a change there is no flow, and so nothing to propagate
    obtain ⟨hc, hi⟩ := Bool.or_eq_false_iff.mp hb
    obtain ⟨rfl, -⟩ := hrep hc
    rw [hi] at hnew
    cases hnew
  · refine .pure fun hb => ?_
    obtain ⟨hc, hi⟩ := Bool.or_eq_false_iff.mp hb
    exact hquiet hc hi

end Lenient

/-- **A pass that tells of no change.** For every solver that callers can come to, such a pass adds no node, no edge and
no attribute. To solutions and root views it adds the topmost widgets of layouts that are due and were inflated before,
and nothing else. If no solver has worked on the flowgraph before, it changes nothing. -/
theorem refreshed_of_pass (hf : Available c f) (hs : Reached c f s) (hp : pass c s = (.ok false, t)) :
    s.Refreshed t ∧ (Flowgraph.build c = .ok f → s.Same t) := by
  have hlasts := hs.lasts hf.poised
  have hpoised := hf.poised.lasts hlasts
  have hlenient : pass (c.mode false) s = (.ok false, t) := (pass_mirrors hpoised).lenient (c.mode_strict ▸ hp)
  have hrefreshed := ((pass_quiet hpoised.inv (hlasts.settled rfl)).ok hlenient).2 rfl
  refine ⟨hrefreshed, fun hbuild => hrefreshed.same (Run.allDelivered ?_ hlasts.run)⟩
  -- a flowgraph as it was constructed remembers nothing
  intro key r hr
  rw [(Flowgraph.build_valid hbuild).2.1] at hr
  simp at hr

end Solver

/-! ## A layout without a window -/

namespace Example

open Solver

/-- The activity inflates a layout without a window and makes its topmost widget its content. -/
def withInflater : Context :=
  let view : Local := ⟨"view", .ref "android.view.View"⟩
  let inflater : Local := ⟨"inflater", .ref "android.view.LayoutInflater"⟩
  let onCreate := methodOf "onCreate" [.ref "android.os.Bundle"] ⟨.void, 0⟩ [
    .assign (.var this) .this,
    .assign (.var view)
      (.call (callOn inflater "inflate" [.int, .ref "android.view.ViewGroup"] view.ty [.int 1, .null])),
    .call (callOn this "setContentView" [view.ty] ⟨.void, 0⟩ [.var view])]
  application [onCreate] {
    layouts := byId [(1, templateOf (some "android.view.View") none [])]
    layoutIds := byId [(1, "main")] }

/-- The first pass of a second run tells of no change, and hands over the widget of the first run. -/
theorem withInflater_pass : ∃ f s t, Available withInflater f ∧ Reached withInflater f s ∧
    pass withInflater s = (.ok false, t) ∧ 7 ∉ s.results 5 ∧ 7 ∈ t.results 5 := by
  have heval : (analyze withInflater).toOption.any (fun first =>
      let s := Request.classify.after withInflater { flowgraph := first.flowgraph }
      let r := pass withInflater s
      r.1.toOption = some false ∧ 7 ∉ s.results 5 ∧ 7 ∈ r.2.results 5) = true := by
    decide +kernel
  obtain ⟨first, hfirst, hk⟩ := exists_of_analyze heval
  obtain ⟨hp, hno, hyes⟩ := of_decide_eq_true hk
  obtain ⟨f, hf, hsolved⟩ := reached_of_analyze hfirst
  refine ⟨first.flowgraph, _, _, .solved (.built hf) hsolved, .request .start .classify, ?_, hno, hyes⟩
  rcases hpass : pass withInflater (Request.classify.after withInflater { flowgraph := first.flowgraph }) with ⟨e | b, t⟩
  · rw [hpass] at hp
    cases hp
  · rw [hpass] at hp
    cases hp
    rfl

end Example

namespace Solver

/-- The widget was inflated before, and the graph stays as it is. -/
theorem refreshed_withInflater : ∃ f s t, Available Example.withInflater f ∧ Reached Example.withInflater f s ∧
    pass Example.withInflater s = (.ok false, t) ∧ t.graph = s.graph ∧ ∃ l, s.Reusable ⟨5, l, none⟩ 7 := by
  obtain ⟨f, s, t, hf, hs, hp, hno, hyes⟩ := Example.withInflater_pass
  obtain ⟨hrefreshed, -⟩ := refreshed_of_pass hf hs hp
  refine ⟨f, s, t, hf, hs, hp, hrefreshed.graph, ?_⟩
  rcases (hrefreshed.solution 5 .result 7).mp hyes with h | ⟨-, h⟩
  · exact absurd h hno
  · exact h

/-- **A pass that tells of no change can change a solution.** -/
theorem pass_adds_result : ¬∀ c f s t, Available c f → Reached c f s → pass c s = (.ok false, t) →
    (∀ op slot, t.solution op slot = s.solution op slot) ∧ ∀ w, t.rootsOf w = s.rootsOf w := by
  obtain ⟨f, s, t, hf, hs, hp, hno, hyes⟩ := Example.withInflater_pass
  intro hall
  obtain ⟨hsame, -⟩ := hall _ f s t hf hs hp
  rw [results, hsame] at hyes
  exact hno hyes

end Solver

end WidgetFlow
