import WidgetFlow.Proofs.StrictInflating

/-!
# Strict and lenient solving

A solver in two modes. Each part of `solve` is gone through once: it moves by the steps of a lenient solver, and the
strict one differs from it only by ending at the first violation that was not reported before, where nothing but the mark
of this violation is different (`Solver.Stops`).

* `pass_mirrors`, `solve_mirrors`: passes and whole solutions;
* `analyze_modes`: strict and lenient analyses agree.
-/

namespace WidgetFlow

open Std Relation

namespace Solver

variable {α : Type} {c : Context} {s t u : Solver} {op n m child parent : NodeId} {slot : Slot} {p : Phase}

/-! ## Changes that report nothing -/

theorem addFitting_calm {objects : List NodeId} : Calm Anyhow (addFitting op slot objects) :=
  ⟨fun _ _ => .of_run rfl rfl trivial rfl⟩

theorem classifyResults_calm : Calm Anyhow classifyResults := by
  unfold classifyResults
  apply getGraph_calm.bind
  intro g
  apply Calm.each
  intro op
  dsimp only
  split
  · exact modify_calm (fun _ => rfl) fun _ => rfl
  · exact .pure

theorem seed_calm : Calm Anyhow seed := get_calm.bind fun _ => .each fun _ => addFitting_calm.discard

theorem propagate_calm : Calm Anyhow propagate := by
  unfold propagate
  apply get_calm.bind
  intro s
  apply Calm.foldlM
  rintro changed ⟨op, operands⟩
  apply get_calm.bind
  intro s'
  dsimp only
  split
  · exact .pure
  · exact .bind (.sweep fun _ => addFitting_calm) fun _ => .pure

theorem resolveFindView_calm {query : FindQuery} : Calm Anyhow (resolveFindView op query) :=
  get_calm.bind fun _ => addFitting_calm

theorem resolveFindInWindow_calm : Calm Anyhow (resolveFindInWindow op) :=
  get_calm.bind fun _ => resources_calm.bind fun _ => addFitting_calm

theorem resolveNavigate_calm {navigation : Navigation} : Calm Anyhow (resolveNavigate op navigation) :=
  get_calm.bind fun _ => addFitting_calm

theorem resolveSetRoot_calm : Calm Anyhow (resolveSetRoot op) := by
  unfold resolveSetRoot
  apply get_calm.bind
  intro s
  apply Calm.sweep
  intro window
  exact ⟨fun _ _ => .of_run rfl rfl trivial rfl⟩

theorem updateNode_calm {g : Node → Node} (hg : ∀ a : Node, (g a).kind = a.kind) : Calm Anyhow (updateNode n g) :=
  onFlowgraph_calm (Flowgraph.updateNode_calm fun a => hg a ▸ .refl _)

theorem resolveSetId_calm : Calm Anyhow (resolveSetId op) := by
  have hbind : ∀ id n, Calm Anyhow (bindId id n) := by
    intro id n
    unfold bindId
    apply getGraph_calm.bind
    intro g
    split
    · exact .bind (updateNode_calm fun _ => rfl) fun _ => .pure
    · exact .pure
  unfold resolveSetId
  apply get_calm.bind
  intro s
  split
  · exact .pure
  · refine .bind (.sweep (hbind _)) fun changed => ?_
    dsimp only
    split
    · exact .bind (logEntry_calm nofun) fun _ => .pure
    · exact .pure

theorem resolveSetText_calm : Calm Anyhow (resolveSetText op) := by
  unfold resolveSetText
  apply get_calm.bind
  intro s
  apply Calm.sweep
  intro n
  apply getGraph_calm.bind
  intro g
  exact .bind (updateNode_calm fun _ => rfl) fun _ => .pure

theorem resolveSetImage_calm : Calm Anyhow (resolveSetImage op) := by
  unfold resolveSetImage
  apply get_calm.bind
  intro s
  apply Calm.sweep
  intro n
  apply getGraph_calm.bind
  intro g
  exact .bind (updateNode_calm fun _ => rfl) fun _ => .pure

/-- What reports nothing moves by the steps that it makes in lenient mode. -/
theorem quiet_of_does {R T : Solver → Solver → Prop} {x : Refine α} {Q : α → Solver → Prop} (h : Calm T x)
    (hx : Does R (c.mode false) s x Q) : Quiet R c s x :=
  ⟨(h.run c s).blind, hx.moves, (h.run c s).silent⟩

theorem remark_quiet {r : Remark} {l : Option Label} : Quiet (Steps (c.mode false) p) c s (remark r l) :=
  quiet_of_does remark_calm logEntry_does

/-! ## Classification -/

/-- A violation is marked as reported. In lenient mode it is logged, and it ends a strict run. -/
theorem report_mirrors {R : Solver → Solver → Prop} {E : Fault → Solver → Solver → Prop} [IsPreorder Solver R]
    {x : Solve α} {a : α} {v : Violation} {l : Option Label} {reported rejected : ExtTreeSet Arc}
    (hx : ∀ strict, x (c.mode strict) s = (report v l *> pure a : Solve α) (c.mode strict)
      { s with reported := reported, rejected := rejected })
    (hR : ∀ log, R s { s with log := log, reported := reported, rejected := rejected })
    (hE : E ⟨v, l⟩ s { s with reported := reported, rejected := rejected }) : Mirrors R E c s x := by
  let marked : Solver := { s with reported := reported, rejected := rejected }
  let e : Log.Entry := { text := v.text, level := .error, location := l, source := some logSource }
  have h₁ : x (c.mode true) s = (.error ⟨v, l⟩, marked) := hx true
  have h₀ : x (c.mode false) s = (.ok a, { marked with log := s.log ++ [e] }) := hx false
  have he : errors { marked with log := s.log ++ [e] } = errors s ++ [e] := by
    show Log.errors (s.flowgraph.log ++ (s.log ++ [e])) = Log.errors (s.flowgraph.log ++ s.log) ++ [e]
    rw [← List.append_assoc, Log.errors_append]
    rfl
  have htells : e.TellsOf ⟨v, l⟩ := ⟨rfl, rfl⟩
  exact .of_error h₁ h₀ (hR _) he htells (refl_of (Still R) s) hE

theorem reportFlow_mirrors (h : s.graph.Refuses op n) :
    Mirrors (Steps (c.mode false) .classify) Stops c s (reportFlow n op) := by
  unfold reportFlow
  refine .read rfl rfl ?_
  split
  · exact .pure
  · rename_i hnew
    exact report_mirrors (fun strict => by cases strict <;> rfl) (fun _ => .single (report_step rfl h)) (.flow h hnew)

theorem classifyId_mirrors : Mirrors (Steps (c.mode false) .classify) Stops c s (classifyId n) := by
  unfold classifyId
  refine .read rfl rfl ?_
  split
  · rename_i i hi
    apply Mirrors.each
    intro x hx t h
    have hg := Steps.graph_classify h
    split
    · rename_i o ho
      split
      · rename_i hexp
        rw [Bool.and_eq_true, decide_eq_true_eq] at hexp
        obtain ⟨op, slot⟩ := x
        obtain rfl : slot = .parameter := hexp.1
        have htakes : t.graph.TakesId op n := by
          rw [hg]
          exact ⟨i, o, hi, ho, hx, hexp.2⟩
        exact .of_run rfl rfl (.single (.id htakes)) rfl
      · rename_i hexp
        rw [Bool.and_eq_true, decide_eq_true_eq] at hexp
        split
        · rename_i hign
          rw [Bool.not_eq_true', Bool.and_eq_false_imp, decide_eq_true_eq] at hign
          apply reportFlow_mirrors
          rw [hg]
          exact .inl ⟨i, o, x.slot, hi, ho, hx, hexp, fun h => by rw [hign h.1] at h; cases h.2⟩
        · exact .pure
    · exact .pure
  · exact .pure

theorem classifyObject_mirrors : Mirrors (Steps (c.mode false) .classify) Stops c s (classifyObject n) := by
  unfold classifyObject
  refine .read rfl rfl ?_
  split
  · rename_i object hobj
    apply Mirrors.each
    intro x hx t h
    have hg := Steps.graph_classify h
    split
    · rename_i o ho
      split
      · rename_i hexp
        have htakes : t.graph.TakesObject x n := by
          rw [hg]
          exact ⟨object, o, hobj, ho, hx, hexp⟩
        exact .of_run rfl rfl (.single (.candidate htakes)) rfl
      · rename_i hexp
        apply reportFlow_mirrors
        rw [hg]
        exact .inr ⟨object, o, x.slot, hobj, ho, hx, Bool.eq_false_iff.mpr hexp⟩
    · exact .pure
  · exact .pure

theorem classify_mirrors : Mirrors (Steps (c.mode false) .classify) Stops c s classify := by
  unfold classify
  refine .liftBind (quiet_of_does updateStatistics_calm (updateStatistics_does fun _ => rfl)) fun _ s₁ _ => ?_
  refine .read rfl rfl ?_
  refine .bind (.each fun _ _ _ _ => classifyId_mirrors) fun _ s₂ _ => ?_
  refine .bind (.each fun _ _ _ _ => classifyObject_mirrors) fun _ s₃ _ => ?_
  refine .liftBind (quiet_of_does classifyResults_calm classifyResults_does) fun _ s₄ _ => ?_
  exact .lift (quiet_of_does seed_calm (seed_does.mono (fun _ h => h.1) fun _ _ _ h => h))

/-! ## Resolution -/

theorem attach_mirrors {o : Op} (hs : Inv (c.mode false) s) (ho : s.graph.op? op = some o) (hk : o.kind = .addChild)
    (hc : child ∈ s.widgetParameters op) (hp : parent ∈ s.receivers op) :
    Mirrors (Steps (c.mode false) .resolve) Stops c s (attach op child parent) := by
  unfold attach
  refine .read rfl rfl ?_
  cases hn : s.graph.nest child parent with
  | ok result =>
    obtain ⟨g, added⟩ := result
    exact .of_run rfl rfl (.single (.nest ho hk hc hp hn)) rfl
  | error v =>
    dsimp only
    split
    · exact .pure
    · rename_i hnew
      exact report_mirrors (fun strict => by cases strict <;> rfl) (fun _ => .single (reject_step rfl (hs.spans hc hp)))
        (.containment ho hk hc hp hn hnew)

theorem resolveAddChild_mirrors {o : Op} (hs : Inv (c.mode false) s) (ho : s.graph.op? op = some o)
    (hk : o.kind = .addChild) :
    Mirrors (Steps (c.mode false) .resolve) Stops c s (resolveAddChild op) := by
  unfold resolveAddChild
  refine .read rfl rfl ?_
  apply Mirrors.sweep
  intro parent hp t h
  apply Mirrors.sweep
  intro child hc t' h'
  have hle := Steps.le (h.trans h')
  have hp' := hle.receivers (ExtTreeSet.mem_toList.mp hp)
  exact attach_mirrors (Steps.inv hs (h.trans h')) ((hle.op? op).trans ho) hk (hle.widgetParameters hc) hp'

theorem resolve_mirrors (hs : Inv (c.mode false) s) :
    Mirrors (Steps (c.mode false) .resolve) Stops c s (resolve op) := by
  cases ho : s.graph.op? op with
  | none =>
    unfold resolve
    refine .read rfl rfl ?_
    rw [ho]
    exact .pure
  | some o =>
    by_cases hk : o.kind = .addChild
    · unfold resolve
      refine .read rfl rfl ?_
      rw [ho]
      dsimp only
      rw [hk]
      exact resolveAddChild_mirrors hs ho hk
    · -- what remains reports nothing
      refine .of_still (T := Anyhow) ?_ fun a t h => ((resolve_tries hs ho).ok h).1
      unfold resolve
      refine .read rfl rfl ?_
      rw [ho]
      dsimp only
      split
      · exact .lift (resolveFindView_calm.run c s).still
      · exact .lift (resolveFindInWindow_calm.run c s).still
      · exact .lift (resolveNavigate_calm.run c s).still
      · exact .lift (resolveSetRoot_calm.run c s).still
      · rename_i h
        exact absurd h hk
      · exact .lift (resolveSetId_calm.run c s).still
      · exact .lift (resolveSetText_calm.run c s).still
      · exact .lift (resolveSetImage_calm.run c s).still
      all_goals exact .pure

theorem propagate_quiet (hs : Inv (c.mode false) s) : Quiet (Steps (c.mode false) .resolve) c s propagate :=
  quiet_of_does propagate_calm (propagate_does hs)

theorem resolveAll_mirrors {tag : OpTag} (hs : Inv (c.mode false) s) :
    Mirrors (Steps (c.mode false) .resolve) Stops c s (resolveAll tag) := by
  unfold resolveAll
  refine .read rfl rfl ?_
  refine .bind (.sweep fun op _ t h => resolve_mirrors (Steps.inv hs h)) fun _ t h => ?_
  exact .liftBind (propagate_quiet (Steps.inv hs h)) fun _ _ _ => .pure

/-! ## Registrations -/

theorem registrations_of_inflates (h : ReflTransGen (Inflates c) s t) :
    t.flowgraph.listeners.registrations = s.flowgraph.listeners.registrations := by
  induction h with
  | refl => rfl
  | tail _ h ih =>
    rw [← ih]
    cases h with
    | note | nest => rfl
    | widget _ h₁ _ h₂ => exact h₂.registrations.trans h₁.registrations

/-- A solver registers nothing. -/
theorem Step.registrations (h : Step c p s t) :
    t.flowgraph.listeners.registrations = s.flowgraph.listeners.registrations := by
  cases h with
  | note | settle | id | candidate | downstream | seed | propagate | find | root | nest | bindId | texts | drawables =>
    rfl
  | dispatch _ _ _ _ h => exact h.registrations
  | layout _ _ hin =>
    rw [finish_eq]
    exact (registrations_of_inflates hin :)
  | menu _ _ hin => exact (registrations_of_inflates hin :)
  | reuse => rw [flowgraph_deliver]

theorem Run.registrations (h : Run c s t) :
    t.flowgraph.listeners.registrations = s.flowgraph.listeners.registrations := by
  induction h with
  | refl => rfl
  | tail _ h ih => exact h.choose_spec.registrations.trans ih

/-- The registrations stay entered. -/
theorem Run.registered (h : Run c s t) (hs : s.flowgraph.Registered) : t.flowgraph.Registered := by
  have hle := Run.le h
  apply Flowgraph.registered_of _ hle.op? hs
  intro op
  apply Flowgraph.entered_mono
  · rw [hle.modelled]
    exact id
  · rw [Run.registrations h]
    exact id

/-- What a change of the flowgraph does in both modes, if it logs no error there. -/
theorem onBuild_mirrors {R : Solver → Solver → Prop} {E : Fault → Solver → Solver → Prop}
    {T : Flowgraph → Flowgraph → Prop} {F : Fault → Flowgraph → Flowgraph → Prop} {x : Build α}
    (h : Mirrors (Still T) F c s.flowgraph x) (hR : ∀ a t, onBuild x (c.mode false) s = (.ok a, t) → R s t) :
    Mirrors R E c s (onBuild x) := by
  obtain ⟨a, f, new, h₀, ⟨-, he⟩, hnew, hend⟩ := h
  have hlog : Log.errors f.log = Log.errors s.flowgraph.log := congrArg Prod.fst he
  obtain rfl : new = [] := List.self_eq_append_right.mp (hlog.symm.trans hnew.errors)
  have hlift : ∀ strict, x (c.mode strict) s.flowgraph = (.ok a, f) →
      onBuild x (c.mode strict) s = (.ok a, { s with flowgraph := f }) := by
    intro strict hx
    show ((x (c.mode strict) s.flowgraph).1, { s with flowgraph := (x (c.mode strict) s.flowgraph).2 }) = _
    rw [hx]
  refine .of_run (hlift true hend.1) (hlift false h₀) (hR a _ (hlift false h₀)) (Prod.ext ?_ rfl)
  show Log.errors (f.log ++ s.log) = Log.errors (s.flowgraph.log ++ s.log)
  rw [Log.errors_append, Log.errors_append, hlog]

theorem resolveSetListener_mirrors (hs : Inv (c.mode false) s) (hr : s.flowgraph.Registered) :
    Mirrors (Steps (c.mode false) .dispatch) Stops c s (resolveSetListener op) := by
  unfold resolveSetListener
  refine .read rfl rfl ?_
  apply Mirrors.sweep
  intro view hv t h
  apply Mirrors.sweep
  intro listener hl t' h'
  have hst := h.trans h'
  have hle := Steps.le hst
  have hl' := hle.listenersOf (ExtTreeSet.mem_toList.mp hl)
  have hv' := hle.receivers (ExtTreeSet.mem_toList.mp hv)
  -- a registration is entered, so the dispatch reports nothing
  obtain ⟨o, ho, htag⟩ := (Option.any_eq_true _ _).mp (mem_listenersOf.mp hl').1
  have hentered := Run.registered (Steps.run hst) hr op o ho (of_decide_eq_true htag)
  exact onBuild_mirrors (Flowgraph.dispatch_mirrors hentered) fun a u hu =>
    ((dispatch_tries (Steps.inv hs hst) hv' hl').ok hu).1

/-! ## Passes -/

/-- A run of a lenient solver, after which no flow waits to be classified if none did before. -/
structure Lasts (c : Context) (s t : Solver) : Prop where
  run : Run (c.mode false) s t
  settled : s.pending = false → t.pending = false

instance : IsPreorder Solver (Lasts c) where
  refl _ := ⟨.refl, id⟩
  trans _ _ _ h h' := ⟨h.run.trans h'.run, fun hs => h'.settled (h.settled hs)⟩

theorem lasts_classify (h : Steps (c.mode false) .classify s t) : Lasts c s t := ⟨Steps.run h, Steps.settled_classify h⟩

theorem lasts_resolve (h : Steps (c.mode false) .resolve s t) : Lasts c s t :=
  ⟨Steps.run h, fun hs => (Steps.flow_resolve h).2.trans hs⟩

theorem lasts_dispatch (h : Steps (c.mode false) .dispatch s t) : Lasts c s t :=
  ⟨Steps.run h, fun hs => (Steps.pending_dispatch h).trans hs⟩

/-- What a solver relies on in both modes. -/
structure Poised (c : Context) (s : Solver) : Prop where
  inv : Inv (c.mode false) s
  registered : s.flowgraph.Registered

theorem Poised.lasts (hs : Poised c s) (h : Lasts c s t) : Poised c t :=
  ⟨Run.inv hs.inv h.run, Run.registered h.run hs.registered⟩

theorem upTo_mirrors {R : Solver → Solver → Prop} {E : Fault → Solver → Solver → Prop} [IsPreorder Solver R]
    {round : Solve Bool} {k : Nat}
    (h : ∀ t, R s t → Mirrors R E c t round) : Mirrors R E c s (upTo round k) := by
  induction k generalizing s with
  | zero => exact .pure
  | succ k ih =>
    unfold upTo
    refine .bind (h s (refl_of R s)) fun again t hst => ?_
    split
    · exact ih fun u htu => h u (trans_of R hst htu)
    · exact .pure

theorem inflate_mirrors (hs : Inv (c.mode false) s) : Mirrors (Lasts c) Stops c s inflate := by
  refine .of_still (inflate_still hs.valid.closed.containment) fun a t h => ?_
  obtain ⟨hrun, -, t', -, -, rfl⟩ := (inflate_tries hs).ok h
  exact ⟨hrun, fun _ => rfl⟩

theorem inflateRound_mirrors (hs : Inv (c.mode false) s) : Mirrors (Lasts c) Stops c s inflateRound := by
  unfold inflateRound
  refine .bind (inflate_mirrors hs) fun flows t _ => ?_
  split
  · exact .bind (classify_mirrors.mono fun _ => lasts_classify) fun _ _ _ => .pure
  · exact .pure

theorem inflateAll_mirrors (hs : Inv (c.mode false) s) : Mirrors (Lasts c) Stops c s inflateAll := by
  unfold inflateAll
  refine .read rfl rfl (.read rfl rfl ?_)
  refine .bind (.discard (upTo_mirrors fun t h => inflateRound_mirrors (Run.inv hs h.run))) fun _ t _ => ?_
  exact .read rfl rfl .pure

theorem dispatchAll_mirrors (hs : Poised c s) : Mirrors (Lasts c) Stops c s dispatchAll := by
  unfold dispatchAll
  refine .read rfl rfl ?_
  refine .bind (.sweep fun op _ t h => ?_) fun flows t h => ?_
  · have ht := hs.lasts h
    exact (resolveSetListener_mirrors ht.inv ht.registered).mono fun _ => lasts_dispatch
  · exact .liftBind ((propagate_quiet (hs.lasts h).inv).mono fun _ => lasts_resolve) fun _ _ _ => .pure

theorem resolveOnce_mirrors (hs : Poised c s) : Mirrors (Lasts c) Stops c s resolveOnce := by
  unfold resolveOnce
  have hcount : Quiet (Steps (c.mode false) .resolve) c s
      (updateStatistics fun t => { t with passes := t.passes + 1 }) :=
    quiet_of_does updateStatistics_calm (updateStatistics_does fun _ => rfl)
  refine .liftBind (hcount.mono fun _ => lasts_resolve) fun _ s₁ h₁ => ?_
  have hs₁ := hs.lasts h₁
  refine .liftBind ((propagate_quiet hs₁.inv).mono fun _ => lasts_resolve) fun _ s₂ h₂ => ?_
  have hs₂ := hs₁.lasts h₂
  refine .bind (.sweep fun tag _ t h => ?_) fun _ s₃ h₃ => ?_
  · exact (resolveAll_mirrors (hs₂.lasts h).inv).mono fun _ => lasts_resolve
  refine .bind (dispatchAll_mirrors (hs₂.lasts h₃)) fun _ s₄ _ => ?_
  dsimp only
  split
  · exact .bind (classify_mirrors.mono fun _ => lasts_classify) fun _ _ _ => .pure
  · exact .pure

theorem pass_mirrors (hs : Poised c s) : Mirrors (Lasts c) Stops c s pass := by
  unfold pass
  refine .bind (resolveOnce_mirrors hs) fun b s₁ h₁ => ?_
  have hs₁ := hs.lasts h₁
  refine .bind (inflateAll_mirrors hs₁.inv) fun inflated s₂ h₂ => ?_
  dsimp only
  split
  · exact .liftBind ((propagate_quiet (hs₁.lasts h₂).inv).discard.mono fun _ => lasts_resolve) fun _ _ _ => .pure
  · exact .pure

/-- **Solving is the same in both modes up to the first violation.** -/
theorem solve_mirrors (hs : Poised c s) : Mirrors (Lasts c) Stops c s solve := by
  unfold solve solveClassified
  refine .bind (classify_mirrors.mono fun _ => lasts_classify) fun _ s₁ h₁ => ?_
  have hs₁ := hs.lasts h₁
  refine .bind (inflateAll_mirrors hs₁.inv).discard fun _ s₂ h₂ => ?_
  have hs₂ := hs₁.lasts h₂
  refine .read rfl rfl ?_
  refine .bind (.discard (upTo_mirrors fun t h => pass_mirrors (hs₂.lasts h))) fun _ s₃ _ => ?_
  refine .read rfl rfl ?_
  exact .lift (remark_quiet.mono fun _ => lasts_resolve)

end Solver

/-! ## Analyses -/

namespace Flowgraph

variable {c : Context}

theorem build_of_run {f : Flowgraph} (h : construct c {} = (.ok (), f)) : build c = .ok f := by
  unfold build
  rw [ExceptT.run, StateT.run, h]

theorem build_of_fault {f : Flowgraph} {fault : Fault} (h : construct c {} = (.error fault, f)) :
    build c = .error fault := by
  unfold build
  rw [ExceptT.run, StateT.run, h]

/-- A lenient construction never fails, and a strict one fails with its first error. -/
theorem build_modes : ∃ f, build (c.mode false) = .ok f ∧ f.Registered ∧
    match errors f with
    | [] => build (c.mode true) = .ok f
    | e :: _ => ∃ fault, build (c.mode true) = .error fault ∧ e.TellsOf fault := by
  obtain ⟨⟨⟩, f, new, h₀, hkeeps, he, hend⟩ := construct_fair.run c {}
  have herrors : errors f = new := he.errors
  refine ⟨f, build_of_run h₀, hkeeps.registered ?_, ?_⟩
  · intro op o ho
    cases ho
  · rw [herrors]
    cases new with
    | nil => exact build_of_run hend.1
    | cons e new =>
      obtain ⟨fault, t', u, h₁, htells, -⟩ := hend
      exact ⟨fault, build_of_fault h₁, htells⟩

/-- Whatever the mode, the registrations are entered. -/
theorem registered_of_build {f : Flowgraph} (h : build c = .ok f) : f.Registered := by
  obtain ⟨f', h₀, hreg, hmode⟩ := build_modes (c := c)
  have hc := c.mode_strict
  cases hstrict : c.settings.strict with
  | false =>
    rw [hstrict] at hc
    rw [hc, h] at h₀
    cases h₀
    exact hreg
  | true =>
    rw [hstrict] at hc
    rw [hc] at hmode
    split at hmode
    · rw [h] at hmode
      cases hmode
      exact hreg
    · obtain ⟨fault, h₁, -⟩ := hmode
      rw [h] at h₁
      cases h₁

end Flowgraph

namespace Solver

variable {c : Context}

theorem analyze_of_build {fault : Fault} (h : Flowgraph.build c = .error fault) : analyze c = .error fault := by
  unfold analyze
  rw [h]

theorem analyze_of_solve {f : Flowgraph} {s : Solver} {fault : Fault} (hf : Flowgraph.build c = .ok f)
    (h : solve c { flowgraph := f } = (.error fault, s)) : analyze c = .error fault := by
  unfold analyze
  rw [hf]
  dsimp only
  rw [ExceptT.run, StateT.run, h]

/-- A lenient analysis never fails, and a strict one fails with its first error. -/
theorem analyze_errors : ∃ s, analyze (c.mode false) = .ok s ∧
    match errors s with
    | [] => analyze (c.mode true) = .ok s
    | e :: _ => ∃ fault, analyze (c.mode true) = .error fault ∧ e.TellsOf fault := by
  obtain ⟨f, hf, hreg, hbuild⟩ := Flowgraph.build_modes (c := c)
  have hpoised : Poised c { flowgraph := f } := ⟨inv_init (Flowgraph.sound_of_build hf), hreg⟩
  obtain ⟨⟨⟩, s, more, h₀, -, he, hend⟩ := solve_mirrors hpoised
  have herrors : errors s = errors f ++ more := by
    rw [he.errors]
    show Log.errors (f.log ++ []) ++ more = _
    rw [List.append_nil]
    rfl
  refine ⟨s, analyze_eq_ok.mpr ⟨f, hf, h₀⟩, ?_⟩
  rw [herrors]
  -- the errors of the construction come first
  cases hnew : errors f with
  | nil =>
    rw [hnew] at hbuild
    cases more with
    | nil => exact analyze_eq_ok.mpr ⟨f, hbuild, hend.1⟩
    | cons e more =>
      obtain ⟨fault, t', u, h₁, htells, -⟩ := hend
      exact ⟨fault, analyze_of_solve hbuild h₁, htells⟩
  | cons e new =>
    rw [hnew] at hbuild
    obtain ⟨fault, hfault, htells⟩ := hbuild
    exact ⟨fault, analyze_of_build hfault, htells⟩

/-- There are no errors if none is in the log that is taken. -/
theorem errors_eq_nil_iff {s : Solver} : errors s = [] ↔ ∀ e ∈ (takeLog c s).1, e.level ≠ .error := by
  show (takeLog c s).1.filter (·.level = .error) = [] ↔ _
  simp

/-- The first error is the first one in the log that is taken. -/
theorem find?_takeLog {s : Solver} {e : Log.Entry} {more : List Log.Entry} (h : errors s = e :: more) :
    (takeLog c s).1.find? (·.level = .error) = some e := by
  have hfilter : (takeLog c s).1.filter (·.level = .error) = e :: more := h
  rw [← List.head?_filter, hfilter]
  rfl

/-- **Strict and lenient analyses agree.** A lenient analysis always ends with a solver. The strict one ends with a
solver if and only if there is no error in the log of the lenient one, and then it is the same solver. Otherwise its
message is the text of the first error in that log, with the id of the place of the error. -/
theorem analyze_modes (c : Context) : ∃ s, analyze (c.mode false) = .ok s ∧
    (∀ s', analyze (c.mode true) = .ok s' ↔ s' = s ∧ ∀ e ∈ (takeLog (c.mode false) s).1, e.level ≠ .error) ∧
    ∀ fault, analyze (c.mode true) = .error fault →
      ∃ e, (takeLog (c.mode false) s).1.find? (·.level = .error) = some e ∧ fault.message = e.message := by
  obtain ⟨s, hs, hmode⟩ := analyze_errors (c := c)
  refine ⟨s, hs, ?_⟩
  simp only [← errors_eq_nil_iff]
  cases herrors : errors s with
  | nil =>
    rw [herrors] at hmode
    rw [hmode]
    constructor
    · intro s'
      constructor
      · rintro ⟨⟩
        exact ⟨rfl, rfl⟩
      · rintro ⟨rfl, -⟩
        rfl
    · intro fault h
      cases h
  | cons e more =>
    rw [herrors] at hmode
    obtain ⟨fault, hfault, htells⟩ := hmode
    rw [hfault]
    constructor
    · intro s'
      constructor
      · intro h
        cases h
      · rintro ⟨-, h⟩
        cases h
    · rintro _ ⟨⟩
      exact ⟨e, find?_takeLog herrors, htells.message_eq⟩

end Solver

end WidgetFlow
