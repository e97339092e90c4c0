import WidgetFlow.Proofs.Progress

/-!
# Classification follows the steps

`classify` leaves everything classified (`Solver.Classified`): the ids, objects and results are where flow brings them,
what fits is part of the solutions, and every value that an operation does not expect was reported. A strict solver ends
at its first report, so if nothing was reported before there is none.

A step that adds no flow leaves everything classified (`Classified.of_keepsFlow`), for a new node has nowhere to go.
-/

namespace WidgetFlow

open Std Relation Flowgraph

namespace Solver

variable {s t u : Solver} {c : Context} {op n m l w v : NodeId} {x : Operand} {slot : Slot} {p : Phase}

/-! ## Violations -/

/-- There is something that a strict solver does not accept. -/
inductive Violated (c : Context) (s : Solver) : Prop
  | id {op n : NodeId} (h : s.graph.RefusesId op n)
  | object {op n : NodeId} (h : s.graph.RefusesObject op n)
  | containment {op child parent : NodeId} {o : Op} {v : Violation} (ho : s.graph.op? op = some o)
      (hk : o.kind = .addChild) (hc : child ∈ s.widgetParameters op) (hp : parent ∈ s.receivers op)
      (h : s.graph.nest child parent = .error v)
  | dispatch {op view listener : NodeId} (hv : view ∈ s.receivers op) (hl : listener ∈ s.listenersOf op)
      (hm : op ∉ s.flowgraph.listeners.modelled) (hd : (op, view, listener) ∉ s.flowgraph.listeners.dispatched)
  | inflation {key : InflationKey} (hdue : s.LayoutDue key ∨ s.MenuDue key)
      (hnew : s.flowgraph.inflations[key]? = none)

/-- A strict solver fails because of something in `s`. -/
def Fails (c : Context) (s _t : Solver) : Prop := c.settings.strict = true ∧ Violated c s

/-- A relation that keeps a part of the solver. -/
def Keeping {β : Type} (f : Solver → β) (R : Solver → Solver → Prop) (s t : Solver) : Prop := R s t ∧ f t = f s

instance {β : Type} {f : Solver → β} {R : Solver → Solver → Prop} [IsPreorder Solver R] :
    IsPreorder Solver (Keeping f R) where
  refl s := ⟨refl_of R s, rfl⟩
  trans _ _ _ h h' := ⟨trans_of R h.1 h'.1, h'.2.trans h.2⟩

theorem note_step {log : List Log.Entry} {statistics : Statistics}
    (hi : statistics.inflated = s.statistics.inflated) :
    Step c p s { s with log := log, statistics := statistics } :=
  .note hi (fun _ => ⟨rfl, rfl⟩) ⟨fun _ h => h, fun _ h => h⟩ ⟨fun _ h => .inl h, fun _ h => .inl h⟩

theorem updateStatistics_does {change : Statistics → Statistics} (h : ∀ t, (change t).inflated = t.inflated) :
    Does (Steps c p) c s (updateStatistics change) fun _ t => t = { s with statistics := change s.statistics } :=
  .of_run rfl (.single (note_step (h _))) rfl

theorem logEntry_does {level : Log.Level} {text : String} {location : Option Label} :
    Does (Steps c p) c s (logEntry level text location) fun _ t => s.Same t :=
  .of_run rfl (.single (note_step rfl)) ⟨rfl, rfl, rfl, rfl, fun _ _ => rfl, fun _ => rfl⟩

theorem report_strict {v : Violation} {location : Option Label} (h : c.settings.strict = true) :
    report v location c s = (.error ⟨v, location⟩, s) := by
  have hread : (read : Solve Context) c s = (.ok c, s) := rfl
  unfold report
  rw [bind_run_ok hread, if_pos h]
  rfl

theorem report_lenient {v : Violation} {location : Option Label} (h : c.settings.strict = false) :
    report v location c s = (.ok (), (logEntry .error v.text location c s).2) := by
  have hread : (read : Solve Context) c s = (.ok c, s) := rfl
  unfold report
  rw [bind_run_ok hread, if_neg (by rw [h]; nofun)]
  rfl

/-! ## Solutions -/

/-- The kind of the facts about a slot. -/
def factOf : Slot → FactKind
  | .receiver => .receiver
  | .parameter => .parameter
  | .result => .result

theorem holds_fact : s.holds op n (factOf slot) = decide (n ∈ s.solution op slot) := by cases slot <;> rfl

/-- Nodes that are there already change nothing. -/
theorem same_addSolutions {ns : List NodeId} (h : ∀ n ∈ ns, n ∈ s.solution x.op x.slot) :
    s.Same (s.addSolutions x ns) := by
  refine ⟨rfl, rfl, rfl, rfl, fun op slot => ExtTreeSet.ext_mem fun n => ?_, fun _ => rfl⟩
  rw [mem_solution_addSolutions]
  constructor
  · rintro (⟨rfl, hn⟩ | hn)
    · exact h n hn
    · exact hn
  · exact .inr

/-- What `addFitting` adds, whatever the step is called. -/
theorem addFitting_does {R : Solver → Solver → Prop} {objects : List NodeId} (hop : op < s.graph.size)
    (hR : R s (s.addSolutions ⟨op, slot⟩ (objects.filter (accepts c.project.program s.graph ⟨op, slot⟩)))) :
    Does R c s (addFitting op slot objects) fun b t => Reports b s t ∧
      ∀ n ∈ objects, accepts c.project.program t.graph ⟨op, slot⟩ n = true → n ∈ t.solution op slot := by
  refine .of_run rfl hR ⟨⟨fun hb => ?_, fun hb => ?_⟩, fun n hn ha => ?_⟩
  · obtain ⟨n, hn, hnew⟩ := List.any_eq_true.mp hb
    obtain ⟨o, ho⟩ := object?_of_accepts (List.mem_filter.mp hn).2
    refine ⟨op, n, factOf slot, hop, Graph.object?_lt ho, ?_, ?_⟩
    · rw [holds_fact]
      exact decide_eq_true (mem_solution_addSolutions.mpr (.inl ⟨rfl, hn⟩))
    · rw [holds_fact]
      refine decide_eq_false fun hm => ?_
      rw [ExtTreeSet.contains_iff_mem.mpr hm] at hnew
      cases hnew
  · refine same_addSolutions fun n hn => ?_
    have := List.any_eq_false.mp hb n hn
    rw [Bool.not_eq_true', Bool.not_eq_false] at this
    exact ExtTreeSet.contains_iff_mem.mp this
  · exact mem_solution_addSolutions.mpr (.inl ⟨rfl, List.mem_filter.mpr ⟨hn, ha⟩⟩)

/-! ## What flow reaches -/

theorem Steps.flowgraph_classify (h : Steps c .classify s t) : t.flowgraph = s.flowgraph := by
  induction h with
  | refl => rfl
  | tail _ h ih => exact h.flowgraph_classify.trans ih

theorem Steps.graph_classify (h : Steps c .classify s t) : t.graph = s.graph :=
  congrArg Flowgraph.graph h.flowgraph_classify

theorem report_step {log : List Log.Entry} (h : c.settings.strict = false) (hr : s.graph.Refuses op n) :
    Step c p s { s with log := log, reported := s.reported.insert ⟨n, op⟩ } := by
  refine .note rfl (by rw [h]; nofun) ⟨fun _ h => Container.mem_insert.mpr (.inr h), fun _ h => h⟩
    ⟨fun a ha => ?_, fun _ h => .inl h⟩
  exact (Container.mem_insert.mp ha).elim (fun ha => .inr (ha ▸ hr.spans)) .inl

/-- A strict solver does not survive a report, unless the flow was reported before. -/
theorem reportFlow_tries (h : s.graph.Refuses op n) :
    Tries (Steps c .classify) (Fails c) c s (reportFlow n op) fun _ t => ⟨n, op⟩ ∈ t.reported := by
  unfold reportFlow
  refine .read rfl ?_
  split
  · rename_i hm
    exact .pure hm
  · have hset : (set { s with reported := s.reported.insert ⟨n, op⟩ } : Solve Unit) c s
        = (.ok (), { s with reported := s.reported.insert ⟨n, op⟩ }) := rfl
    cases hstrict : c.settings.strict with
    | true =>
      exact .of_error ((bind_run_ok hset).trans (report_strict hstrict)) .refl ⟨hstrict, h.elim .id .object⟩
    | false =>
      refine .of_ok ((bind_run_ok hset).trans (report_lenient hstrict)) (.single (report_step hstrict h))
        (Container.mem_insert.mpr (.inl rfl))

theorem classifyId_tries : Tries (Steps c .classify) (Fails c) c s (classifyId n) fun _ t =>
    (∀ op, s.graph.TakesId op n → n ∈ t.idsOf op) ∧ (∀ op, s.graph.RefusesId op n → ⟨n, op⟩ ∈ t.reported) := by
  unfold classifyId
  refine .read rfl ?_
  split
  · rename_i i hi
    -- what is left behind by each operand
    let P (x : Operand) (t : Solver) : Prop := ∀ o, s.graph.op? x.op = some o →
      (x.slot = .parameter ∧ o.kind.expectsId i.space = true → n ∈ t.idsOf x.op) ∧
      (x.slot = .parameter ∧ o.kind.expectsId i.space = true ∨ x.slot = .parameter ∧ o.kind.ignoresId i.space = true
        ∨ ⟨n, x.op⟩ ∈ t.reported)
    refine (Tries.forM (P := P) (fun x _ t u h hP o ho => ?_) fun x hx t h => ?_).imp fun _ t _ hall => ⟨?_, ?_⟩
    · exact ⟨fun he => (Steps.le h).ids _ _ ((hP o ho).1 he),
        (hP o ho).2.imp_right fun hP => hP.imp_right ((Steps.le h).reported _)⟩
    · have hg := Steps.graph_classify h
      split
      · rename_i o ho
        have huniq : ∀ {o'}, s.graph.op? x.op = some o' → o' = o := fun h => Option.some.inj (h.symm.trans ho)
        split
        · rename_i hexp
          rw [Bool.and_eq_true, decide_eq_true_eq] at hexp
          obtain ⟨op, slot⟩ := x
          obtain rfl : slot = .parameter := hexp.1
          refine .of_ok rfl (.single (.id (?_ : t.graph.TakesId op n))) fun o' ho' => ⟨fun _ => ?_, ?_⟩
          · rw [hg]
            exact ⟨i, o, hi, ho, hx, hexp.2⟩
          · exact mem_idsOf_addId.mpr (.inl ⟨rfl, rfl⟩)
          · rw [huniq ho']
            exact .inl hexp
        · rename_i hexp
          rw [Bool.and_eq_true, decide_eq_true_eq] at hexp
          split
          · rename_i hign
            rw [Bool.not_eq_true', Bool.and_eq_false_imp, decide_eq_true_eq] at hign
            have href : s.graph.RefusesId x.op n :=
              ⟨i, o, x.slot, hi, ho, hx, hexp, fun h => by rw [hign h.1] at h; cases h.2⟩
            refine (reportFlow_tries (.inl (by rw [hg]; exact href))).imp
              fun _ u _ hm o' ho' => ⟨fun he => ?_, .inr (.inr hm)⟩
            rw [huniq ho'] at he
            exact absurd he hexp
          · rename_i hign
            rw [Bool.not_eq_true', Bool.not_eq_false, Bool.and_eq_true, decide_eq_true_eq] at hign
            refine .pure fun o' ho' => ⟨fun he => ?_, ?_⟩
            · rw [huniq ho'] at he
              exact absurd he hexp
            · rw [huniq ho']
              exact .inr (.inl hign)
      · rename_i hnone
        exact .pure fun o ho => absurd ho (hnone o)
    · rintro op ⟨i', o, hi', ho, hr, he⟩
      obtain rfl : i' = i := Option.some.inj (hi'.symm.trans hi)
      exact (hall _ hr o ho).1 ⟨rfl, he⟩
    · rintro op ⟨i', o, slot, hi', ho, hr, he, hg⟩
      obtain rfl : i' = i := Option.some.inj (hi'.symm.trans hi)
      exact ((hall _ hr o ho).2.resolve_left he).resolve_left hg
  · rename_i hnone
    refine .pure ⟨?_, ?_⟩
    · rintro op ⟨i, o, hi, _⟩
      exact absurd hi (hnone i)
    · rintro op ⟨i, o, slot, hi, _⟩
      exact absurd hi (hnone i)

theorem classifyObject_tries : Tries (Steps c .classify) (Fails c) c s (classifyObject n) fun _ t =>
    (∀ x, s.graph.TakesObject x n → n ∈ t.candidatesOf x) ∧
    (∀ op, s.graph.RefusesObject op n → ⟨n, op⟩ ∈ t.reported) := by
  unfold classifyObject
  refine .read rfl ?_
  split
  · rename_i object hobj
    let P (x : Operand) (t : Solver) : Prop := ∀ o, s.graph.op? x.op = some o →
      (o.kind.expects x.slot object = true → n ∈ t.candidatesOf x) ∧
      (o.kind.expects x.slot object = false → ⟨n, x.op⟩ ∈ t.reported)
    refine (Tries.forM (P := P) (fun x _ t u h hP o ho => ?_) fun x hx t h => ?_).imp fun _ t _ hall => ⟨?_, ?_⟩
    · exact ⟨fun he => (Steps.le h).candidates _ _ ((hP o ho).1 he), fun he => (Steps.le h).reported _ ((hP o ho).2 he)⟩
    · have hg := Steps.graph_classify h
      split
      · rename_i o ho
        have huniq : ∀ {o'}, s.graph.op? x.op = some o' → o' = o := fun h => Option.some.inj (h.symm.trans ho)
        split
        · rename_i hexp
          refine .of_ok rfl (.single (.candidate (x := x) (n := n) ?_)) fun o' ho' => ⟨fun _ => ?_, fun he => ?_⟩
          · rw [hg]
            exact ⟨object, o, hobj, ho, hx, hexp⟩
          · exact mem_candidatesOf_addCandidate.mpr (.inl ⟨rfl, rfl⟩)
          · rw [huniq ho', hexp] at he
            cases he
        · rename_i hexp
          have href : s.graph.RefusesObject x.op n := ⟨object, o, x.slot, hobj, ho, hx, Bool.eq_false_iff.mpr hexp⟩
          refine (reportFlow_tries (.inr (by rw [hg]; exact href))).imp fun _ u _ hm o' ho' => ⟨fun he => ?_, fun _ => hm⟩
          rw [huniq ho'] at he
          exact absurd he hexp
      · rename_i hnone
        exact .pure fun o ho => absurd ho (hnone o)
    · rintro x ⟨object', o, hobj', ho, hr, he⟩
      obtain rfl : object' = object := Option.some.inj (hobj'.symm.trans hobj)
      exact (hall _ hr o ho).1 he
    · rintro op ⟨object', o, slot, hobj', ho, hr, he⟩
      obtain rfl : object' = object := Option.some.inj (hobj'.symm.trans hobj)
      exact (hall _ hr o ho).2 he
  · rename_i hnone
    refine .pure ⟨?_, ?_⟩
    · rintro x ⟨object, o, hobj, _⟩
      exact absurd hobj (hnone object)
    · rintro op ⟨object, o, slot, hobj, _⟩
      exact absurd hobj (hnone object)

theorem classifyResults_does : Does (Steps c .classify) c s classifyResults fun _ t =>
    ∀ op, s.graph.isOp op = true → ∀ x ∈ s.graph.operandsReached op, x ∈ t.downstreamOf op := by
  unfold classifyResults
  refine .read rfl ?_
  refine (Does.forM (P := fun op t => ∀ x ∈ s.graph.operandsReached op, x ∈ t.downstreamOf op)
    (fun op _ t u h hP x hx => (Steps.le h).downstream _ _ (hP x hx)) fun op hop t h => ?_).imp
    fun _ t _ hall op hop => hall op (Graph.mem_ops.mpr (Option.isSome_iff_exists.mp hop))
  have hg := Steps.graph_classify h
  have hop : s.graph.isOp op = true := Option.isSome_iff_exists.mpr (Graph.mem_ops.mp hop)
  dsimp only
  split
  · refine .of_run rfl (.single (.downstream (?_ : t.graph.isOp op = true)
      (?_ : ∀ x ∈ s.graph.operandsReached op, x ∈ t.graph.operandsReached op))) fun x hx => ?_
    · rw [hg]
      exact hop
    · rw [hg]
      exact fun _ h => h
    · exact mem_downstreamOf_addDownstream.mpr (.inl ⟨rfl, hx⟩)
  · rename_i hempty
    refine .pure fun x hx => ?_
    rw [Bool.not_eq_true', Bool.not_eq_false, List.isEmpty_iff] at hempty
    rw [hempty] at hx
    cases hx

theorem seed_does : Does (Keeping Solver.candidates (Steps c .classify)) c s seed fun _ t =>
    ∀ x, ∀ n ∈ t.candidatesOf x, accepts c.project.program t.graph x n = true → n ∈ t.solution x.op x.slot := by
  unfold seed
  refine .read rfl ?_
  refine (Does.forM (P := fun (e : Operand × NodeSet) t => ∀ n ∈ e.2,
    accepts c.project.program s.graph e.1 n = true → n ∈ t.solution e.1.op e.1.slot)
    (fun e _ t u h hP n hn ha => (Steps.le h.1).solution _ _ _ (hP n hn ha)) fun e he t h => ?_).imp
    fun _ t h hall x n hn ha => ?_
  · have hg := Steps.graph_classify h.1
    obtain ⟨x, objects⟩ := e
    have hx : x ∈ t.candidates := by
      rw [h.2]
      exact ExtTreeMap.mem_iff_isSome_getElem?.mpr (by rw [ExtTreeMap.mem_toList_iff_getElem?_eq_some.mp he]; rfl)
    refine .of_run rfl ⟨.single (.seed (x := x) (fun n hn => ?_) hx), rfl⟩ fun n hn ha => ?_
    · obtain ⟨hn, ha⟩ := List.mem_filter.mp hn
      refine ⟨ha, ?_⟩
      rw [candidatesOf, h.2, ExtTreeMap.getD_eq_getD_getElem?, ExtTreeMap.mem_toList_iff_getElem?_eq_some.mp he]
      exact ExtTreeSet.mem_toList.mp hn
    · refine mem_solution_addSolutions.mpr (.inl ⟨rfl, List.mem_filter.mpr ⟨ExtTreeSet.mem_toList.mpr hn, ?_⟩⟩)
      rw [hg]
      exact ha
  · rw [candidatesOf, h.2, ExtTreeMap.getD_eq_getD_getElem?] at hn
    rw [Steps.graph_classify h.1] at ha
    cases hx : s.candidates[x]? with
    | none =>
      rw [hx] at hn
      simp at hn
    | some objects =>
      rw [hx] at hn
      exact hall (x, objects) (ExtTreeMap.mem_toList_iff_getElem?_eq_some.mpr hx) n hn ha

/-! ## Everything classified -/

/-- Ids, objects and results are where flow brings them, what fits is part of the solutions, and what is not expected was
reported. -/
structure Classified (c : Context) (s : Solver) : Prop where
  ids : ∀ op n, s.graph.TakesId op n → n ∈ s.idsOf op
  objects : ∀ x n, s.graph.TakesObject x n → n ∈ s.candidatesOf x
  results : ∀ op x, s.graph.isOp op = true → x ∈ s.graph.operandsReached op → x ∈ s.downstreamOf op
  seeded : ∀ x, ∀ n ∈ s.candidatesOf x, accepts c.project.program s.graph x n = true → n ∈ s.solution x.op x.slot
  marked : ∀ op n, s.graph.Refuses op n → ⟨n, op⟩ ∈ s.reported

/-- A strict solver that has not failed before finds nothing unexpected. -/
theorem Classified.expected (h : Classified c s) (hs : Inv c s) (hstrict : c.settings.strict = true) :
    ¬s.graph.Refuses op n := by
  intro hr
  have hm := h.marked op n hr
  rw [(hs.clean hstrict).1] at hm
  simp at hm

/-- **Classification.** -/
theorem classify_tries :
    Tries (Steps c .classify) (Fails c) c s classify fun _ t => Classified c t := by
  unfold classify
  refine .liftBind (updateStatistics_does fun _ => rfl) fun _ t₁ h₁ ht₁ => ?_
  refine .read rfl ?_
  refine .bind (Q := fun _ t => ∀ n ∈ t₁.graph.resourceIds, (∀ op, t₁.graph.TakesId op n → n ∈ t.idsOf op) ∧
    (∀ op, t₁.graph.RefusesId op n → ⟨n, op⟩ ∈ t.reported)) ?_ fun _ t₂ h₂ hids => ?_
  · refine .forM (fun n _ t u h hP => ⟨fun op hn => (Steps.le h).ids _ _ (hP.1 op hn),
      fun op hn => (Steps.le h).reported _ (hP.2 op hn)⟩) fun n _ t h => ?_
    have := classifyId_tries (c := c) (s := t) (n := n)
    rw [Steps.graph_classify h] at this
    exact this
  refine .bind (Q := fun _ t => ∀ n ∈ t₁.graph.objects, (∀ x, t₁.graph.TakesObject x n → n ∈ t.candidatesOf x) ∧
    (∀ op, t₁.graph.RefusesObject op n → ⟨n, op⟩ ∈ t.reported)) ?_ fun _ t₃ h₃ hobjects => ?_
  · refine .forM (fun n _ t u h hP => ⟨fun x hn => (Steps.le h).candidates _ _ (hP.1 x hn),
      fun op hn => (Steps.le h).reported _ (hP.2 op hn)⟩) fun n _ t h => ?_
    have := classifyObject_tries (c := c) (s := t) (n := n)
    rw [Steps.graph_classify (h₂.trans h)] at this
    exact this
  refine .liftBind classifyResults_does fun _ t₄ h₄ hresults => ?_
  refine .lift (seed_does.mono (fun _ h => h.1) fun _ t₅ h₅ hseed => ?_)
  have hg : t₅.graph = t₁.graph := Steps.graph_classify (h₂.trans (h₃.trans (h₄.trans h₅.1)))
  have hle := Steps.le h₅.1
  refine ⟨fun op n h => ?_, fun x n h => ?_, fun op x ho hx => ?_, hseed, fun op n h => ?_⟩
  · rw [hg] at h
    have ⟨i, _, hi, _⟩ := h
    exact (Steps.le (h₃.trans (h₄.trans h₅.1))).ids _ _ ((hids n (Graph.mem_resourceIds.mpr ⟨i, hi⟩)).1 op h)
  · rw [hg] at h
    have ⟨o, _, ho, _⟩ := h
    exact (Steps.le (h₄.trans h₅.1)).candidates _ _ ((hobjects n (Graph.mem_objects.mpr ⟨o, ho⟩)).1 x h)
  · rw [hg, ← Steps.graph_classify (h₂.trans h₃)] at ho hx
    exact hle.downstream _ _ (hresults op ho x hx)
  · rw [hg] at h
    rcases h with h | h
    · have ⟨i, _, _, hi, _⟩ := h
      exact (Steps.le (h₃.trans (h₄.trans h₅.1))).reported _ ((hids n (Graph.mem_resourceIds.mpr ⟨i, hi⟩)).2 op h)
    · have ⟨o, _, _, ho, _⟩ := h
      exact (Steps.le (h₄.trans h₅.1)).reported _ ((hobjects n (Graph.mem_objects.mpr ⟨o, ho⟩)).2 op h)

/-! ## Nothing to classify -/

end Solver

namespace Graph.KeepsFlow

variable {g g' : Graph} {n op : NodeId} {x : Operand}

/-- Without new flow, no operand is reached that was not reached before. -/
theorem operandsReached (h : g.KeepsFlow g') (hg : g.Closed) (hx : x ∈ g'.operandsReached n) :
    x ∈ g.operandsReached n := by
  obtain ⟨hne, hf, hslot, o, y, ho, hy, hfy⟩ := mem_operandsReached.mp hx
  exact mem_operandsReached.mpr ⟨hne, h.forward hg hf, hslot, o, y, h.op? _ o ho, hy, h.forward hg hfy⟩

/-- A node that reaches an operand is not new. -/
theorem lt_of_operandsReached (h : g.KeepsFlow g') (hg : g.Closed) (hx : x ∈ g'.operandsReached n) : n < g.size := by
  obtain ⟨hne, hf, _⟩ := mem_operandsReached.mp (h.operandsReached hg hx)
  rcases (mem_forward.mp hf).exists_next with he | ⟨m, hm⟩
  · exact absurd he hne
  · exact (hg.flow _ (mem_successors.mp hm)).1

end Graph.KeepsFlow

namespace Solver

variable {s t : Solver} {c : Context}

/-- Without new flow, everything stays classified. -/
theorem Classified.of_keepsFlow (h : Classified c s) (hs : Inv c s) (hst : s.Le t)
    (hg : s.graph.KeepsFlow t.graph) (hc : t.candidates = s.candidates) : Classified c t := by
  have hclosed := hs.valid.closed
  have hobj : ∀ {n x object} {o : Op}, x ∈ t.graph.operandsReached n → t.graph.object? n = some object →
      ∃ object', s.graph.object? n = some object' ∧ ∀ slot, o.kind.expects slot object' = o.kind.expects slot object := by
    intro n x object o hx hn
    have hlt := hg.lt_of_operandsReached hclosed hx
    have hmap := fun slot => hst.graph.object?_map_of_lt (OpKind.blind_expects o.kind slot) hlt
    obtain ⟨object', ho', _⟩ := Option.map_eq_some_iff.mp (((hmap .receiver).symm.trans (by rw [hn]; rfl)))
    refine ⟨object', ho', fun slot => ?_⟩
    have := hmap slot
    rw [hn, ho'] at this
    exact (Option.some.inj this).symm
  have hid : ∀ {n x}, x ∈ t.graph.operandsReached n → t.graph.id? n = s.graph.id? n := fun hx =>
    hst.graph.toExtends.id?_of_lt (hg.lt_of_operandsReached hclosed hx)
  refine ⟨?_, ?_, ?_, ?_, ?_⟩
  · rintro op n ⟨i, o, hi, ho, hx, he⟩
    rw [hid hx] at hi
    exact hst.ids _ _ (h.ids op n ⟨i, o, hi, hg.op? _ o ho, hg.operandsReached hclosed hx, he⟩)
  · rintro x n ⟨object, o, hn, ho, hx, he⟩
    obtain ⟨object', hn', hexp⟩ := hobj (o := o) hx hn
    refine hst.candidates _ _ (h.objects x n ⟨object', o, hn', hg.op? _ o ho, hg.operandsReached hclosed hx, ?_⟩)
    rw [hexp, he]
  · intro op x ho hx
    rw [Graph.isOp, hst.op?] at ho
    exact hst.downstream _ _ (h.results op x ho (hg.operandsReached hclosed hx))
  · intro x n hn ha
    rw [candidatesOf, hc] at hn
    obtain ⟨object, _, hobj, _⟩ := hs.candidates x n hn
    rw [accepts_eq hs.valid hst hobj] at ha
    exact hst.solution _ _ _ (h.seeded x n hn ha)
  · intro op n hr
    apply hst.reported
    rcases hr with ⟨i, o, slot, hi, ho, hx, he⟩ | ⟨object, o, slot, hn, ho, hx, he⟩
    · rw [hid hx] at hi
      exact h.marked op n (.inl ⟨i, o, slot, hi, hg.op? _ o ho, hg.operandsReached hclosed hx, he⟩)
    · obtain ⟨object', hn', hexp⟩ := hobj (o := o) hx hn
      refine h.marked op n (.inr ⟨object', o, slot, hn', hg.op? _ o ho, hg.operandsReached hclosed hx, ?_⟩)
      rw [hexp, he]

end Solver

end WidgetFlow
