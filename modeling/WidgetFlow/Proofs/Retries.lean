import WidgetFlow.Proofs.Stability

/-!
# Asking a strict solver again

A strict solver fails when a value reaches an operation that does not expect it. Before it fails it marks the flow as
reported, and a flow that was reported is not reported again. So when the solver is asked again it goes on, and it can
succeed although the flow is still there.

What remains true is that no such flow goes unnoticed: if the solver succeeds in spite of one, then an earlier request
has failed with exactly this flow as its fault.

* `Request.reported_cases`: a request marks at most the flow that it fails with;
* `reported_cases`: so every mark comes from an earlier failure;
* `refused_was_told`: what a successful classification or solution says about unexpected flow.
-/

namespace WidgetFlow

open Std

/-! ## Unexpected flow -/

/-- The text of a node does not mention what can grow. -/
theorem NodeKind.Grows.text_eq {k k' : NodeKind} (h : k.Grows k') : k'.text = k.text := by cases h <;> rfl

namespace Graph

variable {g g' : Graph} {op n : NodeId}

instance : Decidable (g.RefusesId op n) :=
  decidable_of_iff ((g.id? n).any (fun i => (g.op? op).any fun o => Slot.all.any fun slot =>
      Operand.mk op slot ∈ g.operandsReached n ∧ ¬(slot = .parameter ∧ o.kind.expectsId i.space = true)
        ∧ ¬(slot = .parameter ∧ o.kind.ignoresId i.space = true)) = true) <| by
    simp only [Option.any_eq_true, List.any_eq_true, decide_eq_true_eq]
    constructor
    · rintro ⟨i, hi, o, ho, slot, -, h⟩
      exact ⟨i, o, slot, hi, ho, h⟩
    · rintro ⟨i, o, slot, hi, ho, h⟩
      exact ⟨i, hi, o, ho, slot, by cases slot <;> decide, h⟩

instance : Decidable (g.RefusesObject op n) :=
  decidable_of_iff ((g.object? n).any (fun object => (g.op? op).any fun o => Slot.all.any fun slot =>
      Operand.mk op slot ∈ g.operandsReached n ∧ o.kind.expects slot object = false) = true) <| by
    simp only [Option.any_eq_true, List.any_eq_true, decide_eq_true_eq]
    constructor
    · rintro ⟨object, hn, o, ho, slot, -, h⟩
      exact ⟨object, o, slot, hn, ho, h⟩
    · rintro ⟨object, o, slot, hn, ho, h⟩
      exact ⟨object, hn, o, ho, slot, by cases slot <;> decide, h⟩

instance : Decidable (g.Refuses op n) := inferInstanceAs (Decidable (_ ∨ _))

/-- Unexpected flow does not go away. -/
theorem Refuses.mono (h : g.Refuses op n) (hg : g.Grows g') : g'.Refuses op n := by
  have hext := hg.toExtends
  rcases h with ⟨i, o, slot, hi, ho, hr, hno⟩ | ⟨object, o, slot, hn, ho, hr, hno⟩
  · exact .inl ⟨i, o, slot, hext.id? hi, hext.op? ho, hext.operandsReached hr, hno⟩
  · have hno' := hg.object?_map (OpKind.blind_expects o.kind slot) (by rw [hn]; exact congrArg some hno)
    obtain ⟨object', hn', hno'⟩ := Option.map_eq_some_iff.mp hno'
    exact .inr ⟨object', o, slot, hn', hext.op? ho, hext.operandsReached hr, hno'⟩

theorem Grows.describe_eq (h : g.Grows g') (hn : n < g.size) : g'.describe n = g.describe n := by
  obtain ⟨a, ha⟩ := exists_node? hn
  obtain ⟨b, hb, hab⟩ := h.node n a ha
  unfold describe
  rw [ha, hb]
  dsimp only
  rw [hab.kind.text_eq]

/-- The fault of a flow stays the same. -/
theorem Refuses.unexpected_eq (h : g.Refuses op n) (hg : g.Grows g') : g'.unexpected n op = g.unexpected n op := by
  have hlt : n < g.size ∧ op < g.size := by
    rcases h with ⟨i, o, slot, hn, ho, -⟩ | ⟨object, o, slot, hn, ho, -⟩
    · exact ⟨id?_lt hn, op?_lt ho⟩
    · exact ⟨object?_lt hn, op?_lt ho⟩
  unfold unexpected opLabel?
  rw [hg.describe_eq hlt.1, hg.describe_eq hlt.2, hg.toExtends.op?_of_lt hlt.2]

end Graph

namespace Solver

variable {s t : Solver} {c : Context} {f : Flowgraph} {op n : NodeId}

/-! ## Marks -/

/-- What a strict solver does at a request: it goes on and marks nothing, or it stops. -/
theorem Request.strict_cases (hstrict : c.settings.strict = true) (hs : Poised c s) (x : Request) :
    (∃ answer, x.answer c s = .ok answer) ∧ (x.after c s).reported = s.reported ∨
    ∃ fault t, x.answer c s = .error fault ∧ Stops fault t (x.after c s) ∧ t.reported = s.reported := by
  obtain ⟨answer, t, new, -, -, -, hend⟩ := x.mirrors hs
  rw [← hstrict, c.mode_strict, x.act_run] at hend
  cases new with
  | nil =>
    obtain ⟨hrun, hmarks⟩ := hend
    obtain ⟨hanswer, rfl⟩ := Prod.mk.inj hrun
    exact .inl ⟨⟨answer, hanswer⟩, hmarks⟩
  | cons e new =>
    obtain ⟨fault, t', u, hrun, -, ⟨-, hrecord⟩, hstop⟩ := hend
    obtain ⟨hanswer, rfl⟩ := Prod.mk.inj hrun
    exact .inr ⟨fault, t', hanswer, hstop, congrArg Prod.snd hrecord⟩

/-- **A request marks at most the flow that it fails with.** -/
theorem Request.reported_cases (hstrict : c.settings.strict = true) (hs : Poised c s) (x : Request)
    (hm : Arc.mk n op ∈ (x.after c s).reported) : Arc.mk n op ∈ s.reported ∨
      x.answer c s = .error ((x.after c s).graph.unexpected n op) ∧ (x.after c s).graph.Refuses op n := by
  rcases x.strict_cases hstrict hs with ⟨-, hmarks⟩ | ⟨fault, t, hanswer, hstop, hmarks⟩
  · rw [hmarks] at hm
    exact .inl hm
  · rw [hanswer]
    generalize x.after c s = u at hm hstop ⊢
    cases hstop with
    | flow hr hnew =>
      rcases Container.mem_insert.mp hm with he | hm
      · cases he
        exact .inr ⟨rfl, hr⟩
      · exact .inl (hmarks ▸ hm)
    | containment => exact .inl (hmarks ▸ hm)

theorem serve_concat {xs : List Request} {x : Request} : serve c s (xs ++ [x]) = x.after c (serve c s xs) := by
  rw [serve, List.foldl_append]
  rfl

/-- **Every mark comes from an earlier failure**, and the flow is still there. -/
theorem reported_cases (hstrict : c.settings.strict = true) (hs : Poised c s) (xs : List Request)
    (hm : Arc.mk n op ∈ (serve c s xs).reported) : Arc.mk n op ∈ s.reported ∨
      (serve c s xs).graph.Refuses op n ∧ ∃ ys y zs, xs = ys ++ y :: zs ∧
        y.answer c (serve c s ys) = .error ((serve c s xs).graph.unexpected n op) := by
  induction xs using List.reverseRecOn with
  | nil => exact .inl hm
  | append_singleton xs x ih =>
    have hxs := hs.lasts (lasts_serve hs xs)
    have hgrows := (Run.le (x.lasts hxs).run).graph
    rw [serve_concat] at hm ⊢
    rcases x.reported_cases hstrict hxs hm with hm | ⟨hanswer, hr⟩
    · rcases ih hm with hm | ⟨hr, ys, y, zs, rfl, hy⟩
      · exact .inl hm
      · refine .inr ⟨hr.mono hgrows, ys, y, zs ++ [x], by simp, ?_⟩
        rw [hr.unexpected_eq hgrows]
        exact hy
    · exact .inr ⟨hr, xs, x, [], rfl, hanswer⟩

/-! ## Success in spite of unexpected flow -/

/-- After a success every unexpected flow is marked. -/
theorem marked_of_ok (hs : Poised c s) (hp : s.pending = false)
    (h : classify c s = (.ok (), t) ∨ solve c s = (.ok (), t)) (hr : t.graph.Refuses op n) :
    Arc.mk n op ∈ t.reported := by
  rcases h with h | h
  · have hlenient : classify (c.mode false) s = (.ok (), t) := classify_mirrors.lenient (c.mode_strict ▸ h)
    exact (classify_tries.ok hlenient).2.marked op n hr
  · have hlenient : solve (c.mode false) s = (.ok (), t) := (solve_mirrors hs).lenient (c.mode_strict ▸ h)
    exact ((solve_tries hs.inv hp).ok hlenient).2.classified.marked op n hr

theorem exists_request (h : classify c s = (.ok (), t) ∨ solve c s = (.ok (), t)) :
    ∃ x : Request, x.act c s = (.ok none, t) := by
  rcases h with h | h
  · refine ⟨.classify, map_run.trans ?_⟩
    rw [h]
    rfl
  · refine ⟨.solve, map_run.trans ?_⟩
    rw [h]
    rfl

/-- **No unexpected flow goes unnoticed.** If a strict solver classifies or solves with success, after any requests to
it and whether they failed or not, then for every value that reaches an operation that does not expect it, an earlier
request has failed with this flow as its fault. In particular there is none if no earlier request has failed. -/
theorem refused_was_told (hstrict : c.settings.strict = true) (hf : Available c f) (xs : List Request)
    (h : classify c (serve c { flowgraph := f } xs) = (.ok (), t) ∨ solve c (serve c { flowgraph := f } xs) = (.ok (), t))
    (hr : t.graph.Refuses op n) : ∃ ys y zs, xs = ys ++ y :: zs ∧
      y.answer c (serve c { flowgraph := f } ys) = .error (t.graph.unexpected n op) := by
  have hserved := lasts_serve hf.poised xs
  have hpoised := hf.poised.lasts hserved
  have hm := marked_of_ok hpoised (hserved.settled rfl) h hr
  obtain ⟨x, hx⟩ := exists_request h
  rw [x.act_run] at hx
  obtain ⟨hanswer, rfl⟩ := Prod.mk.inj hx
  have hgrows := (Run.le (x.lasts hpoised).run).graph
  rcases x.strict_cases hstrict hpoised with ⟨-, hmarks⟩ | ⟨fault, _, hfault, -⟩
  · -- the successful request marks nothing, so the mark was there before
    rw [hmarks] at hm
    rcases reported_cases hstrict hf.poised xs hm with hm | ⟨hr, ys, y, zs, hxs, hy⟩
    · simp at hm
    · refine ⟨ys, y, zs, hxs, ?_⟩
      rw [hr.unexpected_eq hgrows]
      exact hy
  · rw [hfault] at hanswer
    cases hanswer

/-- The solver succeeds when it is asked again, and the fault of the first request tells of the id of the layout that
still reaches the look-up. -/
theorem refused_was_told_before : ∃ f t, Flowgraph.build Example.withLayoutId = .ok f ∧
    solve Example.withLayoutId (serve Example.withLayoutId { flowgraph := f } [.classify]) = (.ok (), t) ∧
    t.graph.Refuses 6 0 ∧
    Request.classify.answer Example.withLayoutId { flowgraph := f } = .error (t.graph.unexpected 0 6) := by
  have heval : (Flowgraph.build Example.withLayoutId).toOption.any (fun f =>
      let r := solve Example.withLayoutId (serve Example.withLayoutId { flowgraph := f } [.classify])
      r.1.isOk = true ∧ r.2.graph.Refuses 6 0) = true := by
    decide +kernel
  obtain ⟨f, hf, hk⟩ := exists_of_toOption heval
  obtain ⟨hok, hr⟩ := of_decide_eq_true hk
  have hsolve := eq_ok_of_isOk hok
  obtain ⟨ys, y, zs, hxs, hy⟩ := refused_was_told rfl (.built hf) [.classify] (.inr hsolve) hr
  obtain ⟨rfl, rfl⟩ : ys = [] ∧ y = .classify := by
    cases ys with
    | nil =>
      cases hxs
      exact ⟨rfl, rfl⟩
    | cons y' ys => simp at hxs
  exact ⟨f, _, hf, hsolve, hr, hy⟩

/-- **A strict solver can succeed in spite of unexpected flow.** The classification fails with the id of a layout that
reaches a look-up for views, and when it is asked for again it succeeds. -/
theorem retry_hides_violation : ¬∀ c f xs t, c.settings.strict = true → Available c f →
    (classify c (serve c { flowgraph := f } xs) = (.ok (), t) ∨
      solve c (serve c { flowgraph := f } xs) = (.ok (), t)) →
    ∀ op n, ¬t.graph.Refuses op n := by
  have heval : (Flowgraph.build Example.withLayoutId).toOption.any (fun f =>
      let r := classify Example.withLayoutId (serve Example.withLayoutId { flowgraph := f } [.classify])
      r.1.isOk = true ∧ r.2.graph.Refuses 6 0) = true := by
    decide +kernel
  obtain ⟨f, hf, hk⟩ := exists_of_toOption heval
  obtain ⟨hok, hr⟩ := of_decide_eq_true hk
  intro hall
  exact hall _ f [.classify] _ rfl (.built hf) (.inl (eq_ok_of_isOk hok)) 6 0 hr

end Solver

end WidgetFlow
