import WidgetFlow.Proofs.Passes

/-!
# The shape of the graph

What the graph of a flowgraph looks like, from its construction on and whatever callers ask of solvers.

Flow goes into locals and fields, with the exception of operations. An operation has the operands that its kind asks for
(`OpTag.slots`). They flow into it and nothing else does, and it flows into its result and into nothing else. Objects
and ids are where flow begins.

Containment is between objects. What is inside something is a widget, and so is every root view of a window. Windows are
outside: they are inside nothing, have nothing inside and are not the result of any operation.

* `Flowgraph.Valid.mem_predecessors_op`, `Flowgraph.Valid.mem_successors_op`: the flow around an operation;
* `operations_wired`: the operands and the flow of all operations;
* `contained_are_widgets`: containment, root views and results.
-/

namespace WidgetFlow

open Std Relation

/-! ## Flow around operations -/

namespace Flowgraph.Valid

variable {f : Flowgraph} {n m : NodeId} {o : Op} (hf : f.Valid)
include hf

/-- Receiver and parameter flow into an operation, and nothing else does. -/
theorem mem_predecessors_op (ho : f.graph.op? n = some o) :
    m ∈ f.graph.predecessors n ↔ o.receiver = some m ∨ o.parameter = some m := by
  rw [Graph.mem_predecessors]
  refine ⟨fun ha => ?_, hf.wired n o ho m⟩
  have hno := Graph.not_isValue_of_op? ho
  cases hf.carries _ ha with
  | value _ hy => exact absurd hy.isValue hno
  | operand ho' hx =>
    obtain rfl := Option.some.inj (ho.symm.trans ho')
    exact hx
  | result ho' hy => exact absurd ((hf.suits _ _ ho').result n hy).isValue hno

/-- An operation flows into its result, and into nothing else. -/
theorem mem_successors_op (ho : f.graph.op? n = some o) : m ∈ f.graph.successors n ↔ o.result = some m := by
  rw [Graph.mem_successors]
  refine ⟨fun ha => ?_, hf.returns n o ho m⟩
  have hno := Graph.not_isValue_of_op? ho
  cases hf.carries _ ha with
  | value hx _ => exact absurd hx hno
  | operand ho' hx =>
    have hsuits := hf.suits _ _ ho'
    exact absurd (hx.elim (fun hx => (hsuits.receiver n hx).isValue) fun hx => (hsuits.parameter n hx).isValue) hno
  | result ho' hy =>
    obtain rfl := Option.some.inj (ho.symm.trans ho')
    exact hy

/-- What is neither an operation nor a local or field has no flow into it. -/
theorem predecessors_eq_nil {a : Node} (ha : f.graph.node? n = some a) (ho : a.kind.op? = none)
    (hp : a.kind.pointer? = none) : f.graph.predecessors n = [] := by
  have hnot : ¬f.graph.IsPointer n := by
    rintro ⟨p, h⟩
    rw [Graph.pointer?, ha, Option.bind_some, hp] at h
    cases h
  refine List.eq_nil_iff_forall_not_mem.mpr fun m hm => ?_
  cases hf.carries _ (Graph.mem_predecessors.mp hm) with
  | value _ hy => exact hnot hy
  | operand ho' => exact Graph.not_isValue_of_op? ho' (Graph.isValue_of_node? ha ho)
  | result ho' hy => exact hnot ((hf.suits _ _ ho').result n hy).isPointer

theorem predecessors_object {object : Obj} (h : f.graph.object? n = some object) : f.graph.predecessors n = [] := by
  obtain ⟨a, ha, hk⟩ := Graph.node?_of_object? h
  cases hkind : a.kind with
  | object => exact hf.predecessors_eq_nil ha (by rw [hkind]; rfl) (by rw [hkind]; rfl)
  | pointer | id | op =>
    rw [hkind] at hk
    cases hk

theorem predecessors_id {i : ResourceId} (h : f.graph.id? n = some i) : f.graph.predecessors n = [] := by
  obtain ⟨a, ha, hk⟩ := Graph.node?_of_id? h
  cases hkind : a.kind with
  | id => exact hf.predecessors_eq_nil ha (by rw [hkind]; rfl) (by rw [hkind]; rfl)
  | object | pointer | op =>
    rw [hkind] at hk
    cases hk

end Flowgraph.Valid

namespace Solver

variable {s : Solver} {c : Context} {f : Flowgraph}

/-- **Operations are wired by their operands.** In every graph that callers can come to, what flows into an operation is
its receiver and its parameter, and what it flows into is its result. It has the operands of its kind: the receiver and
the result are locals, the parameter is a local, an id or a text. Nothing flows into objects and ids. -/
theorem operations_wired (hf : Available c f) (hs : Reached c f s) :
    (∀ n o, s.graph.op? n = some o →
      (∀ m, m ∈ s.graph.predecessors n ↔ o.receiver = some m ∨ o.parameter = some m) ∧
      (∀ m, m ∈ s.graph.successors n ↔ o.result = some m) ∧
      (∀ slot, (o.operand? slot).isSome ↔ slot ∈ o.kind.tag.slots) ∧
      (∀ m, o.receiver = some m ∨ o.result = some m → s.graph.IsVar m) ∧
      ∀ m, o.parameter = some m → s.graph.IsArg m) ∧
    (∀ n object, s.graph.object? n = some object → s.graph.predecessors n = []) ∧
    ∀ n i, s.graph.id? n = some i → s.graph.predecessors n = [] := by
  have hvalid := (hs.inv hf).valid
  refine ⟨fun n o ho => ?_, fun n object h => hvalid.predecessors_object h, fun n i h => hvalid.predecessors_id h⟩
  have hsuits := hvalid.suits n o ho
  refine ⟨fun m => hvalid.mem_predecessors_op ho, fun m => hvalid.mem_successors_op ho, fun slot => ?_, fun m hm => ?_,
    hsuits.parameter⟩
  · rw [← hsuits.slots]
    exact Op.mem_slots.symm
  · exact hm.elim (hsuits.receiver m) (hsuits.result m)

end Solver

/-- An analysis of the activity that looks for a view of its layout. -/
theorem Example.withLayout_solved : ∃ f s o, Flowgraph.build withLayout = .ok f ∧ Solver.Reached withLayout f s ∧
    s.graph.op? 7 = some o ∧ o.receiver = some 4 ∧ o.parameter = some 1 ∧ o.result = some 6 ∧
    s.graph.object? 2 = some (.activity "app.Main") ∧ Arc.mk 10 9 ∈ s.graph.containment ∧ 9 ∈ s.rootsOf 2 ∧
    10 ∈ s.results 7 := by
  have heval : (analyze withLayout).toOption.any (fun s => (s.graph.op? 7).any fun o => o.receiver = some 4 ∧
      o.parameter = some 1 ∧ o.result = some 6 ∧ s.graph.object? 2 = some (.activity "app.Main") ∧
      Arc.mk 10 9 ∈ s.graph.containment ∧ 9 ∈ s.rootsOf 2 ∧ 10 ∈ s.results 7) = true := by
    decide +kernel
  obtain ⟨s, hs, hk⟩ := exists_of_analyze heval
  obtain ⟨o, ho, hk⟩ := (Option.any_eq_true _ _).mp hk
  obtain ⟨f, hf, hreached⟩ := Solver.reached_of_analyze hs
  exact ⟨f, s, o, hf, hreached, ho, of_decide_eq_true hk⟩

namespace Solver

variable {s : Solver} {c : Context} {f : Flowgraph}

/-- The look-up of a view in its activity. -/
theorem lookup_wired : ∃ f s, Available Example.withLayout f ∧ Reached Example.withLayout f s ∧
    (∀ m, m ∈ s.graph.predecessors 7 ↔ m = 4 ∨ m = 1) ∧ (∀ m, m ∈ s.graph.successors 7 ↔ m = 6) ∧
    s.graph.predecessors 2 = [] := by
  obtain ⟨f, s, o, hf, hs, ho, hr, hp, hresult, hobj, -⟩ := Example.withLayout_solved
  obtain ⟨hops, hobjects, -⟩ := operations_wired (.built hf) hs
  obtain ⟨hpred, hsucc, -⟩ := hops 7 o ho
  refine ⟨f, s, .built hf, hs, fun m => ?_, fun m => ?_, hobjects 2 _ hobj⟩
  · rw [hpred, hr, hp, Option.some.injEq, Option.some.injEq, eq_comm, @eq_comm _ 1]
  · rw [hsucc, hresult, Option.some.injEq, eq_comm]

/-! ## Containment -/

/-- **Widgets only are inside others, and windows are outside.** In every solver that callers can come to, containment
goes from widgets to objects that are no windows, root views are widgets, and results are no windows. -/
theorem contained_are_widgets (hf : Available c f) (hs : Reached c f s) :
    (∀ a ∈ s.graph.containment, (∃ object, s.graph.object? a.src = some object ∧ object.isWidget = true) ∧
      ∃ object, s.graph.object? a.dst = some object ∧ object.isWindow = false) ∧
    (∀ w, ∀ v ∈ s.rootsOf w, ∃ object, s.graph.object? v = some object ∧ object.isWidget = true) ∧
    ∀ op, ∀ n ∈ s.results op, ∃ object, s.graph.object? n = some object ∧ object.isWindow = false := by
  have hinv := hs.inv hf
  refine ⟨fun a ha => ⟨?_, ?_⟩, fun w v hv => ?_, fun op n hn => ?_⟩
  · exact (Option.any_eq_true _ _).mp (hinv.sound.widgets a ha)
  · obtain ⟨object, hobj, hhost⟩ := (Option.any_eq_true _ _).mp (hinv.sound.hosts a ha)
    exact ⟨object, hobj, Obj.isHost_iff.mp hhost⟩
  · exact (Option.any_eq_true _ _).mp (hinv.isWidget_of_root hv)
  · obtain ⟨object, hobj⟩ := hinv.object? hn
    refine ⟨object, hobj, Bool.eq_false_iff.mpr fun hw => ?_⟩
    exact hinv.not_isWindow_of_result hn ((Option.any_eq_true _ _).mpr ⟨object, hobj, hw⟩)

/-- A view inside the root view of an activity, which a look-up finds. -/
theorem view_in_root_view : ∃ f s, Available Example.withLayout f ∧ Reached Example.withLayout f s ∧
    Arc.mk 10 9 ∈ s.graph.containment ∧ 9 ∈ s.rootsOf 2 ∧ 10 ∈ s.results 7 ∧
    (s.graph.object? 10).any (·.isWidget) = true ∧ (s.graph.object? 9).any (·.isWidget) = true := by
  obtain ⟨f, s, o, hf, hs, -, -, -, -, -, harc, hroot, hresult⟩ := Example.withLayout_solved
  obtain ⟨hcontained, hroots, -⟩ := contained_are_widgets (.built hf) hs
  exact ⟨f, s, .built hf, hs, harc, hroot, hresult, (Option.any_eq_true _ _).mpr (hcontained _ harc).1,
    (Option.any_eq_true _ _).mpr (hroots 2 9 hroot)⟩

end Solver

end WidgetFlow
