import WidgetFlow.Proofs.Exactness
import WidgetFlow.Solution.Query

/-!
# Queries and solutions

A query for the objects that a local can hold goes back along flow from the local, and adds the results of the operations
that it finds. The solver goes forward, from objects and from operations. Both meet: what a query finds at a local is in
the solutions of the operands that the local is, with one exception. A result that flows back into its own operation is
never one of its operands.

* `mem_forward_of_mem_backward`: the two searches;
* `mem_solution_of_query`: what a query finds and where the solver has it;
* `query_finds_own_result`: the exception.
-/

namespace WidgetFlow

open Std

namespace Graph

variable {f : Flowgraph} {g : Graph} {n x : NodeId}

/-- A node that the search back from `x` finds reaches `x`. -/
theorem mem_forward_of_mem_backward (h : n ∈ g.backward x) : x ∈ g.forward n := by
  rw [backward, Container.mem_ofList, mem_backwardOrder] at h
  rw [mem_forward]
  induction h with
  | refl => exact .refl
  | @step a b _ ha hb ih =>
    have hab : Search.Leads g.successors g.nonOps b a :=
      .step .refl (.inl rfl) (mem_successors.mpr (mem_behind.mp hb).1)
    rcases ha with rfl | ha
    · exact hab
    · exact hab.trans (.inr ha) ih

/-- An operation reaches what its result reaches. -/
theorem mem_forward_of_result {op y : NodeId} {o : Op} (hf : f.Valid) (ho : f.graph.op? op = some o)
    (hy : o.result = some y) (h : x ∈ f.graph.forward y) : x ∈ f.graph.forward op := by
  have harc := hf.returns op o ho y hy
  have hvalue := ((hf.suits op o ho).result y hy).isValue
  rw [mem_forward] at h ⊢
  have hop : Search.Leads f.graph.successors f.graph.nonOps op y := .step .refl (.inl rfl) (mem_successors.mpr harc)
  exact hop.trans (.inr (mem_nonOps.mpr hvalue)) h

end Graph

namespace Solver

variable {s : Solver} {c : Context} {op n x : NodeId} {o : Op} {slot : Slot} {l : Local}

/-- The result of an operation flows into a local and can be `n`. -/
def Brings (s : Solver) (l : Local) (op n : NodeId) : Prop :=
  ∃ o y, s.graph.op? op = some o ∧ o.result = some y ∧ y ∈ s.sources l ∧ n ∈ s.results op

theorem mem_objectValues : n ∈ s.objectValues l ↔
    (n ∈ s.sources l ∧ ∃ object, s.graph.object? n = some object) ∨ ∃ op, s.Brings l op n := by
  simp only [objectValues, Container.mem_ofList, List.mem_append, List.mem_filter, ExtTreeSet.mem_toList,
    Option.isSome_iff_exists, List.mem_flatMap]
  refine or_congr_right ⟨?_, ?_⟩
  · rintro ⟨op, -, h⟩
    split at h
    · rename_i hany
      obtain ⟨y, hy, hsource⟩ := (Option.any_eq_true _ _).mp hany
      obtain ⟨o, ho, hres⟩ := Option.bind_eq_some_iff.mp hy
      exact ⟨op, o, y, ho, hres, ExtTreeSet.contains_iff_mem.mp hsource, ExtTreeSet.mem_toList.mp h⟩
    · cases h
  · rintro ⟨op, o, y, ho, hres, hsource, hn⟩
    refine ⟨op, Graph.mem_ops.mpr ⟨o, ho⟩, ?_⟩
    rw [ho, Option.bind_some, hres, Option.any_some, ExtTreeSet.contains_iff_mem.mpr hsource, if_pos rfl]
    exact ExtTreeSet.mem_toList.mpr hn

/-- A query for objects gives the objects of the local. -/
theorem mem_values_iff {q : Query} {values : List NodeId} (hq : q ≠ .id) (hv : s.query c q l = .ok values) :
    n ∈ values ↔ n ∈ s.objectValues l := by
  unfold query at hv
  rw [if_neg hq] at hv
  split at hv
  · cases hv
    exact ExtTreeSet.mem_toList
  · cases hv

theorem sources_of_var? (hl : s.flowgraph.var? l = some x) : s.sources l = s.graph.backward x := by
  rw [sources, hl]

section Solved

variable (hs : Solved c s) (ho : s.graph.op? op = some o) (hslot : slot ≠ .result) (hx : o.operand? slot = some x)
  (hl : s.flowgraph.var? l = some x) (ha : accepts c.project.program s.graph ⟨op, slot⟩ n = true)
include hs ho hslot hx hl ha

/-- An object that flows into the local and that the slot expects is in the solution. -/
theorem Solved.mem_solution_of_source {object : Obj} (hobj : s.graph.object? n = some object)
    (he : o.kind.expects slot object = true) (hn : n ∈ s.sources l) : n ∈ s.solution op slot := by
  rw [sources_of_var? hl] at hn
  have hne : op ≠ n := by
    rintro rfl
    rw [Graph.op?_of_object? hobj] at ho
    cases ho
  have hreach := Graph.mem_operandsReached_of_forward hs.inv.valid ho hslot hx hne
    (Graph.mem_forward_of_mem_backward hn)
  exact hs.classified.seeded ⟨op, slot⟩ n (hs.classified.objects _ n ⟨object, o, hobj, ho, hreach, he⟩) ha

/-- The result of another operation that flows into the local is in the solution. -/
theorem Solved.mem_solution_of_brings {op' : NodeId} (hn : s.Brings l op' n) (hne : op' ≠ op) :
    n ∈ s.solution op slot := by
  obtain ⟨o', y, ho', hy, hsource, hres⟩ := hn
  rw [sources_of_var? hl] at hsource
  have hforward := Graph.mem_forward_of_result hs.inv.valid ho' hy (Graph.mem_forward_of_mem_backward hsource)
  have hreach := Graph.mem_operandsReached_of_forward hs.inv.valid ho hslot hx hne.symm hforward
  have hdown := hs.classified.results op' ⟨op, slot⟩ (Option.isSome_iff_exists.mpr ⟨o', ho'⟩) hreach
  exact hs.propagated op' ⟨op, slot⟩ hdown n hres ha

end Solved

/-- **Queries and solutions agree.** A local is the receiver or the parameter of an operation. What a query finds at the
local, fits the operand, and is no window and no menu where none is expected, is in the solution of the operand, unless
nothing but the operation itself brings it to the local. -/
theorem mem_solution_of_query {q : Query} {values : List NodeId} (h : analyze c = .ok s)
    (ho : s.graph.op? op = some o) (hslot : slot ≠ .result) (hx : o.operand? slot = some x)
    (hl : s.flowgraph.var? l = some x) (hq : q ≠ .id) (hv : s.query c q l = .ok values) (hn : n ∈ values)
    (ha : accepts c.project.program s.graph ⟨op, slot⟩ n = true)
    (he : ∀ object, s.graph.object? n = some object →
      (object.isWindow = true → o.kind.expectsWindow slot = true) ∧
      (object.isMenu = true → o.kind.expectsMenu slot = true)) :
    n ∈ s.solution op slot ∨ n ∉ s.sources l ∧ ∀ op', s.Brings l op' n ↔ op' = op := by
  obtain ⟨_, _, _, hs⟩ := solved_of_analyze h
  obtain ⟨object, hobj⟩ := object?_of_accepts ha
  have hexpects : o.kind.expects slot object = true := by
    obtain ⟨hwindow, hmenu⟩ := he object hobj
    rw [OpKind.expects_iff]
    cases hw : object.isWindow with
    | true => exact .inr (.inl ⟨rfl, hwindow hw⟩)
    | false =>
      cases hm : object.isMenu with
      | true => exact .inr (.inr ⟨rfl, hmenu hm⟩)
      | false => exact .inl ⟨rfl, rfl⟩
  rw [or_iff_not_imp_left]
  intro hno
  have hsource : n ∉ s.sources l := fun hn => hno (hs.mem_solution_of_source ho hslot hx hl ha hobj hexpects hn)
  have hown : ∀ op', s.Brings l op' n → op' = op := fun op' hb => by
    by_contra hne
    exact hno (hs.mem_solution_of_brings ho hslot hx hl ha hb hne)
  refine ⟨hsource, fun op' => ⟨hown op', ?_⟩⟩
  rintro rfl
  rcases mem_objectValues.mp ((mem_values_iff hq hv).mp hn) with ⟨hn, _⟩ | ⟨op', hb⟩
  · exact absurd hn hsource
  · rw [← hown op' hb]
    exact hb

end Solver

namespace Example

def view : Local := ⟨"view", .ref "android.view.View"⟩

/-- The activity looks for a view of its layout and goes down from it. -/
def descending : Context :=
  let onCreate := methodOf "onCreate" [.ref "android.os.Bundle"] ⟨.void, 0⟩ [
    .assign (.var this) .this,
    .call (callOn this "setContentView" [.int] ⟨.void, 0⟩ [.int 1]),
    .assign (.var view) (.call (callOn this "findViewById" [.int] view.ty [.int 5])),
    .assign (.var view) (.call (callOn view "getChildAt" [.int] view.ty [.int 0]))]
  application [onCreate] {
    layouts := byId [(1, templateOf (some "android.view.View") (some 5) [templateOf (some "android.view.View") none []])]
    layoutIds := byId [(1, "main")]
    widgetIds := byId [(5, "list")] }

/-- The view `9` and the view `10` in it can be in the local, which is the receiver of the second look-up. Both fit. -/
theorem descending_query : ∃ s o, analyze descending = .ok s ∧ s.graph.op? 8 = some o ∧
    o.operand? .receiver = some 6 ∧ s.flowgraph.var? view = some 6 ∧ s.query descending .gui view = .ok [9, 10] ∧
    (∀ n ∈ [9, 10], Solver.accepts descending.project.program s.graph ⟨8, .receiver⟩ n = true ∧
      s.graph.object? n = some (.inflated "android.view.View")) ∧
    s.Brings view 7 9 ∧ 10 ∉ s.receivers 8 := by
  have heval : (analyze descending).toOption.any (fun s =>
      (s.graph.op? 8).any (·.operand? .receiver = some 6) ∧ s.flowgraph.var? view = some 6 ∧
      (s.query descending .gui view).toOption = some [9, 10] ∧
      (∀ n ∈ [9, 10], Solver.accepts descending.project.program s.graph ⟨8, .receiver⟩ n = true ∧
        s.graph.object? n = some (.inflated "android.view.View")) ∧
      (s.graph.op? 7).any (·.result = some 6) ∧ 6 ∈ s.sources view ∧ 9 ∈ s.results 7 ∧ 10 ∉ s.receivers 8) = true := by
    decide +kernel
  obtain ⟨s, hs, hk⟩ := exists_of_analyze heval
  obtain ⟨hrec, hvar, hquery, hfits, hres, hsource, hmem, hno⟩ := of_decide_eq_true hk
  obtain ⟨o, ho, hx⟩ := (Option.any_eq_true _ _).mp hrec
  obtain ⟨o', ho', hy⟩ := (Option.any_eq_true _ _).mp hres
  refine ⟨s, o, hs, ho, of_decide_eq_true hx, hvar, ?_, hfits, ⟨o', 6, ho', of_decide_eq_true hy, hsource, hmem⟩, hno⟩
  cases hq : s.query descending .gui view with
  | error e =>
    rw [hq] at hquery
    cases hquery
  | ok values =>
    rw [hq] at hquery
    cases hquery
    rfl

end Example

namespace Solver

/-- The view that the first look-up finds is a receiver of the second one. -/
theorem view_mem_receivers : ∃ s, analyze Example.descending = .ok s ∧
    s.query Example.descending .gui Example.view = .ok [9, 10] ∧ 9 ∈ s.solution 8 .receiver := by
  obtain ⟨s, o, hs, ho, hx, hl, hv, hfits, hbrings, -⟩ := Example.descending_query
  obtain ⟨ha, hobj⟩ := hfits 9 (by decide)
  refine ⟨s, hs, hv, ?_⟩
  have hslot : Slot.receiver ≠ .result := nofun
  have hquery : Query.gui ≠ .id := nofun
  rcases mem_solution_of_query hs ho hslot hx hl hquery hv (by decide) ha
    (fun object h => by rw [hobj] at h; cases h; exact ⟨nofun, nofun⟩) with h | ⟨-, h⟩
  · exact h
  · cases (h 7).mp hbrings

/-- **A query finds what the solver leaves out.** The view that the second look-up finds comes back to its receiver. -/
theorem query_finds_own_result : ¬∀ (c : Context) (s : Solver) (op : NodeId) (o : Op) (slot : Slot) (x : NodeId)
    (l : Local) (q : Query) (values : List NodeId) (n : NodeId),
    analyze c = .ok s → s.graph.op? op = some o → slot ≠ .result → o.operand? slot = some x →
    s.flowgraph.var? l = some x → q ≠ .id → s.query c q l = .ok values → n ∈ values →
    accepts c.project.program s.graph ⟨op, slot⟩ n = true →
    (∀ object, s.graph.object? n = some object →
      (object.isWindow = true → o.kind.expectsWindow slot = true) ∧
      (object.isMenu = true → o.kind.expectsMenu slot = true)) → n ∈ s.solution op slot := by
  obtain ⟨s, o, hs, ho, hx, hl, hv, hfits, -, hno⟩ := Example.descending_query
  obtain ⟨ha, hobj⟩ := hfits 10 (by decide)
  intro hall
  refine hno (hall _ s 8 o .receiver 6 _ .gui _ 10 hs ho nofun hx hl nofun hv (by decide) ha fun object h => ?_)
  rw [hobj] at h
  cases h
  exact ⟨nofun, nofun⟩

end Solver

end WidgetFlow
