import Mathlib.Data.List.Sort
import WidgetFlow.Proofs.Dispatching
import WidgetFlow.Proofs.NearestId
import WidgetFlow.Proofs.Queries

/-!
# Queries for ids

The solver finds the ids that reach an operation by searches that start at the ids, one after the other, each time that
it classifies. A query for the ids of a local is a single search that starts at the local, in the graph as it is at the
end. When a solver is done, both find the same ids, apart from those that the operation does not expect.

* `Solved.mem_idsOf_iff`: the ids of an operation and the search back from its parameter;
* `idsOf_of_query`: the ids of an operation and the query, for every solver that is visited.
-/

namespace WidgetFlow

open Std

namespace Solver

variable {s t : Solver} {c : Context} {op n x : NodeId} {o : Op} {l : Local}

/-- The ids of an operation are those that the search back from its parameter finds and that it expects. -/
theorem Solved.mem_idsOf_iff (hs : Solved c s) (ho : s.graph.op? op = some o) (hx : o.parameter = some x) :
    n ∈ s.idsOf op ↔ n ∈ s.graph.backward x ∧ ∃ i, s.graph.id? n = some i ∧ o.kind.expectsId i.space = true := by
  constructor
  · intro hn
    obtain ⟨i, o', hi, ho', -, hexpects⟩ := hs.inv.ids op n hn
    obtain rfl : o = o' := Option.some.inj (ho.symm.trans ho')
    have hoperand : o.operand? .parameter = some x := hx
    have hvalue : s.graph.IsValue x := (hs.inv.valid.suits op o ho).isValue hoperand
    have hop : s.graph.isOp x = false := by rw [Graph.isOp, hvalue.2]; rfl
    exact ⟨Graph.mem_backward_of_mem_forward hop (mem_forward_of_mem_idsOf hs.inv ho hx hn), i, hi, hexpects⟩
  · rintro ⟨hn, i, hi, hexpects⟩
    have hne : op ≠ n := by
      rintro rfl
      rw [Graph.op?_of_id? hi] at ho
      cases ho
    have hslot : Slot.parameter ≠ .result := by simp
    have hreach := Graph.mem_operandsReached_of_forward hs.inv.valid ho hslot hx hne
      (Graph.mem_forward_of_mem_backward hn)
    exact hs.classified.ids op n ⟨i, o, hi, ho, hreach, hexpects⟩

theorem pairwise_toList {a : NodeSet} : a.toList.Pairwise (· < ·) :=
  ExtTreeSet.ordered_toList.imp Nat.compare_eq_lt.mp

/-- **A query for ids finds what the solver finds.** A solver is done. If the parameter of an operation is a local of
the type of integers, then the local can be asked for its ids, and the ids that reach the operation are those of the
answer, in the same order, whose space the operation expects. -/
theorem idsOf_of_query (hs : Visited c s) (hsolve : solve c s = (.ok (), t)) (ho : t.graph.op? op = some o)
    (hx : o.parameter = some x) (hl : t.flowgraph.var? l = some x) (hty : l.ty = .int) :
    ∃ values, t.query c .id l = .ok values ∧
      (t.idsOf op).toList = values.filter fun n => (t.graph.id? n).any (o.kind.expectsId ·.space) := by
  obtain ⟨hsolved, -⟩ := hs.intact.solved hsolve
  have hadmits : Query.id.admits c l.ty = true := by rw [hty]; rfl
  refine ⟨t.idValues l, by rw [query, if_pos hadmits, if_pos rfl], ?_⟩
  refine pairwise_toList.eq_of_mem_iff ?_ fun n => ?_
  · exact (pairwise_toList.sublist List.filter_sublist).sublist List.filter_sublist
  · rw [ExtTreeSet.mem_toList, hsolved.mem_idsOf_iff ho hx, idValues, sources_of_var? hl, List.mem_filter,
      List.mem_filter, ExtTreeSet.mem_toList, Option.any_eq_true, and_assoc]
    refine and_congr_right fun _ => (and_iff_right_of_imp ?_).symm
    rintro ⟨i, hi, -⟩
    rw [hi]
    rfl

end Solver

/-- The activity looks for the view whose id is in a local, which can also be the id of a layout. -/
def Example.withMixedIds : Context :=
  let id : Local := ⟨"id", .int⟩
  let view : Local := ⟨"view", .ref "android.view.View"⟩
  let onCreate := methodOf "onCreate" [.ref "android.os.Bundle"] ⟨.void, 0⟩ [
    .assign (.var this) .this,
    .assign (.var id) (.value (.int 5)),
    .assign (.var id) (.value (.int 1)),
    .assign (.var view) (.call (callOn this "findViewById" [.int] view.ty [.var id]))]
  application [onCreate] {
    layouts := byId [(1, templateOf (some "android.view.View") (some 5) [])]
    layoutIds := byId [(1, "main")]
    widgetIds := byId [(5, "save")] }

namespace Solver

/-- The query finds both ids, and only one is for the look-up. -/
theorem idsOf_of_query_mixed : ∃ t o, analyze Example.withMixedIds = .ok t ∧ t.graph.op? 7 = some o ∧
    t.query Example.withMixedIds .id ⟨"id", .int⟩ = .ok [0, 1] ∧ (t.idsOf 7).toList = [1] ∧
    [0, 1].filter (fun n => (t.graph.id? n).any (o.kind.expectsId ·.space)) = [1] := by
  have heval : (analyze Example.withMixedIds).toOption.any (fun t =>
      (t.graph.op? 7).any (·.parameter = some 5) ∧ t.flowgraph.var? ⟨"id", .int⟩ = some 5 ∧
      t.idValues ⟨"id", .int⟩ = [0, 1] ∧ (t.idsOf 7).toList = [1]) = true := by
    decide +kernel
  obtain ⟨t, ht, hk⟩ := exists_of_analyze heval
  obtain ⟨hop, hvar, hvalues, hids⟩ := of_decide_eq_true hk
  obtain ⟨o, ho, hx⟩ := (Option.any_eq_true _ _).mp hop
  obtain ⟨f, hf, hsolve⟩ := analyze_eq_ok.mp ht
  have hs : Visited Example.withMixedIds { flowgraph := f } := ⟨f, hf, .refl⟩
  obtain ⟨values, hquery, heq⟩ := idsOf_of_query hs hsolve ho (of_decide_eq_true hx) hvar rfl
  obtain rfl : [0, 1] = values := by
    rw [← hvalues]
    exact Except.ok.inj hquery
  exact ⟨t, o, ht, ho, hquery, hids, heq.symm.trans hids⟩

end Solver

end WidgetFlow
