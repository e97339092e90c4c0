import WidgetFlow.Proofs.Routes
import WidgetFlow.Proofs.Visits

/-!
# The id that a view gets

An operation that sets an id gives it to the views that have none. Of several ids that reach its parameter it takes the
nearest. The ids are found by searches that start at them and ordered by a search that starts at the parameter; both
find the same, since the parameter of an operation is a value.

* `mem_orderedIds_iff`, `nodup_orderedIds`, `pairwise_orderedIds`: the order of the ids;
* `resolveSetId_labels`: what happens to the nodes;
* `nearest_id_labels`: both together, for every solver that is visited.
-/

namespace WidgetFlow

open Std

namespace Solver

variable {s t u : Solver} {c : Context} {op n id q : NodeId} {o : Op} {l : List NodeId}

/-! ## The order of the ids -/

section Order

variable (hs : Inv c s) (ho : s.graph.op? op = some o)
include hs ho

/-- An operation that sets an id has a parameter, and it is a value. -/
theorem exists_parameter (hk : o.kind = .setId) : ∃ q, o.parameter = some q ∧ s.graph.IsValue q := by
  have hsuits := hs.valid.suits op o ho
  have hslot : Slot.parameter ∈ o.slots := by
    rw [hsuits.slots, hk]
    decide
  obtain ⟨q, hq⟩ := Option.isSome_iff_exists.mp (Op.mem_slots.mp hslot)
  exact ⟨q, hq, hsuits.isValue hq⟩

theorem mem_forward_of_mem_idsOf (hq : o.parameter = some q) (hn : n ∈ s.idsOf op) : q ∈ s.graph.forward n := by
  obtain ⟨-, -, -, -, hreached, -⟩ := hs.ids op n hn
  obtain ⟨-, -, -, o', q', ho', hq', hforward⟩ := Graph.mem_operandsReached.mp hreached
  obtain rfl : o = o' := Option.some.inj (ho.symm.trans ho')
  obtain rfl : q = q' := Option.some.inj (hq.symm.trans hq')
  exact hforward

/-- **No id is lost on the way back from the parameter.** -/
theorem mem_orderedIds_iff (hk : o.kind = .setId) : n ∈ s.orderedIds op ↔ n ∈ s.idsOf op := by
  rw [mem_orderedIds, ho]
  refine and_iff_left_of_imp fun hn q hq => ?_
  obtain ⟨q', hq', -, hvalue⟩ := exists_parameter hs ho hk
  obtain rfl : q' = q := Option.some.inj (hq'.symm.trans hq)
  have hop : s.graph.isOp q' = false := by rw [Graph.isOp, hvalue]; rfl
  have hback := Graph.mem_backward_of_mem_forward hop (mem_forward_of_mem_idsOf hs ho hq' hn)
  rwa [Graph.backward, Container.mem_ofList] at hback

end Order

/-- The ids are a part of the way back from the parameter. -/
theorem orderedIds_sublist (ho : s.graph.op? op = some o) (hq : o.parameter = some q) :
    (s.orderedIds op).Sublist (s.graph.backwardOrder q) := by
  have hparameter : (s.graph.op? op).bind (·.parameter) = some q := by rw [ho]; exact hq
  rw [orderedIds, hparameter]
  exact List.filter_sublist

theorem nodup_orderedIds (ho : s.graph.op? op = some o) (hq : o.parameter = some q) : (s.orderedIds op).Nodup :=
  Search.nodup_bfs.sublist (orderedIds_sublist ho hq)

theorem pairwise_orderedIds (ho : s.graph.op? op = some o) (hq : o.parameter = some q) :
    (s.orderedIds op).Pairwise fun x y => s.graph.distance x q ≤ s.graph.distance y q :=
  Graph.pairwise_backwardOrder.sublist (orderedIds_sublist ho hq)

/-! ## Nodes without an id -/

/-- The nodes of a list that have no id get one. Nothing else changes but the log. -/
structure Labels (id : NodeId) (l : List NodeId) (s t : Solver) : Prop where
  node : ∀ n, t.graph.node? n =
    (s.graph.node? n).map fun a => if n ∈ l ∧ a.id = none then { a with id := some id } else a
  rest : t = { s with flowgraph.graph.nodes := t.graph.nodes, log := t.log }

/-- The node has no id. -/
def Lacks (s : Solver) (n : NodeId) : Prop := (s.graph.node? n).any (·.id.isNone) = true

theorem lacks_iff : s.Lacks n ↔ ∃ a, s.graph.node? n = some a ∧ a.id = none := by
  simp [Lacks, Option.any_eq_true]

namespace Labels

theorem nil (s : Solver) : Labels id [] s s := ⟨by simp, rfl⟩

theorem trans (h : Labels id [n] s t) (h' : Labels id l t u) : Labels id (n :: l) s u := by
  refine ⟨fun m => ?_, ?_⟩
  · rw [h'.node, h.node, Option.map_map]
    refine congrArg (fun f => Option.map f (s.graph.node? m)) (funext fun a => ?_)
    -- a node that got its id from the first is passed over by the others
    by_cases ha : a.id = none <;> by_cases hm : m = n <;> simp [ha, hm]
  · rw [h'.rest, h.rest]
    rfl

theorem lacks_iff (h : Labels id l s t) : t.Lacks n ↔ n ∉ l ∧ s.Lacks n := by
  rw [Solver.lacks_iff, Solver.lacks_iff, h.node]
  constructor
  · rintro ⟨b, hb, hid⟩
    obtain ⟨a, ha, rfl⟩ := Option.map_eq_some_iff.mp hb
    split at hid
    · cases hid
    · rename_i hno
      exact ⟨fun hn => hno ⟨hn, hid⟩, a, ha, hid⟩
  · rintro ⟨hn, a, ha, hid⟩
    refine ⟨a, ?_, hid⟩
    rw [ha, Option.map_some, if_neg fun h => hn h.1]

/-- The log is no matter. -/
theorem log {entries : List Log.Entry} (h : Labels id l s t) : Labels id l s { t with log := entries } :=
  ⟨h.node, congrArg (fun v : Solver => { v with log := entries }) h.rest⟩

end Labels

theorem bindId_labels : Does Anyhow c s (bindId id n) fun b t => Labels id [n] s t ∧ (b = true ↔ s.Lacks n) := by
  unfold bindId
  refine .read rfl ?_
  split
  · rename_i hnone
    refine .of_run rfl trivial ⟨⟨fun m => ?_, rfl⟩, iff_of_true rfl hnone⟩
    show (s.graph.modify n _).node? m = _
    rw [Graph.node?_modify]
    split
    · rename_i hm
      subst hm
      obtain ⟨a, ha, hid⟩ := lacks_iff.mp hnone
      simp [ha, hid]
    · rename_i hm
      simp [Ne.symm hm]
  · rename_i hsome
    refine .pure ⟨⟨fun m => ?_, rfl⟩, iff_of_false nofun hsome⟩
    cases ha : s.graph.node? m with
    | none => rfl
    | some a =>
      have hkeeps : ¬(m ∈ [n] ∧ a.id = none) := by
        rintro ⟨hm, hid⟩
        exact hsome (lacks_iff.mpr ⟨a, List.mem_singleton.mp hm ▸ ha, hid⟩)
      rw [Option.map_some, if_neg hkeeps]

theorem sweep_labels : Does Anyhow c s (sweep (bindId id) l) fun b t =>
    Labels id l s t ∧ (b = true ↔ ∃ n ∈ l, s.Lacks n) := by
  induction l generalizing s with
  | nil => exact .pure ⟨.nil s, by simp⟩
  | cons n l ih =>
    refine .bind bindId_labels fun b t _ ht => .bind ih fun b' u _ hu => .pure ⟨ht.1.trans hu.1, ?_⟩
    rw [Bool.or_eq_true, ht.2, hu.2]
    constructor
    · rintro (hn | ⟨m, hm, hlacks⟩)
      · exact ⟨n, List.mem_cons_self, hn⟩
      · exact ⟨m, List.mem_cons_of_mem _ hm, (ht.1.lacks_iff.mp hlacks).2⟩
    · rintro ⟨m, hm, hlacks⟩
      by_cases hmn : m = n
      · exact .inl (hmn ▸ hlacks)
      · have hml := (List.mem_cons.mp hm).resolve_left hmn
        exact .inr ⟨m, hml, ht.1.lacks_iff.mpr ⟨by simpa using hmn, hlacks⟩⟩

/-- The first of the ids is given to the receivers that have none. -/
theorem resolveSetId_labels : Does Anyhow c s (resolveSetId op) fun b t =>
    (s.orderedIds op = [] → b = false ∧ t = s) ∧
    ∀ id more, s.orderedIds op = id :: more →
      Labels id (s.receivers op).toList s t ∧ (b = true ↔ ∃ n ∈ (s.receivers op).toList, s.Lacks n) := by
  unfold resolveSetId
  refine .read rfl ?_
  split
  · rename_i hnil
    refine .pure ⟨fun _ => ⟨rfl, rfl⟩, fun id more hids => ?_⟩
    rw [hnil] at hids
    cases hids
  · rename_i id more hids
    refine .bind sweep_labels fun b t _ ht => ?_
    have hpost : ∀ u, Labels id (s.receivers op).toList s u → (s.orderedIds op = [] → b = false ∧ u = s) ∧
        ∀ id more, s.orderedIds op = id :: more →
          Labels id (s.receivers op).toList s u ∧ (b = true ↔ ∃ n ∈ (s.receivers op).toList, s.Lacks n) := by
      intro u hu
      refine ⟨fun hnil => ?_, fun id' more' hids' => ?_⟩
      · rw [hids] at hnil
        cases hnil
      · rw [hids] at hids'
        cases hids'
        exact ⟨hu, ht.2⟩
    dsimp only
    split
    · exact .bind (.of_run rfl trivial (hpost _ ht.1.log)) fun _ _ _ h => .pure h
    · exact .pure (hpost t ht.1)

/-! ## Both together -/

/-- **The nearest id.** In every solver that is visited, the ids in the order of an operation that sets an id are the
ids that reach it, each once. If there is one, then there is one whose distance to the parameter is the least of all,
and the operation gives it to the receivers without an id. No other node changes, nothing else but the log does, and the
operation tells whether a receiver had no id. -/
theorem nearest_id_labels (hs : Visited c s) (ho : s.graph.op? op = some o) (hk : o.kind = .setId) :
    (s.orderedIds op).Nodup ∧ (∀ n, n ∈ s.orderedIds op ↔ n ∈ s.idsOf op) ∧
    ∃ b t, resolveSetId op c s = (b, t) ∧ ((∀ n, n ∉ s.idsOf op) → b = false ∧ t = s) ∧
      ((∃ n, n ∈ s.idsOf op) → ∃ q, o.parameter = some q ∧ ∃ id ∈ s.idsOf op,
        s.graph.distance id q < ⊤ ∧ (∀ n ∈ s.idsOf op, s.graph.distance id q ≤ s.graph.distance n q) ∧
        (∀ n, t.graph.node? n = (s.graph.node? n).map fun a =>
          if n ∈ s.receivers op ∧ a.id = none then { a with id := some id } else a) ∧
        t = { s with flowgraph.graph.nodes := t.graph.nodes, log := t.log } ∧
        (b = true ↔ ∃ n ∈ s.receivers op, (s.graph.node? n).any (·.id.isNone) = true)) := by
  have hinv := hs.intact.inv
  obtain ⟨q, hq, -⟩ := exists_parameter hinv ho hk
  have hmem : ∀ n, n ∈ s.orderedIds op ↔ n ∈ s.idsOf op := fun n => mem_orderedIds_iff hinv ho hk
  have hdoes : Does Anyhow c s (resolveSetId op) _ := resolveSetId_labels
  have hpost := hdoes.post
  rcases hrun : resolveSetId op c s with ⟨b, t⟩
  rw [hrun] at hpost
  obtain ⟨hnone, hsome⟩ := hpost
  refine ⟨nodup_orderedIds ho hq, hmem, b, t, rfl, fun hempty => hnone ?_, fun hn => ⟨q, hq, ?_⟩⟩
  · exact List.eq_nil_iff_forall_not_mem.mpr fun n hn => hempty n ((hmem n).mp hn)
  · obtain ⟨n, hn⟩ := hn
    obtain ⟨id, more, hids⟩ := List.exists_cons_of_ne_nil (List.ne_nil_of_mem ((hmem n).mpr hn))
    have hid : id ∈ s.idsOf op := (hmem id).mp (by rw [hids]; exact List.mem_cons_self)
    have horder := pairwise_orderedIds ho hq
    rw [hids, List.pairwise_cons] at horder
    obtain ⟨⟨hnode, hrest⟩, htells⟩ := hsome id more hids
    refine ⟨id, hid, Graph.distance_lt_top (mem_forward_of_mem_idsOf hinv ho hq hid), fun n hn => ?_, ?_, hrest, ?_⟩
    · rw [← hmem, hids] at hn
      rcases List.mem_cons.mp hn with rfl | hn
      · exact le_rfl
      · exact horder.1 n hn
    · simpa only [ExtTreeSet.mem_toList] using hnode
    · simpa only [ExtTreeSet.mem_toList, Lacks] using htells

end Solver

/-! ## Two ids -/

/-- The activity sets an id of a view that is one of two, and one of them comes by a detour. -/
def Example.withIds : Context :=
  let view : Local := ⟨"view", .ref "android.view.View"⟩
  let far : Local := ⟨"far", .int⟩
  let near : Local := ⟨"near", .int⟩
  let onCreate := methodOf "onCreate" [.ref "android.os.Bundle"] ⟨.void, 0⟩ [
    .assign (.var this) .this,
    .assign (.var view) (.new "android.view.View"),
    .assign (.var far) (.value (.int 5)),
    .assign (.var near) (.value (.var far)),
    .assign (.var near) (.value (.int 6)),
    .call (callOn view "setId" [.int] ⟨.void, 0⟩ [.var near])]
  application [onCreate] { widgetIds := byId [(5, "save"), (6, "load")] }

namespace Solver

/-- The view gets the id without the detour, although the other one is the first in the graph. -/
theorem nearest_id_withIds : ∃ s t, Visited Example.withIds s ∧ 0 ∈ s.idsOf 9 ∧ 1 ∈ s.idsOf 9 ∧
    resolveSetId 9 Example.withIds s = (true, t) ∧ (t.graph.node? 5).bind (·.id) = some 1 ∧
    s.graph.distance 1 8 ≤ s.graph.distance 0 8 := by
  have heval : (Flowgraph.build Example.withIds).toOption.any (fun f =>
      let s := Request.classify.after Example.withIds { flowgraph := f }
      0 ∈ s.idsOf 9 ∧ 1 ∈ s.idsOf 9 ∧ (s.graph.op? 9).any (fun o => o.kind = .setId ∧ o.parameter = some 8) ∧
        5 ∈ s.receivers 9 ∧ (s.graph.node? 5).any (·.id.isNone) = true ∧
        ((resolveSetId 9 Example.withIds s).2.graph.node? 5).bind (·.id) = some 1) = true := by
    decide +kernel
  obtain ⟨f, hf, hk⟩ := exists_of_toOption heval
  obtain ⟨h0, h1, hop, h5, hnone, hid⟩ := of_decide_eq_true hk
  obtain ⟨o, ho, hk⟩ := (Option.any_eq_true _ _).mp hop
  obtain ⟨hkind, hparameter⟩ := of_decide_eq_true hk
  have hs : Visited Example.withIds (Request.classify.after Example.withIds { flowgraph := f }) :=
    ⟨f, hf, .single (.request .classify)⟩
  obtain ⟨-, -, b, t, hrun, -, hbound⟩ := nearest_id_labels hs ho hkind
  obtain ⟨q, hq, id, -, -, hleast, hnode, -, htells⟩ := hbound ⟨0, h0⟩
  obtain rfl : q = 8 := Option.some.inj (hq.symm.trans hparameter)
  obtain rfl : b = true := htells.mpr ⟨5, h5, hnone⟩
  rw [hrun] at hid
  obtain ⟨a, ha, hlacks⟩ := lacks_iff.mp hnone
  have hlabelled := hnode 5
  rw [ha, Option.map_some, if_pos ⟨h5, hlacks⟩] at hlabelled
  obtain rfl : id = 1 := by
    rw [hlabelled] at hid
    exact Option.some.inj hid
  exact ⟨_, t, hs, h0, h1, hrun, hid, hleast 0 h0⟩

end Solver

end WidgetFlow
