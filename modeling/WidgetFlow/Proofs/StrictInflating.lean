import WidgetFlow.Proofs.Copying
import WidgetFlow.Proofs.Solving
import WidgetFlow.Proofs.StrictConstruction

/-!
# Inflation refuses nothing

A copy of a layout or of a menu can always be made (`Solver.inflateLayout_sure`, `Solver.inflateMenu_sure`), so a whole
inflation succeeds and reports nothing (`inflate_sure`), and it is the same in strict and lenient mode (`inflate_still`).
What can stop a strict solver elsewhere is `Solver.Stops`.
-/

namespace WidgetFlow

open Std Relation

namespace Solver

variable {α : Type} {c : Context} {s t u : Solver} {op n m child parent layout : NodeId}

/-! ## Single changes -/

section Calm

variable {R : Solver → Solver → Prop} [IsPreorder Solver R]

theorem get_calm : Calm R get := ⟨fun _ s => .of_run rfl rfl (refl_of R s) rfl⟩

theorem getGraph_calm : Calm R getGraph := ⟨fun _ s => .of_run rfl rfl (refl_of R s) rfl⟩

theorem resources_calm : Calm R resources := ⟨fun _ s => .of_run rfl rfl (refl_of R s) rfl⟩

end Calm

/-- A change that leaves the flowgraph and what was reported alone. -/
theorem modify_calm {g : Solver → Solver} (hg : ∀ s, (g s).flowgraph = s.flowgraph)
    (he : ∀ s, (Log.errors (g s).log, (g s).reported) = (Log.errors s.log, s.reported)) :
    Calm Anyhow (modify g) := by
  constructor
  intro c s
  obtain ⟨herrors, hmarks⟩ := Prod.mk.inj (he s)
  refine .of_run rfl rfl trivial (Prod.ext ?_ hmarks)
  show Log.errors _ = Log.errors _
  rw [Log.errors_append, Log.errors_append, hg, herrors]

theorem updateStatistics_calm {g : Statistics → Statistics} : Calm Anyhow (updateStatistics g) :=
  modify_calm (fun _ => rfl) fun _ => rfl

theorem logEntry_calm {level : Log.Level} {text : String} {l : Option Label} (h : level ≠ .error) :
    Calm Anyhow (logEntry level text l) :=
  modify_calm (fun _ => rfl) fun _ => Prod.ext (Flowgraph.errors_log h) rfl

theorem remark_calm {r : Remark} {l : Option Label} : Calm Anyhow (remark r l) := logEntry_calm nofun

theorem onFlowgraph_calm {act : Edit α} (h : Calm Flowgraph.Routine act) : Calm Anyhow (onFlowgraph act) := by
  constructor
  intro c s
  have ha := h.run c s.flowgraph
  constructor
  · show (((act (c.mode true)) s.flowgraph).1, { s with flowgraph := ((act (c.mode true)) s.flowgraph).2 }) = _
    rw [ha.blind]
    rfl
  · trivial
  · have hlog : Log.errors ((act (c.mode false)) s.flowgraph).2.log = Log.errors s.flowgraph.log :=
      congrArg Prod.fst ha.silent
    refine Prod.ext ?_ rfl
    show Log.errors (((act (c.mode false)) s.flowgraph).2.log ++ s.log) = Log.errors (s.flowgraph.log ++ s.log)
    rw [Log.errors_append, Log.errors_append, hlog]

/-- How a strict run stops: it comes to a violation that was not reported before, marks it as reported, and fails. -/
inductive Stops : Fault → Solver → Solver → Prop
  | flow {s : Solver} {op n : NodeId} (h : s.graph.Refuses op n) (hnew : Arc.mk n op ∉ s.reported) :
      Stops (s.graph.unexpected n op) s { s with reported := s.reported.insert ⟨n, op⟩ }
  | containment {s : Solver} {op child parent : NodeId} {o : Op} {v : Violation} (ho : s.graph.op? op = some o)
      (hk : o.kind = .addChild) (hc : child ∈ s.widgetParameters op) (hp : parent ∈ s.receivers op)
      (h : s.graph.nest child parent = .error v) (hnew : Arc.mk child parent ∉ s.rejected) :
      Stops ⟨v, s.graph.opLabel? op⟩ s { s with rejected := s.rejected.insert ⟨child, parent⟩ }

/-! ## All inflations -/

/-- The graph grows, and what is inside of anything stays a node. -/
structure Widens (s t : Solver) : Prop where
  size : s.graph.size ≤ t.graph.size
  bounded : s.graph.Bounded → t.graph.Bounded

instance : IsPreorder Solver Widens where
  refl _ := ⟨Nat.le_refl _, id⟩
  trans _ _ _ h h' := ⟨Nat.le_trans h.size h'.size, fun hs => h'.bounded (h.bounded hs)⟩

theorem inflateLayout_widens {window : Option NodeId} (hs : s.graph.Bounded) :
    Sure c s (inflateLayout op layout window) fun _ u => Widens s u := by
  refine (inflateLayout_sure hs).imp fun root u h => ?_
  obtain rfl | ⟨t, w, hw, rfl⟩ := h
  · exact refl_of Widens u
  · exact ⟨hw.plants.graph.toExtends.size, hw.bounded⟩

theorem inflateMenu_widens {menuId menu : NodeId} (hs : s.graph.Bounded) (hm : menu < s.graph.size) :
    Sure c s (inflateMenu op menuId menu) fun _ u => Widens s u := by
  refine (inflateMenu_sure hs hm).imp fun _ u h => ?_
  obtain ⟨-, rfl⟩ | ⟨-, w, hw⟩ := h
  · exact refl_of Widens u
  · exact ⟨hw.plants.graph.toExtends.size, fun hs => hw.boundedIn hs hm⟩

theorem inflateResults_widens (hs : s.graph.Bounded) : Sure c s (inflateResults op) fun _ u => Widens s u := by
  unfold inflateResults
  refine .get (fun _ => rfl) (.each fun layout _ t ht => ?_)
  refine .bind (inflateLayout_widens (ht.bounded hs)) fun root u hu => ?_
  split
  · exact .modify (fun _ => rfl) rfl ⟨hu.size, hu.bounded⟩
  · exact .pure hu

theorem inflateContents_widens (hs : s.graph.Bounded) : Sure c s (inflateContents op) fun _ u => Widens s u := by
  unfold inflateContents
  refine .get (fun _ => rfl) (.each fun window _ t ht => .each fun layout _ t' ht' => ?_)
  refine .bind (inflateLayout_widens (ht'.bounded (ht.bounded hs))) fun root u hu => ?_
  split
  · exact .modify (fun _ => rfl) rfl ⟨hu.size, hu.bounded⟩
  · exact .pure hu

theorem inflateMenus_widens (hs : s.graph.Bounded) : Sure c s (inflateMenus op) fun _ u => Widens s u := by
  unfold inflateMenus
  refine .get (fun _ => rfl) (.each fun menu hm t ht => .each fun id _ t' ht' => ?_)
  have h := trans_of Widens ht ht'
  have hmenu := lt_of_object?_any (mem_receiversWhere.mp hm).2
  exact inflateMenu_widens (h.bounded hs) (Nat.lt_of_lt_of_le hmenu h.size)

/-- **An inflation succeeds**, whether the solver is strict or not. It reports nothing and nothing is refused. -/
theorem inflate_sure (hs : s.graph.Bounded) : Sure c s inflate fun _ u => Widens s u := by
  unfold inflate
  refine .getGraph (.bind (.each fun _ _ t ht => inflateResults_widens (ht.bounded hs)) fun _ s₁ h₁ => ?_)
  have hs₁ := h₁.bounded hs
  refine .getGraph (.bind (.each fun _ _ t ht => inflateContents_widens (ht.bounded hs₁)) fun _ s₂ h₂ => ?_)
  have hs₂ := h₂.bounded hs₁
  refine .getGraph (.bind (.each fun _ _ t ht => inflateMenus_widens (ht.bounded hs₂)) fun _ s₃ h₃ => ?_)
  have h := trans_of Widens h₁ (trans_of Widens h₂ h₃)
  exact ⟨s₃.pending, { s₃ with pending := false }, fun _ _ => rfl, rfl, rfl, ⟨h.size, h.bounded⟩⟩

/-- An inflation is the same in both modes. -/
theorem inflate_still (hs : s.graph.Bounded) : Mirrors (Still Anyhow) Stops c s inflate := by
  obtain ⟨changed, t, hrun, hrejected, hrecord, -⟩ := inflate_sure (c := c) hs
  have hrun : ∀ strict, inflate (c.mode strict) s = (.ok changed, t) := fun strict =>
    (hrun strict s.rejected).trans (by rw [← hrejected])
  exact .of_run (hrun true) (hrun false) ⟨trivial, hrecord⟩ hrecord

end Solver

end WidgetFlow
