import WidgetFlow.Proofs.Building
import WidgetFlow.Proofs.Invariants

/-!
# Containment has no cycles

A graph is changed from outside by five calls (`Graph.Call`). Whatever calls on existing nodes are made, and in whatever
order, starting with the empty graph, no node is inside itself (`Made.acyclic`).

* `Closed.apply` and `Acyclic.apply`: what one call preserves;
* `Made.nest_iff`: when `nest` refuses an arc, when it finds it there, and what it adds.
-/

namespace WidgetFlow.Graph

open Std Relation

variable {g g' : Graph} {n m child parent : NodeId}

/-! ## Calls -/

/-- A change of a graph. -/
inductive Call where
  | push (kind : NodeKind)
  | pushOp (o : Op)
  | connect (src dst : NodeId) (label : Option Label)
  | nest (child parent : NodeId)
  /-- Binds an id to a node, or takes its id away. -/
  | bindId (n : NodeId) (id : Option NodeId)

/-- The nodes that a call is about. -/
def Call.nodes : Call → List NodeId
  | push _ => []
  | pushOp o => o.parameter.toList ++ o.receiver.toList ++ o.result.toList
  | connect src dst _ => [src, dst]
  | nest child parent => [child, parent]
  | bindId n id => n :: id.toList

/-- The graph after a call. An arc that is refused is not added. -/
def apply (g : Graph) : Call → Graph
  | .push kind => g.push kind
  | .pushOp o => g.pushOp o
  | .connect src dst label => g.connect src dst label
  | .nest child parent =>
    match g.nest child parent with
    | .ok (g', _) => g'
    | .error _ => g
  | .bindId n id => g.modify n fun a => { a with id }

/-- The graphs that calls on existing nodes make. -/
inductive Made : Graph → Prop
  | empty : Made {}
  | call {g : Graph} {call : Call} : Made g → (∀ n ∈ call.nodes, n < g.size) → Made (g.apply call)

/-! ## The step -/

theorem Closed.nest {added : Bool} (h : g.Closed) (hc : child < g.size) (hp : parent < g.size)
    (hn : g.nest child parent = .ok (g', added)) : g'.Closed := by
  rcases nest_ok hn with ⟨-, rfl, -⟩ | ⟨-, rfl, -⟩
  · exact h
  · refine ⟨h.flow, fun a ha => ?_⟩
    rcases Container.mem_insert.mp ha with rfl | ha
    · exact ⟨hc, hp⟩
    · exact h.containment a ha

/-- A call on existing nodes makes no edge to a missing one. -/
theorem Closed.apply {call : Call} (h : g.Closed) (hn : ∀ n ∈ call.nodes, n < g.size) : (g.apply call).Closed := by
  cases call with
  | push kind => exact h.of_flow (by simp [Graph.apply]) rfl fun a ha => .inl ha
  | pushOp o =>
    refine h.pushOp fun slot x hx => hn x ?_
    cases slot <;> simp_all [Call.nodes, Op.operand?]
  | connect src dst label =>
    refine h.of_flow (Nat.le_of_eq size_connect.symm) rfl fun a ha => ?_
    rcases mem_flow_connect.mp ha with rfl | ha
    · exact .inr ⟨hn _ (by simp [Call.nodes]), hn _ (by simp [Call.nodes])⟩
    · exact .inl ha
  | nest child parent =>
    have hc : child < g.size := hn _ (by simp [Call.nodes])
    have hp : parent < g.size := hn _ (by simp [Call.nodes])
    cases hr : g.nest child parent with
    | error v => simpa only [Graph.apply, hr] using h
    | ok r => simpa only [Graph.apply, hr] using h.nest hc hp hr
  | bindId n id => exact h.of_flow (by simp [Graph.apply]) rfl fun a ha => .inl ha

/-- Only nesting changes containment. -/
theorem containment_apply {call : Call} (h : ∀ child parent, call ≠ .nest child parent) :
    (g.apply call).containment = g.containment := by
  cases call with
  | push kind => rfl
  | pushOp o => exact containment_pushOp
  | connect src dst label => rfl
  | nest child parent => exact absurd rfl (h child parent)
  | bindId n id => rfl

theorem Acyclic.of_containment (h : g.Acyclic) (hc : g'.containment = g.containment) : g'.Acyclic := by
  unfold Acyclic Below at *
  rw [hc]
  exact h

/-- **One call.** A call makes no cycle. -/
theorem Acyclic.apply {call : Call} (h : g.Acyclic) (hc : g.Closed) : (g.apply call).Acyclic := by
  by_cases hcall : ∃ child parent, call = .nest child parent
  · obtain ⟨child, parent, rfl⟩ := hcall
    cases hr : g.nest child parent with
    | error v => simpa only [Graph.apply, hr] using h
    | ok r => simpa only [Graph.apply, hr] using h.nest hc hr
  · apply h.of_containment
    apply containment_apply
    intro child parent he
    exact hcall ⟨child, parent, he⟩

/-! ## The run -/

theorem closed_empty : Closed {} :=
  ⟨fun _ h => absurd h ExtTreeMap.not_mem_empty, fun _ h => absurd h ExtTreeSet.not_mem_empty⟩

theorem acyclic_empty : Acyclic {} := fun _ h => absurd h ExtTreeSet.not_mem_empty

theorem Made.closed (h : Made g) : g.Closed := by
  induction h with
  | empty => exact closed_empty
  | call _ hn ih => exact ih.apply hn

/-- **Every run of calls.** -/
theorem Made.acyclic (h : Made g) : g.Acyclic := by
  induction h with
  | empty => exact acyclic_empty
  | call hg _ ih => exact ih.apply hg.closed

/-! ## Inside -/

/-- `n` is inside `m`, at any depth. -/
def Inside (g : Graph) (n m : NodeId) : Prop := TransGen (fun x y => Arc.mk x y ∈ g.containment) n m

theorem inside_or_eq_iff : n = m ∨ g.Inside n m ↔ g.Below m n := by
  rw [Below, ← reflTransGen_swap, reflTransGen_iff_eq_or_transGen, eq_comm]
  rfl

theorem Acyclic.not_inside (h : g.Acyclic) : ¬g.Inside n n := by
  intro hn
  obtain ⟨p, hp, hpn⟩ := TransGen.head'_iff.mp hn
  exact h _ hp (reflTransGen_swap.mp hpn)

/-! ## Nesting -/

theorem hasChild_iff : g.hasChild parent child = true ↔ Arc.mk child parent ∈ g.containment :=
  ExtTreeSet.contains_iff_mem

/-- The graph with `child` in `parent`. -/
abbrev withArc (g : Graph) (child parent : NodeId) : Graph :=
  { g with containment := g.containment.insert ⟨child, parent⟩ }

theorem withArc_ne (h : Arc.mk child parent ∉ g.containment) : g.withArc child parent ≠ g := by
  intro he
  apply h
  rw [← he]
  exact Container.mem_insert.mpr (.inl rfl)

section Nest

variable (hc : g.Closed) (ha : g.Acyclic)
include hc ha

theorem nest_error_iff : (∃ v, g.nest child parent = .error v) ↔ child = parent ∨ g.Inside parent child := by
  have hbelow : child = parent ∨ g.Inside parent child ↔ g.Below child parent := by
    rw [← inside_or_eq_iff, eq_comm]
  rw [hbelow]
  constructor
  · rintro ⟨v, hv⟩
    by_contra hb
    have hne : child ≠ parent := fun he => hb (he ▸ .refl)
    have hd : parent ∉ g.descendants child := fun hd => hb (below_of_mem_descendants hd)
    unfold nest at hv
    rw [if_neg hne, if_neg hd] at hv
    split at hv <;> cases hv
  · intro hb
    have hd := mem_descendants_of_below hc hb
    -- an arc that is there already would close a cycle with the way down
    have hno : ¬g.hasChild parent child = true := fun hm => ha _ (hasChild_iff.mp hm) hb
    unfold nest
    rw [if_neg hno, if_pos hd]
    split <;> exact ⟨_, rfl⟩

omit hc in
theorem nest_ok_false_iff :
    g.nest child parent = .ok (g', false) ↔ g' = g ∧ Arc.mk child parent ∈ g.containment := by
  constructor
  · intro h
    rcases nest_ok h with ⟨-, hg, hm⟩ | ⟨hf, -⟩
    · exact ⟨hg, hm⟩
    · cases hf
  · rintro ⟨rfl, hm⟩
    have hne : child ≠ parent := by
      rintro rfl
      exact ha _ hm .refl
    unfold nest
    rw [if_neg hne, if_pos (hasChild_iff.mpr hm)]

theorem nest_ok_true_iff : g.nest child parent = .ok (g', true) ↔
    g' = g.withArc child parent ∧ ¬(child = parent ∨ g.Inside parent child) ∧ Arc.mk child parent ∉ g.containment := by
  rw [← nest_error_iff hc ha]
  constructor
  · intro h
    rcases nest_ok h with ⟨hf, -⟩ | ⟨-, hg, hm, -⟩
    · cases hf
    · refine ⟨hg, ?_, hm⟩
      rintro ⟨v, hv⟩
      rw [h] at hv
      cases hv
  · rintro ⟨rfl, hno, hm⟩
    cases hr : g.nest child parent with
    | error v => exact absurd ⟨v, hr⟩ hno
    | ok r =>
      obtain ⟨g', added⟩ := r
      rcases nest_ok hr with ⟨-, -, hin⟩ | ⟨rfl, rfl, -⟩
      · exact absurd hin hm
      · rfl

end Nest

/-- **Containment has no cycles.** In every graph that calls make, nothing is inside itself. An arc is refused exactly
if it would put a node into itself, and it is found exactly if it is there. In all other cases it is added, and nothing
else changes. -/
theorem Made.nest_iff (h : Made g) (child parent : NodeId) :
    (∀ n, ¬g.Inside n n) ∧
    ((∃ v, g.nest child parent = .error v) ↔ child = parent ∨ g.Inside parent child) ∧
    (∀ g', g.nest child parent = .ok (g', false) ↔ g' = g ∧ Arc.mk child parent ∈ g.containment) ∧
    (∀ g', g.nest child parent = .ok (g', true) ↔
      g' = g.withArc child parent ∧ ¬(child = parent ∨ g.Inside parent child) ∧
        Arc.mk child parent ∉ g.containment) ∧
    (g.apply (.nest child parent) ≠ g ↔ ∃ g', g.nest child parent = .ok (g', true)) := by
  have hc := h.closed
  have ha := h.acyclic
  refine ⟨fun n => ha.not_inside, nest_error_iff hc ha, fun g' => nest_ok_false_iff ha,
    fun g' => nest_ok_true_iff hc ha, ?_⟩
  cases hr : g.nest child parent with
  | error v => simp [Graph.apply, hr]
  | ok r =>
    obtain ⟨g', added⟩ := r
    have happly : g.apply (.nest child parent) = g' := by simp only [Graph.apply, hr]
    rw [happly]
    rcases nest_ok hr with ⟨rfl, rfl, -⟩ | ⟨rfl, rfl, hm, -⟩
    · simp
    · simp [withArc_ne hm]

namespace Example

/-- A text in a list in a box. -/
def nested : Graph :=
  [.push (.object (.inflated "Box")), .push (.object (.inflated "List")), .push (.object (.inflated "Text")),
    .connect 0 2 none, .nest 2 1, .nest 1 0].foldl Graph.apply {}

theorem nested_made : Made nested := by
  unfold nested
  simp only [List.foldl_cons, List.foldl_nil]
  repeat refine .call ?_ (by decide +kernel)
  exact .empty

end Example

/-- A text that is in a box at the second level is there no second time, and the box does not go into it. -/
theorem nest_nested : Made Example.nested ∧ Example.nested.Inside 2 0 ∧
    (∃ v, Example.nested.nest 0 2 = .error v) ∧ Example.nested.nest 2 1 = .ok (Example.nested, false) ∧
    Example.nested.nest 2 0 = .ok (Example.nested.withArc 2 0, true) := by
  have hmade := Example.nested_made
  have h₁ : Arc.mk 2 1 ∈ Example.nested.containment := by decide +kernel
  have h₀ : Arc.mk 1 0 ∈ Example.nested.containment := by decide +kernel
  have hin : Example.nested.Inside 2 0 := .head h₁ (.single h₀)
  have hno : ¬Example.nested.Inside 0 2 := fun h => (hmade.nest_iff 0 2).1 2 (hin.trans h)
  refine ⟨hmade, hin, (hmade.nest_iff 0 2).2.1.mpr (.inr hin), ((hmade.nest_iff 2 1).2.2.1 _).mpr ⟨rfl, h₁⟩,
    ((hmade.nest_iff 2 0).2.2.2.1 _).mpr ⟨rfl, ?_, by decide +kernel⟩⟩
  rintro (h | h)
  · cases h
  · exact hno h

end WidgetFlow.Graph
