import WidgetFlow.Proofs.Invariants

/-!
# Progress

What a solver knows consists of facts about pairs of nodes (`Solver.holds`). Facts are never lost, and an action that
tells of a change has found a new one (`Solver.Reports`). The nodes stay within a room that does not grow
(`Run.room_le`), so only so many facts can be lacking (`Solver.lacking_le`), and each change leaves fewer of them
(`Solver.lacking_lt`).
-/

namespace WidgetFlow

open Std Relation Flowgraph

namespace Solver

variable {s t u : Solver} {c : Context} {op n m l w v a b : NodeId} {x : Operand} {slot : Slot} {p : Phase}

/-! ## Facts -/

/-- The kinds of facts about two nodes. -/
inductive FactKind where
  | receiver | parameter | result | root | child | flow | id | text | drawable | node
  deriving DecidableEq

def FactKind.all : List FactKind :=
  [receiver, parameter, result, root, child, flow, id, text, drawable, node]

theorem FactKind.mem_all (k : FactKind) : k ∈ FactKind.all.toFinset := by cases k <;> decide

/-- What is known of two nodes. -/
def holds (s : Solver) (a b : NodeId) : FactKind → Bool
  | .receiver => b ∈ s.receivers a
  | .parameter => b ∈ s.parameters a
  | .result => b ∈ s.results a
  | .root => b ∈ s.rootsOf a
  | .child => Arc.mk a b ∈ s.graph.containment
  | .flow => Arc.mk a b ∈ s.graph.flow
  | .id => (s.graph.node? a).any (·.id = some b)
  | .text => (s.graph.node? a).any (b ∈ ·.texts)
  | .drawable => (s.graph.node? a).any (b ∈ ·.drawables)
  | .node => a < s.graph.size

theorem Le.node_any (h : s.Le t) {p : Node → Bool} (hp : ∀ d e : Node, d.Grows e → p d = true → p e = true)
    (ha : (s.graph.node? a).any p = true) : (t.graph.node? a).any p = true := by
  obtain ⟨d, hd, hpd⟩ := (Option.any_eq_true _ _).mp ha
  obtain ⟨e, he, hde⟩ := h.graph.node a d hd
  exact (Option.any_eq_true _ _).mpr ⟨e, he, hp d e hde hpd⟩

theorem Le.holds (h : s.Le t) {k : FactKind} (hk : s.holds a b k = true) : t.holds a b k = true := by
  cases k with
  | receiver | parameter | result => exact decide_eq_true (h.solution _ _ _ (of_decide_eq_true hk))
  | root => exact decide_eq_true (h.roots _ _ (of_decide_eq_true hk))
  | child => exact decide_eq_true (h.graph.containment _ (of_decide_eq_true hk))
  | flow => exact decide_eq_true (h.graph.toExtends.mem_flow (of_decide_eq_true hk))
  | id => exact h.node_any (fun d e hde hd => decide_eq_true (hde.id b (of_decide_eq_true hd))) hk
  | text => exact h.node_any (fun d e hde hd => decide_eq_true (hde.texts b (of_decide_eq_true hd))) hk
  | drawable => exact h.node_any (fun d e hde hd => decide_eq_true (hde.drawables b (of_decide_eq_true hd))) hk
  | node => exact decide_eq_true (h.graph.toExtends.lt (of_decide_eq_true hk))

/-- There is a fact in `t` that is not in `s`. -/
def Gains (s t : Solver) : Prop :=
  ∃ a b k, a < t.graph.size ∧ b < t.graph.size ∧ t.holds a b k = true ∧ s.holds a b k = false

theorem Gains.mono_right (h : s.Gains t) (ht : t.Le u) : s.Gains u := by
  obtain ⟨a, b, k, ha, hb, hk, hn⟩ := h
  exact ⟨a, b, k, ht.graph.toExtends.lt ha, ht.graph.toExtends.lt hb, ht.holds hk, hn⟩

theorem Gains.mono_left (h : t.Gains u) (hs : s.Le t) : s.Gains u := by
  obtain ⟨a, b, k, ha, hb, hk, hn⟩ := h
  refine ⟨a, b, k, ha, hb, hk, ?_⟩
  rw [Bool.eq_false_iff] at hn ⊢
  exact fun hk => hn (hs.holds hk)

/-- An inflated widget is something new. -/
theorem Le.gains (h : s.Le t) (hi : s.statistics.inflated < t.statistics.inflated) : s.Gains t := by
  have hsize : s.graph.size < t.graph.size := by
    have := h.nodes
    omega
  exact ⟨s.graph.size, s.graph.size, .node, hsize, hsize, decide_eq_true hsize, decide_eq_false (Nat.lt_irrefl _)⟩

/-! ## Nothing new -/

/-- The two solvers know the same. -/
structure Same (s t : Solver) : Prop where
  graph : t.graph = s.graph
  ids : t.ids = s.ids
  candidates : t.candidates = s.candidates
  downstream : t.downstream = s.downstream
  solution : ∀ op slot, t.solution op slot = s.solution op slot
  roots : ∀ w, t.rootsOf w = s.rootsOf w

namespace Same

theorem refl (s : Solver) : s.Same s := ⟨rfl, rfl, rfl, rfl, fun _ _ => rfl, fun _ => rfl⟩

theorem trans (h : s.Same t) (h' : t.Same u) : s.Same u :=
  ⟨h'.graph.trans h.graph, h'.ids.trans h.ids, h'.candidates.trans h.candidates, h'.downstream.trans h.downstream,
    fun op slot => (h'.solution op slot).trans (h.solution op slot), fun w => (h'.roots w).trans (h.roots w)⟩

theorem symm (h : s.Same t) : t.Same s :=
  ⟨h.graph.symm, h.ids.symm, h.candidates.symm, h.downstream.symm, fun op slot => (h.solution op slot).symm,
    fun w => (h.roots w).symm⟩

theorem settle (s : Solver) : s.Same { s with pending := false } := ⟨rfl, rfl, rfl, rfl, fun _ _ => rfl, fun _ => rfl⟩

end Same

/-- The answer of an action that tells whether something changed. -/
structure Reports (changed : Bool) (s t : Solver) : Prop where
  new : changed = true → s.Gains t
  same : changed = false → s.Same t

theorem Reports.refl (s : Solver) : Reports false s s := ⟨nofun, fun _ => .refl s⟩

theorem reporting {R : Solver → Solver → Prop} (hR : ∀ s t, R s t → s.Le t) : Reporting R Reports where
  refl := Reports.refl
  or {s t u b b'} hst htu hb hb' := by
    refine ⟨fun h => ?_, fun h => ?_⟩
    · cases b with
      | true => exact (hb.new rfl).mono_right (hR t u htu)
      | false => exact (hb'.new h).mono_left (hR s t hst)
    · obtain ⟨rfl, rfl⟩ := Bool.or_eq_false_iff.mp h
      exact (hb.same rfl).trans (hb'.same rfl)

/-! ## The room does not grow -/

theorem Le.opNodes (h : s.Le t) : t.flowgraph.graph.opNodes = s.flowgraph.graph.opNodes := by
  ext n
  rw [Graph.mem_opNodes, Graph.mem_opNodes, Graph.isOp, Graph.isOp]
  exact iff_of_eq (congrArg (fun o => Option.isSome o = true) (h.op? n))

theorem blind_isTarget : Obj.Blind fun o => o.isWindow || o.isMenu := fun _ _ _ _ => rfl

theorem Le.cached (h : s.Le t) : s.flowgraph.cached ⊆ t.flowgraph.cached := by
  intro key hkey
  obtain ⟨hk, hop, hid, htarget⟩ := mem_cached.mp hkey
  obtain ⟨r, hr⟩ := Option.isSome_iff_exists.mp (ExtTreeMap.mem_iff_isSome_getElem?.mp hk)
  obtain ⟨i, hi⟩ := Option.isSome_iff_exists.mp hid
  refine mem_cached.mpr ⟨?_, ?_, ?_, fun w hw => h.graph.object?_any blind_isTarget (htarget w hw)⟩
  · exact ExtTreeMap.mem_iff_isSome_getElem?.mpr (Option.isSome_iff_exists.mpr ⟨r, h.inflations key r hr⟩)
  · rw [Graph.isOp]
    exact (h.op? key.op).symm ▸ hop
  · exact Option.isSome_iff_exists.mpr ⟨i, h.graph.toExtends.id? hi⟩

/-- Each widget of an inflation takes one place. -/
theorem Inflates.within (h : Inflates c s t) :
    ∃ k, Within c k s.flowgraph t.flowgraph ∧ s.statistics.inflated + k = t.statistics.inflated := by
  cases h with
  | note => exact ⟨0, .of_nodes rfl rfl, rfl⟩
  | nest _ _ h => exact ⟨0, .of_nodes (Graph.nodes_nest h) rfl, rfl⟩
  | @widget object f₁ f₂ id texts drawables origin pending log hobj h₁ hfresh h₂ _ =>
    have hnot : (object.isWindow || object.isMenu) = false := by cases object <;> first | rfl | cases hobj
    have hpush : Within c 1 s.flowgraph (s.flowgraph.withNode (.object object)) :=
      .push (k := .object object) rfl hnot rfl rfl
    have hmod : Within c 0 f₁ { f₁ with graph := f₁.graph.modify s.graph.size (Node.equip id texts drawables) } := by
      refine .modify ?_ rfl rfl
      exact fun a => .refl _
    exact ⟨1, hpush.trans (h₁.within.trans (hmod.trans h₂.within)), rfl⟩

theorem within_of_inflates (h : ReflTransGen (Inflates c) s t) :
    ∃ k, Within c k s.flowgraph t.flowgraph ∧ s.statistics.inflated + k = t.statistics.inflated := by
  induction h with
  | refl => exact ⟨0, .of_nodes rfl rfl, rfl⟩
  | tail _ h ih =>
    obtain ⟨k, hk, hn⟩ := ih
    obtain ⟨j, hj, hm⟩ := h.within
    exact ⟨k + j, hk.trans hj, by omega⟩

/-- A new inflation that was due is paid for. -/
theorem room_le_of_inflation {key : InflationKey} {k : Nat} (h : Within c k s.flowgraph t.flowgraph) (hle : s.Le t)
    (hk : k ≤ c.project.resources.size) (hdue : s.LayoutDue key ∨ s.MenuDue key)
    (hnew : s.flowgraph.inflations[key]? = none) (hin : key ∈ t.flowgraph.inflations) :
    t.flowgraph.room c ≤ s.flowgraph.room c := by
  have hinside : t.graph.isOp key.op = true ∧ (t.graph.id? key.id).isSome = true
      ∧ ∀ w ∈ key.target, (t.graph.object? w).any fun o => o.isWindow || o.isMenu := by
    have hid : ∀ {l space op}, l ∈ s.idsIn op space → (t.graph.id? l).isSome = true := by
      intro l space op hl
      obtain ⟨i, hi, _⟩ := (Option.any_eq_true _ _).mp (mem_idsIn.mp (hle.idsIn hl)).2
      rw [hi]
      rfl
    have hop : ∀ {op o}, s.graph.op? op = some o → t.graph.isOp op = true := by
      intro op o ho
      rw [Graph.isOp, hle.op?, ho]
      rfl
    have htarget : ∀ {w op} {p : Obj → Bool}, (∀ o, p o = true → (o.isWindow || o.isMenu) = true) →
        w ∈ s.receiversWhere op p → (t.graph.object? w).any (fun o => o.isWindow || o.isMenu) = true := by
      intro w op p hp hw
      obtain ⟨o, ho, hpo⟩ := (Option.any_eq_true _ _).mp (mem_receiversWhere.mp hw).2
      exact hle.graph.object?_any blind_isTarget ((Option.any_eq_true _ _).mpr ⟨o, ho, hp o hpo⟩)
    rcases hdue with hdue | hdue
    · cases hdue with
      | result ho _ hl => exact ⟨hop ho, hid hl, by simp⟩
      | content ho _ hw hl =>
        refine ⟨hop ho, hid hl, fun w hw' => ?_⟩
        cases hw'
        exact htarget (fun o h => by simp [h]) hw
    · cases hdue with
      | menu ho _ hm hl =>
        refine ⟨hop ho, hid hl, fun w hw' => ?_⟩
        cases hw'
        exact htarget (fun o h => by simp [h]) hm
  have hlt : s.flowgraph.cached.card < t.flowgraph.cached.card := by
    refine Finset.card_lt_card ((Finset.ssubset_iff_of_subset hle.cached).mpr ⟨key, ?_, fun hkey => ?_⟩)
    · exact mem_cached.mpr ⟨hin, hinside⟩
    · have := ExtTreeMap.mem_iff_isSome_getElem?.mp (mem_cached.mp hkey).1
      rw [hnew] at this
      cases this
  refine h.room_le hle.opNodes ?_
  calc k + c.project.resources.size * s.flowgraph.cached.card
      ≤ c.project.resources.size * (s.flowgraph.cached.card + 1) := by rw [Nat.mul_add]; omega
    _ ≤ c.project.resources.size * t.flowgraph.cached.card := Nat.mul_le_mul_left _ hlt

theorem Step.room_le (h : Step c p s t) : t.flowgraph.room c ≤ s.flowgraph.room c := by
  have hle := h.le
  have hsame : Within c 0 s.flowgraph t.flowgraph → t.flowgraph.room c ≤ s.flowgraph.room c := by
    intro hw
    refine hw.room_le hle.opNodes ?_
    rw [Nat.zero_add]
    exact Nat.mul_le_mul_left _ (Finset.card_le_card hle.cached)
  cases h with
  | note | settle | id | candidate | downstream | seed | propagate | find | root => exact Nat.le_refl _
  | nest _ _ _ _ h => exact hsame (.of_nodes (Graph.nodes_nest h) rfl)
  | bindId | texts | drawables =>
    refine hsame (.modify ?_ rfl rfl)
    exact fun a => .refl _
  | @dispatch _ op view listener _ _ _ _ _ h =>
    have hmark : Within c 0 s.flowgraph (s.flowgraph.mark op view listener) := .of_nodes rfl rfl
    exact hsame (hmark.trans h.within)
  | @layout _ t' key root hdue hnew hin _ hsize =>
    obtain ⟨k, hk, hn⟩ := within_of_inflates hin
    have hfinish : Within c 0 t'.flowgraph (t'.finish key root).flowgraph := by
      rw [finish_eq]
      exact .of_nodes rfl rfl
    refine room_le_of_inflation (hk.trans hfinish) hle (by omega) (.inl hdue) hnew ?_
    rw [finish_eq]
    exact ExtTreeMap.mem_insert_self
  | @menu _ _ key hdue hnew hin hsize =>
    obtain ⟨k, hk, hn⟩ := within_of_inflates hin
    have hcache : Within c 0 s.flowgraph (s.cache key none).flowgraph := .of_nodes rfl rfl
    have hn : s.statistics.inflated + k = t.statistics.inflated := hn
    refine room_le_of_inflation (hcache.trans hk) hle (by omega) (.inr hdue) hnew ?_
    rw [inflations_of_inflates hin]
    exact ExtTreeMap.mem_insert_self
  | reuse =>
    rw [flowgraph_deliver]

/-- **The room does not grow.** -/
theorem Run.room_le (h : Run c s t) : t.flowgraph.room c ≤ s.flowgraph.room c := by
  induction h with
  | refl => exact Nat.le_refl _
  | tail _ h ih => exact h.choose_spec.room_le.trans ih

/-! ## Facts that are lacking -/

/-- The number of facts about the first `k` nodes that do not hold. -/
def lacking (k : Nat) (s : Solver) : Nat :=
  (((Finset.range k ×ˢ Finset.range k) ×ˢ FactKind.all.toFinset).filter
    fun x => s.holds x.1.1 x.1.2 x.2 = false).card

theorem lacking_le (k : Nat) (s : Solver) : s.lacking k ≤ 10 * (k * k) := by
  refine (Finset.card_filter_le _ _).trans ?_
  rw [Finset.card_product, Finset.card_product, Finset.card_range, Nat.mul_comm]
  exact Nat.mul_le_mul_right _ (List.toFinset_card_le _)

/-- A new fact is one that is lacking no more. -/
theorem lacking_lt {k : Nat} (h : s.Le t) (hg : s.Gains t) (hk : t.graph.size ≤ k) : t.lacking k < s.lacking k := by
  obtain ⟨a, b, fact, ha, hb, hfact, hno⟩ := hg
  refine Finset.card_lt_card ((Finset.ssubset_iff_of_subset fun x hx => ?_).mpr ⟨((a, b), fact), ?_, fun hx => ?_⟩)
  · obtain ⟨hx, hn⟩ := Finset.mem_filter.mp hx
    refine Finset.mem_filter.mpr ⟨hx, ?_⟩
    rw [Bool.eq_false_iff] at hn ⊢
    exact fun hh => hn (h.holds hh)
  · refine Finset.mem_filter.mpr ⟨?_, hno⟩
    refine Finset.mem_product.mpr ⟨Finset.mem_product.mpr ⟨?_, ?_⟩, ?_⟩
    · exact Finset.mem_range.mpr (Nat.lt_of_lt_of_le ha hk)
    · exact Finset.mem_range.mpr (Nat.lt_of_lt_of_le hb hk)
    · exact fact.mem_all
  · have := (Finset.mem_filter.mp hx).2
    rw [hfact] at this
    cases this

/-- Fewer facts are lacking than passes are allowed. -/
theorem lacking_lt_bound : s.lacking (s.flowgraph.room c) < s.flowgraph.bound c :=
  Nat.lt_of_le_of_lt (lacking_le _ s) room_lt_bound

end Solver

end WidgetFlow
