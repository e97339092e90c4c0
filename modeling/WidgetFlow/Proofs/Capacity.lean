import Mathlib.Data.Finset.Card
import Mathlib.Data.Finset.Option
import Mathlib.Data.Finset.Prod
import Mathlib.Tactic.Ring
import WidgetFlow.Proofs.Edits
import WidgetFlow.Solution.Fixpoint

/-!
# The nodes that solving can add

Apart from the widgets of layouts and menus, a solver adds nodes only for what the application names: the receivers and
parameters of methods, and the ids, texts and drawables of templates (`Context.interned`), and one context menu for each
such local. `Flowgraph.Within c k f f'` says that the way from `f` to `f'` used up at most `k` nodes beyond these.

A layout or menu is inflated once for each operation, id and window or menu, so `Flowgraph.room` bounds the number of
nodes that there can ever be. It does not grow (`room_le`, `room_cache_lt`).
-/

namespace WidgetFlow

open Std Flowgraph

/-! ## What the application names -/

/-- The local that a statement binds to the receiver or to a parameter. -/
def Stmt.formal? : Stmt → Option Local
  | .assign (.var l) .this | .assign (.var l) (.parameter _) => some l
  | _ => none

/-- The locals that hold receivers and parameters. -/
def Program.formals (p : Program) : List Local :=
  p.methods.flatMap fun m => m.body.filterMap (·.stmt.formal?)

theorem Program.length_formals_le (p : Program) : p.formals.length ≤ p.size := by
  have h : ∀ (ms : List Method) (n : Nat),
      n + (ms.flatMap fun m => m.body.filterMap (·.stmt.formal?)).length ≤ ms.foldl (fun n m => n + m.body.length) n := by
    intro ms
    induction ms with
    | nil => simp
    | cons m ms ih =>
      intro n
      have hm := List.length_filterMap_le (fun i : Instr => i.stmt.formal?) m.body
      have := ih (n + m.body.length)
      simp only [List.flatMap_cons, List.length_append, List.foldl_cons]
      omega
  simpa [formals, size] using h p.methods 0

theorem Program.mem_formals {p : Program} {m : Method} (hm : m ∈ p.methods) {i : Instr} (hi : i ∈ m.body) {l : Local}
    (hl : i.stmt.formal? = some l) : l ∈ p.formals :=
  List.mem_flatMap.mpr ⟨m, hm, List.mem_filterMap.mpr ⟨i, hi, hl⟩⟩

mutual

/-- A template and everything inside it. -/
def Template.subtrees : Template → List Template
  | ⟨cls, id, text, attributes, children⟩ => ⟨cls, id, text, attributes, children⟩ :: Template.allSubtrees children

/-- Templates and everything inside them. -/
def Template.allSubtrees : List Template → List Template
  | [] => []
  | t :: ts => t.subtrees ++ Template.allSubtrees ts

end

mutual

theorem Template.length_subtrees : ∀ t : Template, t.subtrees.length = t.size
  | ⟨_, _, _, _, children⟩ => by
    rw [Template.subtrees, Template.size, List.length_cons, Template.length_allSubtrees children, Nat.add_comm]

theorem Template.length_allSubtrees : ∀ ts : List Template, (Template.allSubtrees ts).length = Template.sizes ts
  | [] => rfl
  | t :: ts => by
    rw [Template.allSubtrees, Template.sizes, List.length_append, Template.length_subtrees t,
      Template.length_allSubtrees ts]

end

theorem Template.subtrees_subset {t : Template} {ts : List Template} (h : t ∈ ts) :
    t.subtrees ⊆ Template.allSubtrees ts := by
  induction ts with
  | nil => cases h
  | cons u us ih =>
    rw [Template.allSubtrees]
    rcases List.mem_cons.mp h with rfl | h
    · exact List.subset_append_left _ _
    · exact List.Subset.trans (ih h) (List.subset_append_right _ _)

theorem Template.size_le_sizes {t : Template} {ts : List Template} (h : t ∈ ts) : t.size ≤ Template.sizes ts := by
  induction ts with
  | nil => cases h
  | cons u us ih =>
    rw [Template.sizes]
    rcases List.mem_cons.mp h with rfl | h
    · exact Nat.le_add_right _ _
    · exact Nat.le_trans (ih h) (Nat.le_add_left _ _)

/-- All templates of the layouts and menus. -/
def Resources.templates (r : Resources) : List Template :=
  Template.allSubtrees (r.layouts.toList.map (·.2)) ++ Template.allSubtrees (r.menus.toList.map (·.2))

theorem Resources.length_templates (r : Resources) : r.templates.length = r.size := by
  rw [templates, List.length_append, Template.length_allSubtrees, Template.length_allSubtrees, size]

/-- The template of a layout or menu is among the templates, and no larger than all of them. -/
theorem Resources.subtrees_subset {r : Resources} {v : Int} {t : Template}
    (h : r.layouts[v]? = some t ∨ r.menus[v]? = some t) : t.subtrees ⊆ r.templates ∧ t.size ≤ r.size := by
  have hmem : ∀ {m : ExtTreeMap Int Template}, m[v]? = some t → t ∈ m.toList.map (·.2) := fun h =>
    List.mem_map.mpr ⟨(v, t), ExtTreeMap.mem_toList_iff_getElem?_eq_some.mpr h, rfl⟩
  rcases h with h | h
  · exact ⟨List.Subset.trans (Template.subtrees_subset (hmem h)) (List.subset_append_left _ _),
      Nat.le_trans (Template.size_le_sizes (hmem h)) (Nat.le_add_right _ _)⟩
  · exact ⟨List.Subset.trans (Template.subtrees_subset (hmem h)) (List.subset_append_right _ _),
      Nat.le_trans (Template.size_le_sizes (hmem h)) (Nat.le_add_left _ _)⟩

/-- The kind of the node of a resource id. -/
def Resources.idKind (r : Resources) (space : IdSpace) (value : Int) : NodeKind :=
  .id ⟨space, value, r.idName? space value⟩

/-- The nodes that the attributes of a template need. -/
def Template.attributeKinds (r : Resources) (t : Template) : List NodeKind :=
  (t.id.map fun v => r.idKind (r.widgetSpace v) v).toList ++ (t.text.map fun s => .object (.string s)).toList
    ++ (Solver.drawablesOf r t).map (r.idKind .drawable)

theorem Template.length_attributeKinds_le (r : Resources) (t : Template) : (t.attributeKinds r).length ≤ 4 := by
  have hid : (t.id.map fun v => r.idKind (r.widgetSpace v) v).toList.length ≤ 1 := by cases t.id <;> simp
  have htext : (t.text.map fun s => NodeKind.object (.string s)).toList.length ≤ 1 := by cases t.text <;> simp
  have hdraw : (Solver.drawablesOf r t).length ≤ 2 :=
    Nat.le_trans (List.length_filter_le _ _) (Nat.le_trans (List.length_filterMap_le _ _)
      (List.length_filterMap_le (t.attributes[·]?) Solver.drawableAttributes))
  simp only [attributeKinds, List.length_append, List.length_map]
  omega

/-- The nodes that solving can ask for by name. -/
def Context.interned (c : Context) : List NodeKind :=
  c.project.program.formals.map (.pointer <| .var ·)
    ++ c.project.resources.templates.flatMap (Template.attributeKinds c.project.resources)

/-- A node that solving can ask for by name. -/
def Context.Interns (c : Context) (k : NodeKind) : Prop := k ∈ c.interned

namespace Context

variable {c : Context}

theorem length_interned_le : c.interned.length ≤ c.project.program.size + 4 * c.project.resources.size := by
  have h : ∀ ts : List Template, (ts.flatMap (Template.attributeKinds c.project.resources)).length ≤ 4 * ts.length := by
    intro ts
    induction ts with
    | nil => simp
    | cons t ts ih =>
      have := t.length_attributeKinds_le c.project.resources
      simp only [List.flatMap_cons, List.length_append, List.length_cons]
      omega
  have hf := c.project.program.length_formals_le
  have ht := h c.project.resources.templates
  rw [Resources.length_templates] at ht
  simp only [interned, List.length_append, List.length_map]
  omega

theorem interns_of_template {t : Template} (ht : t ∈ c.project.resources.templates) {k : NodeKind}
    (hk : k ∈ t.attributeKinds c.project.resources) : c.Interns k :=
  List.mem_append_right _ (List.mem_flatMap.mpr ⟨t, ht, hk⟩)

/-- What solving asks for by name is a local, an id or a text. -/
theorem Interns.cases {k : NodeKind} (h : c.Interns k) :
    (∃ l ∈ c.project.program.formals, k = .pointer (.var l)) ∨ (∃ i, k = .id i) ∨ ∃ s, k = .object (.string s) := by
  rcases List.mem_append.mp h with h | h
  · obtain ⟨l, hl, rfl⟩ := List.mem_map.mp h
    exact .inl ⟨l, hl, rfl⟩
  · obtain ⟨t, _, h⟩ := List.mem_flatMap.mp h
    simp only [Template.attributeKinds, Resources.idKind, List.mem_append, Option.mem_toList, Option.map_eq_some_iff,
      List.mem_map] at h
    rcases h with (⟨v, _, rfl⟩ | ⟨s, _, rfl⟩) | ⟨d, _, rfl⟩
    · exact .inr (.inl ⟨_, rfl⟩)
    · exact .inr (.inr ⟨s, rfl⟩)
    · exact .inr (.inl ⟨_, rfl⟩)

theorem interns_var {l : Local} : c.Interns (.pointer (.var l)) ↔ l ∈ c.project.program.formals := by
  refine ⟨fun h => ?_, fun h => List.mem_append_left _ (List.mem_map.mpr ⟨l, h, rfl⟩)⟩
  rcases h.cases with ⟨l', hl, h⟩ | ⟨i, h⟩ | ⟨s, h⟩ <;> cases h
  exact hl

/-- Such a node stays what it is. -/
theorem Interns.eq_of_alike {k k₁ k₂ : NodeKind} (hk : c.Interns k) (h : k₁.Alike k₂) : k₂ = k ↔ k₁ = k := by
  cases h with
  | refl => exact Iff.rfl
  | views | cancelable => rcases hk.cases with ⟨l, _, rfl⟩ | ⟨i, rfl⟩ | ⟨s, rfl⟩ <;> simp

/-- Such a node is no window and no menu. -/
theorem Interns.not_target {k : NodeKind} (hk : c.Interns k) :
    (k.object?.any fun o => o.isWindow || o.isMenu) = false := by
  rcases hk.cases with ⟨l, _, rfl⟩ | ⟨i, rfl⟩ | ⟨s, rfl⟩ <;> rfl

/-- The receivers and parameters of methods can be asked for by name. -/
theorem allFormals : AllFormals c.Interns c.project.program := by
  intro m hm
  refine ⟨fun l hl => ?_, fun i l hl => ?_⟩
  · obtain ⟨s, hs, h⟩ := List.exists_of_findSome?_eq_some hl
    refine interns_var.mpr (Program.mem_formals hm hs ?_)
    split at h
    · rename_i hst
      cases h
      rw [hst]
      rfl
    · cases h
  · obtain ⟨s, hs, h⟩ := List.exists_of_findSome?_eq_some hl
    refine interns_var.mpr (Program.mem_formals hm hs ?_)
    split at h
    · rename_i hst
      split at h
      · cases h
        rw [hst]
        rfl
      · cases h
    · cases h

end Context

/-! ## What is not there yet -/

/-- The nodes of ids. -/
def Graph.idNodes (g : Graph) : Finset NodeId := {n ∈ Finset.range g.size | (g.id? n).isSome}

/-- The windows and menus. -/
def Graph.targets (g : Graph) : Finset NodeId :=
  {n ∈ Finset.range g.size | (g.object? n).any fun o => o.isWindow || o.isMenu}

/-- The nodes of operations. -/
def Graph.opNodes (g : Graph) : Finset NodeId := {n ∈ Finset.range g.size | g.isOp n}

namespace Graph

variable {g : Graph} {n x y : NodeId} {k : NodeKind}

theorem mem_idNodes : n ∈ g.idNodes ↔ (g.id? n).isSome := by
  simp only [idNodes, Finset.mem_filter, Finset.mem_range, and_iff_right_iff_imp]
  exact fun h => id?_lt (Option.get_mem h)

theorem mem_targets : n ∈ g.targets ↔ (g.object? n).any fun o => o.isWindow || o.isMenu := by
  simp only [targets, Finset.mem_filter, Finset.mem_range, and_iff_right_iff_imp]
  exact fun h => object?_lt ((Option.any_eq_true _ _).mp h).choose_spec.1

theorem mem_opNodes : n ∈ g.opNodes ↔ g.isOp n := by
  simp only [opNodes, Finset.mem_filter, Finset.mem_range, and_iff_right_iff_imp]
  exact fun h => op?_lt (Option.get_mem h)

theorem id?_push : (g.push k).id? n = if n = g.size then k.id? else g.id? n := by
  rw [id?, node?_push]
  split <;> rfl

theorem idNodes_push : (g.push k).idNodes ⊆ insert g.size g.idNodes := by
  intro n hn
  rw [mem_idNodes, id?_push] at hn
  split at hn
  · rename_i h
    exact Finset.mem_insert.mpr (.inl h)
  · exact Finset.mem_insert_of_mem (mem_idNodes.mpr hn)

theorem idNodes_push_of_none (hk : k.id? = none) : (g.push k).idNodes ⊆ g.idNodes := by
  intro n hn
  rw [mem_idNodes, id?_push] at hn
  split at hn
  · rw [hk] at hn
    cases hn
  · exact mem_idNodes.mpr hn

theorem targets_push : (g.push k).targets ⊆ insert g.size g.targets := by
  intro n hn
  rw [mem_targets, object?_push] at hn
  split at hn
  · rename_i h
    exact Finset.mem_insert.mpr (.inl h)
  · exact Finset.mem_insert_of_mem (mem_targets.mpr hn)

theorem targets_push_of_none (hk : (k.object?.any fun o => o.isWindow || o.isMenu) = false) :
    (g.push k).targets ⊆ g.targets := by
  intro n hn
  rw [mem_targets, object?_push] at hn
  split at hn
  · rw [hk] at hn
    cases hn
  · exact mem_targets.mpr hn

theorem idNodes_modify {f : Node → Node} (hf : ∀ a, (f a).kind.id? = a.kind.id?) : (g.modify n f).idNodes = g.idNodes := by
  ext m
  rw [mem_idNodes, mem_idNodes, id?, id?, node?_modify]
  split
  · cases g.node? m with
    | none => rfl
    | some a => exact iff_of_eq (congrArg (fun i => Option.isSome i = true) (hf a))
  · rfl

theorem targets_modify {f : Node → Node} (hf : ∀ a : Node, a.kind.Grows (f a).kind) :
    (g.modify n f).targets = g.targets := by
  have hblind : Obj.Blind fun o => o.isWindow || o.isMenu := fun _ _ _ _ => rfl
  have hany : ∀ a : Node, ((f a).kind.object?.any fun o => o.isWindow || o.isMenu)
      = a.kind.object?.any fun o => o.isWindow || o.isMenu := by
    intro a
    have h := (hf a).object? hblind
    cases h₁ : (f a).kind.object? <;> cases h₂ : a.kind.object? <;> simp_all
  ext m
  rw [mem_targets, mem_targets, object?, object?, node?_modify]
  split
  · cases g.node? m with
    | none => rfl
    | some a => exact iff_of_eq (congrArg (· = true) (hany a))
  · rfl

end Graph

namespace Flowgraph

variable {c : Context} {f f' f'' : Flowgraph} {j k : Nat}

/-- What can be asked for by name and has no node yet. -/
def missing (c : Context) (f : Flowgraph) : Finset NodeKind :=
  {k ∈ c.interned.toFinset | (f.graph.find? (· = k)).isNone}

/-- The receivers and parameters that have no context menu yet. -/
def unfilled (c : Context) (f : Flowgraph) : Finset Local :=
  {l ∈ c.project.program.formals.toFinset | ((f.var? l).bind (f.contextMenus[·]?)).isNone}

theorem mem_missing {k : NodeKind} : k ∈ f.missing c ↔ c.Interns k ∧ f.graph.find? (· = k) = none := by
  rw [missing, Finset.mem_filter, List.mem_toFinset, Option.isNone_iff_eq_none]
  rfl

theorem mem_unfilled {l : Local} : l ∈ f.unfilled c ↔
    l ∈ c.project.program.formals ∧ (f.var? l).bind (f.contextMenus[·]?) = none := by
  rw [unfilled, Finset.mem_filter, List.mem_toFinset, Option.isNone_iff_eq_none]

theorem missing_subset (h : f.graph.Extends f'.graph) : missing c f' ⊆ missing c f := by
  intro k hk
  obtain ⟨hU, hnone⟩ := mem_missing.mp hk
  refine mem_missing.mpr ⟨hU, ?_⟩
  cases hn : f.graph.find? (· = k) with
  | none => rfl
  | some n =>
    rw [h.find? (fun k₁ k₂ hk => decide_eq_decide.mpr (hU.eq_of_alike hk)) hn] at hnone
    cases hnone

theorem unfilled_subset (h : f.graph.Extends f'.graph)
    (hm : ∀ (p : NodeId) m, f.contextMenus[p]? = some m → f'.contextMenus[p]? = some m) :
    unfilled c f' ⊆ unfilled c f := by
  intro l hl
  obtain ⟨hU, hnone⟩ := mem_unfilled.mp hl
  refine mem_unfilled.mpr ⟨hU, ?_⟩
  cases hn : (f.var? l).bind (f.contextMenus[·]?) with
  | none => rfl
  | some m =>
    obtain ⟨p, hp, hpm⟩ := Option.bind_eq_some_iff.mp hn
    rw [var?_mono h hp, Option.bind_some, hm p m hpm] at hnone
    cases hnone

/-! ## Room for nodes -/

/-- At most `k` nodes were added that could not be asked for by name. -/
structure Within (c : Context) (k : Nat) (f f' : Flowgraph) : Prop where
  missing_le : (f'.missing c).card ≤ (f.missing c).card
  unfilled_le : (f'.unfilled c).card ≤ (f.unfilled c).card
  nodes : f'.graph.size + (f'.missing c).card + (f'.unfilled c).card
    ≤ f.graph.size + (f.missing c).card + (f.unfilled c).card + k
  ids : f'.graph.idNodes.card + (f'.missing c).card ≤ f.graph.idNodes.card + (f.missing c).card
  targets : f'.graph.targets.card + (f'.unfilled c).card ≤ f.graph.targets.card + (f.unfilled c).card

namespace Within

theorem trans (h : Within c j f f') (h' : Within c k f' f'') : Within c (j + k) f f'' where
  missing_le := h'.missing_le.trans h.missing_le
  unfilled_le := h'.unfilled_le.trans h.unfilled_le
  nodes := by have := h.nodes; have := h'.nodes; omega
  ids := h'.ids.trans h.ids
  targets := h'.targets.trans h.targets

/-- A flowgraph with the same nodes. -/
theorem of_nodes (hn : f'.graph.nodes = f.graph.nodes) (hm : f'.contextMenus = f.contextMenus) : Within c 0 f f' := by
  have hmissing : f'.missing c = f.missing c := by
    ext k
    simp only [mem_missing, Graph.find?, hn]
  have hunfilled : f'.unfilled c = f.unfilled c := by
    ext l
    simp only [mem_unfilled, var?, Graph.find?, hn, hm]
  have hids : f'.graph.idNodes = f.graph.idNodes := by
    ext n
    simp only [Graph.mem_idNodes, Graph.id?, Graph.node?, hn]
  have htargets : f'.graph.targets = f.graph.targets := by
    ext n
    simp only [Graph.mem_targets, Graph.object?, Graph.node?, hn]
  refine ⟨?_, ?_, ?_, ?_, ?_⟩ <;> simp only [hmissing, hunfilled, hids, htargets, Graph.size, hn] <;> omega

/-- A node that is the same but for its attributes and the views of a menu. -/
theorem modify {n : NodeId} {change : Node → Node} (h : ∀ a : Node, a.kind.Grows (change a).kind)
    (hg : f'.graph = f.graph.modify n change) (hm : f'.contextMenus = f.contextMenus) : Within c 0 f f' := by
  have hext : f.graph.Extends f'.graph := by
    rw [hg]
    refine ⟨fun m a ha => ?_, fun _ _ h => h⟩
    rw [Graph.node?_modify]
    split
    · exact ⟨change a, by rw [ha]; rfl, (h a).alike⟩
    · exact ⟨a, ha, .refl _⟩
  have hmissing := Finset.card_le_card (missing_subset (c := c) hext)
  have hunfilled := Finset.card_le_card (unfilled_subset (c := c) hext fun p m hp => by rw [hm]; exact hp)
  have hsize : f'.graph.size = f.graph.size := by rw [hg, Graph.size_modify]
  have hids : f'.graph.idNodes = f.graph.idNodes := by rw [hg, Graph.idNodes_modify fun a => (h a).alike.id?]
  have htargets : f'.graph.targets = f.graph.targets := by rw [hg, Graph.targets_modify h]
  refine ⟨hmissing, hunfilled, ?_, ?_, ?_⟩
  · omega
  · rw [hids]; omega
  · rw [htargets]; omega

/-- A node that is no id, no window and no menu. -/
theorem push {k : NodeKind} (hid : k.id? = none) (hobj : (k.object?.any fun o => o.isWindow || o.isMenu) = false)
    (hg : f'.graph = f.graph.push k) (hm : f'.contextMenus = f.contextMenus) : Within c 1 f f' := by
  have hext : f.graph.Extends f'.graph := hg ▸ Graph.push_grows.toExtends
  have hmissing := Finset.card_le_card (missing_subset (c := c) hext)
  have hunfilled := Finset.card_le_card (unfilled_subset (c := c) hext fun p m hp => by rw [hm]; exact hp)
  have hsize : f'.graph.size = f.graph.size + 1 := by rw [hg, Graph.size_push]
  have hids := Finset.card_le_card (Graph.idNodes_push_of_none (g := f.graph) hid)
  have htargets := Finset.card_le_card (Graph.targets_push_of_none (g := f.graph) hobj)
  rw [← hg] at hids htargets
  exact ⟨hmissing, hunfilled, by omega, by omega, by omega⟩

end Within

/-- A node that was asked for by name and made is no longer missing. -/
theorem card_missing_lt {k : NodeKind} (hU : c.Interns k) (hnew : ∀ n a, f.graph.node? n = some a → a.kind ≠ k)
    (hg : f'.graph = f.graph.push k) : (f'.missing c).card < (f.missing c).card := by
  have hsub : f'.missing c ⊆ f.missing c := missing_subset (hg ▸ Graph.push_grows.toExtends)
  refine Finset.card_lt_card ((Finset.ssubset_iff_of_subset hsub).mpr ⟨k, ?_, fun hk => ?_⟩)
  · exact mem_missing.mpr ⟨hU, Graph.find?_eq_none.mpr fun m a ha => decide_eq_false (hnew m a ha)⟩
  · have hnone := Graph.find?_eq_none.mp (mem_missing.mp hk).2 f.graph.size { kind := k }
      (by rw [hg, Graph.node?_push, if_pos rfl])
    simp at hnone

/-- A local that got its context menu is no longer without one. -/
theorem card_unfilled_lt {l : Local} {p m : NodeId} (hU : c.Interns (.pointer (.var l))) (hp : f.var? l = some p)
    (hnew : f.contextMenus[p]? = none) (hg : f.graph.Extends f'.graph)
    (hm : f'.contextMenus = f.contextMenus.insert p m) : (f'.unfilled c).card < (f.unfilled c).card := by
  have hsub : f'.unfilled c ⊆ f.unfilled c :=
    unfilled_subset hg fun q v hq => by rw [hm]; exact Container.getElem?_insert_of_getElem? hnew hq
  refine Finset.card_lt_card ((Finset.ssubset_iff_of_subset hsub).mpr ⟨l, ?_, fun hl => ?_⟩)
  · exact mem_unfilled.mpr ⟨Context.interns_var.mp hU, by simp [hp, hnew]⟩
  · have hnone := (mem_unfilled.mp hl).2
    rw [var?_mono hg hp, Option.bind_some, hm, ExtTreeMap.getElem?_insert_self] at hnone
    cases hnone

theorem Change.within (h : Change c.Interns f f') : Within c 0 f f' := by
  have hext := h.grows.toExtends
  have hmissing := Finset.card_le_card (missing_subset (c := c) hext)
  cases h with
  | log | handlers | flow => exact .of_nodes rfl rfl
  | shown => exact .modify (fun a => a.showOn_grows.kind) rfl rfl
  | @node k hU _ hnew =>
    have hmissing : (missing c { f with graph := f.graph.push k }).card < (f.missing c).card :=
      card_missing_lt hU (fun n a ha he => hnew n a ha (he ▸ rfl)) rfl
    have hunfilled := Finset.card_le_card (unfilled_subset (c := c) hext fun _ _ h => h)
    have hids := (Finset.card_le_card (Graph.idNodes_push (g := f.graph) (k := k))).trans (Finset.card_insert_le _ _)
    have htargets := Finset.card_le_card (Graph.targets_push_of_none (g := f.graph) hU.not_target)
    refine ⟨hmissing.le, hunfilled, ?_, ?_, Nat.add_le_add htargets hunfilled⟩
    · simp only [Graph.size_push]
      omega
    · simp only at hids hmissing ⊢
      omega
  | @menu handler p v l hU hp hnew =>
    have hunfilled := card_unfilled_lt hU hp hnew hext rfl
    have hids := Finset.card_le_card (Graph.idNodes_push_of_none (g := f.graph)
      (k := .object (.contextMenu handler p {v})) rfl)
    have htargets := (Finset.card_le_card (Graph.targets_push (g := f.graph)
      (k := .object (.contextMenu handler p {v})))).trans (Finset.card_insert_le _ _)
    refine ⟨hmissing, hunfilled.le, ?_, Nat.add_le_add hids hmissing, ?_⟩
    · simp only [Graph.size_connect, Graph.size_push] at hunfilled hmissing ⊢
      omega
    · refine (Nat.add_le_add_right htargets _).trans ?_
      omega

theorem Edits.within (h : Edits c.Interns f f') : Within c 0 f f' := by
  induction h with
  | refl => exact .of_nodes rfl rfl
  | tail _ h ih => exact ih.trans h.within

/-! ## Room for inflations -/

/-- The inflations that were made for an operation, an id and a window or menu of the graph. -/
def cached (f : Flowgraph) : Finset InflationKey :=
  {key ∈ f.inflations.keys.toFinset | key.op ∈ f.graph.opNodes ∧ key.id ∈ f.graph.idNodes
    ∧ key.target ∈ Finset.insertNone f.graph.targets}

theorem mem_cached {key : InflationKey} : key ∈ f.cached ↔ key ∈ f.inflations ∧ f.graph.isOp key.op
    ∧ (f.graph.id? key.id).isSome ∧ ∀ w ∈ key.target, (f.graph.object? w).any fun o => o.isWindow || o.isMenu := by
  simp only [cached, Finset.mem_filter, List.mem_toFinset, ExtTreeMap.mem_keys, Graph.mem_opNodes, Graph.mem_idNodes,
    Finset.mem_insertNone, Graph.mem_targets]

theorem card_cached_le :
    f.cached.card ≤ f.graph.opNodes.card * f.graph.idNodes.card * (f.graph.targets.card + 1) := by
  rw [← Finset.card_insertNone, ← Finset.card_product, ← Finset.card_product]
  refine Finset.card_le_card_of_injOn (fun key => ((key.op, key.id), key.target)) (fun key hkey => ?_) ?_
  · obtain ⟨_, hop, hid, htarget⟩ := Finset.mem_filter.mp hkey
    exact Finset.mem_product.mpr ⟨Finset.mem_product.mpr ⟨hop, hid⟩, htarget⟩
  · rintro ⟨op, id, target⟩ _ ⟨op', id', target'⟩ _ h
    simp only [Prod.mk.injEq] at h
    obtain ⟨⟨rfl, rfl⟩, rfl⟩ := h
    rfl

/-- The number of inflations that there can be. -/
def inflatable (c : Context) (f : Flowgraph) : Nat :=
  f.graph.opNodes.card * (f.graph.idNodes.card + (f.missing c).card)
    * (f.graph.targets.card + (f.unfilled c).card + 1)

/-- The number of nodes that there can be. -/
def room (c : Context) (f : Flowgraph) : Nat :=
  f.graph.size + (f.missing c).card + (f.unfilled c).card
    + c.project.resources.size * (f.inflatable c - f.cached.card)

theorem size_le_room : f.graph.size ≤ f.room c := by
  unfold room
  omega

/-- **The room does not grow**, if every node beyond those asked for by name is paid for by a new inflation. -/
theorem Within.room_le (h : Within c k f f') (hop : f'.graph.opNodes = f.graph.opNodes)
    (hk : k + c.project.resources.size * f.cached.card ≤ c.project.resources.size * f'.cached.card) :
    f'.room c ≤ f.room c := by
  have hinfl : f'.inflatable c ≤ f.inflatable c := by
    unfold inflatable
    rw [hop]
    exact Nat.mul_le_mul (Nat.mul_le_mul_left _ h.ids) (Nat.add_le_add_right h.targets 1)
  have hcard : f'.cached.card ≤ f'.inflatable c := by
    refine card_cached_le.trans ?_
    unfold inflatable
    exact Nat.mul_le_mul (Nat.mul_le_mul_left _ (Nat.le_add_right _ _)) (by omega)
  have hle := Nat.mul_le_mul_left c.project.resources.size hinfl
  have hcard' := Nat.mul_le_mul_left c.project.resources.size hcard
  have hnodes := h.nodes
  unfold room
  rw [Nat.mul_sub, Nat.mul_sub]
  omega

/-- The room is at most of the fourth order in the size of the flowgraph, the code and the resources. -/
theorem room_le_pow {m : Nat} (hm : f.graph.size + c.project.program.size + c.project.resources.size + 2 = m) :
    f.room c ≤ 5 * m ^ 4 := by
  have hmissing : (f.missing c).card ≤ c.project.program.size + 4 * c.project.resources.size :=
    (Finset.card_filter_le _ _).trans ((List.toFinset_card_le _).trans Context.length_interned_le)
  have hunfilled : (f.unfilled c).card ≤ c.project.program.size :=
    (Finset.card_filter_le _ _).trans ((List.toFinset_card_le _).trans (Program.length_formals_le _))
  have hrange : ∀ p : NodeId → Prop, [DecidablePred p] → {n ∈ Finset.range f.graph.size | p n}.card ≤ f.graph.size :=
    fun p _ => (Finset.card_filter_le _ _).trans (Finset.card_range _).le
  have hops : f.graph.opNodes.card ≤ m := (hrange _).trans (by omega)
  have hids : f.graph.idNodes.card + (f.missing c).card ≤ 4 * m := by
    have : f.graph.idNodes.card ≤ f.graph.size := hrange _
    omega
  have htargets : f.graph.targets.card + (f.unfilled c).card + 1 ≤ m := by
    have : f.graph.targets.card ≤ f.graph.size := hrange _
    omega
  have hinfl : f.inflatable c ≤ m * (4 * m) * m := Nat.mul_le_mul (Nat.mul_le_mul hops hids) htargets
  have hmul : c.project.resources.size * (f.inflatable c - f.cached.card) ≤ m * (m * (4 * m) * m) :=
    Nat.mul_le_mul (by omega) ((Nat.sub_le _ _).trans hinfl)
  have hpow : 4 * m ≤ m ^ 4 := by
    have h3 : 2 ^ 3 ≤ m ^ 3 := Nat.pow_le_pow_left (by omega) 3
    calc 4 * m ≤ m ^ 3 * m := Nat.mul_le_mul_right m (by omega)
      _ = m ^ 4 := by ring
  calc f.room c ≤ 4 * m + m * (m * (4 * m) * m) := by unfold room; omega
    _ = 4 * m + 4 * m ^ 4 := by ring
    _ ≤ 5 * m ^ 4 := by omega

/-- **There is less to find than passes are allowed.** -/
theorem room_lt_bound : 10 * (f.room c * f.room c) < f.bound c := by
  unfold bound
  generalize hm : f.graph.size + c.project.program.size + c.project.resources.size + 2 = m
  have hroom := room_le_pow hm
  have hpos : 0 < m ^ 8 := Nat.pow_pos (by omega)
  have h8 : 2 ^ 8 ≤ m ^ 8 := Nat.pow_le_pow_left (by omega) 8
  calc 10 * (f.room c * f.room c) ≤ 10 * (5 * m ^ 4 * (5 * m ^ 4)) :=
        Nat.mul_le_mul_left 10 (Nat.mul_le_mul hroom hroom)
    _ = 250 * m ^ 8 := by ring
    _ < m ^ 8 * m ^ 8 := Nat.mul_lt_mul_of_pos_right (by omega) hpos
    _ = m.pow 16 := by rw [← Nat.pow_add]; rfl

end Flowgraph

end WidgetFlow
