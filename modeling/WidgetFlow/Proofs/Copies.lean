import WidgetFlow.Proofs.Attributes

/-!
# Copies of templates

An inflation makes a copy of a template: a forest of new nodes, one for each widget of the template, inside each other as
in the template. What a template asks for is itself a forest, of objects. In a layout a node without a class is left out
together with everything inside it (`Template.widgets`), and in a menu the items of a submenu are inside the item that
opens it (`Template.items`).

* `Solver.Plants`: the new widgets of an inflation, where they were put, and their origin;
* `Solver.Grown`: they are a copy. Copies are put together like the functions that make them (`Grown.append`,
  `Grown.root`, `Grown.put`).
-/

namespace WidgetFlow

open Std

/-! ## Forests -/

/-- An ordered forest: an element, what is below it, and the rest. -/
inductive Forest (α : Type) where
  | nil
  | cons (a : α) (below rest : Forest α)

namespace Forest

variable {α β : Type} {f g : α → β} {v w : Forest α}

/-- The elements, each of them before those below it. -/
def elems : Forest α → List α
  | nil => []
  | cons a below rest => a :: (below.elems ++ rest.elems)

/-- The number of elements. -/
def size (w : Forest α) : Nat := w.elems.length

/-- The first element at the top. -/
def top? : Forest α → Option α
  | nil => none
  | cons a _ _ => some a

def append : Forest α → Forest α → Forest α
  | nil, v => v
  | cons a below rest, v => cons a below (rest.append v)

def map (f : α → β) : Forest α → Forest β
  | nil => nil
  | cons a below rest => cons (f a) (below.map f) (rest.map f)

/-- Two forests of one shape, whose elements are related place by place. -/
inductive Rel (R : α → β → Prop) : Forest α → Forest β → Prop
  | nil : Rel R nil nil
  | cons {a : α} {b : β} {below rest : Forest α} {below' rest' : Forest β} (h : R a b) (hbelow : Rel R below below')
      (hrest : Rel R rest rest') : Rel R (cons a below rest) (cons b below' rest')

/-- Each element inside the one above it, and those at the top inside a node. -/
def arcsIn : Forest NodeId → NodeId → List Arc
  | nil, _ => []
  | cons n below rest, parent => ⟨n, parent⟩ :: (below.arcsIn n ++ rest.arcsIn parent)

/-- Each element inside the one above it. -/
def arcs : Forest NodeId → List Arc
  | nil => []
  | cons n below rest => below.arcsIn n ++ rest.arcs

@[simp] theorem elems_append : (w.append v).elems = w.elems ++ v.elems := by
  induction w with
  | nil => rfl
  | cons a below rest _ ih => simp [append, elems, ih]

@[simp] theorem map_append : (w.append v).map f = (w.map f).append (v.map f) := by
  induction w with
  | nil => rfl
  | cons a below rest _ ih => simp [append, map, ih]

@[simp] theorem elems_map : (w.map f).elems = w.elems.map f := by
  induction w with
  | nil => rfl
  | cons a below rest ihb ihr => simp [map, elems, ihb, ihr]

@[simp] theorem size_map : (w.map f).size = w.size := by simp [size]

@[simp] theorem size_append : (w.append v).size = w.size + v.size := by simp [size]

theorem map_congr (h : ∀ a ∈ w.elems, f a = g a) : w.map f = w.map g := by
  induction w with
  | nil => rfl
  | cons a below rest ihb ihr =>
    rw [elems] at h
    rw [map, map, h a List.mem_cons_self, ihb fun b hb => h b (List.mem_cons_of_mem _ (List.mem_append_left _ hb)),
      ihr fun b hb => h b (List.mem_cons_of_mem _ (List.mem_append_right _ hb))]

theorem map_map {γ : Type} {h : β → γ} : (w.map f).map h = w.map (h ∘ f) := by
  induction w with
  | nil => rfl
  | cons a below rest ihb ihr => simp [map, ihb, ihr]

namespace Rel

variable {R S : α → β → Prop} {p q : Forest β}

/-- Only the elements of the first forest matter. -/
theorem imp (h : Rel R w p) (hS : ∀ a ∈ w.elems, ∀ b, R a b → S a b) : Rel S w p := by
  induction h with
  | nil => exact .nil
  | cons hab _ _ ihb ihr =>
    rw [elems] at hS
    exact .cons (hS _ List.mem_cons_self _ hab)
      (ihb fun a ha => hS a (List.mem_cons_of_mem _ (List.mem_append_left _ ha)))
      (ihr fun a ha => hS a (List.mem_cons_of_mem _ (List.mem_append_right _ ha)))

theorem append (h : Rel R w p) (h' : Rel R v q) : Rel R (w.append v) (p.append q) := by
  induction h with
  | nil => exact h'
  | cons hab hbelow _ _ ih => exact .cons hab hbelow ih

theorem length_eq (h : Rel R w p) : w.elems.length = p.size := by
  induction h with
  | nil => rfl
  | cons _ _ _ ihb ihr => simp [size, elems, ihb, ihr]

theorem map_eq {γ : Type} {f : α → γ} {g : β → γ} (h : Rel R w p) (hfg : ∀ a b, R a b → f a = g b) :
    w.map f = p.map g := by
  induction h with
  | nil => rfl
  | cons hab _ _ ihb ihr => rw [map, map, hfg _ _ hab, ihb, ihr]

end Rel

theorem arcsIn_append {v w : Forest NodeId} {parent : NodeId} :
    (w.append v).arcsIn parent = w.arcsIn parent ++ v.arcsIn parent := by
  induction w with
  | nil => rfl
  | cons n below rest _ ih => simp [append, arcsIn, ih]

theorem src_mem_elems_of_arcsIn {w : Forest NodeId} {parent : NodeId} {a : Arc} (h : a ∈ w.arcsIn parent) :
    a.src ∈ w.elems := by
  induction w generalizing parent with
  | nil => cases h
  | cons n below rest ihb ihr =>
    rw [arcsIn] at h
    rcases List.mem_cons.mp h with rfl | h
    · exact List.mem_cons_self
    rcases List.mem_append.mp h with h | h
    · exact List.mem_cons_of_mem _ (List.mem_append_left _ (ihb h))
    · exact List.mem_cons_of_mem _ (List.mem_append_right _ (ihr h))

theorem src_mem_elems {w : Forest NodeId} {a : Arc} (h : a ∈ w.arcs) : a.src ∈ w.elems := by
  induction w with
  | nil => cases h
  | cons n below rest _ ih =>
    rcases List.mem_append.mp h with h | h
    · exact List.mem_cons_of_mem _ (List.mem_append_left _ (src_mem_elems_of_arcsIn h))
    · exact List.mem_cons_of_mem _ (List.mem_append_right _ (ih h))

theorem dst_of_arcsIn {w : Forest NodeId} {parent : NodeId} {a : Arc} (h : a ∈ w.arcsIn parent) :
    a.dst = parent ∨ a.dst ∈ w.elems := by
  induction w generalizing parent with
  | nil => cases h
  | cons n below rest ihb ihr =>
    rw [arcsIn] at h
    rw [elems]
    rcases List.mem_cons.mp h with rfl | h
    · exact .inl rfl
    rcases List.mem_append.mp h with h | h
    · refine .inr ((ihb h).elim (fun h => h ▸ List.mem_cons_self) fun h => ?_)
      exact List.mem_cons_of_mem _ (List.mem_append_left _ h)
    · exact (ihr h).imp_right fun h => List.mem_cons_of_mem _ (List.mem_append_right _ h)

theorem dst_mem_elems {w : Forest NodeId} {a : Arc} (h : a ∈ w.arcs) : a.dst ∈ w.elems := by
  induction w with
  | nil => cases h
  | cons n below rest _ ih =>
    rw [elems]
    rcases List.mem_append.mp h with h | h
    · refine (dst_of_arcsIn h).elim (fun h => h ▸ List.mem_cons_self) fun h => ?_
      exact List.mem_cons_of_mem _ (List.mem_append_left _ h)
    · exact List.mem_cons_of_mem _ (List.mem_append_right _ (ih h))

end Forest

/-! ## What templates ask for -/

namespace Template

mutual

/-- The widgets of a layout. Without a class there is no widget, and there are none inside it. -/
def widgets : Template → Forest Obj
  | ⟨none, _, _, _, _⟩ => .nil
  | ⟨some cls, _, _, _, children⟩ => .cons (.inflated cls) (allWidgets children) .nil

def allWidgets : List Template → Forest Obj
  | [] => .nil
  | t :: ts => t.widgets.append (allWidgets ts)

end

mutual

/-- An item of a menu, with the items of its submenus. -/
def item : Template → Forest Obj
  | ⟨_, _, _, attributes, children⟩ => .cons (.menuItem Framework.menuItem attributes) (submenus children) .nil

def submenus : List Template → Forest Obj
  | [] => .nil
  | ⟨_, _, _, _, children⟩ :: menus => (items children).append (submenus menus)

/-- The items of a menu. -/
def items : List Template → Forest Obj
  | [] => .nil
  | t :: ts => t.item.append (items ts)

end

mutual

/-- The parts of a layout that become widgets. -/
def parts : Template → Forest Part
  | ⟨none, _, _, _, _⟩ => .nil
  | ⟨some cls, id, text, attributes, children⟩ =>
    .cons ⟨.inflated cls, ⟨some cls, id, text, attributes, children⟩⟩ (allParts children) .nil

def allParts : List Template → Forest Part
  | [] => .nil
  | t :: ts => t.parts.append (allParts ts)

end

mutual

/-- The parts of a menu that become items: an item, with the items of its submenus. -/
def itemParts : Template → Forest Part
  | ⟨cls, id, text, attributes, children⟩ =>
    .cons ⟨.menuItem Framework.menuItem attributes, ⟨cls, id, text, attributes, children⟩⟩ (submenuParts children) .nil

def submenuParts : List Template → Forest Part
  | [] => .nil
  | ⟨_, _, _, _, children⟩ :: menus => (allItemParts children).append (submenuParts menus)

/-- The parts of a menu that become items. -/
def allItemParts : List Template → Forest Part
  | [] => .nil
  | t :: ts => t.itemParts.append (allItemParts ts)

end

mutual

theorem map_parts : ∀ t : Template, t.parts.map (·.object) = t.widgets
  | ⟨none, _, _, _, _⟩ => rfl
  | ⟨some cls, _, _, _, children⟩ => by
    rw [parts, widgets, Forest.map, map_allParts children, Forest.map]

theorem map_allParts : ∀ ts : List Template, (allParts ts).map (·.object) = allWidgets ts
  | [] => rfl
  | t :: ts => by
    rw [allParts, allWidgets, Forest.map_append, map_parts t, map_allParts ts]

end

mutual

theorem map_itemParts : ∀ t : Template, t.itemParts.map (·.object) = t.item
  | ⟨_, _, _, _, children⟩ => by
    rw [itemParts, item, Forest.map, map_submenuParts children, Forest.map]

theorem map_submenuParts : ∀ ts : List Template, (submenuParts ts).map (·.object) = submenus ts
  | [] => rfl
  | ⟨_, _, _, _, children⟩ :: menus => by
    rw [submenuParts, submenus, Forest.map_append, map_allItemParts children, map_submenuParts menus]

theorem map_allItemParts : ∀ ts : List Template, (allItemParts ts).map (·.object) = items ts
  | [] => rfl
  | t :: ts => by
    rw [allItemParts, items, Forest.map_append, map_itemParts t, map_allItemParts ts]

end

mutual

theorem size_widgets_le : ∀ t : Template, t.widgets.size ≤ t.size
  | ⟨none, _, _, _, _⟩ => Nat.zero_le _
  | ⟨some cls, _, _, _, children⟩ => by
    have := size_allWidgets_le children
    simp only [widgets, Template.size, Forest.size, Forest.elems, List.append_nil, List.length_cons] at this ⊢
    omega

theorem size_allWidgets_le : ∀ ts : List Template, (allWidgets ts).size ≤ sizes ts
  | [] => Nat.zero_le _
  | t :: ts => by
    rw [allWidgets, sizes, Forest.size_append]
    exact Nat.add_le_add (size_widgets_le t) (size_allWidgets_le ts)

end

mutual

theorem size_item_le : ∀ t : Template, t.item.size ≤ t.size
  | ⟨_, _, _, _, children⟩ => by
    have := size_submenus_le children
    simp only [item, Template.size, Forest.size, Forest.elems, List.append_nil, List.length_cons] at this ⊢
    omega

theorem size_submenus_le : ∀ ts : List Template, (submenus ts).size ≤ sizes ts
  | [] => Nat.zero_le _
  | ⟨_, _, _, _, children⟩ :: menus => by
    have := size_items_le children
    have := size_submenus_le menus
    rw [submenus, sizes, Template.size, Forest.size_append]
    omega

theorem size_items_le : ∀ ts : List Template, (items ts).size ≤ sizes ts
  | [] => Nat.zero_le _
  | t :: ts => by
    rw [items, sizes, Forest.size_append]
    exact Nat.add_le_add (size_item_le t) (size_items_le ts)

end

/-- Every item of a menu is made. -/
theorem eq_nil_of_size_allItemParts {ts : List Template} (h : (allItemParts ts).size = 0) : ts = [] := by
  cases ts with
  | nil => rfl
  | cons t ts =>
    obtain ⟨cls, id, text, attributes, children⟩ := t
    simp [allItemParts, itemParts, Forest.size, Forest.elems] at h

end Template

/-! ## What inflations ask for -/

namespace Graph

variable {g g' : Graph} {r : Resources} {n : NodeId} {key : InflationKey} {o : Op} {i : ResourceId}

/-- The widgets of the layout that an id names. -/
def layoutPattern (g : Graph) (r : Resources) (layout : NodeId) : Forest Obj :=
  match (g.id? layout).bind fun i => r.layouts[i.value]? with
  | some t => t.widgets
  | none => .nil

/-- The items of the menu that an id names. -/
def menuPattern (g : Graph) (r : Resources) (menuId : NodeId) : Forest Obj :=
  match (g.id? menuId).bind fun i => r.menus[i.value]? with
  | some t => Template.items t.children
  | none => .nil

/-- The parts of the layout that an id names. -/
def layoutParts (g : Graph) (r : Resources) (layout : NodeId) : Forest Template.Part :=
  match (g.id? layout).bind fun i => r.layouts[i.value]? with
  | some t => t.parts
  | none => .nil

/-- The parts of the menu that an id names. -/
def menuParts (g : Graph) (r : Resources) (menuId : NodeId) : Forest Template.Part :=
  match (g.id? menuId).bind fun i => r.menus[i.value]? with
  | some t => Template.allItemParts t.children
  | none => .nil

/-- The inflation is that of a layout. -/
def isLayoutKey (g : Graph) (key : InflationKey) : Bool :=
  (g.op? key.op).any fun o => o.kind.tag = .inflate || o.kind.tag = .setContent

/-- The inflation is that of a menu. -/
def isMenuKey (g : Graph) (key : InflationKey) : Bool := (g.op? key.op).any (·.kind.tag = .inflateMenu)

/-- What an inflation makes. -/
def pattern (g : Graph) (r : Resources) (key : InflationKey) : Forest Obj :=
  if g.isMenuKey key then g.menuPattern r key.id else g.layoutPattern r key.id

/-- The parts that an inflation makes something for. -/
def parts (g : Graph) (r : Resources) (key : InflationKey) : Forest Template.Part :=
  if g.isMenuKey key then g.menuParts r key.id else g.layoutParts r key.id

theorem map_layoutParts : (g.layoutParts r n).map (·.object) = g.layoutPattern r n := by
  unfold layoutParts layoutPattern
  split
  · exact Template.map_parts _
  · rfl

theorem map_menuParts : (g.menuParts r n).map (·.object) = g.menuPattern r n := by
  unfold menuParts menuPattern
  split
  · exact Template.map_allItemParts _
  · rfl

/-- What an inflation makes is what its parts ask for. -/
theorem map_graphParts : (g.parts r key).map (·.object) = g.pattern r key := by
  unfold parts pattern
  split
  · exact map_menuParts
  · exact map_layoutParts

/-- Where an inflation puts what it makes: items go into a menu, and the topmost widget of a layout goes nowhere. -/
def arcsOf (g : Graph) (key : InflationKey) (w : Forest NodeId) : List Arc :=
  match key.target with
  | some menu => if g.isMenuKey key then w.arcsIn menu else w.arcs
  | none => w.arcs

theorem not_isMenuKey_of_isLayoutKey (h : g.isLayoutKey key = true) : g.isMenuKey key = false := by
  obtain ⟨o, ho, hk⟩ := (Option.any_eq_true _ _).mp h
  rw [isMenuKey, ho, Option.any_some, decide_eq_false_iff_not]
  intro hm
  rw [hm] at hk
  cases hk

theorem pattern_of_isLayoutKey (h : g.isLayoutKey key = true) : g.pattern r key = g.layoutPattern r key.id := by
  rw [pattern, not_isMenuKey_of_isLayoutKey h]
  rfl

theorem parts_of_isLayoutKey (h : g.isLayoutKey key = true) : g.parts r key = g.layoutParts r key.id := by
  rw [parts, not_isMenuKey_of_isLayoutKey h]
  rfl

theorem parts_of_isMenuKey (h : g.isMenuKey key = true) : g.parts r key = g.menuParts r key.id := by
  rw [parts, if_pos h]

theorem pattern_of_isMenuKey (h : g.isMenuKey key = true) : g.pattern r key = g.menuPattern r key.id := by
  rw [pattern, if_pos h]

theorem arcsOf_of_isLayoutKey {w : Forest NodeId} (h : g.isLayoutKey key = true) : g.arcsOf key w = w.arcs := by
  unfold arcsOf
  split
  · rw [not_isMenuKey_of_isLayoutKey h]
    rfl
  · rfl

theorem arcsOf_of_isMenuKey {w : Forest NodeId} {menu : NodeId} (h : g.isMenuKey key = true)
    (hm : key.target = some menu) : g.arcsOf key w = w.arcsIn menu := by
  rw [arcsOf, hm]
  exact if_pos h

theorem size_layoutPattern_le : (g.layoutPattern r n).size ≤ r.size := by
  unfold layoutPattern
  split
  · rename_i t ht
    obtain ⟨i, _, ht⟩ := Option.bind_eq_some_iff.mp ht
    exact Nat.le_trans t.size_widgets_le (Resources.subtrees_subset (.inl ht)).2
  · exact Nat.zero_le _

theorem size_menuPattern_le : (g.menuPattern r n).size ≤ r.size := by
  unfold menuPattern
  split
  · rename_i t ht
    obtain ⟨i, _, ht⟩ := Option.bind_eq_some_iff.mp ht
    have hsize := (Resources.subtrees_subset (.inr ht)).2
    obtain ⟨cls, id, text, attributes, children⟩ := t
    have := Template.size_items_le children
    rw [Template.size] at hsize
    exact Nat.le_trans this (by omega)
  · exact Nat.zero_le _

theorem size_layoutParts_le : (g.layoutParts r n).size ≤ r.size := by
  rw [← Forest.size_map (f := Template.Part.object), map_layoutParts]
  exact size_layoutPattern_le

theorem size_menuParts_le : (g.menuParts r n).size ≤ r.size := by
  rw [← Forest.size_map (f := Template.Part.object), map_menuParts]
  exact size_menuPattern_le

section Later

variable (hop : ∀ n, g'.op? n = g.op? n)
include hop

theorem isLayoutKey_eq : g'.isLayoutKey key = g.isLayoutKey key := by rw [isLayoutKey, isLayoutKey, hop]

theorem isMenuKey_eq : g'.isMenuKey key = g.isMenuKey key := by rw [isMenuKey, isMenuKey, hop]

theorem arcsOf_eq {w : Forest NodeId} : g'.arcsOf key w = g.arcsOf key w := by
  rw [arcsOf, arcsOf, isMenuKey_eq hop]

/-- What an inflation makes does not depend on what came later. -/
theorem pattern_eq (hg : g.Extends g') (hi : g.id? key.id = some i) : g'.pattern r key = g.pattern r key := by
  rw [pattern, pattern, isMenuKey_eq hop, menuPattern, menuPattern, layoutPattern, layoutPattern, hi, hg.id? hi]

theorem parts_eq (hg : g.Extends g') (hi : g.id? key.id = some i) : g'.parts r key = g.parts r key := by
  rw [parts, parts, isMenuKey_eq hop, menuParts, menuParts, layoutParts, layoutParts, hi, hg.id? hi]

end Later

/-- A widget stays what it is. -/
theorem Grows.object?_of_isWidget (h : g.Grows g') (hn : (g.object? n).any (·.isWidget) = true) :
    g'.object? n = g.object? n := by
  obtain ⟨o, ho, hw⟩ := (Option.any_eq_true _ _).mp hn
  rw [ho, h.object?_widget hw ho]

end Graph

/-! ## Planting -/

namespace Solver

variable {s t u : Solver} {origin : NodeId × NodeId} {ns ms : List NodeId} {as bs : List Arc} {n : NodeId}

/-- From `s` to `t` the widgets `ns` were made in this order, all with one origin, and put where the arcs say. There is no
other new widget, nothing else was put anywhere, no other node got attributes, and no inflation was forgotten. -/
structure Plants (origin : NodeId × NodeId) (ns : List NodeId) (as : List Arc) (s t : Solver) : Prop where
  graph : s.graph.Grows t.graph
  sorted : ns.Pairwise (· < ·)
  widgets : ∀ n, n ∈ ns ↔ s.graph.size ≤ n ∧ (t.graph.object? n).any (·.isWidget) = true
  attributes : ∀ n, n ∉ ns → t.graph.attributes n = s.graph.attributes n
  containment : ∀ a, a ∈ t.graph.containment ↔ a ∈ s.graph.containment ∨ a ∈ as
  origins : ∀ n : NodeId, t.origins[n]? = if n ∈ ns then some origin else s.origins[n]?
  inflated : t.statistics.inflated = s.statistics.inflated + ns.length
  inflations : ∀ key ∈ s.flowgraph.inflations, key ∈ t.flowgraph.inflations

namespace Plants

theorem isWidget (h : Plants origin ns as s t) (hn : n ∈ ns) : (t.graph.object? n).any (·.isWidget) = true :=
  ((h.widgets n).mp hn).2

theorem ge (h : Plants origin ns as s t) (hn : n ∈ ns) : s.graph.size ≤ n := ((h.widgets n).mp hn).1

theorem lt (h : Plants origin ns as s t) (hn : n ∈ ns) : n < t.graph.size := by
  obtain ⟨o, ho, _⟩ := (Option.any_eq_true _ _).mp (h.isWidget hn)
  exact Graph.object?_lt ho

theorem nodup (h : Plants origin ns as s t) : ns.Nodup := h.sorted.imp Nat.ne_of_lt

theorem of_graph (hg : t.graph = s.graph) (ho : t.origins = s.origins)
    (hi : t.statistics.inflated = s.statistics.inflated)
    (hk : ∀ key ∈ s.flowgraph.inflations, key ∈ t.flowgraph.inflations) : Plants origin [] [] s t where
  graph := hg ▸ .refl _
  sorted := .nil
  widgets n := by
    refine ⟨nofun, fun ⟨hle, hn⟩ => ?_⟩
    obtain ⟨o, ho, _⟩ := (Option.any_eq_true _ _).mp hn
    rw [hg] at ho
    exact absurd (Graph.object?_lt ho) (Nat.not_lt.mpr hle)
  attributes n _ := by rw [hg]
  containment a := by simp [hg]
  origins n := by simp [ho]
  inflated := hi
  inflations := hk

theorem trans (h : Plants origin ns as s t) (h' : Plants origin ms bs t u) :
    Plants origin (ns ++ ms) (as ++ bs) s u where
  graph := h.graph.trans h'.graph
  sorted := List.pairwise_append.mpr
    ⟨h.sorted, h'.sorted, fun n hn m hm => Nat.lt_of_lt_of_le (h.lt hn) (h'.ge hm)⟩
  widgets n := by
    rw [List.mem_append, h.widgets, h'.widgets]
    have hsize := h.graph.toExtends.size
    constructor
    · rintro (⟨hle, hn⟩ | ⟨hle, hn⟩)
      · exact ⟨hle, h'.graph.object?_any Obj.blind_isWidget hn⟩
      · exact ⟨Nat.le_trans hsize hle, hn⟩
    · rintro ⟨hle, hn⟩
      rcases Nat.lt_or_ge n t.graph.size with hlt | hge
      · rw [h'.graph.object?_any_of_lt Obj.blind_isWidget hlt] at hn
        exact .inl ⟨hle, hn⟩
      · exact .inr ⟨hge, hn⟩
  attributes n hn := by
    rw [List.mem_append, not_or] at hn
    rw [h'.attributes n hn.2, h.attributes n hn.1]
  containment a := by rw [h'.containment, h.containment, List.mem_append, or_assoc]
  origins n := by
    rw [h'.origins, h.origins]
    by_cases hm : n ∈ ms
    · simp [hm]
    · by_cases hn : n ∈ ns <;> simp [hm, hn]
  inflated := by rw [h'.inflated, h.inflated, List.length_append, Nat.add_assoc]
  inflations key hkey := h'.inflations key (h.inflations key hkey)

theorem congr (h : Plants origin ns as s t) (hab : ∀ a, a ∈ as ↔ a ∈ bs) : Plants origin ns bs s t :=
  { h with containment := fun a => by rw [h.containment, hab] }

/-- What a new widget shows, it still shows after more widgets were made. -/
theorem shows_of {r : Resources} {p : Template.Part} (h : Plants origin ns as s t) (hn : n ∈ ns)
    (h' : Plants origin ms bs t u) (hp : t.graph.Shows r n p) : u.graph.Shows r n p := by
  apply hp.mono h'.graph.toExtends (h'.graph.object?_of_isWidget (h.isWidget hn))
  apply h'.attributes
  exact fun hm => absurd (h.lt hn) (Nat.not_lt.mpr (h'.ge hm))

end Plants

/-- The widgets `w` were made for the parts of a template, all with one origin, and put where the arcs say. -/
structure Grown (r : Resources) (origin : NodeId × NodeId) (p : Forest Template.Part) (w : Forest NodeId)
    (as : List Arc) (s t : Solver) : Prop where
  plants : Plants origin w.elems as s t
  copy : w.Rel (t.graph.Shows r) p

namespace Grown

variable {r : Resources} {p q : Forest Template.Part} {v w : Forest NodeId} {part : Template.Part}

theorem inflated (h : Grown r origin p w as s t) : t.statistics.inflated = s.statistics.inflated + p.size := by
  rw [h.plants.inflated, h.copy.length_eq]

theorem map_object? (h : Grown r origin p w as s t) : w.map t.graph.object? = (p.map (·.object)).map some :=
  (h.copy.map_eq fun _ _ hp => hp.object).trans Forest.map_map.symm

theorem empty (h : Plants origin [] [] s t) : Grown r origin .nil .nil [] s t := ⟨h, .nil⟩

/-- The widgets of a copy stay what they are. -/
theorem copy_of_plants (h : Grown r origin p w as s t) (h' : Plants origin ms bs t u) : w.Rel (u.graph.Shows r) p :=
  h.copy.imp fun _ hn _ => h.plants.shows_of hn h'

theorem append (h : Grown r origin p w as s t) (h' : Grown r origin q v bs t u) :
    Grown r origin (p.append q) (w.append v) (as ++ bs) s u where
  plants := by
    rw [Forest.elems_append]
    exact h.plants.trans h'.plants
  copy := (h.copy_of_plants h'.plants).append h'.copy

/-- A new widget, and then what is inside it. -/
theorem root (h : Plants origin [n] as s t) (hn : t.graph.Shows r n part) (h' : Grown r origin p w bs t u) :
    Grown r origin (.cons part p .nil) (.cons n w .nil) (as ++ bs) s u where
  plants := by
    rw [Forest.elems, Forest.elems, List.append_nil]
    exact h.trans h'.plants
  copy := .cons (h.shows_of List.mem_cons_self h'.plants hn) h'.copy .nil

/-- More of it is put somewhere. -/
theorem put (h : Grown r origin p w as s t) (h' : Plants origin [] bs t u) : Grown r origin p w (as ++ bs) s u where
  plants := by simpa using h.plants.trans h'
  copy := h.copy_of_plants h'

theorem congr (h : Grown r origin p w as s t) (hab : ∀ a, a ∈ as ↔ a ∈ bs) : Grown r origin p w bs s t :=
  ⟨h.plants.congr hab, h.copy⟩

end Grown

end Solver

end WidgetFlow
