import Mathlib.Data.List.Sort
import WidgetFlow.Proofs.Solving

/-!
# The trees of inflated widgets

What an inflation makes of a template, read off the graph afterwards.

The widgets of a layout are a tree that containment makes of them (`Graph.Unfolds`). It has the shape of the template
without the nodes that have no class and all that is inside those (`inflateView_reproduces`).

The items of a menu stand two levels apart in the template, for between an item and the items that it opens is their
submenu. A place in a template is a list of numbers, of the children to go to (`Template.at?`), and the places of items are
those of odd length. They are put into a forest as the items are (`Template.allItemPlaces`), and numbered in its order
(`inflateMenu_contracts`).
-/

namespace WidgetFlow

open Std

/-! ## The forest of containment -/

namespace Forest

variable {α : Type} {w : Forest α}

end Forest

namespace Graph

variable {g : Graph} {n : NodeId} {w : Forest NodeId}

end Graph

/-! ## Layouts -/

namespace Solver

variable {c : Context} {s u : Solver} {r : Resources} {origin : NodeId × NodeId} {op layout : NodeId}
  {p : Forest Template.Part} {w : Forest NodeId}

end Solver

namespace Example

/-- A view with an id, a text and a drawable. In it are a node without a class and a view with an id that is not known. -/
def card : Template :=
  ⟨some "android.view.View", some 5, some "Save", .ofList [("src", "7")], [
    templateOf none none [templateOf (some "android.view.View") none []],
    templateOf (some "android.view.View") (some 9) []]⟩

end Example

namespace Solver

end Solver

/-! ## Places in menus -/

namespace Forest

variable {α β γ : Type} {w : Forest α} {p : Forest β}

theorem Rel.map_left {R : γ → β → Prop} {f : α → γ} (h : Rel (fun a b => R (f a) b) w p) : Rel R (w.map f) p := by
  induction h with
  | nil => exact .nil
  | cons hab _ _ ihb ihr => exact .cons hab ihb ihr

/-- Two copies of one forest are of one shape. -/
theorem Rel.join {R : α → β → Prop} {S : γ → β → Prop} {v : Forest γ} (h : Rel R w p) (h' : Rel S v p) :
    Rel (fun a d => ∃ b, R a b ∧ S d b) w v := by
  induction h generalizing v with
  | nil =>
    cases h'
    exact .nil
  | cons hab _ _ ihb ihr =>
    cases h' with
    | cons hdb hbelow hrest => exact .cons ⟨_, hab, hdb⟩ (ihb hbelow) (ihr hrest)

/-- If no element stands twice, a forest of the same shape is its image. -/
theorem Rel.exists_map [DecidableEq α] [Inhabited β] {R : α → β → Prop} (h : Rel R w p) (hw : w.elems.Nodup) :
    ∃ f, w.map f = p ∧ ∀ a ∈ w.elems, R a (f a) := by
  induction h with
  | nil => exact ⟨fun _ => default, rfl, nofun⟩
  | @cons a b below rest below' rest' hab _ _ ihb ihr =>
    obtain ⟨ha, hw⟩ := List.nodup_cons.mp hw
    obtain ⟨hbelow, hrest, hcross⟩ := List.nodup_append.mp hw
    obtain ⟨f, rfl, hf⟩ := ihb hbelow
    obtain ⟨g, rfl, hg⟩ := ihr hrest
    let k : α → β := fun x => if x = a then b else if x ∈ below.elems then f x else g x
    have hka : k a = b := if_pos rfl
    have hkf : ∀ x ∈ below.elems, k x = f x := fun x hx =>
      (if_neg fun e : x = a => ha (List.mem_append_left _ (e ▸ hx))).trans (if_pos hx)
    have hkg : ∀ x ∈ rest.elems, k x = g x := fun x hx =>
      (if_neg fun e : x = a => ha (List.mem_append_right _ (e ▸ hx))).trans (if_neg fun hb => hcross x hb x hx rfl)
    refine ⟨k, ?_, fun x hx => ?_⟩
    · rw [map, hka, map_congr hkf, map_congr hkg]
    · rcases List.mem_cons.mp hx with rfl | hx
      · exact hka ▸ hab
      rcases List.mem_append.mp hx with hx | hx
      · exact hkf x hx ▸ hf x hx
      · exact hkg x hx ▸ hg x hx

end Forest

namespace Template

variable {t : Template} {ts : List Template} {p q : List Nat} {v w : Forest (List Nat)} {a : Arc} {k : Nat}

/-- The template at a place. -/
def at? : List Nat → Template → Option Template
  | [], t => some t
  | i :: p, t => t.children[i]?.bind (at? p)

/-- The template at a place inside one of several. -/
def within? (ts : List Template) : List Nat → Option Template
  | [] => none
  | i :: p => ts[i]?.bind (at? p)

theorem at?_eq_within? (h : p ≠ []) : t.at? p = within? t.children p := by
  cases p with
  | nil => exact absurd rfl h
  | cons i p => rfl

theorem at?_of_within? {t' : Template} (h : within? t.children p = some t') : t.at? p = some t' := by
  cases p with
  | nil => cases h
  | cons i p => exact h

/-- The same place, if there is one more template in front. -/
def later : List Nat → List Nat
  | [] => []
  | i :: p => (i + 1) :: p

/-- The places in a template, and those in the templates that come after it. -/
def beside (v w : Forest (List Nat)) : Forest (List Nat) := (v.map (0 :: ·)).append (w.map later)

mutual

/-- The places of an item and of the items of its submenus. -/
def itemPlaces : Template → Forest (List Nat)
  | ⟨_, _, _, _, children⟩ => .cons [] (submenuPlaces children) .nil

def submenuPlaces : List Template → Forest (List Nat)
  | [] => .nil
  | ⟨_, _, _, _, children⟩ :: menus => beside (allItemPlaces children) (submenuPlaces menus)

/-- The places of the items of a menu. -/
def allItemPlaces : List Template → Forest (List Nat)
  | [] => .nil
  | t :: ts => beside t.itemPlaces (allItemPlaces ts)

end

theorem elems_beside : (beside v w).elems = v.elems.map (0 :: ·) ++ w.elems.map later := by
  rw [beside, Forest.elems_append, Forest.elems_map, Forest.elems_map]

theorem nil_mem_beside (hw : [] ∉ w.elems) : [] ∉ (beside v w).elems := by
  rw [elems_beside, List.mem_append, List.mem_map, List.mem_map]
  rintro (⟨p, _, hp⟩ | ⟨p, hp, he⟩)
  · cases hp
  · cases p with
    | nil => exact hw hp
    | cons => cases he

theorem zero_mem_beside : 0 :: p ∈ (beside v w).elems ↔ p ∈ v.elems := by
  rw [elems_beside, List.mem_append, List.mem_map, List.mem_map]
  constructor
  · rintro (⟨q, hq, he⟩ | ⟨q, _, he⟩)
    · cases he
      exact hq
    · cases q <;> cases he
  · exact fun hp => .inl ⟨p, hp, rfl⟩

theorem succ_mem_beside {i : Nat} : (i + 1) :: p ∈ (beside v w).elems ↔ i :: p ∈ w.elems := by
  rw [elems_beside, List.mem_append, List.mem_map, List.mem_map]
  constructor
  · rintro (⟨q, _, he⟩ | ⟨q, hq, he⟩)
    · cases he
    · cases q with
      | nil => cases he
      | cons j q =>
        cases he
        exact hq
  · exact fun hp => .inr ⟨i :: p, hp, rfl⟩

mutual

theorem mem_itemPlaces : ∀ (t : Template) {p : List Nat},
    p ∈ t.itemPlaces.elems ↔ p.length % 2 = 0 ∧ (t.at? p).isSome = true
  | ⟨cls, id, text, attributes, children⟩, p => by
    rw [itemPlaces, Forest.elems, Forest.elems, List.append_nil, List.mem_cons, mem_submenuPlaces children]
    cases p with
    | nil => simp [at?]
    | cons i p => simp [at?, within?]

theorem mem_submenuPlaces : ∀ (ts : List Template) {p : List Nat},
    p ∈ (submenuPlaces ts).elems ↔ p.length % 2 = 0 ∧ (within? ts p).isSome = true
  | [], p => by
    cases p <;> simp [submenuPlaces, Forest.elems, within?]
  | ⟨cls, id, text, attributes, children⟩ :: menus, p => by
    rw [submenuPlaces]
    match p with
    | [] =>
      have hnil : [] ∉ (submenuPlaces menus).elems := by simp [mem_submenuPlaces menus, within?]
      simp [nil_mem_beside hnil, within?]
    | 0 :: p =>
      rw [zero_mem_beside, mem_allItemPlaces children]
      cases p with
      | nil => simp [within?]
      | cons i p => exact and_congr_left fun _ => by simp only [List.length_cons]; omega
    | (i + 1) :: p =>
      rw [succ_mem_beside, mem_submenuPlaces menus]
      simp [within?]

theorem mem_allItemPlaces : ∀ (ts : List Template) {p : List Nat},
    p ∈ (allItemPlaces ts).elems ↔ p.length % 2 = 1 ∧ (within? ts p).isSome = true
  | [], p => by
    cases p <;> simp [allItemPlaces, Forest.elems, within?]
  | t :: ts, p => by
    rw [allItemPlaces]
    match p with
    | [] =>
      have hnil : [] ∉ (allItemPlaces ts).elems := by simp [mem_allItemPlaces ts, within?]
      simp [nil_mem_beside hnil, within?]
    | 0 :: p =>
      rw [zero_mem_beside, mem_itemPlaces t]
      exact and_congr_left fun _ => by simp only [List.length_cons]; omega
    | (i + 1) :: p =>
      rw [succ_mem_beside, mem_allItemPlaces ts]
      simp [within?]

end

/-- What is made for an item. -/
def itemPart (t : Template) : Part := ⟨.menuItem Framework.menuItem t.attributes, t⟩

/-- The parts are those of the items at the places. -/
abbrev Locates (look : List Nat → Option Template) (v : Forest (List Nat)) (parts : Forest Part) : Prop :=
  v.Rel (fun p part => ∃ t, look p = some t ∧ part = t.itemPart) parts

theorem Locates.inside {parts : Forest Part} (h : Locates (within? t.children) v parts) :
    Locates (fun p => t.at? p) v parts :=
  h.imp fun _ _ _ ⟨t', ht', hpart⟩ => ⟨t', at?_of_within? ht', hpart⟩

theorem Locates.beside {parts rest : Forest Part} (hv : Locates (fun p => t.at? p) v parts)
    (hw : Locates (within? ts) w rest) : Locates (within? (t :: ts)) (beside v w) (parts.append rest) := by
  refine .append (.map_left hv) (.map_left (hw.imp fun p _ part h => ?_))
  cases p with
  | nil => exact h
  | cons i p => exact h

mutual

theorem locates_itemPlaces : ∀ t : Template, Locates (fun p => t.at? p) t.itemPlaces t.itemParts
  | ⟨cls, id, text, attributes, children⟩ => by
    rw [itemPlaces, itemParts]
    exact .cons ⟨_, rfl, rfl⟩ (Locates.inside (locates_submenuPlaces children)) .nil

theorem locates_submenuPlaces : ∀ ts : List Template, Locates (within? ts) (submenuPlaces ts) (submenuParts ts)
  | [] => by
    rw [submenuPlaces, submenuParts]
    exact .nil
  | ⟨cls, id, text, attributes, children⟩ :: menus => by
    rw [submenuPlaces, submenuParts]
    exact .beside (.inside (locates_allItemPlaces children)) (locates_submenuPlaces menus)

theorem locates_allItemPlaces : ∀ ts : List Template, Locates (within? ts) (allItemPlaces ts) (allItemParts ts)
  | [] => by
    rw [allItemPlaces, allItemParts]
    exact .nil
  | t :: ts => by
    rw [allItemPlaces, allItemParts]
    exact .beside (locates_itemPlaces t) (locates_allItemPlaces ts)

end

/-! ## The order of places -/

/-- What the item at a place is inside of: the parent at the length `k`, and else the item two levels up. -/
def host (k : Nat) (num : List Nat → NodeId) (parent : NodeId) (p : List Nat) : NodeId :=
  if p.length = k then parent else num p.dropLast.dropLast

/-- The first places of a forest have the length `k`, and each other place is below the one two levels up. The places
are in lexicographic order. -/
structure Hangs (k : Nat) (v : Forest (List Nat)) : Prop where
  length : ∀ p ∈ v.elems, p.length = k ∨ k + 2 ≤ p.length
  sorted : v.elems.Pairwise (· < ·)
  arcs : ∀ (num : List Nat → NodeId) (parent : NodeId) (a : Arc), a ∈ (v.map num).arcsIn parent ↔
    ∃ p ∈ v.elems, a = ⟨num p, host k num parent p⟩

theorem length_later : (later p).length = p.length := by
  cases p <;> rfl

theorem dropLast_dropLast_cons {i : Nat} (h : 2 ≤ p.length) :
    (i :: p).dropLast.dropLast = i :: p.dropLast.dropLast := by
  rw [List.dropLast_cons_of_ne_nil (by rintro rfl; cases h), List.dropLast_cons_of_ne_nil]
  intro hnil
  have := congrArg List.length hnil
  simp at this
  omega

theorem dropLast_dropLast_later (h : 3 ≤ p.length) :
    (later p).dropLast.dropLast = later p.dropLast.dropLast := by
  cases p with
  | nil => cases h
  | cons i p =>
    have hp : 2 ≤ p.length := Nat.le_of_succ_le_succ h
    rw [later, dropLast_dropLast_cons hp, dropLast_dropLast_cons hp, later]

theorem host_cons {num : List Nat → NodeId} {parent : NodeId} {i : Nat} (h : p.length = k ∨ k + 2 ≤ p.length) :
    host (k + 1) num parent (i :: p) = host k (fun q => num (i :: q)) parent p := by
  rcases h with h | h
  · rw [host, host, if_pos h, if_pos (by rw [List.length_cons, h])]
  · rw [host, host, if_neg (by rw [List.length_cons]; omega), if_neg (by omega), dropLast_dropLast_cons (by omega)]

theorem host_later {num : List Nat → NodeId} {parent : NodeId} (h : p.length = k + 1 ∨ k + 1 + 2 ≤ p.length) :
    host (k + 1) num parent (later p) = host (k + 1) (fun q => num (later q)) parent p := by
  rw [host, host, length_later]
  rcases h with h | h
  · rw [if_pos h, if_pos h]
  · rw [if_neg (by omega), if_neg (by omega), dropLast_dropLast_later (by omega)]

/-- A place of length two is below the item. -/
theorem host_zero {num : List Nat → NodeId} {parent : NodeId} (h : p.length = 2 ∨ 2 + 2 ≤ p.length) :
    host 0 num parent p = host 2 num (num []) p := by
  rw [host, host, if_neg (by omega)]
  rcases h with h | h
  · rw [if_pos h, List.eq_nil_of_length_eq_zero (l := p.dropLast.dropLast) (by simp [h])]
  · rw [if_neg (by omega)]

theorem later_lt_later (hp : p ≠ []) (hq : q ≠ []) (h : p < q) : later p < later q := by
  cases p with
  | nil => exact absurd rfl hp
  | cons i p =>
    cases q with
    | nil => exact absurd rfl hq
    | cons j q =>
      rw [later, later, List.cons_lt_cons_iff]
      rcases List.cons_lt_cons_iff.mp h with hij | ⟨rfl, hpq⟩
      · exact .inl (Nat.succ_lt_succ hij)
      · exact .inr ⟨rfl, hpq⟩

theorem zero_lt_later (hq : q ≠ []) : 0 :: p < later q := by
  cases q with
  | nil => exact absurd rfl hq
  | cons j q => exact List.cons_lt_cons_iff.mpr (.inl (Nat.succ_pos j))

theorem hangs_nil : Hangs k .nil where
  length p hp := by cases hp
  sorted := .nil
  arcs num parent a := by simp [Forest.map, Forest.arcsIn, Forest.elems]

theorem Hangs.item (h : Hangs 2 v) : Hangs 0 (.cons [] v .nil) := by
  have helems : (Forest.cons [] v .nil).elems = [] :: v.elems := by simp [Forest.elems]
  constructor
  case length =>
    intro p hp
    rw [helems] at hp
    rcases List.mem_cons.mp hp with rfl | hp
    · exact .inl rfl
    · have := h.length p hp
      exact .inr (by omega)
  case sorted =>
    rw [helems]
    refine List.pairwise_cons.mpr ⟨fun p hp => ?_, h.sorted⟩
    cases p with
    | nil => rcases h.length [] hp with h | h <;> cases h
    | cons i p => exact List.nil_lt_cons i p
  case arcs =>
    intro num parent a
    rw [helems, Forest.map, Forest.map, Forest.arcsIn, Forest.arcsIn, List.append_nil, List.mem_cons, h.arcs]
    rw [List.exists_mem_cons_iff]
    refine or_congr Iff.rfl (exists_congr fun p => and_congr_right fun hp => ?_)
    rw [host_zero (h.length p hp)]

theorem Hangs.beside (hv : Hangs k v) (hw : Hangs (k + 1) w) : Hangs (k + 1) (beside v w) := by
  have hne : ∀ p ∈ w.elems, p ≠ [] := by
    rintro p hp rfl
    rcases hw.length [] hp with h | h <;> cases h
  constructor
  case length =>
    intro p hp
    rw [elems_beside] at hp
    rcases List.mem_append.mp hp with hp | hp
    · obtain ⟨q, hq, rfl⟩ := List.mem_map.mp hp
      have := hv.length q hq
      rw [List.length_cons]
      omega
    · obtain ⟨q, hq, rfl⟩ := List.mem_map.mp hp
      rw [length_later]
      exact hw.length q hq
  case sorted =>
    rw [elems_beside, List.pairwise_append, List.pairwise_map, List.pairwise_map]
    refine ⟨hv.sorted.imp fun h => List.cons_lt_cons_iff.mpr (.inr ⟨rfl, h⟩), ?_, ?_⟩
    · exact hw.sorted.imp_of_mem fun hp hq h => later_lt_later (hne _ hp) (hne _ hq) h
    · intro p hp q hq
      obtain ⟨p', _, rfl⟩ := List.mem_map.mp hp
      obtain ⟨q', hq', rfl⟩ := List.mem_map.mp hq
      exact zero_lt_later (hne q' hq')
  case arcs =>
    intro num parent a
    rw [elems_beside, Template.beside, Forest.map_append, Forest.map_map, Forest.map_map, Forest.arcsIn_append,
      List.mem_append, hv.arcs, hw.arcs]
    simp only [List.mem_append, List.mem_map, or_and_right, exists_or, exists_exists_and_eq_and]
    refine or_congr (exists_congr fun q => and_congr_right fun hq => ?_)
      (exists_congr fun q => and_congr_right fun hq => ?_)
    · rw [host_cons (hv.length q hq)]
      rfl
    · rw [host_later (hw.length q hq)]
      rfl

mutual

theorem hangs_itemPlaces : ∀ t : Template, Hangs 0 t.itemPlaces
  | ⟨cls, id, text, attributes, children⟩ => by
    rw [itemPlaces]
    exact (hangs_submenuPlaces children).item

theorem hangs_submenuPlaces : ∀ ts : List Template, Hangs 2 (submenuPlaces ts)
  | [] => by
    rw [submenuPlaces]
    exact hangs_nil
  | ⟨cls, id, text, attributes, children⟩ :: menus => by
    rw [submenuPlaces]
    exact (hangs_allItemPlaces children).beside (hangs_submenuPlaces menus)

theorem hangs_allItemPlaces : ∀ ts : List Template, Hangs 1 (allItemPlaces ts)
  | [] => by
    rw [allItemPlaces]
    exact hangs_nil
  | t :: ts => by
    rw [allItemPlaces]
    exact (hangs_itemPlaces t).beside (hangs_allItemPlaces ts)

end

/-- The places of the items of a menu. -/
def IsItem (t : Template) (p : List Nat) : Prop := p.length % 2 = 1 ∧ (t.at? p).isSome = true

theorem mem_allItemPlaces_iff : p ∈ (allItemPlaces t.children).elems ↔ t.IsItem p := by
  rw [mem_allItemPlaces, IsItem]
  refine and_congr_right fun hlen => ?_
  rw [at?_eq_within?]
  rintro rfl
  cases hlen

end Template

/-! ## Menus -/

namespace Solver

variable {c : Context} {s : Solver} {op l m : NodeId} {i : ResourceId} {t : Template}

/-- Two lists that ascend together are in the same order. -/
theorem lt_iff_of_pairwise {ps : List (List Nat)} {num : List Nat → NodeId} (hps : ps.Pairwise (· < ·))
    (hnum : (ps.map num).Pairwise (· < ·)) : ∀ p ∈ ps, ∀ q ∈ ps, num p < num q ↔ p < q := by
  have hboth := hps.and (List.pairwise_map.mp hnum)
  refine List.Pairwise.forall_of_forall_of_flip (fun p _ => ?_) (hboth.imp fun h => ?_) (hboth.imp fun h => ?_)
  · exact iff_of_false (Nat.lt_irrefl _) (List.lt_irrefl p)
  · exact iff_of_true h.2 h.1
  · exact iff_of_false (Nat.lt_asymm h.2) (List.lt_asymm h.1)

/-- **A menu loses its submenu levels.** The new widgets are its items, one at each place of odd length in the template.
Each is what the template asks for there, and they are numbered in the order of their places. An item is inside the item two
levels up, or inside the menu if there is none. Nothing else is put anywhere, and a second inflation changes nothing. -/
theorem inflateMenu_contracts (hs : s.graph.Bounded) (hm : m < s.graph.size) (hi : s.graph.id? l = some i)
    (ht : c.project.resources.menus[i.value]? = some t)
    (hnew : InflationKey.mk op l (some m) ∉ s.flowgraph.inflations) :
    ∃ u, ∃ num : List Nat → NodeId, inflateMenu op l m c s = (.ok (), u) ∧
      (∀ n, s.graph.size ≤ n ∧ (u.graph.object? n).any (·.isWidget) = true ↔ ∃ p, t.IsItem p ∧ n = num p) ∧
      (∀ p t', t.at? p = some t' → p.length % 2 = 1 → u.graph.Shows c.project.resources (num p) t'.itemPart) ∧
      (∀ p q, t.IsItem p → t.IsItem q → (num p < num q ↔ p < q)) ∧
      (∀ a, a ∈ u.graph.containment ↔ a ∈ s.graph.containment ∨
        ∃ p, t.IsItem p ∧ a = ⟨num p, if p.length = 1 then m else num p.dropLast.dropLast⟩) ∧
      inflateMenu op l m c u = (.ok (), u) := by
  have hsure : Sure c (s.cache ⟨op, l, some m⟩ none) (inflateItems op l m t.children) _ :=
    inflateItems_sure t.children hs hm
  obtain ⟨⟨⟩, u, hrun, -, -, w, hw⟩ := hsure.run
  have hhangs := Template.hangs_allItemPlaces t.children
  -- the items are numbered along the forest of their places
  have hnodup : (Template.allItemPlaces t.children).elems.Nodup := hhangs.sorted.imp fun h => h.ne
  obtain ⟨num, hnum, hitems⟩ := ((Template.locates_allItemPlaces t.children).join hw.copy).exists_map hnodup
  subst hnum
  have hplants := hw.plants
  rw [Forest.elems_map] at hplants
  have hmem := fun p => Template.mem_allItemPlaces_iff (t := t) (p := p)
  refine ⟨u, num, (inflateMenu_eq hnew hi ht).trans hrun, fun n => ?_, fun p t' ht' hlen => ?_, fun p q hp hq => ?_,
    fun a => ?_, inflateMenu_of_mem (hplants.inflations _ (Container.key_mem_insert.mpr (.inl rfl)))⟩
  · refine (hplants.widgets n).symm.trans ?_
    simp only [List.mem_map, hmem, eq_comm]
  · obtain ⟨_, ⟨t'', ht'', rfl⟩, hshows⟩ := hitems p ((hmem p).mpr ⟨hlen, by rw [ht']; rfl⟩)
    rw [Template.at?_of_within? ht''] at ht'
    cases ht'
    exact hshows
  · exact lt_iff_of_pairwise hhangs.sorted hplants.sorted p ((hmem p).mpr hp) q ((hmem q).mpr hq)
  · refine (hplants.containment a).trans (or_congr Iff.rfl ?_)
    simp only [hhangs.arcs, hmem, Template.host]

end Solver

namespace Example

/-- The menu has an item that opens a submenu of two items, and an item that opens nothing. -/
def withSubmenu : Context := application [] {
  menus := byId [(1, templateOf none none [
    templateOf none none [templateOf none none [templateOf none none [], templateOf none none []]],
    templateOf none none []])]
  menuIds := byId [(1, "main")] }

/-- A solver that knows the id of the menu, and a menu. -/
def atMenu : Solver where
  flowgraph.graph := (Graph.push {} (.id ⟨.menu, 1, some "main"⟩)).push (.object (.optionsMenu "app.Main"))

end Example

namespace Solver

/-- The items of the submenu are in the first item. -/
theorem inflateMenu_withSubmenu : ∃ u, ∃ num : List Nat → NodeId,
    inflateMenu 2 0 1 Example.withSubmenu Example.atMenu = (.ok (), u) ∧
    num [0] < num [0, 0, 0] ∧ num [0, 0, 0] < num [0, 0, 1] ∧ num [0, 0, 1] < num [1] ∧
    Arc.mk (num [0]) 1 ∈ u.graph.containment ∧ Arc.mk (num [0, 0, 1]) (num [0]) ∈ u.graph.containment ∧
    inflateMenu 2 0 1 Example.withSubmenu u = (.ok (), u) := by
  have hs : Example.atMenu.graph.Bounded := fun a ha => by simp [Example.atMenu, graph, Graph.push] at ha
  have hm : 1 < Example.atMenu.graph.size := by decide
  have ht : Example.withSubmenu.project.resources.menus[(1 : Int)]? = some (Example.templateOf none none [
      Example.templateOf none none [Example.templateOf none none [Example.templateOf none none [],
        Example.templateOf none none []]], Example.templateOf none none []]) := by rfl
  have hnew : InflationKey.mk 2 0 (some 1) ∉ Example.atMenu.flowgraph.inflations := by decide
  obtain ⟨u, num, hrun, -, -, horder, hcontained, hagain⟩ :=
    inflateMenu_contracts (i := ⟨.menu, 1, some "main"⟩) hs hm rfl ht hnew
  refine ⟨u, num, hrun, ?_, ?_, ?_, ?_, ?_, hagain⟩
  · exact (horder [0] [0, 0, 0] ⟨rfl, rfl⟩ ⟨rfl, rfl⟩).mpr (by decide)
  · exact (horder [0, 0, 0] [0, 0, 1] ⟨rfl, rfl⟩ ⟨rfl, rfl⟩).mpr (by decide)
  · exact (horder [0, 0, 1] [1] ⟨rfl, rfl⟩ ⟨rfl, rfl⟩).mpr (by decide)
  · exact (hcontained _).mpr (.inr ⟨[0], ⟨rfl, rfl⟩, rfl⟩)
  · exact (hcontained _).mpr (.inr ⟨[0, 0, 1], ⟨rfl, rfl⟩, rfl⟩)

end Solver

end WidgetFlow
