import WidgetFlow.Proofs.Planting

/-!
# How many widgets there are

No inflation is made twice and none is lost, whatever was called in which order: the widgets of layouts are as many as the
remembered inflations of layouts ask for together, and the items of menus are those of the construction and as many more
as the remembered inflations of menus ask for (`count_inflated`).

The new widgets of a flowgraph are those of the copies, which do not share one. So a count of them is the sum of the counts
in the copies (`Planted.count_eq`), and what a copy counts is read off from its template.
-/

namespace WidgetFlow

open Std

/-! ## What is counted in a template -/

namespace Template

mutual

theorem isInflated_of_mem_widgets {o : Obj} : ∀ t : Template, o ∈ t.widgets.elems → o.isInflated = true
  | ⟨none, _, _, _, _⟩, h => by simp [widgets, Forest.elems] at h
  | ⟨some cls, _, _, _, children⟩, h => by
    simp only [widgets, Forest.elems, List.append_nil, List.mem_cons] at h
    rcases h with rfl | h
    · rfl
    · exact isInflated_of_mem_allWidgets children h

theorem isInflated_of_mem_allWidgets {o : Obj} :
    ∀ ts : List Template, o ∈ (allWidgets ts).elems → o.isInflated = true
  | [], h => by simp [allWidgets, Forest.elems] at h
  | t :: ts, h => by
    rw [allWidgets, Forest.elems_append, List.mem_append] at h
    rcases h with h | h
    · exact isInflated_of_mem_widgets t h
    · exact isInflated_of_mem_allWidgets ts h

end

mutual

theorem isMenuItem_of_mem_item {o : Obj} : ∀ t : Template, o ∈ t.item.elems → o.isMenuItem = true
  | ⟨_, _, _, attributes, children⟩, h => by
    simp only [item, Forest.elems, List.append_nil, List.mem_cons] at h
    rcases h with rfl | h
    · rfl
    · exact isMenuItem_of_mem_submenus children h

theorem isMenuItem_of_mem_submenus {o : Obj} : ∀ ts : List Template, o ∈ (submenus ts).elems → o.isMenuItem = true
  | [], h => by simp [submenus, Forest.elems] at h
  | ⟨_, _, _, _, children⟩ :: menus, h => by
    rw [submenus, Forest.elems_append, List.mem_append] at h
    rcases h with h | h
    · exact isMenuItem_of_mem_items children h
    · exact isMenuItem_of_mem_submenus menus h

theorem isMenuItem_of_mem_items {o : Obj} : ∀ ts : List Template, o ∈ (items ts).elems → o.isMenuItem = true
  | [], h => by simp [items, Forest.elems] at h
  | t :: ts, h => by
    rw [items, Forest.elems_append, List.mem_append] at h
    rcases h with h | h
    · exact isMenuItem_of_mem_item t h
    · exact isMenuItem_of_mem_items ts h

end

end Template

theorem Obj.not_isMenuItem_of_isInflated {o : Obj} (h : o.isInflated = true) : ¬o.isMenuItem = true := by
  cases o with
  | inflated _ => exact Bool.false_ne_true
  | _ => cases h

/-! ## Counts in graphs -/

namespace Graph

variable {g g' : Graph} {r : Resources} {n : NodeId} {k : Obj → Bool} {o : Obj} {key : InflationKey}

/-- The number of objects of a kind. -/
def count (g : Graph) (k : Obj → Bool) : Nat := g.ids.countP fun n => (g.object? n).any k

theorem isInflated_of_mem_layoutPattern (h : o ∈ (g.layoutPattern r n).elems) : o.isInflated = true := by
  unfold layoutPattern at h
  split at h
  · exact Template.isInflated_of_mem_widgets _ h
  · cases h

theorem isMenuItem_of_mem_menuPattern (h : o ∈ (g.menuPattern r n).elems) : o.isMenuItem = true := by
  unfold menuPattern at h
  split at h
  · exact Template.isMenuItem_of_mem_items _ h
  · cases h

/-- An inflation makes widgets of a layout if it is that of a layout. -/
theorem countP_isInflated_pattern (h : g.isLayoutKey key = true ∨ g.isMenuKey key = true) :
    (g.pattern r key).elems.countP Obj.isInflated =
      if g.isLayoutKey key = true then (g.layoutPattern r key.id).size else 0 := by
  split
  · rename_i hlayout
    rw [pattern_of_isLayoutKey hlayout]
    exact List.countP_eq_length.mpr fun o ho => isInflated_of_mem_layoutPattern ho
  · rename_i hlayout
    rw [pattern_of_isMenuKey (h.resolve_left hlayout)]
    refine List.countP_eq_zero.mpr fun o ho hi => ?_
    exact Obj.not_isMenuItem_of_isInflated hi (isMenuItem_of_mem_menuPattern ho)

/-- An inflation makes items if it is that of a menu. -/
theorem countP_isMenuItem_pattern :
    (g.pattern r key).elems.countP Obj.isMenuItem =
      if g.isMenuKey key = true then (g.menuPattern r key.id).size else 0 := by
  unfold pattern
  split
  · exact List.countP_eq_length.mpr fun o ho => isMenuItem_of_mem_menuPattern ho
  · refine List.countP_eq_zero.mpr fun o ho => ?_
    exact Obj.not_isMenuItem_of_isInflated (isInflated_of_mem_layoutPattern ho)

/-- To count widgets it is enough to know how many there were, and to count the new ones. -/
theorem Grows.count_eq {ns : List NodeId} (h : g.Grows g') (hk : Obj.Blind k)
    (hw : ∀ {o}, k o = true → o.isWidget = true) (hnodup : ns.Nodup)
    (hns : ∀ n, n ∈ ns ↔ g.size ≤ n ∧ (g'.object? n).any (·.isWidget) = true) :
    g'.count k = g.count k + ns.countP fun n => (g'.object? n).any k := by
  have hsize := h.toExtends.size
  have hids : g'.ids = g.ids ++ List.range' g.size (g'.size - g.size) := by
    rw [ids, ids, List.range_eq_range', List.range_eq_range']
    have := List.range'_append_1 (s := 0) (m := g.size) (n := g'.size - g.size)
    rw [Nat.zero_add, Nat.add_sub_cancel' hsize] at this
    exact this.symm
  have hnew : ((List.range' g.size (g'.size - g.size)).filter fun n => (g'.object? n).any (·.isWidget)).Perm ns := by
    refine (List.perm_ext_iff_of_nodup (List.Nodup.filter _ List.nodup_range') hnodup).mpr fun n => ?_
    rw [List.mem_filter, List.mem_range'_1, hns]
    refine ⟨fun ⟨hn, hwidget⟩ => ⟨hn.1, hwidget⟩, fun ⟨hle, hwidget⟩ => ⟨⟨hle, ?_⟩, hwidget⟩⟩
    obtain ⟨o, ho, _⟩ := (Option.any_eq_true _ _).mp hwidget
    rw [Nat.add_sub_cancel' hsize]
    exact object?_lt ho
  rw [count, hids, List.countP_append, ← hnew.countP_eq, List.countP_filter]
  congr 1
  · exact List.countP_congr fun n hn => by rw [h.object?_any_of_lt hk (mem_ids.mp hn)]
  · refine List.countP_congr fun n _ => ?_
    rw [Bool.and_eq_true]
    exact ⟨fun hn => ⟨hn, object?_any_imp hw hn⟩, And.left⟩

end Graph

/-! ## Counts in solvers -/

namespace Solver

variable {s : Solver} {c : Context} {b f : Flowgraph} {r : Resources} {k : Obj → Bool} {w : InflationKey → Forest NodeId}

/-- A copy counts what its template counts. -/
theorem Copied.countP_eq {key : InflationKey} {v : Forest NodeId} (h : Copied r s key v) :
    v.elems.countP (fun n => (s.graph.object? n).any k) = (s.graph.pattern r key).elems.countP k := by
  have hcopy := congrArg (fun v => v.elems.countP (·.any k)) h.copy
  simpa [List.countP_map, Function.comp_def] using hcopy

namespace Planted

theorem nodup_copies (h : Planted r b f s w) :
    (s.flowgraph.inflations.keys.flatMap fun key => (w key).elems).Nodup := by
  refine List.nodup_flatMap.mpr ⟨fun key hkey => (h.copied key (ExtTreeMap.mem_keys.mp hkey)).nodup, ?_⟩
  refine ExtTreeMap.nodup_keys.imp_of_mem fun {key key'} hkey hkey' hne n hn hn' => hne ?_
  exact h.apart key (ExtTreeMap.mem_keys.mp hkey) key' (ExtTreeMap.mem_keys.mp hkey') n hn hn'

/-- **Widgets are counted by the templates of the inflations.** -/
theorem count_eq (h : Planted r b f s w) (hk : Obj.Blind k) (hw : ∀ {o}, k o = true → o.isWidget = true) :
    s.graph.count k = b.graph.count k +
      (s.flowgraph.inflations.keys.map fun key => (s.graph.pattern r key).elems.countP k).sum := by
  have hmem n : n ∈ (s.flowgraph.inflations.keys.flatMap fun key => (w key).elems) ↔
      b.graph.size ≤ n ∧ (s.graph.object? n).any (·.isWidget) = true := by
    rw [← h.widgets n, List.mem_flatMap]
    simp only [ExtTreeMap.mem_keys]
  rw [(h.grows.1.trans h.grows.2).count_eq hk hw h.nodup_copies hmem, List.countP_flatMap]
  congr 2
  exact List.map_congr_left fun key hkey => (h.copied key (ExtTreeMap.mem_keys.mp hkey)).countP_eq

end Planted

theorem sum_map_filter {α : Type} {l : List α} {p : α → Bool} {size : α → Nat} {m : α → Nat}
    (h : ∀ a ∈ l, m a = if p a = true then size a else 0) : (l.map m).sum = ((l.filter p).map size).sum := by
  rw [List.map_congr_left h, List.sum_map_ite]
  simp

/-- **Each inflation is made once.** In every solver that callers can come to, the widgets of layouts are as many as the
inflations of layouts ask for together. The items of menus are those of the construction and as many as the inflations of
menus ask for. -/
theorem count_inflated (hb : Flowgraph.build c = .ok b) (hf : Available c f) (hs : Reached c f s) :
    s.graph.count Obj.isInflated = ((s.flowgraph.inflations.keys.filter s.graph.isLayoutKey).map fun key =>
        (s.graph.layoutPattern c.project.resources key.id).size).sum ∧
      s.graph.count Obj.isMenuItem = b.graph.count Obj.isMenuItem +
        ((s.flowgraph.inflations.keys.filter s.graph.isMenuKey).map fun key =>
          (s.graph.menuPattern c.project.resources key.id).size).sum := by
  obtain ⟨w, hw⟩ := hs.planted hb hf
  constructor
  · have hbuilt : b.graph.count Obj.isInflated = 0 :=
      List.countP_eq_zero.mpr fun n _ => by rw [Flowgraph.not_isInflated_of_build hb]; decide
    rw [hw.count_eq Obj.blind_isInflated Obj.isWidget_of_isInflated, hbuilt, Nat.zero_add]
    exact sum_map_filter fun key hkey =>
      Graph.countP_isInflated_pattern (hw.copied key (ExtTreeMap.mem_keys.mp hkey)).kind
  · rw [hw.count_eq Obj.blind_isMenuItem Obj.isWidget_of_isMenuItem]
    congr 1
    exact sum_map_filter fun key _ => Graph.countP_isMenuItem_pattern

/-- A second run on the same flowgraph has one item from the construction and one from the menu, like the first. -/
theorem count_withMenu : ∃ b s t, Flowgraph.build (Example.withMenu 6) = .ok b ∧
    solve (Example.withMenu 6) { flowgraph := b } = (.ok (), s) ∧
    solve (Example.withMenu 6) { flowgraph := s.flowgraph } = (.ok (), t) ∧
    s.graph.count Obj.isMenuItem = 2 ∧ t.graph.count Obj.isMenuItem = 2 := by
  have heval : (Flowgraph.build (Example.withMenu 6)).toOption.any (fun b =>
      let first := solve (Example.withMenu 6) { flowgraph := b }
      let second := solve (Example.withMenu 6) { flowgraph := first.2.flowgraph }
      let items (s : Solver) := ((s.flowgraph.inflations.keys.filter s.graph.isMenuKey).map fun key =>
        (s.graph.menuPattern (Example.withMenu 6).project.resources key.id).size).sum
      first.1.isOk = true ∧ second.1.isOk = true ∧ b.graph.count Obj.isMenuItem = 1 ∧ items first.2 = 1 ∧
      items second.2 = 1) = true := by
    decide +kernel
  obtain ⟨b, hb, hk⟩ := exists_of_toOption heval
  obtain ⟨hfirst, hsecond, hbuilt, hitems, hitems'⟩ := of_decide_eq_true hk
  have hs := reached_of_solve (eq_ok_of_isOk hfirst)
  have ht := reached_of_solve (eq_ok_of_isOk hsecond)
  refine ⟨b, _, _, hb, eq_ok_of_isOk hfirst, eq_ok_of_isOk hsecond, ?_, ?_⟩
  · exact (count_inflated hb (.built hb) hs).2.trans (congrArg₂ (· + ·) hbuilt hitems)
  · exact (count_inflated hb (.solved (.built hb) hs) ht).2.trans (congrArg₂ (· + ·) hbuilt hitems')

end Solver

end WidgetFlow
