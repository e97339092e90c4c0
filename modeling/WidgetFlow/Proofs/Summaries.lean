import Mathlib.Data.List.Forall2
import WidgetFlow.Proofs.Interning
import WidgetFlow.Solution.Summary

/-!
# Summaries lose nothing

A summary gives nodes by their descriptions and uses descriptions as keys. Class names, texts and ids are part of
descriptions and can be anything, also something that looks like the description of another node. But every description
ends with the number of its node, which has no `#` in it, so the last `#` is in front of the number and no two nodes
have one description (`describe_injective`).

* `Lists`: descriptions of the nodes of a set, as many as there are nodes;
* `Tabulates`, `tabulates_rename`: a map with other keys, which has an entry for each entry of the map;
* `summary_complete`: what is in a summary.
-/

namespace WidgetFlow

open Std

/-! ## Descriptions -/

namespace Graph

variable {g : Graph}

/-- The digits of a number are what is behind the last `#`, whatever is in front of it. -/
theorem takeWhile_numbered (text : List Char) (k : Nat) :
    ((text ++ '#' :: Nat.toDigits 10 k).reverse.takeWhile (· ≠ '#')).reverse = Nat.toDigits 10 k := by
  have hdigits : ∀ c ∈ (Nat.toDigits 10 k).reverse, decide (c ≠ '#') = true := by
    intro c hc
    have hdigit := Nat.isDigit_of_mem_toDigits (by decide) (by decide) (List.mem_reverse.mp hc)
    refine decide_eq_true fun he => ?_
    rw [he] at hdigit
    exact absurd hdigit (by decide)
  rw [List.reverse_append, List.reverse_cons, List.append_assoc, List.takeWhile_append_of_pos hdigits]
  simp

theorem exists_numbered (g : Graph) (n : NodeId) :
    ∃ text : List Char, (g.describe n).toList = text ++ '#' :: Nat.toDigits 10 n := by
  unfold describe
  extract_lets what
  have hparts : s!"{what}#{n}" = what ++ ("#" ++ toString n) := String.append_assoc
  refine ⟨what.toList, ?_⟩
  rw [hparts]
  simp

/-- **No two nodes have one description.** -/
theorem describe_injective (g : Graph) : Function.Injective g.describe := by
  intro n m h
  obtain ⟨a, ha⟩ := g.exists_numbered n
  obtain ⟨b, hb⟩ := g.exists_numbered m
  apply Flowgraph.digits_inj
  rw [← takeWhile_numbered a n, ← takeWhile_numbered b m, ← ha, ← hb, h]

/-- The texts are the descriptions of the nodes of a set, each once. -/
structure Lists (g : Graph) (ns : NodeSet) (texts : List String) : Prop where
  mem : ∀ text, text ∈ texts ↔ ∃ n ∈ ns, g.describe n = text
  nodup : texts.Nodup
  length : texts.length = ns.size

theorem lists_map (g : Graph) (ns : NodeSet) : g.Lists ns (ns.toList.map g.describe) where
  mem text := by simp
  nodup := by
    refine List.Nodup.map g.describe_injective (ExtTreeSet.distinct_toList.imp fun {n m} hne he => hne ?_)
    rw [he]
    exact ReflCmp.compare_self
  length := by rw [List.length_map, ExtTreeSet.length_toList]

theorem lists_empty (g : Graph) : g.Lists ∅ [] := ⟨by simp, .nil, by simp⟩

end Graph

/-! ## Maps with other keys -/

section Tabulates

variable {κ κ' β β' : Type} [Ord κ] [TransOrd κ] [LawfulEqOrd κ] [Ord κ'] [TransOrd κ'] [LawfulEqOrd κ']

/-- A map with other keys: it has one entry for each entry of the first map, and no others. -/
structure Tabulates (name : κ → κ') (R : β → β' → Prop) (m : ExtTreeMap κ β) (m' : ExtTreeMap κ' β') : Prop where
  size : m'.size = m.size
  entry : ∀ k v, m[k]? = some v → ∃ v', m'[name k]? = some v' ∧ R v v'
  key : ∀ k' ∈ m', ∃ k ∈ m, name k = k'

variable {name : κ → κ'} (hname : Function.Injective name)
include hname

omit [TransOrd κ'] in
theorem distinct_rename (m : ExtTreeMap κ β) (g : β → β') :
    (m.toList.map fun (k, v) => (name k, g v)).Pairwise fun a b => ¬compare a.1 b.1 = .eq := by
  refine List.pairwise_map.mpr (ExtTreeMap.distinct_keys_toList.imp fun {a b} hab he => hab ?_)
  rw [hname (LawfulEqCmp.eq_of_compare he)]
  exact ReflCmp.compare_self

/-- The entries of a map whose keys are renamed, no two of them alike. -/
theorem getElem?_rename {m : ExtTreeMap κ β} {g : β → β'} {k' : κ'} {v' : β'} :
    (ExtTreeMap.ofList (m.toList.map fun (k, v) => (name k, g v)) : ExtTreeMap κ' β')[k']? = some v' ↔
      ∃ k v, m[k]? = some v ∧ name k = k' ∧ g v = v' := by
  have hmem : (k', v') ∈ (m.toList.map fun (k, v) => (name k, g v)) ↔
      ∃ k v, m[k]? = some v ∧ name k = k' ∧ g v = v' := by
    simp [ExtTreeMap.mem_toList_iff_getElem?_eq_some]
  rw [← hmem]
  constructor
  · exact fun h => Container.mem_of_mem_toList_ofList (ExtTreeMap.mem_toList_iff_getElem?_eq_some.mpr h)
  · exact ExtTreeMap.getElem?_ofList_of_mem ReflCmp.compare_self (distinct_rename hname m g)

/-- Renaming the keys keeps all entries. -/
theorem tabulates_rename {R : β → β' → Prop} {g : β → β'} (m : ExtTreeMap κ β) (hg : ∀ v, R v (g v)) :
    Tabulates name R m (.ofList (m.toList.map fun (k, v) => (name k, g v))) := by
  refine ⟨?_, fun k v hk => ⟨g v, (getElem?_rename hname).mpr ⟨k, v, hk, rfl, rfl⟩, hg v⟩, fun k' hk' => ?_⟩
  · rw [ExtTreeMap.size_ofList (distinct_rename hname m g), List.length_map, ExtTreeMap.length_toList]
  · obtain ⟨v', hv'⟩ := Option.isSome_iff_exists.mp (ExtTreeMap.mem_iff_isSome_getElem?.mp hk')
    obtain ⟨k, v, hk, he, -⟩ := (getElem?_rename hname).mp hv'
    exact ⟨k, ExtTreeMap.mem_iff_isSome_getElem?.mpr (by simp [hk]), he⟩

end Tabulates

/-! ## The parts of a summary -/

namespace Solver

variable {s : Solver} {n : NodeId} {op : Op} {views : NodeSet}

/-- The views that show a context menu. -/
def viewsOf? (s : Solver) (menu : NodeId) : Option NodeSet :=
  match s.graph.object? menu with
  | some (.contextMenu _ _ views) => some views
  | _ => none

/-- The context menus that are registered, with the views that show them. -/
def menuViews (s : Solver) : ExtTreeMap NodeId NodeSet :=
  .ofList (s.flowgraph.contextMenus.toList.filterMap fun (_, menu) => (s.viewsOf? menu).map fun views => (menu, views))

/-- What a summary says of an operation. The parameters of a registration are its listeners. -/
structure Tells (s : Solver) (n : NodeId) (o : OperationSolution) : Prop where
  operation : o.operation = s.graph.describe n
  ids : s.graph.Lists (s.idsOf n) o.ids
  receivers : s.graph.Lists (s.receivers n) o.receivers
  parameters : s.graph.Lists (s.parameters n) (o.parameters ++ o.listeners)
  results : s.graph.Lists (s.results n) o.results
  listeners : s.graph.Lists (s.listenersOf n) o.listeners

theorem operationSolution_tells (ho : s.graph.op? n = some op) : s.Tells n (s.operationSolution n op) := by
  have hparameters := s.graph.lists_map (s.parameters n)
  have hlisteners : s.listenersOf n = if op.kind.tag = .setListener then s.parameters n else ∅ := by
    simp [listenersOf, ho]
  by_cases hregistration : op.kind.tag = .setListener
  · rw [if_pos hregistration] at hlisteners
    refine ⟨rfl, s.graph.lists_map _, s.graph.lists_map _, ?_, s.graph.lists_map _, ?_⟩ <;>
      simpa [operationSolution, describeAll, hregistration, hlisteners] using hparameters
  · rw [if_neg hregistration] at hlisteners
    refine ⟨rfl, s.graph.lists_map _, s.graph.lists_map _, ?_, s.graph.lists_map _, ?_⟩
    · simpa [operationSolution, describeAll, hregistration] using hparameters
    · simpa [operationSolution, hregistration, hlisteners] using s.graph.lists_empty

/-- The operations of a summary are those of the graph, in the same order. -/
theorem forall₂_operations (s : Solver) : List.Forall₂ s.Tells s.graph.ops s.summary.operations := by
  have hops : ∀ n ∈ s.graph.ops, ∃ op, s.graph.op? n = some op := fun n hn =>
    Option.isSome_iff_exists.mp (List.mem_filter.mp hn).2
  show List.Forall₂ _ _ (s.graph.ops.filterMap fun n => (s.graph.op? n).map (s.operationSolution n))
  generalize s.graph.ops = ops at hops ⊢
  induction ops with
  | nil => exact .nil
  | cons n ns ih =>
    obtain ⟨op, ho⟩ := hops n List.mem_cons_self
    rw [List.filterMap_cons, ho]
    exact .cons (operationSolution_tells ho) (ih fun m hm => hops m (List.mem_cons_of_mem _ hm))

/-! ## Context menus -/

theorem viewsOf?_eq_some : s.viewsOf? n = some views ↔
    ∃ handler p, s.graph.object? n = some (.contextMenu handler p views) := by
  unfold viewsOf?
  split
  · rename_i ho
    simp [ho]
  · rename_i hne
    exact ⟨nofun, fun h => h.elim fun handler h => h.elim fun p ho => absurd ho (hne handler p views)⟩

theorem contextMenuViews?_eq (s : Solver) (n : NodeId) :
    s.contextMenuViews? n = (s.viewsOf? n).map fun views => (s.graph.describe n, s.describeAll views) := by
  unfold contextMenuViews?
  split
  · rename_i handler p views ho
    rw [viewsOf?_eq_some.mpr ⟨handler, p, ho⟩]
    rfl
  · rename_i hne
    cases hviews : s.viewsOf? n with
    | none => rfl
    | some views =>
      obtain ⟨handler, p, ho⟩ := viewsOf?_eq_some.mp hviews
      exact absurd ho (hne handler p views)

/-- What is made of the menus that are registered, if no two get one name. -/
theorem getElem?_menus {κ β : Type} [Ord κ] [TransOrd κ] [LawfulEqOrd κ] {name : NodeId → κ}
    (hname : Function.Injective name) (g : NodeSet → β) {k : κ} {v : β} :
    (ExtTreeMap.ofList (s.flowgraph.contextMenus.toList.filterMap fun (_, menu) =>
      (s.viewsOf? menu).map fun views => (name menu, g views)) : ExtTreeMap κ β)[k]? = some v ↔
    ∃ n views, (∃ p : NodeId, s.flowgraph.contextMenus[p]? = some n) ∧ s.viewsOf? n = some views ∧
      name n = k ∧ g views = v := by
  have hmem : ∀ w, (k, w) ∈ s.flowgraph.contextMenus.toList.filterMap (fun (_, menu) =>
      (s.viewsOf? menu).map fun views => (name menu, g views)) ↔
      ∃ n views, (∃ p : NodeId, s.flowgraph.contextMenus[p]? = some n) ∧ s.viewsOf? n = some views ∧
        name n = k ∧ g views = w := by
    intro w
    simp only [List.mem_filterMap, Option.map_eq_some_iff, Prod.mk.injEq, Prod.exists,
      ExtTreeMap.mem_toList_iff_getElem?_eq_some]
    constructor
    · rintro ⟨p, n, hp, views, h⟩
      exact ⟨n, views, ⟨p, hp⟩, h⟩
    · rintro ⟨n, views, ⟨p, hp⟩, h⟩
      exact ⟨p, n, hp, views, h⟩
  rw [← hmem]
  constructor
  · exact fun h => Container.mem_of_mem_toList_ofList (ExtTreeMap.mem_toList_iff_getElem?_eq_some.mpr h)
  · intro hv
    -- a menu can be registered twice, but its views are the same
    refine Container.getElem?_ofList_of_unique hv fun w hw => ?_
    obtain ⟨n, views, -, hn, hk, rfl⟩ := (hmem v).mp hv
    obtain ⟨m, views', -, hm, hk', rfl⟩ := (hmem w).mp hw
    obtain rfl := hname (hk.trans hk'.symm)
    rw [Option.some.inj (hn.symm.trans hm)]

theorem menuViews_eq_some : s.menuViews[n]? = some views ↔
    (∃ p : NodeId, s.flowgraph.contextMenus[p]? = some n) ∧ s.viewsOf? n = some views := by
  refine (getElem?_menus Function.injective_id id).trans ?_
  simp

theorem tabulates_contextMenus (s : Solver) :
    Tabulates s.graph.describe s.graph.Lists s.menuViews s.summary.contextMenus := by
  have hname := s.graph.describe_injective
  have hentries : s.summary.contextMenus =
      .ofList (s.menuViews.toList.map (Prod.map s.graph.describe s.describeAll)) := by
    refine ExtTreeMap.ext_getElem? fun k => Option.ext fun texts => ?_
    simp only [summary, contextMenuViews?_eq]
    refine (getElem?_menus hname s.describeAll).trans (Iff.trans ?_ (getElem?_rename hname).symm)
    simp [menuViews_eq_some, and_assoc]
  rw [hentries]
  exact tabulates_rename hname _ fun views => s.graph.lists_map views

/-- Where nodes with a key are there once, the registered menus are the context menus of the graph. -/
theorem menuViews_iff (h : s.flowgraph.HashConsed) :
    s.menuViews[n]? = some views ↔ ∃ handler p, s.graph.object? n = some (.contextMenu handler p views) := by
  rw [menuViews_eq_some, viewsOf?_eq_some, and_iff_right_iff_imp]
  rintro ⟨handler, p, ho⟩
  exact ⟨p, (h.contextMenus p n).mp ⟨handler, views, ho⟩⟩

theorem size_menuViews (h : s.flowgraph.HashConsed) : s.menuViews.size = s.flowgraph.contextMenus.size := by
  have hregistered : ∀ x ∈ s.flowgraph.contextMenus.toList,
      ∃ handler views, s.graph.object? x.2 = some (.contextMenu handler x.1 views) := fun x hx =>
    (h.contextMenus x.1 x.2).mpr (ExtTreeMap.mem_toList_iff_getElem?_eq_some.mp hx)
  rw [menuViews, ExtTreeMap.size_ofList]
  · rw [← ExtTreeMap.length_toList, List.filterMap_length_eq_length]
    intro x hx
    obtain ⟨handler, views, ho⟩ := hregistered x hx
    simp [viewsOf?_eq_some.mpr ⟨handler, x.1, ho⟩]
  · refine List.pairwise_filterMap.mpr (ExtTreeMap.distinct_keys_toList.imp_of_mem fun {x y} hx hy hne => ?_)
    simp only [Option.map_eq_some_iff]
    rintro _ ⟨views, -, rfl⟩ _ ⟨views', -, rfl⟩ he
    -- a menu is registered for its own parameter only
    have hmenu : x.2 = y.2 := LawfulEqCmp.eq_of_compare he
    obtain ⟨handler, _, ho⟩ := hregistered x hx
    obtain ⟨handler', _, ho'⟩ := hregistered y hy
    rw [hmenu, ho', Option.some.injEq, Obj.contextMenu.injEq] at ho
    exact hne (by rw [ho.2.1]; exact ReflCmp.compare_self)

/-! ## Summaries -/

/-- **Summaries lose nothing.** No two nodes of a graph have one description, so there is an entry in a summary for each
window with roots, each dialog, each options menu and each context menu that is registered, and the descriptions of a
set are as many as its nodes. In a solver that callers can come to, all context menus of the graph are registered, once
each. -/
theorem summary_complete :
    (∀ g : Graph, Function.Injective g.describe) ∧
    (∀ s : Solver,
      Tabulates s.graph.describe s.graph.Lists s.roots s.summary.windowRoots ∧
      Tabulates s.graph.describe Eq s.flowgraph.dialogs s.summary.dialogs ∧
      Tabulates id (fun menu text => s.graph.describe menu = text) s.flowgraph.optionsMenus s.summary.optionsMenus ∧
      Tabulates s.graph.describe s.graph.Lists s.menuViews s.summary.contextMenus ∧
      List.Forall₂ s.Tells s.graph.ops s.summary.operations) ∧
    ∀ c f s, Available c f → Reached c f s →
      (∀ n views, s.menuViews[n]? = some views ↔
        ∃ handler p, s.graph.object? n = some (.contextMenu handler p views)) ∧
      s.summary.contextMenus.size = s.flowgraph.contextMenus.size := by
  refine ⟨Graph.describe_injective, fun s => ?_, fun c f s hf hs => ?_⟩
  · have hname := s.graph.describe_injective
    exact ⟨tabulates_rename hname _ s.graph.lists_map, tabulates_rename hname _ fun _ => rfl,
      tabulates_rename Function.injective_id _ fun _ => rfl, s.tabulates_contextMenus, s.forall₂_operations⟩
  · have hconsed := (hs.consed hf).hashConsed
    exact ⟨fun n views => menuViews_iff hconsed, s.tabulates_contextMenus.size.trans (size_menuViews hconsed)⟩

/-- The activity has one root, and the panes share the only context menu. -/
theorem summary_withPanes : ∃ f s, Available Example.withPanes f ∧ Reached Example.withPanes f s ∧
    (∃ texts, s.summary.windowRoots[s.graph.describe 1]? = some texts ∧ s.graph.Lists {5} texts) ∧
    s.summary.contextMenus.size = 1 := by
  have heval : (analyze Example.withPanes).toOption.any (fun s => s.roots[1]? = some {5} ∧
      s.flowgraph.contextMenus.size = 1) = true := by
    decide +kernel
  obtain ⟨s, hs, hk⟩ := exists_of_analyze heval
  obtain ⟨hroots, hmenus⟩ := of_decide_eq_true hk
  obtain ⟨f, hf, hreached⟩ := reached_of_analyze hs
  obtain ⟨-, hparts, hcomplete⟩ := summary_complete
  exact ⟨f, s, .built hf, hreached, (hparts s).1.entry 1 _ hroots,
    (hcomplete _ f s (.built hf) hreached).2.trans hmenus⟩

end Solver

end WidgetFlow
