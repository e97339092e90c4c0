import WidgetFlow.Proofs.Passes

/-!
# Nodes with a key are there once

Locals and fields, ids, texts, activities and the context menus of locals have keys (`NodeKind.key?`). However often
such a node is asked for, there is one, and the look-up of its key finds it (`Flowgraph.HashConsed`). For a context
menu the look-up is a registry of its own, and the menu flows into the local that it is registered for.

The invariant is that keys are unique and that the registry of context menus lists the nodes with such a key
(`Flowgraph.Consed`). Most changes leave all keys as they are (`Consed.of_keys`); the others add a node with a key that
no node has.
-/

namespace WidgetFlow

open Std Relation

namespace Graph

variable {g g' : Graph} {n m : NodeId} {k : NodeKind} {key : Key}

/-! ## Keys -/

/-- The key of a node, if it has one. -/
def key? (g : Graph) (n : NodeId) : Option Key := (g.node? n).bind (·.kind.key?)

theorem key?_eq_some : g.key? n = some key ↔ ∃ a, g.node? n = some a ∧ a.kind.key? = some key :=
  Option.bind_eq_some_iff

theorem key?_lt (h : g.key? n = some key) : n < g.size := (key?_eq_some.mp h).elim fun _ ha => node?_lt ha.1

theorem key?_of_nodes (h : g'.nodes = g.nodes) : g'.key? n = g.key? n := by
  rw [key?, key?, node?, h]
  rfl

theorem key?_push : (g.push k).key? n = if n = g.size then k.key? else g.key? n := by
  rw [key?, node?_push]
  split <;> rfl

theorem key?_push_of_none (hk : k.key? = none) : (g.push k).key? n = g.key? n := by
  rw [key?_push]
  split
  · rename_i hn
    have hnone : g.node? n = none := Array.getElem?_eq_none (Nat.le_of_eq hn.symm)
    rw [hk, key?, hnone]
    rfl
  · rfl

theorem key?_pushOp {o : Op} : (g.pushOp o).key? n = g.key? n := by
  rw [key?, node?_pushOp]
  exact key?_push_of_none rfl

theorem key?_modify {f : Node → Node} (hf : ∀ a : Node, (f a).kind.key? = a.kind.key?) :
    (g.modify m f).key? n = g.key? n := by
  rw [key?, key?, node?_modify]
  split
  · cases g.node? n with
    | none => rfl
    | some a => exact hf a
  · rfl

/-- No two nodes have the same key. -/
def KeysUnique (g : Graph) : Prop := ∀ n m key, g.key? n = some key → g.key? m = some key → n = m

theorem KeysUnique.push (h : g.KeysUnique) (hnew : ∀ n key, k.key? = some key → g.key? n ≠ some key) :
    (g.push k).KeysUnique := by
  intro n m key hn hm
  rw [key?_push] at hn hm
  split at hn <;> split at hm
  · rename_i hn' hm'
    rw [hn', hm']
  · exact absurd hm (hnew m key hn)
  · exact absurd hn (hnew n key hm)
  · exact h n m key hn hm

/-- The look-up of a key finds the node that has it. -/
theorem KeysUnique.find? {p : NodeKind → Bool} (h : g.KeysUnique) (hp : ∀ k, p k = true ↔ k.key? = some key) :
    g.find? p = some n ↔ g.key? n = some key := by
  rw [find?_eq_some, key?_eq_some]
  constructor
  · rintro ⟨⟨a, ha, hpa⟩, -⟩
    exact ⟨a, ha, (hp _).mp hpa⟩
  · rintro ⟨a, ha, hkey⟩
    refine ⟨⟨a, ha, (hp _).mpr hkey⟩, fun m hm b hb => Bool.eq_false_iff.mpr fun hpb => ?_⟩
    have hmn := h m n key (key?_eq_some.mpr ⟨b, hb, (hp _).mp hpb⟩) (key?_eq_some.mpr ⟨a, ha, hkey⟩)
    exact Nat.ne_of_lt hm hmn

theorem key?_eq_pointer {p : Pointer} : g.key? n = some (.pointer p) ↔ g.pointer? n = some p := by
  rw [key?, pointer?]
  cases g.node? n with
  | none => simp
  | some a =>
    rw [Option.bind_some, Option.bind_some, NodeKind.key?_eq_pointer]
    cases a.kind <;> simp [NodeKind.pointer?]

theorem key?_eq_id {space : IdSpace} {value : Int} : g.key? n = some (.id space value) ↔
    ∃ i, g.id? n = some i ∧ i.space = space ∧ i.value = value := by
  rw [key?, id?]
  cases g.node? n with
  | none => simp
  | some a =>
    rw [Option.bind_some, Option.bind_some, NodeKind.key?_eq_id]
    cases a.kind <;> simp [NodeKind.id?]

theorem key?_eq_string {t : String} : g.key? n = some (.string t) ↔ g.object? n = some (.string t) := by
  rw [key?, object?]
  cases g.node? n with
  | none => simp
  | some a =>
    rw [Option.bind_some, Option.bind_some, NodeKind.key?_eq_string]
    cases a.kind <;> simp [NodeKind.object?]

theorem key?_eq_activity {cls : String} : g.key? n = some (.activity cls) ↔ g.object? n = some (.activity cls) := by
  rw [key?, object?]
  cases g.node? n with
  | none => simp
  | some a =>
    rw [Option.bind_some, Option.bind_some, NodeKind.key?_eq_activity]
    cases a.kind <;> simp [NodeKind.object?]

theorem key?_eq_contextMenu {p : NodeId} : g.key? n = some (.contextMenu p) ↔
    ∃ h v, g.object? n = some (.contextMenu h p v) := by
  rw [key?, object?]
  cases g.node? n with
  | none => simp
  | some a =>
    rw [Option.bind_some, Option.bind_some, NodeKind.key?_eq_contextMenu]
    cases a.kind <;> simp [NodeKind.object?]

end Graph

/-! ## The invariant -/

namespace Flowgraph

variable {U : NodeKind → Prop} {c : Context} {f f' : Flowgraph} {n : NodeId} {k : NodeKind}

/-- Keys are unique, and the registry of context menus lists the nodes of context menus, which flow into their locals. -/
structure Consed (f : Flowgraph) : Prop where
  unique : f.graph.KeysUnique
  menus : ∀ p n, f.contextMenus[p]? = some n ↔ f.graph.key? n = some (.contextMenu p)
  flows : ∀ p n, f.graph.key? n = some (.contextMenu p) → Arc.mk n p ∈ f.graph.flow

theorem consed_empty : Consed {} where
  unique n m key hn := by simp [Graph.key?, Graph.node?] at hn
  menus p n := by simp [Graph.key?, Graph.node?]
  flows p n hn := by simp [Graph.key?, Graph.node?] at hn

/-- A change that keeps all keys. -/
theorem Consed.of_keys (h : f.Consed) (hk : ∀ n, f'.graph.key? n = f.graph.key? n)
    (hm : f'.contextMenus = f.contextMenus) (hf : ∀ a ∈ f.graph.flow, a ∈ f'.graph.flow) : f'.Consed where
  unique n m key hn hm := by
    rw [hk] at hn hm
    exact h.unique n m key hn hm
  menus p n := by
    rw [hm, hk]
    exact h.menus p n
  flows p n hn := by
    rw [hk] at hn
    exact hf _ (h.flows p n hn)

/-- A node that is asked for by name and was not there. -/
theorem Consed.node (h : f.Consed) (hk : k.isNamed = true)
    (hnew : ∀ n a, f.graph.node? n = some a → a.kind.key? ≠ k.key?) : Consed { f with graph := f.graph.push k } := by
  have hmenu : ∀ p, k.key? ≠ some (.contextMenu p) := by
    intro p he
    obtain ⟨handler, views, rfl⟩ := NodeKind.key?_eq_contextMenu.mp he
    cases hk
  have hold : ∀ p n, (f.graph.push k).key? n = some (.contextMenu p) ↔ f.graph.key? n = some (.contextMenu p) := by
    intro p n
    rw [Graph.key?_push]
    split
    · rename_i hn
      exact ⟨fun he => absurd he (hmenu p), fun he => absurd (Graph.key?_lt he) (Nat.not_lt.mpr (Nat.le_of_eq hn.symm))⟩
    · exact Iff.rfl
  refine ⟨h.unique.push fun n key hkey hn => ?_, fun p n => (h.menus p n).trans (hold p n).symm, fun p n hn => ?_⟩
  · obtain ⟨a, ha, hkey'⟩ := Graph.key?_eq_some.mp hn
    exact hnew n a ha (hkey'.trans hkey.symm)
  · exact h.flows p n ((hold p n).mp hn)

/-- A context menu for a local that had none. -/
theorem Consed.menu {handler : String} {p : NodeId} {views : NodeSet} (h : f.Consed)
    (hnew : f.contextMenus[p]? = none) :
    Consed { f with
      graph := (f.graph.push (.object (.contextMenu handler p views))).connect f.graph.size p none
      contextMenus := f.contextMenus.insert p f.graph.size } := by
  have hunused : ∀ n, f.graph.key? n ≠ some (.contextMenu p) := by
    intro n hn
    rw [(h.menus p n).mpr hn] at hnew
    cases hnew
  have hkeys : ∀ q n, ((f.graph.push (.object (.contextMenu handler p views))).connect f.graph.size p none).key? n =
      some (.contextMenu q) ↔ (n = f.graph.size ∧ q = p) ∨ f.graph.key? n = some (.contextMenu q) := by
    intro q n
    show (f.graph.push _).key? n = _ ↔ _
    rw [Graph.key?_push]
    split
    · rename_i hn
      have hnone : ¬f.graph.key? n = some (.contextMenu q) := fun he =>
        absurd (Graph.key?_lt he) (Nat.not_lt.mpr (Nat.le_of_eq hn.symm))
      rw [or_iff_left hnone, NodeKind.key?, Option.some.injEq, Key.contextMenu.injEq]
      exact ⟨fun he => ⟨hn, he.symm⟩, fun he => he.2.symm⟩
    · rename_i hn
      rw [or_iff_right fun he => hn he.1]
  refine ⟨?_, fun q n => ?_, fun q n hn => ?_⟩
  · have hunique := h.unique.push (k := .object (.contextMenu handler p views)) fun n key hkey => by
      rw [← Option.some.inj hkey]
      exact hunused n
    exact fun n m key hn hm => hunique n m key hn hm
  · rw [hkeys, ← h.menus q n]
    show (f.contextMenus.insert p f.graph.size)[q]? = some n ↔ _
    by_cases hq : q = p
    · rw [hq, ExtTreeMap.getElem?_insert_self, hnew, Option.some.injEq]
      simp [eq_comm]
    · rw [Container.getElem?_insert_of_ne hq, or_iff_right fun he => hq he.2]
  · refine Graph.mem_flow_connect.mpr ?_
    rcases (hkeys q n).mp hn with ⟨rfl, rfl⟩ | hn
    · exact .inl rfl
    · exact .inr (h.flows q n hn)

theorem Consed.modify {g : Node → Node} (h : f.Consed) (hg : ∀ a : Node, (g a).kind.key? = a.kind.key?) :
    Consed { f with graph := f.graph.modify n g } :=
  h.of_keys (fun _ => Graph.key?_modify hg) rfl fun _ ha => ha

theorem Consed.push (h : f.Consed) (hk : k.key? = none) : Consed { f with graph := f.graph.push k } :=
  h.of_keys (fun _ => Graph.key?_push_of_none hk) rfl fun _ ha => ha

/-! ## What keeps it -/

theorem Change.consed (h : Change U f f') (hf : f.Consed) : f'.Consed := by
  cases h with
  | log | handlers => exact hf.of_keys (fun _ => rfl) rfl fun _ ha => ha
  | node _ hk hnew => exact hf.node hk hnew
  | flow => exact hf.of_keys (fun _ => rfl) rfl fun _ ha => Graph.mem_flow_connect.mpr (.inr ha)
  | menu _ _ hnew => exact hf.menu hnew
  | shown => exact hf.modify fun a => a.showOn_grows.kind.alike.key?

theorem Edits.consed (h : Edits U f f') (hf : f.Consed) : f'.Consed := by
  induction h with
  | refl => exact hf
  | tail _ h ih => exact h.consed ih

theorem Addition.consed (h : Addition c f f') (hf : f.Consed) : f'.Consed := by
  cases h with
  | edit h => exact h.consed hf
  | object _ _ hk => exact hf.push hk
  | op | registration =>
    exact hf.of_keys (fun _ => Graph.key?_pushOp) rfl fun _ ha => Graph.mem_flow_pushOp.mpr (.inl ha)
  | modify hg => exact hf.modify fun a => (hg a).key?
  | dialog | deferred => exact hf.of_keys (fun _ => rfl) rfl fun _ ha => ha
  | entry h => exact hf.of_keys (fun _ => by rw [h.graph]) h.contextMenus fun _ ha => by rw [h.graph]; exact ha

theorem Additions.consed (h : Additions c f f') (hf : f.Consed) : f'.Consed := by
  induction h with
  | refl => exact hf
  | tail _ h ih => exact h.consed ih

end Flowgraph

namespace Solver

variable {s t : Solver} {c : Context} {f : Flowgraph} {p : Phase}

open Flowgraph

theorem consed_nest {child parent : NodeId} {g : Graph} {added : Bool} (hs : s.flowgraph.Consed)
    (h : s.graph.nest child parent = .ok (g, added)) : (s.setGraph g).flowgraph.Consed :=
  hs.of_keys (fun _ => Graph.key?_of_nodes (Graph.nodes_nest h)) rfl fun _ ha => by
    rw [setGraph, Graph.flow_nest h]
    exact ha

theorem consed_of_inflates (hs : s.flowgraph.Consed) (h : ReflTransGen (Inflates c) s t) : t.flowgraph.Consed := by
  induction h with
  | refl => exact hs
  | tail _ h ih =>
    cases h with
    | note => exact ih
    | nest _ _ h => exact consed_nest ih h
    | @widget object f₁ f₂ id texts drawables origin pending log hobj h₁ hfresh h₂ =>
      have hkey : (NodeKind.object object).key? = none := by
        cases object <;> first | rfl | cases hobj
      exact h₂.consed ((h₁.consed (ih.push hkey)).modify fun _ => rfl)

theorem Step.consed (h : Step c p s t) (hs : s.flowgraph.Consed) : t.flowgraph.Consed := by
  cases h with
  | note | settle | id | candidate | downstream | seed | propagate | find | root => exact hs
  | nest _ _ _ _ h => exact consed_nest hs h
  | bindId | texts | drawables => exact hs.modify fun _ => rfl
  | dispatch _ _ _ _ h => exact h.consed (hs.of_keys (fun _ => rfl) rfl fun _ ha => ha)
  | layout _ _ hin =>
    rw [finish_eq]
    exact (consed_of_inflates hs hin).of_keys (fun _ => rfl) rfl fun _ ha => ha
  | menu _ _ hin => exact consed_of_inflates (s := s.cache _ none) (hs.of_keys (fun _ => rfl) rfl fun _ ha => ha) hin
  | reuse =>
    rw [flowgraph_deliver]
    exact hs

end Solver

/-! ## Look-ups -/

namespace Flowgraph

variable {f : Flowgraph} {n : NodeId}

/-- **Nodes with a key are there once**, and the look-up of the key finds them. A context menu flows into its local. -/
structure HashConsed (f : Flowgraph) : Prop where
  once : ∀ n m key, f.graph.key? n = some key → f.graph.key? m = some key → n = m
  vars : ∀ l n, f.graph.pointer? n = some (.var l) ↔ f.var? l = some n
  fields : ∀ d n, f.graph.pointer? n = some (.field d) ↔ f.graph.find? (· = .pointer (.field d)) = some n
  ids : ∀ space value n, (∃ i, f.graph.id? n = some i ∧ i.space = space ∧ i.value = value) ↔
    f.graph.find? (isIdOf space value) = some n
  strings : ∀ t n, f.graph.object? n = some (.string t) ↔ f.graph.find? (· = .object (.string t)) = some n
  activities : ∀ cls n, f.graph.object? n = some (.activity cls) ↔ f.activities[cls]? = some n
  contextMenus : ∀ p n, (∃ handler views, f.graph.object? n = some (.contextMenu handler p views)) ↔
    f.contextMenus[p]? = some n
  flows : ∀ n handler p views, f.graph.object? n = some (.contextMenu handler p views) → Arc.mk n p ∈ f.graph.flow

/-- The entry of an activity in the registry of activities. -/
theorem activity_entry {m : NodeId} {cls : String} : (match f.graph.object? n with
    | some (.activity cls) => some (cls, n)
    | _ => none) = some (cls, m) ↔ n = m ∧ f.graph.object? n = some (.activity cls) := by
  split
  · rename_i cls' ho
    rw [ho]
    simp [and_comm]
  · rename_i hne
    exact ⟨nofun, fun h => absurd h.2 (hne cls)⟩

theorem Consed.activities (h : f.Consed) {cls : String} :
    f.graph.object? n = some (.activity cls) ↔ f.activities[cls]? = some n := by
  constructor
  · intro ho
    rw [Flowgraph.activities]
    refine ExtTreeMap.getElem?_ofList_of_mem ReflCmp.compare_self ?_
      (List.mem_filterMap.mpr ⟨n, Graph.mem_ids.mpr (Graph.object?_lt ho), activity_entry.mpr ⟨rfl, ho⟩⟩)
    -- two entries of one class are of one node
    refine List.pairwise_filterMap.mpr (List.nodup_range.imp fun hne x hx y hy he => ?_)
    obtain ⟨rfl, hx⟩ := activity_entry.mp hx
    obtain ⟨rfl, hy⟩ := activity_entry.mp hy
    rw [LawfulEqCmp.eq_of_compare he] at hx
    exact hne (h.unique _ _ _ (Graph.key?_eq_activity.mpr hx) (Graph.key?_eq_activity.mpr hy))
  · intro hn
    have hmem := Container.mem_of_mem_toList_ofList (ExtTreeMap.mem_toList_iff_getElem?_eq_some.mpr hn)
    obtain ⟨m, -, hm⟩ := List.mem_filterMap.mp hmem
    obtain ⟨rfl, ho⟩ := activity_entry.mp hm
    exact ho

theorem Consed.hashConsed (h : f.Consed) : f.HashConsed where
  once := h.unique
  vars l n := by
    rw [← Graph.key?_eq_pointer]
    refine (h.unique.find? fun k => ?_).symm
    rw [decide_eq_true_iff, NodeKind.key?_eq_pointer]
  fields d n := by
    rw [← Graph.key?_eq_pointer]
    refine (h.unique.find? fun k => ?_).symm
    rw [decide_eq_true_iff, NodeKind.key?_eq_pointer]
  ids space value n := by
    rw [← Graph.key?_eq_id]
    refine (h.unique.find? fun k => ?_).symm
    rw [NodeKind.key?_eq_id]
    cases k <;> simp [isIdOf]
  strings t n := by
    rw [← Graph.key?_eq_string]
    refine (h.unique.find? fun k => ?_).symm
    rw [decide_eq_true_iff, NodeKind.key?_eq_string]
  activities cls n := h.activities
  contextMenus p n := by rw [← Graph.key?_eq_contextMenu, h.menus p n]
  flows n handler p views hn := h.flows p n (Graph.key?_eq_contextMenu.mpr ⟨handler, views, hn⟩)

end Flowgraph

/-- The activity shows a pane inside a pane, and panes fill their context menus themselves. -/
def Example.withPanes : Context :=
  let pane : Local := ⟨"pane", .ref "app.Pane"⟩
  let menu : Local := ⟨"menu", .ref "android.view.ContextMenu"⟩
  let onCreate := methodOf "onCreate" [.ref "android.os.Bundle"] ⟨.void, 0⟩ [
    .assign (.var this) .this,
    .call (callOn this "setContentView" [.int] ⟨.void, 0⟩ [.int 1])]
  let onCreateContextMenu := methodOf "onCreateContextMenu" [menu.ty] ⟨.void, 0⟩ [
    .assign (.var pane) .this,
    .assign (.var menu) (.parameter 0)]
  let app := application [onCreate] {
    layouts := byId [(1, templateOf (some "app.Pane") none [templateOf (some "app.Pane") none []])]
    layoutIds := byId [(1, "main")] }
  { app with project.program.classes := app.project.program.classes.insertMany [
      ("android.view.ContextMenu", classOf "android.view.ContextMenu" (some "android.view.Menu") true false []),
      ("app.Pane", classOf "app.Pane" (some "android.view.View") false true
        [{ onCreateContextMenu with owner := "app.Pane" }])] }

namespace Solver

open Flowgraph

variable {c : Context}

theorem Reached.consed {f : Flowgraph} {s : Solver} (hf : Available c f) (hs : Reached c f s) : s.flowgraph.Consed :=
  hs.keeps (construct_additions.consed consed_empty) (fun _ h => h.consed) hf

end Solver

end WidgetFlow
