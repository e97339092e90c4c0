import WidgetFlow.Proofs.Capacity

/-!
# Attributes of nodes

A node can have an id, texts and drawables. What was made for a part of a template has those that the template names
(`Graph.Shows`). A template names ids and texts, and each of them has one node, which is found by its key
(`Graph.IsNodeOf`). This node stays the same when the graph grows, so what is shown is shown until the attributes of the
node itself change (`Shows.mono`). Texts and drawables are alike in most respects (`Facet`).
-/

namespace WidgetFlow

open Std

/-- What a node can have besides its kind. -/
structure Attributes where
  id : Option NodeId := none
  texts : NodeSet := ∅
  drawables : NodeSet := ∅

def Node.attributes (a : Node) : Attributes := ⟨a.id, a.texts, a.drawables⟩

/-- A part of a template: what is made for it, and the template that has its attributes. -/
structure Template.Part where
  object : Obj
  template : Template

namespace Graph

variable {g g' : Graph} {r : Resources} {n m : NodeId} {k : NodeKind} {p : Template.Part}

/-- The attributes of a node. What is no node has none. -/
def attributes (g : Graph) (n : NodeId) : Attributes := ((g.node? n).map Node.attributes).getD {}

theorem attributes_of_nodes (h : g'.nodes = g.nodes) : g'.attributes n = g.attributes n := by
  rw [attributes, node?, h]
  rfl

theorem attributes_of_ge (h : g.size ≤ n) : g.attributes n = {} := by
  rw [attributes, node?, Array.getElem?_eq_none h]
  rfl

/-- A new node has no attributes. -/
theorem attributes_push : (g.push k).attributes n = g.attributes n := by
  by_cases hn : n = g.size
  · rw [attributes_of_ge (Nat.le_of_eq hn.symm), attributes, node?_push, if_pos hn]
    rfl
  · rw [attributes, node?_push, if_neg hn]
    rfl

theorem attributes_modify_of_ne {f : Node → Node} (h : m ≠ n) : (g.modify m f).attributes n = g.attributes n := by
  rw [attributes, node?_modify, if_neg h]
  rfl

theorem attributes_modify {f : Node → Node} (hf : ∀ a, (f a).attributes = a.attributes) :
    (g.modify m f).attributes n = g.attributes n := by
  rw [attributes, attributes, node?_modify]
  split
  · cases g.node? n with
    | none => rfl
    | some a => exact hf a
  · rfl

/-! ## The node of an id or a text -/

/-- The node of an id or a text is the first with its key. -/
def IsNodeOf (g : Graph) (k : NodeKind) (m : NodeId) : Prop := g.find? (·.key? = k.key?) = some m

theorem IsNodeOf.lt (h : g.IsNodeOf k m) : m < g.size := (find?_eq_some.mp h).1.elim fun _ ha => node?_lt ha.1

theorem IsNodeOf.eq_iff {m' : NodeId} (h : g.IsNodeOf k m) : g.IsNodeOf k m' ↔ m' = m := by
  rw [IsNodeOf, h, Option.some.injEq, eq_comm]

theorem IsNodeOf.mono (h : g.IsNodeOf k m) (hg : g.Extends g') : g'.IsNodeOf k m :=
  hg.find? (fun k k' hk => by rw [hk.key?]) h

theorem isNodeOf_id {space : IdSpace} {value : Int} :
    g.IsNodeOf (r.idKind space value) m ↔ g.find? (Flowgraph.isIdOf space value) = some m := by
  have hp : Flowgraph.isIdOf space value = fun k => decide (k.key? = (r.idKind space value).key?) := by
    funext k
    rw [Bool.eq_iff_iff, decide_eq_true_eq]
    refine Iff.trans ?_ NodeKind.key?_eq_id.symm
    cases k with
    | id i => simp [Flowgraph.isIdOf]
    | object | pointer | op => simp [Flowgraph.isIdOf]
  rw [IsNodeOf, hp]

theorem isNodeOf_string {text : String} :
    g.IsNodeOf (.object (.string text)) m ↔ g.find? (· = .object (.string text)) = some m := by
  have hp : (fun k : NodeKind => decide (k = .object (.string text))) =
      fun k => decide (k.key? = (NodeKind.object (.string text)).key?) := by
    funext k
    rw [Bool.eq_iff_iff, decide_eq_true_eq, decide_eq_true_eq]
    exact NodeKind.key?_eq_string.symm
  rw [IsNodeOf, hp]

end Graph

namespace Template

variable {r : Resources} {t : Template}

theorem id_mem_attributeKinds {v : Int} (h : t.id = some v) : r.idKind (r.widgetSpace v) v ∈ t.attributeKinds r := by
  simp [attributeKinds, h]

theorem text_mem_attributeKinds {text : String} (h : t.text = some text) :
    .object (.string text) ∈ t.attributeKinds r := by
  simp [attributeKinds, h]

theorem drawable_mem_attributeKinds {v : Int} (h : v ∈ Solver.drawablesOf r t) :
    r.idKind .drawable v ∈ t.attributeKinds r :=
  List.mem_append_right _ (List.mem_map.mpr ⟨v, h, rfl⟩)

end Template

namespace Graph

variable {g g' : Graph} {r : Resources} {n m : NodeId} {p : Template.Part}

/-- The attributes are those of a template: the node of the id, the node of the text, and the nodes of the drawables that
are known. -/
structure Bears (g : Graph) (r : Resources) (t : Template) (a : Attributes) : Prop where
  id : Option.Rel g.IsNodeOf (t.id.map fun v => r.idKind (r.widgetSpace v) v) a.id
  texts : ∃ text, Option.Rel g.IsNodeOf (t.text.map fun s => .object (.string s)) text ∧ a.texts = .ofList text.toList
  drawables : ∃ ds, List.Forall₂ g.IsNodeOf ((Solver.drawablesOf r t).map (r.idKind .drawable)) ds ∧
    a.drawables = .ofList ds

/-- A node is what was asked for, and has the attributes of the template. -/
structure Shows (g : Graph) (r : Resources) (n : NodeId) (p : Template.Part) : Prop where
  object : g.object? n = some p.object
  bears : g.Bears r p.template (g.attributes n)

theorem relOption_mono {a : Option NodeKind} {b : Option NodeId} (hg : g.Extends g') (h : Option.Rel g.IsNodeOf a b) :
    Option.Rel g'.IsNodeOf a b := by
  cases h with
  | none => exact .none
  | some h => exact .some (h.mono hg)

theorem eq_some_of_rel {ko : Option NodeKind} {no : Option NodeId} (h : Option.Rel g.IsNodeOf ko no) :
    no = some m ↔ ∃ k, ko = some k ∧ g.IsNodeOf k m := by
  cases h with
  | none => simp
  | some h => simp [h.eq_iff, eq_comm]

theorem mem_of_forall₂ {ks : List NodeKind} {ns : List NodeId} (h : List.Forall₂ g.IsNodeOf ks ns) :
    m ∈ ns ↔ ∃ k ∈ ks, g.IsNodeOf k m := by
  induction h with
  | nil => simp
  | cons h _ ih => simp [h.eq_iff, ih]

namespace Bears

variable {t : Template} {a : Attributes} (h : g.Bears r t a)
include h

theorem id_eq_some : a.id = some m ↔ ∃ v, t.id = some v ∧ g.IsNodeOf (r.idKind (r.widgetSpace v) v) m := by
  rw [eq_some_of_rel h.id]
  simp

theorem mem_texts : m ∈ a.texts ↔ ∃ text, t.text = some text ∧ g.IsNodeOf (.object (.string text)) m := by
  obtain ⟨text, htext, ha⟩ := h.texts
  rw [ha, Container.mem_ofList, Option.mem_toList, eq_some_of_rel htext]
  simp

theorem mem_drawables : m ∈ a.drawables ↔ ∃ v ∈ Solver.drawablesOf r t, g.IsNodeOf (r.idKind .drawable v) m := by
  obtain ⟨ds, hds, ha⟩ := h.drawables
  rw [ha, Container.mem_ofList, mem_of_forall₂ hds]
  simp

/-- All attributes are nodes. -/
theorem lt (hm : a.id = some m ∨ m ∈ a.texts ∨ m ∈ a.drawables) : m < g.size := by
  rw [h.id_eq_some, h.mem_texts, h.mem_drawables] at hm
  rcases hm with ⟨_, _, hm⟩ | ⟨_, _, hm⟩ | ⟨_, _, hm⟩ <;> exact hm.lt

theorem mono (hg : g.Extends g') : g'.Bears r t a where
  id := relOption_mono hg h.id
  texts := h.texts.imp fun _ ht => ⟨relOption_mono hg ht.1, ht.2⟩
  drawables := h.drawables.imp fun _ hd => ⟨hd.1.imp fun _ _ hm => hm.mono hg, hd.2⟩

end Bears

/-- What a node shows does not depend on other nodes. -/
theorem Shows.mono (h : g.Shows r n p) (hg : g.Extends g') (ho : g'.object? n = g.object? n)
    (ha : g'.attributes n = g.attributes n) : g'.Shows r n p where
  object := ho.trans h.object
  bears := ha ▸ h.bears.mono hg

end Graph

/-! ## Texts and images -/

/-- The attributes with more than one value. -/
inductive Facet where
  | text | image

namespace Facet

variable {g g' : Graph} {r : Resources} {n m k : NodeId} {t : Template} {a : Attributes} {f : Facet}

def values : Facet → Attributes → NodeSet
  | text, a => a.texts
  | image, a => a.drawables

/-- The values that a template asks for. -/
def asked (r : Resources) (t : Template) : Facet → List NodeKind
  | text => t.text.toList.map fun s => .object (.string s)
  | image => (Solver.drawablesOf r t).map (r.idKind .drawable)

/-- The operations that add values. -/
def setter : Facet → OpKind
  | text => .setText
  | image => .setImage

/-- The nodes that such an operation takes as values. -/
def admits : Facet → NodeKind → Bool
  | text => Solver.isText
  | image => Solver.isDrawable

theorem not_mem_values_default : m ∉ f.values {} := by
  cases f <;> simp [values]

theorem mem_values_of_bears (h : g.Bears r t a) : m ∈ f.values a ↔ ∃ k ∈ f.asked r t, g.IsNodeOf k m := by
  cases f with
  | text => simp [values, asked, h.mem_texts]
  | image => simp [values, asked, h.mem_drawables]

theorem mem_values_iff : m ∈ f.values (g.attributes n) ↔ ∃ a, g.node? n = some a ∧ m ∈ f.values a.attributes := by
  unfold Graph.attributes
  cases g.node? n with
  | none => simp [not_mem_values_default]
  | some a => simp

/-- No value is lost when a graph grows. -/
theorem mem_values_of_grows (hg : g.Grows g') (h : m ∈ f.values (g.attributes n)) : m ∈ f.values (g'.attributes n) := by
  obtain ⟨a, ha, hm⟩ := mem_values_iff.mp h
  obtain ⟨b, hb, hab⟩ := hg.node n a ha
  refine mem_values_iff.mpr ⟨b, hb, ?_⟩
  cases f with
  | text => exact hab.texts m hm
  | image => exact hab.drawables m hm

/-- The values of a node after a change of one node. -/
theorem mem_values_modify {change : Node → Node} (h : m ∈ f.values ((g.modify k change).attributes n)) :
    m ∈ f.values (g.attributes n) ∨
      n = k ∧ ∃ a, g.node? n = some a ∧ m ∈ f.values (change a).attributes := by
  obtain ⟨b, hb, hm⟩ := mem_values_iff.mp h
  rw [Graph.node?_modify] at hb
  split at hb
  · rename_i hk
    obtain ⟨a, ha, rfl⟩ := Option.map_eq_some_iff.mp hb
    exact .inr ⟨hk.symm, a, ha, hm⟩
  · exact .inl (mem_values_iff.mpr ⟨b, hb, hm⟩)

end Facet

end WidgetFlow
