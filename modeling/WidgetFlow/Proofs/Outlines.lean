import WidgetFlow.Proofs.Containment

/-!
# Outlines show all ways down

The outline of a node has one entry for each way down from it (`Graph.WayDown`). A node with several parents is therefore
shown several times. The entries are in the order of the ways as lists of numbers: a way comes before those that go on
from it, and of two ways that part the one to the smaller child comes first.

A node on its own path would not be opened again, but there is none: what is above a node on its path is around it
(`Climbs.inside`), and nothing is inside itself (`Climbs.not_mem`). So every node that is shown is opened.

* `outlineLines_ways`: what is below one node of an outline, by induction on the outline;
* `Formed.outline_ways`: outlines, in every graph that can be made.
-/

namespace WidgetFlow.Graph

open Std Relation

variable {g : Graph} {n m c root : NodeId} {p q path : List NodeId}

/-! ## Ways down -/

/-- A way down from a node: the node alone, or the node and a way down from one of its children. -/
inductive WayDown (g : Graph) : NodeId → List NodeId → Prop
  | here (n : NodeId) : WayDown g n [n]
  | step {n c : NodeId} {p : List NodeId} : Arc.mk c n ∈ g.containment → WayDown g c p → WayDown g n (n :: p)

theorem WayDown.exists_cons (h : g.WayDown n p) : ∃ q, p = n :: q := by
  cases h with
  | here => exact ⟨[], rfl⟩
  | step => exact ⟨_, rfl⟩

theorem wayDown_iff : g.WayDown n p ↔ p = [n] ∨ ∃ c ∈ g.children n, ∃ q, g.WayDown c q ∧ n :: q = p := by
  constructor
  · intro h
    cases h with
    | here => exact .inl rfl
    | step hc hq => exact .inr ⟨_, mem_children.mpr hc, _, hq, rfl⟩
  · rintro (rfl | ⟨c, hc, q, hq, rfl⟩)
    · exact .here n
    · exact .step (mem_children.mp hc) hq

/-- The entry of a way down: two blanks for each step, its last node, and the id of this node. -/
def wayText (g : Graph) (p : List NodeId) : String :=
  let n := p.getLastD 0
  let id := match (g.node? n).bind (·.id) with
    | some i => " id=" ++ g.describe i
    | none => ""
  String.ofList (List.replicate (2 * (p.length - 1)) ' ') ++ g.describe n ++ id

theorem join_replicate_blanks (k : Nat) :
    String.join (List.replicate k "  ") = String.ofList (List.replicate (2 * k) ' ') := by
  induction k with
  | zero => rfl
  | succ k ih =>
    have hblanks : "  " = String.ofList (List.replicate 2 ' ') := rfl
    rw [List.replicate_succ, String.join_cons, ih, hblanks, ← String.ofList_append, List.replicate_append_replicate]
    congr 2
    omega

theorem wayText_concat : g.wayText (path.reverse ++ [n]) = g.outlineLine path.length n := by
  have hlast : (path.reverse ++ [n]).getLastD 0 = n := by simp
  have hlength : (path.reverse ++ [n]).length - 1 = path.length := by simp
  rw [wayText, outlineLine, join_replicate_blanks, hlast, hlength]
  cases (g.node? n).bind (·.id) <;> rfl

/-! ## What is opened -/

/-- The nodes that the outline of a root shows, with what is above them on their path: the root, and the children of
each node that is opened. -/
inductive Opens (g : Graph) (root : NodeId) : List NodeId → NodeId → Prop
  | root : Opens g root [] root
  | child {path : List NodeId} {n c : NodeId} : Opens g root path n → n < g.size → n ∉ path → c ∈ g.children n →
      Opens g root (n :: path) c

/-- A node and the nodes above it on a path, each the parent of the one before. -/
abbrev Climbs (g : Graph) (path : List NodeId) (n : NodeId) : Prop :=
  (n :: path).IsChain fun a b => Arc.mk a b ∈ g.containment

theorem Opens.climbs (h : g.Opens root path n) : g.Climbs path n := by
  induction h with
  | root => exact .singleton _
  | child _ _ _ hc ih => exact .cons_cons (mem_children.mp hc) ih

/-- What is above a node on its path is around it. -/
theorem Climbs.inside (h : g.Climbs path n) (hm : m ∈ path) : g.Inside n m := by
  induction path generalizing n with
  | nil => cases hm
  | cons a path ih =>
    rw [Climbs, List.isChain_cons_cons] at h
    rcases List.mem_cons.mp hm with rfl | hm
    · exact .single h.1
    · exact .head h.1 (ih h.2 hm)

theorem Climbs.not_mem (h : g.Climbs path n) (ha : g.Acyclic) : n ∉ path := fun hn => ha.not_inside (h.inside hn)

/-- Nothing is left out below a node that is on no path of its own. -/
theorem outlineLines_eq (hc : g.Closed) (hn : n ∉ path) :
    g.outlineLines path n = g.outlineLine path.length n :: (g.children n).flatMap (g.outlineLines (n :: path)) := by
  rw [outlineLines]
  by_cases hsize : n < g.size
  · rw [if_pos ⟨hsize, hn⟩]
  · have hnil : g.children n = [] := by
      refine List.eq_nil_iff_forall_not_mem.mpr fun c hchild => hsize ?_
      exact (hc.containment _ (mem_children.mp hchild)).2
    rw [if_neg fun h => hsize h.1, hnil, List.flatMap_nil]

/-! ## The entries -/

/-- The ways down from a node in their order. -/
structure Ways (g : Graph) (n : NodeId) (ps : List (List NodeId)) : Prop where
  sorted : ps.Pairwise (· < ·)
  mem : ∀ p, p ∈ ps ↔ g.WayDown n p

/-- The ways down from a node are the node itself and those from its children, one child after the other. -/
theorem Ways.of_children {ways : NodeId → List (List NodeId)} (h : ∀ c ∈ g.children n, g.Ways c (ways c)) :
    g.Ways n ([n] :: (g.children n).flatMap fun c => (ways c).map (n :: ·)) := by
  constructor
  · refine List.pairwise_cons.mpr ⟨fun p hp => ?_, List.pairwise_flatMap.mpr ⟨fun c hc => ?_, ?_⟩⟩
    · obtain ⟨c, hc, hp⟩ := List.mem_flatMap.mp hp
      obtain ⟨q, hq, rfl⟩ := List.mem_map.mp hp
      obtain ⟨q, rfl⟩ := (((h c hc).mem _).mp hq).exists_cons
      exact List.cons_lt_cons_iff.mpr (.inr ⟨rfl, List.nil_lt_cons _ _⟩)
    · exact List.pairwise_map.mpr ((h c hc).sorted.imp fun hpq => List.cons_lt_cons_iff.mpr (.inr ⟨rfl, hpq⟩))
    · refine pairwise_children.imp_of_mem fun {c d} hc hd hlt p hp q hq => ?_
      obtain ⟨p', hp', rfl⟩ := List.mem_map.mp hp
      obtain ⟨q', hq', rfl⟩ := List.mem_map.mp hq
      obtain ⟨_, rfl⟩ := (((h c hc).mem _).mp hp').exists_cons
      obtain ⟨_, rfl⟩ := (((h d hd).mem _).mp hq').exists_cons
      exact List.cons_lt_cons_iff.mpr (.inr ⟨rfl, List.cons_lt_cons_iff.mpr (.inl hlt)⟩)
  · intro p
    rw [wayDown_iff, List.mem_cons, List.mem_flatMap]
    simp only [List.mem_map]
    refine or_congr_right (exists_congr fun c => and_congr_right fun hc => exists_congr fun q => ?_)
    rw [(h c hc).mem]

/-- **Below one node.** The lines of a node in an outline are the entries of the ways down from it, each behind the way
to the node. -/
theorem outlineLines_ways (hc : g.Closed) (ha : g.Acyclic) (h : g.Climbs path n) :
    ∃ ps, g.Ways n ps ∧ g.outlineLines path n = ps.map fun p => g.wayText (path.reverse ++ p) := by
  induction path, n using outlineLines.induct g with
  | case1 path n ih =>
    have hn := h.not_mem ha
    have hbelow : ∀ c, ∃ ps, c ∈ g.children n →
        g.Ways c ps ∧ g.outlineLines (n :: path) c = ps.map fun p => g.wayText ((n :: path).reverse ++ p) := by
      intro c
      by_cases hchild : c ∈ g.children n
      · have hcn := mem_children.mp hchild
        obtain ⟨ps, hps⟩ := ih ⟨(hc.containment _ hcn).2, hn⟩ c (.cons_cons hcn h)
        exact ⟨ps, fun _ => hps⟩
      · exact ⟨[], fun h => absurd h hchild⟩
    choose ways hways using hbelow
    refine ⟨_, .of_children fun c hchild => (hways c hchild).1, ?_⟩
    rw [outlineLines_eq hc hn, List.map_cons, wayText_concat, List.map_flatMap]
    refine congrArg _ (List.flatMap_congr fun c hchild => ?_)
    rw [(hways c hchild).2, List.map_map]
    refine List.map_congr_left fun p _ => ?_
    rw [Function.comp_apply, List.reverse_cons, List.append_assoc, List.singleton_append]

/-! ## All graphs -/

/-- The graphs that calls on existing nodes make, with any changes of single nodes in between. -/
inductive Formed : Graph → Prop
  | empty : Formed {}
  | call {g : Graph} {call : Call} : Formed g → (∀ n ∈ call.nodes, n < g.size) → Formed (g.apply call)
  | modify {g : Graph} (n : NodeId) (change : Node → Node) : Formed g → Formed (g.modify n change)

theorem Formed.closed (h : Formed g) : g.Closed := by
  induction h with
  | empty => exact closed_empty
  | call _ hn ih => exact ih.apply hn
  | modify n change _ ih => exact ih.of_flow (Nat.le_of_eq size_modify.symm) rfl fun _ ha => .inl ha

theorem Formed.acyclic (h : Formed g) : g.Acyclic := by
  induction h with
  | empty => exact acyclic_empty
  | call hg _ ih => exact ih.apply hg.closed
  | modify n change _ ih => exact ih.of_containment rfl

/-- **Outlines show all ways down.** In every graph that can be made, the entries of the outline of a node are those of
the ways down from it, one for each, in the order of the ways. Every node that is shown is on no path of its own, and
everything inside it is shown below it. -/
theorem Formed.outline_ways (h : Formed g) (root : NodeId) :
    (∃ ps : List (List NodeId), ps.Pairwise (· < ·) ∧ (∀ p, p ∈ ps ↔ g.WayDown root p) ∧
      g.outlineLines [] root = ps.map g.wayText ∧ g.outline root = "\n".intercalate (ps.map g.wayText)) ∧
    ∀ path n, g.Opens root path n → n ∉ path ∧
      g.outlineLines path n = g.outlineLine path.length n :: (g.children n).flatMap (g.outlineLines (n :: path)) := by
  have hc := h.closed
  have ha := h.acyclic
  constructor
  · obtain ⟨ps, hways, hlines⟩ := outlineLines_ways hc ha (.singleton root)
    exact ⟨ps, hways.sorted, hways.mem, hlines, congrArg _ hlines⟩
  · intro path n hopens
    have hn := hopens.climbs.not_mem ha
    exact ⟨hn, outlineLines_eq hc hn⟩

namespace Example

/-- A text that is in two lists of one box, and has an id. -/
def shared : Graph :=
  [.push (.object (.inflated "Box")), .push (.object (.inflated "List")), .push (.object (.inflated "List")),
    .push (.object (.inflated "Text")), .push (.id ⟨.widget, 7, some "name"⟩), .bindId 3 (some 4),
    .nest 3 2, .nest 3 1, .nest 2 0, .nest 1 0].foldl Graph.apply {}

theorem shared_formed : Formed shared := by
  unfold shared
  simp only [List.foldl_cons, List.foldl_nil]
  repeat refine .call ?_ (by decide +kernel)
  exact .empty

end Example

/-- The text is shown twice, once on each way to it. -/
theorem outline_shared : Formed Example.shared ∧
    Example.shared.outline 0 = "\n".intercalate ["INFL[Box]#0", "  INFL[List]#1", "    INFL[Text]#3 id=WID[name|7]#4",
      "  INFL[List]#2", "    INFL[Text]#3 id=WID[name|7]#4"] ∧
    ∃ ps : List (List NodeId), (∀ p, p ∈ ps ↔ Example.shared.WayDown 0 p) ∧ [0, 1, 3] ∈ ps ∧ [0, 2, 3] ∈ ps ∧
      Example.shared.outlineLines [] 0 = ps.map Example.shared.wayText := by
  obtain ⟨⟨ps, -, hmem, hlines, -⟩, -⟩ := Example.shared_formed.outline_ways 0
  refine ⟨Example.shared_formed, by decide +kernel, ps, hmem, (hmem _).mpr ?_, (hmem _).mpr ?_, hlines⟩
  · exact .step (by decide +kernel) (.step (by decide +kernel) (.here 3))
  · exact .step (by decide +kernel) (.step (by decide +kernel) (.here 3))

end WidgetFlow.Graph
