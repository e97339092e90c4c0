import Mathlib.Data.ENat.Lattice
import WidgetFlow.Proofs.Edits

/-!
# Routes of flow and the order of a search

A search lists what it finds by distance. `Search.LeadsIn` counts the steps of `Search.Leads`, and `Search.Level` is the
state of a search between two layers: what was seen is what the start leads to in at most `d` steps. From it follow that
a search lists nothing twice (`nodup_bfs`) and nothing before what is nearer (`pairwise_bfs`).

In a graph, the steps of the two searches along flow are a `Graph.Route`: a path of flow that passes through no
operation. Both searches find the ends of routes, but the search back from an operation misses the operations.

* `mem_forward_iff_route`, `mem_backward_iff_route`: what the two searches find;
* `mem_searches_iff`: the two together;
* `pairwise_backwardOrder`: the search back is in the order of `Graph.distance`;
* `backwardOrder_breadthFirst`: what it lists, and in which order.
-/

namespace WidgetFlow

open Std

/-! ## Counting the steps of a search -/

namespace Search

variable {α : Type} {next : α → List α} {inner : List α} {start x y : α} {d k : Nat}

/-- A number of steps of `next` go from `start` to an element, through elements of `inner` only. -/
inductive LeadsIn (next : α → List α) (inner : List α) (start : α) : Nat → α → Prop
  | refl : LeadsIn next inner start 0 start
  | step {k : Nat} {a b : α} : LeadsIn next inner start k a → a = start ∨ a ∈ inner → b ∈ next a →
      LeadsIn next inner start (k + 1) b

theorem LeadsIn.leads (h : LeadsIn next inner start k x) : Leads next inner start x := by
  induction h with
  | refl => exact .refl
  | step _ ha hb ih => exact .step ih ha hb

theorem Leads.exists_leadsIn (h : Leads next inner start x) : ∃ k, LeadsIn next inner start k x := by
  induction h with
  | refl => exact ⟨0, .refl⟩
  | step _ ha hb ih =>
    obtain ⟨k, hk⟩ := ih
    exact ⟨k + 1, .step hk ha hb⟩

/-- Every way to `y` is at least as long as some way to `x`. -/
def NotFarther (next : α → List α) (inner : List α) (start x y : α) : Prop :=
  ∀ k, LeadsIn next inner start k y → ∃ j ≤ k, LeadsIn next inner start j x

section Order

variable [Ord α] [TransOrd α]

/-- The state of a search after `d` layers. -/
structure Level (next : α → List α) (inner : List α) (start : α) (d : Nat) (seen : ExtTreeSet α) (layer : List α) :
    Prop where
  within : ∀ x, x ∈ seen ↔ ∃ k ≤ d, LeadsIn next inner start k x
  reached : ∀ x ∈ layer, LeadsIn next inner start d x ∧ (x = start ∨ x ∈ inner)
  pending : ∀ x, LeadsIn next inner start d x → x = start ∨ x ∈ inner →
    x ∈ layer ∨ ∃ k < d, LeadsIn next inner start k x

variable [LawfulEqOrd α]

theorem nodup_discover : ∀ {as : List α} {seen : ExtTreeSet α}, (discover seen as).1.Nodup
  | [], seen => List.nodup_nil
  | a :: as, seen => by
    unfold discover
    split
    · exact nodup_discover
    · refine List.nodup_cons.mpr ⟨fun ha => (mem_discover_fst.mp ha).2 ?_, nodup_discover⟩
      exact ExtTreeSet.mem_insert_self

variable {seen : ExtTreeSet α} {layer : List α}

/-- What is discovered in a layer is one step farther than the layer. -/
theorem Level.found (h : Level next inner start d seen layer) (hx : x ∈ (discover seen (leads next layer)).1) :
    LeadsIn next inner start (d + 1) x ∧ ∀ k, LeadsIn next inner start k x → d < k := by
  obtain ⟨hlead, hnew⟩ := mem_discover_fst.mp hx
  obtain ⟨a, ha, hax⟩ := List.mem_flatMap.mp hlead
  obtain ⟨hd, hi⟩ := h.reached a ha
  refine ⟨.step hd hi hax, fun k hk => ?_⟩
  by_contra hle
  exact hnew ((h.within x).mpr ⟨k, Nat.not_lt.mp hle, hk⟩)

theorem level_start : Level next inner start 0 {start} [start] where
  within x := by
    rw [mem_singleton]
    constructor
    · rintro rfl
      exact ⟨0, Nat.le_refl 0, .refl⟩
    · rintro ⟨k, hk, hx⟩
      obtain rfl := Nat.le_zero.mp hk
      cases hx
      rfl
  reached x hx := by
    rw [List.mem_singleton.mp hx]
    exact ⟨.refl, .inl rfl⟩
  pending x hx _ := by
    cases hx
    exact .inl List.mem_cons_self

variable [DecidableEq α]

theorem Level.succ (h : Level next inner start d seen layer) :
    Level next inner start (d + 1) (discover seen (leads next layer)).2
      ((discover seen (leads next layer)).1.filter (· ∈ inner)) where
  within x := by
    rw [mem_discover_snd, h.within]
    constructor
    · rintro (⟨k, hk, hx⟩ | hx)
      · exact ⟨k, by omega, hx⟩
      · obtain ⟨a, ha, hax⟩ := List.mem_flatMap.mp hx
        obtain ⟨hd, hi⟩ := h.reached a ha
        exact ⟨d + 1, Nat.le_refl _, .step hd hi hax⟩
    · rintro ⟨k, hk, hx⟩
      by_cases hkd : k ≤ d
      · exact .inl ⟨k, hkd, hx⟩
      · obtain rfl : k = d + 1 := by omega
        cases hx with
        | @step _ a _ ha hi hb =>
          -- The last step is from the layer, or from something nearer whose steps were all seen.
          rcases h.pending a ha hi with hl | ⟨j, hj, hja⟩
          · exact .inr (List.mem_flatMap.mpr ⟨a, hl, hb⟩)
          · exact .inl ⟨j + 1, hj, .step hja hi hb⟩
  reached x hx := by
    obtain ⟨hf, hi⟩ := List.mem_filter.mp hx
    exact ⟨(h.found hf).1, .inr (of_decide_eq_true hi)⟩
  pending x hx hi := by
    by_cases hs : x ∈ seen
    · obtain ⟨k, hk, hkx⟩ := (h.within x).mp hs
      exact .inr ⟨k, by omega, hkx⟩
    · refine .inl (List.mem_filter.mpr ⟨?_, ?_⟩)
      · cases hx with
        | @step _ a _ ha hia hb =>
          refine mem_discover_fst.mpr ⟨?_, hs⟩
          rcases h.pending a ha hia with hl | ⟨j, hj, hja⟩
          · exact List.mem_flatMap.mpr ⟨a, hl, hb⟩
          · exact absurd ((h.within x).mpr ⟨j + 1, hj, .step hja hia hb⟩) hs
      · rcases hi with rfl | hi
        · exact absurd ((h.within x).mpr ⟨0, Nat.zero_le d, .refl⟩) hs
        · exact decide_eq_true hi

/-- What a search finds beyond a layer, it finds once and by distance. -/
theorem Level.spread_order (h : Level next inner start d seen layer) :
    (∀ x ∈ spread next inner seen layer, ∀ k, LeadsIn next inner start k x → d < k) ∧
      (spread next inner seen layer).Nodup ∧
      (spread next inner seen layer).Pairwise (NotFarther next inner start) := by
  fun_induction spread next inner seen layer generalizing d with
  | case1 seen layer found deeper =>
    refine ⟨fun x hx => (h.found hx).2, nodup_discover, List.Pairwise.imp_of_mem ?_ nodup_discover⟩
    intro x y hx hy _ k hk
    exact ⟨d + 1, (h.found hy).2 k hk, (h.found hx).1⟩
  | case2 seen layer found deeper =>
    rename_i ih
    obtain ⟨hfar, hnodup, hpair⟩ := ih h.succ
    have hfound : found.1.Pairwise (NotFarther next inner start) := by
      refine List.Pairwise.imp_of_mem ?_ (nodup_discover : found.1.Nodup)
      intro x y hx hy _ k hk
      exact ⟨d + 1, (h.found hy).2 k hk, (h.found hx).1⟩
    refine ⟨fun x hx k hk => ?_, List.nodup_append.mpr ⟨nodup_discover, hnodup, ?_⟩,
      List.pairwise_append.mpr ⟨hfound, hpair, ?_⟩⟩
    · rcases List.mem_append.mp hx with hx | hx
      · exact (h.found hx).2 k hk
      · exact Nat.lt_of_succ_lt (hfar x hx k hk)
    · rintro x hx y hy rfl
      exact Nat.lt_irrefl _ (hfar x hy (d + 1) (h.found hx).1)
    · intro x hx y hy k hk
      exact ⟨d + 1, Nat.le_of_lt (hfar y hy k hk), (h.found hx).1⟩

/-- A search lists nothing twice. -/
theorem nodup_bfs : (bfs next inner start).Nodup := by
  have hlevel : Level next inner start 0 {start} [start] := level_start
  obtain ⟨hfar, hnodup, -⟩ := hlevel.spread_order
  exact List.nodup_cons.mpr ⟨fun h => Nat.lt_irrefl 0 (hfar start h 0 .refl), hnodup⟩

/-- **A search lists what it finds by distance.** -/
theorem pairwise_bfs : (bfs next inner start).Pairwise (NotFarther next inner start) := by
  have hlevel : Level next inner start 0 {start} [start] := level_start
  obtain ⟨-, -, hpair⟩ := hlevel.spread_order
  exact List.pairwise_cons.mpr ⟨fun y _ k _ => ⟨0, Nat.zero_le k, .refl⟩, hpair⟩

end Order

end Search

/-! ## Routes -/

namespace Graph

variable {g : Graph} {a b m : NodeId} {via : List NodeId} {k : Nat}

/-- Edges of flow lead from a node to another, over the nodes of a list. -/
inductive Path (g : Graph) : NodeId → List NodeId → NodeId → Prop
  | edge {a b : NodeId} : Arc.mk a b ∈ g.flow → Path g a [] b
  | cons {a m b : NodeId} {via : List NodeId} : Arc.mk a m ∈ g.flow → Path g m via b → Path g a (m :: via) b

theorem Path.concat (h : g.Path a via m) (hb : Arc.mk m b ∈ g.flow) : g.Path a (via ++ [m]) b := by
  induction h with
  | edge ha => exact .cons ha (.edge hb)
  | cons ha _ ih => exact .cons ha (ih hb)

/-- A path that passes through no operation. Its ends can be operations. -/
structure Route (g : Graph) (a : NodeId) (via : List NodeId) (b : NodeId) : Prop where
  path : g.Path a via b
  inner : ∀ n ∈ via, g.IsValue n

namespace Route

theorem edge (h : Arc.mk a b ∈ g.flow) : g.Route a [] b := ⟨.edge h, by simp⟩

theorem concat (h : g.Route a via m) (hm : g.IsValue m) (hb : Arc.mk m b ∈ g.flow) : g.Route a (via ++ [m]) b := by
  refine ⟨h.path.concat hb, fun n hn => ?_⟩
  rcases List.mem_append.mp hn with hn | hn
  · exact h.inner n hn
  · exact List.mem_singleton.mp hn ▸ hm

theorem cons (ha : Arc.mk a m ∈ g.flow) (hm : g.IsValue m) (h : g.Route m via b) : g.Route a (m :: via) b := by
  refine ⟨.cons ha h.path, fun n hn => ?_⟩
  rcases List.mem_cons.mp hn with rfl | hn
  · exact hm
  · exact h.inner n hn

/-- A route is followed from its first node. -/
theorem leads (h : g.Route a via b) : Search.Leads g.successors g.nonOps a b := by
  obtain ⟨hpath, hinner⟩ := h
  induction hpath with
  | edge h => exact .step .refl (.inl rfl) (mem_successors.mpr h)
  | cons h _ ih =>
    have hstep : Search.Leads g.successors g.nonOps _ _ := .step .refl (.inl rfl) (mem_successors.mpr h)
    exact hstep.trans (.inr (mem_nonOps.mpr (hinner _ List.mem_cons_self)))
      (ih fun n hn => hinner n (List.mem_cons_of_mem _ hn))

/-- A route is followed back from its last node, unless it goes from an operation to an operation. -/
theorem leadsIn_behind (h : g.Route a via b) (hop : g.isOp b = true → g.isOp a = false) :
    Search.LeadsIn (g.behind b) g.nonOps b (via.length + 1) a := by
  obtain ⟨hpath, hinner⟩ := h
  induction hpath with
  | edge h => exact .step .refl (.inl rfl) (mem_behind.mpr ⟨h, hop⟩)
  | @cons a m b via h _ ih =>
    have hm : g.IsValue m := hinner m List.mem_cons_self
    have hback := ih (fun _ => by rw [isOp, hm.2]; rfl) fun n hn => hinner n (List.mem_cons_of_mem _ hn)
    exact .step hback (.inr (mem_nonOps.mpr hm)) (mem_behind.mpr ⟨h, hop⟩)

end Route

/-- What the search back finds in a number of steps has a route that is no longer. -/
theorem route_of_leadsIn_behind (h : Search.LeadsIn (g.behind b) g.nonOps b k a) :
    a = b ∨ (g.isOp b = true → g.isOp a = false) ∧ ∃ via, via.length < k ∧ g.Route a via b := by
  induction h with
  | refl => exact .inl rfl
  | @step k m a _ hm ha ih =>
    obtain ⟨hflow, hop⟩ := mem_behind.mp ha
    refine .inr ⟨hop, ?_⟩
    rcases hm with rfl | hm
    · exact ⟨[], Nat.succ_pos k, .edge hflow⟩
    · rcases ih with rfl | ⟨-, via, hlen, hroute⟩
      · exact ⟨[], Nat.succ_pos k, .edge hflow⟩
      · exact ⟨m :: via, Nat.succ_lt_succ hlen, .cons hflow (mem_nonOps.mp hm) hroute⟩

/-! ## What the searches find -/

/-- A node reaches itself and the ends of its routes. -/
theorem mem_forward_iff_route : b ∈ g.forward a ↔ a = b ∨ ∃ via, g.Route a via b := by
  rw [mem_forward]
  constructor
  · intro h
    induction h with
    | refl => exact .inl rfl
    | @step m b _ hm hb ih =>
      have hflow := mem_successors.mp hb
      refine .inr ?_
      rcases hm with rfl | hm
      · exact ⟨[], .edge hflow⟩
      · rcases ih with rfl | ⟨via, hroute⟩
        · exact ⟨[], .edge hflow⟩
        · exact ⟨via ++ [m], hroute.concat (mem_nonOps.mp hm) hflow⟩
  · rintro (rfl | ⟨via, hroute⟩)
    · exact .refl
    · exact hroute.leads

/-- The search back finds the starts of routes, but from an operation it finds no other operation. -/
theorem mem_backward_iff_route :
    a ∈ g.backward b ↔ a = b ∨ (g.isOp b = true → g.isOp a = false) ∧ ∃ via, g.Route a via b := by
  rw [backward, Container.mem_ofList, mem_backwardOrder]
  constructor
  · intro h
    obtain ⟨k, hk⟩ := h.exists_leadsIn
    refine (route_of_leadsIn_behind hk).imp_right fun h => ?_
    obtain ⟨hop, via, -, hroute⟩ := h
    exact ⟨hop, via, hroute⟩
  · rintro (rfl | ⟨hop, via, hroute⟩)
    · exact .refl
    · exact (hroute.leadsIn_behind hop).leads

/-- The search back from a value finds all nodes that reach it. -/
theorem mem_backward_of_mem_forward (hb : g.isOp b = false) (h : b ∈ g.forward a) : a ∈ g.backward b := by
  refine mem_backward_iff_route.mpr ((mem_forward_iff_route.mp h).imp_right fun hroute => ⟨fun hop => ?_, hroute⟩)
  rw [hb] at hop
  cases hop

/-- **The two searches along flow.** A node reaches itself and every node to which a path of flow goes that passes
through no operation. The search back finds the nodes that reach its start, but for the other operations if the start is
one itself. -/
theorem mem_searches_iff (g : Graph) (a b : NodeId) :
    (b ∈ g.forward a ↔ a = b ∨ ∃ via, g.Path a via b ∧ ∀ n ∈ via, g.IsValue n) ∧
      (a ∈ g.backward b ↔ b ∈ g.forward a ∧ (a = b ∨ g.isOp b = false ∨ g.isOp a = false)) := by
  have hforward : b ∈ g.forward a ↔ a = b ∨ ∃ via, g.Path a via b ∧ ∀ n ∈ via, g.IsValue n := by
    rw [mem_forward_iff_route]
    refine or_congr_right (exists_congr fun via => ?_)
    exact ⟨fun h => ⟨h.path, h.inner⟩, fun h => ⟨h.1, h.2⟩⟩
  refine ⟨hforward, ?_⟩
  rw [mem_backward_iff_route, mem_forward_iff_route]
  constructor
  · rintro (rfl | ⟨hop, hroute⟩)
    · exact ⟨.inl rfl, .inl rfl⟩
    · refine ⟨.inr hroute, .inr ?_⟩
      cases hb : g.isOp b with
      | false => exact .inl rfl
      | true => exact .inr (hop hb)
  · rintro ⟨rfl | hroute, h⟩
    · exact .inl rfl
    · rcases h with rfl | hb | ha
      · exact .inl rfl
      · refine .inr ⟨fun hb' => ?_, hroute⟩
        rw [hb] at hb'
        cases hb'
      · exact .inr ⟨fun _ => ha, hroute⟩

/-! ## Distance -/

/-- Values flow from a node to another over a number of edges, and through no operation. -/
def Hops (g : Graph) (a b : NodeId) (k : Nat) : Prop := k = 0 ∧ a = b ∨ ∃ via, g.Route a via b ∧ k = via.length + 1

/-- The least number of edges over which values flow from a node to another. -/
noncomputable def distance (g : Graph) (a b : NodeId) : ℕ∞ := ⨅ (k : Nat) (_ : g.Hops a b k), (k : ℕ∞)

theorem Hops.distance_le (h : g.Hops a b k) : g.distance a b ≤ k := iInf₂_le k h

theorem hops_of_leadsIn_behind (h : Search.LeadsIn (g.behind b) g.nonOps b k a) : ∃ j ≤ k, g.Hops a b j := by
  rcases route_of_leadsIn_behind h with rfl | ⟨-, via, hlen, hroute⟩
  · exact ⟨0, Nat.zero_le k, .inl ⟨rfl, rfl⟩⟩
  · exact ⟨via.length + 1, hlen, .inr ⟨via, hroute, rfl⟩⟩

/-- The distance from what a search finds is a number. -/
theorem distance_lt_top (h : b ∈ g.forward a) : g.distance a b < ⊤ := by
  rcases mem_forward_iff_route.mp h with rfl | ⟨via, hroute⟩
  · have hops : g.Hops a a 0 := .inl ⟨rfl, rfl⟩
    exact hops.distance_le.trans_lt (ENat.natCast_lt_top 0)
  · have hops : g.Hops a b (via.length + 1) := .inr ⟨via, hroute, rfl⟩
    exact hops.distance_le.trans_lt (ENat.natCast_lt_top _)

/-- What the search back finds, it finds over no more steps than any path has. -/
theorem Hops.exists_leadsIn (h : g.Hops a b k) (ha : a ∈ g.backwardOrder b) :
    ∃ j ≤ k, Search.LeadsIn (g.behind b) g.nonOps b j a := by
  rcases h with ⟨rfl, rfl⟩ | ⟨via, hroute, rfl⟩
  · exact ⟨0, Nat.le_refl 0, .refl⟩
  · obtain ⟨j, hj⟩ := (mem_backwardOrder.mp ha).exists_leadsIn
    rcases route_of_leadsIn_behind hj with rfl | ⟨hop, -⟩
    · exact ⟨0, Nat.zero_le _, .refl⟩
    · exact ⟨via.length + 1, Nat.le_refl _, hroute.leadsIn_behind hop⟩

/-- **The search back is in the order of distance.** -/
theorem pairwise_backwardOrder : (g.backwardOrder b).Pairwise fun x y => g.distance x b ≤ g.distance y b := by
  refine Search.pairwise_bfs.imp_of_mem fun {x y} _ hy hxy => le_iInf₂ fun k hk => ?_
  obtain ⟨i, hik, hi⟩ := hk.exists_leadsIn hy
  obtain ⟨j, hji, hj⟩ := hxy i hi
  obtain ⟨l, hlj, hl⟩ := hops_of_leadsIn_behind hj
  exact hl.distance_le.trans (Nat.cast_le.mpr ((hlj.trans hji).trans hik))

/-- If there is a path, the distance is the length of a shortest one. -/
theorem Hops.exists_isLeast (h : g.Hops a b k) : ∃ j, IsLeast {i | g.Hops a b i} j ∧ g.distance a b = j := by
  have hleast : IsLeast {i | g.Hops a b i} (sInf {i | g.Hops a b i}) :=
    ⟨Nat.sInf_mem ⟨k, h⟩, fun _ hi => Nat.sInf_le hi⟩
  have hmem : g.Hops a b (sInf {i | g.Hops a b i}) := hleast.1
  exact ⟨_, hleast, hmem.distance_le.antisymm (le_iInf₂ fun _ hi => Nat.cast_le.mpr (hleast.2 hi))⟩

theorem exists_hops_of_mem_backwardOrder (h : a ∈ g.backwardOrder b) : ∃ k, g.Hops a b k := by
  obtain ⟨k, hk⟩ := (mem_backwardOrder.mp h).exists_leadsIn
  obtain ⟨j, -, hj⟩ := hops_of_leadsIn_behind hk
  exact ⟨j, hj⟩

/-- **The search back is breadth-first.** From any node of any graph, it lists the node itself first, then the nodes
whose values reach it, each once and nothing else. The distance of each of them is the length of a shortest path of flow
that passes through no operation, and no node is listed before one that is nearer. -/
theorem backwardOrder_breadthFirst (g : Graph) (start : NodeId) :
    (g.backwardOrder start).head? = some start ∧ (g.backwardOrder start).Nodup ∧
    (∀ n, n ∈ g.backwardOrder start ↔ n ∈ g.backward start) ∧
    (∀ n, n ∈ g.backward start ↔
      n = start ∨ (g.isOp start = true → g.isOp n = false) ∧ ∃ via, g.Route n via start) ∧
    (∀ n ∈ g.backwardOrder start, ∃ k, IsLeast {i | g.Hops n start i} k ∧ g.distance n start = k) ∧
    (g.backwardOrder start).Pairwise fun x y => g.distance x start ≤ g.distance y start := by
  refine ⟨rfl, Search.nodup_bfs, fun n => Container.mem_ofList.symm, fun n => mem_backward_iff_route, fun n hn => ?_,
    pairwise_backwardOrder⟩
  obtain ⟨k, hk⟩ := exists_hops_of_mem_backwardOrder hn
  exact hk.exists_isLeast

/-- Flow in a circle, and an operation whose result enters it. -/
def Example.circle : Graph :=
  let view (name : String) : NodeKind := .pointer (.var ⟨name, .ref "android.view.View"⟩)
  let nodes : Graph := ["far", "middle", "near", "last"].foldl (fun g name => g.push (view name)) {}
  let flow : Graph := [(0, 1), (1, 3), (2, 3), (3, 0)].foldl (fun g (a, b) => g.connect a b none) nodes
  flow.pushOp ⟨.navigate .children, .synthetic .listItemClick none, true, some 2, none, some 1⟩

/-- The operation is listed last, two steps away, and the way through it is not followed. -/
theorem backwardOrder_circle : Example.circle.backwardOrder 3 = [3, 1, 2, 0, 4] ∧
    Example.circle.distance 2 3 ≤ Example.circle.distance 4 3 ∧
    ∃ k, IsLeast {i | Example.circle.Hops 4 3 i} k ∧ Example.circle.distance 4 3 = k := by
  have horder : Example.circle.backwardOrder 3 = [3, 1, 2, 0, 4] := by decide +kernel
  obtain ⟨-, -, -, -, hdistance, hpairwise⟩ := backwardOrder_breadthFirst Example.circle 3
  rw [horder] at hdistance hpairwise
  refine ⟨horder, ?_, hdistance 4 (by simp)⟩
  simp only [List.pairwise_cons, List.mem_cons, forall_eq_or_imp] at hpairwise
  exact hpairwise.2.2.1.2.1

end Graph

end WidgetFlow
