import WidgetFlow.Proofs.NearestId

/-!
# The order of a search at the same distance

A search goes through its own list: what it lists after its start is what is discovered when the steps of all listed
elements are taken one after the other (`bfs_eq`). An element therefore has a `Search.turn`, the place of the first
element that leads to it. The list is in the order of these places, and what the same element leads to stays in the
order of `next` (`pairwise_turn`).

For the search back along flow, this says which of two nodes at the same distance comes first. It is not the one with
the lower number: the numbers decide among the nodes that are reached from the same node, and only among these
(`backwardOrder_ties`). The id that a view gets depends on it (`crossed_ids`).
-/

namespace WidgetFlow

open Std

/-! ## The turn at which a search finds an element -/

namespace Search

variable {α : Type} {next : α → List α} {inner : List α} {start x : α}

theorem flatMap_filter {p : α → Bool} {l : List α} :
    (l.filter p).flatMap next = l.flatMap fun a => if p a then next a else [] := by
  induction l with
  | nil => rfl
  | cons a l ih =>
    rw [List.filter_cons, List.flatMap_cons, ← ih]
    split <;> rfl

/-- The steps of a search at an element that it has found. -/
def onward [DecidableEq α] (next : α → List α) (inner : List α) (start a : α) : List α :=
  if a = start ∨ a ∈ inner then next a else []

theorem mem_onward [DecidableEq α] {a : α} :
    x ∈ onward next inner start a ↔ (a = start ∨ a ∈ inner) ∧ x ∈ next a := by
  simp [onward]

section Order

variable [Ord α] [TransOrd α]

theorem discover_append : ∀ {as bs : List α} {seen : ExtTreeSet α},
    discover seen (as ++ bs) = ((discover seen as).1 ++ (discover (discover seen as).2 bs).1,
      (discover (discover seen as).2 bs).2)
  | [], bs, seen => rfl
  | a :: as, bs, seen => by
    rw [List.cons_append, discover, discover]
    split
    · exact discover_append
    · rw [discover_append]
      rfl

theorem discover_sublist : ∀ {as : List α} {seen : ExtTreeSet α}, ((discover seen as).1).Sublist as
  | [], seen => List.Sublist.slnil
  | a :: as, seen => by
    rw [discover]
    split
    · exact discover_sublist.cons a
    · exact discover_sublist.cons_cons a

variable [LawfulEqOrd α] [DecidableEq α]

/-- What is discovered from the elements of a list is in the order of the elements that lead to it, and then in an order
that the steps of each element have. -/
theorem pairwise_discover {r : α → α → Prop} (hr : ∀ a, (next a).Pairwise r) : ∀ {l : List α} {seen : ExtTreeSet α},
    (discover seen (l.flatMap next)).1.Pairwise fun x y =>
      l.findIdx (x ∈ next ·) < l.findIdx (y ∈ next ·) ∨ l.findIdx (x ∈ next ·) = l.findIdx (y ∈ next ·) ∧ r x y
  | [], seen => List.Pairwise.nil
  | a :: l, seen => by
    have hfirst : ∀ x ∈ (discover seen (next a)).1, (a :: l).findIdx (x ∈ next ·) = 0 := by
      intro x hx
      simp [List.findIdx_cons, (mem_discover_fst.mp hx).1]
    have hlater : ∀ x ∈ (discover (discover seen (next a)).2 (l.flatMap next)).1,
        (a :: l).findIdx (x ∈ next ·) = l.findIdx (x ∈ next ·) + 1 := by
      intro x hx
      have hnot : x ∉ next a := fun ha => (mem_discover_fst.mp hx).2 (mem_discover_snd.mpr (.inr ha))
      simp [List.findIdx_cons, hnot]
    rw [List.flatMap_cons, discover_append]
    refine List.pairwise_append.mpr ⟨?_, ?_, ?_⟩
    · refine ((hr a).sublist discover_sublist).imp_of_mem fun {x y} hx hy hxy => .inr ⟨?_, hxy⟩
      rw [hfirst x hx, hfirst y hy]
    · refine (pairwise_discover hr).imp_of_mem fun {x y} hx hy hxy => ?_
      rw [hlater x hx, hlater y hy]
      exact hxy.imp Nat.succ_lt_succ fun h => ⟨congrArg (· + 1) h.1, h.2⟩
    · intro x hx y hy
      rw [hfirst x hx, hlater y hy]
      exact .inl (Nat.succ_pos _)

/-- What a search finds beyond a layer is what is discovered from the layer and from what it finds. -/
theorem spread_eq {seen : ExtTreeSet α} {layer : List α} : spread next inner seen layer =
    (discover seen (leads next (layer ++ (spread next inner seen layer).filter (· ∈ inner)))).1 := by
  fun_induction spread next inner seen layer with
  | case1 seen layer found deeper hd =>
    rw [show found.1.filter (· ∈ inner) = [] from hd, List.append_nil]
  | case2 seen layer found deeper hd ih =>
    rw [List.filter_append, leads, List.flatMap_append, discover_append]
    exact congrArg (found.1 ++ ·) ih

/-- The place in a search of the first element that leads to an element. -/
def turn (next : α → List α) (inner : List α) (start x : α) : Nat :=
  (bfs next inner start).findIdx (x ∈ onward next inner start ·)

/-- **A search goes through its own list.** -/
theorem bfs_eq : bfs next inner start =
    start :: (discover {start} ((bfs next inner start).flatMap (onward next inner start))).1 := by
  have hstart : start ∉ spread next inner {start} [start] := (List.nodup_cons.mp nodup_bfs).1
  have hsteps : (bfs next inner start).flatMap (onward next inner start) =
      leads next ([start] ++ (spread next inner {start} [start]).filter (· ∈ inner)) := by
    rw [leads, List.flatMap_append, List.flatMap_singleton, flatMap_filter, bfs, List.flatMap_cons]
    refine congrArg₂ (· ++ ·) (if_pos (.inl rfl)) (List.flatMap_congr fun a ha => ?_)
    have hne : a ≠ start := fun h => hstart (h ▸ ha)
    simp [onward, hne]
  rw [hsteps, ← spread_eq]
  rfl

/-- **A search lists what it finds by turns.** What is found at the same turn is in the order of `next`. -/
theorem pairwise_turn {r : α → α → Prop} (hr : ∀ a, (next a).Pairwise r) :
    (bfs next inner start).tail.Pairwise fun x y => turn next inner start x < turn next inner start y ∨
      turn next inner start x = turn next inner start y ∧ r x y := by
  rw [bfs_eq, List.tail_cons]
  refine pairwise_discover fun a => ?_
  rw [onward]
  split
  · exact hr a
  · exact List.Pairwise.nil

end Order

end Search

/-! ## The turns of the search back -/

namespace Graph

variable {g : Graph} {start a n : NodeId} {k : Nat}

/-- The place in the search back of the first node that a node flows into, among those that the search passes
through. -/
def turn (g : Graph) (start n : NodeId) : Nat :=
  (g.backwardOrder start).findIdx fun a => (a = start ∨ a ∈ g.nonOps) ∧ g.hasFlow n a = true

theorem hasFlow_iff : g.hasFlow n a = true ↔ Arc.mk n a ∈ g.flow := ExtTreeMap.contains_iff_mem

/-- A node has its turn before another: it is reached from an earlier node, or from the same node and has the lower
number. -/
def Precedes (g : Graph) (start x y : NodeId) : Prop :=
  g.turn start x < g.turn start y ∨ g.turn start x = g.turn start y ∧ x < y

/-- The search back reaches a node from another: of the nodes that it passes through, the other one is the first that
the node flows into. -/
structure ReachedFrom (g : Graph) (start n a : NodeId) : Prop where
  place : (g.backwardOrder start)[g.turn start n]? = some a
  passed : a = start ∨ g.IsValue a
  flow : Arc.mk n a ∈ g.flow
  first : ∀ b ∈ (g.backwardOrder start).take (g.turn start n), b = start ∨ g.IsValue b → Arc.mk n b ∉ g.flow

theorem pairwise_behind : (g.behind start a).Pairwise (· < ·) := by
  rw [behind]
  split
  · exact pairwise_predecessors.sublist List.filter_sublist
  · exact pairwise_predecessors

section Listed

variable (hn : n ∈ g.backwardOrder start) (hne : n ≠ start)
include hn hne

theorem turn_eq : g.turn start n = Search.turn (g.behind start) g.nonOps start n := by
  have hback : n ∈ g.backward start := Container.mem_ofList.mpr hn
  obtain ⟨hop, -⟩ := (mem_backward_iff_route.mp hback).resolve_left hne
  refine congrArg (g.backwardOrder start).findIdx (funext fun a => decide_eq_decide.mpr ?_)
  rw [Search.mem_onward, mem_behind, hasFlow_iff]
  exact and_congr_right fun _ => (and_iff_left hop).symm

theorem exists_reachedFrom : ∃ a, g.ReachedFrom start n a := by
  have hlt : g.turn start n < (g.backwardOrder start).length := by
    refine List.findIdx_lt_length_of_exists ?_
    cases mem_backwardOrder.mp hn with
    | refl => exact absurd rfl hne
    | @step a _ ha hi hb =>
      exact ⟨a, mem_backwardOrder.mpr ha, decide_eq_true ⟨hi, hasFlow_iff.mpr (mem_behind.mp hb).1⟩⟩
  obtain ⟨hpassed, hflow⟩ := of_decide_eq_true (List.findIdx_getElem (w := hlt))
  refine ⟨_, List.getElem?_eq_getElem hlt, hpassed.imp_right mem_nonOps.mp, hasFlow_iff.mp hflow, fun b hb hi hnb => ?_⟩
  obtain ⟨i, hi', rfl⟩ := List.mem_take_iff_getElem.mp hb
  have hnot := List.not_of_lt_findIdx (Nat.lt_of_lt_of_le hi' (Nat.min_le_left _ _))
  exact of_decide_eq_false hnot ⟨hi.imp_right mem_nonOps.mpr, hasFlow_iff.mpr hnb⟩

end Listed

theorem ne_start_of_mem_tail (h : n ∈ (g.backwardOrder start).tail) : n ≠ start := by
  rintro rfl
  exact (List.nodup_cons.mp Search.nodup_bfs).1 h

/-- **The search back goes by turns.** -/
theorem pairwise_precedes : (g.backwardOrder start).tail.Pairwise (g.Precedes start) := by
  refine (Search.pairwise_turn fun a => pairwise_behind).imp_of_mem fun {x y} hx hy hxy => ?_
  rw [Precedes, turn_eq (List.mem_of_mem_tail hx) (ne_start_of_mem_tail hx),
    turn_eq (List.mem_of_mem_tail hy) (ne_start_of_mem_tail hy)]
  exact hxy

/-! ## Turns and distance -/

theorem distance_self : g.distance start start = 0 := by
  have hops : g.Hops start start 0 := .inl ⟨rfl, rfl⟩
  exact nonpos_iff_eq_zero.mp hops.distance_le

/-- The first edge of a path. -/
theorem Hops.exists_flow (h : g.Hops n start k) (hne : n ≠ start) :
    ∃ m j, k = j + 1 ∧ Arc.mk n m ∈ g.flow ∧ (m = start ∨ g.IsValue m) ∧ g.Hops m start j := by
  rcases h with ⟨-, rfl⟩ | ⟨via, ⟨hpath, hinner⟩, rfl⟩
  · exact absurd rfl hne
  · cases hpath with
    | edge hflow => exact ⟨start, 0, rfl, hflow, .inl rfl, .inl ⟨rfl, rfl⟩⟩
    | @cons _ m _ via hflow hpath =>
      have hroute : g.Route m via start := ⟨hpath, fun b hb => hinner b (List.mem_cons_of_mem _ hb)⟩
      exact ⟨m, via.length + 1, rfl, hflow, .inr (hinner m List.mem_cons_self), .inr ⟨via, hroute, rfl⟩⟩

/-- One edge more. -/
theorem distance_le_of_flow (hflow : Arc.mk n a ∈ g.flow) (ha : a = start ∨ g.IsValue a) :
    g.distance n start ≤ g.distance a start + 1 := by
  have hedge : Arc.mk n start ∈ g.flow → g.distance n start ≤ 1 := fun hflow =>
    have hops : g.Hops n start 1 := .inr ⟨[], .edge hflow, rfl⟩
    hops.distance_le
  rcases ha with rfl | ha
  · rw [distance_self, zero_add]
    exact hedge hflow
  · by_cases hpath : ∃ k, g.Hops a start k
    · obtain ⟨k, hk⟩ := hpath
      obtain ⟨j, ⟨hj, -⟩, hdistance⟩ := hk.exists_isLeast
      rw [hdistance]
      rcases hj with ⟨rfl, rfl⟩ | ⟨via, hroute, rfl⟩
      · exact hedge hflow
      · have hops : g.Hops n start (via.length + 1 + 1) := .inr ⟨a :: via, .cons hflow ha hroute, rfl⟩
        exact hops.distance_le
    · have htop : g.distance a start = ⊤ := iInf₂_eq_top.mpr fun k hk => absurd ⟨k, hk⟩ hpath
      rw [htop, top_add]
      exact le_top

/-- The search back misses no value that has a path to its start. -/
theorem mem_backwardOrder_of_hops (ha : a = start ∨ g.IsValue a) (h : g.Hops a start k) :
    a ∈ g.backwardOrder start := by
  have hback : a ∈ g.backward start := by
    rw [mem_backward_iff_route]
    rcases h with ⟨-, rfl⟩ | ⟨via, hroute, -⟩
    · exact .inl rfl
    · refine ha.imp_right fun ha => ⟨fun _ => ?_, via, hroute⟩
      rw [isOp, ha.2]
      rfl
  exact Container.mem_ofList.mp hback

/-- **A node is one edge farther than the node it is reached from.** -/
theorem ReachedFrom.distance_eq (h : g.ReachedFrom start n a) (hne : n ≠ start) :
    g.distance n start = g.distance a start + 1 := by
  refine (distance_le_of_flow h.flow h.passed).antisymm (le_iInf₂ fun k hk => ?_)
  obtain ⟨m, j, rfl, hflow, hm, hops⟩ := hk.exists_flow hne
  -- the path goes through a node that is not listed before `a`
  have hle : g.distance a start ≤ g.distance m start := by
    obtain ⟨i, hi, rfl⟩ := List.mem_iff_getElem.mp (mem_backwardOrder_of_hops hm hops)
    obtain ⟨ht, rfl⟩ := List.getElem?_eq_some_iff.mp h.place
    rcases Nat.lt_trichotomy i (g.turn start n) with hlt | rfl | hgt
    · have htake := List.mem_take_iff_getElem.mpr ⟨i, Nat.lt_min.mpr ⟨hlt, hi⟩, rfl⟩
      exact absurd hflow (h.first _ htake hm)
    · exact le_rfl
    · exact List.pairwise_iff_getElem.mp pairwise_backwardOrder _ _ ht hi hgt
  exact add_le_add_left (hle.trans hops.distance_le) 1

theorem distance_of_turn (hn : n ∈ g.backwardOrder start) (hne : n ≠ start)
    (ha : (g.backwardOrder start)[g.turn start n]? = some a) : g.distance n start = g.distance a start + 1 := by
  obtain ⟨b, hb⟩ := exists_reachedFrom hn hne
  obtain rfl : b = a := Option.some.inj (hb.place.symm.trans ha)
  exact hb.distance_eq hne

theorem distance_ne_zero (hn : n ∈ g.backwardOrder start) (hne : n ≠ start) : g.distance n start ≠ 0 := by
  obtain ⟨a, ha⟩ := exists_reachedFrom hn hne
  rw [ha.distance_eq hne]
  simp

/-- The nodes at distance one are reached from the start. -/
theorem turn_eq_zero (hn : n ∈ g.backwardOrder start) (h : g.distance n start = 1) : g.turn start n = 0 := by
  have hne : n ≠ start := by
    rintro rfl
    rw [distance_self] at h
    exact zero_ne_one h
  obtain ⟨a, ha⟩ := exists_reachedFrom hn hne
  have hzero : g.distance a start = 0 := by
    rw [ha.distance_eq hne] at h
    simpa using h
  obtain rfl : a = start := by
    by_contra has
    exact distance_ne_zero (List.mem_of_getElem? ha.place) has hzero
  by_contra hpos
  have hfirst : a ∈ (g.backwardOrder a).take (g.turn a n) := by
    obtain ⟨t, ht⟩ := Nat.exists_eq_succ_of_ne_zero hpos
    rw [ht]
    exact List.mem_cons_self
  exact ha.first a hfirst (.inl rfl) ha.flow

/-- The start is alone at its distance. -/
theorem pairwise_ties : (g.backwardOrder start).Pairwise fun x y =>
    g.distance x start = g.distance y start → g.Precedes start x y := by
  refine List.pairwise_cons.mpr ⟨fun y hy hxy => ?_, ?_⟩
  · rw [distance_self] at hxy
    exact absurd hxy.symm (distance_ne_zero (List.mem_cons_of_mem _ hy) (ne_start_of_mem_tail hy))
  · refine pairwise_precedes.imp ?_
    intro x y hxy _
    exact hxy

/-- The nodes at the same distance are in the order of their numbers exactly if their turns are. -/
theorem pairwise_lt_iff :
    ((g.backwardOrder start).Pairwise fun x y => g.distance x start = g.distance y start → x < y) ↔
      ∀ x ∈ g.backwardOrder start, ∀ y ∈ g.backwardOrder start, g.distance x start = g.distance y start →
        x < y → g.turn start x ≤ g.turn start y := by
  constructor
  · intro h x hx y hy hxy hlt
    obtain ⟨i, hi, rfl⟩ := List.mem_iff_getElem.mp hx
    obtain ⟨j, hj, rfl⟩ := List.mem_iff_getElem.mp hy
    rcases Nat.lt_trichotomy i j with hij | rfl | hij
    · have hprecedes := List.pairwise_iff_getElem.mp pairwise_ties i j hi hj hij hxy
      exact hprecedes.elim Nat.le_of_lt fun h => h.1.le
    · exact le_rfl
    · exact absurd (List.pairwise_iff_getElem.mp h j i hj hi hij hxy.symm) hlt.asymm
  · intro h
    -- with the numbers against it, an earlier turn would break the hypothesis
    refine pairwise_ties.imp_of_mem fun {x y} hx hy hprecedes hxy => ?_
    rcases hprecedes hxy with hturn | ⟨-, hlt⟩
    · by_contra hnot
      have hne : y ≠ x := by
        rintro rfl
        exact Nat.lt_irrefl _ hturn
      have hle := h y hy x hx hxy.symm (Nat.lt_of_le_of_ne (Nat.not_lt.mp hnot) hne)
      exact absurd hturn hle.not_gt
    · exact hlt

/-- **Nodes at the same distance.** From any node of any graph, the search back reaches every other node from a first
node that it flows into, which is one edge nearer. Of two nodes at the same distance, it lists the one first that it
reaches from the earlier node; only if it reaches both from the same node, the one with the lower number. So the nodes
at distance one are in the order of their numbers. At all distances they are if and only if no node is reached from an
earlier node than a node at the same distance that has a lower number. -/
theorem backwardOrder_ties (g : Graph) (start : NodeId) :
    (∀ n ∈ g.backwardOrder start, n ≠ start →
      ∃ a, g.ReachedFrom start n a ∧ g.distance n start = g.distance a start + 1) ∧
    ((g.backwardOrder start).Pairwise fun x y => g.distance x start = g.distance y start → g.Precedes start x y) ∧
    ((g.backwardOrder start).Pairwise fun x y => g.distance x start = 1 → g.distance y start = 1 → x < y) ∧
    (((g.backwardOrder start).Pairwise fun x y => g.distance x start = g.distance y start → x < y) ↔
      ∀ x ∈ g.backwardOrder start, ∀ y ∈ g.backwardOrder start, g.distance x start = g.distance y start →
        x < y → g.turn start x ≤ g.turn start y) := by
  refine ⟨fun n hn hne => ?_, pairwise_ties, ?_, pairwise_lt_iff⟩
  · obtain ⟨a, ha⟩ := exists_reachedFrom hn hne
    exact ⟨a, ha, ha.distance_eq hne⟩
  · refine pairwise_ties.imp_of_mem fun {x y} hx hy hprecedes hdx hdy => ?_
    rcases hprecedes (hdx.trans hdy.symm) with hturn | ⟨-, hlt⟩
    · rw [turn_eq_zero hx hdx, turn_eq_zero hy hdy] at hturn
      exact absurd hturn (Nat.lt_irrefl 0)
    · exact hlt

end Graph

/-! ## Two ids at the same distance -/

/-- The activity sets an id of a view that comes from one of two locals (nodes 7 and 8). The local that is assigned
first holds the id with the higher number. -/
def Example.crossed : Context :=
  let view : Local := ⟨"view", .ref "android.view.View"⟩
  let first : Local := ⟨"first", .int⟩
  let second : Local := ⟨"second", .int⟩
  let id : Local := ⟨"id", .int⟩
  let onCreate := methodOf "onCreate" [.ref "android.os.Bundle"] ⟨.void, 0⟩ [
    .assign (.var this) .this,
    .assign (.var view) (.new "android.view.View"),
    .assign (.var first) (.value (.int 6)),
    .assign (.var second) (.value (.int 5)),
    .assign (.var id) (.value (.var first)),
    .assign (.var id) (.value (.var second)),
    .call (callOn view "setId" [.int] ⟨.void, 0⟩ [.var id])]
  application [onCreate] { widgetIds := byId [(5, "save"), (6, "load")] }

namespace Graph

/-- The search back from the local of the id (node 9), and the id that the view (node 5) gets. -/
theorem exists_crossed : ∃ f, Flowgraph.build Example.crossed = .ok f ∧ f.graph.backwardOrder 9 = [9, 7, 8, 1, 0] ∧
    [7, 8, 1, 0].map (f.graph.turn 9) = [0, 0, 1, 2] ∧
    ((Solver.Request.solve.after Example.crossed { flowgraph := f }).graph.node? 5).bind (·.id) = some 1 := by
  have heval : (Flowgraph.build Example.crossed).toOption.any (fun f =>
      f.graph.backwardOrder 9 = [9, 7, 8, 1, 0] ∧ [7, 8, 1, 0].map (f.graph.turn 9) = [0, 0, 1, 2] ∧
      ((Solver.Request.solve.after Example.crossed { flowgraph := f }).graph.node? 5).bind (·.id) = some 1) = true := by
    decide +kernel
  obtain ⟨f, hf, hk⟩ := exists_of_toOption heval
  exact ⟨f, hf, of_decide_eq_true hk⟩

/-- Both ids are two edges away. -/
theorem distance_crossed {g : Graph} (horder : g.backwardOrder 9 = [9, 7, 8, 1, 0])
    (hturns : [7, 8, 1, 0].map (g.turn 9) = [0, 0, 1, 2]) : g.distance 1 9 = 2 ∧ g.distance 0 9 = 2 := by
  simp only [List.map_cons, List.map_nil, List.cons.injEq, and_true] at hturns
  obtain ⟨h7, h8, h1, h0⟩ := hturns
  have hsucc : ∀ n a, n ∈ g.backwardOrder 9 → n ≠ 9 → (g.backwardOrder 9)[g.turn 9 n]? = some a →
      g.distance n 9 = g.distance a 9 + 1 := fun n a => distance_of_turn
  rw [horder] at hsucc
  rw [hsucc 1 7 (by simp) (by decide) (by rw [h1]; rfl), hsucc 0 8 (by simp) (by decide) (by rw [h0]; rfl),
    hsucc 7 9 (by simp) (by decide) (by rw [h7]; rfl), hsucc 8 9 (by simp) (by decide) (by rw [h8]; rfl), distance_self]
  exact ⟨by norm_num, by norm_num⟩

/-- The id that is listed first is reached from the first local, and the numbers of the two ids do not matter. -/
theorem turns_of_crossed : ∃ f, Flowgraph.build Example.crossed = .ok f ∧ f.graph.distance 1 9 = f.graph.distance 0 9 ∧
    f.graph.ReachedFrom 9 1 7 ∧ f.graph.Precedes 9 1 0 ∧ ¬f.graph.turn 9 0 ≤ f.graph.turn 9 1 ∧
    ¬(f.graph.backwardOrder 9).Pairwise fun x y => f.graph.distance x 9 = f.graph.distance y 9 → x < y := by
  obtain ⟨f, hf, horder, hturns, -⟩ := exists_crossed
  obtain ⟨h1, h0⟩ := distance_crossed horder hturns
  have hsame : f.graph.distance 1 9 = f.graph.distance 0 9 := h1.trans h0.symm
  obtain ⟨hreached, hties, -, hnumbers⟩ := backwardOrder_ties f.graph 9
  simp only [List.map_cons, List.map_nil, List.cons.injEq, and_true] at hturns
  obtain ⟨-, -, ht1, ht0⟩ := hturns
  have hlater : ¬f.graph.turn 9 0 ≤ f.graph.turn 9 1 := by rw [ht0, ht1]; decide
  have hmem : ∀ n ∈ [9, 7, 8, 1, 0], n ∈ f.graph.backwardOrder 9 := fun n hn => horder ▸ hn
  obtain ⟨a, ha, -⟩ := hreached 1 (hmem 1 (by simp)) (by decide)
  obtain rfl : 7 = a := by
    have hplace := ha.place
    rw [horder, ht1] at hplace
    exact Option.some.inj hplace
  refine ⟨f, hf, hsame, ha, ?_, hlater, fun h => hlater ?_⟩
  · rw [horder] at hties
    simp only [List.pairwise_cons, List.mem_cons, forall_eq_or_imp] at hties
    exact hties.2.2.2.1.1 hsame
  · exact hnumbers.mp h 0 (hmem 0 (by simp)) 1 (hmem 1 (by simp)) hsame.symm (by decide)

/-- Of two ids at the same distance, the one with the higher number is listed first, and the view gets it. -/
theorem crossed_ids : ∃ f, Flowgraph.build Example.crossed = .ok f ∧ f.graph.backwardOrder 9 = [9, 7, 8, 1, 0] ∧
    f.graph.distance 1 9 = 2 ∧ f.graph.distance 0 9 = 2 ∧
    (¬(f.graph.backwardOrder 9).Pairwise fun x y => f.graph.distance x 9 = f.graph.distance y 9 → x < y) ∧
    ((Solver.Request.solve.after Example.crossed { flowgraph := f }).graph.node? 5).bind (·.id) = some 1 := by
  obtain ⟨f, hf, horder, hturns, hid⟩ := exists_crossed
  obtain ⟨h1, h0⟩ := distance_crossed horder hturns
  refine ⟨f, hf, horder, h1, h0, fun h => ?_, hid⟩
  rw [horder] at h
  simp only [List.pairwise_cons, List.mem_cons, forall_eq_or_imp] at h
  exact absurd (h.2.2.2.1.1 (h1.trans h0.symm)) (by decide)

end Graph

end WidgetFlow
