import WidgetFlow.Proofs.Solving

/-!
# Solutions are exact

What is in a solution is there for a reason (`Solver.Inv`), and in a solved solver nothing is missing
(`Solver.Solved`). So each solution is described by the final graph and the other solutions alone, whatever happened on
the way.

* `mem_operand_iff`: the receivers and parameters of operations;
* `results_and_roots_iff`: the results of look-ups and inflations, and the root views of windows.
-/

namespace WidgetFlow

open Std Relation

namespace Graph

variable {g : Graph} {n m r : NodeId}

theorem mem_descendants_iff (hg : g.Closed) : m ∈ g.descendants n ↔ g.Below n m :=
  ⟨below_of_mem_descendants, mem_descendants_of_below hg⟩

/-- A node has one of the ids. -/
def HasId (g : Graph) (n : NodeId) (ids : NodeSet) : Prop := ∃ i ∈ ids, (g.node? n).bind (·.id) = some i

/-- A look-up without an id takes a node to another. -/
def Navigates (g : Graph) (r n : NodeId) : Navigation → Prop
  | .children => Arc.mk n r ∈ g.containment
  | .descendantsAndSelf => g.Below r n
  | .descendantsNoSelf => g.Below r n ∧ n ≠ r

/-- A value that reaches an operand reaches its operation. -/
theorem mem_operandsReached_of_forward {f : Flowgraph} {op x : NodeId} {o : Op} {slot : Slot} (hf : f.Valid)
    (ho : f.graph.op? op = some o) (hslot : slot ≠ .result) (hx : o.operand? slot = some x) (hne : op ≠ n)
    (hr : x ∈ f.graph.forward n) : Operand.mk op slot ∈ f.graph.operandsReached n := by
  have hwired : Arc.mk x op ∈ f.graph.flow := by
    refine hf.wired op o ho x ?_
    cases slot with
    | receiver => exact .inl hx
    | parameter => exact .inr hx
    | result => exact absurd rfl hslot
  obtain ⟨hlt, hno⟩ := (hf.suits op o ho).isValue hx
  exact mem_operandsReached.mpr ⟨hne, mem_forward_of_flow hr hlt hno hwired, hslot, o, x, ho, hx, hr⟩

end Graph

/-- Neither a window nor a menu, or a window or a menu where one is expected. -/
theorem OpKind.expects_iff {kind : OpKind} {slot : Slot} {object : Obj} : kind.expects slot object = true ↔
    (object.isWindow = false ∧ object.isMenu = false) ∨ (object.isWindow = true ∧ kind.expectsWindow slot = true) ∨
      (object.isMenu = true ∧ kind.expectsMenu slot = true) := by
  cases object <;> simp [expects, Obj.isWindow, Obj.isMenu]

namespace Solver

variable {s : Solver} {c : Context} {op n l w v r : NodeId} {o : Op}

/-! ## Operands -/

/-- **Operands are solved exactly.** The receiver or parameter of an operation can be an object that fits it and that
flow brings there, or that is the result of another operation from which flow goes there. -/
theorem mem_operand_iff {slot : Slot} {x : NodeId} (h : analyze c = .ok s) (ho : s.graph.op? op = some o)
    (hslot : slot ≠ .result) (hx : o.operand? slot = some x) : n ∈ s.solution op slot ↔
      accepts c.project.program s.graph ⟨op, slot⟩ n = true ∧
      ((∃ object, s.graph.object? n = some object ∧ x ∈ s.graph.forward n ∧
          (object.isWindow = false ∧ object.isMenu = false ∨
            object.isWindow = true ∧ o.kind.expectsWindow slot = true ∨
            object.isMenu = true ∧ o.kind.expectsMenu slot = true)) ∨
        ∃ op' o', s.graph.op? op' = some o' ∧ op' ≠ op ∧ x ∈ s.graph.forward op' ∧ n ∈ s.results op') := by
  obtain ⟨_, _, _, hs⟩ := solved_of_analyze h
  -- the operand that is reached is the one in question
  have hreached : ∀ {m}, Operand.mk op slot ∈ s.graph.operandsReached m → op ≠ m ∧ x ∈ s.graph.forward m := by
    intro m hm
    obtain ⟨hne, _, _, o', y, ho', hy, hf⟩ := Graph.mem_operandsReached.mp hm
    obtain rfl : o' = o := Option.some.inj (ho'.symm.trans ho)
    obtain rfl : y = x := Option.some.inj (hy.symm.trans hx)
    exact ⟨hne, hf⟩
  constructor
  · intro hn
    cases hs.inv.solution ⟨op, slot⟩ n hn with
    | candidate ha hn =>
      obtain ⟨object, o', hobj, ho', hr, hexp⟩ := hs.inv.candidates _ _ hn
      obtain rfl : o' = o := Option.some.inj (ho'.symm.trans ho)
      exact ⟨ha, .inl ⟨object, hobj, (hreached hr).2, OpKind.expects_iff.mp hexp⟩⟩
    | @result _ op' _ ha hd hn =>
      obtain ⟨hop, hr⟩ := hs.inv.downstream op' _ hd
      obtain ⟨o', ho'⟩ := Option.isSome_iff_exists.mp hop
      exact ⟨ha, .inr ⟨op', o', ho', (hreached hr).1.symm, (hreached hr).2, hn⟩⟩
    | found | inflated => exact absurd rfl hslot
  · rintro ⟨ha, ⟨object, hobj, hr, hexp⟩ | ⟨op', o', ho', hne, hr, hn⟩⟩
    · have hne : op ≠ n := by
        rintro rfl
        rw [Graph.op?_of_object? hobj] at ho
        cases ho
      have hx := Graph.mem_operandsReached_of_forward hs.inv.valid ho hslot hx hne hr
      have hcand := hs.classified.objects ⟨op, slot⟩ n ⟨object, o, hobj, ho, hx, OpKind.expects_iff.mpr hexp⟩
      exact hs.classified.seeded ⟨op, slot⟩ n hcand ha
    · have hx := Graph.mem_operandsReached_of_forward hs.inv.valid ho hslot hx hne.symm hr
      have hdown := hs.classified.results op' ⟨op, slot⟩ (Option.isSome_iff_exists.mpr ⟨o', ho'⟩) hx
      exact hs.propagated op' ⟨op, slot⟩ hdown n hn ha

/-- The activity reaches the look-up for a view of its layout. -/
theorem activity_mem_receivers : ∃ s o, analyze Example.withLayout = .ok s ∧ s.graph.op? 7 = some o ∧
    o.operand? .receiver = some 4 ∧ 2 ∈ s.solution 7 .receiver := by
  have heval : (analyze Example.withLayout).toOption.any (fun s => (s.graph.op? 7).any fun o =>
      o.operand? .receiver = some 4 ∧ accepts Example.withLayout.project.program s.graph ⟨7, .receiver⟩ 2 = true ∧
        (s.graph.object? 2).any (·.isWindow) = true ∧ 4 ∈ s.graph.forward 2 ∧
        o.kind.expectsWindow .receiver = true) = true := by
    decide +kernel
  obtain ⟨s, hs, hk⟩ := exists_of_analyze heval
  obtain ⟨o, ho, hk⟩ := (Option.any_eq_true _ _).mp hk
  obtain ⟨hx, ha, hwindow, hreach, hexpects⟩ := of_decide_eq_true hk
  obtain ⟨object, hobj, hwindow⟩ := (Option.any_eq_true _ _).mp hwindow
  have hslot : Slot.receiver ≠ .result := nofun
  exact ⟨s, o, hs, ho, hx, (mem_operand_iff hs ho hslot hx).mpr
    ⟨ha, .inl ⟨object, hobj, hreach, .inr (.inl ⟨hwindow, hexpects⟩)⟩⟩⟩

/-! ## Results -/

/-- Where the results of an operation come from. -/
theorem Inv.result_cases (hs : Inv c s) (hn : n ∈ s.results op) :
    (accepts c.project.program s.graph ⟨op, .result⟩ n = true ∧ Found c s op n) ∨
    ∃ l, s.LayoutDue ⟨op, l, none⟩ ∧ s.flowgraph.inflations[InflationKey.mk op l none]? = some (some n) := by
  cases hs.solution ⟨op, .result⟩ n hn with
  | candidate _ hn =>
    obtain ⟨_, _, _, _, hr, _⟩ := hs.candidates _ _ hn
    exact absurd rfl (Graph.mem_operandsReached.mp hr).2.2.1
  | result _ hd _ => exact absurd rfl (Graph.mem_operandsReached.mp (hs.downstream _ _ hd).2).2.2.1
  | found ha hf => exact .inl ⟨ha, hf⟩
  | inflated hdue hr => exact .inr ⟨_, hdue, hr⟩

/-- The results of an inflating operation were inflated for it. -/
theorem Inv.mem_inflated (hs : Inv c s) (ho : s.graph.op? op = some o) (hk : o.kind.tag = .inflate)
    (hn : n ∈ s.results op) :
    ∃ l ∈ s.idsIn op .layout, s.flowgraph.inflations[InflationKey.mk op l none]? = some (some n) := by
  rcases hs.result_cases hn with ⟨_, hf⟩ | ⟨l, hdue, hr⟩
  · refine absurd hf fun hf => ?_
    cases hf with
    | still _ _ hf => exact not_finds ho (by rw [hk]; decide) hf
    | item ho' hk' =>
      obtain rfl := Option.some.inj (ho.symm.trans ho')
      rw [hk'] at hk
      cases hk
  · cases hdue with
    | result _ _ hl => exact ⟨l, hl, hr⟩

/-- The results of a look-up are what it finds in the end, unless it looks among the items of a menu. -/
theorem Solved.mem_results_iff (hs : Solved c s) (ho : s.graph.op? op = some o) (htag : o.kind.tag ∈ resolutionOrder)
    (hitem : o.kind ≠ .findView .menuItem) : n ∈ s.results op ↔
      accepts c.project.program s.graph ⟨op, .result⟩ n = true ∧ Finds c s op n := by
  constructor
  · intro hn
    rcases hs.inv.result_cases hn with ⟨ha, hf⟩ | ⟨l, hdue, _⟩
    · cases hf with
      | still _ _ hf => exact ⟨ha, hf⟩
      | item ho' hk =>
        obtain rfl := Option.some.inj (ho.symm.trans ho')
        exact absurd hk hitem
    · cases hdue with
      | result ho' hk =>
        obtain rfl := Option.some.inj (ho.symm.trans ho')
        rw [hk] at htag
        simp [resolutionOrder] at htag
  · rintro ⟨ha, hf⟩
    exact (hs.resolved _ htag op o ho rfl).found n hf ha

theorem mem_descendantsWithId_iff {g : Graph} {ids : NodeSet} (hg : g.Closed) :
    n ∈ descendantsWithId g ids r ↔ g.Below r n ∧ g.HasId n ids := by
  rw [mem_descendantsWithId, Graph.mem_descendants_iff hg]
  rfl

theorem mem_navigated_iff {g : Graph} {d : Navigation} (hg : g.Closed) : n ∈ navigated g d r ↔ g.Navigates r n d := by
  cases d with
  | children => exact Graph.mem_children
  | descendantsAndSelf => exact ExtTreeSet.mem_toList.trans (Graph.mem_descendants_iff hg)
  | descendantsNoSelf => exact mem_properDescendants.trans (and_congr_left' (Graph.mem_descendants_iff hg))

section Results

variable (hs : Solved c s) (ho : s.graph.op? op = some o)
include hs ho

theorem Solved.mem_found_below (hk : o.kind = .findView .ordinary) : n ∈ s.results op ↔
    accepts c.project.program s.graph ⟨op, .result⟩ n = true ∧
      ∃ r ∈ s.receivers op, s.graph.Below r n ∧ s.graph.HasId n (s.idsOf op) := by
  have hclosed : s.graph.Closed := hs.inv.valid.closed
  rw [hs.mem_results_iff ho (by rw [hk]; decide) (by rw [hk]; nofun), ← finds_view ho hk]
  simp only [List.mem_flatMap, ExtTreeSet.mem_toList, foundBelow_ordinary, mem_descendantsWithId_iff hclosed]

theorem Solved.mem_found_in_window (hk : o.kind = .findInWindow) : n ∈ s.results op ↔
    accepts c.project.program s.graph ⟨op, .result⟩ n = true ∧
      ((∃ w ∈ s.receivers op, ∃ v ∈ s.rootsOf w, s.graph.Below v n ∧ s.graph.HasId n (s.idsOf op)) ∨
        ∃ w ∈ s.receivers op, (s.graph.object? w).any (·.isActivity) = true ∧ n ∈ s.rootsOf w ∧
          ∃ value, c.project.resources.systemWidgets["content"]? = some value ∧
            ∃ i ∈ s.idsOf op, ∃ id, s.graph.id? i = some id ∧ id.value = value) := by
  have hclosed : s.graph.Closed := hs.inv.valid.closed
  rw [hs.mem_results_iff ho (by rw [hk]; decide) (by rw [hk]; nofun), ← finds_window ho hk]
  refine and_congr_right fun _ => ?_
  simp only [List.mem_flatMap, ExtTreeSet.mem_toList, mem_foundIn, mem_descendantsWithId_iff hclosed,
    asksForContent_eq_true]
  constructor
  · rintro ⟨w, hw, ⟨hcontent, hact, hn⟩ | hn⟩
    · exact .inr ⟨w, hw, hact, hn, hcontent⟩
    · exact .inl ⟨w, hw, hn⟩
  · rintro (⟨w, hw, hn⟩ | ⟨w, hw, hact, hn, hcontent⟩)
    · exact ⟨w, hw, .inr hn⟩
    · exact ⟨w, hw, .inl ⟨hcontent, hact, hn⟩⟩

theorem Solved.mem_navigated {d : Navigation} (hk : o.kind = .navigate d) : n ∈ s.results op ↔
    accepts c.project.program s.graph ⟨op, .result⟩ n = true ∧ ∃ r ∈ s.receivers op, s.graph.Navigates r n d := by
  have hclosed : s.graph.Closed := hs.inv.valid.closed
  have htag : OpTag.navigate ∈ resolutionOrder := by decide
  rw [hs.mem_results_iff ho (by rw [hk]; exact htag) (by rw [hk]; nofun), ← finds_navigation ho hk]
  simp only [List.mem_flatMap, ExtTreeSet.mem_toList, mem_navigated_iff hclosed]

theorem Solved.mem_inflated (hk : o.kind.tag = .inflate) : n ∈ s.results op ↔
    ∃ l ∈ s.idsIn op .layout, s.flowgraph.inflations[InflationKey.mk op l none]? = some (some n) := by
  constructor
  · exact hs.inv.mem_inflated ho hk
  · rintro ⟨l, hl, hr⟩
    obtain ⟨root, hroot, hdel⟩ := hs.inflated.layouts _ (.result ho hk hl)
    exact hdel n (Option.some.inj (hroot.symm.trans hr))

end Results

theorem Solved.mem_roots (hs : Solved c s) (hw : (s.graph.object? w).any (·.isWindow) = true) : v ∈ s.rootsOf w ↔
    (∃ op o, s.graph.op? op = some o ∧ o.kind.tag = .setContent ∧ w ∈ s.receivers op ∧
      ∃ l ∈ s.idsIn op .layout, s.flowgraph.inflations[InflationKey.mk op l (some w)]? = some (some v)) ∨
    ∃ op o, s.graph.op? op = some o ∧ o.kind = .setRoot ∧ w ∈ s.receivers op ∧ v ∈ s.widgetParameters op := by
  constructor
  · intro hv
    cases hs.inv.roots w v hv with
    | set ho hk hw hv => exact .inr ⟨_, _, ho, hk, (mem_receiversWhere.mp hw).1, hv⟩
    | inflated hdue hr =>
      cases hdue with
      | content ho hk hw hl => exact .inl ⟨_, _, ho, hk, (mem_receiversWhere.mp hw).1, _, hl, hr⟩
  · rintro (⟨op, o, ho, hk, hrec, l, hl, hr⟩ | ⟨op, o, ho, hk, hrec, hv⟩)
    · obtain ⟨root, hroot, hdel⟩ := hs.inflated.layouts _ (.content ho hk (mem_receiversWhere.mpr ⟨hrec, hw⟩) hl)
      exact hdel v (Option.some.inj (hroot.symm.trans hr))
    · exact (hs.resolved .setRoot (by decide) op o ho (by rw [hk]; rfl)).root hk w
        (mem_receiversWhere.mpr ⟨hrec, hw⟩) v hv

/-- **Results and root views are solved exactly.** -/
theorem results_and_roots_iff (h : analyze c = .ok s) :
    -- look-ups below a view
    (∀ op o, s.graph.op? op = some o → o.kind = .findView .ordinary → ∀ n, n ∈ s.results op ↔
      accepts c.project.program s.graph ⟨op, .result⟩ n = true ∧
        ∃ r ∈ s.receivers op, s.graph.Below r n ∧ s.graph.HasId n (s.idsOf op)) ∧
    -- look-ups in a window
    (∀ op o, s.graph.op? op = some o → o.kind = .findInWindow → ∀ n, n ∈ s.results op ↔
      accepts c.project.program s.graph ⟨op, .result⟩ n = true ∧
        ((∃ w ∈ s.receivers op, ∃ v ∈ s.rootsOf w, s.graph.Below v n ∧ s.graph.HasId n (s.idsOf op)) ∨
          ∃ w ∈ s.receivers op, (s.graph.object? w).any (·.isActivity) = true ∧ n ∈ s.rootsOf w ∧
            ∃ value, c.project.resources.systemWidgets["content"]? = some value ∧
              ∃ i ∈ s.idsOf op, ∃ id, s.graph.id? i = some id ∧ id.value = value)) ∧
    -- look-ups without an id
    (∀ op o d, s.graph.op? op = some o → o.kind = .navigate d → ∀ n, n ∈ s.results op ↔
      accepts c.project.program s.graph ⟨op, .result⟩ n = true ∧
        ∃ r ∈ s.receivers op, s.graph.Navigates r n d) ∧
    -- inflations without a window
    (∀ op o, s.graph.op? op = some o → o.kind.tag = .inflate → ∀ n, n ∈ s.results op ↔
      ∃ l ∈ s.idsIn op .layout, s.flowgraph.inflations[InflationKey.mk op l none]? = some (some n)) ∧
    -- root views
    (∀ w, (s.graph.object? w).any (·.isWindow) = true → ∀ v, v ∈ s.rootsOf w ↔
      (∃ op o, s.graph.op? op = some o ∧ o.kind.tag = .setContent ∧ w ∈ s.receivers op ∧
        ∃ l ∈ s.idsIn op .layout, s.flowgraph.inflations[InflationKey.mk op l (some w)]? = some (some v)) ∨
      ∃ op o, s.graph.op? op = some o ∧ o.kind = .setRoot ∧ w ∈ s.receivers op ∧ v ∈ s.widgetParameters op) := by
  obtain ⟨_, _, _, hs⟩ := solved_of_analyze h
  exact ⟨fun _ _ ho hk _ => hs.mem_found_below ho hk, fun _ _ ho hk _ => hs.mem_found_in_window ho hk,
    fun _ _ _ ho hk _ => hs.mem_navigated ho hk, fun _ _ ho hk _ => hs.mem_inflated ho hk,
    fun _ hw _ => hs.mem_roots hw⟩

/-- The topmost view of a layout is the root view of the activity, and the view inside it is found. -/
theorem view_mem_results : ∃ s, analyze Example.withLayout = .ok s ∧ 9 ∈ s.rootsOf 2 ∧ 10 ∈ s.results 7 := by
  have heval : (analyze Example.withLayout).toOption.any (fun s =>
      (s.graph.op? 5).any (·.kind = .setContent) ∧ 2 ∈ s.receivers 5 ∧ 0 ∈ s.idsIn 5 .layout ∧
      s.flowgraph.inflations[InflationKey.mk 5 0 (some 2)]? = some (some 9) ∧
      (s.graph.object? 2).any (·.isWindow) = true ∧
      (s.graph.op? 7).any (·.kind = .findInWindow) ∧ 2 ∈ s.receivers 7 ∧ 10 ∈ s.graph.descendants 9 ∧
      1 ∈ s.idsOf 7 ∧ (s.graph.node? 10).bind (·.id) = some 1 ∧
      accepts Example.withLayout.project.program s.graph ⟨7, .result⟩ 10 = true) = true := by
    decide +kernel
  obtain ⟨s, hs, hk⟩ := exists_of_analyze heval
  obtain ⟨hset, hw₅, hlayout, hcached, hwindow, hfind, hw₇, hbelow, hid, hbound, ha⟩ := of_decide_eq_true hk
  obtain ⟨o₅, ho₅, hk₅⟩ := (Option.any_eq_true _ _).mp hset
  obtain ⟨o₇, ho₇, hk₇⟩ := (Option.any_eq_true _ _).mp hfind
  obtain ⟨_, hwindows, _, _, hroots⟩ := results_and_roots_iff hs
  have hroot : 9 ∈ s.rootsOf 2 := (hroots 2 hwindow 9).mpr
    (.inl ⟨5, o₅, ho₅, by rw [of_decide_eq_true hk₅]; rfl, hw₅, 0, hlayout, hcached⟩)
  exact ⟨s, hs, hroot, (hwindows 7 o₇ ho₇ (of_decide_eq_true hk₇) 10).mpr
    ⟨ha, .inl ⟨2, hw₇, 9, hroot, Graph.below_of_mem_descendants hbelow, 1, hid, hbound⟩⟩⟩

end Solver

end WidgetFlow
