import WidgetFlow.Proofs.Passes
import WidgetFlow.Proofs.TameConstruction

/-!
# Fresh locals

The framework passes values around that no statement of the program has a local for. The construction makes up a local
for each of them, which is called `$fake` and a number, and its class is that of the value. The node of such a local is
new, and no local of the program has it, exactly if no statement mentions a local of this name and class
(`requests_served`).

A program that uses such a name shares the node with the framework: what is inflated gets into its local, and what is in
its local gets to where the framework puts the inflated view (`own_view_shared`).
-/

namespace WidgetFlow

namespace Flowgraph

variable {c : Context}

/-- A construction has a course, also if a violation ends it. -/
theorem underway_construct : Underway c (construct c {}).2 := by
  have hstart : Underway c {} := ⟨[], .start⟩
  have hrun := construct_tame.tries {} hstart
  rcases h : construct c {} with ⟨e | ⟨⟩, f⟩
  · obtain ⟨f', hf', rfl⟩ := hrun.error h
    exact hf' hstart
  · exact (hrun.ok h).1 hstart

/-- Solvers keep the nodes of the construction. -/
theorem extends_of_reached {f : Flowgraph} {s : Solver} (hf : Solver.Available c f) (hs : Solver.Reached c f s) :
    (construct c {}).2.graph.Extends s.graph :=
  hs.keeps (P := fun f => (construct c {}).2.graph.Extends f.graph) (.refl _)
    (fun _ hstep hext => hext.trans hstep.le.graph.toExtends) hf

/-- **Fresh locals are fresh, unless the program uses their names.** The requests of a construction are numbered, and
they get different nodes. In the flowgraph of the construction and ever after, a node is new and apart from the locals
of the program if no statement mentions the local that the request makes up, and only then. -/
theorem requests_served (c : Context) :
    (∃ rs, Course c rs (construct c {}).2) ∧ ∀ rs, Course c rs (construct c {}).2 →
      rs.map (·.before.fresh) = List.range (construct c {}).2.fresh ∧
      (rs.map (FreshRequest.node c)).Nodup ∧
      (∀ l n, (construct c {}).2.var? l = some n → c.project.program.Mentions l ∨ ∃ r ∈ rs, l = r.var) ∧
      ∀ r ∈ rs, (r.before.graph.size ≤ r.node c ↔ r.before.var? r.var = none) ∧
        r.Served c (construct c {}).2 ∧
        ∀ f s, Solver.Available c f → Solver.Reached c f s → r.Served c s.flowgraph := by
  refine ⟨underway_construct, fun rs h => ⟨h.numbers, h.nodup, fun l n hl => h.vars (pointer?_of_var? hl), ?_⟩⟩
  intro r hr
  exact ⟨FreshRequest.size_le_iff, h.served hr (.refl _), fun f s hf hs => h.served hr (extends_of_reached hf hs)⟩

end Flowgraph

/-! ## A local with the name of a fresh one -/

namespace Example

/-- The activity makes a view (node 4), which it keeps in a local, and a group of views (node 6), into which it inflates
a layout. -/
def withParent (name : String) : Context :=
  let own : Local := ⟨name, .ref "android.view.View"⟩
  let parent : Local := ⟨"parent", .ref "android.view.ViewGroup"⟩
  let inflater : Local := ⟨"inflater", .ref "android.view.LayoutInflater"⟩
  let onCreate := methodOf "onCreate" [.ref "android.os.Bundle"] ⟨.void, 0⟩ [
    .assign (.var this) .this,
    .assign (.var own) (.new own.ty.text),
    .assign (.var parent) (.new parent.ty.text),
    .call (callOn inflater "inflate" [.int, parent.ty] own.ty [.int 1, .var parent])]
  let app := application [onCreate] {
    layouts := byId [(1, templateOf (some own.ty.text) none [])]
    layoutIds := byId [(1, "main")] }
  let group := classOf parent.ty.text (some own.ty.text) false false []
  { app with project.program.classes := app.project.program.classes.insert group.name group }

end Example

namespace Flowgraph

variable {c : Context} {f : Flowgraph} {rs : List FreshRequest}

/-- If there was one request, it made up the first local. -/
theorem Course.eq_singleton (h : Course c rs f) (hfresh : f.fresh = 1) : ∃ r, rs = [r] ∧ r.var.name = "$fake0" := by
  have hnumbers := h.numbers
  rw [hfresh] at hnumbers
  obtain ⟨r, rfl, hr⟩ := List.map_eq_singleton_iff.mp hnumbers
  exact ⟨r, rfl, by rw [FreshRequest.var, hr]; rfl⟩

/-- The layout is inflated for a local of its own, and the view of the activity stays out of the group. -/
theorem own_view_apart : ∃ f s r, build (Example.withParent "own") = .ok f ∧
    Solver.Reached (Example.withParent "own") f s ∧ Course (Example.withParent "own") [r] f ∧
    r.IsFresh (Example.withParent "own") f ∧ r.IsFresh (Example.withParent "own") s.flowgraph ∧
    s.graph.hasChild 6 4 = false := by
  have heval : (build (Example.withParent "own")).toOption.any (fun f =>
      let s := Solver.Request.solve.after (Example.withParent "own") { flowgraph := f }
      f.fresh = 1 ∧ s.graph.hasChild 6 4 = false) = true := by
    decide +kernel
  obtain ⟨f, hf, hk⟩ := exists_of_toOption heval
  obtain ⟨hfresh, hchild⟩ := of_decide_eq_true hk
  have hs : Solver.Reached (Example.withParent "own") f _ := .request .start .solve
  obtain ⟨⟨rs, hcourse⟩, hall⟩ := requests_served (Example.withParent "own")
  obtain ⟨-, -, -, hserved⟩ := hall rs hcourse
  rw [construct_of_build hf] at hcourse hserved
  obtain ⟨r, rfl, hname⟩ := hcourse.eq_singleton hfresh
  obtain ⟨-, hbuilt, hsolved⟩ := hserved r List.mem_cons_self
  have hnot : ¬(Example.withParent "own").project.program.Mentions r.var := by
    have hnames : ∀ m ∈ (Example.withParent "own").project.program.methods, ∀ i ∈ m.body, ∀ l ∈ i.stmt.locals,
        l.name ≠ "$fake0" := by decide +kernel
    rintro ⟨m, hm, i, hi, hl⟩
    exact hnames m hm i hi r.var hl hname
  exact ⟨f, _, r, hf, hs, hcourse, hbuilt.isFresh.mpr hnot, (hsolved f _ (.built hf) hs).isFresh.mpr hnot, hchild⟩

/-- With the name of a fresh local, the view of the activity gets into the group together with the layout. -/
theorem own_view_shared : ∃ f s l, build (Example.withParent "$fake0") = .ok f ∧
    Solver.Reached (Example.withParent "$fake0") f s ∧ (Example.withParent "$fake0").project.program.Mentions l ∧
    (∀ rs, Course (Example.withParent "$fake0") rs f → ∃ r ∈ rs,
      f.var? l = some (r.node (Example.withParent "$fake0")) ∧ ¬r.IsFresh (Example.withParent "$fake0") f) ∧
    s.graph.hasChild 6 4 = true := by
  have heval : (build (Example.withParent "$fake0")).toOption.any (fun f =>
      let s := Solver.Request.solve.after (Example.withParent "$fake0") { flowgraph := f }
      f.fresh = 1 ∧ f.graph.ids.filterMap f.graph.pointer? = [.var Example.this,
        .var ⟨"$fake0", .ref "android.view.View"⟩, .var ⟨"parent", .ref "android.view.ViewGroup"⟩] ∧
      s.graph.hasChild 6 4 = true) = true := by
    decide +kernel
  obtain ⟨f, hf, hk⟩ := exists_of_toOption heval
  obtain ⟨hfresh, hpointers, hchild⟩ := of_decide_eq_true hk
  have hmentions : (Example.withParent "$fake0").project.program.Mentions ⟨"$fake0", .ref "android.view.View"⟩ := by
    decide +kernel
  refine ⟨f, _, _, hf, .request .start .solve, hmentions, fun rs h => ?_, hchild⟩
  obtain ⟨r, rfl, hname⟩ := h.eq_singleton hfresh
  have hnode := (h.var?_iff List.mem_cons_self (.refl _)).mpr rfl
  -- of the locals that have nodes, only one has the name
  have hvar : r.var = ⟨"$fake0", .ref "android.view.View"⟩ := by
    have hpointer := pointer?_of_var? hnode
    have hmem : Pointer.var r.var ∈ f.graph.ids.filterMap f.graph.pointer? :=
      List.mem_filterMap.mpr ⟨_, Graph.mem_ids.mpr (Graph.pointer?_lt hpointer), hpointer⟩
    rw [hpointers] at hmem
    simp only [List.mem_cons, Pointer.var.injEq, List.not_mem_nil, or_false] at hmem
    rcases hmem with he | he | he
    · rw [he] at hname
      exact absurd hname (by decide)
    · exact he
    · rw [he] at hname
      exact absurd hname (by decide)
  rw [hvar] at hnode
  exact ⟨r, List.mem_cons_self, hnode, fun hfresh => hfresh.2 _ hmentions hnode⟩

end Flowgraph

end WidgetFlow
