import WidgetFlow.Proofs.Passes

/-!
# Requests only add

Whatever callers ask of a solver, and whether it fails or not, nothing that was known before is lost. A request is a run
of steps, up to the violation at which a strict solver stops, and no step removes anything (`Solver.Le`).

The origins of inflated widgets are not part of this order, as a step could give a node another origin. It does not: a
widget gets its origin together with its number, which is the next one, and all origins so far belong to smaller numbers
(`Solver.Traced`).

* `Inflates.keepsOrigins`, `Step.keepsOrigins`, `Run.keepsOrigins`: origins are kept;
* `request_removes_nothing`: what every request keeps.
-/

namespace WidgetFlow

open Std Relation

namespace Solver

variable {s t u : Solver} {c : Context} {f : Flowgraph} {p : Phase}

/-! ## Origins -/

/-- What has an origin is a node. -/
def Traced (s : Solver) : Prop := ∀ (n : NodeId) o, s.origins[n]? = some o → n < s.graph.size

/-- The origins of `s` are origins in `t`, where they belong to nodes. -/
structure KeepsOrigins (s t : Solver) : Prop where
  traced : t.Traced
  origins : ∀ (n : NodeId) o, s.origins[n]? = some o → t.origins[n]? = some o

theorem Traced.keepsOrigins (hs : s.Traced) (ho : t.origins = s.origins) (hle : s.Le t) : KeepsOrigins s t := by
  constructor
  · intro n o hn
    rw [ho] at hn
    exact hle.graph.toExtends.lt (hs n o hn)
  · intro n o hn
    rw [ho]
    exact hn

theorem KeepsOrigins.trans (h : KeepsOrigins s t) (h' : KeepsOrigins t u) : KeepsOrigins s u :=
  ⟨h'.traced, fun n o hn => h'.origins n o (h.origins n o hn)⟩

theorem Inflates.keepsOrigins (hs : s.Traced) (h : Inflates c s t) : KeepsOrigins s t := by
  have hle := h.le
  cases h with
  | note => exact hs.keepsOrigins rfl hle
  | nest => exact hs.keepsOrigins rfl hle
  | @widget object f₁ f₂ id texts drawables origin pending log =>
    have hsize : s.graph.size < f₂.graph.size := by
      have hnodes : s.statistics.inflated + 1 + s.graph.size ≤ s.statistics.inflated + f₂.graph.size := hle.nodes
      omega
    -- the new number is larger than those of all origins so far
    constructor
    · intro n o hn
      have hn : (s.origins.insert s.graph.size origin)[n]? = some o := hn
      show n < f₂.graph.size
      by_cases he : n = s.graph.size
      · rw [he]
        exact hsize
      · rw [Container.getElem?_insert_of_ne he] at hn
        exact Nat.lt_trans (hs n o hn) hsize
    · intro n o hn
      have hne : n ≠ s.graph.size := Nat.ne_of_lt (hs n o hn)
      show (s.origins.insert s.graph.size origin)[n]? = some o
      rw [Container.getElem?_insert_of_ne hne]
      exact hn

theorem keepsOrigins_of_inflates (hs : s.Traced) (h : ReflTransGen (Inflates c) s t) : KeepsOrigins s t := by
  induction h with
  | refl => exact hs.keepsOrigins rfl (.refl s)
  | tail _ h ih => exact ih.trans (h.keepsOrigins ih.traced)

/-- **A step keeps the origins.** -/
theorem Step.keepsOrigins (hs : s.Traced) (h : Step c p s t) : KeepsOrigins s t := by
  have hle := h.le
  cases h with
  | note | settle | id | candidate | downstream | seed | propagate | find | root | nest | bindId | texts | drawables
  | dispatch => exact hs.keepsOrigins rfl hle
  | @layout _ t' key root _ hnew hin =>
    have hin' := keepsOrigins_of_inflates hs hin
    refine hin'.trans (hin'.traced.keepsOrigins (by rw [finish_eq]) (le_finish ?_))
    rw [inflations_of_inflates hin]
    exact hnew
  | @menu _ _ key _ hnew hin =>
    have hcache : KeepsOrigins s (s.cache key none) := hs.keepsOrigins rfl (le_cache hnew)
    exact hcache.trans (keepsOrigins_of_inflates hcache.traced hin)
  | reuse => exact hs.keepsOrigins (by rw [deliver_eq]) hle

theorem Run.keepsOrigins (hs : s.Traced) (h : Run c s t) : KeepsOrigins s t := by
  induction h with
  | refl => exact hs.keepsOrigins rfl (.refl s)
  | tail _ h ih => exact ih.trans (h.choose_spec.keepsOrigins ih.traced)

/-- In a solver that callers can come to, what has an origin is a node. -/
theorem Reached.traced (hf : Available c f) (hs : Reached c f s) : s.Traced := by
  have hinit : Traced { flowgraph := f } := by
    intro n o hn
    simp at hn
  exact (Run.keepsOrigins hinit (hs.lasts hf.poised).run).traced

/-! ## Requests -/

/-- **A request removes nothing, whether it fails or not.** Solutions, ids, roots, inflations and the graph only grow: a
node keeps its kind, but for the views of a context menu, and the id, the texts and the drawables that it has. Also,
everything that was inflated keeps its origin. -/
theorem request_removes_nothing (hf : Available c f) (hs : Reached c f s) (x : Request) :
    s.Le (x.after c s) ∧ ∀ (n : NodeId) o, s.origins[n]? = some o → (x.after c s).origins[n]? = some o := by
  have hpoised := hf.poised.lasts (hs.lasts hf.poised)
  have hrun := (x.lasts hpoised).run
  exact ⟨Run.le hrun, (Run.keepsOrigins (hs.traced hf) hrun).origins⟩

end Solver

/-- A strict activity that sets a layout, and that looks for a view by the id of the layout. -/
def Example.withLayoutId : Context :=
  let view : Local := ⟨"view", .ref "android.view.View"⟩
  let onCreate := methodOf "onCreate" [.ref "android.os.Bundle"] ⟨.void, 0⟩ [
    .assign (.var this) .this,
    .call (callOn this "setContentView" [.int] ⟨.void, 0⟩ [.int 1]),
    .assign (.var view) (.call (callOn this "findViewById" [.int] view.ty [.int 1]))]
  (application [onCreate] {
    layouts := byId [(1, templateOf (some "android.view.View") none [])]
    layoutIds := byId [(1, "main")] }).mode true

namespace Solver

/-- The classification fails after it has found where the id of the layout belongs, and the next request keeps it. -/
theorem solve_keeps_id_of_failure : ∃ f, Flowgraph.build Example.withLayoutId = .ok f ∧
    (classify Example.withLayoutId { flowgraph := f }).1.isOk = false ∧
    let s := Request.classify.after Example.withLayoutId { flowgraph := f }
    0 ∈ s.idsOf 4 ∧ 0 ∈ (Request.solve.after Example.withLayoutId s).idsOf 4 := by
  have heval : (Flowgraph.build Example.withLayoutId).toOption.any (fun f =>
      (classify Example.withLayoutId { flowgraph := f }).1.isOk = false ∧
      0 ∈ (Request.classify.after Example.withLayoutId { flowgraph := f }).idsOf 4) = true := by
    decide +kernel
  obtain ⟨f, hf, hk⟩ := exists_of_toOption heval
  obtain ⟨hfails, hid⟩ := of_decide_eq_true hk
  have hs : Reached Example.withLayoutId f (Request.classify.after Example.withLayoutId { flowgraph := f }) :=
    .request .start .classify
  obtain ⟨hle, -⟩ := request_removes_nothing (.built hf) hs .solve
  exact ⟨f, hf, hfails, hid, hle.ids 4 0 hid⟩

end Solver

end WidgetFlow
