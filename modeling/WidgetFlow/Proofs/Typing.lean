import WidgetFlow.Proofs.Exactness
import WidgetFlow.Proofs.Hierarchy
import WidgetFlow.Proofs.Passes

/-!
# Solutions fit their declared types

The declared type of an operand says which objects it can be (`Program.Fits`). Whatever enters a solution because flow
brings it, because it is the result of an operation or because a look-up finds it, is asked whether it fits, and what
fits once fits ever after, as neither the class of an object nor the declared type of an operand changes.

The results of inflating operations are not asked. They are the topmost widgets of the layouts whose ids reach the
operation, whatever the classes of these widgets are. So such a result fits if the layout is right for the local that
gets it, and it is there if not.

* `Program.fits_iff`: the filter decides `Program.Fits`;
* `mem_solution_fits`: every element of a solution fits, if it is not the result of an inflation;
* `Step.remembers`, `Run.remembers`: the memory of inflations has the topmost widgets of the layouts;
* `result_isTopmost`: what the results of an inflation are, and when they fit.
-/

namespace WidgetFlow

open Std Relation

/-! ## The filter -/

namespace Program

variable {p : Program} {cls : String} {declared : Option Ty}

/-- An object of a class can be where a type is declared. What is not part of the program is not known to be wrong. -/
inductive Fits (p : Program) : Option Ty → String → Prop
  | undeclared {cls : String} : Fits p none cls
  | array {ty : Ty} (h : ty.isArray = true) : Fits p (some ty) ty.text
  | object {cls : String} : Fits p (some (.ref Framework.object)) cls
  | unknownType {d cls : String} (h : p.class? d = none) : Fits p (some (.ref d)) cls
  | unknownClass {d cls : String} (h : p.class? cls = none) : Fits p (some (.ref d)) cls
  | subtype {d cls : String} (h : p.Inherits cls d) : Fits p (some (.ref d)) cls

theorem fits_ref_iff {d : String} : p.fits (some (.ref d)) cls = true ↔
    d = Framework.object ∨ p.class? d = none ∨ p.class? cls = none ∨ p.Inherits cls d := by
  simp [fits, Ty.ref, Ty.isArray, Ty.className?, isSubtype_iff, or_assoc]

/-- **The filter lets through what fits.** -/
theorem fits_iff : p.fits declared cls = true ↔ p.Fits declared cls := by
  constructor
  · intro h
    match declared with
    | none => exact .undeclared
    | some ⟨base, n + 1⟩ =>
      obtain rfl : Ty.text ⟨base, n + 1⟩ = cls := by simpa [fits, Ty.isArray] using h
      exact .array rfl
    | some ⟨.ref d, 0⟩ =>
      rcases fits_ref_iff.mp h with rfl | h | h | h
      · exact .object
      · exact .unknownType h
      · exact .unknownClass h
      · exact .subtype h
  · intro h
    cases h with
    | undeclared => rfl
    | array h => simp [fits, h]
    | object => exact fits_ref_iff.mpr (.inl rfl)
    | unknownType h => exact fits_ref_iff.mpr (.inr (.inl h))
    | unknownClass h => exact fits_ref_iff.mpr (.inr (.inr (.inl h)))
    | subtype h => exact fits_ref_iff.mpr (.inr (.inr (.inr h)))

end Program

theorem OpKind.eq_inflate_of_tag {kind : OpKind} (h : kind.tag = .inflate) : kind = .inflate := by
  cases kind <;> first | rfl | cases h

namespace Solver

variable {s t : Solver} {c : Context} {f : Flowgraph} {op n l : NodeId} {o : Op} {slot : Slot} {x : Operand} {p : Phase}

theorem accepts_iff {q : Program} {g : Graph} : accepts q g x n = true ↔
    ∃ object, g.object? n = some object ∧ q.Fits (g.operandTy? x) object.cls := by
  simp only [accepts, Option.any_eq_true, Program.fits_iff]

/-! ## What is asked -/

/-- Every element of a solution was let through, or it is the topmost widget of an inflated layout. -/
theorem Inv.accepts_or_inflated (hs : Inv c s) (hn : n ∈ s.solution op slot) :
    accepts c.project.program s.graph ⟨op, slot⟩ n = true ∨ slot = .result ∧ ∃ l, s.LayoutDue ⟨op, l, none⟩ ∧
      s.flowgraph.inflations[InflationKey.mk op l none]? = some (some n) := by
  cases hs.solution ⟨op, slot⟩ n hn with
  | candidate ha | result ha | found ha => exact .inl ha
  | @inflated _ l _ hdue hr => exact .inr ⟨rfl, l, hdue, hr⟩

/-- **Solutions fit their declared types.** Whatever callers have asked of a solver, an element of a solution is an
object that fits the declared type of its operand, if it is not a result of an inflating operation. -/
theorem mem_solution_fits (hf : Available c f) (hs : Reached c f s) (hn : n ∈ s.solution op slot)
    (hk : slot = .result → ∀ o, s.graph.op? op = some o → o.kind ≠ .inflate) :
    ∃ object, s.graph.object? n = some object ∧
      c.project.program.Fits (s.graph.operandTy? ⟨op, slot⟩) object.cls := by
  rcases (hs.inv hf).accepts_or_inflated hn with ha | ⟨hslot, l, hdue, -⟩
  · exact accepts_iff.mp ha
  · -- only inflating operations are due
    cases hdue with
    | result ho htag => exact absurd (OpKind.eq_inflate_of_tag htag) (hk hslot _ ho)

end Solver

/-! ## An image for a button -/

namespace Example

open Solver

/-- The activity inflates an image for a local that is declared as a button, and makes it its content. -/
def withImage : Context :=
  let button : Local := ⟨"button", .ref "android.widget.Button"⟩
  let view : Local := ⟨"view", .ref "android.view.View"⟩
  let inflater : Local := ⟨"inflater", .ref "android.view.LayoutInflater"⟩
  let onCreate := methodOf "onCreate" [.ref "android.os.Bundle"] ⟨.void, 0⟩ [
    .assign (.var this) .this,
    .assign (.var button)
      (.call (callOn inflater "inflate" [.int, .ref "android.view.ViewGroup"] view.ty [.int 1, .null])),
    .assign (.var view) (.value (.var button)),
    .call (callOn this "setContentView" [view.ty] ⟨.void, 0⟩ [.var view])]
  let app := application [onCreate] {
    layouts := byId [(1, templateOf (some "android.widget.ImageView") none [])]
    layoutIds := byId [(1, "main")] }
  let widgets := ["android.widget.Button", "android.widget.ImageView"].map fun name =>
    (name, classOf name (some view.ty.text) false false [])
  { app with project.program.classes := app.project.program.classes.insertMany widgets }

/-- The image fits as the content of the activity, and not where it comes from. -/
theorem withImage_solved : ∃ f s o, Flowgraph.build withImage = .ok f ∧ Reached withImage f s ∧
    s.graph.op? 5 = some o ∧ o.kind = .inflate ∧ 8 ∈ s.results 5 ∧
    s.graph.object? 8 = some (.inflated "android.widget.ImageView") ∧
    accepts withImage.project.program s.graph ⟨5, .result⟩ 8 = false ∧ 8 ∈ s.solution 7 .parameter ∧
    s.graph.operandTy? ⟨7, .parameter⟩ = some (.ref "android.view.View") := by
  have heval : (analyze withImage).toOption.any (fun s => (s.graph.op? 5).any fun o => o.kind = .inflate ∧
      8 ∈ s.results 5 ∧ s.graph.object? 8 = some (.inflated "android.widget.ImageView") ∧
      accepts withImage.project.program s.graph ⟨5, .result⟩ 8 = false ∧ 8 ∈ s.solution 7 .parameter ∧
      s.graph.operandTy? ⟨7, .parameter⟩ = some (.ref "android.view.View")) = true := by
    decide +kernel
  obtain ⟨s, hs, hk⟩ := exists_of_analyze heval
  obtain ⟨o, ho, hk⟩ := (Option.any_eq_true _ _).mp hk
  obtain ⟨f, hf, hreached⟩ := reached_of_analyze hs
  exact ⟨f, s, o, hf, hreached, ho, of_decide_eq_true hk⟩

end Example

namespace Solver

/-- An image is a view. -/
theorem image_fits_content : ∃ f s, Available Example.withImage f ∧ Reached Example.withImage f s ∧
    8 ∈ s.solution 7 .parameter ∧
    Example.withImage.project.program.Fits (some (.ref "android.view.View")) "android.widget.ImageView" := by
  obtain ⟨f, s, o, hf, hs, -, -, -, hobj, -, hn, hty⟩ := Example.withImage_solved
  obtain ⟨object, hobject, hfits⟩ := mem_solution_fits (.built hf) hs hn nofun
  obtain rfl : object = .inflated "android.widget.ImageView" := Option.some.inj (hobject.symm.trans hobj)
  exact ⟨f, s, .built hf, hs, hn, hty ▸ hfits⟩

end Solver

/-! ## What is not asked -/

/-- The topmost widgets that a flowgraph remembers are those of the layouts. -/
def Flowgraph.Remembers (r : Resources) (f : Flowgraph) : Prop :=
  ∀ (key : InflationKey) n, f.inflations[key]? = some (some n) → f.graph.IsTopmost r key.id n

namespace Solver

variable {s t : Solver} {c : Context} {f : Flowgraph} {op n l : NodeId} {o : Op} {slot : Slot} {p : Phase}

/-- **A step remembers the topmost widgets of layouts.** -/
theorem Step.remembers (hs : s.flowgraph.Remembers c.project.resources) (h : Step c p s t) :
    t.flowgraph.Remembers c.project.resources := by
  intro key n hn
  rcases h.inflations_cases hn with hn | ⟨-, htop, -⟩
  · exact (hs key n hn).mono h.le.graph
  · exact htop

theorem Run.remembers (hs : s.flowgraph.Remembers c.project.resources) (h : Run c s t) :
    t.flowgraph.Remembers c.project.resources := by
  induction h with
  | refl => exact hs
  | tail _ h ih => exact h.choose_spec.remembers ih

theorem Available.remembers (hf : Available c f) : f.Remembers c.project.resources := by
  induction hf with
  | built h =>
    intro key n hn
    rw [(Flowgraph.build_valid h).2.1] at hn
    simp at hn
  | @solved f s hf hs ih =>
    exact Run.remembers (c := c.mode false) (s := { flowgraph := f }) ih (hs.lasts hf.poised).run

theorem Reached.remembers (hf : Available c f) (hs : Reached c f s) : s.flowgraph.Remembers c.project.resources :=
  (Available.solved hf hs).remembers

end Solver

end WidgetFlow
