import Mathlib.Data.PFun
import WidgetFlow.Proofs.Solving

/-!
# Solving ends

The loops of `solve` have a bound on their rounds. Here they are written without one (`Solver.rounds`): each goes on
until a round is the last, and a run that never ends has no result. It is shown that both loops do end, on every
flowgraph that can be built, and that nothing changes without the bound.

* `rounds_agrees`: rounds that are fewer than a bound are the same with it and without it;
* `solveLoop_eq_solve`: solving ends.
-/

namespace WidgetFlow

open Std Relation

namespace Solver

/-! ## Loops without a bound -/

/-- Changes of a solver that may never end. -/
abbrev Unbounded := ExceptT Fault (ReaderT Context (StateT Solver Part))

/-- A change that ends. -/
def once {α : Type} (act : Solve α) : Unbounded α := fun c s => Part.some (act c s)

/-- What follows a round: the end of all rounds, or the next one. -/
def afterRound : Except Fault Bool × Solver → (Except Fault Unit × Solver) ⊕ Solver
  | (.ok true, s) => .inr s
  | (.ok false, s) => .inl (.ok (), s)
  | (.error e, s) => .inl (.error e, s)

/-- Makes rounds until one tells that it is the last. -/
def rounds (round : Unbounded Bool) : Unbounded Unit := fun c => PFun.fix fun s => (round c s).map afterRound

/-- As `inflateAll`, without a bound. -/
def inflateAllLoop : Unbounded Bool := do
  let before := (← once get).statistics.inflated
  rounds (once inflateRound)
  return before < (← once get).statistics.inflated

/-- As `pass`, without a bound on what it inflates. -/
def passOnce : Unbounded Bool := do
  let (changed, flows) ← once resolveOnce
  let inflated ← inflateAllLoop
  if inflated || flows then once (discard propagate)
  return changed || inflated

/-- As `solve`, without bounds. -/
def solveLoop : Unbounded Unit := do
  once classify
  discard inflateAllLoop
  rounds passOnce
  let t := (← once get).statistics
  once (remark (.fixpoint t.passes t.classifications t.inflated))

variable {α β : Type} {c : Context} {s t : Solver}

/-! ## Agreement -/

/-- From `s`, the loop ends as the change does. -/
def Agrees (c : Context) (s : Solver) (x : Unbounded α) (y : Solve α) : Prop := x c s = Part.some (y c s)

theorem agrees_once (y : Solve α) : Agrees c s (once y) y := rfl

theorem Agrees.bind {x : Unbounded α} {y : Solve α} {k : α → Unbounded β} {k' : α → Solve β} (h : Agrees c s x y)
    (hk : ∀ a t, y c s = (.ok a, t) → Agrees c t (k a) (k' a)) : Agrees c s (x >>= k) (y >>= k') := by
  have hx : (x >>= k) c s = (x c s).bind fun p => ExceptT.bindCont k p.1 c p.2 := rfl
  unfold Agrees at *
  rw [hx, h, Part.bind_some]
  rcases hy : y c s with ⟨e | a, t⟩
  · rw [bind_run_error hy]
    rfl
  · rw [bind_run_ok hy]
    exact hk a t hy

/-- A change that only looks at the solver. -/
theorem Agrees.read {x : Unbounded β} {y : Solve α} {k : α → Solve β} {a : α} (hy : y c s = (.ok a, s))
    (h : Agrees c s x (k a)) : Agrees c s x (y >>= k) := by
  unfold Agrees at *
  rw [bind_run_ok hy]
  exact h

/-- What is left when the result of a change is discarded. -/
theorem discard_run {y : Solve α} :
    (discard y : Solve PUnit) c s = ((y c s).1.map fun _ => PUnit.unit, (y c s).2) := by
  rcases hy : y c s with ⟨e | a, t⟩
  · exact bind_run_error hy
  · exact bind_run_ok hy

theorem agrees_pure (a : α) : Agrees c s (pure a) (pure a) := rfl

theorem Agrees.discard {x : Unbounded α} {y : Solve α} (h : Agrees c s x y) : Agrees c s (discard x) (discard y) :=
  h.bind fun _ _ _ => agrees_pure ()

/-! ## Rounds -/

section Rounds

variable {round : Unbounded Bool} {round' : Solve Bool}

theorem rounds_again (h : Agrees c s round round') (hr : round' c s = (.ok true, t)) :
    rounds round c s = rounds round c t := by
  refine PFun.fix_fwd_eq ?_
  rw [h, hr, Part.map_some]
  exact Part.mem_some _

theorem rounds_last (h : Agrees c s round round') {r : Except Fault Unit × Solver}
    (hr : afterRound (round' c s) = .inl r) : rounds round c s = Part.some r := by
  refine Part.eq_some_iff.mpr (PFun.fix_stop ?_)
  rw [h, Part.map_some, hr]
  exact Part.mem_some _

/-- **Rounds without a bound.** If rounds under a bound do not reach it, they are the same without it. -/
theorem rounds_agrees {I : Solver → Prop} {k : Nat} (hround : ∀ s, I s → Agrees c s round round')
    (hI : ∀ s t, I s → round' c s = (.ok true, t) → I t) (hs : I s) (h : ∀ t, upTo round' k c s ≠ (.ok false, t)) :
    Agrees c s (rounds round) (discard (upTo round' k)) := by
  unfold Agrees
  rw [discard_run]
  induction k generalizing s with
  | zero => exact absurd rfl (h s)
  | succ k ih =>
    rcases hr : round' c s with ⟨e | b, t⟩
    · have hlast : upTo round' (k + 1) c s = (.error e, t) := bind_run_error hr
      rw [hlast]
      exact rounds_last (hround s hs) (congrArg afterRound hr)
    · cases b with
      | false =>
        have hlast : upTo round' (k + 1) c s = (.ok true, t) := bind_run_ok hr
        rw [hlast]
        exact rounds_last (hround s hs) (congrArg afterRound hr)
      | true =>
        have hnext : upTo round' (k + 1) c s = upTo round' k c t := bind_run_ok hr
        rw [hnext] at h ⊢
        rw [rounds_again (hround s hs) hr]
        exact ih (hI s t hs hr) h

end Rounds

/-! ## The inner loop -/

theorem inflateAllLoop_agrees (hs : Inv c s) (hc : Classified c s) (hp : s.pending = false) :
    Agrees c s inflateAllLoop inflateAll := by
  unfold inflateAllLoop inflateAll
  refine .bind (agrees_once get) fun s' t ht => ?_
  cases ht
  refine .read rfl (.bind ?_ fun _ _ _ => .bind (agrees_once get) fun _ _ _ => agrees_pure _)
  refine rounds_agrees (I := fun _ => True) (fun _ _ => agrees_once _) (fun _ _ _ _ => trivial) trivial fun t ht => ?_
  cases ((inflateRounds_tries hs hc hp (Nat.le_refl _) lacking_lt_bound).ok ht).2.1

/-! ## Passes -/

theorem passOnce_agrees (hs : Steady c s) : Agrees c s passOnce pass := by
  unfold passOnce pass
  refine .bind (agrees_once resolveOnce) fun b t ht => ?_
  obtain ⟨hst, ⟨hct, hpt, _⟩, _⟩ := (resolveOnce_tries hs).ok ht
  refine .bind (inflateAllLoop_agrees (Run.inv hs.inv hst) hct hpt) fun inflated u hu => ?_
  dsimp only
  split
  · exact .bind (agrees_once _) fun _ _ _ => agrees_pure _
  · exact agrees_pure _

theorem passes_agree (hs : Steady c s) :
    Agrees c s (rounds passOnce) (discard (upTo pass (s.flowgraph.bound c))) := by
  refine rounds_agrees (I := Steady c) (fun _ => passOnce_agrees) (fun t u ht hu => ?_) hs fun t ht => ?_
  · exact ((pass_tries ht).ok hu).2.1
  · cases ((passes_tries hs (Nat.le_refl _) lacking_lt_bound).ok ht).2.1

/-! ## The whole -/

/-- **Solving ends.** On the flowgraph of any application, under any settings, the loops that nothing bounds end, with
the result of `solve`. -/
theorem solveLoop_eq_solve {f : Flowgraph} (hf : Flowgraph.build c = .ok f) :
    solveLoop c { flowgraph := f } = Part.some (solve c { flowgraph := f }) := by
  have hs : Inv c { flowgraph := f } := inv_init (Flowgraph.sound_of_build hf)
  show Agrees c _ solveLoop solve
  unfold solveLoop solve solveClassified
  refine .bind (agrees_once classify) fun _ s₁ h₁ => ?_
  obtain ⟨hrun, hcl, hc⟩ := (run_of_tries classify_tries).ok h₁
  have hinv := Run.inv hs hrun
  have hpend := Steps.settled_classify hcl rfl
  refine .bind (inflateAllLoop_agrees hinv hc hpend).discard fun _ s₂ h₂ => ?_
  obtain ⟨_, _, hsteady, _⟩ := (inflateAll_tries hinv hc hpend).discard.ok h₂
  refine .read rfl (.bind (passes_agree hsteady) fun _ _ _ => ?_)
  exact .bind (agrees_once get) fun _ _ _ => agrees_once _

/-- The loops end for an application with a circle of classes and a circle in its flow. -/
theorem solveLoop_withLayout : ∃ f s, Flowgraph.build Example.withLayout = .ok f ∧
    solveLoop Example.withLayout { flowgraph := f } = Part.some (.ok (), s) := by
  have heval : (analyze Example.withLayout).toOption.any (fun _ => true) = true := by decide +kernel
  obtain ⟨s, hs, _⟩ := exists_of_analyze heval
  obtain ⟨f, hf, hsolve⟩ := analyze_eq_ok.mp hs
  exact ⟨f, s, hf, (solveLoop_eq_solve hf).trans (congrArg Part.some hsolve)⟩

end Solver

end WidgetFlow
