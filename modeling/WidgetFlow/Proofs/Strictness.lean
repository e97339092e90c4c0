import WidgetFlow.Proofs.Run
import WidgetFlow.Solution.State

/-!
# Strict and lenient runs

Two runs of one action from one state, in contexts that differ in nothing but strictness. `Quiet R c s x` says that `x`
does the same in both, moves along `R`, logs no error and marks no flow as reported. `Mirrors R E c s x` is for an action
that can fail. Its lenient run never fails. Its strict run is the same if the lenient one logs no error, and otherwise it
fails with the first error that the lenient one logs: it had moved along `R`, and `E` says how it stopped there.

As in `Does` and `Tries`, there is one rule for each construct of the code. `context` is for what reads the context: the
rest must not depend on strictness.
-/

namespace WidgetFlow

open Std

/-- The same context, strict or lenient. -/
def Context.mode (c : Context) (strict : Bool) : Context := { c with settings := { c.settings with strict } }

theorem Context.mode_strict (c : Context) : c.mode c.settings.strict = c := rfl

/-! ## Errors -/

namespace Log

/-- The errors among the entries of a log. -/
def errors (l : List Entry) : List Entry := l.filter (·.level = .error)

theorem errors_append {l l' : List Entry} : errors (l ++ l') = errors l ++ errors l' := List.filter_append l l'

/-- The text of an entry and the id of its place. -/
def Entry.message (e : Entry) : String :=
  match e.location with
  | some l => e.text ++ " @ " ++ l.id
  | none => e.text

/-- An entry tells of a violation. -/
def Entry.TellsOf (e : Entry) (fault : Fault) : Prop := e.text = fault.violation.text ∧ e.location = fault.location

theorem Entry.TellsOf.message_eq {e : Entry} {fault : Fault} (h : e.TellsOf fault) : fault.message = e.message := by
  obtain ⟨htext, hlocation⟩ := h
  unfold Fault.message Entry.message
  rw [hlocation, htext]
  cases fault.location with
  | none => rfl
  | some l => rfl

end Log

/-- States with a log. -/
class Logs (σ : Type) where
  /-- The errors in the log, the first one first. -/
  errors : σ → List Log.Entry
  /-- The flows that are marked as reported. -/
  marks : σ → ExtTreeSet Arc

export Logs (errors marks)

instance : Logs Flowgraph := ⟨fun f => Log.errors f.log, fun _ => ∅⟩

instance : Logs Solver := ⟨fun s => Log.errors (s.flowgraph.log ++ s.log), Solver.reported⟩

/-- What was reported. -/
def record {σ : Type} [Logs σ] (s : σ) : List Log.Entry × ExtTreeSet Arc := (errors s, marks s)

/-! ## Two runs -/

section Definitions

variable {σ α : Type} [Logs σ] (R : σ → σ → Prop) (E : Fault → σ → σ → Prop) (c : Context) (s : σ)

/-- From `s`, the action does the same in both modes, moves along `R` and reports nothing. -/
structure Quiet (x : Act σ α) : Prop where
  blind : x (c.mode true) s = x (c.mode false) s
  moves : R s (x (c.mode false) s).2
  silent : record (x (c.mode false) s).2 = record s

/-- Moves along `R` without a report. -/
def Still (s t : σ) : Prop := R s t ∧ record t = record s

/-- The end of a strict run, where the lenient one ends with `a` in `t` and logs some errors. -/
def StrictEnd (a : α) (t : σ) : List Log.Entry → Except Fault α × σ → Prop
  | [], r => r = (.ok a, t) ∧ marks t = marks s
  | e :: _, r => ∃ fault t' u, r = (.error fault, u) ∧ e.TellsOf fault ∧ Still R s t' ∧ E fault t' u

/-- The errors that a lenient run adds. Each of them tells of what can stop a strict run. -/
structure Adds (t : σ) (new : List Log.Entry) : Prop where
  errors : errors t = errors s ++ new
  tells : ∀ e ∈ new, ∃ fault t' u, e.TellsOf fault ∧ E fault t' u

/-- From `s`, the action moves along `R` in lenient mode, and strict mode differs from it by failing with the first
error. -/
def Mirrors (x : Try σ α) : Prop :=
  ∃ a t new, x (c.mode false) s = (.ok a, t) ∧ R s t ∧ Adds E s t new ∧ StrictEnd R E s a t new (x (c.mode true) s)

end Definitions

variable {σ α β : Type} [Logs σ] {R T : σ → σ → Prop} {E : Fault → σ → σ → Prop} {c : Context} {s : σ}

instance [IsPreorder σ R] : IsPreorder σ (Still R) where
  refl s := ⟨refl_of R s, rfl⟩
  trans _ _ _ h h' := ⟨trans_of R h.1 h'.1, h'.2.trans h.2⟩

/-! ## Actions that cannot fail -/

namespace Quiet

/-- An action whose run is known. -/
theorem of_run {x : Act σ α} {a : α} {t : σ} (h₁ : x (c.mode true) s = (a, t)) (h₀ : x (c.mode false) s = (a, t))
    (hR : R s t) (he : record t = record s) : Quiet R c s x := by
  constructor
  · rw [h₁, h₀]
  · rw [h₀]
    exact hR
  · rw [h₀]
    exact he

theorem mono {x : Act σ α} (h : Quiet R c s x) (hR : ∀ t, R s t → T s t) : Quiet T c s x :=
  ⟨h.blind, hR _ h.moves, h.silent⟩

theorem still {x : Act σ α} (h : Quiet R c s x) : Quiet (Still R) c s x := ⟨h.blind, ⟨h.moves, h.silent⟩, h.silent⟩

theorem map {x : Act σ α} {f : α → β} (h : Quiet R c s x) : Quiet R c s (f <$> x) :=
  ⟨congrArg (fun r : α × σ => (f r.1, r.2)) h.blind, h.moves, h.silent⟩

theorem discard {x : Act σ α} (h : Quiet R c s x) : Quiet R c s (discard x) :=
  ⟨congrArg (fun r : α × σ => ((), r.2)) h.blind, h.moves, h.silent⟩

/-- What looks at the context without looking at strictness. -/
theorem context {k : Context → Act σ β} (hk : k (c.mode true) = k (c.mode false))
    (h : Quiet R c s (k (c.mode false))) : Quiet R c s (MonadReader.read >>= k) := by
  constructor
  · show k (c.mode true) (c.mode true) s = k (c.mode false) (c.mode false) s
    rw [hk, h.blind]
  · exact h.moves
  · exact h.silent

variable [IsPreorder σ R]

theorem pure {a : α} : Quiet R c s (Pure.pure a) := ⟨rfl, refl_of R s, rfl⟩

theorem bind {x : Act σ α} {k : α → Act σ β} (hx : Quiet R c s x) (hk : ∀ a t, R s t → Quiet R c t (k a)) :
    Quiet R c s (x >>= k) := by
  have h := hk (x (c.mode false) s).1 _ hx.moves
  constructor
  · show k (x (c.mode true) s).1 (c.mode true) (x (c.mode true) s).2 = _
    rw [hx.blind, h.blind]
    rfl
  · exact trans_of R hx.moves h.moves
  · exact h.silent.trans hx.silent

theorem each {f : α → Act σ PUnit} {l : List α} (hf : ∀ a ∈ l, ∀ t, R s t → Quiet R c t (f a)) :
    Quiet R c s (l.forM f) := by
  induction l generalizing s with
  | nil => exact .pure
  | cons a l ih =>
    apply bind (hf a List.mem_cons_self s (refl_of R s))
    intro _ t hst
    apply ih
    intro b hb u htu
    exact hf b (List.mem_cons_of_mem _ hb) u (trans_of R hst htu)

theorem foldlM {f : β → α → Act σ β} {l : List α} {b : β} (hf : ∀ b, ∀ a ∈ l, ∀ t, R s t → Quiet R c t (f b a)) :
    Quiet R c s (l.foldlM f b) := by
  induction l generalizing s b with
  | nil => exact .pure
  | cons a l ih =>
    apply bind (hf b a List.mem_cons_self s (refl_of R s))
    intro b' t hst
    apply ih
    intro b a ha u htu
    exact hf b a (List.mem_cons_of_mem _ ha) u (trans_of R hst htu)

theorem mapM {f : α → Act σ β} {l : List α} (hf : ∀ a ∈ l, ∀ t, R s t → Quiet R c t (f a)) :
    Quiet R c s (l.mapM f) := by
  induction l generalizing s with
  | nil => exact .pure
  | cons a l ih =>
    rw [List.mapM_cons]
    apply bind (hf a List.mem_cons_self s (refl_of R s))
    intro b t hst
    apply bind (ih fun a ha u htu => hf a (List.mem_cons_of_mem _ ha) u (trans_of R hst htu))
    intro bs u _
    exact .pure

theorem filterMapM {f : α → Act σ (Option β)} {l : List α} (hf : ∀ a ∈ l, ∀ t, R s t → Quiet R c t (f a)) :
    Quiet R c s (l.filterMapM f) := by
  induction l generalizing s with
  | nil => exact .pure
  | cons a l ih =>
    rw [List.filterMapM_cons]
    apply bind (hf a List.mem_cons_self s (refl_of R s))
    intro o t hst
    have hl := ih fun a ha u htu => hf a (List.mem_cons_of_mem _ ha) u (trans_of R hst htu)
    cases o with
    | none => exact hl
    | some b => exact hl.bind fun _ _ _ => .pure

theorem sweep {act : α → Act σ Bool} {l : List α} (hact : ∀ a ∈ l, ∀ t, R s t → Quiet R c t (act a)) :
    Quiet R c s (sweep act l) := by
  induction l generalizing s with
  | nil => exact .pure
  | cons a l ih =>
    apply bind (hact a List.mem_cons_self s (refl_of R s))
    intro b t hst
    apply bind (ih fun a ha u htu => hact a (List.mem_cons_of_mem _ ha) u (trans_of R hst htu))
    intro b' u _
    exact .pure

end Quiet

/-! ## Actions that can fail -/

theorem Adds.append {t u : σ} {new more : List Log.Entry} (h : Adds E s t new) (h' : Adds E t u more) :
    Adds E s u (new ++ more) where
  errors := by rw [h'.errors, h.errors, List.append_assoc]
  tells e he := (List.mem_append.mp he).elim (h.tells e) (h'.tells e)

namespace Mirrors

/-- An action whose run is known, and is the same in both modes. -/
theorem of_run {x : Try σ α} {a : α} {t : σ} (h₁ : x (c.mode true) s = (.ok a, t))
    (h₀ : x (c.mode false) s = (.ok a, t)) (hR : R s t) (he : record t = record s) : Mirrors R E c s x := by
  have herrors : errors t = errors s := congrArg Prod.fst he
  exact ⟨a, t, [], h₀, hR, ⟨by rw [herrors, List.append_nil], nofun⟩, h₁, congrArg Prod.snd he⟩

/-- An action that logs an error in lenient mode and fails in strict mode. -/
theorem of_error {x : Try σ α} {a : α} {t t' u : σ} {e : Log.Entry} {fault : Fault}
    (h₁ : x (c.mode true) s = (.error fault, u)) (h₀ : x (c.mode false) s = (.ok a, t)) (hR : R s t)
    (he : errors t = errors s ++ [e]) (htells : e.TellsOf fault) (hR' : Still R s t') (hE : E fault t' u) :
    Mirrors R E c s x :=
  have htold : ∀ d ∈ [e], ∃ fault t' u, d.TellsOf fault ∧ E fault t' u := fun _ hd =>
    List.mem_singleton.mp hd ▸ ⟨fault, t', u, htells, hE⟩
  ⟨a, t, [e], h₀, hR, ⟨he, htold⟩, fault, t', u, h₁, htells, hR', hE⟩

theorem moves {x : Try σ α} {a : α} {t : σ} (h : Mirrors R E c s x) (hx : x (c.mode false) s = (.ok a, t)) : R s t := by
  obtain ⟨b, u, new, h₀, hR, -⟩ := h
  rw [h₀] at hx
  cases hx
  exact hR

theorem tries {F : σ → σ → Prop} {x : Try σ α} (h : Mirrors R E c s x) :
    Tries R F (c.mode false) s x fun _ _ => True := by
  constructor
  · exact fun hx => ⟨h.moves hx, trivial⟩
  · intro e u hx
    obtain ⟨a, t, new, h₀, -⟩ := h
    rw [h₀] at hx
    cases hx

/-- A run that does not fail is the lenient one. -/
theorem lenient {x : Try σ α} {a : α} {t : σ} {strict : Bool} (h : Mirrors R E c s x)
    (hx : x (c.mode strict) s = (.ok a, t)) : x (c.mode false) s = (.ok a, t) := by
  cases strict with
  | false => exact hx
  | true =>
    obtain ⟨b, u, new, h₀, -, -, hend⟩ := h
    cases new with
    | nil =>
      have hend : x (c.mode true) s = (.ok b, u) := hend.1
      rw [h₀, ← hend, hx]
    | cons e new =>
      obtain ⟨fault, t', u', h₁, -⟩ := hend
      rw [h₁] at hx
      cases hx

/-- The state that a run leaves behind, whether it fails or not. -/
theorem leaves {x : Try σ α} {strict : Bool} (h : Mirrors R E c s x) (hE : ∀ e t u, R s t → E e t u → R s u) :
    R s (x (c.mode strict) s).2 := by
  obtain ⟨b, u, new, h₀, hR, -, hend⟩ := h
  cases strict with
  | false =>
    rw [h₀]
    exact hR
  | true =>
    cases new with
    | nil =>
      have hend : x (c.mode true) s = (.ok b, u) := hend.1
      rw [hend]
      exact hR
    | cons e new =>
      obtain ⟨fault, t', u', h₁, -, hR', hstop⟩ := hend
      rw [h₁]
      exact hE fault t' u' hR'.1 hstop

/-- If nothing stops it, a strict run is the lenient one. -/
theorem unstopped {x : Try σ α} (h : Mirrors R E c s x) (hE : ∀ e t u, R s t → ¬E e t u) :
    ∃ a t, (∀ strict, x (c.mode strict) s = (.ok a, t)) ∧ R s t := by
  obtain ⟨a, t, new, h₀, hR, -, hend⟩ := h
  cases new with
  | nil =>
    refine ⟨a, t, fun strict => ?_, hR⟩
    cases strict with
    | false => exact h₀
    | true => exact hend.1
  | cons e new =>
    obtain ⟨fault, t', u, -, -, hR', hstop⟩ := hend
    exact absurd hstop (hE fault t' u hR'.1)

theorem lift {x : Act σ α} (h : Quiet R c s x) : Mirrors R E c s (liftM x) :=
  of_run (congrArg (fun r : α × σ => (Except.ok r.1, r.2)) h.blind) rfl h.moves h.silent

/-- An action that logs no error does the same in both modes, and can be said to move along another relation. -/
theorem of_still {x : Try σ α} (h : Mirrors (Still T) E c s x)
    (hR : ∀ a t, x (c.mode false) s = (.ok a, t) → R s t) : Mirrors R E c s x := by
  obtain ⟨a, t, new, h₀, hst, he, hend⟩ := h
  have herrors : errors t = errors s := congrArg Prod.fst hst.2
  obtain rfl : new = [] := List.self_eq_append_right.mp (herrors.symm.trans he.errors)
  exact of_run hend.1 h₀ (hR a t h₀) hst.2

theorem mono {x : Try σ α} (h : Mirrors R E c s x) (hR : ∀ t, R s t → T s t) : Mirrors T E c s x := by
  obtain ⟨a, t, new, h₀, hst, he, hend⟩ := h
  refine ⟨a, t, new, h₀, hR t hst, he, ?_⟩
  cases new with
  | nil => exact hend
  | cons e new =>
    obtain ⟨fault, t', u, h₁, htells, hR', hE⟩ := hend
    exact ⟨fault, t', u, h₁, htells, ⟨hR t' hR'.1, hR'.2⟩, hE⟩

/-- An action that only looks at the state. -/
theorem read {x : Try σ α} {k : α → Try σ β} {a : α} (h₁ : x (c.mode true) s = (.ok a, s))
    (h₀ : x (c.mode false) s = (.ok a, s)) (h : Mirrors R E c s (k a)) : Mirrors R E c s (x >>= k) := by
  obtain ⟨b, t, new, hk₀, hst, he, hend⟩ := h
  refine ⟨b, t, new, by rw [bind_run_ok h₀, hk₀], hst, he, ?_⟩
  rw [bind_run_ok h₁]
  exact hend

/-- What looks at the context without looking at strictness. -/
theorem context {k : Context → Try σ β} (hk : k (c.mode true) = k (c.mode false))
    (h : Mirrors R E c s (k (c.mode false))) : Mirrors R E c s (MonadReader.read >>= k) := by
  obtain ⟨b, t, new, hk₀, hst, he, hend⟩ := h
  refine ⟨b, t, new, hk₀, hst, he, ?_⟩
  have hrun : (MonadReader.read >>= k : Try σ β) (c.mode true) s = k (c.mode false) (c.mode true) s :=
    congrFun (congrFun hk _) s
  rw [hrun]
  exact hend

variable [IsPreorder σ R]

theorem pure {a : α} : Mirrors R E c s (Pure.pure a) := of_run rfl rfl (refl_of R s) rfl

/-- What follows an action may rely on how the action ends in lenient mode. -/
theorem bind_run {x : Try σ α} {k : α → Try σ β} (hx : Mirrors R E c s x)
    (hk : ∀ a t, x (c.mode false) s = (.ok a, t) → R s t → Mirrors R E c t (k a)) : Mirrors R E c s (x >>= k) := by
  obtain ⟨a, t, new, h₀, hst, he, hend⟩ := hx
  obtain ⟨b, u, more, hk₀, htu, he', hend'⟩ := hk a t h₀ hst
  refine ⟨b, u, new ++ more, by rw [bind_run_ok h₀, hk₀], trans_of R hst htu, he.append he', ?_⟩
  cases new with
  | nil =>
    -- the first action is the same in both modes, so the second one decides
    rw [bind_run_ok hend.1, List.nil_append]
    cases more with
    | nil => exact ⟨hend'.1, hend'.2.trans hend.2⟩
    | cons e more =>
      obtain ⟨fault, t', v, h₁, htells, hR, hE⟩ := hend'
      have hstill : Still R s t := ⟨hst, Prod.ext (he.errors.trans (List.append_nil _)) hend.2⟩
      exact ⟨fault, t', v, h₁, htells, trans_of (Still R) hstill hR, hE⟩
  | cons e new =>
    obtain ⟨fault, t', v, h₁, htells, hR, hE⟩ := hend
    exact ⟨fault, t', v, bind_run_error h₁, htells, hR, hE⟩

theorem bind {x : Try σ α} {k : α → Try σ β} (hx : Mirrors R E c s x) (hk : ∀ a t, R s t → Mirrors R E c t (k a)) :
    Mirrors R E c s (x >>= k) :=
  bind_run hx fun a t _ => hk a t

/-- An action that cannot fail, followed by one that can. -/
theorem liftBind {x : Act σ α} {k : α → Try σ β} (hx : Quiet R c s x) (hk : ∀ a t, R s t → Mirrors R E c t (k a)) :
    Mirrors R E c s ((liftM x : Try σ α) >>= k) :=
  bind (lift hx) hk

theorem discard {x : Try σ α} (h : Mirrors R E c s x) : Mirrors R E c s (discard x) := h.bind fun _ _ _ => .pure

theorem map {x : Try σ α} {f : α → β} (h : Mirrors R E c s x) : Mirrors R E c s (f <$> x) := by
  rw [map_eq_pure_bind]
  exact h.bind fun _ _ _ => .pure

theorem each {f : α → Try σ PUnit} {l : List α} (hf : ∀ a ∈ l, ∀ t, R s t → Mirrors R E c t (f a)) :
    Mirrors R E c s (l.forM f) := by
  induction l generalizing s with
  | nil => exact .pure
  | cons a l ih =>
    apply bind (hf a List.mem_cons_self s (refl_of R s))
    intro _ t hst
    apply ih
    intro b hb u htu
    exact hf b (List.mem_cons_of_mem _ hb) u (trans_of R hst htu)

theorem sweep {act : α → Try σ Bool} {l : List α} (hact : ∀ a ∈ l, ∀ t, R s t → Mirrors R E c t (act a)) :
    Mirrors R E c s (sweep act l) := by
  induction l generalizing s with
  | nil => exact .pure
  | cons a l ih =>
    apply bind (hact a List.mem_cons_self s (refl_of R s))
    intro b t hst
    apply bind (ih fun a ha u htu => hact a (List.mem_cons_of_mem _ ha) u (trans_of R hst htu))
    intro b' u _
    exact .pure

end Mirrors

/-! ## Actions in any state -/

/-- In any state, the action does the same in both modes and moves along `R`. -/
structure Calm (R : σ → σ → Prop) (x : Act σ α) : Prop where
  run : ∀ c s, Quiet R c s x

/-- In any state, the action moves along `R` and is the same in both modes up to the first error. -/
structure Fair (R : σ → σ → Prop) (x : Try σ α) : Prop where
  run : ∀ c s, Mirrors R (fun _ => Anyhow) c s x

namespace Calm

variable {x : Act σ α}

theorem map {f : α → β} (hx : Calm R x) : Calm R (f <$> x) := ⟨fun c s => .map (hx.run c s)⟩

theorem discard (hx : Calm R x) : Calm R (discard x) := ⟨fun c s => .discard (hx.run c s)⟩

theorem mono (hx : Calm R x) (hR : ∀ s t, R s t → T s t) : Calm T x := ⟨fun c s => (hx.run c s).mono (hR s)⟩

theorem forget (hx : Calm R x) : Calm Anyhow x := hx.mono fun _ _ _ => trivial

/-- In either mode, the action moves along its relation. -/
theorem does (hx : Calm R x) : Does R c s x fun _ _ => True := by
  have h := hx.run c s
  have hmoves : ∀ strict, R s (x (c.mode strict) s).2 := by
    intro strict
    cases strict with
    | false => exact h.moves
    | true =>
      rw [h.blind]
      exact h.moves
  exact ⟨hmoves c.settings.strict, trivial⟩

/-- An action that is the same in both modes, and is known to move along another relation. -/
theorem of_does {Q : α → σ → Prop} (hx : Calm T x) (h : ∀ c s, Does R c s x Q) : Calm R x :=
  ⟨fun c s => ⟨(hx.run c s).blind, (h (c.mode false) s).moves, (hx.run c s).silent⟩⟩

theorem context {k : Context → Act σ β} (hk : ∀ c : Context, k (c.mode true) = k (c.mode false))
    (h : ∀ c, Calm R (k c)) : Calm R (read >>= k) :=
  ⟨fun c s => .context (hk c) ((h _).run c s)⟩

variable [IsPreorder σ R]

theorem pure {a : α} : Calm R (Pure.pure a : Act σ α) := ⟨fun _ _ => .pure⟩

theorem bind {k : α → Act σ β} (hx : Calm R x) (hk : ∀ a, Calm R (k a)) : Calm R (x >>= k) :=
  ⟨fun c s => .bind (hx.run c s) fun a t _ => (hk a).run c t⟩

theorem each {k : α → Act σ PUnit} {l : List α} (hk : ∀ a, Calm R (k a)) : Calm R (l.forM k) :=
  ⟨fun c _ => .each fun a _ t _ => (hk a).run c t⟩

theorem foldlM {k : β → α → Act σ β} {l : List α} {b : β} (hk : ∀ b a, Calm R (k b a)) : Calm R (l.foldlM k b) :=
  ⟨fun c _ => .foldlM fun b a _ t _ => (hk b a).run c t⟩

theorem mapM {k : α → Act σ β} {l : List α} (hk : ∀ a, Calm R (k a)) : Calm R (l.mapM k) :=
  ⟨fun c _ => .mapM fun a _ t _ => (hk a).run c t⟩

theorem filterMapM {k : α → Act σ (Option β)} {l : List α} (hk : ∀ a, Calm R (k a)) : Calm R (l.filterMapM k) :=
  ⟨fun c _ => .filterMapM fun a _ t _ => (hk a).run c t⟩

theorem sweep {k : α → Act σ Bool} {l : List α} (hk : ∀ a, Calm R (k a)) : Calm R (sweep k l) :=
  ⟨fun c _ => .sweep fun a _ t _ => (hk a).run c t⟩

end Calm

namespace Fair

variable {x : Try σ α}

theorem lift {x : Act σ α} (hx : Calm R x) : Fair R (liftM x) := ⟨fun c s => .lift (hx.run c s)⟩

theorem mono (hx : Fair R x) (hR : ∀ s t, R s t → T s t) : Fair T x := ⟨fun c s => (hx.run c s).mono (hR s)⟩

theorem ite {p : Prop} [Decidable p] {y : Try σ α} (hx : Fair R x) (hy : Fair R y) : Fair R (if p then x else y) := by
  split
  · exact hx
  · exact hy

/-- A run that does not fail moves along the relation, in either mode. -/
theorem moves {a : α} {t : σ} (hx : Fair R x) (h : x c s = (.ok a, t)) : R s t := by
  rw [← c.mode_strict] at h
  exact (hx.run c s).moves ((hx.run c s).lenient h)

theorem context {k : Context → Try σ β} (hk : ∀ c : Context, k (c.mode true) = k (c.mode false))
    (h : ∀ c, Fair R (k c)) : Fair R (read >>= k) :=
  ⟨fun c s => .context (hk c) ((h _).run c s)⟩

variable [IsPreorder σ R]

theorem pure {a : α} : Fair R (Pure.pure a : Try σ α) := ⟨fun _ _ => .pure⟩

theorem bind {k : α → Try σ β} (hx : Fair R x) (hk : ∀ a, Fair R (k a)) : Fair R (x >>= k) :=
  ⟨fun c s => .bind (hx.run c s) fun a t _ => (hk a).run c t⟩

theorem liftBind {x : Act σ α} {k : α → Try σ β} (hx : Calm R x) (hk : ∀ a, Fair R (k a)) :
    Fair R ((liftM x : Try σ α) >>= k) :=
  bind (lift hx) hk

theorem each {k : α → Try σ PUnit} {l : List α} (hk : ∀ a, Fair R (k a)) : Fair R (l.forM k) :=
  ⟨fun c _ => .each fun a _ t _ => (hk a).run c t⟩

end Fair

end WidgetFlow
