import WidgetFlow.Proofs.Routine

/-!
# Locals that have nodes

A local gets a node when a statement that mentions it is dealt with, or when the framework needs a local of its own,
which is called `$fake` and a number (`freshVar`). Both share the nodes: what counts is the name and the type.

* `Program.Mentions`: the locals in the statements of a program;
* `Course`: how a construction comes to a flowgraph, with all requests for fresh locals;
* `Course.isFresh_iff`: the node of a fresh local is a new one, and stays its own, if no statement mentions the local;
* `Tame`: the actions that construction consists of.
-/

namespace WidgetFlow

open Std

/-! ## The locals of statements -/

def Value.locals (v : Value) : List Local := v.var?.toList

def Call.locals (c : Call) : List Local := c.receiver.toList ++ c.args.flatMap (·.locals)

def Expr.locals : Expr → List Local
  | value v | cast v _ => v.locals
  | instanceField base _ => [base]
  | arrayRead base index => base :: index.locals
  | call c => c.locals
  | new _ | newArray _ | staticField _ | this | parameter _ | caughtException | other => []

def Place.locals : Place → List Local
  | var l => [l]
  | instanceField base _ => [base]
  | arrayWrite base index => base :: index.locals
  | staticField _ => []

def Stmt.locals : Stmt → List Local
  | assign lhs rhs => lhs.locals ++ rhs.locals
  | call c => c.locals
  | ret v => v.toList.flatMap (·.locals)
  | other => []

def Site.locals (s : Site) : List Local := s.instr.stmt.locals

namespace Program

variable {p : Program} {m : Method} {l : Local} {v : Value} {s : Site} {k : Call} {i : Nat}

/-- The local is in a statement of the program. -/
def Mentions (p : Program) (l : Local) : Prop := ∃ m ∈ p.methods, ∃ i ∈ m.body, l ∈ i.stmt.locals

instance : Decidable (p.Mentions l) := inferInstanceAs (Decidable (∃ m ∈ p.methods, ∃ i ∈ m.body, l ∈ i.stmt.locals))

/-- The locals are in statements of the program. -/
def Knows (p : Program) (ls : List Local) : Prop := ∀ l ∈ ls, p.Mentions l

theorem knows_var : p.Knows (Value.var l).locals ↔ p.Mentions l := by simp [Knows, Value.locals, Value.var?]

theorem Knows.var? (h : p.Knows v.locals) (hv : v.var? = some l) : p.Mentions l := h l (by simp [Value.locals, hv])

/-! ### Methods -/

theorem mem_methods_of_application (h : m ∈ p.applicationMethods) : m ∈ p.methods := by
  obtain ⟨k, hk, hm⟩ := List.mem_flatMap.mp (List.mem_filter.mp h).1
  exact List.mem_flatMap.mpr ⟨k, (List.mem_filter.mp hk).1, hm⟩

theorem resolveVirtual_mem {start sub : String} (h : p.resolveVirtual start sub = some m) : m ∈ p.methods := by
  obtain ⟨k, hk, hm⟩ := List.exists_of_findSome?_eq_some h
  obtain ⟨name, -, hname⟩ := List.mem_filterMap.mp hk
  exact mem_methods_of_declared? hname (Option.filter_eq_some_iff.mp hm).1

theorem knows_stmt (hm : m ∈ p.methods) {i : Instr} (hi : i ∈ m.body) : p.Knows i.stmt.locals :=
  fun _ hl => ⟨m, hm, i, hi, hl⟩

theorem mentions_this (hm : m ∈ p.methods) (h : m.this? = some l) : p.Mentions l := by
  obtain ⟨i, hi, hl⟩ := List.exists_of_findSome?_eq_some h
  refine ⟨m, hm, i, hi, ?_⟩
  split at hl
  · rename_i hs
    simp_all [Stmt.locals, Place.locals]
  · cases hl

theorem mentions_param (hm : m ∈ p.methods) (h : m.param? i = some l) : p.Mentions l := by
  obtain ⟨i, hi, hl⟩ := List.exists_of_findSome?_eq_some h
  refine ⟨m, hm, i, hi, ?_⟩
  split at hl
  · rename_i hs
    split at hl <;> simp_all [Stmt.locals, Place.locals]
  · cases hl

theorem knows_return (hm : m ∈ p.methods) (h : v ∈ m.returns) : p.Knows v.locals := by
  obtain ⟨i, hi, hv⟩ := List.mem_filterMap.mp h
  intro l hl
  refine ⟨m, hm, i, hi, ?_⟩
  split at hv
  · rename_i hs
    simp [hs, Stmt.locals, hv, hl]
  · cases hv

theorem mentions_return (hm : m ∈ p.methods) (h : l ∈ m.returns.filterMap (·.var?)) : p.Mentions l := by
  obtain ⟨v, hv, hl⟩ := List.mem_filterMap.mp h
  exact (knows_return hm hv).var? hl

/-! ### Calls -/

theorem Knows.call (h : p.Knows s.locals) (hk : s.call? = some k) : p.Knows k.locals := by
  intro l hl
  refine h l ?_
  unfold Site.call? Stmt.call? at hk
  unfold Site.locals
  split at hk
  all_goals simp_all [Stmt.locals, Expr.locals]

theorem Knows.result (h : p.Knows s.locals) (hr : s.result? = some l) : p.Mentions l := by
  refine h l ?_
  unfold Site.result? Stmt.result? at hr
  unfold Site.locals
  split at hr
  all_goals simp_all [Stmt.locals, Place.locals]

theorem Knows.receiver (h : p.Knows k.locals) (hr : k.receiver = some l) : p.Mentions l :=
  h l (List.mem_append_left _ (by simp [hr]))

theorem Knows.receiver? (h : p.Knows s.locals) (hr : s.receiver? = some l) : p.Mentions l := by
  obtain ⟨k, hk, hr⟩ := Option.bind_eq_some_iff.mp hr
  exact (h.call hk).receiver hr

theorem Knows.value (h : p.Knows k.locals) (hv : v ∈ k.args) : p.Knows v.locals := fun l hl =>
  h l (List.mem_append_right _ (List.mem_flatMap.mpr ⟨v, hv, hl⟩))

theorem Knows.arg (h : p.Knows k.locals) (hv : k.arg? i = some v) : p.Knows v.locals :=
  h.value (List.mem_of_getElem? hv)

theorem Knows.argVar (h : p.Knows k.locals) (hv : k.arg? i = some (.var l)) : p.Mentions l :=
  knows_var.mp (h.arg hv)

theorem Knows.argVar? (h : p.Knows k.locals) (hv : (k.arg? i).bind (·.var?) = some l) : p.Mentions l := by
  obtain ⟨v, hv, hl⟩ := Option.bind_eq_some_iff.mp hv
  exact (h.arg hv).var? hl

/-- The statement and its call are in the program. -/
structure KnowsCall (p : Program) (s : Site) (k : Call) : Prop where
  site : p.Knows s.locals
  call : p.Knows k.locals

theorem Knows.knowsCall (h : p.Knows s.locals) (hk : s.call? = some k) : p.KnowsCall s k := ⟨h, h.call hk⟩

end Program

namespace Flowgraph

variable {α β : Type} {c : Context} {f f' : Flowgraph} {n : NodeId} {l : Local}

/-! ## Courses of construction -/

/-- A request for a fresh local of a class, and the flowgraph before it. -/
structure FreshRequest where
  before : Flowgraph
  cls : String

namespace FreshRequest

/-- The local that the request makes up. -/
def var (r : FreshRequest) : Local := ⟨s!"$fake{r.before.fresh}", .ref r.cls⟩

/-- The node that the request is answered with. -/
def node (c : Context) (r : FreshRequest) : NodeId := (freshVar r.cls c r.before).1

def after (c : Context) (r : FreshRequest) : Flowgraph := (freshVar r.cls c r.before).2

/-- The node of a request is a new one, and no local of the program has it. -/
def IsFresh (c : Context) (r : FreshRequest) (f : Flowgraph) : Prop :=
  r.before.graph.size ≤ r.node c ∧ ∀ l, c.project.program.Mentions l → f.var? l ≠ some (r.node c)

/-- The node of a request is the node of its local only. It is fresh, unless a statement mentions the local. -/
structure Served (c : Context) (r : FreshRequest) (f : Flowgraph) : Prop where
  only : ∀ l, f.var? l = some (r.node c) ↔ l = r.var
  isFresh : r.IsFresh c f ↔ ¬c.project.program.Mentions r.var

end FreshRequest

/-- A change without a request for a fresh local. The locals that get a node, and those of the statements and of the
registrations that are put off, are locals of the program. -/
structure Proceeds (c : Context) (f f' : Flowgraph) : Prop where
  graph : f.graph.Extends f'.graph
  fresh : f'.fresh = f.fresh
  vars : ∀ n l, f'.graph.pointer? n = some (.var l) → f.graph.pointer? n = some (.var l) ∨ c.project.program.Mentions l
  deferred : ∀ d ∈ f'.deferred, d ∈ f.deferred ∨ c.project.program.Knows d.site.locals
  tasks : ∀ t ∈ f'.listeners.tasks, t ∈ f.listeners.tasks ∨ c.project.program.Knows [t.view, t.listener]

/-- The course of a construction, with the requests for fresh locals in their order. -/
inductive Course (c : Context) : List FreshRequest → Flowgraph → Prop
  | start : Course c [] {}
  | request {rs : List FreshRequest} {f : Flowgraph} (h : Course c rs f) (cls : String) :
      Course c (rs ++ [⟨f, cls⟩]) (FreshRequest.after c ⟨f, cls⟩)
  | proceed {rs : List FreshRequest} {f f' : Flowgraph} (h : Course c rs f) (hp : Proceeds c f f') : Course c rs f'

/-! ### One request -/

theorem varNode_of_some (h : f.var? l = some n) : varNode l c f = (n, f) := by
  have hdoes : Does Anyhow c f (varNode l) fun v f' => v = n ∧ f' = f := by
    refine .read rfl ?_
    split
    · rename_i v hv
      exact .pure ⟨Option.some.inj (hv.symm.trans h), rfl⟩
    · rename_i hv
      exact absurd (hv.symm.trans h) (by simp)
  exact Prod.ext hdoes.post.1 hdoes.post.2

theorem varNode_of_none (h : f.var? l = none) :
    varNode l c f = (f.graph.size, { f with graph := f.graph.push (.pointer (.var l)) }) := by
  have hdoes : Does Anyhow c f (varNode l) fun v f' =>
      v = f.graph.size ∧ f' = { f with graph := f.graph.push (.pointer (.var l)) } := by
    refine .read rfl ?_
    split
    · rename_i hv
      exact absurd (hv.symm.trans h) (by simp)
    · exact .of_run rfl trivial ⟨rfl, rfl⟩
  exact Prod.ext hdoes.post.1 hdoes.post.2

theorem pointer?_of_var? (h : f.var? l = some n) : f.graph.pointer? n = some (.var l) := by
  obtain ⟨⟨a, ha, hk⟩, -⟩ := Graph.find?_eq_some.mp h
  rw [Graph.pointer?, ha, Option.bind_some, of_decide_eq_true hk]
  rfl

theorem var?_push (h : f.var? l = none) :
    var? { f with graph := f.graph.push (.pointer (.var l)) } l = some f.graph.size := by
  refine Graph.find?_eq_some.mpr ⟨⟨_, Graph.node?_push.trans (if_pos rfl), by simp⟩, fun m hm a ha => ?_⟩
  rw [Graph.node?_push, if_neg (Nat.ne_of_lt hm)] at ha
  exact Graph.find?_eq_none.mp h m a ha

theorem pointer?_push {g : Graph} {k : NodeKind} (h : (g.push k).pointer? n = some (.var l)) :
    g.pointer? n = some (.var l) ∨ k = .pointer (.var l) := by
  rw [Graph.pointer?, Graph.node?_push] at h
  split at h
  · right
    cases k <;> simp_all [NodeKind.pointer?]
  · exact .inl h

namespace FreshRequest

variable {r r' : FreshRequest}

/-- A request is answered with the node of the local if it has one, else with a new node. -/
theorem cases (c : Context) (r : FreshRequest) :
    r.before.var? r.var = some (r.node c) ∧ r.after c = { r.before with fresh := r.before.fresh + 1 } ∨
    r.before.var? r.var = none ∧ r.node c = r.before.graph.size ∧
      r.after c = { r.before with
        graph := r.before.graph.push (.pointer (.var r.var)), fresh := r.before.fresh + 1 } := by
  cases hv : r.before.var? r.var with
  | some n =>
    have hrun : freshVar r.cls c r.before = (n, { r.before with fresh := r.before.fresh + 1 }) := varNode_of_some hv
    rw [node, after, hrun]
    exact .inl ⟨rfl, rfl⟩
  | none =>
    have hrun : freshVar r.cls c r.before = (r.before.graph.size, { r.before with
        graph := r.before.graph.push (.pointer (.var r.var)), fresh := r.before.fresh + 1 }) := varNode_of_none hv
    rw [node, after, hrun]
    exact .inr ⟨rfl, rfl, rfl⟩

theorem fresh_after : (r.after c).fresh = r.before.fresh + 1 := by
  obtain ⟨-, h⟩ | ⟨-, -, h⟩ := r.cases c <;> rw [h]

theorem extends_after : r.before.graph.Extends (r.after c).graph := by
  obtain ⟨-, h⟩ | ⟨-, -, h⟩ := r.cases c <;> rw [h]
  · exact .refl _
  · exact Graph.push_grows.toExtends

/-- After the request, its local has the node. -/
theorem var?_after : (r.after c).var? r.var = some (r.node c) := by
  obtain ⟨hv, h⟩ | ⟨hv, hn, h⟩ := r.cases c <;> rw [h]
  · exact hv
  · rw [hn]
    exact var?_push (f := { r.before with fresh := r.before.fresh + 1 }) hv

/-- The node is new if the local had none before. -/
theorem size_le_iff : r.before.graph.size ≤ r.node c ↔ r.before.var? r.var = none := by
  obtain ⟨hv, -⟩ | ⟨hv, hn, -⟩ := r.cases c
  · have hlt := Graph.pointer?_lt (pointer?_of_var? hv)
    simp [hv, hlt]
  · simp [hv, hn]

theorem var_inj (h : r.var = r'.var) : r.before.fresh = r'.before.fresh := fresh_inj (congrArg Local.name h)

end FreshRequest

/-! ### All requests -/

/-- What is put off is in the program. -/
structure Pending (c : Context) (f : Flowgraph) : Prop where
  deferred : ∀ d ∈ f.deferred, c.project.program.Knows d.site.locals
  tasks : ∀ t ∈ f.listeners.tasks, c.project.program.Knows [t.view, t.listener]

theorem Pending.after {r : FreshRequest} (h : Pending c r.before) : Pending c (r.after c) := by
  obtain ⟨-, he⟩ | ⟨-, -, he⟩ := r.cases c <;> rw [he] <;> exact ⟨h.deferred, h.tasks⟩

theorem Pending.proceed (h : Pending c f) (hp : Proceeds c f f') : Pending c f' where
  deferred d hd := (hp.deferred d hd).elim (h.deferred d) id
  tasks t ht := (hp.tasks t ht).elim (h.tasks t) id

namespace Course

variable {rs : List FreshRequest} {r : FreshRequest}

theorem pending (h : Course c rs f) : Pending c f := by
  induction h with
  | start => exact ⟨by simp, by simp⟩
  | request _ cls ih => exact ih.after (r := ⟨_, cls⟩)
  | proceed _ hp ih => exact ih.proceed hp

/-- The requests are numbered in their order. -/
theorem numbers (h : Course c rs f) : rs.map (·.before.fresh) = List.range f.fresh := by
  induction h with
  | start => rfl
  | request _ cls ih => rw [List.map_append, ih, FreshRequest.fresh_after, List.range_succ]; rfl
  | proceed _ hp ih => rw [hp.fresh, ih]

theorem lt_fresh (h : Course c rs f) (hr : r ∈ rs) : r.before.fresh < f.fresh := by
  rw [← List.mem_range, ← h.numbers]
  exact List.mem_map_of_mem hr

/-- A local that has a node is in a statement or was made up by a request. -/
theorem vars (h : Course c rs f) (hl : f.graph.pointer? n = some (.var l)) :
    c.project.program.Mentions l ∨ ∃ r ∈ rs, l = r.var := by
  induction h with
  | start => simp [Graph.pointer?, Graph.node?] at hl
  | @request rs f h cls ih =>
    have hold : f.graph.pointer? n = some (.var l) →
        c.project.program.Mentions l ∨ ∃ r ∈ rs ++ [⟨f, cls⟩], l = r.var := by
      intro hl
      refine (ih hl).imp_right fun hr => ?_
      obtain ⟨r, hr, he⟩ := hr
      exact ⟨r, List.mem_append_left _ hr, he⟩
    obtain ⟨-, he⟩ | ⟨-, -, he⟩ := FreshRequest.cases c ⟨f, cls⟩ <;> rw [he] at hl
    · exact hold hl
    · rcases pointer?_push hl with hl | hl
      · exact hold hl
      · cases hl
        exact .inr ⟨⟨f, cls⟩, List.mem_append_right _ List.mem_cons_self, rfl⟩
  | proceed _ hp ih => exact (hp.vars n l hl).elim ih .inl

/-- A request was made on the way, and no node is lost after it. -/
theorem of_mem (h : Course c rs f) (hr : r ∈ rs) :
    (∃ rs', Course c rs' r.before) ∧ (r.after c).graph.Extends f.graph := by
  induction h with
  | start => cases hr
  | request h cls ih =>
    rcases List.mem_append.mp hr with hr | hr
    · exact (ih hr).imp_right fun hext => hext.trans (FreshRequest.extends_after (r := ⟨_, cls⟩))
    · obtain rfl := List.mem_singleton.mp hr
      exact ⟨⟨_, h⟩, .refl _⟩
  | proceed _ hp ih => exact (ih hr).imp_right fun hext => hext.trans hp.graph

/-- The node of a request is the node of its local, and of no other local. -/
theorem var?_iff (h : Course c rs f) (hr : r ∈ rs) (hext : f.graph.Extends f'.graph) :
    f'.var? l = some (r.node c) ↔ l = r.var := by
  have hvar : f'.var? r.var = some (r.node c) := var?_mono ((h.of_mem hr).2.trans hext) FreshRequest.var?_after
  constructor
  · intro hl
    have hp := pointer?_of_var? hl
    rw [pointer?_of_var? hvar] at hp
    simpa using hp.symm
  · rintro rfl
    exact hvar

/-- No two requests are answered with one node. -/
theorem nodup (h : Course c rs f) : (rs.map (FreshRequest.node c)).Nodup := by
  have hlt : rs.Pairwise fun r r' => r.before.fresh < r'.before.fresh := by
    rw [← List.pairwise_map, h.numbers]
    exact List.pairwise_lt_range
  refine List.pairwise_map.mpr (hlt.imp_of_mem fun {r r'} hr hr' hlt he => ?_)
  have hvar := (h.var?_iff hr (.refl _)).mpr rfl
  rw [he, h.var?_iff hr' (.refl _)] at hvar
  exact Nat.ne_of_lt hlt (FreshRequest.var_inj hvar)

/-- **The node of a request is new and stays its own, unless a statement mentions the local.** -/
theorem isFresh_iff (h : Course c rs f) (hr : r ∈ rs) (hext : f.graph.Extends f'.graph) :
    r.IsFresh c f' ↔ ¬c.project.program.Mentions r.var := by
  constructor
  · intro hfresh hm
    exact hfresh.2 r.var hm ((h.var?_iff hr hext).mpr rfl)
  · intro hm
    refine ⟨FreshRequest.size_le_iff.mpr (Option.eq_none_iff_forall_ne_some.mpr fun n hn => ?_), fun l hl he => ?_⟩
    · -- a node from before would belong to a local of the program or to an earlier request
      obtain ⟨rs', hbefore⟩ := (h.of_mem hr).1
      rcases hbefore.vars (pointer?_of_var? hn) with hl | ⟨r', hr', he⟩
      · exact hm hl
      · exact Nat.ne_of_gt (hbefore.lt_fresh hr') (FreshRequest.var_inj he)
    · obtain rfl := (h.var?_iff hr hext).mp he
      exact hm hl

theorem served (h : Course c rs f) (hr : r ∈ rs) (hext : f.graph.Extends f'.graph) : r.Served c f' :=
  ⟨fun _ => h.var?_iff hr hext, h.isFresh_iff hr hext⟩

end Course

/-! ## Actions of a construction -/

/-- A construction can come to the flowgraph. -/
def Underway (c : Context) (f : Flowgraph) : Prop := ∃ rs, Course c rs f

def Stays (c : Context) (f f' : Flowgraph) : Prop := Underway c f → Underway c f'

instance : IsPreorder Flowgraph (Stays c) where
  refl _ := id
  trans _ _ _ h h' := h' ∘ h

theorem Proceeds.stays (h : Proceeds c f f') : Stays c f f' := fun ⟨rs, hf⟩ => ⟨rs, hf.proceed h⟩

/-- The action is part of a construction. -/
structure Tame (c : Context) (x : Edit α) : Prop where
  does : ∀ f, Underway c f → Does (Stays c) c f x fun _ _ => True

/-- The action is part of a construction, whether it fails or not. -/
structure Tamed (c : Context) (x : Build α) : Prop where
  tries : ∀ f, Underway c f → Tries (Stays c) Eq c f x fun _ _ => True

namespace Tame

variable {x : Edit α}

theorem pure {a : α} : Tame c (Pure.pure a : Edit α) := ⟨fun _ _ => .pure trivial⟩

theorem bind {k : α → Edit β} (hx : Tame c x) (hk : ∀ a, Tame c (k a)) : Tame c (x >>= k) :=
  ⟨fun f hf => .bind (hx.does f hf) fun a f' h _ => (hk a).does f' (h hf)⟩

theorem map {g : α → β} (hx : Tame c x) : Tame c (g <$> x) := ⟨fun f hf => .map (hx.does f hf)⟩

theorem discard (hx : Tame c x) : Tame c (discard x) := ⟨fun f hf => (hx.does f hf).discard.any⟩

theorem each {g : α → Edit PUnit} {l : List α} (hg : ∀ a ∈ l, Tame c (g a)) : Tame c (l.forM g) :=
  ⟨fun _ hf => .each fun a ha f' h => (hg a ha).does f' (h hf)⟩

theorem foldlM {g : β → α → Edit β} {l : List α} {b : β} (hg : ∀ b, ∀ a ∈ l, Tame c (g b a)) :
    Tame c (l.foldlM g b) :=
  ⟨fun _ hf => .foldlM trivial fun b a ha f' h _ => (hg b a ha).does f' (h hf)⟩

theorem mapM {g : α → Edit β} {l : List α} (hg : ∀ a ∈ l, Tame c (g a)) : Tame c (l.mapM g) :=
  ⟨fun _ hf => (Does.mapM (fun _ _ _ _ h => h) fun a ha f' h => (hg a ha).does f' (h hf)).any⟩

theorem filterMapM {g : α → Edit (Option β)} {l : List α} (hg : ∀ a ∈ l, Tame c (g a)) : Tame c (l.filterMapM g) :=
  ⟨fun _ hf => (Does.filterMapM (P := fun _ _ => True) (fun _ _ _ _ h => h) fun a ha f' h =>
    ((hg a ha).does f' (h hf)).imp fun _ _ _ _ _ _ => trivial).any⟩

theorem program {k : Program → Edit β} (hk : Tame c (k c.project.program)) : Tame c (Flowgraph.program >>= k) :=
  ⟨fun f hf => .read rfl (hk.does f hf)⟩

theorem read {k : Context → Edit β} (hk : Tame c (k c)) : Tame c (MonadReader.read >>= k) :=
  ⟨fun f hf => .read rfl (hk.does f hf)⟩

theorem get {k : Flowgraph → Edit β} (hk : ∀ f, Pending c f → Tame c (k f)) : Tame c (MonadState.get >>= k) :=
  ⟨fun f hf => .read rfl ((hk f (hf.elim fun _ h => h.pending)).does f hf)⟩

theorem graph {k : Graph → Edit β} (hk : ∀ g, Tame c (k g)) : Tame c (getGraph >>= k) :=
  ⟨fun f hf => .read rfl ((hk f.graph).does f hf)⟩

end Tame

namespace Tamed

variable {x : Build α}

theorem pure {a : α} : Tamed c (Pure.pure a : Build α) := ⟨fun _ _ => .pure trivial⟩

theorem bind {k : α → Build β} (hx : Tamed c x) (hk : ∀ a, Tamed c (k a)) : Tamed c (x >>= k) :=
  ⟨fun f hf => .bind (hx.tries f hf) fun a f' h _ => (hk a).tries f' (h hf)⟩

theorem lift {x : Edit α} (hx : Tame c x) : Tamed c (liftM x : Build α) := ⟨fun f hf => .lift (hx.does f hf)⟩

theorem liftBind {x : Edit α} {k : α → Build β} (hx : Tame c x) (hk : ∀ a, Tamed c (k a)) :
    Tamed c ((liftM x : Build α) >>= k) :=
  .bind (.lift hx) hk

theorem ite {p : Prop} [Decidable p] {y : Build α} (hx : Tamed c x) (hy : Tamed c y) :
    Tamed c (if p then x else y) := by
  split
  · exact hx
  · exact hy

theorem each {g : α → Build PUnit} {l : List α} (hg : ∀ a ∈ l, Tamed c (g a)) : Tamed c (l.forM g) :=
  ⟨fun _ hf => .each fun a ha f' h => (hg a ha).tries f' (h hf)⟩

theorem program {k : Program → Build β} (hk : Tamed c (k c.project.program)) :
    Tamed c ((liftM Flowgraph.program : Build Program) >>= k) :=
  ⟨fun f hf => .read rfl (hk.tries f hf)⟩

theorem read {k : Context → Build β} (hk : Tamed c (k c)) : Tamed c (MonadReader.read >>= k) :=
  ⟨fun f hf => .read rfl (hk.tries f hf)⟩

theorem get {k : Flowgraph → Build β} (hk : ∀ f, Pending c f → Tamed c (k f)) : Tamed c (MonadState.get >>= k) :=
  ⟨fun f hf => .read rfl ((hk f (hf.elim fun _ h => h.pending)).tries f hf)⟩

theorem graph {k : Graph → Build β} (hk : ∀ g, Tamed c (k g)) : Tamed c ((liftM getGraph : Build Graph) >>= k) :=
  ⟨fun f hf => .read rfl ((hk f.graph).tries f hf)⟩

end Tamed

/-! ### Single changes -/

/-- A change beside the graph that puts nothing off. -/
theorem Proceeds.of_eq (h : (f'.graph, f'.fresh, f'.deferred, f'.listeners.tasks) =
    (f.graph, f.fresh, f.deferred, f.listeners.tasks)) : Proceeds c f f' := by
  simp only [Prod.mk.injEq] at h
  obtain ⟨hg, hf, hd, ht⟩ := h
  exact ⟨hg ▸ .refl _, hf, fun n l hl => .inl (hg ▸ hl), fun d h => .inl (hd ▸ h), fun t h => .inl (ht ▸ h)⟩

/-- A larger graph. -/
theorem proceeds_graph {g : Graph} (hg : f.graph.Extends g) (hv : ∀ n l, g.pointer? n = some (.var l) →
    f.graph.pointer? n = some (.var l) ∨ c.project.program.Mentions l) : Proceeds c f { f with graph := g } :=
  ⟨hg, rfl, hv, fun _ h => .inl h, fun _ h => .inl h⟩

theorem modify_tame {g : Flowgraph → Flowgraph} (h : ∀ f, Proceeds c f (g f)) : Tame c (modify g) :=
  ⟨fun f _ => .of_run rfl (h f).stays trivial⟩

theorem modify_tamed {g : Flowgraph → Flowgraph} (h : ∀ f, Proceeds c f (g f)) : Tamed c (modify g) :=
  ⟨fun f _ => .of_ok rfl (h f).stays trivial⟩

theorem logEntry_tame {level : Log.Level} {text : String} {l : Option Label} : Tame c (logEntry level text l) :=
  modify_tame fun _ => .of_eq rfl

theorem remark_tame {r : Remark} {l : Option Label} : Tame c (remark r l) := logEntry_tame

theorem updateDialog_tame {g : DialogRecord → DialogRecord} : Tame c (updateDialog n g) :=
  modify_tame fun _ => .of_eq rfl

theorem updateListeners_tame {g : Listeners → Listeners}
    (h : ∀ ls, ∀ t ∈ (g ls).tasks, t ∈ ls.tasks ∨ c.project.program.Knows [t.view, t.listener]) :
    Tame c (updateListeners g) :=
  modify_tame fun f => ⟨.refl _, rfl, fun _ _ hl => .inl hl, fun _ h => .inl h, h f.listeners⟩

theorem bindHandlers_tame {op : NodeId} {signatures : List String} : Tame c (bindHandlers op signatures) :=
  updateListeners_tame fun _ _ h => .inl h

theorem defer_tame {role : Role} {site : Site} (h : c.project.program.Knows site.locals) :
    Tame c (defer role site) := by
  refine modify_tame fun f => ⟨.refl _, rfl, fun _ _ hl => .inl hl, fun d hd => ?_, fun _ h => .inl h⟩
  rcases List.mem_append.mp hd with hd | hd
  · exact .inl hd
  · obtain rfl := List.mem_singleton.mp hd
    exact .inr h

theorem report_tamed {v : Violation} {l : Option Label} : Tamed c (report v l) := by
  refine ⟨fun f hf => .read rfl ?_⟩
  split
  · exact .of_error rfl (refl_of (Stays c) f) rfl
  · exact .lift (logEntry_tame.does f hf)

theorem addNode_tame {k : NodeKind} (hk : ∀ l, k = .pointer (.var l) → c.project.program.Mentions l) :
    Tame c (addNode k) := by
  refine ⟨fun _ _ => .of_run rfl (proceeds_graph Graph.push_grows.toExtends fun n l hl => ?_).stays trivial⟩
  exact (pointer?_push hl).imp_right (hk l)

theorem addObject_tame {o : Obj} : Tame c (addNode (.object o)) := addNode_tame nofun

theorem addEdge_tame {src dst : NodeId} {l : Option Label} : Tame c (addEdge src dst l) :=
  ⟨fun _ _ => .of_run rfl (proceeds_graph Graph.connect_grows.toExtends fun _ _ hl => .inl hl).stays trivial⟩

theorem addOp_tame {k : OpKind} {site : CallSite} {r p s : Option NodeId} : Tame c (addOp k site r p s) := by
  refine ⟨fun _ _ => .of_run rfl (proceeds_graph Graph.pushOp_grows.toExtends fun n l hl => ?_).stays trivial⟩
  rw [Graph.pointer?, Graph.node?_pushOp] at hl
  rcases pointer?_push hl with hl | hl
  · exact .inl hl
  · cases hl

theorem updateNode_tame {g : Node → Node} (hg : ∀ a : Node, a.kind.Alike (g a).kind) : Tame c (updateNode n g) := by
  have hext : ∀ f : Flowgraph, f.graph.Extends (f.graph.modify n g) := fun _ => Graph.modify_extends hg
  refine ⟨fun f _ => .of_run rfl (proceeds_graph (hext f) fun m l hl => .inl ?_).stays trivial⟩
  rw [← (hext f).pointer?_of_lt (by simpa using Graph.pointer?_lt hl)]
  exact hl

theorem freshVar_tame {cls : String} : Tame c (freshVar cls) :=
  ⟨fun _ _ => .of_run rfl (fun ⟨_, h⟩ => ⟨_, h.request cls⟩) trivial⟩

/-! ### Nodes -/

theorem intern_tame {p : NodeKind → Bool} {k : NodeKind}
    (hk : ∀ l, k = .pointer (.var l) → c.project.program.Mentions l) : Tame c (intern p k) := by
  refine .graph fun g => ?_
  split
  · exact .pure
  · exact addNode_tame hk

theorem varNode_tame (h : c.project.program.Mentions l) : Tame c (varNode l) :=
  intern_tame fun _ he => by cases he; exact h

theorem fieldNode_tame {field : Field} : Tame c (fieldNode field) := intern_tame nofun

theorem resources_tame : Tame c resources := ⟨fun f _ => .of_run rfl (refl_of (Stays c) f) trivial⟩

theorem idNode_tame {space : IdSpace} {value : Int} : Tame c (idNode space value) :=
  resources_tame.bind fun _ => intern_tame nofun

theorem knownIdNode_tame {value : Int} : Tame c (knownIdNode value) := by
  refine resources_tame.bind fun r => ?_
  split
  · exact .map idNode_tame
  · exact .pure

theorem systemLayoutNode_tame {name : String} : Tame c (systemLayoutNode name) := by
  refine resources_tame.bind fun r => ?_
  split
  · exact .map idNode_tame
  · exact .pure

theorem systemWidgetNode_tame {name : String} : Tame c (systemWidgetNode name) := by
  refine resources_tame.bind fun r => ?_
  split
  · exact .map idNode_tame
  · exact .pure

theorem widgetIdNode_tame {value : Int} : Tame c (widgetIdNode value) := resources_tame.bind fun _ => idNode_tame

theorem createIdNodes_tame : Tame c createIdNodes :=
  resources_tame.bind fun _ => .each fun _ _ => .each fun _ _ => .discard idNode_tame

theorem stringNode_tame {s : String} : Tame c (stringNode s) := intern_tame nofun

theorem activityNode_tame {cls : String} : Tame c (activityNode cls) := intern_tame nofun

theorem valueNode_tame {v : Value} (h : c.project.program.Knows v.locals) : Tame c (valueNode v) := by
  cases v with
  | var l => exact .map (varNode_tame (Program.knows_var.mp h))
  | int n => exact knownIdNode_tame
  | str s => exact .map stringNode_tame
  | null | other => exact .pure

theorem valueNode?_tame {o : Option Value} (h : ∀ v, o = some v → c.project.program.Knows v.locals) :
    Tame c (valueNode? o) := by
  cases o with
  | some v => exact valueNode_tame (h v rfl)
  | none => exact .pure

theorem flowTo_tame {label : Option Label} (h : c.project.program.Mentions l) : Tame c (flowTo n l label) :=
  (varNode_tame h).bind fun _ => addEdge_tame

theorem flowToThis_tame {m : Method} (hm : m ∈ c.project.program.methods) : Tame c (flowToThis n m) := by
  unfold flowToThis
  split
  · exact .discard (flowTo_tame (Program.mentions_this hm ‹_›))
  · exact .pure

theorem flowToParam_tame {m : Method} {i : Nat} {label : Option Label} (hm : m ∈ c.project.program.methods) :
    Tame c (flowToParam n m i label) := by
  unfold flowToParam
  split
  · exact .discard (flowTo_tame (Program.mentions_param hm ‹_›))
  · exact .pure

theorem objectsReaching_tame (h : c.project.program.Mentions l) : Tame c (objectsReaching l) :=
  (varNode_tame h).bind fun _ => .graph fun _ => .pure

theorem objectsReaching?_tame {o : Option Local} (h : ∀ l, o = some l → c.project.program.Mentions l) :
    Tame c (objectsReaching? o) := by
  cases o with
  | some l => exact objectsReaching_tame (h l rfl)
  | none => exact .pure

end Flowgraph

end WidgetFlow
