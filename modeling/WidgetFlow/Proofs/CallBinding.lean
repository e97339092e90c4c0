import WidgetFlow.Proofs.Solving
import WidgetFlow.Proofs.Verdicts

/-!
# Ordinary calls are bound to all methods that they can run

A call that no recogniser takes for an operation can run methods of the application. Which ones it can run is said by
the class hierarchy (`Program.Dispatches`). In a built flowgraph, receiver, arguments and result of such a call are
connected to those of every method that it can run (`ordinary_calls_bound`).

* `Dispatches.eq_of_signature`: callees are kept by signature, and none replaces another;
* `bindCall_binds`: what the binding of a call to one method connects;
* `construct_bound`: the calls of all statements are bound, and nothing that comes later undoes it.
-/

namespace WidgetFlow

open Std

/-! ## Dispatch -/

/-- The class whose objects a call can have as receiver. -/
def Call.receiverClass (call : Call) : String := (call.receiver.bind (·.ty.className?)).getD call.target.owner

namespace Program

variable {p : Program} {call : Call} {m m' : Method}

/-- Classes are stored under their names, and methods name their class. -/
structure WellNamed (p : Program) : Prop where
  name : ∀ name k, p.class? name = some k → k.name = name
  owner : ∀ name k, p.class? name = some k → ∀ m ∈ k.methods, m.owner = k.name

theorem WellNamed.owner_eq {name : String} {k : Class} (hp : p.WellNamed) (hk : p.class? name = some k)
    (hm : m ∈ k.methods) : m.owner = name :=
  (hp.owner name k hk m hm).trans (hp.name name k hk)

/-- A call can run a method. A virtual call runs the method of some concrete subtype of the receiver's class, and any
other call runs the method that it names. -/
inductive Dispatches (p : Program) (call : Call) (m : Method) : Prop
  | virtual {k : Class} (hv : call.isVirtual = true) (hk : k ∈ p.concreteSubtypes call.receiverClass)
      (hm : p.resolveVirtual k.name call.target.subSignature = some m)
  | direct (hv : call.isVirtual = false) (hm : p.resolveSpecial call.target.owner call.target.subSignature = some m)

/-- The method is declared in a class of the program, with the name and the parameters of the call. -/
theorem Dispatches.declared (h : p.Dispatches call m) :
    ∃ name k, p.class? name = some k ∧ k.declared? call.target.subSignature = some m := by
  cases h with
  | virtual _ _ hm =>
    obtain ⟨k, hk, hm⟩ := List.exists_of_findSome?_eq_some hm
    obtain ⟨name, _, hn⟩ := List.mem_filterMap.mp hk
    exact ⟨name, k, hn, (Option.filter_eq_some_iff.mp hm).1⟩
  | direct _ hm =>
    obtain ⟨k, hk, hm⟩ := List.exists_of_findSome?_eq_some hm
    obtain ⟨name, _, hn⟩ := List.mem_filterMap.mp hk
    exact ⟨name, k, hn, hm⟩

theorem subSignature_of_declared? {k : Class} {sub : String} (h : k.declared? sub = some m) : m.subSignature = sub := by
  have heq := List.find?_some h
  exact beq_iff_eq.mp heq

theorem owner_of_signature (hs : m.signature = m'.signature) (hsub : m.subSignature = m'.subSignature) :
    m.owner = m'.owner := by
  have htext : ∀ k : Method, k.signature = "<" ++ (k.owner ++ (": " ++ k.subSignature ++ ">")) := by
    intro k
    rw [← String.append_assoc, ← String.append_assoc, ← String.append_assoc]
    rfl
  rw [htext, htext, hsub, String.append_right_inj, String.append_left_inj] at hs
  exact hs

/-- **The methods of a call are told apart by their signatures.** -/
theorem Dispatches.eq_of_signature (hp : p.WellNamed) (h : p.Dispatches call m) (h' : p.Dispatches call m')
    (hs : m.signature = m'.signature) : m = m' := by
  obtain ⟨name, k, hk, hm⟩ := h.declared
  obtain ⟨name', k', hk', hm'⟩ := h'.declared
  have hsub : m.subSignature = m'.subSignature :=
    (subSignature_of_declared? hm).trans (subSignature_of_declared? hm').symm
  have hname : name = name' := by
    rw [← hp.owner_eq hk (List.mem_of_find?_eq_some hm), ← hp.owner_eq hk' (List.mem_of_find?_eq_some hm')]
    exact owner_of_signature hs hsub
  subst hname
  rw [hk] at hk'
  cases hk'
  rw [hm] at hm'
  exact Option.some.inj hm'

theorem WellNamed.application (hp : p.WellNamed) (hm : m ∈ p.applicationMethods) :
    m.isConcrete = true ∧ p.isApplication m.owner = true := by
  obtain ⟨hm, hconcrete⟩ := List.mem_filter.mp hm
  obtain ⟨k, hk, hm⟩ := List.mem_flatMap.mp hm
  obtain ⟨hk, happlication⟩ := List.mem_filter.mp hk
  obtain ⟨⟨name, k⟩, hentry, rfl⟩ := List.mem_map.mp hk
  have hclass : p.class? name = some k := ExtTreeMap.mem_toList_iff_getElem?_eq_some.mp hentry
  refine ⟨hconcrete, ?_⟩
  rw [hp.owner_eq hclass hm, isApplication, hclass]
  exact happlication

end Program

namespace Flowgraph

variable {α β : Type} {c : Context} {f f' : Flowgraph} {site : Site} {call : Call} {m : Method}

/-- **The methods of the application that a call can run are its callees.** -/
theorem mem_callees {p : Program} (hp : p.WellNamed) (hd : p.Dispatches call m) (hm : m ∈ p.applicationMethods) :
    (m.signature, m) ∈ (callees p call).toList := by
  unfold callees
  extract_lets sub cls methods
  have hmethods : ∀ k, k ∈ methods ↔ p.Dispatches call k := by
    intro k
    dsimp only [methods]
    split
    · rename_i hv
      refine List.mem_filterMap.trans ⟨fun ⟨d, hd, hk⟩ => .virtual hv hd hk, fun h => ?_⟩
      cases h with
      | virtual _ hd hk => exact ⟨_, hd, hk⟩
      | direct hv' => rw [hv] at hv'; cases hv'
    · rename_i hv
      refine Option.mem_toList.trans ⟨fun h => .direct (Bool.eq_false_iff.mpr hv) h, fun h => ?_⟩
      cases h with
      | virtual hv' => exact absurd hv' hv
      | direct _ hk => exact hk
  rw [ExtTreeMap.mem_toList_iff_getElem?_eq_some, ExtTreeMap.getElem?_filter', Option.filter_eq_some_iff]
  refine ⟨Container.getElem?_ofList_of_unique ?_ fun k hk => ?_, ?_⟩
  · exact List.mem_map_of_mem ((hmethods m).mpr hd)
  · obtain ⟨k', hk', he⟩ := List.mem_map.mp hk
    obtain ⟨hs, rfl⟩ := Prod.mk.inj he
    exact ((hmethods k').mp hk').eq_of_signature hp hd hs
  · rw [Bool.and_eq_true]
    exact hp.application hm

/-! ## Values that flow -/

/-- A property that is not lost when the graph grows. -/
def Lasting (S : Flowgraph → Prop) : Prop := ∀ f f', f.graph.Extends f'.graph → S f → S f'

theorem Lasting.all {ι : Type} {S : ι → Flowgraph → Prop} (h : ∀ i, Lasting (S i)) : Lasting fun f => ∀ i, S i f :=
  fun f f' hg hf i => h i f f' hg (hf i)

theorem Lasting.given {S : Flowgraph → Prop} {P : Prop} (h : Lasting S) : Lasting fun f => P → S f :=
  fun f f' hg hf hP => h f f' hg (hf hP)

/-- The node of a value, if there is one. -/
def nodeOf? (r : Resources) (f : Flowgraph) : Value → Option NodeId
  | .var l => f.var? l
  | .int n => (r.classify? n).bind fun space => f.graph.find? (isIdOf space n)
  | .str t => f.graph.find? (· = .object (.string t))
  | .null | .other _ => none

/-- Locals and texts have nodes, and so have numbers that are known ids. -/
def hasNode (r : Resources) : Value → Bool
  | .var _ | .str _ => true
  | .int n => (r.classify? n).isSome
  | .null | .other _ => false

/-- A value flows into a local. -/
def Flows (r : Resources) (f : Flowgraph) (v : Value) (l : Local) : Prop :=
  ∃ n t, f.nodeOf? r v = some n ∧ f.var? l = some t ∧ Arc.mk n t ∈ f.graph.flow

theorem nodeOf?_mono {r : Resources} {v : Value} {n : NodeId} (hg : f.graph.Extends f'.graph)
    (h : f.nodeOf? r v = some n) : f'.nodeOf? r v = some n := by
  cases v with
  | var l => exact var?_mono hg h
  | int k =>
    obtain ⟨space, hspace, hn⟩ := Option.bind_eq_some_iff.mp h
    refine Option.bind_eq_some_iff.mpr ⟨space, hspace, hg.find? (fun k k' hk => ?_) hn⟩
    cases hk <;> rfl
  | str t =>
    have hn : f.graph.find? (· = .object (.string t)) = some n := h
    refine hg.find? (fun k k' hk => ?_) hn
    cases hk <;> simp
  | null | other => cases h

theorem flows_lasting {r : Resources} {v : Value} {l : Local} : Lasting fun f => f.Flows r v l := by
  rintro f f' hg ⟨n, t, hn, ht, ha⟩
  exact ⟨n, t, nodeOf?_mono hg hn, var?_mono hg ht, hg.mem_flow ha⟩

/-- The node of a value was looked up, and made if there was none. -/
structure FoundValue (r : Resources) (v : Value) (f : Flowgraph) (o : Option NodeId) (f' : Flowgraph) : Prop where
  isArg : SomeIn Graph.IsArg o f'
  eq : o = f'.nodeOf? r v
  found : hasNode r v = true → o ≠ none
  flow : f'.graph.flow = f.graph.flow

theorem valueNode_does {v : Value} :
    Does (Edits Plain) c f (valueNode v) (FoundValue c.project.resources v f) := by
  cases v with
  | var l =>
    refine .map ((varNode_does plain_pointer).imp fun n f' _ h => ?_)
    exact ⟨.some h.isVar.isArg, h.first.symm, nofun, h.flow⟩
  | int k =>
    refine .read rfl ?_
    cases hspace : c.project.resources.classify? k with
    | some space =>
      refine .map ((idNode_does plain_id).imp fun n f' _ h => ?_)
      refine ⟨.some h.isArg_of_id, ?_, nofun, h.flow⟩
      rw [nodeOf?, hspace]
      exact h.first.symm
    | none =>
      refine .pure ⟨.none, ?_, fun hnode => ?_, rfl⟩
      · rw [nodeOf?, hspace]
        rfl
      · rw [hasNode, hspace] at hnode
        cases hnode
  | str t =>
    refine .map ((stringNode_does (U := Plain) rfl).imp fun n f' _ h => ?_)
    obtain ⟨a, ha, hk⟩ := h.node_eq
    exact ⟨.some (Graph.isArg_of_string ha hk), h.first.symm, nofun, h.flow⟩
  | null | other => exact .pure ⟨.none, rfl, nofun, rfl⟩

theorem valueNode_finds {v : Value} : Makes c f (valueNode v) (FoundValue c.project.resources v f) :=
  .of_edits fun _ => valueNode_does

theorem flowTo_arrives {x : NodeId} {l : Local} {lab : Option Label} (hx : f.graph.IsValue x) :
    Makes c f (flowTo x l lab) fun _ f' => ∃ t, f'.var? l = some t ∧ Arc.mk x t ∈ f'.graph.flow := by
  refine .of_edits fun _ => .bind (varNode_does plain_pointer) fun t f₁ h₁ ht => ?_
  refine (addEdge_does (h₁.grows.toExtends.isValue hx) ht.isVar.isPointer).imp fun _ f₂ h₂ hconnected => ?_
  exact ⟨t, h₂.var? ht.first, hconnected.flow⟩

theorem flowValue_flows {v : Value} {l : Local} : Makes c f (flowValue v l site) fun _ f' =>
    hasNode c.project.resources v = true → f'.Flows c.project.resources v l := by
  refine ⟨fun hf => .bind (valueNode_finds.run hf) fun o f₁ h₁ ho => ?_⟩
  obtain ⟨harg, hnode, hsome, -⟩ := ho
  cases o with
  | none => exact .pure fun h => absurd rfl (hsome h)
  | some n =>
    refine ((flowTo_arrives (harg n rfl).isValue).run (h₁.valid hf)).discard.imp fun _ f₂ h₂ ⟨_, t, ht, ha⟩ _ => ?_
    exact ⟨n, t, nodeOf?_mono h₂.graph hnode.symm, ht, ha⟩

/-! ## Two edits and loops -/

/-- Both edits reach something that lasts. -/
theorem Makes.both {x : Edit α} {k : α → Edit β} {S T : Flowgraph → Prop} (hS : Lasting S)
    (hx : Makes c f x fun _ f' => S f') (hk : ∀ a f', Makes c f' (k a) fun _ f'' => T f'') :
    Makes c f (x >>= k) fun _ f' => S f' ∧ T f' :=
  ⟨fun hf => .bind (hx.run hf) fun a f₁ h₁ hs =>
    ((hk a f₁).run (h₁.valid hf)).imp fun _ f₂ h₂ ht => ⟨hS f₁ f₂ h₂.graph hs, ht⟩⟩

/-- Each turn reaches something that lasts. -/
theorem Makes.forM {g : α → Edit PUnit} {l : List α} {S : α → Flowgraph → Prop} (hS : ∀ a, Lasting (S a))
    (h : ∀ a ∈ l, ∀ f', Makes c f' (g a) fun _ f'' => S a f'') : Makes c f (l.forM g) fun _ f' => ∀ a ∈ l, S a f' :=
  ⟨fun hf => .forM (fun a _ f₁ f₂ h₂ => hS a f₁ f₂ h₂.graph) fun a ha f₁ h₁ => (h a ha f₁).run (h₁.valid hf)⟩

theorem Builds.forM {g : α → Build PUnit} {l : List α} {S : α → Flowgraph → Prop} (hS : ∀ a, Lasting (S a))
    (h : ∀ a ∈ l, ∀ f', Builds c f' (g a) fun _ f'' => S a f'') : Builds c f (l.forM g) fun _ f' => ∀ a ∈ l, S a f' :=
  ⟨fun hf => .forM (fun a _ f₁ f₂ h₂ => hS a f₁ f₂ h₂.graph) fun a ha f₁ h₁ => (h a ha f₁).run (h₁.valid hf)⟩

theorem Builds.imp {x : Build α} {Q Q' : α → Flowgraph → Prop} (h : Builds c f x Q) (hQ : ∀ a f', Q a f' → Q' a f') :
    Builds c f x Q' :=
  ⟨fun hf => (h.run hf).imp fun a t _ => hQ a t⟩

/-- What follows keeps what was reached. -/
theorem Builds.keep {x : Build α} {k : α → Build β} {S : Flowgraph → Prop} (hS : Lasting S)
    (hx : Builds c f x fun _ f' => S f') (hk : ∀ a f', Builds c f' (k a) fun _ _ => True) :
    Builds c f (x >>= k) fun _ f' => S f' :=
  ⟨fun hf => .bind (hx.run hf) fun a f₁ h₁ hs =>
    ((hk a f₁).run (h₁.valid hf)).imp fun _ f₂ h₂ _ => hS f₁ f₂ h₂.graph hs⟩

/-! ## Calls -/

/-- Receiver, arguments and result of a call are connected to those of a method. -/
structure Binds (r : Resources) (site : Site) (call : Call) (m : Method) (f : Flowgraph) : Prop where
  receiver : ∀ x this, call.receiver = some x → m.this? = some this → this.ty.isTracked = true → f.Flows r (.var x) this
  args : ∀ i v l, call.args[i]? = some v → m.param? i = some l → l.ty.isTracked = true → hasNode r v = true →
    f.Flows r v l
  result : ∀ l v, site.result? = some l → l.ty.isTracked = true → v ∈ m.returns → hasNode r v = true → f.Flows r v l

theorem binds_lasting {r : Resources} : Lasting (Binds r site call m) := fun f f' hg h =>
  ⟨fun x this hx hthis ht => flows_lasting f f' hg (h.receiver x this hx hthis ht),
    fun i v l hv hl ht hn => flows_lasting f f' hg (h.args i v l hv hl ht hn),
    fun l v hl ht hv hn => flows_lasting f f' hg (h.result l v hl ht hv hn)⟩

/-- An edit for a local of a tracked type. -/
theorem Makes.tracked {o : Option Local} {g : Local → Edit Unit} {S : Local → Flowgraph → Prop}
    (h : ∀ l, Makes c f (g l) fun _ f' => S l f') :
    Makes c f (match o.filter (·.ty.isTracked) with
      | some l => g l
      | none => Pure.pure ()) fun _ f' => ∀ l, o = some l → l.ty.isTracked = true → S l f' := by
  split
  · rename_i l hl
    obtain ⟨ho, -⟩ := Option.filter_eq_some_iff.mp hl
    refine (h l).imp fun _ f' hs l' hl' _ => ?_
    obtain rfl : l = l' := Option.some.inj (ho.symm.trans hl')
    exact hs
  · rename_i hnone
    refine .pure fun l hl ht => ?_
    have hsome : o.filter (·.ty.isTracked) = some l := Option.filter_eq_some_iff.mpr ⟨hl, ht⟩
    rw [hnone] at hsome
    cases hsome

/-- Arguments and result of a call are connected to those of a method. -/
structure BindsRest (r : Resources) (site : Site) (call : Call) (m : Method) (f : Flowgraph) : Prop where
  args : ∀ a ∈ call.args.zipIdx, ∀ l, m.param? a.2 = some l → l.ty.isTracked = true → hasNode r a.1 = true →
    f.Flows r a.1 l
  result : ∀ l, site.result? = some l → l.ty.isTracked = true → ∀ v ∈ m.returns, hasNode r v = true → f.Flows r v l

theorem BindsRest.binds {r : Resources} (h : BindsRest r site call m f)
    (hr : ∀ x this, call.receiver = some x → m.this? = some this → this.ty.isTracked = true → f.Flows r (.var x) this) :
    Binds r site call m f where
  receiver := hr
  args i v l hv := h.args (v, i) (List.mk_mem_zipIdx_iff_getElem?.mpr hv) l
  result l v hl ht hv := h.result l hl ht v hv

theorem bindRest_flows : Makes c f (do
      call.args.zipIdx.forM fun (arg, i) => do
        match (m.param? i).filter (·.ty.isTracked) with
        | some formal => flowValue arg formal site
        | none => return ()
      match site.result?.filter (·.ty.isTracked) with
      | some lhs => m.returns.forM fun v => flowValue v lhs site
      | none => return ()) fun _ f' => BindsRest c.project.resources site call m f' := by
  have hargs : ∀ a : Value × Nat, Lasting fun f => ∀ l, m.param? a.2 = some l → l.ty.isTracked = true →
      hasNode c.project.resources a.1 = true → f.Flows c.project.resources a.1 l := fun a =>
    .all fun l => .given (.given (.given flows_lasting))
  refine (Makes.both (.all fun a => .given (hargs a)) (.forM hargs fun a _ f₁ => ?_) fun _ f₁ => ?_).imp
    fun _ f' ⟨ha, hr⟩ => ⟨ha, hr⟩
  · exact .tracked fun _ => flowValue_flows
  · exact .tracked fun _ => .forM (fun v => .given flows_lasting) fun v _ f₂ => flowValue_flows

/-- **A call is bound to a method.** -/
theorem bindCall_binds : Makes c f (bindCall site call m) fun _ f' => Binds c.project.resources site call m f' := by
  unfold bindCall
  extract_lets bindRest
  have hrest : ∀ u f₁, Makes c f₁ (bindRest u) fun _ f' => BindsRest c.project.resources site call m f' :=
    fun _ _ => bindRest_flows
  split
  · rename_i receiver this hreceiver hthis
    obtain ⟨hthis, -⟩ := Option.filter_eq_some_iff.mp hthis
    refine (Makes.both (.given flows_lasting) flowValue_flows hrest).imp fun _ f' ⟨hflows, h⟩ => h.binds ?_
    intro x this' hx hthis' _
    obtain rfl : receiver = x := Option.some.inj (hreceiver.symm.trans hx)
    obtain rfl : this = this' := Option.some.inj (hthis.symm.trans hthis')
    exact hflows rfl
  · rename_i hno
    refine (hrest () f).imp fun _ f' h => h.binds fun x this hx hthis ht => ?_
    exact absurd (Option.filter_eq_some_iff.mpr ⟨hthis, ht⟩) (hno x this hx)

/-! ## All calls -/

/-- If the call of a statement is an ordinary one, it is bound to all methods that it can run. -/
def Bound (c : Context) (site : Site) (f : Flowgraph) : Prop :=
  ∀ call, site.call? = some call → Ordinary c site call → ∀ m ∈ (callees c.project.program call).toList,
    Binds c.project.resources site call m.2 f

theorem bound_lasting : Lasting (Bound c site) :=
  .all fun _ => .given (.given (.all fun _ => .given binds_lasting))

theorem recognize_answers : Builds c f (recognize site call) fun answer _ =>
    Ordinary c site call → answer = .unrecognized :=
  ⟨fun hf =>
    have hrun := recognize_builds.run hf
    ⟨fun h => ⟨(hrun.ok h).1, fun ho => ho.eq_unrecognized h⟩, hrun.error⟩⟩

theorem addCall_bound (hcall : site.call? = some call) :
    Builds c f (addCall site call) fun _ f' => Bound c site f' := by
  have hbound : ∀ {f}, (Ordinary c site call → ∀ m ∈ (callees c.project.program call).toList,
      Binds c.project.resources site call m.2 f) → Bound c site f := by
    intro f h call' hcall'
    rw [hcall] at hcall'
    cases hcall'
    exact h
  unfold addCall
  refine .bind recognize_answers fun answer f₁ _ hanswer => ?_
  cases answer with
  | operation => exact .pure (hbound fun ho => nomatch hanswer ho)
  | unusable => exact .pure (hbound fun ho => nomatch hanswer ho)
  | unrecognized =>
    refine .bind deferCall_builds fun _ f₂ _ _ => .read rfl ?_
    exact (Builds.forM (fun _ => binds_lasting) fun m _ f₃ => .lift bindCall_binds).imp fun _ _ h => hbound fun _ => h

theorem addStmt_bound : Builds c f (addStmt site) fun _ f' => Bound c site f' := by
  unfold addStmt
  split
  · rename_i hcall
    exact addCall_bound hcall
  · rename_i hnone _
    exact (Builds.lift addAssignment_makes).imp fun _ _ _ call hcall => by rw [hnone] at hcall; cases hcall
  · rename_i hnone _
    exact .pure fun call hcall => by rw [hnone] at hcall; cases hcall

/-- The calls of all application methods are bound. -/
theorem addStmts_bound : Builds c f addStmts fun _ f' =>
    ∀ m ∈ c.project.program.applicationMethods, ∀ i ∈ m.body, Bound c ⟨m, i⟩ f' := by
  unfold addStmts
  refine .read rfl (.forM (fun m => .all fun i => .given bound_lasting) fun m _ f₁ => ?_)
  exact .forM (fun i => bound_lasting) fun i _ f₂ => addStmt_bound

theorem construct_bound : Builds c f construct fun _ f' =>
    ∀ m ∈ c.project.program.applicationMethods, ∀ i ∈ m.body, Bound c ⟨m, i⟩ f' := by
  have hlasting : Lasting fun f => ∀ m ∈ c.project.program.applicationMethods, ∀ i ∈ m.body, Bound c ⟨m, i⟩ f :=
    .all fun m => .given (.all fun i => .given bound_lasting)
  rw [construct_eq]
  refine .keep hlasting ?_ fun _ f₁ => .bind recordCalls_builds fun _ f₂ _ _ => finish_builds
  unfold collect
  refine .liftBind createIdNodes_makes fun _ f₁ _ _ => ?_
  refine .liftBind addCallbacks_makes fun _ f₂ _ _ => ?_
  exact .keep hlasting addStmts_bound fun _ f₃ => .liftBind linkArrays_makes fun _ f₄ _ _ => runBuilders_builds

end Flowgraph

/-! ## A call with two callees -/

namespace Example.Helper

def view : Local := ⟨"view", .ref "android.view.View"⟩

def picked : Local := ⟨"picked", view.ty⟩

def helper : Local := ⟨"helper", .ref "app.Base"⟩

def self (owner : String) : Local := ⟨"self", .ref owner⟩

def shown (owner : String) : Local := ⟨owner ++ ".shown", view.ty⟩

def number : Local := ⟨"number", .int⟩

/-- A method that returns its first parameter. -/
def pick (owner : String) : Method :=
  { methodOf "pick" [view.ty, .int] view.ty [
      .assign (.var (self owner)) .this,
      .assign (.var (shown owner)) (.parameter 0),
      .assign (.var number) (.parameter 1),
      .ret (some (.var (shown owner)))] with owner := owner }

def callPick : Call := callOn helper "pick" [view.ty, .int] view.ty [.var view, .int 5]

def onCreate : Method :=
  methodOf "onCreate" [.ref "android.os.Bundle"] ⟨.void, 0⟩ [.assign (.var picked) (.call callPick)]

def assignPick : Instr := ⟨.ofStmt "onCreate" 0, .assign (.var picked) (.call callPick)⟩

def derived : Class := classOf "app.Derived" (some "app.Base") false true [pick "app.Derived"]

/-- A class calls a method of a class that has a subclass with a method of its own. -/
def withHelper : Context where
  project.program.classes := .ofList <| List.map (fun cls => (cls.name, cls)) [
    classOf "app.Main" none false true [onCreate],
    classOf "app.Base" none false true [pick "app.Base"],
    derived]
  project.resources := { widgetIds := byId [(5, "save")] }
  settings.strict := false
  settings.apiLevel := 19
  settings.activityCallbacks := []
  settings.listeners := []

end Example.Helper

theorem Program.wellNamed_of_toList {p : Program} (h : p.classes.toList.all (fun (name, k) =>
    k.name == name && k.methods.all (·.owner == k.name)) = true) : p.WellNamed := by
  have hclass : ∀ name k, p.class? name = some k → k.name = name ∧ ∀ m ∈ k.methods, m.owner = k.name := by
    intro name k hk
    simpa using List.all_eq_true.mp h (name, k) (ExtTreeMap.mem_toList_iff_getElem?_eq_some.mpr hk)
  exact ⟨fun name k hk => (hclass name k hk).1, fun name k hk => (hclass name k hk).2⟩

namespace Flowgraph

/-- **Ordinary calls are bound completely.** In a built flowgraph, receiver, arguments and result of a call that no
recogniser takes are connected to those of every method of the application that the call can run. -/
theorem ordinary_calls_bound {c : Context} {f : Flowgraph} {call : Call} {m : Method} {i : Instr}
    (hp : c.project.program.WellNamed) (hf : build c = .ok f) (hm : m ∈ c.project.program.applicationMethods)
    (hi : i ∈ m.body) (hcall : i.stmt.call? = some call) (hordinary : Ordinary c ⟨m, i⟩ call) {callee : Method}
    (hd : c.project.program.Dispatches call callee) (hcallee : callee ∈ c.project.program.applicationMethods) :
    Binds c.project.resources ⟨m, i⟩ call callee f := by
  have hbound := ((construct_bound.run valid_empty).ok (construct_of_build hf)).2 m hm i hi
  exact hbound call hcall hordinary _ (mem_callees hp hd hcallee)

open Example.Helper in
/-- The call is bound to the method of the subclass. -/
theorem pick_bound : ∃ f, build withHelper = .ok f ∧ Ordinary withHelper ⟨onCreate, assignPick⟩ callPick ∧
    withHelper.project.program.Dispatches callPick (pick "app.Derived") ∧
    f.Flows withHelper.project.resources (.var helper) (self "app.Derived") ∧
    f.Flows withHelper.project.resources (.int 5) number ∧
    f.Flows withHelper.project.resources (.var (shown "app.Derived")) picked := by
  have hp : withHelper.project.program.WellNamed := Program.wellNamed_of_toList (by decide +kernel)
  have heval : (build withHelper).toOption.any (fun _ => true) = true := by decide +kernel
  obtain ⟨f, hf, -⟩ := exists_of_toOption heval
  have hi : assignPick ∈ onCreate.body := by decide +kernel
  have hm : onCreate ∈ withHelper.project.program.applicationMethods := by decide +kernel
  have hordinary : Ordinary withHelper ⟨onCreate, assignPick⟩ callPick := ⟨{}, _, Prod.ext (by decide +kernel) rfl⟩
  have hd : withHelper.project.program.Dispatches callPick (pick "app.Derived") := by
    have hk : derived ∈ withHelper.project.program.concreteSubtypes callPick.receiverClass := by decide +kernel
    exact .virtual rfl hk (by decide +kernel)
  have hcallee : pick "app.Derived" ∈ withHelper.project.program.applicationMethods := by decide +kernel
  have hbinds := ordinary_calls_bound hp hf hm hi rfl hordinary hd hcallee
  refine ⟨f, hf, hordinary, hd, hbinds.receiver helper _ rfl rfl rfl, ?_, ?_⟩
  · exact hbinds.args 1 (.int 5) number rfl rfl rfl (by decide +kernel)
  · exact hbinds.result picked _ rfl rfl (by decide +kernel) rfl

end Flowgraph

end WidgetFlow
