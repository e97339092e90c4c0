import WidgetFlow.Flowgraph.ItemList
import WidgetFlow.Proofs.Hierarchy

/-!
# The layouts that reach the array adapter

A constructor of an adapter hands its object on to other constructors, and so on until one of them is the constructor of
the array adapter, which is given the layout of the items. Constructors may call each other in a circle, and the same
one may be reached on many ways. Each of them is followed once.

* `HandsOn`: the calls that are followed from a call;
* `reach_of_insert`: a way that passes through a constructor once more than needed can be cut behind it, so what a
  search skips is found from the calls of the constructor that it has followed;
* `itemLayoutArgs_exact`: the layouts are those of all calls of the array adapter that are reached. A constructor that
  has no local for its object is followed to the constructor calls without a receiver (`layout_without_receiver`).
-/

namespace WidgetFlow

open Std Relation

namespace Program

/-- No two methods of a program have the same signature. -/
def UniqueSignatures (p : Program) : Prop :=
  ∀ m ∈ p.methods, ∀ m' ∈ p.methods, m.signature = m'.signature → m = m'

instance {p : Program} : Decidable p.UniqueSignatures :=
  inferInstanceAs (Decidable (∀ m ∈ p.methods, ∀ m' ∈ p.methods, m.signature = m'.signature → m = m'))

end Program

namespace Flowgraph

variable {p : Program} {call d last : Call} {m : Method} {v : Value} {visited : ExtTreeSet String}

/-! ## Calls that are followed -/

/-- A call makes an object of an application class below the array adapter, and `m` is the constructor that runs. -/
structure Constructs (p : Program) (call : Call) (m : Method) : Prop where
  below : call.target.owner ≠ Framework.arrayAdapter
  application : p.isApplication call.target.owner = true
  inherits : p.Inherits call.target.owner Framework.arrayAdapter
  resolves : p.resolveSpecial call.target.owner call.target.subSignature = some m
  concrete : m.isConcrete = true

/-- A constructor call in the body of a method. -/
def CallsConstructor (m : Method) (d : Call) : Prop :=
  (∃ i ∈ m.body, i.stmt.call? = some d) ∧ d.target.name = "<init>"

/-- A constructor calls another one on its own object, which is in a local. -/
def HandsOnThis (p : Program) (call d : Call) : Prop :=
  ∃ m this, Constructs p call m ∧ CallsConstructor m d ∧ m.this? = some this ∧ d.receiver = some this

/-- A constructor calls another one, both without a local for the object. -/
def HandsOnNothing (p : Program) (call d : Call) : Prop :=
  ∃ m, Constructs p call m ∧ CallsConstructor m d ∧ m.this? = none ∧ d.receiver = none

/-- The calls that are followed from a call. -/
def HandsOn (p : Program) (call d : Call) : Prop := HandsOnThis p call d ∨ HandsOnNothing p call d

/-- A call gives a layout to the array adapter. -/
def GivesLayout (last : Call) (v : Value) : Prop :=
  last.target.owner = Framework.arrayAdapter ∧ last.arg? 1 = some v

theorem constructs_iff : Constructs p call m ↔
    call.target.owner ≠ Framework.arrayAdapter ∧ adapterConstructor? p call = some m := by
  unfold adapterConstructor?
  constructor
  · rintro ⟨hbelow, happ, hsub, hm, hconcrete⟩
    rw [if_pos (Bool.and_eq_true_iff.mpr ⟨happ, Program.isSubtype_iff.mpr hsub⟩)]
    exact ⟨hbelow, Option.filter_eq_some_iff.mpr ⟨hm, hconcrete⟩⟩
  · rintro ⟨hbelow, h⟩
    split at h
    · rename_i hcls
      obtain ⟨happ, hsub⟩ := Bool.and_eq_true_iff.mp hcls
      obtain ⟨hm, hconcrete⟩ := Option.filter_eq_some_iff.mp h
      exact ⟨hbelow, happ, Program.isSubtype_iff.mp hsub, hm, hconcrete⟩
    · cases h

theorem Constructs.mem (h : Constructs p call m) : m ∈ p.methods := adapterConstructor?_mem (constructs_iff.mp h).2

theorem mem_delegations : d ∈ m.delegations ↔ CallsConstructor m d ∧ d.receiver = m.this? := by
  simp [Method.delegations, CallsConstructor, and_assoc]

theorem handsOn_iff : HandsOn p call d ↔ ∃ m, Constructs p call m ∧ d ∈ m.delegations := by
  constructor
  · rintro (⟨m, this, hm, hd, hthis, hr⟩ | ⟨m, hm, hd, hthis, hr⟩)
    · exact ⟨m, hm, mem_delegations.mpr ⟨hd, hr.trans hthis.symm⟩⟩
    · exact ⟨m, hm, mem_delegations.mpr ⟨hd, hr.trans hthis.symm⟩⟩
  · rintro ⟨m, hm, hd⟩
    obtain ⟨hd, hr⟩ := mem_delegations.mp hd
    cases hthis : m.this? with
    | some this => exact .inl ⟨m, this, hm, hd, hthis, hr.trans hthis⟩
    | none => exact .inr ⟨m, hm, hd, hthis, hr.trans hthis⟩

/-! ## Ways around what was visited -/

/-- A call is followed, and its constructor was not visited. -/
def HandsOnBeyond (p : Program) (visited : ExtTreeSet String) (call d : Call) : Prop :=
  ∃ m, Constructs p call m ∧ d ∈ m.delegations ∧ m.signature ∉ visited

/-- **A way can be cut behind a constructor.** Either it does not pass through the constructor, or a part of it begins
with one of the calls of the constructor and does not pass through it again. -/
theorem reach_of_insert (hp : p.UniqueSignatures) (hm : m ∈ p.methods)
    (h : ReflTransGen (HandsOnBeyond p visited) call last) :
    ReflTransGen (HandsOnBeyond p (visited.insert m.signature)) call last ∨
      ∃ d ∈ m.delegations, ReflTransGen (HandsOnBeyond p (visited.insert m.signature)) d last := by
  induction h using ReflTransGen.head_induction_on with
  | refl => exact .inl .refl
  | head hstep _ ih =>
    rcases ih with ih | ih
    · obtain ⟨m', hm', hd, hv⟩ := hstep
      by_cases hs : m'.signature = m.signature
      · obtain rfl := hp m' hm'.mem m hm hs
        exact .inr ⟨_, hd, ih⟩
      · refine .inl (ih.head ⟨m', hm', hd, fun h => ?_⟩)
        exact (Container.mem_insert.mp h).elim hs hv
    · exact .inr ih

/-- From a call that is not followed, only itself is reached. -/
theorem eq_of_reach (h : ReflTransGen (HandsOnBeyond p visited) call last)
    (hno : ∀ m, Constructs p call m → m.signature ∈ visited) : call = last := by
  rcases h.cases_head with h | ⟨d, ⟨m, hm, -, hv⟩, -⟩
  · exact h
  · exact absurd (hno m hm) hv

/-- A call that is not followed reaches a layout only if it gives it. -/
theorem owner_of_reach (h : ReflTransGen (HandsOnBeyond p visited) call last) (hlast : GivesLayout last v)
    (hno : ∀ m, adapterConstructor? p call = some m → m.signature ∈ visited) :
    call.target.owner = Framework.arrayAdapter := by
  obtain rfl := eq_of_reach h fun m hm => hno m (constructs_iff.mp hm).2
  exact hlast.1

/-- Nothing that is reached around what was visited is missed. -/
theorem mem_itemLayoutArgs_of_reach (hp : p.UniqueSignatures) {calls : List Call} (hcall : call ∈ calls)
    (h : ReflTransGen (HandsOnBeyond p visited) call last) (hlast : GivesLayout last v) :
    v ∈ itemLayoutArgs p visited calls := by
  fun_induction itemLayoutArgs p visited calls generalizing call with
  | case1 => cases hcall
  | case2 visited first calls howner ih =>
    rcases List.mem_cons.mp hcall with rfl | hcall
    · obtain rfl := eq_of_reach h fun m hm => absurd (beq_iff_eq.mp howner) hm.below
      exact List.mem_append_left _ (Option.mem_toList.mpr hlast.2)
    · exact List.mem_append_right _ (ih hcall h)
  | case3 visited first calls howner m hm hv ih =>
    rcases List.mem_cons.mp hcall with rfl | hcall
    · refine absurd (beq_iff_eq.mpr (owner_of_reach h hlast fun m' hm' => ?_)) howner
      obtain rfl := Option.some.inj (hm.symm.trans hm')
      exact hv
    · exact ih hcall h
  | case4 visited first calls howner m hm hv ih =>
    rcases reach_of_insert hp (adapterConstructor?_mem hm) h with h | ⟨d, hd, h⟩
    · rcases List.mem_cons.mp hcall with rfl | hcall
      · refine absurd (beq_iff_eq.mpr (owner_of_reach h hlast fun m' hm' => ?_)) howner
        obtain rfl := Option.some.inj (hm.symm.trans hm')
        exact ExtTreeSet.mem_insert_self
      · exact ih (List.mem_append_right _ hcall) h
    · exact ih (List.mem_append_left _ hd) h
  | case5 visited first calls howner hm ih =>
    rcases List.mem_cons.mp hcall with rfl | hcall
    · refine absurd (beq_iff_eq.mpr (owner_of_reach h hlast fun m' hm' => ?_)) howner
      rw [hm] at hm'
      cases hm'
    · exact ih hcall h

/-- Whatever is found is reached. -/
theorem reach_of_mem_itemLayoutArgs {calls : List Call} (h : v ∈ itemLayoutArgs p visited calls) :
    ∃ call ∈ calls, ∃ last, ReflTransGen (HandsOn p) call last ∧ GivesLayout last v := by
  fun_induction itemLayoutArgs p visited calls with
  | case1 => cases h
  | case2 visited first calls howner ih =>
    rcases List.mem_append.mp h with h | h
    · exact ⟨first, List.mem_cons_self, first, .refl, beq_iff_eq.mp howner, Option.mem_toList.mp h⟩
    · obtain ⟨call, hcall, hlast⟩ := ih h
      exact ⟨call, List.mem_cons_of_mem _ hcall, hlast⟩
  | case3 visited first calls howner m hm hv ih =>
    obtain ⟨call, hcall, hlast⟩ := ih h
    exact ⟨call, List.mem_cons_of_mem _ hcall, hlast⟩
  | case4 visited first calls howner m hm hv ih =>
    obtain ⟨call, hcall, last, hreach, hlast⟩ := ih h
    rcases List.mem_append.mp hcall with hcall | hcall
    · have hm : Constructs p first m := constructs_iff.mpr ⟨fun e => howner (beq_iff_eq.mpr e), hm⟩
      exact ⟨first, List.mem_cons_self, last, hreach.head (handsOn_iff.mpr ⟨m, hm, hcall⟩), hlast⟩
    · exact ⟨call, List.mem_cons_of_mem _ hcall, last, hreach, hlast⟩
  | case5 visited first calls howner hm ih =>
    obtain ⟨call, hcall, hlast⟩ := ih h
    exact ⟨call, List.mem_cons_of_mem _ hcall, hlast⟩

theorem mem_itemLayoutArgs (hp : p.UniqueSignatures) :
    v ∈ itemLayoutArgs p ∅ [call] ↔ ∃ last, ReflTransGen (HandsOn p) call last ∧ GivesLayout last v := by
  constructor
  · intro h
    obtain ⟨call', hcall, hlast⟩ := reach_of_mem_itemLayoutArgs h
    rw [List.mem_singleton.mp hcall] at hlast
    exact hlast
  · rintro ⟨last, h, hlast⟩
    refine mem_itemLayoutArgs_of_reach hp List.mem_cons_self (ReflTransGen.mono (fun call d hd => ?_) _ _ h) hlast
    obtain ⟨m, hm, hd⟩ := handsOn_iff.mp hd
    exact ⟨m, hm, hd, ExtTreeSet.not_mem_empty⟩

theorem not_handsOnNothing (h : ∀ m ∈ p.methods, m.this?.isSome = true) : ¬HandsOnNothing p call d := by
  rintro ⟨m, hm, -, hthis, -⟩
  have hsome := h m hm.mem
  rw [hthis] at hsome
  cases hsome

end Flowgraph

/-! ## Two adapters -/

namespace Example.Rows

def self : Local := ⟨"self", .ref "app.Rows"⟩

def constructor (param : Ty) (body : List Stmt) : Method :=
  ⟨"app.Rows", "<init>", [param], ⟨.void, 0⟩, false, false, body.map fun stmt => ⟨.ofStmt "<init>" 0, stmt⟩⟩

/-- A call of another constructor of the same class. -/
def callThis (param : Ty) : Call := ⟨.special, ⟨"app.Rows", "<init>", [param], ⟨.void, 0⟩⟩, some self, [.null]⟩

/-- A call of the constructor of the array adapter. -/
def callSuper (receiver : Option Local) (layout : Int) : Call :=
  ⟨.special, ⟨Framework.arrayAdapter, "<init>", [.ref "android.content.Context", .int], ⟨.void, 0⟩⟩, receiver,
    [.null, .int layout]⟩

def text : Ty := .ref "java.lang.String"

def programOf (constructors : List Method) : Program where
  classes := .ofList <| List.map (fun cls : Class => (cls.name, cls)) [
    ⟨Framework.arrayAdapter, none, [], false, false, false, []⟩,
    ⟨"app.Rows", some Framework.arrayAdapter, [], false, false, true, constructors⟩]

/-- A constructor that calls another one of the class, and then hands a layout to the array adapter. -/
def both (param other : Ty) (layout : Int) : Method :=
  constructor param [.assign (.var self) .this, .call (callThis other), .call (callSuper (some self) layout)]

/-- Two constructors call each other. -/
def circle : Program := programOf [both .int text 1, both text .int 2]

/-- A constructor that has no local for its object. -/
def direct : Method := constructor .int [.call (callSuper none 1)]

/-- The array adapter is called without a receiver. -/
def receiverless : Program := programOf [direct]

end Example.Rows

namespace Flowgraph

/-- **The layouts of an adapter are those of all calls of the array adapter that are reached**, if signatures tell
methods apart. If no constructor without a local for its object calls a constructor without a receiver, all calls on
the way are calls on the object itself. -/
theorem itemLayoutArgs_exact {p : Program} (hp : p.UniqueSignatures) (call : Call) :
    (∀ v, v ∈ itemLayoutArgs p ∅ [call] ↔ ∃ last, ReflTransGen (HandsOn p) call last ∧ GivesLayout last v) ∧
    ((∀ call d, ¬HandsOnNothing p call d) → ∀ v, v ∈ itemLayoutArgs p ∅ [call] ↔
      ∃ last, ReflTransGen (HandsOnThis p) call last ∧ GivesLayout last v) := by
  refine ⟨fun v => mem_itemLayoutArgs hp, fun hno v => ?_⟩
  have hsame : HandsOn p = HandsOnThis p := by
    funext call d
    exact propext (or_iff_left (hno call d))
  rw [mem_itemLayoutArgs hp, hsame]

open Example.Rows in
/-- The layout of the second constructor is found from the first one, though it leads back to it. -/
theorem layouts_of_circle : circle.UniqueSignatures ∧ HandsOnThis circle (callThis text) (callThis .int) ∧
    .int 1 ∈ itemLayoutArgs circle ∅ [callThis .int] ∧ .int 2 ∈ itemLayoutArgs circle ∅ [callThis .int] := by
  have hunique : circle.UniqueSignatures := by decide +kernel
  have hthis : ∀ m ∈ circle.methods, m.this?.isSome = true := by decide +kernel
  have hint : Constructs circle (callThis .int) (both .int text 1) := constructs_iff.mpr (by decide +kernel)
  have htext : Constructs circle (callThis text) (both text .int 2) := constructs_iff.mpr (by decide +kernel)
  have hon : ∀ {call d m}, Constructs circle call m → m.this? = some self → d ∈ m.delegations → d.receiver = some self →
      HandsOnThis circle call d := fun hm hself hd hr => ⟨_, self, hm, (mem_delegations.mp hd).1, hself, hr⟩
  have hthere : HandsOnThis circle (callThis .int) (callThis text) := hon hint rfl (by decide +kernel) rfl
  have hback : HandsOnThis circle (callThis text) (callThis .int) := hon htext rfl (by decide +kernel) rfl
  have hfirst : HandsOnThis circle (callThis .int) (callSuper (some self) 1) := hon hint rfl (by decide +kernel) rfl
  have hsecond : HandsOnThis circle (callThis text) (callSuper (some self) 2) := hon htext rfl (by decide +kernel) rfl
  have hiff := (itemLayoutArgs_exact hunique (callThis .int)).2 fun _ _ => not_handsOnNothing hthis
  refine ⟨hunique, hback, (hiff _).mpr ⟨_, .single hfirst, rfl, rfl⟩, ?_⟩
  exact (hiff _).mpr ⟨_, .tail (.single hthere) hsecond, rfl, rfl⟩

open Example.Rows in
/-- A layout is found though no constructor hands its object on. -/
theorem layout_without_receiver : receiverless.UniqueSignatures ∧
    (∀ k ∈ receiverless.classList, ∀ m ∈ k.methods, m.owner = k.name) ∧
    .int 1 ∈ itemLayoutArgs receiverless ∅ [callThis .int] ∧
    ¬∃ last, ReflTransGen (HandsOnThis receiverless) (callThis .int) last ∧ GivesLayout last (.int 1) := by
  have hunique : receiverless.UniqueSignatures := by decide +kernel
  have hthis : ∀ m ∈ receiverless.methods, m.this? = none := by decide +kernel
  have hstep : HandsOn receiverless (callThis .int) (callSuper none 1) := by
    refine handsOn_iff.mpr ⟨direct, constructs_iff.mpr (by decide +kernel), by decide +kernel⟩
  refine ⟨hunique, by decide +kernel, (mem_itemLayoutArgs hunique).mpr ⟨_, .single hstep, rfl, rfl⟩, ?_⟩
  rintro ⟨last, hreach, hlast⟩
  rcases hreach.cases_head with rfl | ⟨d, ⟨m, this, hm, -, hsome, -⟩, -⟩
  · exact absurd hlast.1 (by decide +kernel)
  · rw [hthis m hm.mem] at hsome
    cases hsome

end Flowgraph

end WidgetFlow
