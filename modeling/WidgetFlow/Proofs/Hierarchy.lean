import WidgetFlow.Proofs.Routes
import WidgetFlow.Settings

/-!
# The class hierarchy

Nothing is asked of a program here: classes may be missing, may extend themselves or each other, and may be stored under
any name.

* **Supertypes** (`supertypes_closure`): the supertypes of a class are what it reaches by steps from a class of the
  program to its superclass or to one of its interfaces. So subtypes are a preorder, and what is asked of the supertypes
  of a class, as whether it is a listener, is inherited.
* **Dispatch** (`resolveVirtual_inherits`): a class runs the method that it declares, and otherwise the one that its
  superclass runs. The chain of a class and the chain of its superclass end in different places if the hierarchy goes in
  a circle. `findSome?_climb_insert` says why this does not matter: the one that goes on finds the class where the other
  has begun, which declares nothing, and then only what it has seen.
-/

namespace WidgetFlow

open Std Relation

namespace Program

variable {p : Program} {a b : String}

/-! ## Supertypes -/

/-- A class of the program names a type as its superclass or as one of its interfaces. -/
def Extends (p : Program) (a b : String) : Prop :=
  ∃ k, p.class? a = some k ∧ (k.superclass = some b ∨ b ∈ k.interfaces)

/-- A class is another one, or extends or implements it, directly or through others. -/
abbrev Inherits (p : Program) : String → String → Prop := ReflTransGen fun a b => b ∈ p.links a

theorem mem_links : b ∈ p.links a ↔ p.Extends a b := by
  unfold links Extends
  cases p.class? a with
  | none => simp
  | some k => simp

theorem inherits_iff : p.Inherits a b ↔ ReflTransGen p.Extends a b := by
  have hlinks : (fun a b => b ∈ p.links a) = p.Extends := by
    funext a b
    exact propext mem_links
  rw [Inherits, hlinks]

/-- Only classes of the program extend or implement something. -/
theorem mem_keys_of_mem_links (h : b ∈ p.links a) : a ∈ p.classes.keys := by
  obtain ⟨k, hk, -⟩ := mem_links.mp h
  exact ExtTreeMap.mem_keys.mpr (ExtTreeMap.mem_iff_isSome_getElem?.mpr (Option.isSome_iff_exists.mpr ⟨k, hk⟩))

theorem mem_lineage : b ∈ p.lineage a ↔ p.Inherits a b := by
  rw [lineage, Search.mem_bfs]
  constructor
  · intro h
    induction h with
    | refl => exact .refl
    | step _ _ hb ih => exact ih.tail hb
  · intro h
    induction h with
    | refl => exact .refl
    | tail _ hb ih => exact .step ih (.inr (mem_keys_of_mem_links hb)) hb

theorem mem_supertypes : b ∈ p.supertypes a ↔ p.Inherits a b := by
  rw [supertypes, Container.mem_ofList, mem_lineage]

theorem isSubtype_iff : p.isSubtype a b = true ↔ p.Inherits a b := by
  rw [isSubtype, Bool.or_eq_true, beq_iff_eq, List.contains_iff_mem, mem_lineage]
  exact or_iff_right_of_imp fun h => h ▸ .refl

theorem mem_links_of_superclass? (h : p.superclass? a = some b) : b ∈ p.links a := by
  obtain ⟨k, hk, hb⟩ := Option.bind_eq_some_iff.mp h
  exact mem_links.mpr ⟨k, hk, .inl hb⟩

theorem inherits_of_mem_superclasses (h : b ∈ p.superclasses a) : p.Inherits a b := by
  have hleads := Search.mem_bfs.mp (List.mem_cons_of_mem a h)
  refine mem_lineage.mp (Search.mem_bfs.mpr (hleads.mono (fun x y hy => ?_) fun x hx => hx))
  exact mem_links_of_superclass? (Option.mem_toList.mp hy)

/-- A listener is a class with the interface of a listener among its supertypes. -/
theorem isListener_iff {s : Settings} : s.isListener p a = true ↔ ∃ b ∈ s.listenerTypes, p.Inherits a b := by
  rw [Settings.isListener, List.any_eq_true]
  constructor
  · rintro ⟨b, hb, hl⟩
    exact ⟨b, ExtTreeSet.contains_iff_mem.mp hl, mem_lineage.mp hb⟩
  · rintro ⟨b, hl, hb⟩
    exact ⟨b, mem_lineage.mpr hb, ExtTreeSet.contains_iff_mem.mpr hl⟩

end Program

/-! ## A hierarchy that goes in a circle -/

namespace Example.Circle

def run (owner : String) (isAbstract : Bool) : Method := ⟨owner, "run", [], ⟨.void, 0⟩, false, isAbstract, []⟩

def classOf (name : String) (superclass : Option String) (interfaces : List String) (methods : List Method) :
    String × Class :=
  (name, ⟨name, superclass, interfaces, false, false, true, methods⟩)

/-- Two classes extend each other, and a third one extends them. The interface of listeners is not part of the
program. -/
def hierarchy : Program where
  classes := .ofList [
    classOf "app.Start" (some "app.Left") [] [run "app.Start" true],
    classOf "app.Left" (some "app.Right") [] [],
    classOf "app.Right" (some "app.Left") ["app.Handler"] [run "app.Right" false],
    classOf "app.Handler" none [Settings.contextMenuListener] []]

def settings : Settings := ⟨false, 19, [], []⟩

end Example.Circle

namespace Program

variable {β : Type} {p : Program} {a b c d sub : String} {seen : ExtTreeSet String}

/-- **Subtyping is the reflexive and transitive closure of the hierarchy**, whatever the hierarchy is. -/
theorem supertypes_closure (p : Program) (s : Settings) (a : String) :
    (∀ b, b ∈ p.supertypes a ↔ ReflTransGen p.Extends a b) ∧
    (∀ b, p.isSubtype a b = true ↔ b ∈ p.supertypes a) ∧
    p.isSubtype a a = true ∧
    (∀ b c, p.isSubtype a b = true → p.isSubtype b c = true → p.isSubtype a c = true) ∧
    (∀ b ∈ p.superclasses a, b ∈ p.supertypes a) ∧
    (∀ b, p.isSubtype a b = true → s.isListener p b = true → s.isListener p a = true) := by
  refine ⟨fun b => mem_supertypes.trans inherits_iff, fun b => isSubtype_iff.trans mem_supertypes.symm,
    isSubtype_iff.mpr .refl, fun b c hb hc => ?_, fun b hb => ?_, fun b hb hl => ?_⟩
  · exact isSubtype_iff.mpr ((isSubtype_iff.mp hb).trans (isSubtype_iff.mp hc))
  · exact mem_supertypes.mpr (inherits_of_mem_superclasses hb)
  · obtain ⟨d, hd, hbd⟩ := isListener_iff.mp hl
    exact isListener_iff.mpr ⟨d, hd, (isSubtype_iff.mp hb).trans hbd⟩

open Example.Circle in
/-- A class before the circle is a listener, as a class on the circle implements the interface. -/
theorem listener_before_circle :
    hierarchy.isSubtype "app.Start" "app.Handler" = true ∧ "app.Right" ∈ hierarchy.supertypes "app.Start" ∧
      settings.isListener hierarchy "app.Start" = true := by
  obtain ⟨-, -, -, htrans, hsuper, hlistener⟩ := supertypes_closure hierarchy settings "app.Start"
  have hstart : hierarchy.isSubtype "app.Start" "app.Left" = true := by decide +kernel
  have hleft : hierarchy.isSubtype "app.Left" "app.Handler" = true := by decide +kernel
  have hright : "app.Right" ∈ hierarchy.superclasses "app.Start" := by decide +kernel
  have hhandler : settings.isListener hierarchy "app.Handler" = true := by decide +kernel
  have hsub := htrans "app.Left" "app.Handler" hstart hleft
  exact ⟨hsub, hsuper "app.Right" hright, hlistener "app.Handler" hsub hhandler⟩

/-! ## The chain of superclasses -/

/-- The superclasses of a class, up to the first that is in `seen`. -/
def climb (p : Program) (seen : ExtTreeSet String) (name : String) : List String :=
  Search.spread (fun n => (p.superclass? n).toList) p.classes.keys seen [name]

theorem superclass?_of_notMem (h : a ∉ p.classes) : p.superclass? a = none := by
  have hnone : p.class? a = none := ExtTreeMap.getElem?_eq_none h
  rw [superclass?, hnone]
  rfl

theorem climb_of_none (h : p.superclass? a = none) : p.climb seen a = [] := by
  rw [climb, Search.spread]
  simp [Search.leads, Search.discover, h]

theorem climb_of_mem (h : p.superclass? a = some b) (hb : b ∈ seen) : p.climb seen a = [] := by
  rw [climb, Search.spread]
  simp [Search.leads, Search.discover, h, hb]

theorem climb_of_notMem (h : p.superclass? a = some b) (hb : b ∉ seen) :
    p.climb seen a = b :: p.climb (seen.insert b) b := by
  by_cases hk : b ∈ p.classes
  · rw [climb, Search.spread]
    simp [Search.leads, Search.discover, h, hb, hk, climb]
  · rw [climb_of_none (superclass?_of_notMem hk), climb, Search.spread]
    simp [Search.leads, Search.discover, h, hb, hk]

theorem superclasses_eq : p.superclasses a = p.climb {a} a := rfl

theorem nodup_superclasses : (a :: p.superclasses a).Nodup := Search.nodup_bfs

/-- **A class that has nothing to offer may end the chain or not**, if its superclass is on the chain. -/
theorem findSome?_climb_insert {g : String → Option β} (hc : p.superclass? c = some d) (hd : d ∈ seen)
    (hg : g c = none) : (p.climb (seen.insert c) a).findSome? g = (p.climb seen a).findSome? g := by
  -- The induction is on the classes that the chain has not seen.
  induction hn : (Search.unseen p.classes.keys seen).length using Nat.strong_induction_on generalizing seen a with
  | _ n ih =>
    cases ha : p.superclass? a with
    | none => rw [climb_of_none ha, climb_of_none ha]
    | some b =>
      by_cases hb : b ∈ seen
      · rw [climb_of_mem ha (Container.mem_insert.mpr (.inr hb)), climb_of_mem ha hb]
      by_cases hbc : b = c
      · subst hbc
        rw [climb_of_mem ha (Container.mem_insert.mpr (.inl rfl)), climb_of_notMem ha hb,
          climb_of_mem hc (Container.mem_insert.mpr (.inr hd))]
        simp [hg]
      have hb' : b ∉ seen.insert c := fun h => (Container.mem_insert.mp h).elim hbc hb
      have hcomm : (seen.insert c).insert b = (seen.insert b).insert c := by
        refine ExtTreeSet.ext_mem fun x => ?_
        simp only [Container.mem_insert]
        tauto
      rw [climb_of_notMem ha hb', climb_of_notMem ha hb, hcomm, List.findSome?_cons, List.findSome?_cons]
      by_cases hk : b ∈ p.classes
      · have hlt : (Search.unseen p.classes.keys (seen.insert b)).length < (Search.unseen p.classes.keys seen).length :=
          Search.length_unseen_lt (fun x hx => Container.mem_insert.mpr (.inr hx)) (ExtTreeMap.mem_keys.mpr hk) hb
            (Container.mem_insert.mpr (.inl rfl))
        rw [ih _ (hn ▸ hlt) (Container.mem_insert.mpr (.inr hd)) rfl]
      · have hnone := superclass?_of_notMem hk
        rw [climb_of_none hnone, climb_of_none hnone]

/-! ## Dispatch -/

/-- The method that a class declares first for a sub-signature, if it has a body. -/
def declares? (p : Program) (name sub : String) : Option Method :=
  ((p.class? name).bind (·.declared? sub)).filter (·.isConcrete)

/-- A look-up along the chain asks one name after the other. -/
theorem findSome?_lookupChain {g : Class → Option Method} :
    (p.lookupChain a).findSome? g = (a :: p.superclasses a).findSome? fun n => (p.class? n).bind g := by
  rw [lookupChain]
  induction a :: p.superclasses a with
  | nil => rfl
  | cons n ns ih =>
    rw [List.findSome?_cons, ← ih]
    cases hn : p.class? n with
    | none => rw [List.filterMap_cons_none hn, Option.bind_none]
    | some k => rw [List.filterMap_cons_some hn, List.findSome?_cons, Option.bind_some]

theorem resolveVirtual_eq_or : p.resolveVirtual a sub =
    (p.declares? a sub).or ((p.superclasses a).findSome? (p.declares? · sub)) := by
  have hdeclares : (fun n => (p.class? n).bind fun k => (k.declared? sub).filter (·.isConcrete)) =
      (p.declares? · sub) := by
    funext n
    rw [declares?]
    cases p.class? n <;> rfl
  rw [resolveVirtual, findSome?_lookupChain, hdeclares, List.findSome?_cons]
  cases p.declares? a sub <;> rfl

theorem resolveVirtual_step : p.resolveVirtual a sub =
    (p.declares? a sub).or ((p.superclass? a).bind (p.resolveVirtual · sub)) := by
  rw [resolveVirtual_eq_or, superclasses_eq]
  cases hg : p.declares? a sub with
  | some m => rfl
  | none =>
    rw [Option.none_or, Option.none_or]
    cases ha : p.superclass? a with
    | none => rw [climb_of_none ha]; rfl
    | some b =>
      rw [Option.bind_some, resolveVirtual_eq_or, superclasses_eq]
      by_cases hb : b = a
      · subst hb
        rw [climb_of_mem ha (Search.mem_singleton.mpr rfl), hg]
        rfl
      -- The chain of `a` ends at `a`, the chain of `b` at `b`. They have seen the same but for `a`.
      have hb' : b ∉ ({a} : ExtTreeSet String) := fun h => hb (Search.mem_singleton.mp h)
      have hpair : ({a} : ExtTreeSet String).insert b = ({b} : ExtTreeSet String).insert a := by
        refine ExtTreeSet.ext_mem fun x => ?_
        simp only [Container.mem_insert, Search.mem_singleton]
        tauto
      rw [climb_of_notMem ha hb', hpair, List.findSome?_cons,
        findSome?_climb_insert ha (Search.mem_singleton.mpr rfl) hg]
      cases p.declares? b sub <;> rfl

theorem resolveSpecial_isSome (h : (p.resolveVirtual a sub).isSome) : (p.resolveSpecial a sub).isSome := by
  rw [resolveVirtual, List.findSome?_isSome_iff] at h
  rw [resolveSpecial, List.findSome?_isSome_iff]
  obtain ⟨k, hk, hm⟩ := h
  obtain ⟨m, hm⟩ := Option.isSome_iff_exists.mp hm
  exact ⟨k, hk, Option.isSome_iff_exists.mpr ⟨m, (Option.filter_eq_some_iff.mp hm).1⟩⟩

/-- **Dispatch obeys inheritance**, whatever the hierarchy is. The chain of superclasses has no repetition. A class runs
the method that it declares, if it has a body, and otherwise what its superclass runs. A method that a virtual call runs
can be called by name too. -/
theorem resolveVirtual_inherits (p : Program) (cls sub : String) :
    (p.superclasses cls).Nodup ∧ cls ∉ p.superclasses cls ∧
    p.resolveVirtual cls sub = (((p.class? cls).bind (·.declared? sub)).filter (·.isConcrete)).or
      (((p.class? cls).bind (·.superclass)).bind (p.resolveVirtual · sub)) ∧
    ((p.resolveVirtual cls sub).isSome → (p.resolveSpecial cls sub).isSome) := by
  obtain ⟨hself, hnodup⟩ := List.nodup_cons.mp (nodup_superclasses (p := p) (a := cls))
  exact ⟨hnodup, hself, resolveVirtual_step, resolveSpecial_isSome⟩

open Example.Circle in
/-- The method of the second class on the circle is found from before the circle. -/
theorem run_before_circle : hierarchy.superclasses "app.Start" = ["app.Left", "app.Right"] ∧
    hierarchy.resolveVirtual "app.Start" "void run()" = some (run "app.Right" false) ∧
    (hierarchy.resolveSpecial "app.Start" "void run()").isSome = true := by
  have hchain : hierarchy.superclasses "app.Start" = ["app.Left", "app.Right"] := by decide +kernel
  have hrun : hierarchy.resolveVirtual "app.Start" "void run()" = some (run "app.Right" false) := by decide +kernel
  exact ⟨hchain, hrun, (resolveVirtual_inherits hierarchy "app.Start" "void run()").2.2.2 (by rw [hrun]; rfl)⟩

end Program

end WidgetFlow
