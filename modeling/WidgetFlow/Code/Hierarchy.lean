import WidgetFlow.Code.Program
import WidgetFlow.Search

/-!
# The class hierarchy

Subtypes and the methods that calls reach. A class that is named but not part of the program has no superclass, no
interfaces and no methods. Superclass and interface links may be cyclic.

* `resolveSpecial_mem`: a resolved method belongs to the program.
-/

namespace WidgetFlow.Program

open Std

variable (p : Program)

/-! ## Superclasses and supertypes -/

def superclass? (name : String) : Option String :=
  (p.class? name).bind (·.superclass)

/-- The direct supertypes of a class. -/
def links (name : String) : List String :=
  match p.class? name with
  | some c => c.superclass.toList ++ c.interfaces
  | none => []

/-- The superclasses of a class, nearest first, without the class itself and without repetition. -/
def superclasses (name : String) : List String :=
  Search.spread (fun n => (p.superclass? n).toList) p.classes.keys {name} [name]

/-- A class and everything that it extends or implements, nearest first. -/
def lineage (name : String) : List String :=
  Search.bfs p.links p.classes.keys name

def supertypes (name : String) : ExtTreeSet String :=
  .ofList (p.lineage name)

def isSubtype (name supertype : String) : Bool :=
  name == supertype || (p.lineage name).contains supertype

/-- The classes of the program that are subtypes of a type. -/
def subtypes (name : String) : List Class :=
  p.classList.filter fun c => p.isSubtype c.name name

/-- The subtypes of which there can be objects. -/
def concreteSubtypes (name : String) : List Class :=
  (p.subtypes name).filter (·.isConcrete)

/-! ## Dispatch -/

/-- The classes in which a method of `start` is looked up. -/
def lookupChain (start : String) : List Class :=
  (start :: p.superclasses start).filterMap p.class?

/-- The method that a virtual call on an object of class `start` runs. -/
def resolveVirtual (start sub : String) : Option Method :=
  (p.lookupChain start).findSome? fun c => (c.declared? sub).filter (·.isConcrete)

/-- The method that a call by name on class `start` means. -/
def resolveSpecial (start sub : String) : Option Method :=
  (p.lookupChain start).findSome? (·.declared? sub)

/-- The application method that the framework runs when it calls a method on an object of class `start`. -/
def callback? (start sub : String) : Option Method :=
  (p.resolveVirtual start sub).filter fun m => p.isApplication m.owner

/-- The methods of an interface and of everything that it extends. -/
def interfaceMethods (name : String) : List Method :=
  (((p.supertypes name).toList.filterMap p.class?).filter (·.isInterface)).flatMap (·.methods)

variable {p}

theorem mem_methods_of_declared? {c : Class} {name sub : String} {m : Method} (hc : p.class? name = some c)
    (hm : c.declared? sub = some m) : m ∈ p.methods := by
  refine List.mem_flatMap.mpr ⟨c, ?_, List.mem_of_find?_eq_some hm⟩
  exact List.mem_map.mpr ⟨(name, c), ExtTreeMap.mem_toList_iff_getElem?_eq_some.mpr hc, rfl⟩

theorem resolveSpecial_mem {start sub : String} {m : Method} (h : p.resolveSpecial start sub = some m) :
    m ∈ p.methods := by
  obtain ⟨c, hc, hm⟩ := List.exists_of_findSome?_eq_some h
  obtain ⟨name, _, hn⟩ := List.mem_filterMap.mp hc
  exact mem_methods_of_declared? hn hm

end WidgetFlow.Program
