import CommandFactory.Json.Basic
import CommandFactory.Keyed
import CommandFactory.Module.Basic

/-!
# Objects

The instances that a replay works on. An object has a type and slots by name; a slot holds a value,
another object, or the name of a specification that was put there. Objects live in a store and are
known by their references, so that several specifications can share one.

An accessor of a member stands for a slot (`Accessor.property`): a field for the slot of its name, a
method for the slot of the property that its name spells.
-/

set_option autoImplicit false

namespace CommandFactory

/-! ## Properties -/

namespace Accessor

/-- The beginnings of method names that read or write a property. -/
def propertyVerbs : List String := ["get_", "set_", "is_", "get", "set", "is"]

/-- The property that a method name spells after a verb. After a verb without an underscore the
property has to start with an upper-case letter. -/
def propertyAfter (verb name : List Char) : Option (List Char) :=
  if verb.isPrefixOf name then
    match name.drop verb.length with
    | [] => none
    | c :: rest =>
        if verb.getLast? = some '_' ∨ c.isUpper then some (c.toLower :: rest) else none
  else none

/-- The slot that an accessor reads or writes. -/
def property : Accessor → String
  | .field name => name
  | .method name =>
      match propertyVerbs.findSome? fun verb => propertyAfter verb.toList name.toList with
      | some property => String.ofList property
      | none => name

end Accessor

/-! ## Objects and slots -/

/-- A reference to an object. -/
structure ObjectRef where
  index : Nat
  deriving DecidableEq, Repr, Inhabited

/-- What a slot holds. -/
inductive Slot where
  | value (value : Json)
  | object (ref : ObjectRef)
  /-- A specification, by the name of its command. -/
  | spec (name : String)
  deriving Repr, Inhabited

/-- A slot with its name. -/
structure NamedSlot where
  name : String
  slot : Slot
  deriving Repr, Inhabited

/-- An object. -/
structure Object where
  type : String
  slots : Keyed NamedSlot.name
  deriving Inhabited

namespace Object

/-- The slot of a name. -/
def slot? (object : Object) (name : String) : Option Slot :=
  (object.slots.get? name).map NamedSlot.slot

/-- The value of a slot. The value of a specification is its name; a slot without a value has null. -/
def value (object : Object) (name : String) : Json :=
  match object.slot? name with
  | some (.value value) => value
  | some (.spec name) => .string name
  | _ => .null

/-- The object in a slot. -/
def object? (object : Object) (name : String) : Option ObjectRef :=
  match object.slot? name with
  | some (.object ref) => some ref
  | _ => none

/-- The object with a slot set. -/
def setSlot (object : Object) (name : String) (slot : Slot) : Object :=
  { object with slots := object.slots.put ⟨name, slot⟩ }

end Object

/-! ## The store -/

/-- All objects of a replay. -/
structure Store where
  objects : List Object
  deriving Inhabited

namespace Store

/-- A store without objects. -/
def empty : Store := ⟨[]⟩

/-- The object of a reference. -/
def object? (store : Store) (ref : ObjectRef) : Option Object := store.objects[ref.index]?

/-- A new object without slots. -/
def new (store : Store) (type : String) : ObjectRef × Store :=
  (⟨store.objects.length⟩, ⟨store.objects ++ [⟨type, .empty⟩]⟩)

/-- The slot of an object. -/
def slot? (store : Store) (ref : ObjectRef) (name : String) : Option Slot :=
  (store.object? ref).bind fun object => object.slot? name

/-- The value of a slot of an object. -/
def value (store : Store) (ref : ObjectRef) (name : String) : Json :=
  match store.object? ref with
  | some object => object.value name
  | none => .null

/-- The store with a slot of an object set. -/
def setSlot (store : Store) (ref : ObjectRef) (name : String) (slot : Slot) : Store :=
  match store.object? ref with
  | some object => ⟨store.objects.set ref.index (object.setSlot name slot)⟩
  | none => store

end Store

end CommandFactory
