import Mathlib
import CommandFactory.Proofs.Replay.Metadata
import CommandFactory.Proofs.Replay.Storage

/-!
# Reading and storing through bindings

An argument is read and stored through the accessors of its binding. Storing gives what reading would
have given before, and changes one slot; reading then gives what was stored, if the accessors are a
field, or methods whose names spell one property (`Binding.IsCoherent`). Bindings of several arguments
may share a slot, so in a sequence of accesses to an object each one sees what the last one before it
has stored in the slot that it reads, through whatever binding (`accesses_lawful`).
-/

set_option autoImplicit false

namespace CommandFactory

/-! ## Names of properties -/

namespace Accessor

/-- The verbs that name the access to a property. -/
def accessVerbs : List String := ["get", "set", "is"]

/-- The word with its first letter in lower case. -/
def uncapitalized (word : String) : String :=
  match word.toList with
  | [] => ""
  | c :: rest => String.ofList (c.toLower :: rest)

/-- The word starts with an upper-case letter. -/
def IsCapitalized (word : String) : Prop :=
  ∃ c rest, word.toList = c :: rest ∧ c.isUpper = true

/-- The name of a method spells the property of a word: a verb and the word, a verb with an underscore
and the word in lower case, or the word in lower case alone, if it does not start with a verb. -/
inductive Spells (word : String) : String → Prop
  | joined {verb : String} (isVerb : verb ∈ accessVerbs) : Spells word (verb ++ word)
  | apart {verb : String} (isVerb : verb ∈ accessVerbs) :
      Spells word (verb ++ "_" ++ uncapitalized word)
  | bare (noVerb : ∀ verb ∈ accessVerbs, ¬ verb.toList <+: (uncapitalized word).toList) :
      Spells word (uncapitalized word)

/-- The property that a name spells after the first verb that it starts with. -/
def spelled? (name : List Char) : Option (List Char) :=
  propertyVerbs.findSome? fun verb => propertyAfter verb.toList name

theorem property_method (name : String) :
    (method name).property = ((spelled? name.toList).map String.ofList).getD name := by
  rw [property, ← spelled?]
  cases spelled? name.toList <;> rfl

theorem spelled?_joined {verb : String} (hverb : verb ∈ accessVerbs) {c : Char} (rest : List Char)
    (hupper : c.isUpper = true) : spelled? (verb.toList ++ c :: rest) = some (c.toLower :: rest) := by
  -- The verbs with an underscore come first, and an upper-case letter is none.
  have hne : '_' ≠ c := by
    rintro rfl
    exact absurd hupper (by decide)
  simp only [accessVerbs, List.mem_cons, List.not_mem_nil, or_false] at hverb
  rcases hverb with rfl | rfl | rfl <;> simp [spelled?, propertyVerbs, propertyAfter, hne, hupper]

theorem spelled?_apart {verb : String} (hverb : verb ∈ accessVerbs) (c : Char) (rest : List Char) :
    spelled? (verb.toList ++ '_' :: c :: rest) = some (c.toLower :: rest) := by
  simp only [accessVerbs, List.mem_cons, List.not_mem_nil, or_false] at hverb
  rcases hverb with rfl | rfl | rfl <;> simp [spelled?, propertyVerbs, propertyAfter]

theorem spelled?_bare {name : List Char} (h : ∀ verb ∈ accessVerbs, ¬ verb.toList <+: name) :
    spelled? name = none := by
  have hstart : ∀ verb ∈ propertyVerbs, ∃ start ∈ accessVerbs, start.toList <+: verb.toList := by
    decide
  refine List.findSome?_eq_none_iff.2 fun verb hverb => ?_
  obtain ⟨start, hmem, hpre⟩ := hstart verb hverb
  rw [propertyAfter, if_neg]
  intro hname
  exact h start hmem (hpre.trans (List.isPrefixOf_iff_prefix.1 hname))

/-- A method whose name spells the property of a word stands for the slot of that property. -/
theorem property_of_spells {word name : String} (hword : IsCapitalized word)
    (h : Spells word name) : (method name).property = uncapitalized word := by
  obtain ⟨c, rest, hchars, hupper⟩ := hword
  have hlower : uncapitalized word = String.ofList (c.toLower :: rest) := by
    rw [uncapitalized, hchars]
  rw [property_method]
  cases h with
  | joined hverb =>
    rw [String.toList_append, hchars, spelled?_joined hverb rest hupper, hlower]
    rfl
  | apart hverb =>
    have hname : ∀ verb : String, (verb ++ "_" ++ uncapitalized word).toList =
        verb.toList ++ '_' :: c.toLower :: rest := by
      intro verb
      rw [hlower]
      simp
    rw [hname, spelled?_apart hverb, Char.toLower_toLower_eq_toLower, hlower]
    rfl
  | bare hnone =>
    rw [spelled?_bare hnone]
    rfl

end Accessor

/-- A field carries the argument, or methods that are both named after one property. -/
def Binding.IsCoherent : Binding → Prop
  | .field _ _ => True
  | .accessor _ (some getter) (some setter) =>
      ∃ word, Accessor.IsCapitalized word ∧ Accessor.Spells word getter ∧
        Accessor.Spells word setter
  | .accessor _ _ _ => False
  | .parameter _ _ => False

/-- What is stored in a coherent binding is stored where it is read. -/
theorem Binding.IsCoherent.slot {binding : Binding} (h : binding.IsCoherent) :
    ∃ getter setter, binding.getter? = some getter ∧ binding.setter? = some setter ∧
      getter.property = setter.property := by
  unfold IsCoherent at h
  split at h
  case h_1 name type => exact ⟨_, _, rfl, rfl, rfl⟩
  case h_2 getter setter =>
    obtain ⟨word, hword, hgetter, hsetter⟩ := h
    refine ⟨_, _, rfl, rfl, ?_⟩
    rw [Accessor.property_of_spells hword hgetter, Accessor.property_of_spells hword hsetter]
  case h_3 => exact h.elim
  case h_4 => exact h.elim

/-! ## Values -/

namespace Store

variable {store : Store} {object : ObjectRef}

/-- The value that a slot is read as. -/
def read : Option Slot → Json
  | some (.value value) => value
  | some (.spec name) => .string name
  | _ => .null

theorem value_eq_read (store : Store) (ref : ObjectRef) (name : String) :
    store.value ref name = read (store.slot? ref name) := by
  unfold value slot? read
  cases store.object? ref <;> rfl

theorem value_setSlot (h : store.Has object) (name field : String) (value : Json) :
    (store.setSlot object name (.value value)).value object field =
      if name = field then value else store.value object field := by
  rw [value_eq_read, value_eq_read, slot?_setSlot h]
  simp only [true_and]
  split <;> rfl

end Store

/-! ## One access -/

namespace ArgBinding

variable {binding : ArgBinding} {arg : ArgDeclaration} {object : ObjectRef} {store : Store}

/-- The builder of the argument makes the binding for the object. -/
def IsBuiltFor (binding : ArgBinding) (arg : ArgDeclaration) (object : ObjectRef) : Prop :=
  ∃ index, ((arg.build index).toSpec object).binding = some binding

/-- The slot that the binding stores into. -/
def stored? (binding : ArgBinding) : Option String := binding.setter.map Accessor.property

theorem IsBuiltFor.bound (h : binding.IsBuiltFor arg object) :
    binding.object = object ∧ binding.getter = arg.binding.getter? ∧
      binding.setter = arg.binding.setter? ∧
      (binding.setter ≠ none → binding.previous = binding.getter) := by
  obtain ⟨index, hbinding⟩ := h
  exact (arg.restates_toSpec_build index object).bound binding hbinding

theorem has_set (h : store.Has object) (binding : ArgBinding) (value : Json) :
    (binding.set store value).2.Has object := by
  unfold set
  cases binding.setter with
  | none => exact h
  | some accessor => exact (Store.Keeps.setSlot ..).has h

theorem slot?_set (h : store.Has binding.object) (value : Json) (ref : ObjectRef) (name : String) :
    (binding.set store value).2.slot? ref name =
      if binding.object = ref ∧ binding.stored? = some name then some (.value value)
      else store.slot? ref name := by
  unfold set stored?
  cases binding.setter with
  | none => simp
  | some accessor => simp [Store.slot?_setSlot h]

/-- What holds of the storing of values through a binding with a setter. -/
structure IsLawful (binding : ArgBinding) (arg : ArgDeclaration) (store : Store) : Prop where
  /-- Storing gives what reading would have given. -/
  replaced : ∀ value, (binding.set store value).1 = binding.get store
  /-- Only the slot of the setter changes. -/
  others : ∀ value ref name, ¬ (ref = binding.object ∧ binding.stored? = some name) →
    (binding.set store value).2.slot? ref name = store.slot? ref name
  /-- What is stored is read. -/
  readBack : arg.binding.IsCoherent → ∀ value, binding.get (binding.set store value).2 = value

/-- The binding that a builder makes for an object is lawful in every store that has it. -/
theorem IsBuiltFor.isLawful (h : binding.IsBuiltFor arg object) (hobject : store.Has object)
    (hsetter : binding.setter ≠ none) : binding.IsLawful arg store := by
  obtain ⟨rfl, hgetter, hset, hprevious⟩ := h.bound
  constructor
  case replaced =>
    intro value
    rw [set, hprevious hsetter, get]
  case others =>
    intro value ref name hne
    rw [slot?_set hobject, if_neg fun hsame => hne ⟨hsame.1.symm, hsame.2⟩]
  case readBack =>
    intro hcoherent value
    obtain ⟨getter, setter, hreads, hstores, hslot⟩ := hcoherent.slot
    rw [get, hgetter, hreads, set, hset, hstores]
    change Store.value _ _ _ = _
    rw [Store.value_setSlot hobject, if_pos hslot.symm]

end ArgBinding

/-! ## Sequences of accesses -/

/-- A call of a binding. -/
inductive Access where
  | get (binding : ArgBinding)
  | set (binding : ArgBinding) (value : Json)

namespace Access

variable {object : ObjectRef} {store : Store}

/-- The binding that is called. -/
def binding : Access → ArgBinding
  | get binding => binding
  | set binding _ => binding

/-- The store after the call. -/
def run (store : Store) : Access → Store
  | get _ => store
  | set binding value => (binding.set store value).2

/-- The store after the calls, one after the other. -/
def runAll (store : Store) (accesses : List Access) : Store := accesses.foldl run store

/-- The value that the call stores in the slot. -/
def stores? (slot : String) : Access → Option Json
  | get _ => none
  | set binding value => if binding.stored? = some slot then some value else none

/-- The last value that the calls store in the slot. -/
def lastStored? (slot : String) (accesses : List Access) : Option Json :=
  accesses.reverse.findSome? (stores? slot)

theorem lastStored?_cons (slot : String) (access : Access) (accesses : List Access) :
    lastStored? slot (access :: accesses) =
      (lastStored? slot accesses).or (access.stores? slot) := by
  rw [lastStored?, List.reverse_cons, List.findSome?_append, lastStored?, List.findSome?_singleton]

theorem has_run (h : store.Has object) (access : Access) : (access.run store).Has object := by
  cases access with
  | get binding => exact h
  | set binding value => exact ArgBinding.has_set h binding value

/-- After a call a slot has the value that the call has stored there, or the one it had. -/
theorem value_run {access : Access} (h : store.Has object) (hbinding : access.binding.object = object)
    (slot : String) :
    (access.run store).value object slot = (access.stores? slot).getD (store.value object slot) := by
  cases access with
  | get binding => rfl
  | set binding value =>
    obtain rfl : binding.object = object := hbinding
    rw [run, Store.value_eq_read, ArgBinding.slot?_set h, Store.value_eq_read, stores?]
    simp only [true_and]
    split <;> rfl

theorem has_runAll (h : store.Has object) (accesses : List Access) :
    (runAll store accesses).Has object := by
  induction accesses generalizing store with
  | nil => exact h
  | cons access accesses ih => exact ih (has_run h access)

/-- After a sequence of calls a slot has the last value that they have stored there, or the one it had
at first. -/
theorem value_runAll {accesses : List Access} (h : store.Has object)
    (hbindings : ∀ access ∈ accesses, access.binding.object = object) (slot : String) :
    (runAll store accesses).value object slot =
      (lastStored? slot accesses).getD (store.value object slot) := by
  induction accesses generalizing store with
  | nil => rfl
  | cons access accesses ih =>
    have hfirst : access.binding.object = object := hbindings access (List.mem_cons_self ..)
    have hrest := fun other hother => hbindings other (List.mem_cons_of_mem access hother)
    calc
      (runAll store (access :: accesses)).value object slot
        = (lastStored? slot accesses).getD ((access.run store).value object slot) :=
          ih (has_run h access) hrest
      _ = (lastStored? slot accesses).getD
            ((access.stores? slot).getD (store.value object slot)) := by rw [value_run h hfirst]
      _ = (lastStored? slot (access :: accesses)).getD (store.value object slot) := by
          rw [lastStored?_cons]
          cases lastStored? slot accesses <;> rfl

end Access

namespace ArgBinding

open Access in
/-- After every sequence of calls of bindings of an object, whichever slots they share: a binding that a
builder has made with a setter is lawful, and every one that a builder has made reads the last value that
was stored in the slot of its getter, or the one that was there at first. -/
theorem accesses_lawful {store : Store} {object : ObjectRef} (hobject : store.Has object)
    {accesses : List Access}
    (haccesses : ∀ access ∈ accesses, access.binding.object = object)
    {binding : ArgBinding} {arg : ArgDeclaration} (hbinding : binding.IsBuiltFor arg object) :
    (binding.setter ≠ none → binding.IsLawful arg (runAll store accesses)) ∧
      (∀ getter, binding.getter = some getter →
        binding.get (runAll store accesses) =
          (lastStored? getter.property accesses).getD (store.value object getter.property)) ∧
      (binding.getter = none → binding.get (runAll store accesses) = .null) := by
  refine ⟨hbinding.isLawful (has_runAll hobject accesses), ?_, ?_⟩
  · intro getter hgetter
    rw [get, hgetter, reads, hbinding.bound.1, value_runAll hobject haccesses]
  · intro hnone
    rw [get, hnone, reads]

/-! ### A shared slot -/

/-- An object, and the store that has it. -/
def tool : ObjectRef × Store := Store.empty.new "Tool"

/-- An argument in a field. -/
def levelField : ArgDeclaration := { (default : ArgDeclaration) with binding := .field "level" "" }

/-- An argument behind methods that are named after the same field. -/
def levelMethods : ArgDeclaration :=
  { (default : ArgDeclaration) with
    binding := .accessor "set_level" (some "getLevel") (some "set_level") }

/-- The binding of the field. -/
def ofLevelField : ArgBinding :=
  ⟨tool.1, some (.field "level"), some (.field "level"), some (.field "level")⟩

/-- The binding of the methods. -/
def ofLevelMethods : ArgBinding :=
  ⟨tool.1, some (.method "getLevel"), some (.method "set_level"), some (.method "getLevel")⟩

theorem ofLevelField_isBuiltFor : ofLevelField.IsBuiltFor levelField tool.1 := ⟨0, rfl⟩

theorem ofLevelMethods_isBuiltFor : ofLevelMethods.IsBuiltFor levelMethods tool.1 := ⟨0, rfl⟩

open Access in
/-- The field reads what was stored through the methods, whose binding stays lawful. -/
theorem accesses_lawful_level :
    let accesses : List Access :=
      [.set ofLevelField (.string "low"), .get ofLevelMethods,
        .set ofLevelMethods (.string "high")]
    tool.2.Has tool.1 ∧ (∀ access ∈ accesses, access.binding.object = tool.1) ∧
      ofLevelField.IsBuiltFor levelField tool.1 ∧ ofLevelMethods.IsBuiltFor levelMethods tool.1 ∧
      levelMethods.binding.IsCoherent ∧ ofLevelMethods.IsLawful levelMethods (runAll tool.2 accesses) ∧
      ofLevelField.get (runAll tool.2 accesses) = .string "high" := by
  intro accesses
  have hhas : tool.2.Has tool.1 := Store.has_new ..
  have hobjects : ∀ access ∈ accesses, access.binding.object = tool.1 := by decide
  have hword : Accessor.IsCapitalized "Level" := ⟨'L', "evel".toList, by decide, by decide⟩
  have hcoherent : levelMethods.binding.IsCoherent :=
    ⟨"Level", hword, @Accessor.Spells.joined "Level" "get" (by decide),
      @Accessor.Spells.apart "Level" "set" (by decide)⟩
  refine ⟨hhas, hobjects, ofLevelField_isBuiltFor, ofLevelMethods_isBuiltFor, hcoherent, ?_, ?_⟩
  · exact (accesses_lawful hhas hobjects ofLevelMethods_isBuiltFor).1 (by decide)
  · rw [(accesses_lawful hhas hobjects ofLevelField_isBuiltFor).2.1 _ rfl]
    rfl

end ArgBinding

end CommandFactory
