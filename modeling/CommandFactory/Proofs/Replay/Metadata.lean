import CommandFactory.Proofs.Replay.Realization

/-!
# What builders restate

The builder of an argument is all that is left of its declaration when factories run. The argument
that it makes says the same as the declaration in every field, and is bound to the same accessors of
the object (`ArgSpec.Restates`). So nothing of these is lost on the way: the builders of two
declarations differ wherever the declarations do (`build_faithful`).

Not restated are the element of an argument, its owner, whether it is inherited, and of a binding
what no accessor needs: the type of a field, and the name of a parameter.
-/

set_option autoImplicit false

namespace CommandFactory

/-! ## Accessors -/

namespace Binding

/-- The accessor that reads an argument. -/
def getter? : Binding → Option Accessor
  | .field name _ => some (.field name)
  | .accessor _ getter _ => getter.map .method
  | .parameter _ _ => none

/-- The accessor that stores an argument. -/
def setter? : Binding → Option Accessor
  | .field name _ => some (.field name)
  | .accessor _ _ setter => setter.map .method
  | .parameter _ _ => none

/-- No member of an object carries the argument. -/
def IsLoose (binding : Binding) : Prop :=
  (∃ name type, binding = .parameter name type) ∨ ∃ method, binding = .accessor method none none

theorem isLoose_iff {binding : Binding} :
    binding.IsLoose ↔ binding.getter? = none ∧ binding.setter? = none := by
  unfold IsLoose
  cases binding with
  | field name type => simp [getter?]
  | accessor method getter setter => cases getter <;> cases setter <;> simp [getter?, setter?]
  | parameter name type => simp [getter?, setter?]

end Binding

/-! ## Arguments -/

namespace ArgSpec

/-- The argument is of the kind: an option has names and the settings that only options have, a
positional parameter has an index and none of these. -/
def HasKind (spec : ArgSpec) : ArgKind → Prop
  | .option names fallbackValue negatable usageHelp =>
      spec.names = names ∧ spec.index = none ∧ spec.fallbackValue = some fallbackValue ∧
        spec.negatable = negatable ∧ spec.usageHelp = usageHelp
  | .positional index =>
      spec.names = [] ∧ spec.index = some index ∧ spec.fallbackValue = none ∧
        spec.negatable = false ∧ spec.usageHelp = false

theorem HasKind.unique {spec : ArgSpec} {a b : ArgKind} (ha : spec.HasKind a)
    (hb : spec.HasKind b) : a = b := by
  cases a with
  | option names fallbackValue negatable usageHelp =>
    obtain ⟨rfl, hindex, hfallback, rfl, rfl⟩ := ha
    cases b with
    | option names' fallbackValue' negatable' usageHelp' =>
      obtain ⟨rfl, -, hfallback', rfl, rfl⟩ := hb
      obtain rfl := Option.some.inj (hfallback.symm.trans hfallback')
      rfl
    | positional index =>
      have := hindex.symm.trans hb.2.1
      cases this
  | positional index =>
    obtain ⟨-, hindex, -⟩ := ha
    cases b with
    | option names fallbackValue negatable usageHelp =>
      have := hindex.symm.trans hb.2.1
      cases this
    | positional index' =>
      obtain rfl := Option.some.inj (hindex.symm.trans hb.2.1)
      rfl

/-- The argument says what its declaration says, bound to the object. -/
structure Restates (spec : ArgSpec) (arg : ArgDeclaration) (object : ObjectRef) : Prop where
  kind : spec.HasKind arg.kind
  arity : spec.arity = arg.arity
  description : spec.description = arg.description
  typeName : spec.typeName = arg.type.name
  auxiliaryTypes : spec.auxiliaryTypes = arg.type.aux
  defaultValue : spec.defaultValue = arg.defaultValue
  hasInitialValue : spec.hasInitialValue = arg.hasInitialValue
  hidden : spec.hidden = arg.hidden
  scope : spec.scope = arg.scope
  mapFallbackValue : spec.mapFallbackValue = arg.mapFallbackValue
  preprocessor : spec.preprocessor = arg.preprocessor
  parameterConsumer : spec.parameterConsumer = arg.parameterConsumer
  unbound : spec.binding = none ↔ arg.binding.IsLoose
  bound : ∀ binding, spec.binding = some binding → binding.object = object ∧
    binding.getter = arg.binding.getter? ∧ binding.setter = arg.binding.setter? ∧
    (binding.setter ≠ none → binding.previous = binding.getter)

end ArgSpec

namespace ArgDeclaration

/-- The declarations say the same of their arguments, and bind them to the same accessors. -/
structure SaysSame (a b : ArgDeclaration) : Prop where
  kind : a.kind = b.kind
  arity : a.arity = b.arity
  description : a.description = b.description
  type : a.type = b.type
  defaultValue : a.defaultValue = b.defaultValue
  hasInitialValue : a.hasInitialValue = b.hasInitialValue
  hidden : a.hidden = b.hidden
  scope : a.scope = b.scope
  mapFallbackValue : a.mapFallbackValue = b.mapFallbackValue
  preprocessor : a.preprocessor = b.preprocessor
  parameterConsumer : a.parameterConsumer = b.parameterConsumer
  getter : a.binding.getter? = b.binding.getter?
  setter : a.binding.setter? = b.binding.setter?

/-! ## Builders -/

variable {arg other : ArgDeclaration} {index otherIndex : Nat} {object : ObjectRef}

theorem bindingTo_eq_none_iff : arg.bindingTo object = none ↔ arg.binding.IsLoose := by
  unfold bindingTo Binding.IsLoose
  cases arg.binding with
  | field name type => simp
  | accessor method getter setter => cases getter <;> cases setter <;> simp
  | parameter name type => simp

theorem bindingTo_eq_some {binding : ArgBinding} (h : arg.bindingTo object = some binding) :
    binding.object = object ∧ binding.getter = arg.binding.getter? ∧
      binding.setter = arg.binding.setter? ∧
      (binding.setter ≠ none → binding.previous = binding.getter) := by
  unfold bindingTo at h
  cases hbinding : arg.binding with
  | field name type =>
    rw [hbinding] at h
    obtain rfl := Option.some.inj h
    exact ⟨rfl, rfl, rfl, fun _ => rfl⟩
  | accessor method getter setter =>
    rw [hbinding] at h
    -- An accessor that only reads keeps no way to read what it replaces.
    cases getter <;> cases setter <;> cases h <;> exact ⟨rfl, rfl, rfl, fun hset => by simp_all⟩
  | parameter name type =>
    rw [hbinding] at h
    cases h

/-- What a builder makes restates the declaration. -/
theorem restates_toSpec_build (arg : ArgDeclaration) (index : Nat) (object : ObjectRef) :
    ((arg.build index).toSpec object).Restates arg object := by
  rw [toSpec_build]
  refine ⟨?_, rfl, rfl, rfl, rfl, rfl, rfl, rfl, rfl, rfl, rfl, rfl, bindingTo_eq_none_iff,
    fun binding hbinding => bindingTo_eq_some hbinding⟩
  unfold specFor
  cases arg.kind with
  | option names fallbackValue negatable usageHelp => exact ⟨rfl, rfl, rfl, rfl, rfl⟩
  | positional place => exact ⟨rfl, rfl, rfl, rfl, rfl⟩

/-- An argument restates only declarations that say the same. -/
theorem saysSame_of_restates {spec : ArgSpec} (h : spec.Restates arg object)
    (hother : spec.Restates other object) : arg.SaysSame other where
  kind := h.kind.unique hother.kind
  arity := h.arity.symm.trans hother.arity
  description := h.description.symm.trans hother.description
  type :=
    calc
      arg.type = ⟨spec.typeName, spec.auxiliaryTypes⟩ := by rw [h.typeName, h.auxiliaryTypes]
      _ = other.type := by rw [hother.typeName, hother.auxiliaryTypes]
  defaultValue := h.defaultValue.symm.trans hother.defaultValue
  hasInitialValue := h.hasInitialValue.symm.trans hother.hasInitialValue
  hidden := h.hidden.symm.trans hother.hidden
  scope := h.scope.symm.trans hother.scope
  mapFallbackValue := h.mapFallbackValue.symm.trans hother.mapFallbackValue
  preprocessor := h.preprocessor.symm.trans hother.preprocessor
  parameterConsumer := h.parameterConsumer.symm.trans hother.parameterConsumer
  getter := by
    cases hbinding : spec.binding with
    | none =>
      rw [(Binding.isLoose_iff.1 (h.unbound.1 hbinding)).1,
        (Binding.isLoose_iff.1 (hother.unbound.1 hbinding)).1]
    | some binding =>
      exact (h.bound _ hbinding).2.1.symm.trans (hother.bound _ hbinding).2.1
  setter := by
    cases hbinding : spec.binding with
    | none =>
      rw [(Binding.isLoose_iff.1 (h.unbound.1 hbinding)).2,
        (Binding.isLoose_iff.1 (hother.unbound.1 hbinding)).2]
    | some binding =>
      exact (h.bound _ hbinding).2.2.1.symm.trans (hother.bound _ hbinding).2.2.1

/-- The calls that bind an argument follow from its accessors. -/
theorem bindingCalls_congr (hgetter : arg.binding.getter? = other.binding.getter?)
    (hsetter : arg.binding.setter? = other.binding.setter?) :
    arg.bindingCalls = other.bindingCalls := by
  have hcalls : ∀ a : ArgDeclaration, a.bindingCalls =
      a.binding.getter?.toList.map .getter ++
        a.binding.setter?.toList.map fun target => .setter target a.binding.getter? := by
    intro a
    unfold bindingCalls
    cases a.binding with
    | field name type => rfl
    | accessor method getter setter => cases getter <;> cases setter <;> rfl
    | parameter name type => rfl
  rw [hcalls, hcalls, hgetter, hsetter]

/-- Declarations that say the same have the same builder at the same place. -/
theorem SaysSame.build_eq (h : arg.SaysSame other) (index : Nat) :
    arg.build index = other.build index := by
  have hcalls := bindingCalls_congr h.getter h.setter
  unfold build
  rw [hcalls]
  simp only [optionCalls, settingCalls, h.kind, h.arity, h.description, h.type, h.defaultValue,
    h.hasInitialValue, h.hidden, h.scope, h.mapFallbackValue, h.preprocessor, h.parameterConsumer]

/-- A builder makes an argument that restates its declaration, for every object. Builders are the same
only if their declarations say the same, and if these do, they are the same at every place. -/
theorem build_faithful (arg : ArgDeclaration) :
    (∀ index object, ((arg.build index).toSpec object).Restates arg object) ∧
      ∀ other, (¬ arg.SaysSame other →
          ∀ index otherIndex, arg.build index ≠ other.build otherIndex) ∧
        (arg.SaysSame other → ∀ index, arg.build index = other.build index) := by
  refine ⟨arg.restates_toSpec_build, fun other => ⟨?_, SaysSame.build_eq⟩⟩
  intro hdiffer index otherIndex heq
  have hrestates := arg.restates_toSpec_build index .anonymous
  rw [heq] at hrestates
  exact hdiffer
    (saysSame_of_restates hrestates (other.restates_toSpec_build otherIndex .anonymous))

end ArgDeclaration

end CommandFactory
