import CommandFactory.Proofs.Registry.Growth

/-!
# Checked declarations

Generated text mentions members of the classes it works on. An extraction lets only those pass whose
names it can mention: the members that arguments are bound to, the fields of mixins, and the fields
that receive a specification (`CommandDeclaration.Checked`). It does not look at the names of the fields
that hold groups of arguments.
-/

set_option autoImplicit false

namespace CommandFactory

open Text

/-- The members that a command mentions, those that hold groups apart, have names that generated text
can mention. -/
structure CommandDeclaration.Checked (d : CommandDeclaration) : Prop where
  options : ∀ arg ∈ d.options, ∀ name ∈ arg.binding.mentioned, isMemberName name = true
  positionals : ∀ arg ∈ d.positionals, ∀ name ∈ arg.binding.mentioned, isMemberName name = true
  mixins : ∀ mixin ∈ d.mixins, isMemberName mixin.name = true
  specInjections : ∀ field ∈ d.specInjections, isMemberName field = true
  parentInjections : ∀ field ∈ d.parentInjections, isMemberName field = true

/-! ## One declaration -/

/-- An argument that passes is bound to members that can be mentioned. -/
theorem ArgDeclaration.mentioned_of_ofInput {table : SymbolTable} {expected : ArgCategory}
    {input : ArgInput} {arg : ArgDeclaration} (h : ofInput table expected input = .ok arg) :
    ∀ name ∈ arg.binding.mentioned, isMemberName name = true := by
  simp only [ofInput, bind, Except.bind] at h
  -- Of all ways through the checks one ends with an argument.
  split at h
  · cases h
  · split at h
    · cases h
    · split at h
      · cases h
      · split at h
        · cases h
        · split at h
          · cases h
          · rename_i hfind
            split at h
            · cases h
            · cases h
              intro name hname
              simpa using List.find?_eq_none.1 hfind name hname

theorem mentioned_of_mem_checkArgs {table : SymbolTable} {expected : ArgCategory}
    {inputs : List ArgInput} {arg : ArgDeclaration}
    (h : arg ∈ (checkArgs table expected inputs).value) :
    ∀ name ∈ arg.binding.mentioned, isMemberName name = true := by
  induction inputs with
  | nil => cases h
  | cons input rest ih =>
    rw [checkArgs] at h
    split at h
    · rename_i found hfound
      rcases List.mem_cons.1 h with rfl | hmem
      · exact ArgDeclaration.mentioned_of_ofInput hfound
      · exact ih hmem
    · exact ih h

theorem isMemberName_of_mem_checkNames {α : Type} (element : SymbolId) {name : α → String}
    {items : List α} {item : α} (h : item ∈ (checkNames element name items).value) :
    isMemberName (name item) = true :=
  (List.mem_filter.1 h).2

theorem CommandDeclaration.checked_ofInput (table : SymbolTable) (symbol : Symbol)
    (input : CommandInput) (rooting : Rooting) (owner : Scope) :
    (ofInput table symbol input rooting owner).value.1.Checked where
  options := fun _ harg => mentioned_of_mem_checkArgs harg
  positionals := fun _ harg => mentioned_of_mem_checkArgs harg
  mixins := fun _ hmixin => isMemberName_of_mem_checkNames symbol.id hmixin
  specInjections := fun _ hfield => isMemberName_of_mem_checkNames symbol.id hfield
  parentInjections := fun _ hfield => isMemberName_of_mem_checkNames symbol.id hfield

/-! ## All declarations -/

namespace Registry

/-- All commands are checked. -/
def AllChecked (registry : Registry) : Prop :=
  ∀ d ∈ registry.commands, d.Checked

/-- All commands of a manifest are checked: links to ancestors change nothing that is. -/
theorem allChecked_ofManifest (settings : Settings) (manifest : Manifest) :
    (ofManifest settings manifest).AllChecked :=
  forall_commands_ofManifest settings manifest
    (fun _ _ _ _ => CommandDeclaration.checked_ofInput _ _ _ _ _)
    fun _ _ h => ⟨h.options, h.positionals, h.mixins, h.specInjections, h.parentInjections⟩

end Registry

end CommandFactory
