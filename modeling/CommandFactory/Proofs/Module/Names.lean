import CommandFactory.Proofs.Module.Delivery

/-!
# Names in a module

The procedures of all commands of a class share one module. Their names tell them apart
(`GeneratedModule.NamesApart`): a base name gives its kind away, each method has its own suffix in its
class, and no base name with an underscore begins another name. Commands whose names would not be
apart from those of an earlier one have been dropped before any procedure is made, so this holds of
every synthesis (`namesApart_ofManifest`).
-/

set_option autoImplicit false

namespace CommandFactory

/-- The procedures of a module are told apart by their names: no two have one name, and each is found
under its own. -/
structure GeneratedModule.NamesApart (module : GeneratedModule) : Prop where
  distinct : (module.procedures.map Procedure.name).Nodup
  found : ∀ procedure ∈ module.procedures, module.procedure? procedure.name = some procedure

/-- Where names are distinct, a look-up by name finds the procedure that has the name. -/
theorem GeneratedModule.namesApart_of_nodup {module : GeneratedModule}
    (h : (module.procedures.map Procedure.name).Nodup) : module.NamesApart where
  distinct := h
  found := by
    intro procedure hmem
    cases hfind : module.procedure? procedure.name with
    | none =>
      have hnone := List.find?_eq_none.1 hfind procedure hmem
      simp at hnone
    | some found =>
      have hname : found.name = procedure.name := by simpa using List.find?_some hfind
      exact congrArg some
        (List.inj_on_of_nodup_map h (List.mem_of_find?_eq_some hfind) hmem hname)

namespace Registry

/-- In every module of a synthesis names tell procedures apart, whatever methods its class has and
whether or not the class has a command. -/
theorem namesApart_ofManifest (settings : Settings) (manifest : Manifest) :
    ∀ module ∈ (ofManifest settings manifest).synthesize.1, module.NamesApart := by
  intro module hmodule
  obtain ⟨declaration, -, rfl⟩ := List.mem_map.1 hmodule
  exact GeneratedModule.namesApart_of_nodup (nodup_names_moduleOf declaration)

/-- Four methods of a class without a command. Two are overloads; the suffix of one of these is the
name of the third method, and the fourth has its name in snake case. -/
def overloads : Manifest where
  symbols :=
    .ofList
      [⟨⟨"demo"⟩, "demo", none, [], .package⟩,
        ⟨⟨"demo.Tool"⟩, "Tool", some ⟨"demo"⟩, [], .classType none none none⟩,
        ⟨⟨"demo.Tool#run(int)"⟩, "run", some ⟨"demo.Tool"⟩, [], .method ["int"]⟩,
        ⟨⟨"demo.Tool#run(Item[])"⟩, "run", some ⟨"demo.Tool"⟩, [], .method ["demo.Item[]"]⟩,
        ⟨⟨"demo.Tool#runInt"⟩, "runInt", some ⟨"demo.Tool"⟩, [], .method []⟩,
        ⟨⟨"demo.Tool#run_item_array"⟩, "run_item_array", some ⟨"demo.Tool"⟩, [], .method []⟩]
  elements :=
    [{ CommandInput.bare ⟨"demo.Tool#run(int)"⟩ with command := some ⟨"count", []⟩ },
      { CommandInput.bare ⟨"demo.Tool#run_item_array"⟩ with command := some ⟨"array", []⟩ },
      { CommandInput.bare ⟨"demo.Tool#run(Item[])"⟩ with command := some ⟨"items", []⟩ },
      { CommandInput.bare ⟨"demo.Tool#runInt"⟩ with command := some ⟨"int", []⟩ }]

/-- Two of the four are dropped; the procedures of the other two share the module of the class. -/
theorem namesApart_overloads :
    ∃ module ∈ (ofManifest {} overloads).synthesize.1,
      module.isContainer = true ∧ module.procedures.length = 18 ∧ module.NamesApart := by
  have hmodule : ∃ module ∈ (ofManifest {} overloads).synthesize.1,
      module.isContainer = true ∧ module.procedures.length = 18 := by decide +kernel
  obtain ⟨module, hmem, hcontainer, hlength⟩ := hmodule
  exact ⟨module, hmem, hcontainer, hlength, namesApart_ofManifest {} overloads module hmem⟩

end Registry

end CommandFactory
