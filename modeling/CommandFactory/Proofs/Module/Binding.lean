import CommandFactory.Proofs.Module.Partition
import CommandFactory.Proofs.Registry.Erasure

/-!
# Methods that are not found

The command of a method is looked for among the members of the class that owns the method. Where the
class has no member list, these are all that it owns, so the method itself is found. Only a member
list can leave it out, and then the command is found still where the list has another method with the
name and, up to erasure, the parameter types (`Registry.unbound_iff_unlisted`).

Of all reports of a synthesis only the one on a method that is not found starts as it does
(`Registry.reportsUnbound_iff`).
-/

set_option autoImplicit false

namespace CommandFactory

/-! ## Member lists -/

/-- The member list of a class that has one. -/
def Symbol.members? (symbol : Symbol) : Option (List SymbolId) :=
  match symbol.kind with
  | .classType _ _ members => members
  | _ => none

/-- Among the identities is that of a method with the name and, up to erasure, the parameter types. -/
def SymbolTable.Lists (table : SymbolTable) (members : List SymbolId) (name : String)
    (params : List String) : Prop :=
  ∃ id ∈ members, ∃ symbol types, table.get? id = some symbol ∧ symbol.name = name ∧
    symbol.kind = .method types ∧ types.map erasure = params.map erasure

namespace SymbolTable

variable {table : SymbolTable} {id : SymbolId} {owner symbol : Symbol} {name : String}
  {params erased : List String} {members : List SymbolId}

theorem hasSignature_iff :
    hasSignature name erased symbol = true ↔
      symbol.name = name ∧ ∃ types, symbol.kind = .method types ∧ types.map erasure = erased := by
  unfold hasSignature
  rw [Bool.and_eq_true, decide_eq_true_iff]
  refine and_congr_right fun _ => ?_
  cases symbol.kind with
  | method types => simp
  | classType superclass typePath members => simp
  | package => simp
  | field type argGroup => simp
  | parameter type => simp

/-- A look-up fails if no member has the signature; what has one is a method. -/
theorem findMethod?_eq_none_iff :
    table.findMethod? id name params = none ↔
      ∀ symbol ∈ table.membersOf id, ¬ hasSignature name (params.map erasure) symbol = true := by
  unfold findMethod? methodsOf
  rw [List.find?_eq_none]
  constructor
  · intro h symbol hmem hsignature
    obtain ⟨-, types, hkind, -⟩ := hasSignature_iff.1 hsignature
    have hmethod : symbol.isMethod = true := by simp [Symbol.isMethod, hkind]
    exact h symbol (List.mem_filter.2 ⟨hmem, hmethod⟩) hsignature
  · exact fun h symbol hmem => h symbol (List.mem_filter.1 hmem).1

theorem membersOf_listed (hget : table.get? id = some owner) (hlist : owner.members? = some members) :
    table.membersOf id = members.filterMap table.get? := by
  unfold Symbol.members? at hlist
  unfold membersOf
  rw [hget, Option.map_some]
  cases hkind : owner.kind with
  | classType superclass typePath list =>
    simp only [hkind] at hlist
    rw [hlist]
  | package => simp [hkind] at hlist
  | method params => simp [hkind] at hlist
  | field type argGroup => simp [hkind] at hlist
  | parameter type => simp [hkind] at hlist

theorem membersOf_unlisted (hget : table.get? id = some owner) (hlist : owner.members? = none) :
    table.membersOf id = table.toList.filter fun symbol => symbol.owner = some id := by
  unfold Symbol.members? at hlist
  unfold membersOf
  rw [hget, Option.map_some]
  cases hkind : owner.kind with
  | classType superclass typePath list =>
    simp only [hkind] at hlist
    rw [hlist]
  | package => rfl
  | method params => rfl
  | field type argGroup => rfl
  | parameter type => rfl

/-- No method is found over a member list exactly if the list has none. -/
theorem findMethod?_listed (hget : table.get? id = some owner)
    (hlist : owner.members? = some members) :
    table.findMethod? id name params = none ↔ ¬ table.Lists members name params := by
  rw [findMethod?_eq_none_iff, membersOf_listed hget hlist]
  constructor
  · rintro h ⟨listed, hlisted, symbol, types, hknown, hname, hkind, herased⟩
    exact h symbol (List.mem_filterMap.2 ⟨listed, hlisted, hknown⟩)
      (hasSignature_iff.2 ⟨hname, types, hkind, herased⟩)
  · intro h symbol hmem hsignature
    obtain ⟨listed, hlisted, hknown⟩ := List.mem_filterMap.1 hmem
    obtain ⟨hname, types, hkind, herased⟩ := hasSignature_iff.1 hsignature
    exact h ⟨listed, hlisted, symbol, types, hknown, hname, hkind, herased⟩

/-- A method of a class without a member list is found. -/
theorem findMethod?_owned (hget : table.get? id = some owner) (hlist : owner.members? = none)
    (hmethod : symbol ∈ table.toList) (howner : symbol.owner = some id)
    (hkind : symbol.kind = .method params) : table.findMethod? id symbol.name params ≠ none := by
  rw [Ne, findMethod?_eq_none_iff, membersOf_unlisted hget hlist]
  intro h
  exact h symbol (List.mem_filter.2 ⟨hmethod, decide_eq_true howner⟩)
    (hasSignature_iff.2 ⟨rfl, params, hkind, rfl⟩)

theorem findMethod?_erasure :
    table.findMethod? id name (params.map erasure) = table.findMethod? id name params := by
  unfold findMethod?
  rw [map_erasure_erased]

end SymbolTable

/-! ## Reports -/

/-- The first character of a report. -/
def Diagnostic.initial? (diagnostic : Diagnostic) : Option Char := diagnostic.message.toList.head?

namespace Registry

variable {registry : Registry} {d : CommandDeclaration} {diagnostic : Diagnostic} {id : SymbolId}

/-- What a synthesis reports. -/
def addedReports (registry : Registry) : List Diagnostic :=
  registry.synthesize.2.diagnostics.drop registry.diagnostics.length

/-- A synthesis reports that the method of the command of an identity is not found. -/
def ReportsUnbound (registry : Registry) (id : SymbolId) : Prop :=
  ∃ cause, Diagnostic.ofFailure id (.unresolvableMethod id cause) ∈ registry.addedReports

theorem addedReports_eq :
    registry.addedReports =
      registry.bindingFailures.map (fun f => .ofFailure f.1 f.2) ++
        registry.collided.map SuffixCollision.diagnostic ++
          registry.plan.kept.flatMap registry.plan.diagnosticsOf := by
  have hall : registry.synthesize.2.diagnostics = registry.diagnostics ++
      (registry.bindingFailures.map (fun f => .ofFailure f.1 f.2) ++
        registry.collided.map SuffixCollision.diagnostic) ++
          registry.plan.kept.flatMap registry.plan.diagnosticsOf := rfl
  rw [addedReports, hall, List.append_assoc, List.drop_left]

theorem initial?_unresolvable (id : SymbolId) (cause : Failure) :
    (Diagnostic.ofFailure id (.unresolvableMethod id cause)).initial? = some 'C' := by
  have hmessage : (Failure.unresolvableMethod id cause).message =
      "Cannot bind method-rooted command " ++ id.text ++ ": " ++ cause.message := rfl
  simp [Diagnostic.initial?, Diagnostic.ofFailure, Diagnostic.errorAt, hmessage]

theorem initial?_unsupported (id element : SymbolId) (fault : ElementFault) :
    (Diagnostic.ofFailure id (.unsupportedElement element fault)).initial? = some 'U' := by
  have hmessage : (Failure.unsupportedElement element fault).message =
      "Unsupported symbol type for " ++ element.text ++ ": " ++ fault.describe := rfl
  simp [Diagnostic.initial?, Diagnostic.ofFailure, Diagnostic.errorAt, hmessage]

theorem initial?_of_mem_subcommands {plan : Plan} {subs : List NamedElement}
    (h : diagnostic ∈ (plan.subcommands d subs).diagnostics) : diagnostic.initial? = some 'U' := by
  induction subs with
  | nil => cases h
  | cons sub rest ih =>
    rw [Plan.subcommands] at h
    cases hsub : plan.subcommand d sub with
    | ok statement =>
      simp only [hsub] at h
      exact ih h
    | error failure =>
      simp only [hsub] at h
      rcases List.mem_cons.1 h with rfl | hrest
      · -- A subcommand that is not added is an element that is not supported.
        obtain ⟨fault, rfl⟩ : ∃ fault, failure = .unsupportedElement sub.element fault := by
          unfold Plan.subcommand at hsub
          split at hsub
          · cases hsub
            exact ⟨_, rfl⟩
          · split at hsub
            · cases hsub
              exact ⟨_, rfl⟩
            · cases hsub
        exact initial?_unsupported d.id sub.element fault
      · exact ih hrest

theorem initial?_of_mem_groups {plan : Plan} {index : Nat} {groups : List ArgGroupDeclaration}
    (h : diagnostic ∈ (plan.groups d index groups).diagnostics) :
    diagnostic.initial? = some 'A' := by
  induction groups generalizing index with
  | nil => cases h
  | cons group rest ih =>
    rw [Plan.groups] at h
    cases hholder : plan.registry.command? group.groupType with
    | some holder =>
      simp only [hholder] at h
      exact ih h
    | none =>
      simp only [hholder] at h
      rcases List.mem_cons.1 h with rfl | hrest
      · simp [Diagnostic.initial?, Diagnostic.errorAt]
      · exact ih hrest

theorem initial?_of_mem_procedures {plan : Plan}
    (h : diagnostic ∈ (plan.procedures d).diagnostics) : diagnostic.initial? ≠ some 'C' := by
  rcases List.mem_append.1 h with hparts | hunmatched
  · rcases List.mem_append.1 hparts with hcreated | hgroups
    · split at hcreated
      · rw [initial?_of_mem_subcommands hcreated]
        decide
      · cases hcreated
    · rw [initial?_of_mem_groups hgroups]
      decide
  · obtain ⟨field, -, rfl⟩ := List.mem_map.1 hunmatched
    simp [Plan.unmatchedWarning, Diagnostic.initial?, Diagnostic.warningAt]

theorem initial?_of_mem_diagnosticsOf {plan : Plan} (h : diagnostic ∈ plan.diagnosticsOf d) :
    diagnostic.initial? ≠ some 'C' := by
  rcases List.mem_append.1 h with hprocedures | hmodule
  · exact initial?_of_mem_procedures hprocedures
  · split at hmodule
    · cases hmodule
    · obtain rfl := List.mem_singleton.1 hmodule
      simp [Diagnostic.initial?, Diagnostic.errorAt]

/-- Reported are the commands whose methods are not found, and no others. -/
theorem reportsUnbound_iff :
    registry.ReportsUnbound id ↔ id ∈ registry.bindingFailures.map Prod.fst := by
  unfold ReportsUnbound
  rw [addedReports_eq]
  constructor
  · rintro ⟨cause, hmem⟩
    have hinitial := initial?_unresolvable id cause
    rcases List.mem_append.1 hmem with hdropped | hkept
    · rcases List.mem_append.1 hdropped with hunbound | hcollided
      · obtain ⟨failure, hfailure, heq⟩ := List.mem_map.1 hunbound
        have hid : some failure.1 = some id := congrArg Diagnostic.element heq
        exact List.mem_map.2 ⟨failure, hfailure, Option.some.inj hid⟩
      · obtain ⟨collision, -, heq⟩ := List.mem_map.1 hcollided
        rw [← heq] at hinitial
        simp [SuffixCollision.diagnostic, Diagnostic.initial?, Diagnostic.errorAt] at hinitial
    · obtain ⟨d, -, hd⟩ := List.mem_flatMap.1 hkept
      exact absurd hinitial (initial?_of_mem_diagnosticsOf hd)
  · intro hmem
    obtain ⟨failure, hfailure, rfl⟩ := List.mem_map.1 hmem
    obtain ⟨d, -, hfails⟩ := List.mem_filterMap.1 hfailure
    obtain ⟨classId, method, params, -, -, rfl⟩ := bindingFailure?_eq_some hfails
    refine ⟨.methodNotFound classId method (params.map erasure), ?_⟩
    exact List.mem_append_left _ (List.mem_append_left _ (List.mem_map.2 ⟨_, hfailure, rfl⟩))

/-- A command is reported exactly if the method it is rooted in is not found. -/
theorem reportsUnbound_of_methodRooted {classId : SymbolId} {name : String} {params : List String}
    (hd : d ∈ registry.commands) (hrooting : d.rooting = .methodRooted classId name params) :
    registry.ReportsUnbound d.id ↔ registry.symbols.findMethod? classId name params = none := by
  rw [reportsUnbound_iff, unbound_iff hd]
  simp only [bindingFailure?, hrooting]
  cases registry.symbols.findMethod? classId name params <;> simp

/-- Only commands rooted in methods are reported. -/
theorem methodRooted_of_reportsUnbound (h : registry.ReportsUnbound id) :
    ∃ classId name params, (registry.command? id).map CommandDeclaration.rooting =
      some (.methodRooted classId name params) := by
  obtain ⟨d, hd, rfl, hsome⟩ := mem_unbound.1 (reportsUnbound_iff.1 h)
  obtain ⟨failure, hfails⟩ := Option.isSome_iff_exists.1 hsome
  obtain ⟨classId, name, params, hrooting, -, -⟩ := bindingFailure?_eq_some hfails
  refine ⟨classId, name, params, ?_⟩
  rw [command?_of_mem hd, Option.map_some, hrooting]

/-! ## Manifests -/

variable {settings : Settings} {manifest : Manifest}

/-- A command rooted in a method has the signature of its symbol, in the class that owns it. -/
theorem method_of_methodRooted (hd : d ∈ (ofManifest settings manifest).commands)
    (h : d.isMethodRooted = true) :
    ∃ method params owner, manifest.symbols.get? d.id = some method ∧
      method.kind = .method params ∧ manifest.symbols.owner? d.id = some owner ∧
      owner.isClass = true ∧ d.rooting = .methodRooted owner.id method.name (params.map erasure) := by
  obtain ⟨method, hget, hrooting⟩ := rooting?_ofManifest hd
  unfold SymbolTable.rooting? at hrooting
  cases hkind : method.kind with
  | method params =>
    cases howner :
      (method.owner.bind fun above => manifest.symbols.get? above).filter Symbol.isClass with
    | none => simp [hkind, howner] at hrooting
    | some owner =>
      simp only [hkind, howner, Except.ok.injEq] at hrooting
      obtain ⟨habove, hclass⟩ := Option.filter_eq_some_iff.1 howner
      refine ⟨method, params, owner, hget, hkind, ?_, hclass, hrooting.symm⟩
      rw [SymbolTable.owner?, hget]
      exact habove
  | classType superclass typePath members =>
    simp only [hkind, Except.ok.injEq] at hrooting
    simp [CommandDeclaration.isMethodRooted, ← hrooting] at h
  | package => simp [hkind] at hrooting
  | field type argGroup => simp [hkind] at hrooting
  | parameter type => simp [hkind] at hrooting

/-- The method of a class is not found exactly if the class has a member list without such a method. -/
theorem findMethod?_owner {method owner : Symbol} {params : List String}
    (hget : manifest.symbols.get? id = some method) (hkind : method.kind = .method params)
    (howner : manifest.symbols.owner? id = some owner) :
    manifest.symbols.findMethod? owner.id method.name (params.map erasure) = none ↔
      ∃ members, owner.members? = some members ∧
        ¬ manifest.symbols.Lists members method.name params := by
  rw [SymbolTable.owner?, hget, Option.bind_some] at howner
  have hclass := SymbolTable.get?_of_bind howner
  rw [SymbolTable.findMethod?_erasure]
  cases hlist : owner.members? with
  | some members =>
    rw [SymbolTable.findMethod?_listed hclass hlist]
    simp
  | none =>
    -- Without a list the method itself is among those that its class owns.
    obtain ⟨above, habove, hsome⟩ := Option.bind_eq_some_iff.1 howner
    obtain ⟨-, rfl⟩ := Keyed.get?_eq_some_iff.1 hsome
    have hfound := SymbolTable.findMethod?_owned hclass hlist (Keyed.get?_eq_some_iff.1 hget).1
      habove hkind
    simp [hfound]

/-- The reports on methods that are not found are the same over alike tables. -/
theorem reportsUnbound_alike {other : SymbolTable} (h : manifest.symbols.Alike other)
    (hreports : (ofManifest settings manifest).ReportsUnbound id) :
    (ofManifest settings { manifest with symbols := other }).ReportsUnbound id := by
  obtain ⟨classId, name, params, hrooting⟩ := methodRooted_of_reportsUnbound hreports
  have hrooting' := hrooting
  rw [rooting_ofManifest_alike h] at hrooting'
  obtain ⟨d, hfound, hd⟩ := Option.map_eq_some_iff.1 hrooting
  obtain ⟨e, hfound', he⟩ := Option.map_eq_some_iff.1 hrooting'
  obtain ⟨hmem, rfl⟩ := command?_eq_some_iff.1 hfound
  obtain ⟨hmem', hid⟩ := command?_eq_some_iff.1 hfound'
  rw [reportsUnbound_of_methodRooted hmem hd, symbols_ofManifest] at hreports
  rw [← hid, reportsUnbound_of_methodRooted hmem' he, symbols_ofManifest]
  -- Both tables have one erased table, which has the method if they do.
  have hnone := manifest.symbols.findMethod?_erased classId name params
  rw [hreports, h.erased_eq, other.findMethod?_erased, Option.map_none] at hnone
  exact Option.map_eq_none_iff.1 hnone

/-- A command rooted in a method is reported exactly if the class of the method has a member list
that leaves out every method with its name and, up to erasure, its parameter types. Parameter types
that are altered, but not their erasures, change neither the commands and what they are rooted in
nor which of them are reported. -/
theorem unbound_iff_unlisted (settings : Settings) (manifest : Manifest) :
    let registry := ofManifest settings manifest
    (∀ d ∈ registry.commands, d.isMethodRooted = true →
      ∃ method params owner, manifest.symbols.get? d.id = some method ∧
        method.kind = .method params ∧ manifest.symbols.owner? d.id = some owner ∧
        owner.isClass = true ∧
        (registry.ReportsUnbound d.id ↔ ∃ members, owner.members? = some members ∧
          ¬ manifest.symbols.Lists members method.name params)) ∧
      ∀ other, manifest.symbols.Alike other →
        let altered := ofManifest settings { manifest with symbols := other }
        ∀ id,
          (registry.command? id).map CommandDeclaration.rooting =
              (altered.command? id).map CommandDeclaration.rooting ∧
            (registry.ReportsUnbound id ↔ altered.ReportsUnbound id) := by
  intro registry
  constructor
  · intro d hd hmethod
    obtain ⟨method, params, owner, hget, hkind, howner, hclass, hrooting⟩ :=
      method_of_methodRooted hd hmethod
    refine ⟨method, params, owner, hget, hkind, howner, hclass, ?_⟩
    rw [reportsUnbound_of_methodRooted hd hrooting, symbols_ofManifest]
    exact findMethod?_owner hget hkind howner
  · intro other halike altered id
    refine ⟨rooting_ofManifest_alike halike id, fun h => reportsUnbound_alike halike h, fun h => ?_⟩
    exact @reportsUnbound_alike id settings { manifest with symbols := other } manifest.symbols
      halike.symm h

/-- A class with a member list of a method `run`, and of a method that there is not. -/
def toolSymbol : Symbol :=
  ⟨⟨"demo.Tool"⟩, "Tool", some ⟨"demo"⟩, [],
    .classType none none (some [⟨"demo.Tool#run(names)"⟩, ⟨"demo.Tool#gone"⟩])⟩

/-- The class with the method `run` that it lists, another `run`, and a method `stop`, with parameters
of these types. -/
def toolSymbols (names ages stop : String) : SymbolTable :=
  .ofList
    [⟨⟨"demo"⟩, "demo", none, [], .package⟩, toolSymbol,
      ⟨⟨"demo.Tool#run(names)"⟩, "run", some ⟨"demo.Tool"⟩, [], .method [names]⟩,
      ⟨⟨"demo.Tool#run(ages)"⟩, "run", some ⟨"demo.Tool"⟩, [], .method [ages]⟩,
      ⟨⟨"demo.Tool#stop"⟩, "stop", some ⟨"demo.Tool"⟩, [], .method [stop]⟩]

/-- Both methods that the class leaves out are commands. -/
def unlistedCommands : Manifest :=
  ⟨toolSymbols "List<String>" "List<Integer>" "Map<String, Integer>",
    [CommandInput.bare ⟨"demo.Tool#run(ages)"⟩, CommandInput.bare ⟨"demo.Tool#stop"⟩]⟩

/-- Of two methods that are left out, `run` is found as the one that is listed, and `stop` is not
found. It is so with other generic arguments and blanks, too. -/
theorem unbound_iff_unlisted_unlistedCommands :
    let registry := ofManifest {} unlistedCommands
    let altered := ofManifest {}
      { unlistedCommands with symbols := toolSymbols "List" "List < List<Long> > " "Map<Long>" }
    (registry.ReportsUnbound ⟨"demo.Tool#stop"⟩ ∧
        ¬ registry.ReportsUnbound ⟨"demo.Tool#run(ages)"⟩) ∧
      altered.ReportsUnbound ⟨"demo.Tool#stop"⟩ ∧
        ¬ altered.ReportsUnbound ⟨"demo.Tool#run(ages)"⟩ := by
  obtain ⟨hreports, hsame⟩ := unbound_iff_unlisted {} unlistedCommands
  have hfound : ∀ id,
      ((ofManifest {} unlistedCommands).command? id).any CommandDeclaration.isMethodRooted →
        ∃ d ∈ (ofManifest {} unlistedCommands).commands, d.id = id ∧ d.isMethodRooted = true := by
    intro id h
    cases hd : (ofManifest {} unlistedCommands).command? id with
    | none => simp [hd] at h
    | some d =>
      obtain ⟨hmem, hid⟩ := command?_eq_some_iff.1 hd
      exact ⟨d, hmem, hid, by simpa [hd] using h⟩
  have hstop : (ofManifest {} unlistedCommands).ReportsUnbound ⟨"demo.Tool#stop"⟩ := by
    obtain ⟨d, hd, hid, hmethod⟩ := hfound ⟨"demo.Tool#stop"⟩ (by decide +kernel)
    obtain ⟨method, params, owner, hget, -, howner, -, hiff⟩ := hreports d hd hmethod
    rw [hid] at hget howner hiff
    obtain rfl : toolSymbol = owner := Option.some.inj howner
    refine hiff.2 ⟨_, rfl, ?_⟩
    rintro ⟨id, hlisted, symbol, types, hknown, hname, -, -⟩
    rw [← Option.some.inj hget] at hname
    simp only [List.mem_cons, List.not_mem_nil, or_false] at hlisted
    rcases hlisted with rfl | rfl
    · rw [← Option.some.inj hknown] at hname
      exact absurd hname (by decide)
    · cases hknown
  have hrun : ¬ (ofManifest {} unlistedCommands).ReportsUnbound ⟨"demo.Tool#run(ages)"⟩ := by
    obtain ⟨d, hd, hid, hmethod⟩ := hfound ⟨"demo.Tool#run(ages)"⟩ (by decide +kernel)
    obtain ⟨method, params, owner, hget, hkind, howner, -, hiff⟩ := hreports d hd hmethod
    rw [hid] at hget howner hiff
    obtain rfl : toolSymbol = owner := Option.some.inj howner
    have hmethod : method.name = "run" ∧ method.kind = .method ["List<Integer>"] := by
      rw [← Option.some.inj hget]
      exact ⟨rfl, rfl⟩
    intro hreported
    obtain ⟨members, hmembers, hunlisted⟩ := hiff.1 hreported
    obtain rfl := Option.some.inj hmembers
    rw [hmethod.2, SymbolKind.method.injEq] at hkind
    refine hunlisted ⟨⟨"demo.Tool#run(names)"⟩, List.mem_cons_self .., _, ["List<String>"], rfl,
      hmethod.1.symm, rfl, ?_⟩
    rw [← hkind]
    decide +kernel
  have halike : unlistedCommands.symbols.Alike
      (toolSymbols "List" "List < List<Long> > " "Map<Long>") := by
    have hnames : erasure "List<String>" = erasure "List" := by decide +kernel
    have hages : erasure "List<Integer>" = erasure "List < List<Long> > " := by decide +kernel
    have hstop : erasure "Map<String, Integer>" = erasure "Map<Long>" := by decide +kernel
    simp only [SymbolTable.Alike, unlistedCommands, toolSymbols]
    rw [Keyed.toList_ofList (by decide), Keyed.toList_ofList (by decide)]
    simp [Symbol.erased, SymbolKind.erased, hnames, hages, hstop]
  obtain ⟨-, hstop'⟩ := hsame _ halike ⟨"demo.Tool#stop"⟩
  obtain ⟨-, hrun'⟩ := hsame _ halike ⟨"demo.Tool#run(ages)"⟩
  exact ⟨⟨hstop, hrun⟩, hstop'.1 hstop, fun h => hrun (hrun'.2 h)⟩

end Registry

end CommandFactory
