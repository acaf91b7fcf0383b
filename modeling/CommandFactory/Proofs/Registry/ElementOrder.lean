import CommandFactory.Proofs.Registry.Entry
import CommandFactory.Proofs.Registry.Nesting

/-!
# The order of the elements

The declarations of a manifest and its reports do not depend on the order of the elements, only the
order of discovery does (`get?_ofManifest_perm`).

What an extraction has found, without the order in which it came (`Extraction.Picture`), changes
from element to element by the entry of the element alone, and the entries of two elements, or of
the holders of two groups, can change places. Containers are not in the picture: in a shallow table
the commands say which there are, and the symbol of a container says what it is
(`ContainersFollow`). The links to ancestors follow from the commands again.

Two groups of one type have to agree on their arguments, as the first of them makes the declaration
of the type.
-/

set_option autoImplicit false

namespace CommandFactory

/-- The type that holds the arguments of a group, if it has any. -/
def ArgGroupInput.valueType? (table : SymbolTable) (group : ArgGroupInput) : Option SymbolId :=
  group.args.head?.bind (ArgGroupInput.holder? table)

/-- Groups with one value type have the same arguments. -/
def SymbolTable.Agree (table : SymbolTable) (groups : List ArgGroupInput) : Prop :=
  ∀ a ∈ groups, ∀ b ∈ groups, (a.valueType? table).isSome = true →
    a.valueType? table = b.valueType? table → a.args = b.args

instance (table : SymbolTable) (groups : List ArgGroupInput) : Decidable (table.Agree groups) :=
  inferInstanceAs (Decidable (∀ a ∈ groups, ∀ b ∈ groups, (a.valueType? table).isSome = true →
    a.valueType? table = b.valueType? table → a.args = b.args))

namespace Extraction

open Registry

/-! ## Pictures -/

/-- The commands, the reports and the waiting groups of an extraction without their order. -/
@[ext]
structure Picture where
  commands : SymbolId → Option CommandDeclaration
  reports : Multiset Diagnostic
  pending : Multiset (SymbolId × ArgGroupInput)

namespace Picture

variable {table : SymbolTable} {picture : Picture}

/-- The picture with an entry more. -/
def add (picture : Picture) (entry : Entry) : Picture where
  commands id := (picture.commands id).or (entry.command.filter fun d => d.id = id)
  reports := picture.reports + entry.reports
  pending := picture.pending + entry.pending

/-- The picture after an element. -/
def element (table : SymbolTable) (picture : Picture) (input : CommandInput) : Picture :=
  picture.add (input.entry table (picture.commands input.element).isSome)

/-- The picture after the holder of a group. -/
def holder (table : SymbolTable) (picture : Picture) (group : SymbolId × ArgGroupInput) : Picture :=
  if (picture.commands group.1).isSome then picture
  else picture.element table (holderInput group.1 group.2)

theorem filter_command_of_ne {input : CommandInput} {known : Bool} {id : SymbolId}
    (h : input.element ≠ id) :
    (input.entry table known).command.filter (fun d => d.id = id) = none := by
  cases hcommand : (input.entry table known).command with
  | none => rfl
  | some d =>
    have hid : d.id ≠ id := CommandInput.id_of_entry hcommand ▸ h
    simp [hid]

theorem commands_element_of_ne {input : CommandInput} {id : SymbolId} (h : input.element ≠ id) :
    (picture.element table input).commands id = picture.commands id := by
  simp only [element, add, filter_command_of_ne h, Option.or_none]

/-- Entries of different commands can be added in either order. -/
theorem add_comm {a b : Entry}
    (h : ∀ id, a.command.filter (fun d => d.id = id) = none ∨
      b.command.filter (fun d => d.id = id) = none) :
    (picture.add a).add b = (picture.add b).add a := by
  refine Picture.ext (funext fun id => ?_) (add_right_comm _ _ _) (add_right_comm _ _ _)
  simp only [add]
  rcases h id with hnone | hnone <;> simp [hnone]

/-- Two elements do not see each other. -/
theorem element_comm {a b : CommandInput} (h : a.element ≠ b.element) :
    (picture.element table a).element table b = (picture.element table b).element table a := by
  have hb : (picture.element table a).element table b =
      (picture.element table a).add (b.entry table (picture.commands b.element).isSome) := by
    rw [element, commands_element_of_ne h]
  have ha : (picture.element table b).element table a =
      (picture.element table b).add (a.entry table (picture.commands a.element).isSome) := by
    rw [element, commands_element_of_ne h.symm]
  rw [hb, ha]
  refine add_comm fun id => ?_
  by_cases hid : a.element = id
  · exact Or.inr (filter_command_of_ne fun hb => h (hid.trans hb.symm))
  · exact Or.inl (filter_command_of_ne hid)

/-- The holders of two groups do not see each other, and those of one type are the same. -/
theorem holder_comm {a b : SymbolId × ArgGroupInput} (h : a.1 = b.1 → a.2.args = b.2.args) :
    (picture.holder table a).holder table b = (picture.holder table b).holder table a := by
  by_cases htype : a.1 = b.1
  · have hsame : ∀ picture : Picture, picture.holder table a = picture.holder table b := by
      intro picture
      simp only [holder, holderInput, htype, h htype]
    simp only [hsame]
  · -- Whether one type has a declaration does not change with the holder of the other.
    have hseen : ∀ {c d : SymbolId × ArgGroupInput}, c.1 ≠ d.1 →
        (picture.holder table c).commands d.1 = picture.commands d.1 := by
      intro c d hne
      unfold holder
      split
      · rfl
      · exact commands_element_of_ne hne
    have hb := hseen htype
    have ha := hseen (Ne.symm htype)
    -- Only where both types are new are there two elements to exchange.
    by_cases hknown : (picture.commands a.1).isSome = true <;>
      by_cases hknown' : (picture.commands b.1).isSome = true
    · simp only [holder, hknown, hknown', if_true]
    · simp only [holder, hknown, hknown', if_true, if_false, Bool.false_eq_true] at ha ⊢
      rw [ha, if_pos hknown]
    · simp only [holder, hknown, hknown', if_true, if_false, Bool.false_eq_true] at hb ⊢
      rw [hb, if_pos hknown']
    · simp only [holder, hknown, hknown', if_false, Bool.false_eq_true] at ha hb ⊢
      rw [ha, hb, if_neg hknown, if_neg hknown']
      exact element_comm htype

end Picture

variable {state other : Extraction} {inputs inputs' : List CommandInput}

/-- What an extraction has found so far. -/
def picture (state : Extraction) : Picture :=
  ⟨state.registry.command?, state.registry.diagnostics, state.pending⟩

theorem picture_element (state : Extraction) (input : CommandInput) :
    (state.element input).picture = state.picture.element state.registry.symbols input := by
  obtain ⟨-, hcommand, hdiagnostics, hpending⟩ := element_entry state input
  refine Picture.ext (funext hcommand) ?_ ?_
  · exact (congrArg Multiset.ofList hdiagnostics).trans (Multiset.coe_add _ _).symm
  · exact (congrArg Multiset.ofList hpending).trans (Multiset.coe_add _ _).symm

theorem picture_elements (state : Extraction) (inputs : List CommandInput) :
    (state.elements inputs).picture =
      inputs.foldl (Picture.element state.registry.symbols) state.picture := by
  unfold elements
  induction inputs generalizing state with
  | nil => rfl
  | cons input rest ih =>
    rw [List.foldl_cons, List.foldl_cons, ih, picture_element, (element_entry state input).1]

theorem picture_holder (state : Extraction) (group : SymbolId × ArgGroupInput) :
    (state.holder group).picture = state.picture.holder state.registry.symbols group := by
  by_cases hknown : (state.registry.command? group.1).isSome = true
  · have hpicture : (state.picture.commands group.1).isSome = true := hknown
    rw [holder, if_pos hknown, Picture.holder, if_pos hpicture]
  · have hpicture : ¬ (state.picture.commands group.1).isSome = true := hknown
    rw [holder, if_neg hknown, Picture.holder, if_neg hpicture]
    exact picture_element _ _

theorem picture_holders (state : Extraction) :
    state.holders.picture =
      state.pending.foldl (Picture.holder state.registry.symbols) state.picture := by
  unfold holders
  generalize state.pending = groups
  induction groups generalizing state with
  | nil => rfl
  | cons group rest ih =>
    rw [List.foldl_cons, List.foldl_cons, ih, picture_holder,
      (extends_holder state group).symbols_eq]

/-- Elements with different identities give one picture in every order. -/
theorem picture_elements_perm (state : Extraction) (hperm : inputs.Perm inputs')
    (hdistinct : (inputs.map CommandInput.element).Nodup) :
    (state.elements inputs).picture = (state.elements inputs').picture := by
  -- Pictures, unlike extractions, are equal after any two steps that are exchanged.
  rw [picture_elements, picture_elements]
  refine hperm.foldl_eq' ?_ state.picture
  intro a ha b hb picture
  by_cases hid : a.element = b.element
  · rw [List.inj_on_of_nodup_map hdistinct ha hb hid]
  · exact Picture.element_comm hid

/-- Extractions with one picture still have one when the types of their groups are declared. -/
theorem picture_holders_eq (hsymbols : state.registry.symbols = other.registry.symbols)
    (h : state.picture = other.picture)
    (hagree : ∀ a ∈ state.pending, ∀ b ∈ state.pending, a.1 = b.1 → a.2.args = b.2.args) :
    state.holders.picture = other.holders.picture := by
  have hperm : state.pending.Perm other.pending :=
    Multiset.coe_eq_coe.1 (congrArg Picture.pending h)
  rw [picture_holders, picture_holders, h, hsymbols]
  exact hperm.foldl_eq' (fun a ha b hb _ => Picture.holder_comm (hagree a ha b hb)) _

/-! ## Groups that wait -/

theorem mem_pending_of_checkGroups {table : SymbolTable} {classId : SymbolId}
    {groups : List ArgGroupInput} {waiting : SymbolId × ArgGroupInput}
    (h : waiting ∈ (checkGroups table classId groups).value.pending) :
    waiting.2 ∈ groups ∧ waiting.2.valueType? table = some waiting.1 := by
  fun_induction checkGroups table classId groups with
  | case1 => cases h
  | case2 group rest checked hargs ih => exact (ih h).imp_left (List.mem_cons_of_mem _)
  | case3 group rest checked first others hargs hholder ih =>
    exact (ih h).imp_left (List.mem_cons_of_mem _)
  | case4 group rest checked first others hargs groupType hholder hfields ih =>
    exact (ih h).imp_left (List.mem_cons_of_mem _)
  | case5 group rest checked first others hargs groupType hholder hfields ih =>
    rcases List.mem_cons.1 h with rfl | h
    · refine ⟨List.mem_cons_self .., ?_⟩
      simp only [ArgGroupInput.valueType?, hargs, List.head?_cons, Option.bind_some, hholder]
    · exact (ih h).imp_left (List.mem_cons_of_mem _)

/-- What waits is a group of the element under its value type. -/
theorem mem_pending_entry {table : SymbolTable} {known : Bool} {input : CommandInput}
    {waiting : SymbolId × ArgGroupInput} (h : waiting ∈ (input.entry table known).pending) :
    waiting.2 ∈ input.argGroups ∧ waiting.2.valueType? table = some waiting.1 := by
  cases hcommand : (input.entry table known).command with
  | none =>
    rw [(CommandInput.entry_eq_none hcommand).2] at h
    cases h
  | some d =>
    obtain ⟨-, symbol, rooting, -, -, hnoted⟩ := CommandInput.entry_eq_some hcommand
    have hpending : _ = (input.entry table known).pending :=
      congrArg (fun noted => noted.value.2) hnoted
    rw [← hpending] at h
    cases rooting with
    | classRooted => exact mem_pending_of_checkGroups h
    | methodRooted classId method params => cases h

theorem mem_pending_elements {waiting : SymbolId × ArgGroupInput}
    (h : waiting ∈ (state.elements inputs).pending) :
    waiting ∈ state.pending ∨
      (waiting.2 ∈ inputs.flatMap CommandInput.argGroups ∧
        waiting.2.valueType? state.registry.symbols = some waiting.1) := by
  unfold elements at h
  induction inputs generalizing state with
  | nil => exact Or.inl h
  | cons input rest ih =>
    obtain ⟨hsymbols, -, -, hpending⟩ := element_entry state input
    rw [List.flatMap_cons, List.mem_append]
    rcases ih h with hold | ⟨hmem, htype⟩
    · rw [hpending, List.mem_append] at hold
      refine hold.imp_right fun hnew => ?_
      exact (mem_pending_entry hnew).imp_left Or.inl
    · exact Or.inr ⟨Or.inr hmem, hsymbols ▸ htype⟩

end Extraction

namespace Registry

/-! ## Declarations from commands -/

variable {registry other : Registry}

/-- Every container is what its symbol makes of it. -/
def ContainersMade (registry : Registry) : Prop :=
  ∀ c, Declaration.container c ∈ registry.all → ∃ symbol, registry.symbols.get? c.id = some symbol ∧
    .container c = containerOf registry.symbols symbol (.ofOwners (registry.symbols.owners c.id))

theorem Grows.containersMade {next : Registry} (h : Grows registry next)
    (hshallow : registry.symbols.Shallow) (hstart : registry.ContainersMade) :
    next.ContainersMade := by
  induction h with
  | refl => exact hstart
  | report _ _ ih => exact ih
  | @insert next declaration made hgrows ih =>
    intro c hc
    rw [symbols_insert]
    rcases mem_insert hc with ⟨rfl, -⟩ | hold
    · generalize hmade : Declaration.container c = made' at made
      cases made with
      | @container symbol scope known isClass placed housed =>
        cases hmade
        -- In a shallow table the search for the scope has seen all owners.
        have hscope := placed.whole (hgrows.symbols_eq.symm ▸ hshallow)
        exact ⟨symbol, known, by rw [hscope]⟩
      | command known rooted placed housed => cases hmade
    · exact ih c hold

theorem get?_eq_command_iff {id : SymbolId} {d : CommandDeclaration} :
    registry.get? id = some (.command d) ↔ registry.command? id = some d := by
  rw [command?, Option.bind_eq_some_iff]
  refine ⟨fun hget => ⟨_, hget, rfl⟩, ?_⟩
  rintro ⟨declaration, hget, hcommand⟩
  cases declaration with
  | container c => cases hcommand
  | command e =>
    cases hcommand
    exact hget

/-- Containers follow from commands and symbols: they are what the classes around commands have that
are no commands themselves, made from their symbols. -/
structure ContainersFollow (registry : Registry) : Prop where
  container_iff : ∀ id, (∃ c, registry.get? id = some (.container c)) ↔
    registry.command? id = none ∧ ∃ d ∈ registry.commands, registry.symbols.Encloses id d.id
  made : registry.ContainersMade

theorem containersFollow_extract {symbols : SymbolTable} (settings : Settings)
    (hshallow : symbols.Shallow) (inputs : List CommandInput) :
    ((start symbols settings).extract inputs).ContainersFollow where
  container_iff := by
    have hgrows := grows_extract (start symbols settings) inputs
    have hneeded : ((start symbols settings).extract inputs).ContainersNeeded :=
      containersNeeded_extract hshallow (fun _ hc => absurd hc not_mem_all_start) inputs
    exact (nests_extract settings inputs hshallow).container_iff
      (housed_extract symbols settings inputs) (hgrows.symbols_eq.symm ▸ hshallow) hneeded
  made := (grows_extract (start symbols settings) inputs).containersMade hshallow
    fun _ hc => absurd hc not_mem_all_start

theorem ContainersFollow.get?_eq_container_iff (h : registry.ContainersFollow) {id : SymbolId}
    {c : Container} :
    registry.get? id = some (.container c) ↔
      (registry.command? id = none ∧
        ∃ d ∈ registry.commands, registry.symbols.Encloses id d.id) ∧
      ∃ symbol, registry.symbols.get? id = some symbol ∧ .container c =
        containerOf registry.symbols symbol (.ofOwners (registry.symbols.owners id)) := by
  rw [← h.container_iff]
  constructor
  · intro hget
    obtain ⟨hmem, rfl⟩ := Keyed.get?_eq_some_iff.1 hget
    exact ⟨⟨c, hget⟩, h.made c hmem⟩
  · -- The container that is there is made from the one symbol of the identity.
    rintro ⟨⟨found, hget⟩, symbol, hsymbol, hc⟩
    obtain ⟨hmem, rfl⟩ := Keyed.get?_eq_some_iff.1 hget
    obtain ⟨symbol', hsymbol', hfound⟩ := h.made found hmem
    have hid : (Declaration.container found).id = found.id := rfl
    rw [hid] at hsymbol hc
    rw [hget, hfound, hc, Option.some.inj (hsymbol.symm.trans hsymbol')]

theorem mem_commands_congr (hcommand : ∀ id, registry.command? id = other.command? id)
    (d : CommandDeclaration) : d ∈ registry.commands ↔ d ∈ other.commands := by
  constructor <;> intro hd
  · exact (command?_eq_some_iff.1 ((hcommand d.id).symm.trans (command?_of_mem hd))).1
  · exact (command?_eq_some_iff.1 ((hcommand d.id).trans (command?_of_mem hd))).1

/-- Registries over one table have the same declarations if they have the same commands and their
containers follow from these. -/
theorem ContainersFollow.get?_eq (h : registry.ContainersFollow) (h' : other.ContainersFollow)
    (hsymbols : registry.symbols = other.symbols)
    (hcommand : ∀ id, registry.command? id = other.command? id) (id : SymbolId) :
    registry.get? id = other.get? id := by
  apply Option.ext
  intro declaration
  cases declaration with
  | command d => rw [get?_eq_command_iff, get?_eq_command_iff, hcommand]
  | container c =>
    rw [h.get?_eq_container_iff, h'.get?_eq_container_iff, hsymbols, hcommand]
    simp only [mem_commands_congr hcommand]

/-! ## Links -/

theorem nearestFrom_congr (hsymbols : registry.symbols = other.symbols)
    (hcommand : ∀ id, registry.command? id = other.command? id) (steps : Nat)
    (visited : List SymbolId) (start : Option SymbolId) :
    registry.nearestFrom steps visited start = other.nearestFrom steps visited start := by
  fun_induction nearestFrom registry steps visited start with
  | case1 => rfl
  | case2 => rfl
  | case3 steps visited ancestor hvisited => rw [nearestFrom, if_pos hvisited]
  | case4 steps visited ancestor hvisited hdeclared =>
    rw [nearestFrom, if_neg hvisited, if_pos (hcommand ancestor ▸ hdeclared)]
  | case5 steps visited ancestor hvisited hdeclared ih =>
    rw [nearestFrom, if_neg hvisited, if_neg (hcommand ancestor ▸ hdeclared), ih, hsymbols]

theorem repeatsFrom_congr (hsymbols : registry.symbols = other.symbols) (steps : Nat)
    (visited : List SymbolId) (start : Option SymbolId) :
    registry.repeatsFrom steps visited start = other.repeatsFrom steps visited start := by
  fun_induction repeatsFrom registry steps visited start with
  | case1 => rfl
  | case2 => rfl
  | case3 steps visited ancestor hvisited => rw [repeatsFrom, if_pos hvisited]
  | case4 steps visited ancestor hvisited ih =>
    rw [repeatsFrom, if_neg hvisited, ih, hsymbols]

/-- Registries with one table and the same commands link them to the same ancestors. -/
theorem nearestDeclared?_congr (hsymbols : registry.symbols = other.symbols)
    (hcommand : ∀ id, registry.command? id = other.command? id) :
    registry.nearestDeclared? = other.nearestDeclared? := by
  funext id
  simp only [nearestDeclared?, ancestrySteps, nearestFrom_congr hsymbols hcommand, hsymbols]

theorem cycleWarning?_congr (hsymbols : registry.symbols = other.symbols)
    (hcommand : ∀ id, registry.command? id = other.command? id) :
    registry.cycleWarning? = other.cycleWarning? := by
  funext d
  have hcycle : registry.hasSuperclassCycle d.id = other.hasSuperclassCycle d.id := by
    simp only [hasSuperclassCycle, ancestrySteps, repeatsFrom_congr hsymbols, hsymbols]
  rw [cycleWarning?, cycleWarning?, nearestDeclared?_congr hsymbols hcommand, hcycle]

/-- Registries with the same commands list them in some order. -/
theorem commands_perm (hcommand : ∀ id, registry.command? id = other.command? id) :
    registry.commands.Perm other.commands :=
  (List.perm_ext_iff_of_nodup (registry.nodup_command_ids.of_map _)
    (other.nodup_command_ids.of_map _)).2 (mem_commands_congr hcommand)

theorem get?_linkAncestors (registry : Registry) (id : SymbolId) :
    registry.linkAncestors.get? id =
      (registry.get? id).map (Declaration.linked registry.nearestDeclared?) :=
  Keyed.get?_mapItems _ _ (Declaration.id_linked _) id

/-! ## Manifests -/

/-- Elements in another order give the same declarations, with the same owners and the same links,
and the same reports. -/
theorem get?_ofManifest_perm (settings : Settings) {symbols : SymbolTable}
    (hshallow : symbols.Shallow) {elements elements' : List CommandInput}
    (hperm : elements.Perm elements') (hdistinct : (elements.map CommandInput.element).Nodup)
    (hagree : symbols.Agree (elements.flatMap CommandInput.argGroups)) :
    (∀ id, (ofManifest settings ⟨symbols, elements⟩).get? id =
        (ofManifest settings ⟨symbols, elements'⟩).get? id) ∧
      (ofManifest settings ⟨symbols, elements⟩).diagnostics.Perm
        (ofManifest settings ⟨symbols, elements'⟩).diagnostics := by
  -- The two extractions end with one picture.
  have hpicture : (elementsOf settings ⟨symbols, elements⟩).holders.picture =
      (elementsOf settings ⟨symbols, elements'⟩).holders.picture := by
    have hkept : ∀ inputs, (elementsOf settings ⟨symbols, inputs⟩).registry.symbols = symbols :=
      fun _ => symbols_elementsOf
    refine Extraction.picture_holders_eq ((hkept elements).trans (hkept elements').symm)
      (Extraction.picture_elements_perm _ hperm hdistinct) ?_
    intro a ha b hb htype
    obtain ⟨hgroup, hvalue⟩ := (Extraction.mem_pending_elements ha).resolve_left List.not_mem_nil
    obtain ⟨hgroup', hvalue'⟩ := (Extraction.mem_pending_elements hb).resolve_left List.not_mem_nil
    refine hagree a.2 hgroup b.2 hgroup' (Option.isSome_iff_exists.2 ⟨_, hvalue⟩) ?_
    exact hvalue.trans (hvalue'.trans (congrArg some htype.symm)).symm
  have hcommand : ∀ id, ((start symbols settings).extract elements).command? id =
      ((start symbols settings).extract elements').command? id :=
    congrFun (congrArg Extraction.Picture.commands hpicture)
  have hreports : ((start symbols settings).extract elements).diagnostics.Perm
      ((start symbols settings).extract elements').diagnostics :=
    Multiset.coe_eq_coe.1 (congrArg Extraction.Picture.reports hpicture)
  have hsame : ((start symbols settings).extract elements).symbols =
      ((start symbols settings).extract elements').symbols :=
    (grows_extract _ elements).symbols_eq.trans (grows_extract _ elements').symbols_eq.symm
  have hget := (containersFollow_extract settings hshallow elements).get?_eq
    (containersFollow_extract settings hshallow elements') hsame hcommand
  refine ⟨fun id => ?_, ?_⟩
  · simp only [ofManifest, get?_linkAncestors, hget, nearestDeclared?_congr hsame hcommand]
  · refine hreports.append ?_
    rw [cycleWarning?_congr hsame hcommand]
    exact (commands_perm hcommand).filterMap _

/-- An option in the class of a group. -/
def urlOption : ArgInput :=
  { (default : ArgInput) with
    element := ⟨"demo.Target.url"⟩
    names := ["--url"]
    arity := "1"
    typeName := "String" }

/-- Two commands in one class that no command is for, the second below the first, each with a group
of the same type. -/
def siblings : SymbolTable :=
  .ofList
    [⟨⟨"demo"⟩, "demo", none, [], .package⟩,
      ⟨⟨"demo.Tools"⟩, "Tools", some ⟨"demo"⟩, [], .classType none none none⟩,
      ⟨⟨"demo.Tools.Get"⟩, "Get", some ⟨"demo.Tools"⟩, [], .classType none none none⟩,
      ⟨⟨"demo.Tools.Get.target"⟩, "target", some ⟨"demo.Tools.Get"⟩, [], .field "demo.Target" true⟩,
      ⟨⟨"demo.Tools.Put"⟩, "Put", some ⟨"demo.Tools"⟩, [],
        .classType (some ⟨"demo.Tools.Get"⟩) none none⟩,
      ⟨⟨"demo.Tools.Put.target"⟩, "target", some ⟨"demo.Tools.Put"⟩, [], .field "demo.Target" true⟩,
      ⟨⟨"demo.Target"⟩, "Target", some ⟨"demo"⟩, [], .classType none none none⟩,
      ⟨⟨"demo.Target.url"⟩, "url", some ⟨"demo.Target"⟩, [], .field "String" false⟩]

/-- The command of one of the siblings. -/
def sibling (id : SymbolId) (name : String) (exclusive : Bool) : CommandInput :=
  { CommandInput.bare id with
    command := some ⟨name, []⟩
    argGroups := [⟨[urlOption], exclusive, none, none⟩] }

/-- Either sibling may come first. -/
theorem get?_ofManifest_siblings :
    let get := sibling ⟨"demo.Tools.Get"⟩ "get" true
    let put := sibling ⟨"demo.Tools.Put"⟩ "put" false
    siblings.Shallow ∧ siblings.Agree ([get, put].flatMap CommandInput.argGroups) ∧
      (ofManifest {} ⟨siblings, [get, put]⟩).ids ≠ (ofManifest {} ⟨siblings, [put, get]⟩).ids ∧
      (∀ id, (ofManifest {} ⟨siblings, [get, put]⟩).get? id =
        (ofManifest {} ⟨siblings, [put, get]⟩).get? id) ∧
      (ofManifest {} ⟨siblings, [get, put]⟩).diagnostics.Perm
        (ofManifest {} ⟨siblings, [put, get]⟩).diagnostics :=
  ⟨by decide +kernel, by decide +kernel, by decide +kernel,
    get?_ofManifest_perm {} (by decide +kernel) (.swap _ _ []) (by decide +kernel)
      (by decide +kernel)⟩

end Registry

end CommandFactory
