import CommandFactory.Proofs.Registry.ElementOrder
import Mathlib.Data.List.Nodup
import Mathlib.Data.List.Pairwise

/-!
# Fields of groups

A group of arguments goes to every field of its class whose type is the value type of the group, and has
an entry in the declaration of the class for each of them. The fields of these entries are pairwise
distinct exactly if no two groups go to the fields of one type, and the fields that hold groups have
different names (`Registry.bindsOnce_iff_separates`). A list of members may name a field twice, and two
fields may have one name.
-/

set_option autoImplicit false

namespace CommandFactory

/-! ## The entries of groups -/

namespace SymbolTable

variable {table : SymbolTable} {classId : SymbolId} {group : ArgGroupInput}

/-- The fields of a class that a group goes to. -/
def groupFields (table : SymbolTable) (classId : SymbolId) (group : ArgGroupInput) : List Symbol :=
  (table.fieldsOf classId).filter fun field =>
    (group.valueType? table).any fun groupType => field.holdsGroup groupType

/-- No two groups have a value type for which the class has a field, and the fields of the class that
groups go to have different names. -/
structure Separates (table : SymbolTable) (classId : SymbolId) (groups : List ArgGroupInput) :
    Prop where
  types : groups.Pairwise fun a b =>
    a.valueType? table = b.valueType? table → table.groupFields classId a = []
  names : (table.fieldsOf classId).Pairwise fun first second =>
    (∃ group ∈ groups, first ∈ table.groupFields classId group) →
      (∃ group ∈ groups, second ∈ table.groupFields classId group) → first.name ≠ second.name

theorem mem_groupFields {field : Symbol} :
    field ∈ table.groupFields classId group ↔ field ∈ table.fieldsOf classId ∧
      ∃ groupType, group.valueType? table = some groupType ∧ field.holdsGroup groupType = true := by
  rw [groupFields, List.mem_filter, Option.any_eq_true]

theorem groupFields_congr {other : ArgGroupInput}
    (h : group.valueType? table = other.valueType? table) :
    table.groupFields classId group = table.groupFields classId other := by
  rw [groupFields, groupFields, h]

end SymbolTable

theorem Symbol.eq_of_holdsGroup {field : Symbol} {a b : SymbolId} (ha : field.holdsGroup a = true)
    (hb : field.holdsGroup b = true) : a = b := by
  unfold holdsGroup at ha hb
  cases hkind : field.kind with
  | field type argGroup =>
    cases argGroup with
    | false => simp [hkind] at ha
    | true =>
      simp only [hkind, decide_eq_true_eq] at ha hb
      cases a
      cases b
      exact congrArg SymbolId.mk (ha.symm.trans hb)
  | _ => simp [hkind] at ha

/-- The entries of groups are in the fields that the groups go to. -/
theorem fields_checkGroups (table : SymbolTable) (classId : SymbolId) (groups : List ArgGroupInput) :
    (checkGroups table classId groups).value.declared.map ArgGroupDeclaration.field =
      groups.flatMap fun group => (table.groupFields classId group).map Symbol.name := by
  have hnone : ∀ group : ArgGroupInput, group.valueType? table = none →
      table.groupFields classId group = [] := by
    intro group hgroup
    simp [SymbolTable.groupFields, hgroup]
  have hsome : ∀ {group : ArgGroupInput} {groupType : SymbolId},
      group.valueType? table = some groupType → table.groupFields classId group =
        (table.fieldsOf classId).filter (Symbol.holdsGroup groupType) := by
    intro group groupType hgroup
    simp [SymbolTable.groupFields, hgroup]
  fun_induction checkGroups table classId groups with
  | case1 => rfl
  | case2 group rest checked hargs ih =>
    have htype : group.valueType? table = none := by simp [ArgGroupInput.valueType?, hargs]
    rw [List.flatMap_cons, hnone _ htype]
    exact ih
  | case3 group rest checked first others hargs hholder ih =>
    have htype : group.valueType? table = none := by
      simp [ArgGroupInput.valueType?, hargs, hholder]
    rw [List.flatMap_cons, hnone _ htype]
    exact ih
  | case4 group rest checked first others hargs groupType hholder hfields ih =>
    have htype : group.valueType? table = some groupType := by
      simp [ArgGroupInput.valueType?, hargs, hholder]
    rw [List.flatMap_cons, hsome htype, hfields]
    exact ih
  | case5 group rest checked first others hargs groupType hholder hfields ih =>
    have htype : group.valueType? table = some groupType := by
      simp [ArgGroupInput.valueType?, hargs, hholder]
    rw [List.flatMap_cons, hsome htype, List.map_append, ih, List.map_map]
    rfl

namespace SymbolTable

variable {table : SymbolTable} {classId : SymbolId} {groups : List ArgGroupInput}

/-- The fields have different names for each group and for two groups exactly if no two groups go to the
same fields and the fields have different names. -/
theorem nodup_fields_iff_separates :
    (groups.flatMap fun group => (table.groupFields classId group).map Symbol.name).Nodup ↔
      table.Separates classId groups := by
  rw [List.nodup_flatMap]
  constructor
  · rintro ⟨hnames, hdisjoint⟩
    constructor
    case types =>
      refine hdisjoint.imp fun {a b} hab htype => ?_
      -- Groups of one type go to the same fields, so these have no name.
      refine List.eq_nil_iff_forall_not_mem.2 fun field hfield => ?_
      have hfield' : field ∈ table.groupFields classId b := by rwa [← groupFields_congr htype]
      exact List.disjoint_left.1 hab (List.mem_map_of_mem hfield) (List.mem_map_of_mem hfield')
    case names =>
      rw [List.pairwise_iff_getElem]
      rintro i j hi hj hij ⟨a, ha, hfirst⟩ ⟨b, hb, hsecond⟩
      by_cases htype : a.valueType? table = b.valueType? table
      · have hsame := hnames a ha
        rw [groupFields, List.Nodup, List.pairwise_map, List.pairwise_filter,
          List.pairwise_iff_getElem] at hsame
        rw [← groupFields_congr htype] at hsecond
        exact hsame i j hi hj hij (List.mem_filter.1 hfirst).2 (List.mem_filter.1 hsecond).2
      · have : Std.Symm (Function.onFun List.Disjoint fun group : ArgGroupInput =>
            (table.groupFields classId group).map Symbol.name) := ⟨fun _ _ h => h.symm⟩
        have hapart := hdisjoint.forall ha hb fun heq => htype (heq ▸ rfl)
        intro heq
        exact List.disjoint_left.1 hapart (List.mem_map_of_mem hfirst)
          (heq ▸ List.mem_map_of_mem hsecond)
  · rintro ⟨htypes, hnames⟩
    constructor
    · intro group hgroup
      rw [groupFields, List.Nodup, List.pairwise_map, List.pairwise_filter]
      refine hnames.imp_of_mem fun {first second} hfirst hsecond h hholds hholds' => ?_
      exact h ⟨group, hgroup, List.mem_filter.2 ⟨hfirst, hholds⟩⟩
        ⟨group, hgroup, List.mem_filter.2 ⟨hsecond, hholds'⟩⟩
    · refine htypes.imp_of_mem fun {a b} ha hb hab => List.disjoint_left.2 fun name hname hname' => ?_
      obtain ⟨first, hfirst, rfl⟩ := List.mem_map.1 hname
      obtain ⟨second, hsecond, heq⟩ := List.mem_map.1 hname'
      obtain ⟨hmem, groupType, htype, hholds⟩ := mem_groupFields.1 hfirst
      obtain ⟨hmem', groupType', htype', hholds'⟩ := mem_groupFields.1 hsecond
      have hne : first ≠ second := by
        rintro rfl
        -- One field holds groups of one type only.
        obtain rfl := Symbol.eq_of_holdsGroup hholds hholds'
        rw [hab (htype.trans htype'.symm)] at hfirst
        cases hfirst
      have : Std.Symm fun first second : Symbol =>
          (∃ group ∈ groups, first ∈ table.groupFields classId group) →
            (∃ group ∈ groups, second ∈ table.groupFields classId group) →
              first.name ≠ second.name := ⟨fun _ _ h hfirst hsecond => (h hsecond hfirst).symm⟩
      exact hnames.forall hmem hmem' hne ⟨a, ha, hfirst⟩ ⟨b, hb, hsecond⟩ heq.symm

end SymbolTable

/-! ## The groups of a declaration -/

/-- The groups of an element: those of the first specification for it. -/
def Manifest.groupsOf (manifest : Manifest) (id : SymbolId) : List ArgGroupInput :=
  ((manifest.elements.find? fun input => input.element = id).map CommandInput.argGroups).getD []

/-- What an element becomes has the entries of the groups of the element. -/
theorem CommandInput.argGroups_of_entry {table : SymbolTable} {known : Bool} {input : CommandInput}
    {d : CommandDeclaration} (h : (input.entry table known).command = some d) :
    ∃ symbol, table.get? input.element = some symbol ∧
      table.rooting? symbol = .ok d.rooting ∧
      d.argGroups = (checkGroupsOf table symbol input d.rooting).value.declared := by
  obtain ⟨-, symbol, rooting, hget, hrooting, hnoted⟩ := entry_eq_some h
  have hd := congrArg (fun noted => noted.value.1) hnoted
  simp only at hd
  rw [← hd]
  exact ⟨symbol, hget, hrooting, rfl⟩

namespace Extraction

open Registry

variable {state : Extraction} {inputs : List CommandInput} {id : SymbolId} {d : CommandDeclaration}

/-- The first specification for a class makes its command. -/
theorem exists_command_of_find? {input : CommandInput} {symbol : Symbol}
    (hfind : inputs.find? (fun input => input.element = id) = some input)
    (hget : state.registry.symbols.get? id = some symbol)
    (hclass : state.registry.symbols.rooting? symbol = .ok .classRooted)
    (hnone : state.registry.command? id = none) :
    ∃ d, (state.elements inputs).registry.command? id = some d ∧ d.rooting = .classRooted ∧
      d.argGroups = (checkGroups state.registry.symbols id input.argGroups).value.declared := by
  obtain ⟨hid, before, after, rfl, hbefore⟩ := List.find?_eq_some_iff_append.1 hfind
  obtain rfl : input.element = id := by simpa using hid
  obtain ⟨-, hsymbol⟩ := Keyed.get?_eq_some_iff.1 hget
  have hsplit : state.elements (before ++ input :: after) =
      ((state.elements before).element input).elements after := by
    simp only [elements, List.foldl_append, List.foldl_cons]
  have hstill : (state.elements before).registry.command? input.element = none :=
    (command?_elements_of_ne fun other hother => by simpa using hbefore other hother).trans hnone
  have hshows := (shows_element (state.elements before) input).mono (extends_elements _ after)
  rw [← hsplit, entry, hstill, (extends_elements state before).symbols_eq] at hshows
  have hentry : (input.entry state.registry.symbols false).command =
      some (CommandDeclaration.ofInput state.registry.symbols symbol input .classRooted
        (.ofOwners (state.registry.symbols.owners symbol.id))).value.1 := by
    simp [CommandInput.entry, hget, hclass]
  have hcommand := hshows.command _ hentry
  rw [CommandInput.id_of_entry hentry] at hcommand
  refine ⟨_, hcommand, rfl, ?_⟩
  rw [← hsymbol]
  rfl

/-- What the types of groups become has no groups itself. -/
theorem argGroups_of_holders {groups : List (SymbolId × ArgGroupInput)}
    (hnone : state.registry.command? id = none)
    (hd : (groups.foldl holder state).registry.command? id = some d) : d.argGroups = [] := by
  induction groups generalizing state with
  | nil =>
    rw [List.foldl_nil, hnone] at hd
    cases hd
  | cons group rest ih =>
    rw [List.foldl_cons] at hd
    cases hfirst : (state.holder group).registry.command? id with
    | none => exact ih hfirst hd
    | some e =>
      -- Once there, the command stays.
      obtain rfl : e = d :=
        Option.some.inj (((extends_foldl_holder _ rest).commands hfirst).symm.trans hd)
      unfold holder at hfirst
      split at hfirst
      · rw [hnone] at hfirst
        cases hfirst
      · rw [(element_entry state _).2.1, hnone, Option.none_or, Option.filter_eq_some_iff] at hfirst
        obtain ⟨symbol, -, -, hgroups⟩ := CommandInput.argGroups_of_entry hfirst.1
        rw [hgroups]
        cases e.rooting <;> rfl

end Extraction

namespace Registry

variable {settings : Settings} {manifest : Manifest} {d : CommandDeclaration}

/-- A command that is rooted in a class has the entries of the groups of its element. -/
theorem argGroups_eq (hd : d ∈ (ofManifest settings manifest).commands)
    (hclass : d.rooting = .classRooted) :
    d.argGroups =
      (checkGroups manifest.symbols d.id (manifest.groupsOf d.id)).value.declared := by
  have hlinked := command?_linkAncestors
    ((start manifest.symbols settings).extract manifest.elements) d.id
  have hget : (ofManifest settings manifest).command? d.id = some d := command?_of_mem hd
  rw [← ofManifest, hget] at hlinked
  obtain ⟨made, hmade, heq⟩ := Option.map_eq_some_iff.1 hlinked.symm
  have hgroups : made.argGroups = d.argGroups := by
    rw [← heq]
    split <;> rfl
  have hrooting : made.rooting = .classRooted := by
    rw [← hclass, ← heq]
    split <;> rfl
  rw [← hgroups]
  -- The class is in the table, so its first specification makes a command.
  obtain ⟨symbol, hsymbol, hisClass⟩ :=
    ((wellRooted_ofManifest settings manifest).classRooted_iff hget).1 hclass
  rw [symbols_ofManifest] at hsymbol
  have hroot : manifest.symbols.rooting? symbol = .ok .classRooted := by
    unfold SymbolTable.rooting?
    unfold Symbol.isClass at hisClass
    cases hkind : symbol.kind <;> simp [hkind] at hisClass ⊢
  let begun : Extraction := ⟨start manifest.symbols settings, []⟩
  have hknown : begun.registry.symbols.get? d.id = some symbol := hsymbol
  have hstart : begun.registry.command? d.id = none := rfl
  unfold Manifest.groupsOf
  cases hfind : manifest.elements.find? (fun input => input.element = d.id) with
  | some input =>
    obtain ⟨first, hfirst, -, hentries⟩ :=
      Extraction.exists_command_of_find? hfind hknown hroot hstart
    have hkept := (Extraction.extends_holders _).commands hfirst
    rw [Option.some.inj (hmade.symm.trans hkept), hentries]
    rfl
  | none =>
    have hunlisted : ∀ input ∈ manifest.elements, input.element ≠ d.id := by
      simpa using hfind
    have hnone : (begun.elements manifest.elements).registry.command? d.id = none :=
      (Extraction.command?_elements_of_ne hunlisted).trans hstart
    exact Extraction.argGroups_of_holders hnone hmade

end Registry

/-- The entries for groups are in pairwise different fields. -/
def CommandDeclaration.BindsOnce (d : CommandDeclaration) : Prop :=
  (d.argGroups.map ArgGroupDeclaration.field).Nodup

/-- A command that is rooted in a class has its entries in pairwise different fields exactly if the fields
separate the groups of its element. -/
theorem Registry.bindsOnce_iff_separates {settings : Settings} {manifest : Manifest}
    {d : CommandDeclaration} (hd : d ∈ (ofManifest settings manifest).commands)
    (hclass : d.rooting = .classRooted) :
    d.BindsOnce ↔ manifest.symbols.Separates d.id (manifest.groupsOf d.id) := by
  rw [CommandDeclaration.BindsOnce, argGroups_eq hd hclass, fields_checkGroups,
    SymbolTable.nodup_fields_iff_separates]

end CommandFactory
