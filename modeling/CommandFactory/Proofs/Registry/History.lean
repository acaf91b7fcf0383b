import CommandFactory.Proofs.Registry.Discovery
import CommandFactory.Proofs.Registry.Session

/-!
# Insertions one after the other

What a registry has after a sequence of insertions follows from the declarations alone, in the order
in which they came, whether they were accepted or not: the identities are listed in the order of their
first declarations (`ids_insertAll_start`), and an identity has what the history leaves to it
(`Declaration.standing?`), the first command or without one the first container.

A declaration is refused exactly if its insertion changes nothing (`accepts_eq_false_iff`). So a
command stays for good once it is in, and a container until a command comes, whatever else is inserted
(`keepsFirst_insertAll`). All this holds of sessions too, which keep map and order apart.
-/

set_option autoImplicit false

namespace CommandFactory

namespace Declaration

variable (history : List Declaration) (id : SymbolId)

/-- The first declaration that came for an identity. -/
def first? : Option Declaration := history.find? fun declaration => declaration.id = id

/-- The first command that came for an identity. -/
def firstCommand? : Option CommandDeclaration :=
  (history.filterMap command?).find? fun d => d.id = id

/-- What a history leaves to an identity: the first command for it, or without one the first
declaration. -/
def standing? : Option Declaration :=
  ((firstCommand? history id).map command).or (first? history id)

variable (declaration : Declaration) (rest : List Declaration)

theorem first?_cons :
    first? (declaration :: rest) id = (first? [declaration] id).or (first? rest id) := by
  rw [first?, ← List.singleton_append, List.find?_append]
  rfl

theorem firstCommand?_cons :
    firstCommand? (declaration :: rest) id =
      (firstCommand? [declaration] id).or (firstCommand? rest id) := by
  rw [firstCommand?, ← List.singleton_append, List.filterMap_append, List.find?_append]
  rfl

theorem first?_singleton :
    first? [declaration] id = if declaration.id = id then some declaration else none := by
  simp [first?, List.find?_singleton]

end Declaration

namespace Registry

open Declaration

/-- The registry after declarations were put in, one after the other. -/
def insertAll (registry : Registry) (declarations : List Declaration) : Registry :=
  declarations.foldl insert registry

variable {registry : Registry} {declaration : Declaration} {id : SymbolId}

theorem insertAll_cons (registry : Registry) (declaration : Declaration)
    (rest : List Declaration) :
    registry.insertAll (declaration :: rest) = (registry.insert declaration).insertAll rest := rfl

theorem insertAll_concat (registry : Registry) (declarations : List Declaration)
    (declaration : Declaration) :
    registry.insertAll (declarations ++ [declaration]) =
      (registry.insertAll declarations).insert declaration :=
  List.foldl_concat ..

/-! ## One insertion -/

/-- What an identity has is not accepted once more. -/
theorem accepts_eq_false_of_get? (h : registry.get? declaration.id = some declaration) :
    registry.accepts declaration = false := by
  rw [accepts, h]
  cases declaration <;> rfl

/-- A declaration is refused exactly if its insertion changes nothing. -/
theorem accepts_eq_false_iff :
    registry.accepts declaration = false ↔ registry.insert declaration = registry := by
  constructor
  · intro h
    rw [insert, h]
    rfl
  · intro h
    by_contra haccepts
    -- What was accepted is there afterwards, so it would have been there before.
    have hget := registry.get?_insert declaration declaration.id
    rw [h, if_pos ⟨rfl, Bool.eq_true_of_not_eq_false haccepts⟩] at hget
    exact haccepts (accepts_eq_false_of_get? hget)

/-- An insertion gives a command to an identity that has none. -/
theorem command?_insert (registry : Registry) (declaration : Declaration) (id : SymbolId) :
    (registry.insert declaration).command? id =
      (registry.command? id).or (firstCommand? [declaration] id) := by
  cases declaration with
  | container c =>
    rw [command?_insert_container]
    exact (Option.or_none ..).symm
  | command d =>
    have hd : firstCommand? [.command d] id = (some d).filter fun d => d.id = id := by
      rw [Option.filter_some]
      exact List.find?_singleton
    rw [command?_insert_command, hd]

/-- The command of an identity is what it has. -/
theorem command?_or_get? (registry : Registry) (id : SymbolId) :
    ((registry.command? id).map command).or (registry.get? id) = registry.get? id := by
  unfold command?
  cases hget : registry.get? id with
  | none => rfl
  | some known => cases known <;> rfl

theorem command?_eq_none_of_container {c : Container}
    (h : registry.get? id = some (.container c)) : registry.command? id = none := by
  rw [Registry.command?, h]
  rfl

/-- An identity has its command, the old one before the new one; or else what it had, or else what
comes. -/
theorem get?_insert_eq (registry : Registry) (declaration : Declaration) (id : SymbolId) :
    (registry.insert declaration).get? id =
      (((registry.command? id).or (firstCommand? [declaration] id)).map command).or
        ((registry.get? id).or (first? [declaration] id)) := by
  rw [← command?_or_get?, command?_insert, get?_insert, first?_singleton]
  by_cases hid : declaration.id = id
  · subst hid
    cases hget : registry.get? declaration.id with
    | none => simp [accepts, hget]
    | some known =>
      cases known with
      | command d => simp [accepts, hget]
      | container c =>
        rw [command?_eq_none_of_container hget, Option.none_or]
        -- Of what can come for a container, only a command is accepted.
        cases declaration with
        | container other => simp [accepts, hget, isContainer, firstCommand?, Declaration.command?]
        | command d => simp [accepts, firstCommand?, Declaration.command?, Declaration.id]
  · simp only [hid, false_and, if_false, Option.or_none]

/-! ## Many insertions -/

/-- A sequence of insertions gives the first command in it to an identity that has none. -/
theorem command?_insertAll (registry : Registry) (declarations : List Declaration)
    (id : SymbolId) :
    (registry.insertAll declarations).command? id =
      (registry.command? id).or (firstCommand? declarations id) := by
  induction declarations generalizing registry with
  | nil => exact (Option.or_none ..).symm
  | cons declaration rest ih =>
    rw [insertAll_cons, ih, command?_insert, firstCommand?_cons id declaration rest,
      Option.or_assoc]

theorem get?_insertAll (registry : Registry) (declarations : List Declaration) (id : SymbolId) :
    (registry.insertAll declarations).get? id =
      (((registry.command? id).or (firstCommand? declarations id)).map command).or
        ((registry.get? id).or (first? declarations id)) := by
  induction declarations generalizing registry with
  | nil =>
    change registry.get? id =
      (((registry.command? id).or none).map command).or ((registry.get? id).or none)
    rw [Option.or_none, Option.or_none, command?_or_get?]
  | cons declaration rest ih =>
    rw [insertAll_cons, ih, command?_insert, get?_insert_eq,
      firstCommand?_cons id declaration rest, first?_cons id declaration rest,
      ← @Option.or_assoc _ (registry.command? id)]
    -- With a command after the first insertion the rest has no part in it.
    cases (registry.command? id).or (firstCommand? [declaration] id) with
    | none => simp only [Option.none_or, Option.map_none, Option.or_assoc]
    | some d => rfl

/-- A command stays, whatever comes after it. -/
theorem get?_insertAll_command {d : CommandDeclaration} (h : registry.command? id = some d)
    (later : List Declaration) : (registry.insertAll later).get? id = some (.command d) := by
  rw [get?_insertAll, h]
  rfl

/-- A container stays until a command comes. -/
theorem get?_insertAll_container {c : Container} (h : registry.get? id = some (.container c))
    (later : List Declaration) :
    (registry.insertAll later).get? id =
      ((firstCommand? later id).map command).or (some (.container c)) := by
  rw [get?_insertAll, command?_eq_none_of_container h, h, Option.none_or, Option.some_or]

theorem ids_isPrefix_insertAll (registry : Registry) (later : List Declaration) :
    registry.ids <+: (registry.insertAll later).ids := by
  induction later generalizing registry with
  | nil => exact List.prefix_refl _
  | cons declaration rest ih => exact (ids_isPrefix_insert registry declaration).trans (ih _)

/-- What has a place keeps it. -/
theorem position?_insertAll {declaration : Declaration} (h : registry.get? id = some declaration)
    (later : List Declaration) :
    (registry.insertAll later).position? id = registry.position? id := by
  obtain ⟨i, hi, -⟩ := exists_position? (Keyed.contains_iff.2 ⟨declaration, h⟩)
  rw [hi]
  exact position?_mono (registry.ids_isPrefix_insertAll later) hi

theorem mem_ids_iff {id : SymbolId} : id ∈ registry.ids ↔ (registry.get? id).isSome = true := by
  rw [← contains_iff_mem_ids, Keyed.contains_iff, Option.isSome_iff_exists]
  rfl

/-- The declarations in order are those of the identities in order. -/
theorem all_eq_filterMap_ids (registry : Registry) :
    registry.all = registry.ids.filterMap registry.get? := by
  have hget : ∀ declaration ∈ registry.all,
      (registry.get? ∘ Declaration.id) declaration = some declaration := fun _ h => get?_of_mem h
  calc registry.all
      = registry.all.filterMap some := List.filterMap_some.symm
    _ = registry.all.filterMap (registry.get? ∘ Declaration.id) := (List.filterMap_congr hget).symm
    _ = registry.ids.filterMap registry.get? := List.filterMap_map.symm

/-! ## From the start -/

variable (symbols : SymbolTable) (settings : Settings) (history : List Declaration)

/-- An identity has what the history leaves to it. -/
theorem get?_insertAll_start (id : SymbolId) :
    ((start symbols settings).insertAll history).get? id = standing? history id :=
  get?_insertAll (start symbols settings) history id

/-- The first declaration of an identity gives it its place. -/
theorem ids_insertAll_start :
    ((start symbols settings).insertAll history).ids = (history.map Declaration.id).eraseDups := by
  induction history using List.reverseRecOn with
  | nil => rfl
  | append_singleton before declaration ih =>
    rw [insertAll_concat, List.map_append, List.eraseDups_append, ← ih]
    have hknown : ((start symbols settings).insertAll before).declarations.contains declaration.id =
        true ↔ declaration.id ∈ before.map Declaration.id := by
      rw [contains_iff_mem_ids, ih, List.mem_eraseDups]
    by_cases h : declaration.id ∈ before.map Declaration.id
    · rw [ids_insert_of_contains (hknown.2 h), List.map_singleton, List.cons_removeAll,
        if_neg (by simpa using h), List.nil_removeAll, List.eraseDups_nil, List.append_nil]
    · rw [ids_insert_of_new (mt hknown.1 h), List.map_singleton, List.cons_removeAll,
        if_pos (by simpa using h), List.nil_removeAll]
      rfl

/-- The registry goes by the first declarations of a history, and will do so whatever comes later. -/
structure KeepsFirst (registry : Registry) (history : List Declaration) : Prop where
  distinct : registry.ids.Nodup
  listed : ∀ id, id ∈ registry.ids ↔ (registry.get? id).isSome = true
  inOrder : registry.ids = (history.map Declaration.id).eraseDups
  all_eq : registry.all = registry.ids.filterMap registry.get?
  get?_eq : ∀ id, registry.get? id = standing? history id
  /-- The first command for an identity is what it has for good. -/
  command_stays : ∀ id d, firstCommand? history id = some d → ∀ later,
    (registry.insertAll later).get? id = some (.command d)
  /-- A container stays until a command comes for it, which takes its place in the order. -/
  container_stays : ∀ id c, registry.get? id = some (.container c) → ∀ later,
    (registry.insertAll later).get? id =
        ((firstCommand? later id).map command).or (some (.container c)) ∧
      (registry.insertAll later).position? id = registry.position? id
  /-- What is refused, and nothing else, changes nothing. -/
  refused_iff : ∀ declaration,
    registry.accepts declaration = false ↔ registry.insert declaration = registry

theorem keepsFirst_start : ((start symbols settings).insertAll history).KeepsFirst history where
  distinct := ((start symbols settings).insertAll history).declarations.distinct
  listed _ := mem_ids_iff
  inOrder := ids_insertAll_start symbols settings history
  all_eq := all_eq_filterMap_ids _
  get?_eq := get?_insertAll_start symbols settings history
  command_stays id d hfirst later := by
    have hcommand : ((start symbols settings).insertAll history).command? id = some d :=
      (command?_insertAll (start symbols settings) history id).trans hfirst
    exact get?_insertAll_command hcommand later
  container_stays id c hget later :=
    ⟨get?_insertAll_container hget later, position?_insertAll hget later⟩
  refused_iff _ := accepts_eq_false_iff

/-- A session runs through its declarations as the registry that it comes to lists them. -/
theorem all_eq_of_represents {session : Session} (h : session.Represents registry) :
    registry.all = session.order.filterMap session.declarations := by
  rw [all_eq_filterMap_ids, h.ids_eq, funext h.get?_eq]

/-- A sequence of insertions, whatever they are, makes a registry that keeps what came first. Of a
session it makes one whose map and order are in step and are those of the registry, and which gives the
same answer to every further declaration: a refusal exactly if the session stays as it is. -/
theorem keepsFirst_insertAll :
    ((start symbols settings).insertAll history).KeepsFirst history ∧
      (Session.empty.insertAll history).InStep ∧
      (Session.empty.insertAll history).Represents ((start symbols settings).insertAll history) ∧
      ((start symbols settings).insertAll history).all =
        (Session.empty.insertAll history).order.filterMap
          (Session.empty.insertAll history).declarations ∧
      ∀ declaration,
        ((Session.empty.insertAll history).insert declaration).2 =
            ((start symbols settings).insertAll history).accepts declaration ∧
          (((Session.empty.insertAll history).insert declaration).2 = false ↔
            ((Session.empty.insertAll history).insert declaration).1 =
              Session.empty.insertAll history) := by
  have hrepresents : (Session.empty.insertAll history).Represents
      ((start symbols settings).insertAll history) :=
    Session.represents_insertAll (Session.represents_empty symbols settings) history
  refine ⟨keepsFirst_start symbols settings history,
    Session.inStep_insertAll Session.inStep_empty history, hrepresents,
    all_eq_of_represents hrepresents, fun declaration => ⟨?_, ?_⟩⟩
  · exact (Session.represents_insert hrepresents declaration).2
  · exact Session.refused_iff _ declaration

/-- A container for an identity. -/
def containerFor (id : String) : Container := { (default : Container) with id := ⟨id⟩ }

/-- A command for an identity, under a name. -/
def commandFor (id name : String) : CommandDeclaration :=
  { (default : CommandDeclaration) with id := ⟨id⟩, simpleName := name }

/-- The command that takes the place of a container stays before a second command and a second
container; the other container stays in its place, before a command takes it. -/
theorem keepsFirst_insertAll_toolAndLog :
    let history : List Declaration :=
      [.container (containerFor "Tool"), .container (containerFor "Log"),
        .command (commandFor "Tool" "first"), .command (commandFor "Tool" "second")]
    let registry := (start default {}).insertAll history
    firstCommand? history ⟨"Tool"⟩ = some (commandFor "Tool" "first") ∧
      registry.get? ⟨"Log"⟩ = some (.container (containerFor "Log")) ∧
      (registry.insertAll [.container (containerFor "Tool")]).get? ⟨"Tool"⟩ =
        some (.command (commandFor "Tool" "first")) ∧
      (registry.insertAll [.command (commandFor "Log" "late")]).get? ⟨"Log"⟩ =
        some (.command (commandFor "Log" "late")) ∧
      (registry.insertAll [.command (commandFor "Log" "late")]).position? ⟨"Log"⟩ = some 1 := by
  intro history registry
  have hfirst : firstCommand? history ⟨"Tool"⟩ = some (commandFor "Tool" "first") := by
    decide +kernel
  have hcontainer : registry.get? ⟨"Log"⟩ = some (.container (containerFor "Log")) := by
    decide +kernel
  have hkeeps : registry.KeepsFirst history := (keepsFirst_insertAll default {} history).1
  obtain ⟨hget, hposition⟩ :=
    hkeeps.container_stays ⟨"Log"⟩ _ hcontainer [.command (commandFor "Log" "late")]
  refine ⟨hfirst, hcontainer, hkeeps.command_stays ⟨"Tool"⟩ _ hfirst _, ?_, ?_⟩
  · rw [hget]
    decide +kernel
  · rw [hposition]
    decide +kernel

end Registry

end CommandFactory
