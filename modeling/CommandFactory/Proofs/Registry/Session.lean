import CommandFactory.Proofs.Registry.Entry
import Mathlib.Logic.Function.Basic

/-!
# Sessions

A session keeps its declarations by identity, and beside that the order in which the identities came.
Nothing but its insertions holds the two together: the order lists the identities that have a
declaration, each of them once (`Session.InStep`, `Session.inStep_insertAll`).

A registry keeps both in one list. It is what a session comes to after the same insertions, with the
same answer to each (`Session.represents_insert`, `Session.represents_insertAll`).
-/

set_option autoImplicit false

namespace CommandFactory

/-- Declarations by identity, and the identities in the order in which they came. -/
structure Session where
  declarations : SymbolId → Option Declaration
  order : List SymbolId

namespace Session

/-- Nothing has come. -/
def empty : Session := ⟨fun _ => none, []⟩

/-- The session with a declaration in place of what its identity had. -/
def put (session : Session) (declaration : Declaration) : Session :=
  { session with
    declarations := Function.update session.declarations declaration.id (some declaration) }

/-- Puts a declaration in and says whether the session has taken it. A new identity goes to the end of
the order. What is there already stays, unless it is a container and a command comes. -/
def insert (session : Session) (declaration : Declaration) : Session × Bool :=
  match session.declarations declaration.id with
  | none => ({ session.put declaration with order := session.order ++ [declaration.id] }, true)
  | some (.container _) =>
      match declaration with
      | .command _ => (session.put declaration, true)
      | .container _ => (session, false)
  | some (.command _) => (session, false)

/-- The session after declarations were put in, one after the other. -/
def insertAll (session : Session) (declarations : List Declaration) : Session :=
  declarations.foldl (fun session declaration => (session.insert declaration).1) session

/-- What an insertion does: the identity is new and comes last in the order, a command takes the place
of a container, or the session stays as it is. -/
theorem insert_cases (session : Session) (declaration : Declaration) :
    (session.declarations declaration.id = none ∧
        session.insert declaration =
          ({ session.put declaration with order := session.order ++ [declaration.id] }, true)) ∨
      (∃ c d, session.declarations declaration.id = some (.container c) ∧ declaration = .command d ∧
        session.insert declaration = (session.put declaration, true)) ∨
      ∃ known, session.declarations declaration.id = some known ∧
        (known.isContainer = true → declaration.isContainer = true) ∧
        session.insert declaration = (session, false) := by
  unfold insert
  cases hknown : session.declarations declaration.id with
  | none => exact Or.inl ⟨rfl, rfl⟩
  | some known =>
    refine Or.inr ?_
    cases known with
    | command d => exact Or.inr ⟨.command d, rfl, Bool.noConfusion, rfl⟩
    | container c =>
      cases declaration with
      | command d => exact Or.inl ⟨c, d, rfl, rfl, rfl⟩
      | container other => exact Or.inr ⟨.container c, rfl, fun _ => rfl, rfl⟩

/-! ## Map and order -/

/-- The order lists the identities that have a declaration, each of them once. -/
structure InStep (session : Session) : Prop where
  distinct : session.order.Nodup
  listed : ∀ id, id ∈ session.order ↔ (session.declarations id).isSome = true

variable {session : Session}

theorem isSome_put (session : Session) (declaration : Declaration) (id : SymbolId) :
    ((session.put declaration).declarations id).isSome = true ↔
      id = declaration.id ∨ (session.declarations id).isSome = true := by
  unfold put
  by_cases hid : id = declaration.id
  · simp [hid]
  · simp [hid]

theorem inStep_insert (h : session.InStep) (declaration : Declaration) :
    (session.insert declaration).1.InStep := by
  rcases session.insert_cases declaration with
    ⟨hnew, heq⟩ | ⟨c, d, hknown, -, heq⟩ | ⟨-, -, -, heq⟩
  · have habsent : declaration.id ∉ session.order := by
      rw [h.listed, hnew]
      exact Bool.false_ne_true
    rw [heq]
    refine ⟨?_, fun id => ?_⟩
    · exact List.nodup_append.2 ⟨h.distinct, List.nodup_singleton _, fun a ha b hb hab =>
        habsent (List.mem_singleton.1 hb ▸ hab ▸ ha)⟩
    · rw [List.mem_append, List.mem_singleton, h.listed, or_comm]
      exact (session.isSome_put declaration id).symm
  · rw [heq]
    refine ⟨h.distinct, fun id => ?_⟩
    -- The identity of the container was listed before.
    rw [isSome_put, ← h.listed]
    have hlisted : declaration.id ∈ session.order := (h.listed _).2 (by rw [hknown]; rfl)
    constructor
    · exact Or.inr
    · rintro (rfl | hid)
      · exact hlisted
      · exact hid
  · rw [heq]
    exact h

theorem inStep_insertAll (h : session.InStep) (history : List Declaration) :
    (session.insertAll history).InStep := by
  induction history generalizing session with
  | nil => exact h
  | cons declaration rest ih => exact ih (inStep_insert h declaration)

theorem inStep_empty : empty.InStep :=
  ⟨List.nodup_nil, fun id => by simp [empty]⟩

/-- A declaration is refused exactly if its insertion changes nothing. -/
theorem refused_iff (session : Session) (declaration : Declaration) :
    (session.insert declaration).2 = false ↔ (session.insert declaration).1 = session := by
  rcases session.insert_cases declaration with
    ⟨hnew, heq⟩ | ⟨c, d, hknown, hcommand, heq⟩ | ⟨-, -, -, heq⟩
  · -- The order has become longer.
    rw [heq]
    refine iff_of_false (fun h => nomatch h) fun hsame => ?_
    have hlength := congrArg (fun session : Session => session.order.length) hsame
    simp at hlength
  · -- The identity had a container and has a command.
    rw [heq]
    refine iff_of_false (fun h => nomatch h) fun hsame => ?_
    have hput := congrArg (fun session : Session => session.declarations declaration.id) hsame
    rw [hknown] at hput
    simp [put, hcommand] at hput
  · rw [heq]
    exact iff_of_true rfl rfl

/-! ## Registries -/

/-- The registry has the declarations of the session, in the order of the session. -/
structure Represents (session : Session) (registry : Registry) : Prop where
  get?_eq : ∀ id, registry.get? id = session.declarations id
  ids_eq : registry.ids = session.order

variable {registry : Registry}

theorem represents_empty (symbols : SymbolTable) (settings : Settings) :
    empty.Represents (Registry.start symbols settings) :=
  ⟨fun _ => rfl, rfl⟩

/-- An insertion into a registry is the insertion into its session, with the same answer. -/
theorem represents_insert (h : session.Represents registry) (declaration : Declaration) :
    (session.insert declaration).1.Represents (registry.insert declaration) ∧
      (session.insert declaration).2 = registry.accepts declaration := by
  have hget := h.get?_eq declaration.id
  have hcontains : registry.declarations.contains declaration.id = true ↔
      (session.declarations declaration.id).isSome = true := by
    rw [← hget, Keyed.contains_iff, Option.isSome_iff_exists]
    rfl
  have hput : registry.accepts declaration = true → ∀ id,
      (registry.insert declaration).get? id = (session.put declaration).declarations id := by
    intro haccepts id
    rw [Registry.get?_insert, h.get?_eq, put]
    by_cases hid : declaration.id = id
    · subst hid
      simp [haccepts]
    · simp [hid, Ne.symm hid]
  rcases session.insert_cases declaration with
    ⟨hnew, heq⟩ | ⟨c, d, hknown, rfl, heq⟩ | ⟨known, hknown, hcontainer, heq⟩
  · have haccepts : registry.accepts declaration = true := by
      rw [Registry.accepts, hget, hnew]
    rw [heq]
    refine ⟨⟨hput haccepts, ?_⟩, haccepts.symm⟩
    rw [Registry.ids_insert_of_new (mt hcontains.1 (by rw [hnew]; exact Bool.false_ne_true)),
      h.ids_eq]
  · have haccepts : registry.accepts (.command d) = true := by
      rw [Registry.accepts, hget, hknown]
      rfl
    rw [heq]
    refine ⟨⟨hput haccepts, ?_⟩, haccepts.symm⟩
    rw [Registry.ids_insert_of_contains (hcontains.2 (by rw [hknown]; rfl)), h.ids_eq]
    rfl
  · have hrefuses : registry.accepts declaration = false := by
      rw [Registry.accepts, hget, hknown]
      cases known with
      | command d => rfl
      | container c => rw [hcontainer rfl]; rfl
    rw [heq, Registry.insert, hrefuses]
    exact ⟨h, rfl⟩

/-- The same insertions keep registry and session together. -/
theorem represents_insertAll (h : session.Represents registry) (history : List Declaration) :
    (session.insertAll history).Represents (history.foldl Registry.insert registry) := by
  induction history generalizing session registry with
  | nil => exact h
  | cons declaration rest ih => exact ih (represents_insert h declaration).1

end Session

end CommandFactory
