import CommandFactory.Token.TypeGrammar
import Mathlib

/-!
# Types and paths have no texts

The tokens that a text is read as hold no string literal of a text (`Token.text`): a literal in a type is
kept as it is spelled. So none of the literals of a module comes from a type or a path
(`Token.plain_of_type?`, `Token.plain_of_path?`).

A reader that gets plain tokens gives plain tokens and leaves plain ones (`Token.Keeps`). As the readers
call each other, this is shown of all of them at once, by induction on the levels (`Token.Readers`).
-/

set_option autoImplicit false
set_option mvcgen.warning false

namespace CommandFactory

namespace Token

open Std.Do

/-! ## Plain tokens -/

/-- The tokens hold no string literal of a text. -/
def Plain (tokens : List Token) : Prop := texts tokens = []

@[simp]
theorem plain_nil : Plain [] := rfl

@[simp]
theorem plain_cons {token : Token} {rest : List Token} :
    Plain (token :: rest) ↔ textsOne token = [] ∧ Plain rest := by
  rw [Plain, texts, List.append_eq_nil_iff, Plain]

theorem plain_iff {tokens : List Token} : Plain tokens ↔ ∀ token ∈ tokens, textsOne token = [] := by
  induction tokens with
  | nil => simp
  | cons token rest ih => rw [plain_cons, ih, List.forall_mem_cons]

@[simp]
theorem plain_append {front back : List Token} :
    Plain (front ++ back) ↔ Plain front ∧ Plain back := by
  rw [plain_iff, plain_iff, plain_iff, List.forall_mem_append]

@[simp]
theorem plain_reverse {tokens : List Token} : Plain tokens.reverse ↔ Plain tokens := by
  rw [plain_iff, plain_iff]
  simp only [List.mem_reverse]

theorem Plain.drop {tokens : List Token} (h : Plain tokens) (n : Nat) : Plain (tokens.drop n) := by
  rw [plain_iff] at h ⊢
  exact fun token hmem => h token (List.mem_of_mem_drop hmem)

@[simp]
theorem plain_group {delimiter : Delimiter} {content : List Token} :
    textsOne (.group delimiter content) = [] ↔ Plain content := by
  rw [textsOne, Plain]

@[simp]
theorem plain_parens {content : List Token} : textsOne (parens content) = [] ↔ Plain content :=
  plain_group

@[simp]
theorem plain_brackets {content : List Token} :
    textsOne (brackets content) = [] ↔ Plain content :=
  plain_group

@[simp]
theorem plain_braces {content : List Token} : textsOne (braces content) = [] ↔ Plain content :=
  plain_group

@[simp]
theorem plain_operatorChars (marks : List Char) : Plain (operatorChars marks) := by
  fun_induction operatorChars marks with
  | case1 => exact plain_nil
  | case2 => exact rfl
  | case3 c rest hrest ih =>
    rw [plain_cons]
    exact ⟨rfl, ih⟩

/-! ## Texts -/

/-- The lexeme is no string literal of a text. -/
def Lexeme.Plain : Lexeme → Prop
  | token one => textsOne one = []
  | _ => True

theorem plain_of_lexeme? {chars rest : List Char} {lexeme : Lexeme}
    (h : lexeme? chars = some (lexeme, rest)) : lexeme.Plain := by
  unfold lexeme? at h
  split at h
  · cases h
  · -- A lifetime.
    unfold lifetime? at h
    split at h
    · cases h
    · split at h
      · cases h
      · split at h <;> cases h
        rfl
      · cases h
        rfl
  · -- A string, as it is spelled.
    obtain ⟨found, -, hfound⟩ := Option.map_eq_some_iff.1 h
    cases hfound
    rfl
  · split at h
    · rename_i bracket hbracket
      cases h
      unfold bracketLexeme? at hbracket
      split at hbracket <;> cases hbracket <;> trivial
    · split at h
      · simp only at h
        split at h <;> cases h
        rfl
      · split at h
        · cases h
          rfl
        · obtain ⟨found, -, hfound⟩ := Option.map_eq_some_iff.1 h
          cases hfound
          rfl

theorem plain_of_step? {chars rest : List Char} {lexeme : Option Lexeme}
    (h : step? chars = some (lexeme, rest)) : ∀ found ∈ lexeme, found.Plain := by
  unfold step? at h
  split at h
  · split at h <;> cases h
    simp
  · split at h
    · cases h
    · obtain ⟨after, -, hafter⟩ := Option.map_eq_some_iff.1 h
      cases hafter
      simp
  · split at h
    · cases h
      simp
    · obtain ⟨found, hfound, heq⟩ := Option.map_eq_some_iff.1 h
      cases heq
      simpa using plain_of_lexeme? hfound
  · cases h

theorem plain_of_lexemes {chars : List Char} {found : List Lexeme} (h : lexemes chars = some found) :
    ∀ lexeme ∈ found, lexeme.Plain := by
  induction chars using lexemes.induct generalizing found with
  | case1 chars hempty =>
    rw [lexemes, if_pos hempty] at h
    cases h
    simp
  | case2 chars hempty hnone =>
    rw [lexemes, if_neg hempty, hnone] at h
    cases h
  | case3 chars hempty lexeme rest hstep hshorter ih =>
    rw [lexemes, if_neg hempty, hstep] at h
    simp only [if_pos hshorter] at h
    obtain ⟨others, hothers, rfl⟩ := Option.map_eq_some_iff.1 h
    rw [List.forall_mem_append]
    exact ⟨fun first hfirst => plain_of_step? hstep first (Option.mem_toList.1 hfirst), ih hothers⟩
  | case4 chars hempty lexeme rest hstep hshorter =>
    rw [lexemes, if_neg hempty, hstep] at h
    simp only [if_neg hshorter] at h
    cases h

theorem plain_of_nest {lexemes : List Lexeme} {opened : List (Delimiter × List Token)}
    {done tokens : List Token} (hlexemes : ∀ lexeme ∈ lexemes, lexeme.Plain)
    (hopened : ∀ bracket ∈ opened, Plain bracket.2) (hdone : Plain done)
    (h : nest lexemes opened done = some tokens) : Plain tokens := by
  fun_induction nest lexemes opened done with
  | case1 done =>
    cases h
    rwa [plain_reverse]
  | case2 => cases h
  | case3 opened done token rest ih =>
    rw [List.forall_mem_cons] at hlexemes
    exact ih hlexemes.2 hopened (plain_cons.2 ⟨hlexemes.1, hdone⟩) h
  | case4 opened done delimiter rest ih =>
    rw [List.forall_mem_cons] at hlexemes
    exact ih hlexemes.2 (List.forall_mem_cons.2 ⟨hdone, hopened⟩) plain_nil h
  | case5 => cases h
  | case6 done delimiter rest before opened ih =>
    -- The closed brackets become one token, after those before them.
    rw [List.forall_mem_cons] at hlexemes hopened
    refine ih hlexemes.2 hopened.2 (plain_cons.2 ⟨?_, hopened.1⟩) h
    rwa [plain_group, plain_reverse]
  | case7 => cases h

theorem plain_of_ofText? {text : String} {tokens : List Token} (h : ofText? text = some tokens) :
    Plain tokens := by
  obtain ⟨found, hfound, hnest⟩ := Option.bind_eq_some_iff.1 h
  exact plain_of_nest (plain_of_lexemes hfound) (fun _ h => by cases h) plain_nil hnest

/-! ## Single tokens -/

/-- From plain tokens the reader gives what is good, and leaves plain tokens. -/
abbrev Keeps {α : Type} (good : α → Prop) (reading : Reading α) : Prop :=
  ⦃fun tokens => ⌜Plain tokens⌝⦄ reading ⦃⇓? a rest => ⌜good a ∧ Plain rest⌝⦄

theorem Keeps.good_of_readAll {α : Type} {good : α → Prop} {reading : Reading α}
    (h : Keeps good reading) {tokens : List Token} {a : α} (hplain : Plain tokens)
    (hread : readAll reading tokens = some a) : good a := by
  unfold readAll at hread
  split at hread
  · rename_i found hfound
    obtain rfl := Option.some.inj hread
    have hgood : (wp⟦(reading tokens : Option (α × List Token))⟧
        (fun found => ⌜good found.1 ∧ Plain found.2⌝, fun _ => ⌜True⌝, ())).down := h tokens hplain
    rw [hfound] at hgood
    exact hgood.1
  · cases hread

theorem keeps_failure {α : Type} {good : α → Prop} : Keeps good failure := by
  intro tokens _
  trivial

/-- Nothing comes out of a failure. -/
@[spec]
theorem failure_spec {α : Type} :
    ⦃fun _ => ⌜True⌝⦄ (failure : Reading α) ⦃⇓? _ _ => ⌜False⌝⦄ := by
  intro tokens _
  trivial

@[spec]
theorem keeps_takeOne : Keeps Plain takeOne := by
  unfold takeOne
  mvcgen
  all_goals simp_all

@[spec]
theorem keeps_takeOperator (marks : String) : Keeps Plain (takeOperator marks) := by
  unfold takeOperator
  mvcgen
  · exact ⟨plain_operatorChars _, Plain.drop ‹_› _⟩
  · exact False.elim

@[spec]
theorem keeps_takeOperator? (marks : String) : Keeps Plain (takeOperator? marks) := by
  unfold takeOperator?
  mvcgen

@[spec]
theorem keeps_takeWord (word : String) : Keeps Plain (takeWord word) := by
  unfold takeWord
  mvcgen
  exact False.elim

@[spec]
theorem keeps_takeWord? (word : String) : Keeps Plain (takeWord? word) := by
  unfold takeWord?
  mvcgen

@[spec]
theorem keeps_takeLifetime : Keeps Plain takeLifetime := by
  unfold takeLifetime
  mvcgen
  exact False.elim

@[spec]
theorem keeps_takeLiteral : Keeps Plain takeLiteral := by
  unfold takeLiteral
  mvcgen
  all_goals simp_all [textsOne]

@[spec]
theorem keeps_takeGroup (delimiter : Delimiter) : Keeps Plain (takeGroup delimiter) := by
  unfold takeGroup
  mvcgen
  all_goals simp_all

/-- What stands between brackets is read by itself. -/
theorem keeps_within {α : Type} {good : α → Prop} {reading : Reading α} (h : Keeps good reading)
    (content : List Token) :
    ⦃fun tokens => ⌜Plain content ∧ Plain tokens⌝⦄ within reading content
      ⦃⇓? a rest => ⌜good a ∧ Plain rest⌝⦄ := by
  unfold within
  cases hread : readAll reading content with
  | none =>
    intro tokens _
    trivial
  | some a =>
    intro tokens hplain
    exact ⟨h.good_of_readAll hplain.1 hread, hplain.2⟩

@[spec]
theorem keeps_lifetimeList (levels : Nat) : Keeps Plain (lifetimeList levels) := by
  induction levels with
  | zero => exact keeps_failure
  | succ levels ih =>
    unfold lifetimeList
    mvcgen [ih]
    all_goals simp_all

@[spec]
theorem keeps_binder (levels : Nat) : Keeps Plain (binder levels) := by
  unfold binder
  mvcgen
  all_goals simp_all

/-! ## Readers -/

/-- The tokens of all arguments are plain. -/
def PlainArguments (arguments : List Argument) : Prop :=
  ∀ argument ∈ arguments, Plain argument.tokens

@[simp]
theorem plainArguments_nil : PlainArguments [] := fun _ h => by cases h

@[simp]
theorem plainArguments_cons {argument : Argument} {rest : List Argument} :
    PlainArguments (argument :: rest) ↔ Plain argument.tokens ∧ PlainArguments rest :=
  List.forall_mem_cons

theorem plain_foldl_appendArgument {arguments : List Argument} (h : PlainArguments arguments)
    {printed : List Token × Bool} (hprinted : Plain printed.1) :
    Plain (arguments.foldl appendArgument printed).1 := by
  induction arguments generalizing printed with
  | nil => exact hprinted
  | cons argument rest ih =>
    rw [PlainArguments, List.forall_mem_cons] at h
    refine ih h.2 ?_
    unfold appendArgument
    simp only [plain_append]
    refine ⟨⟨⟨hprinted, ?_⟩, h.1⟩, ?_⟩ <;> split <;> simp

theorem plain_printArguments {arguments : List Argument} (h : PlainArguments arguments) :
    Plain (printArguments arguments) := by
  refine plain_foldl_appendArgument ?_ plain_nil
  intro argument hmem
  rcases List.mem_append.1 hmem with hmem | hmem
  · exact h argument (List.mem_of_mem_filter hmem)
  · exact h argument (List.mem_of_mem_filter hmem)

/-- At these levels all readers keep tokens plain. -/
structure Readers (levels : Nat) : Prop where
  readType : ∀ sums, Keeps (fun type => Plain type.tokens) (readType levels sums)
  readItems : Keeps Plain (readItems levels)
  readParens : ∀ sums content, Plain content →
    Keeps (fun type => Plain type.tokens) (readParens levels sums content)
  readTuple : Keeps (fun type => Plain type.tokens) (readTuple levels)
  readTypes : Keeps Plain (readTypes levels)
  readPathType : ∀ sums lifetimes, Plain lifetimes →
    Keeps (fun type => Plain type.tokens) (readPathType levels sums lifetimes)
  readSum : Keeps Plain (readSum levels)
  readMoreBounds : Keeps Plain (readMoreBounds levels)
  readBounds : ∀ sums, Keeps (fun bounds => Plain bounds.tokens) (readBounds levels sums)
  readBound : Keeps (fun bounds => Plain bounds.tokens) (readBound levels)
  readTrait : Keeps Plain (readTrait levels)
  readSignature : Keeps Plain (readSignature levels)
  readResult : Keeps Plain (readResult levels)
  readFunction : Keeps Plain (readFunction levels)
  readInputs : Keeps Plain (readInputs levels)
  readInput : Keeps Plain (readInput levels)
  readPath : ∀ inExpression, Keeps (fun path => Plain path.tokens) (readPath levels inExpression)
  readSegments : ∀ inExpression,
    Keeps (fun path => ∀ rest, path = some rest → Plain rest.tokens)
      (readSegments levels inExpression)
  readSegment : ∀ inExpression,
    Keeps (fun path => Plain path.tokens) (readSegment levels inExpression)
  readQualified : Keeps Plain (readQualified levels)
  readQualifiedRest : Keeps Plain (readQualifiedRest levels)
  readArguments : Keeps Plain (readArguments levels)
  readArgumentList : Keeps PlainArguments (readArgumentList levels)
  readArgument : Keeps Plain (readArgument levels)
  readConstraint : Keeps Plain (readConstraint levels)
  readConstant : Keeps Plain (readConstant levels)
  readBlock : Keeps Plain (readBlock levels)
  readValue : Keeps Plain (readValue levels)
  readOperand : Keeps Plain (readOperand levels)

theorem readers_zero : Readers 0 := by
  constructor <;> intros <;> exact keeps_failure

namespace Readers

variable {levels : Nat} {sums inExpression : Bool}

-- A reader calls the others, and itself, one level below.

theorem readType_succ (h : Readers levels) :
    Keeps (fun type => Plain type.tokens) (Token.readType (levels + 1) sums) := by
  have hwithin := keeps_within h.readItems
  unfold Token.readType
  mvcgen [Readers.readType, Readers.readParens, Readers.readFunction, Readers.readPathType,
    Readers.readBounds, hwithin]
  all_goals simp_all

theorem readItems_succ (h : Readers levels) : Keeps Plain (Token.readItems (levels + 1)) := by
  unfold Token.readItems
  mvcgen [Readers.readType, Readers.readValue]
  all_goals simp_all

theorem readParens_succ (h : Readers levels) {content : List Token} (hcontent : Plain content) :
    Keeps (fun type => Plain type.tokens) (Token.readParens (levels + 1) sums content) := by
  have hbounds := keeps_within (h.readBounds true)
  have htrait := keeps_within h.readTrait
  have htuple := keeps_within h.readTuple
  unfold Token.readParens
  mvcgen [Readers.readMoreBounds, hbounds, htrait, htuple]
  all_goals simp_all

theorem readTuple_succ (h : Readers levels) :
    Keeps (fun type => Plain type.tokens) (Token.readTuple (levels + 1)) := by
  unfold Token.readTuple
  mvcgen [Readers.readType, Readers.readTypes]
  all_goals simp_all

theorem readTypes_succ (h : Readers levels) : Keeps Plain (Token.readTypes (levels + 1)) := by
  unfold Token.readTypes
  mvcgen [Readers.readType, Readers.readTypes]
  all_goals simp_all

theorem readPathType_succ (h : Readers levels) {lifetimes : List Token} (hlifetimes : Plain lifetimes) :
    Keeps (fun type => Plain type.tokens) (Token.readPathType (levels + 1) sums lifetimes) := by
  unfold Token.readPathType
  mvcgen [Readers.readQualified, Readers.readPath, Readers.readSum]
  all_goals simp_all

theorem readSum_succ (h : Readers levels) : Keeps Plain (Token.readSum (levels + 1)) := by
  unfold Token.readSum
  mvcgen [Readers.readBound, Readers.readSum]
  all_goals simp_all

theorem readMoreBounds_succ (h : Readers levels) :
    Keeps Plain (Token.readMoreBounds (levels + 1)) := by
  unfold Token.readMoreBounds
  mvcgen [Readers.readBound, Readers.readMoreBounds]
  all_goals simp_all

theorem readBounds_succ (h : Readers levels) :
    Keeps (fun bounds => Plain bounds.tokens) (Token.readBounds (levels + 1) sums) := by
  unfold Token.readBounds
  mvcgen [Readers.readBound, Readers.readBounds]
  all_goals simp_all

theorem readBound_succ (h : Readers levels) :
    Keeps (fun bounds => Plain bounds.tokens) (Token.readBound (levels + 1)) := by
  have hwithin := keeps_within h.readTrait
  unfold Token.readBound
  mvcgen [Readers.readTrait, hwithin]
  all_goals simp_all

theorem readTrait_succ (h : Readers levels) : Keeps Plain (Token.readTrait (levels + 1)) := by
  unfold Token.readTrait
  mvcgen [Readers.readPath, Readers.readSignature]
  all_goals simp_all +zetaDelta

theorem readSignature_succ (h : Readers levels) :
    Keeps Plain (Token.readSignature (levels + 1)) := by
  have hwithin := keeps_within h.readTypes
  unfold Token.readSignature
  mvcgen [hwithin, Readers.readResult]
  all_goals simp_all

theorem readResult_succ (h : Readers levels) : Keeps Plain (Token.readResult (levels + 1)) := by
  unfold Token.readResult
  mvcgen [Readers.readType]
  all_goals simp_all

theorem readFunction_succ (h : Readers levels) : Keeps Plain (Token.readFunction (levels + 1)) := by
  have hwithin := keeps_within h.readInputs
  unfold Token.readFunction
  mvcgen [hwithin, Readers.readResult]
  all_goals simp_all

theorem readInputs_succ (h : Readers levels) : Keeps Plain (Token.readInputs (levels + 1)) := by
  unfold Token.readInputs
  mvcgen [Readers.readInput, Readers.readInputs]
  all_goals simp_all

theorem readInput_succ (h : Readers levels) : Keeps Plain (Token.readInput (levels + 1)) := by
  unfold Token.readInput
  mvcgen [Readers.readType]
  all_goals simp_all

theorem readPath_succ (h : Readers levels) :
    Keeps (fun path => Plain path.tokens) (Token.readPath (levels + 1) inExpression) := by
  unfold Token.readPath
  mvcgen [Readers.readSegment, Readers.readSegments]
  all_goals simp_all

theorem readSegments_succ (h : Readers levels) :
    Keeps (fun path => ∀ rest, path = some rest → Plain rest.tokens)
      (Token.readSegments (levels + 1) inExpression) := by
  unfold Token.readSegments
  mvcgen [Readers.readSegment, Readers.readSegments]
  all_goals simp_all

theorem readSegment_succ (h : Readers levels) :
    Keeps (fun path => Plain path.tokens) (Token.readSegment (levels + 1) inExpression) := by
  unfold Token.readSegment
  mvcgen [Readers.readArguments]
  all_goals simp_all

theorem readQualified_succ (h : Readers levels) :
    Keeps Plain (Token.readQualified (levels + 1)) := by
  unfold Token.readQualified
  mvcgen [Readers.readType, Readers.readPath, Readers.readQualifiedRest]
  all_goals simp_all

theorem readQualifiedRest_succ (h : Readers levels) :
    Keeps Plain (Token.readQualifiedRest (levels + 1)) := by
  unfold Token.readQualifiedRest
  mvcgen [Readers.readSegment, Readers.readQualifiedRest]
  all_goals simp_all

theorem readArguments_succ (h : Readers levels) :
    Keeps Plain (Token.readArguments (levels + 1)) := by
  unfold Token.readArguments
  mvcgen [Readers.readArgumentList]
  all_goals simp_all [plain_printArguments]

theorem readArgumentList_succ (h : Readers levels) :
    Keeps PlainArguments (Token.readArgumentList (levels + 1)) := by
  unfold Token.readArgumentList
  mvcgen [Readers.readArgument, Readers.readArgumentList]
  all_goals simp_all

theorem readArgument_succ (h : Readers levels) : Keeps Plain (Token.readArgument (levels + 1)) := by
  unfold Token.readArgument
  mvcgen [Readers.readType, Readers.readConstant, Readers.readConstraint]
  all_goals simp_all

theorem readConstraint_succ (h : Readers levels) :
    Keeps Plain (Token.readConstraint (levels + 1)) := by
  unfold Token.readConstraint
  mvcgen [Readers.readBound, Readers.readConstraint]
  all_goals simp_all

theorem readConstant_succ (h : Readers levels) : Keeps Plain (Token.readConstant (levels + 1)) := by
  unfold Token.readConstant
  mvcgen [Readers.readBlock]

theorem readBlock_succ (h : Readers levels) : Keeps Plain (Token.readBlock (levels + 1)) := by
  have hwithin := keeps_within h.readValue
  unfold Token.readBlock
  mvcgen [hwithin]
  all_goals simp_all

theorem readValue_succ (h : Readers levels) : Keeps Plain (Token.readValue (levels + 1)) := by
  unfold Token.readValue
  mvcgen [Readers.readOperand, Readers.readValue]
  all_goals simp_all

theorem readOperand_succ (h : Readers levels) : Keeps Plain (Token.readOperand (levels + 1)) := by
  have hwithin := keeps_within h.readValue
  unfold Token.readOperand
  mvcgen [Readers.readOperand, hwithin, Readers.readQualified, Readers.readPath, Readers.readBlock]
  all_goals simp_all

end Readers

theorem readers (levels : Nat) : Readers levels := by
  induction levels with
  | zero => exact readers_zero
  | succ levels h =>
    constructor
    · exact fun _ => h.readType_succ
    · exact h.readItems_succ
    · exact fun _ _ => h.readParens_succ
    · exact h.readTuple_succ
    · exact h.readTypes_succ
    · exact fun _ _ => h.readPathType_succ
    · exact h.readSum_succ
    · exact h.readMoreBounds_succ
    · exact fun _ => h.readBounds_succ
    · exact h.readBound_succ
    · exact h.readTrait_succ
    · exact h.readSignature_succ
    · exact h.readResult_succ
    · exact h.readFunction_succ
    · exact h.readInputs_succ
    · exact h.readInput_succ
    · exact fun _ => h.readPath_succ
    · exact fun _ => h.readSegments_succ
    · exact fun _ => h.readSegment_succ
    · exact h.readQualified_succ
    · exact h.readQualifiedRest_succ
    · exact h.readArguments_succ
    · exact h.readArgumentList_succ
    · exact h.readArgument_succ
    · exact h.readConstraint_succ
    · exact h.readConstant_succ
    · exact h.readBlock_succ
    · exact h.readValue_succ
    · exact h.readOperand_succ

/-! ## Whole texts -/

/-- A whole text is read from plain tokens. -/
theorem good_of_readText? {α : Type} {good : α → Prop} {reading : Nat → Reading α}
    (h : ∀ levels, Keeps good (reading levels)) {text : String} {a : α}
    (hread : readText? reading text = some a) : good a := by
  obtain ⟨tokens, htokens, hall⟩ := Option.bind_eq_some_iff.1 hread
  exact (h _).good_of_readAll (plain_of_ofText? htokens) hall

theorem plain_of_type? {text : String} {tokens : List Token} (h : type? text = some tokens) :
    Plain tokens := by
  refine good_of_readText? (fun levels => ?_) h
  have htype := (readers levels).readType true
  mvcgen [htype]

theorem plain_of_path? {text : String} {tokens : List Token} (h : path? text = some tokens) :
    Plain tokens := by
  refine good_of_readText? (fun levels => ?_) h
  have hpath := (readers levels).readPath false
  mvcgen [hpath]

end Token

end CommandFactory
