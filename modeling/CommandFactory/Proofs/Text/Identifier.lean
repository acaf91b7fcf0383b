import CommandFactory.Proofs.Naming

/-!
# Names that identifiers stand for

An identifier stands for a name (`Text.Writable`) if the name is an ASCII identifier. The member names
that an extraction lets pass are such names, and so are the names that are made for modules, packages,
procedures and local variables: each starts with a letter or an underscore and goes on with a word.
-/

set_option autoImplicit false

namespace CommandFactory

namespace Text

/-- There is an identifier for the name. -/
def Writable (name : String) : Prop := (Identifier.ofName? name).isSome = true

instance (name : String) : Decidable (Writable name) :=
  inferInstanceAs (Decidable ((Identifier.ofName? name).isSome = true))

/-- The name is an ASCII identifier. -/
def IsAsciiIdentifier (name : String) : Prop := isAsciiIdentifierChars name.toList = true

instance (name : String) : Decidable (IsAsciiIdentifier name) :=
  inferInstanceAs (Decidable (isAsciiIdentifierChars name.toList = true))

theorem isIdentifierContinue_of_isWordChar {c : Char} (h : isWordChar c = true) :
    isIdentifierContinue c = true := by
  simp [isIdentifierContinue, h]

theorem IsAsciiIdentifier.isIdentifier {name : String} (h : IsAsciiIdentifier name) :
    isIdentifier name = true := by
  unfold IsAsciiIdentifier at h
  unfold Text.isIdentifier
  cases hchars : name.toList with
  | nil => simp [hchars, isAsciiIdentifierChars] at h
  | cons c rest =>
    rw [hchars, isAsciiIdentifierChars, Bool.and_eq_true] at h
    rw [isIdentifierChars, isIdentifierStart, h.1, Bool.true_or, Bool.true_and, List.all_eq_true]
    exact fun d hd => isIdentifierContinue_of_isWordChar (List.all_eq_true.1 h.2 d hd)

theorem IsAsciiIdentifier.writable {name : String} (h : IsAsciiIdentifier name) : Writable name := by
  unfold Writable Identifier.ofName?
  rw [if_pos h.isIdentifier]
  split
  · rfl
  · split <;> rfl

theorem IsAsciiIdentifier.append {name suffix : String} (h : IsAsciiIdentifier name)
    (hsuffix : ∀ c ∈ suffix.toList, isWordChar c = true) : IsAsciiIdentifier (name ++ suffix) := by
  unfold IsAsciiIdentifier at h ⊢
  rw [String.toList_append]
  cases hchars : name.toList with
  | nil => simp [hchars, isAsciiIdentifierChars] at h
  | cons c rest =>
    rw [hchars, isAsciiIdentifierChars, Bool.and_eq_true] at h
    rw [List.cons_append, isAsciiIdentifierChars, h.1, Bool.true_and, List.all_append, h.2,
      Bool.true_and, List.all_eq_true]
    exact hsuffix

/-- A word that does not start with a digit is an identifier. -/
theorem isAsciiIdentifier_of_isWord {name : String} (h : IsWord name)
    (hstart : ∀ c, name.toList.head? = some c → c.isDigit = false) : IsAsciiIdentifier name := by
  unfold IsAsciiIdentifier
  have hchars := h.chars
  cases hlist : name.toList with
  | nil => exact absurd hlist h.nonempty
  | cons c rest =>
    rw [hlist] at hchars hstart
    have hfirst := hchars c (List.mem_cons_self ..)
    have hdigit := hstart c rfl
    rw [isWordChar, Char.isAlphanum, hdigit, Bool.or_false] at hfirst
    rw [isAsciiIdentifierChars, hfirst, Bool.true_and, List.all_eq_true]
    exact fun d hd => hchars d (List.mem_cons_of_mem _ hd)

/-- A member name is an identifier. -/
theorem isAsciiIdentifier_of_isMemberName {name : String} (h : isMemberName name = true) :
    IsAsciiIdentifier name := by
  rw [isMemberName, Bool.and_eq_true] at h
  exact h.2

theorem isWordChar_toString (n : Nat) : ∀ c ∈ (toString n).toList, isWordChar c = true := by
  intro c hc
  rw [Nat.toString_eq_ofList_toDigits, String.toList_ofList] at hc
  have hdigit := Nat.isDigit_of_mem_toDigits (by decide) (by decide) hc
  rw [isWordChar, Char.isAlphanum, hdigit, Bool.or_true, Bool.true_or]

/-- A numbered name is an identifier. -/
theorem IsAsciiIdentifier.numbered {base : String} (h : IsAsciiIdentifier base) (n : Nat) :
    IsAsciiIdentifier (base ++ toString n) :=
  h.append (isWordChar_toString n)

end Text

namespace Naming

open Text

theorem isDigit_guardStart (chars : List Char) {c : Char} (h : (guardStart chars).head? = some c) :
    c.isDigit = false := by
  unfold guardStart at h
  split at h
  · cases h
    decide
  · split at h
    · cases h
      decide
    · rename_i hdigit
      cases h
      exact Bool.eq_false_iff.2 hdigit

theorem isAsciiIdentifier_snakeCase (name : String) : IsAsciiIdentifier (snakeCase name) := by
  refine isAsciiIdentifier_of_isWord (isWord_snakeCase name) fun c hc => ?_
  rw [snakeCase, String.toList_ofList] at hc
  exact isDigit_guardStart _ hc

theorem isAsciiIdentifier_moduleName {settings : Settings} (h : settings.validate = .ok settings)
    (simpleName : String) : IsAsciiIdentifier (moduleName simpleName settings.moduleSuffix) :=
  (isAsciiIdentifier_snakeCase simpleName).append (isWordChar_moduleSuffix h)

theorem isAsciiIdentifier_packageSegments {package : Option String} {segment : String}
    (h : segment ∈ packageSegments package) : IsAsciiIdentifier segment := by
  cases package with
  | none => cases h
  | some package =>
    obtain ⟨part, -, rfl⟩ := List.mem_map.1 h
    exact isAsciiIdentifier_snakeCase _

/-! ## Suffixes of procedures -/

theorem isWordChar_append {first second : String}
    (hfirst : ∀ c ∈ first.toList, isWordChar c = true)
    (hsecond : ∀ c ∈ second.toList, isWordChar c = true) :
    ∀ c ∈ (first ++ second).toList, isWordChar c = true := by
  intro c hc
  rw [String.toList_append, List.mem_append] at hc
  exact hc.elim (hfirst c) (hsecond c)

theorem mem_of_mem_trimUnderscores {chars : List Char} {c : Char} (h : c ∈ trimUnderscores chars) :
    c ∈ chars := by
  rw [trimUnderscores, List.mem_reverse] at h
  have hinner := (List.dropWhile_sublist _).subset h
  rw [List.mem_reverse] at hinner
  exact (List.dropWhile_sublist _).subset hinner

theorem isWordChar_underscore : ∀ c ∈ "_".toList, isWordChar c = true := by
  intro c hc
  rw [show "_".toList = ['_'] from rfl, List.mem_singleton] at hc
  rw [hc]
  decide

theorem isWordChar_typeSuffix (type : String) :
    ∀ c ∈ (typeSuffix type).toList, isWordChar c = true := by
  intro c hc
  rw [typeSuffix, String.toList_ofList] at hc
  exact (isWord_snakeCase _).chars c (mem_of_mem_trimUnderscores hc)

theorem isWordChar_foldl_typeSuffix (params : List String) (suffix : String)
    (h : ∀ c ∈ suffix.toList, isWordChar c = true) :
    ∀ c ∈ (params.foldl (fun suffix type => suffix ++ "_" ++ typeSuffix type) suffix).toList,
      isWordChar c = true := by
  induction params generalizing suffix with
  | nil => exact h
  | cons type rest ih =>
    exact ih _ (isWordChar_append (isWordChar_append h isWordChar_underscore)
      (isWordChar_typeSuffix type))

theorem isWordChar_methodSuffix (method : String) (params : List String) (overloaded : Bool) :
    ∀ c ∈ (methodSuffix method params overloaded).toList, isWordChar c = true := by
  have hmethod := (isWord_snakeCase method).chars
  unfold methodSuffix
  split
  · exact isWordChar_foldl_typeSuffix params _ hmethod
  · exact hmethod

theorem isAsciiIdentifier_procedureName {base : String} {suffix : Option String}
    (hbase : IsAsciiIdentifier base)
    (hsuffix : ∀ text, suffix = some text → ∀ c ∈ text.toList, isWordChar c = true) :
    IsAsciiIdentifier (procedureName base suffix) := by
  cases suffix with
  | none => exact hbase
  | some text => exact (hbase.append isWordChar_underscore).append (hsuffix text rfl)

end Naming

end CommandFactory
