import CommandFactory.Naming
import CommandFactory.Proofs.FileTree.Path
import CommandFactory.Settings.File

/-!
# Words

Every generated name is a word: it is not empty and has ASCII letters, ASCII digits and underscores
only. So it is one component of a path, with or without an extension.
-/

set_option autoImplicit false

namespace CommandFactory

/-- Not empty, with ASCII letters, ASCII digits and underscores only. -/
structure IsWord (name : String) : Prop where
  nonempty : name.toList ≠ []
  chars : ∀ c ∈ name.toList, Text.isWordChar c = true

namespace IsWord

theorem not_mem {name : String} (h : IsWord name) {c : Char} (hc : Text.isWordChar c = false) :
    c ∉ name.toList := by
  intro hmem
  rw [h.chars c hmem] at hc
  cases hc

theorem append {name suffix : String} (h : IsWord name)
    (hsuffix : ∀ c ∈ suffix.toList, Text.isWordChar c = true) : IsWord (name ++ suffix) where
  nonempty := by
    rw [String.toList_append]
    exact List.append_ne_nil_of_left_ne_nil h.nonempty _
  chars := by
    intro c hc
    rw [String.toList_append] at hc
    rcases List.mem_append.1 hc with hname | hrest
    · exact h.chars c hname
    · exact hsuffix c hrest

theorem isFileName {name : String} (h : IsWord name) : IsFileName name where
  nonempty := h.nonempty
  flat := h.not_mem (by decide)
  notHere := fun heq => h.not_mem (c := '.') (by decide) (by simp [heq])
  notUp := fun heq => h.not_mem (c := '.') (by decide) (by simp [heq])

/-- A word with an extension is a file name too. -/
theorem isFileName_extension {name : String} (h : IsWord name) : IsFileName (name ++ ".rs") := by
  have hchars : (name ++ ".rs").toList = name.toList ++ ['.', 'r', 's'] := String.toList_append
  have hlength : 2 < (name.toList ++ ['.', 'r', 's']).length := by
    rw [List.length_append]
    exact Nat.lt_add_left _ (by decide)
  constructor
  · rw [hchars]
    simp
  · rw [hchars, List.mem_append, not_or]
    exact ⟨h.isFileName.flat, by decide⟩
  · rw [hchars]
    intro heq
    rw [heq] at hlength
    exact absurd hlength (by decide)
  · rw [hchars]
    intro heq
    rw [heq] at hlength
    exact absurd hlength (by decide)

end IsWord

namespace Naming

/-- A lower-case ASCII letter, an ASCII digit or an underscore. -/
def isSnakeChar (c : Char) : Bool := c.isLower || c.isDigit || c == '_'

theorem isAlphanum_eq (c : Char) : c.isAlphanum = (c.isUpper || c.isLower || c.isDigit) := rfl

theorem isWordChar_of_isSnakeChar {c : Char} (h : isSnakeChar c = true) :
    Text.isWordChar c = true := by
  simp only [isSnakeChar, Bool.or_eq_true] at h
  simp only [Text.isWordChar, isAlphanum_eq, Bool.or_eq_true]
  rcases h with (hlower | hdigit) | hunderscore
  · exact Or.inl (Or.inl (Or.inr hlower))
  · exact Or.inl (Or.inr hdigit)
  · exact Or.inr hunderscore

theorem isUpper_eq (c : Char) :
    c.isUpper = decide ('A'.val ≤ c.val ∧ c.val ≤ 'Z'.val) := rfl

theorem isLower_eq (c : Char) :
    c.isLower = (decide ('a'.val ≤ c.val) && decide (c.val ≤ 'z'.val)) := rfl

/-- A letter or digit in lower case is a lower-case letter or a digit. -/
theorem isLower_or_isDigit_toLower {c : Char} (h : c.isAlphanum = true) :
    (c.toLower.isLower || c.toLower.isDigit) = true := by
  unfold Char.toLower
  split
  · -- An upper-case letter goes thirty-two codes up, to the lower-case one.
    rename_i hupper
    rw [Bool.or_eq_true]
    left
    simp only [isLower_eq, Bool.and_eq_true, decide_eq_true_eq, UInt32.le_iff_toNat_le, ge_iff_le,
      UInt32.toNat_add] at hupper ⊢
    simp only [Char.reduceVal, UInt32.reduceToNat, UInt32.reduceSub] at hupper ⊢
    omega
  · rename_i hupper
    have hnot : c.isUpper = false := by
      rw [isUpper_eq, decide_eq_false_iff_not]
      exact hupper
    rwa [isAlphanum_eq, hnot, Bool.false_or] at h

theorem isSnakeChar_toLower {c : Char} (h : c.isAlphanum = true) : isSnakeChar c.toLower = true := by
  rw [isSnakeChar, isLower_or_isDigit_toLower h, Bool.true_or]

theorem isSnakeChar_snakeChars (before : Option Char) (onUnderscore : Bool) (chars : List Char) :
    ∀ c ∈ snakeChars before onUnderscore chars, isSnakeChar c = true := by
  have hunderscore : isSnakeChar '_' = true := by decide
  fun_induction snakeChars before onUnderscore chars with
  | case1 => exact fun c hc => by cases hc
  | case2 before onUnderscore c rest halnum hstarts ih =>
    -- A new word starts: an underscore, then the letter in lower case.
    intro d hd
    rcases List.mem_cons.1 hd with rfl | hd
    · exact hunderscore
    · rcases List.mem_cons.1 hd with rfl | hd
      · exact isSnakeChar_toLower halnum
      · exact ih d hd
  | case3 before onUnderscore c rest halnum hstarts ih =>
    intro d hd
    rcases List.mem_cons.1 hd with rfl | hd
    · exact isSnakeChar_toLower halnum
    · exact ih d hd
  | case4 before c rest halnum ih => exact ih
  | case5 before onUnderscore c rest halnum honUnderscore ih =>
    -- What is no letter and no digit becomes an underscore.
    intro d hd
    rcases List.mem_cons.1 hd with rfl | hd
    · exact hunderscore
    · exact ih d hd

/-- Not empty, with lower-case ASCII letters, ASCII digits and underscores only. -/
structure IsSnakeWord (name : String) : Prop where
  nonempty : name.toList ≠ []
  chars : ∀ c ∈ name.toList, isSnakeChar c = true

theorem IsSnakeWord.isWord {name : String} (h : IsSnakeWord name) : IsWord name where
  nonempty := h.nonempty
  chars := fun c hc => isWordChar_of_isSnakeChar (h.chars c hc)

theorem isSnakeWord_snakeCase (name : String) : IsSnakeWord (snakeCase name) := by
  have hchars := isSnakeChar_snakeChars none false name.toList
  have hguard : (snakeCase name).toList = guardStart (snakeChars none false name.toList) :=
    String.toList_ofList
  have hunderscore : isSnakeChar '_' = true := by decide
  constructor
  · rw [hguard]
    unfold guardStart
    split
    · simp
    · split <;> simp
  · -- The guard against an empty name or a digit at the start adds underscores only.
    rw [hguard]
    unfold guardStart
    split
    · simpa using hunderscore
    · rename_i c rest heq
      rw [heq] at hchars
      split
      · simpa [hunderscore] using hchars
      · exact hchars

theorem isWord_snakeCase (name : String) : IsWord (snakeCase name) :=
  (isSnakeWord_snakeCase name).isWord

/-- The default settings pass the check with any suffix of the right characters. -/
theorem validate_suffix {suffix : String}
    (h : suffix.toList.all Settings.isSuffixChar = true) :
    Settings.validate { moduleSuffix := suffix } = .ok { moduleSuffix := suffix } := by
  have hroot : (Token.path? "crate::cli_cfg").isSome = true := by decide +kernel
  have hcrate : (Token.path? "::cmdspec_runtime").isSome = true := by decide +kernel
  unfold Settings.validate Settings.checkPath
  rw [if_pos hroot, if_pos hcrate, h]
  rfl

/-- The default settings pass the check. -/
theorem validate_default : Settings.validate {} = .ok {} := validate_suffix (by decide)

/-- The characters of a suffix that the settings may have. -/
theorem isWordChar_moduleSuffix {settings : Settings} (h : settings.validate = .ok settings) :
    ∀ c ∈ settings.moduleSuffix.toList, Text.isWordChar c = true := by
  unfold Settings.validate at h
  cases hall : settings.moduleSuffix.toList.all Settings.isSuffixChar with
  | true => exact fun c hc => List.all_eq_true.1 hall c hc
  | false =>
    simp only [hall, Bool.not_false, if_true] at h
    cases h

theorem isWord_moduleName {settings : Settings} (h : settings.validate = .ok settings)
    (simpleName : String) : IsWord (moduleName simpleName settings.moduleSuffix) :=
  (isWord_snakeCase simpleName).append (isWordChar_moduleSuffix h)

theorem isSnakeWord_packageSegments {package : Option String} {segment : String}
    (h : segment ∈ packageSegments package) : IsSnakeWord segment := by
  cases package with
  | none => cases h
  | some package =>
    obtain ⟨part, -, rfl⟩ := List.mem_map.1 h
    exact isSnakeWord_snakeCase _

theorem isWord_packageSegments {package : Option String} {segment : String}
    (h : segment ∈ packageSegments package) : IsWord segment :=
  (isSnakeWord_packageSegments h).isWord

/-- Two modules with one suffix have one name exactly if their classes have one in snake case. -/
theorem moduleName_inj {a b suffix : String} :
    moduleName a suffix = moduleName b suffix ↔ snakeCase a = snakeCase b := by
  constructor
  · intro h
    have hchars := congrArg String.toList h
    rw [moduleName, moduleName, String.toList_append, String.toList_append] at hchars
    exact String.toList_inj.1 (List.append_cancel_right hchars)
  · intro h
    rw [moduleName, moduleName, h]

end Naming

end CommandFactory
