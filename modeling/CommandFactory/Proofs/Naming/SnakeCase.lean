import CommandFactory.Proofs.Text.Identifier

/-!
# Names in snake case

`snakeCase` makes a name of one form out of any text (`isSnakeName_snakeCase`), and it leaves the
names of that form, and no others, as they are (`snakeCase_eq_self_iff`). Hence a second pass changes
nothing (`snakeCase_stable`).

The pass writes an underscore where a word starts, which it tells from the character before, and for
what is no letter and no digit, unless its output ends in an underscore already. `Tracks` relates the
two: where the output ends in an underscore, no word starts at the next character. That is why one
underscore never follows another.
-/

set_option autoImplicit false

namespace CommandFactory.Naming

/-! ## Single underscores -/

/-- No two underscores in a row. -/
def NoRun (chars : List Char) : Prop := ¬ ['_', '_'] <:+: chars

theorem noRun_nil : NoRun [] := by
  intro h
  cases List.eq_nil_of_infix_nil h

theorem noRun_cons {c : Char} {rest : List Char} :
    NoRun (c :: rest) ↔ (c = '_' → rest.head? ≠ some '_') ∧ NoRun rest := by
  rw [NoRun, List.infix_cons_iff, not_or, List.cons_prefix_cons, not_and]
  refine and_congr_left fun _ => ?_
  cases rest with
  | nil => simp
  | cons d rest => simp [eq_comm]

/-- What is no underscore may stand in front of anything. -/
theorem NoRun.cons {c : Char} {rest : List Char} (hc : c ≠ '_') (h : NoRun rest) :
    NoRun (c :: rest) :=
  noRun_cons.2 ⟨fun heq => absurd heq hc, h⟩

theorem toLower_ne_underscore {c : Char} (h : c.isAlphanum = true) : c.toLower ≠ '_' := by
  intro heq
  have hlower := isLower_or_isDigit_toLower h
  rw [heq] at hlower
  exact absurd hlower (by decide)

/-! ## The form of a name -/

/-- A name in snake case: it is not empty, has lower-case ASCII letters, ASCII digits and underscores
only, starts with no digit, and has no two underscores in a row. -/
structure IsSnakeName (name : String) : Prop extends IsSnakeWord name where
  start : ∀ c, name.toList.head? = some c → c.isDigit = false
  single : NoRun name.toList

/-! ## What the pass makes -/

/-- Where the output ends in an underscore, the character just read is no letter and no digit. -/
def Tracks (before : Option Char) (onUnderscore : Bool) : Prop :=
  onUnderscore = true → ∀ b, before = some b → b.isAlphanum = false

theorem tracks_false (before : Option Char) : Tracks before false := fun h => by cases h

theorem tracks_of_not_isAlphanum {c : Char} (h : ¬ c.isAlphanum = true) (onUnderscore : Bool) :
    Tracks (some c) onUnderscore := by
  intro _ b hb
  cases hb
  exact Bool.eq_false_iff.2 h

/-- Only a letter or a digit is followed by the start of a word. -/
theorem Tracks.startsWord_eq_false {before : Option Char} {onUnderscore : Bool}
    (h : Tracks before onUnderscore) (hon : onUnderscore = true) (after : List Char) :
    startsWord before after = false := by
  cases before with
  | none => rfl
  | some b =>
    have hb := h hon b rfl
    simp only [isAlphanum_eq, Bool.or_eq_false_iff] at hb
    obtain ⟨⟨hupper, hlower⟩, hdigit⟩ := hb
    simp only [startsWord, hupper, hlower, hdigit, Bool.or_self, Bool.false_and]

/-- The output has no two underscores in a row, and behind an underscore it goes on with another
character. -/
theorem noRun_snakeChars (before : Option Char) (onUnderscore : Bool) (chars : List Char)
    (h : Tracks before onUnderscore) :
    NoRun (snakeChars before onUnderscore chars) ∧
      (onUnderscore = true → (snakeChars before onUnderscore chars).head? ≠ some '_') := by
  fun_induction snakeChars before onUnderscore chars with
  | case1 => exact ⟨noRun_nil, fun _ => by simp⟩
  | case2 before onUnderscore c rest halnum hstarts ih =>
    -- A new word starts, so the output did not end in an underscore.
    obtain ⟨hrest, -⟩ := ih (tracks_false _)
    have hlower := toLower_ne_underscore halnum
    refine ⟨noRun_cons.2 ⟨fun _ => ?_, hrest.cons hlower⟩, fun hon => ?_⟩
    · simpa using hlower
    · rw [Bool.and_eq_true, h.startsWord_eq_false hon] at hstarts
      cases hstarts.2
  | case3 before onUnderscore c rest halnum hstarts ih =>
    obtain ⟨hrest, -⟩ := ih (tracks_false _)
    have hlower := toLower_ne_underscore halnum
    exact ⟨hrest.cons hlower, fun _ => by simpa using hlower⟩
  | case4 before c rest halnum ih => exact ih (tracks_of_not_isAlphanum halnum true)
  | case5 before onUnderscore c rest halnum hon ih =>
    -- The underscore that stands for `c` is the only one: the rest goes on with another character.
    obtain ⟨hrest, hhead⟩ := ih (tracks_of_not_isAlphanum halnum true)
    exact ⟨noRun_cons.2 ⟨fun _ => hhead rfl, hrest⟩, fun h => absurd h hon⟩

theorem noRun_guardStart {chars : List Char} (h : NoRun chars) : NoRun (guardStart chars) := by
  unfold guardStart
  split
  · exact noRun_cons.2 ⟨fun _ => by simp, h⟩
  · rename_i c rest
    split
    · rename_i hdigit
      refine noRun_cons.2 ⟨fun _ hhead => ?_, h⟩
      cases hhead
      exact absurd hdigit (by decide)
    · exact h

theorem toList_snakeCase (name : String) :
    (snakeCase name).toList = guardStart (snakeChars none false name.toList) :=
  String.toList_ofList

/-- Every text becomes a name in snake case. -/
theorem isSnakeName_snakeCase (name : String) : IsSnakeName (snakeCase name) where
  toIsSnakeWord := isSnakeWord_snakeCase name
  start c hc := by
    rw [toList_snakeCase] at hc
    exact isDigit_guardStart _ hc
  single := by
    rw [toList_snakeCase]
    exact noRun_guardStart (noRun_snakeChars none false name.toList (tracks_false none)).1

/-! ## What the pass leaves alone -/

theorem isUpper_eq_false {c : Char} (h : isSnakeChar c = true) : c.isUpper = false := by
  rw [isUpper_eq, decide_eq_false_iff_not]
  simp only [isSnakeChar, isLower_eq, Char.isDigit, Bool.or_eq_true, Bool.and_eq_true,
    decide_eq_true_eq, beq_iff_eq, UInt32.le_iff_toNat_le, ge_iff_le] at h ⊢
  rcases h with (hlower | hdigit) | rfl
  · simp only [Char.reduceVal, UInt32.reduceToNat] at hlower ⊢
    omega
  · simp only [Char.reduceVal, UInt32.reduceToNat] at hdigit ⊢
    omega
  · decide

theorem toLower_eq_self {c : Char} (h : isSnakeChar c = true) : c.toLower = c := by
  have hupper := isUpper_eq_false h
  rw [isUpper_eq, decide_eq_false_iff_not] at hupper
  exact dif_neg hupper

/-- What is neither a letter nor a digit among the characters of snake case is the underscore. -/
theorem eq_underscore {c : Char} (h : isSnakeChar c = true) (halnum : ¬ c.isAlphanum = true) :
    c = '_' := by
  rw [isAlphanum_eq, isUpper_eq_false h, Bool.false_or] at halnum
  rw [isSnakeChar, Bool.eq_false_iff.2 halnum, Bool.false_or] at h
  exact beq_iff_eq.1 h

/-- Characters of snake case come out as they are if no two underscores are in a row, nor one behind
the underscore before them. -/
theorem snakeChars_eq_self (before : Option Char) (onUnderscore : Bool) (chars : List Char)
    (hchars : ∀ c ∈ chars, isSnakeChar c = true) (hsingle : NoRun chars)
    (hhead : onUnderscore = true → chars.head? ≠ some '_') :
    snakeChars before onUnderscore chars = chars := by
  fun_induction snakeChars before onUnderscore chars with
  | case1 => rfl
  | case2 before onUnderscore c rest halnum hstarts ih =>
    rw [isUpper_eq_false (hchars c (List.mem_cons_self ..))] at hstarts
    cases hstarts
  | case3 before onUnderscore c rest halnum hstarts ih =>
    have hc := hchars c (List.mem_cons_self ..)
    have hrest := ih (fun d hd => hchars d (List.mem_cons_of_mem c hd)) (noRun_cons.1 hsingle).2
      fun hon => by cases hon
    rw [hrest, toLower_eq_self hc]
  | case4 before c rest halnum ih =>
    have hc := eq_underscore (hchars c (List.mem_cons_self ..)) halnum
    exact absurd (congrArg some hc) (hhead rfl)
  | case5 before onUnderscore c rest halnum hon ih =>
    obtain rfl := eq_underscore (hchars c (List.mem_cons_self ..)) halnum
    obtain ⟨hnext, hrun⟩ := noRun_cons.1 hsingle
    have hrest := ih (fun d hd => hchars d (List.mem_cons_of_mem _ hd)) hrun fun _ => hnext rfl
    rw [hrest]

theorem guardStart_eq_self {chars : List Char} (hnonempty : chars ≠ [])
    (hstart : ∀ c, chars.head? = some c → c.isDigit = false) : guardStart chars = chars := by
  cases chars with
  | nil => exact absurd rfl hnonempty
  | cons c rest => rw [guardStart, hstart c rfl, if_neg Bool.false_ne_true]

/-- Names in snake case stay as they are. -/
theorem snakeCase_eq_self {name : String} (h : IsSnakeName name) : snakeCase name = name := by
  have hchars := snakeChars_eq_self none false name.toList h.chars h.single fun hon => by cases hon
  rw [← String.toList_inj, toList_snakeCase, hchars, guardStart_eq_self h.nonempty h.start]

theorem snakeCase_eq_self_iff {name : String} : snakeCase name = name ↔ IsSnakeName name := by
  refine ⟨fun h => ?_, snakeCase_eq_self⟩
  rw [← h]
  exact isSnakeName_snakeCase name

/-! ## Stable names -/

/-- Every text becomes a name in snake case, which a second pass leaves alone; the texts that a pass
leaves alone are just these names. With any suffix that the settings may have there is an identifier
for the name. -/
theorem snakeCase_stable (name : String) :
    IsSnakeName (snakeCase name) ∧ snakeCase (snakeCase name) = snakeCase name ∧
      (snakeCase name = name ↔ IsSnakeName name) ∧
      ∀ settings : Settings, settings.validate = .ok settings →
        Text.Writable (snakeCase name ++ settings.moduleSuffix) :=
  ⟨isSnakeName_snakeCase name, snakeCase_eq_self (isSnakeName_snakeCase name),
    snakeCase_eq_self_iff, fun _ hvalid => (isAsciiIdentifier_moduleName hvalid name).writable⟩

/-- The empty suffix leaves a path keyword of a name, and an identifier stands for it still. -/
theorem snakeCase_stable_pathKeyword :
    let settings : Settings := { moduleSuffix := "" }
    settings.validate = .ok settings ∧ snakeCase "Crate" = "crate" ∧
      Text.pathKeywords.contains (snakeCase "Crate" ++ settings.moduleSuffix) = true ∧
      Text.Writable (snakeCase "Crate" ++ settings.moduleSuffix) := by
  intro settings
  have hvalid : settings.validate = .ok settings := validate_suffix (by decide)
  exact ⟨hvalid, by decide +kernel, by decide +kernel,
    (snakeCase_stable "Crate").2.2.2 settings hvalid⟩

end CommandFactory.Naming
