import CommandFactory.Proofs.FileTree.Path

/-!
# Parents of paths

A path is a text, and the path of the directory above it is a shorter text: slashes and dots that
stand for no component are dropped with the last name. For a path of names, from the root or from the
working directory (`FilePath.trail`), the components of the parent are all but the last
(`FilePath.parent?_trail`), however the path is spelled.
-/

set_option autoImplicit false

namespace CommandFactory.FilePath

/-! ## Parts of a text -/

theorem flat_of_mem_splitSlashes {chars part : List Char} (h : part ∈ splitSlashes chars) :
    '/' ∉ part := by
  induction chars generalizing part with
  | nil =>
    obtain rfl := List.mem_singleton.1 h
    exact List.not_mem_nil
  | cons c rest ih =>
    rw [splitSlashes] at h
    cases hrest : splitSlashes rest with
    | nil => exact absurd hrest (splitSlashes_ne_nil rest)
    | cons first parts =>
      rw [hrest] at h ih
      by_cases hc : c = '/'
      · simp only [hc, if_true] at h
        rcases List.mem_cons.1 h with rfl | hmem
        · exact List.not_mem_nil
        · exact ih hmem
      · simp only [hc, if_false] at h
        rcases List.mem_cons.1 h with rfl | hmem
        · rw [List.mem_cons, not_or]
          exact ⟨Ne.symm hc, ih (List.mem_cons_self ..)⟩
        · exact ih (List.mem_cons_of_mem _ hmem)

/-- All characters but separators are in the parts. -/
theorem mem_iff_mem_splitSlashes {chars : List Char} {c : Char} (h : c ≠ '/') :
    c ∈ chars ↔ ∃ part ∈ splitSlashes chars, c ∈ part := by
  induction chars with
  | nil => simp [splitSlashes]
  | cons d rest ih =>
    rw [List.mem_cons, ih, splitSlashes]
    cases hrest : splitSlashes rest with
    | nil => exact absurd hrest (splitSlashes_ne_nil rest)
    | cons first parts =>
      by_cases hd : d = '/'
      · simp [hd, h]
      · simp [hd, or_assoc]

theorem splitSlashes_intercalate {parts : List (List Char)} (hne : parts ≠ [])
    (hflat : ∀ part ∈ parts, '/' ∉ part) : splitSlashes (['/'].intercalate parts) = parts := by
  induction parts with
  | nil => exact absurd rfl hne
  | cons part rest ih =>
    rw [List.forall_mem_cons] at hflat
    cases rest with
    | nil => rw [List.intercalate_singleton, splitSlashes_of_flat hflat.1]
    | cons next others =>
      rw [List.intercalate_cons_cons, List.append_assoc, List.singleton_append,
        splitSlashes_append, splitSlashes_of_flat hflat.1, ih (by simp) hflat.2,
        List.singleton_append]

/-- A path that starts at the root has an empty part before its first separator. -/
theorem isAbsolute_iff {path : FilePath} :
    path.isAbsolute = true ↔ (splitSlashes path.text.toList).head? = some [] ∧
      splitSlashes path.text.toList ≠ [[]] := by
  rw [isAbsolute, decide_eq_true_iff]
  cases path.text.toList with
  | nil => simp [splitSlashes]
  | cons c rest =>
    rw [splitSlashes]
    cases hrest : splitSlashes rest with
    | nil => exact absurd hrest (splitSlashes_ne_nil rest)
    | cons part parts => by_cases hc : c = '/' <;> simp [hc]

theorem relativeParts_of_ne {parts : List (List Char)} (h : parts.head? ≠ some ['.']) :
    relativeParts parts = laterParts parts := by
  unfold relativeParts
  split
  · exact absurd rfl h
  · rfl

/-! ## Paths of names -/

/-- The components of a path of names, from the root or from the working directory. -/
def trail (fromRoot : Bool) (names : List String) : List PathPart :=
  (if fromRoot then [.root] else []) ++ names.map .name

theorem trail_concat (fromRoot : Bool) (names : List String) (name : String) :
    trail fromRoot (names ++ [name]) = trail fromRoot names ++ [.name name] := by
  rw [trail, trail, List.map_append, List.append_assoc, List.map_singleton]

variable {path : FilePath} {fromRoot : Bool} {names : List String}

/-- The components of a path by the parts of its text. -/
theorem components_eq_parts (path : FilePath) :
    path.components =
      if path.isAbsolute then .root :: laterParts (splitSlashes path.text.toList)
      else relativeParts (splitSlashes path.text.toList) := by
  rw [components_eq, isAbsolute]
  cases path.text.toList with
  | nil => rfl
  | cons c rest =>
    rw [partsOf]
    by_cases hc : c = '/'
    · have hsplit : splitSlashes ('/' :: rest) = [] :: splitSlashes rest := splitSlashes_append [] rest
      subst hc
      simp [hsplit, laterParts]
    · simp [hc]

theorem root_not_mem_laterParts (parts : List (List Char)) : .root ∉ laterParts parts := by
  induction parts with
  | nil => exact List.not_mem_nil
  | cons part rest ih =>
    rw [laterParts]
    split
    · exact ih
    · split
      · simp [ih]
      · simp [ih]

/-- A path of names by the parts of its text. -/
theorem components_eq_trail_iff :
    path.components = trail fromRoot names ↔
      path.isAbsolute = fromRoot ∧
        laterParts (splitSlashes path.text.toList) = names.map .name ∧
        (fromRoot = false → (splitSlashes path.text.toList).head? ≠ some ['.']) := by
  rw [components_eq_parts, trail]
  generalize splitSlashes path.text.toList = parts
  cases path.isAbsolute with
  | true =>
    cases fromRoot with
    | true => simp
    | false =>
      -- No path of names from the working directory has the root as a component.
      have hroot : ∀ parts, .root :: parts ≠ names.map PathPart.name := by
        intro parts heq
        have hmem : PathPart.root ∈ names.map PathPart.name := heq ▸ List.mem_cons_self ..
        simp at hmem
      simp [hroot]
  | false =>
    by_cases hhere : parts.head? = some ['.']
    · obtain ⟨rest, rfl⟩ := List.head?_eq_some_iff.1 hhere
      have hfirst : ∀ rest, .here :: rest ≠ names.map PathPart.name := by
        intro rest heq
        have hmem : PathPart.here ∈ names.map PathPart.name := heq ▸ List.mem_cons_self ..
        simp at hmem
      cases fromRoot <;> simp [relativeParts, hfirst]
    · cases fromRoot with
      | true =>
        have hroot : laterParts parts ≠ .root :: names.map .name := by
          intro heq
          exact root_not_mem_laterParts parts (heq ▸ List.mem_cons_self ..)
        simp [relativeParts_of_ne hhere, hroot]
      | false => simp [relativeParts_of_ne hhere, hhere]

/-! ## Parents -/

/-- A part that stands for no component. -/
def IsSilent (part : List Char) : Prop := part = [] ∨ part = ['.']

theorem laterParts_silent {part : List Char} (h : IsSilent part) : laterParts [part] = [] := by
  rw [laterParts]
  exact if_pos h

theorem dropSilent_suffix (parts : List (List Char)) : dropSilent parts <:+ parts := by
  fun_induction dropSilent parts with
  | case1 => exact List.suffix_rfl
  | case2 part => exact List.suffix_rfl
  | case3 part rest hne hsilent ih => exact ih.trans (List.suffix_cons part rest)
  | case4 part rest hne hloud => exact List.suffix_rfl

theorem dropSilent_eq_nil {parts : List (List Char)} (h : dropSilent parts = []) : parts = [] := by
  fun_induction dropSilent parts with
  | case1 => rfl
  | case2 part => cases h
  | case3 part rest hne hsilent ih => exact absurd (ih h) (by rintro rfl; exact hne rfl)
  | case4 part rest hne hloud => cases h

/-- What is dropped stands for no component. -/
theorem laterParts_dropSilent (parts : List (List Char)) :
    laterParts (dropSilent parts).reverse = laterParts parts.reverse := by
  fun_induction dropSilent parts with
  | case1 => rfl
  | case2 part => rfl
  | case3 part rest hne hsilent ih =>
    rw [ih, List.reverse_cons, laterParts_append, laterParts_silent hsilent, List.append_nil]
  | case4 part rest hne hloud => rfl

/-- Parts that are dropped leave the first part in its place. -/
theorem head?_dropSilent {parts : List (List Char)} (h : parts ≠ []) :
    (dropSilent parts).reverse.head? = parts.reverse.head? := by
  obtain ⟨dropped, hdropped⟩ := dropSilent_suffix parts
  have hne : (dropSilent parts).reverse ≠ [] := by simpa using mt dropSilent_eq_nil h
  rw [← congrArg List.reverse hdropped, List.reverse_append, List.head?_append_of_ne_nil _ hne]

theorem parent?_trail_nil (h : path.components = trail fromRoot []) : path.parent? = none := by
  rw [parent?, if_pos]
  rw [h]
  cases fromRoot with
  | true => exact Or.inr rfl
  | false => exact Or.inl rfl

theorem loud_of_dropSilent {parts before : List (List Char)} {last : List Char}
    (h : dropSilent parts = last :: before) (hbefore : before ≠ []) : ¬ IsSilent last := by
  fun_induction dropSilent parts with
  | case1 => cases h
  | case2 part =>
    cases h
    exact absurd rfl hbefore
  | case3 part rest hne hsilent ih => exact ih h
  | case4 part rest hne hloud =>
    cases h
    exact hloud

theorem exists_laterParts_loud {part : List Char} (h : ¬ IsSilent part) :
    ∃ component, laterParts [part] = [component] := by
  rw [laterParts]
  refine ⟨if part = ['.', '.'] then .up else .name (String.ofList part), (if_neg h).trans ?_⟩
  split <;> rfl

/-- The last of several parts is that of the last name, when the silent ones behind it are dropped. -/
theorem dropSilent_reverse {parts : List (List Char)} {name : String}
    (h : laterParts parts = (names ++ [name]).map .name) :
    ∃ last before behind, dropSilent parts.reverse = last :: before ∧ last ≠ [] ∧
      parts = before.reverse ++ last :: behind ∧ laterParts before.reverse = names.map .name := by
  have hparts := laterParts_dropSilent parts.reverse
  rw [List.reverse_reverse, h, List.map_append, List.map_singleton] at hparts
  obtain ⟨behind, hbehind⟩ := dropSilent_suffix parts.reverse
  cases hdrop : dropSilent parts.reverse with
  | nil => simp [hdrop, laterParts] at hparts
  | cons last before =>
    rw [hdrop, List.reverse_cons, laterParts_append] at hparts
    have hloud : ¬ IsSilent last := by
      intro hsilent
      rw [laterParts_silent hsilent, List.append_nil] at hparts
      -- A silent part is left only where there is no other.
      have hbefore : before ≠ [] := by
        rintro rfl
        simp [laterParts] at hparts
      exact loud_of_dropSilent hdrop hbefore hsilent
    obtain ⟨component, hcomponent⟩ := exists_laterParts_loud hloud
    rw [hcomponent] at hparts
    refine ⟨last, before, behind.reverse, rfl, fun hempty => hloud (Or.inl hempty), ?_,
      (List.append_inj' hparts rfl).1⟩
    rw [← List.reverse_reverse parts, ← hbehind, hdrop]
    simp

/-- The path whose text has the parts between its separators. -/
def ofParts (parts : List (List Char)) : FilePath := ⟨String.ofList (['/'].intercalate parts)⟩

section

variable {parts : List (List Char)}

theorem splitSlashes_ofParts (hne : parts ≠ []) (hflat : ∀ part ∈ parts, '/' ∉ part) :
    splitSlashes (ofParts parts).text.toList = parts := by
  rw [ofParts, String.toList_ofList, splitSlashes_intercalate hne hflat]

/-- A path of parts is one of names if the parts are for the names, and the first of them makes a root
exactly if it should. -/
theorem components_ofParts (hne : parts ≠ []) (hflat : ∀ part ∈ parts, '/' ∉ part)
    (hmany : parts ≠ [[]]) (hroot : fromRoot = true ↔ parts.head? = some [])
    (hparts : laterParts parts = names.map .name)
    (hhere : fromRoot = false → parts.head? ≠ some ['.']) :
    (ofParts parts).components = trail fromRoot names := by
  rw [components_eq_trail_iff, splitSlashes_ofParts hne hflat]
  refine ⟨?_, hparts, hhere⟩
  rw [Bool.eq_iff_iff, isAbsolute_iff, splitSlashes_ofParts hne hflat, hroot]
  exact and_iff_left hmany

end

/-- Where parts stay before the last one, and more than the root's, the parent has just these. -/
theorem parent?_ofParts {last : List Char} {before : List (List Char)}
    (hnonempty : ¬ (path.components.isEmpty ∨ path.components = [.root]))
    (hdrop : dropSilent (splitSlashes path.text.toList).reverse = last :: before)
    (hfirst : before ≠ []) (honly : dropSilent before ≠ [[]]) :
    path.parent? = some (ofParts (dropSilent before).reverse) := by
  simp only [parent?, if_neg hnonempty, hdrop]
  split
  · exact absurd (dropSilent_eq_nil ‹_›) hfirst
  · exact absurd ‹_› honly
  · rfl

/-- The parent of a path of names has all names but the last, and no other characters. -/
theorem parent?_trail {init : List String} {last : String}
    (h : path.components = trail fromRoot (init ++ [last])) :
    ∃ above, path.parent? = some above ∧ above.components = trail fromRoot init ∧
      ∀ c ∈ above.text.toList, c ≠ '/' → c ∈ path.text.toList := by
  have hnonempty : ¬ (path.components.isEmpty ∨ path.components = [.root]) := by
    rw [h, trail_concat]
    cases trail fromRoot init <;> simp
  obtain ⟨habsolute, hlater, hhere⟩ := components_eq_trail_iff.1 h
  obtain ⟨part, before, behind, hdrop, hpart, hparts, hbefore⟩ := dropSilent_reverse hlater
  have hkept : laterParts (dropSilent before).reverse = init.map .name :=
    (laterParts_dropSilent before).trans hbefore
  have hroot : fromRoot = true ↔ (splitSlashes path.text.toList).head? = some [] ∧
      splitSlashes path.text.toList ≠ [[]] := by
    rw [← habsolute, isAbsolute_iff]
  by_cases hfirst : before = []
  · -- The last name is the only part, so nothing is left.
    subst hfirst
    have hrelative : fromRoot = false := by
      rw [← Bool.not_eq_true, hroot, hparts]
      rintro ⟨hhead, -⟩
      exact hpart (Option.some.inj hhead)
    have hinit : init = [] := by simpa [dropSilent, laterParts] using hkept
    refine ⟨⟨""⟩, by simp only [parent?, if_neg hnonempty, hdrop, dropSilent], ?_, by simp⟩
    rw [hrelative, hinit]
    rfl
  -- Otherwise the first part of the text stays, and with it the root.
  have hne : (dropSilent before).reverse ≠ [] := by simpa using mt dropSilent_eq_nil hfirst
  have hhead : (splitSlashes path.text.toList).head? = (dropSilent before).reverse.head? := by
    rw [head?_dropSilent hfirst, hparts, List.head?_append_of_ne_nil _ (by simpa using hfirst)]
  have hmany : splitSlashes path.text.toList ≠ [[]] := by
    have hpos := List.length_pos_of_ne_nil hfirst
    intro heq
    have hlength := congrArg List.length heq
    rw [hparts, List.length_append, List.length_reverse, List.length_cons,
      List.length_singleton] at hlength
    omega
  rw [hhead, and_iff_left hmany] at hroot
  rw [hhead] at hhere
  by_cases honly : dropSilent before = [[]]
  · -- Of the names none is left but the root.
    rw [honly] at hroot hkept
    have hinit : init = [] := by simpa [laterParts] using hkept
    refine ⟨⟨"/"⟩, by simp only [parent?, if_neg hnonempty, hdrop, honly], ?_, by simp⟩
    rw [hroot.2 rfl, hinit]
    rfl
  · have hmem : ∀ kept ∈ (dropSilent before).reverse, kept ∈ splitSlashes path.text.toList := by
      intro kept hkept
      rw [hparts]
      refine List.mem_append_left _ (List.mem_reverse.2 ?_)
      exact (dropSilent_suffix before).subset (List.mem_reverse.1 hkept)
    have hflat := fun kept hkept => flat_of_mem_splitSlashes (hmem kept hkept)
    have hcomponents : (ofParts (dropSilent before).reverse).components = trail fromRoot init :=
      components_ofParts hne hflat (mt List.reverse_eq_iff.1 honly) hroot hkept hhere
    refine ⟨_, parent?_ofParts hnonempty hdrop hfirst honly, hcomponents, fun c hc hslash => ?_⟩
    rw [mem_iff_mem_splitSlashes hslash, splitSlashes_ofParts hne hflat] at hc
    obtain ⟨kept, hkept, hc⟩ := hc
    exact (mem_iff_mem_splitSlashes hslash).2 ⟨kept, hmem kept hkept, hc⟩

end CommandFactory.FilePath
