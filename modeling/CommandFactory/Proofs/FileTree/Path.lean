import CommandFactory.FileTree.Path
import Mathlib.Data.List.Basic

/-!
# Components of joined paths

A name that is one component of a path (`IsFileName`) adds that component to every path it is joined
to (`components_join`), as every path of names does with all its components
(`components_join_of_descends`). So a path made of such names has the names as its components, and two
of them are the same only if the names are.
-/

set_option autoImplicit false

namespace CommandFactory

/-- The text is a component of a path: it is not empty, names neither the directory nor the one above,
and has no separator. -/
structure IsFileName (name : String) : Prop where
  nonempty : name.toList ≠ []
  flat : '/' ∉ name.toList
  notHere : name.toList ≠ ['.']
  notUp : name.toList ≠ ['.', '.']

namespace FilePath

/-! ## Splitting -/

theorem splitSlashes_ne_nil (chars : List Char) : splitSlashes chars ≠ [] := by
  cases chars with
  | nil => simp [splitSlashes]
  | cons c rest =>
    rw [splitSlashes]
    split
    · simp
    · split <;> simp

theorem splitSlashes_append (chars rest : List Char) :
    splitSlashes (chars ++ '/' :: rest) = splitSlashes chars ++ splitSlashes rest := by
  induction chars with
  | nil =>
    rw [List.nil_append, splitSlashes]
    cases hrest : splitSlashes rest with
    | nil => exact absurd hrest (splitSlashes_ne_nil rest)
    | cons part parts => simp [splitSlashes, hrest]
  | cons c chars ih =>
    -- The character goes to the first part of what follows, which is that of `chars`.
    rw [List.cons_append, splitSlashes, splitSlashes, ih]
    cases hchars : splitSlashes chars with
    | nil => exact absurd hchars (splitSlashes_ne_nil chars)
    | cons part parts =>
      simp only [List.cons_append]
      split <;> rfl

theorem splitSlashes_of_flat {chars : List Char} (h : '/' ∉ chars) : splitSlashes chars = [chars] := by
  induction chars with
  | nil => rfl
  | cons c rest ih =>
    rw [List.mem_cons, not_or] at h
    rw [splitSlashes, ih h.2]
    exact if_neg (Ne.symm h.1)

/-! ## Components -/

theorem laterParts_append (parts others : List (List Char)) :
    laterParts (parts ++ others) = laterParts parts ++ laterParts others := by
  induction parts with
  | nil => rfl
  | cons part rest ih =>
    rw [List.cons_append, laterParts, laterParts, ih]
    split
    · rfl
    · split <;> rfl

theorem laterParts_name {name : String} (h : IsFileName name) :
    laterParts [name.toList] = [.name name] := by
  rw [laterParts, if_neg (not_or.2 ⟨h.nonempty, h.notHere⟩), if_neg h.notUp, laterParts,
    String.ofList_toList]

/-- The components of the parts of a path that does not start at the root. -/
def relativeParts : List (List Char) → List PathPart
  | ['.'] :: rest => .here :: laterParts rest
  | parts => laterParts parts

theorem relativeParts_append {parts : List (List Char)} (h : parts ≠ [])
    (others : List (List Char)) :
    relativeParts (parts ++ others) = relativeParts parts ++ laterParts others := by
  cases parts with
  | nil => exact absurd rfl h
  | cons part rest =>
    -- Only the first part is looked at in a way of its own.
    by_cases hhere : part = ['.']
    · subst hhere
      simp [relativeParts, laterParts_append]
    · have hparts : ∀ rest, relativeParts (part :: rest) = laterParts (part :: rest) := by
        intro rest
        rw [relativeParts]
        rintro _ heq
        exact hhere (List.cons.inj heq).1
      rw [List.cons_append, hparts, hparts, ← List.cons_append, laterParts_append]

/-- The components of a text by its characters. -/
def partsOf : List Char → List PathPart
  | [] => []
  | c :: rest =>
      if c = '/' then .root :: laterParts (splitSlashes rest)
      else relativeParts (splitSlashes (c :: rest))

theorem components_eq (path : FilePath) : path.components = partsOf path.text.toList := by
  unfold components
  split
  · rename_i heq
    rw [heq, partsOf]
  · rename_i rest heq
    rw [heq, partsOf, if_pos rfl]
  · rename_i hnil hroot
    cases hchars : path.text.toList with
    | nil => exact absurd hchars hnil
    | cons c rest =>
      -- The text is not empty and does not start at the root.
      have hc : c ≠ '/' := by
        rintro rfl
        exact hroot rest hchars
      rw [partsOf, if_neg hc]
      unfold relativeParts
      rfl

/-- What follows a separator adds its components. -/
theorem partsOf_append (chars rest : List Char) :
    partsOf (chars ++ '/' :: rest) =
      partsOf (chars ++ ['/']) ++ laterParts (splitSlashes rest) := by
  have hlast : laterParts (splitSlashes []) = [] := rfl
  cases chars with
  | nil => rfl
  | cons c chars =>
    rw [List.cons_append, List.cons_append, partsOf, partsOf]
    split
    · rw [splitSlashes_append, splitSlashes_append, laterParts_append, laterParts_append, hlast,
        List.append_nil]
      rfl
    · rw [← List.cons_append, ← List.cons_append, splitSlashes_append, splitSlashes_append,
        relativeParts_append (splitSlashes_ne_nil _), relativeParts_append (splitSlashes_ne_nil _),
        hlast, List.append_nil]

/-- A separator at the end adds nothing. -/
theorem partsOf_slash {chars : List Char} (h : chars ≠ []) :
    partsOf (chars ++ ['/']) = partsOf chars := by
  have hlast : laterParts (splitSlashes []) = [] := rfl
  cases chars with
  | nil => exact absurd rfl h
  | cons c chars =>
    rw [List.cons_append, partsOf, partsOf]
    split
    · rw [splitSlashes_append, laterParts_append, hlast, List.append_nil]
    · rw [← List.cons_append, splitSlashes_append, relativeParts_append (splitSlashes_ne_nil _),
        hlast, List.append_nil]

/-- A file name is one component. -/
theorem partsOf_name {name : String} (h : IsFileName name) : partsOf name.toList = [.name name] := by
  have hsplit : relativeParts (splitSlashes name.toList) = [.name name] := by
    rw [splitSlashes_of_flat h.flat, ← laterParts_name h, relativeParts]
    intro rest heq
    exact h.notHere (List.cons.inj heq).1
  cases hname : name.toList with
  | nil => exact absurd hname h.nonempty
  | cons c rest =>
    have hc : c ≠ '/' := by
      rintro rfl
      exact h.flat (hname ▸ List.mem_cons_self ..)
    rw [partsOf, if_neg hc, ← hname, hsplit]

/-- Every component is a name: the path neither starts at the root nor steps to the directory itself or
to the one above. -/
def Descends (path : FilePath) : Prop := ∀ part ∈ path.components, ∃ name, part = .name name

/-- A path that starts at the root has the root as a component. -/
theorem Descends.isAbsolute_eq {path : FilePath} (h : path.Descends) : path.isAbsolute = false := by
  rw [isAbsolute, decide_eq_false_iff_not]
  intro hhead
  obtain ⟨rest, hchars⟩ := List.head?_eq_some_iff.1 hhead
  have hroot : PathPart.root ∈ path.components := by
    rw [components_eq, hchars, partsOf, if_pos rfl]
    exact List.mem_cons_self ..
  obtain ⟨name, hname⟩ := h _ hroot
  cases hname

/-- What a path of names adds to another are its own components. -/
theorem Descends.laterParts_eq {path : FilePath} (h : path.Descends) :
    laterParts (splitSlashes path.text.toList) = path.components := by
  have hrelative := h.isAbsolute_eq
  rw [isAbsolute, decide_eq_false_iff_not] at hrelative
  rw [Descends, components_eq] at h
  rw [components_eq]
  cases hchars : path.text.toList with
  | nil => rfl
  | cons c rest =>
    have hc : c ≠ '/' := by
      rintro rfl
      exact hrelative (by rw [hchars, List.head?_cons])
    rw [hchars, partsOf, if_neg hc] at h
    rw [partsOf, if_neg hc]
    -- A path that starts with the directory itself has it as a component.
    unfold relativeParts at h ⊢
    split at h
    · obtain ⟨name, hname⟩ := h .here (List.mem_cons_self ..)
      cases hname
    · rfl

/-- A path of names adds its components to every path. -/
theorem components_join_of_descends (path : FilePath) {next : FilePath} (h : next.Descends) :
    (path.join next).components = path.components ++ next.components := by
  rw [join, h.isAbsolute_eq]
  simp only [Bool.false_eq_true, if_false]
  by_cases hempty : path.text = ""
  · -- Nothing comes before it.
    rw [if_pos (Or.inl hempty), components_eq path, hempty, String.empty_append]
    rfl
  · have hne : path.text.toList ≠ [] := by simpa using hempty
    rw [components_eq path, ← h.laterParts_eq]
    by_cases hslash : path.text.toList.getLast? = some '/'
    · -- The separator is already there.
      obtain ⟨chars, hchars⟩ := List.getLast?_eq_some_iff.1 hslash
      rw [if_pos (Or.inr hslash), components_eq, String.toList_append, hchars,
        List.append_assoc, List.singleton_append, partsOf_append]
    · -- A separator is put between.
      rw [if_neg (not_or.2 ⟨hempty, hslash⟩), components_eq, String.toList_append,
        String.toList_append, List.append_assoc]
      change partsOf (path.text.toList ++ '/' :: next.text.toList) = _
      rw [partsOf_append, partsOf_slash hne]

/-- A file name adds one component to every path. -/
theorem components_join (path : FilePath) {name : String} (h : IsFileName name) :
    (path.join ⟨name⟩).components = path.components ++ [.name name] := by
  have hcomponents : (⟨name⟩ : FilePath).components = [.name name] := by
    rw [components_eq, partsOf_name h]
  have hdescends : (⟨name⟩ : FilePath).Descends := by
    intro part hpart
    rw [hcomponents, List.mem_singleton] at hpart
    exact ⟨name, hpart⟩
  rw [components_join_of_descends path hdescends, hcomponents]

theorem components_foldl_join (names : List String) (path : FilePath)
    (h : ∀ name ∈ names, IsFileName name) :
    (names.foldl (fun path name => path.join ⟨name⟩) path).components =
      path.components ++ names.map .name := by
  induction names generalizing path with
  | nil => simp
  | cons name rest ih =>
    rw [List.foldl_cons, ih _ fun other hother => h other (List.mem_cons_of_mem _ hother),
      components_join path (h name (List.mem_cons_self ..)), List.append_assoc, List.map_cons,
      List.singleton_append]

/-- A path of file names has the names as its components. -/
theorem components_ofNames {names : List String} (h : ∀ name ∈ names, IsFileName name) :
    (ofNames names).components = names.map .name := by
  rw [ofNames, components_foldl_join names _ h]
  rfl

/-- Directories and a file with its extension are told apart by the components that they make. -/
theorem sourceParts_inj {directories others : List String} {file other : String} :
    directories.map PathPart.name ++ [.name (file ++ ".rs")] =
        others.map PathPart.name ++ [.name (other ++ ".rs")] ↔
      directories = others ∧ file = other := by
  constructor
  · intro h
    obtain ⟨hdirectories, hfile⟩ := List.append_inj' h rfl
    refine ⟨(List.map_injective_iff.2 fun _ _ hpart => PathPart.name.inj hpart) hdirectories, ?_⟩
    have hname : file ++ ".rs" = other ++ ".rs" := by simpa using hfile
    have hchars := congrArg String.toList hname
    rw [String.toList_append, String.toList_append] at hchars
    exact String.toList_inj.1 (List.append_cancel_right hchars)
  · rintro ⟨rfl, rfl⟩
    rfl

end FilePath

end CommandFactory
