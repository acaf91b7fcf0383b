import CommandFactory.FileTree.Basic
import CommandFactory.Proofs.FileTree.Parent

/-!
# Ways through a tree of files

A path of names leads from the root, or from the working directory, to the place that its names spell
(`FileTree.place?`), if there are directories all the way (`FileTree.Opens`). The texts of two paths
may differ and lead to one place still; what they lead to is what is at the place
(`FileTree.kind?_eq`).
-/

set_option autoImplicit false

namespace CommandFactory

/-- The kind of a node. -/
def FileNode.kind : FileNode → FileKind
  | .file _ => .file
  | .directory => .directory

namespace FilePath

/-- What is joined to a path is its last part. -/
theorem splitSlashes_join (path : FilePath) {name : String} (h : IsFileName name) :
    ∃ parts, splitSlashes (path.join ⟨name⟩).text.toList = parts ++ [name.toList] ∧
      laterParts parts = laterParts (splitSlashes path.text.toList) ∧
      (path.join ⟨name⟩).isAbsolute = path.isAbsolute ∧
      ∀ c ∈ (path.join ⟨name⟩).text.toList, c ∈ path.text.toList ∨ c = '/' ∨ c ∈ name.toList := by
  have hname : (⟨name⟩ : FilePath).isAbsolute = false := by
    rw [isAbsolute, decide_eq_false_iff_not]
    intro hhead
    exact h.flat (List.mem_of_mem_head? hhead)
  have hsplit := splitSlashes_of_flat h.flat
  rw [join, if_neg (by simp [hname])]
  by_cases hempty : path.text = ""
  · -- The name stands alone.
    rw [if_pos (Or.inl hempty), hempty]
    refine ⟨[], ?_, rfl, ?_, ?_⟩
    · simpa using hsplit
    · rw [isAbsolute, isAbsolute, hempty]
      simpa [isAbsolute] using hname
    · intro c hc
      rw [String.empty_append] at hc
      exact Or.inr (Or.inr hc)
  · have hne : path.text.toList ≠ [] := by simpa using hempty
    by_cases hslash : path.text.toList.getLast? = some '/'
    · obtain ⟨chars, hchars⟩ := List.getLast?_eq_some_iff.1 hslash
      rw [if_pos (Or.inr hslash)]
      refine ⟨splitSlashes chars, ?_, ?_, ?_, ?_⟩
      · rw [String.toList_append, hchars, List.append_assoc, List.singleton_append,
          splitSlashes_append, hsplit]
      · rw [hchars, splitSlashes_append, laterParts_append]
        exact (List.append_nil _).symm
      · rw [isAbsolute, isAbsolute, String.toList_append, List.head?_append_of_ne_nil _ hne]
      · intro c hc
        rw [String.toList_append, List.mem_append] at hc
        exact hc.imp_right Or.inr
    · rw [if_neg (not_or.2 ⟨hempty, hslash⟩)]
      have htext : (path.text ++ "/" ++ name).toList = path.text.toList ++ '/' :: name.toList := by
        rw [String.toList_append, String.toList_append, List.append_assoc]
        rfl
      refine ⟨splitSlashes path.text.toList, ?_, rfl, ?_, ?_⟩
      · rw [htext, splitSlashes_append, hsplit]
      · rw [isAbsolute, isAbsolute, htext, List.head?_append_of_ne_nil _ hne]
      · intro c hc
        rw [htext, List.mem_append, List.mem_cons] at hc
        exact hc

/-- A part is silent, or it is for the first of the names. -/
theorem laterParts_cons_eq_names {part : List Char} {rest : List (List Char)} {names : List String}
    (h : laterParts (part :: rest) = names.map .name) :
    (IsSilent part ∧ laterParts rest = names.map .name) ∨
      (¬ IsSilent part ∧ part ≠ ['.', '.'] ∧ ∃ others, names = String.ofList part :: others ∧
        laterParts rest = others.map .name) := by
  rw [laterParts] at h
  by_cases hsilent : IsSilent part
  · exact Or.inl ⟨hsilent, (if_pos hsilent).symm.trans h⟩
  · have hloud : ¬ (part = [] ∨ part = ['.']) := hsilent
    rw [if_neg hloud] at h
    cases names with
    | nil => split at h <;> cases h
    | cons name others =>
      by_cases hup : part = ['.', '.']
      · simp [hup] at h
      · simp only [hup, if_false, List.map_cons, List.cons.injEq, PathPart.name.injEq] at h
        exact Or.inr ⟨hsilent, hup, others, by rw [h.1], h.2⟩

end FilePath

namespace FileTree

open FilePath

/-! ## Places -/

/-- The place to which a path leads. -/
def place? (tree : FileTree) (path : FilePath) : Option (List String) :=
  match tree.start path with
  | .error _ => none
  | .ok (place, parts) => (parts.foldlM tree.step place).toOption

/-- The place where paths start. -/
def origin (tree : FileTree) (fromRoot : Bool) : List String := if fromRoot then [] else tree.current

/-- There are directories all the way from a place along names. -/
structure Opens (tree : FileTree) (place names : List String) : Prop where
  directories : ∀ above, above <+: names → tree.node? (place ++ above) = some .directory
  short : ∀ name ∈ names, name.utf8ByteSize ≤ maxNameSize

variable {tree : FileTree} {path : FilePath} {place names target : List String}
  {parts : List (List Char)}

theorem kind?_eq (tree : FileTree) (path : FilePath) :
    tree.kind? path =
      (tree.place? path).bind fun place => (tree.node? place).map FileNode.kind := by
  unfold kind? find place?
  cases tree.start path with
  | error e => rfl
  | ok found =>
    obtain ⟨place, parts⟩ := found
    simp only [bind, Except.bind]
    cases parts.foldlM tree.step place with
    | error e => rfl
    | ok target =>
      simp only [Except.toOption, Option.bind_some]
      cases tree.node? target with
      | none => rfl
      | some node => cases node <;> rfl

theorem start_eq (hempty : path.text ≠ "") (hnull : '\x00' ∉ path.text.toList) :
    tree.start path = .ok (tree.origin path.isAbsolute, splitSlashes path.text.toList) := by
  rw [start, if_neg hempty, if_neg (by simpa using hnull)]
  rfl

theorem start_eq_ok {found : List String × List (List Char)} (h : tree.start path = .ok found) :
    path.text ≠ "" ∧ '\x00' ∉ path.text.toList ∧
      found = (tree.origin path.isAbsolute, splitSlashes path.text.toList) := by
  have hempty : path.text ≠ "" := by
    intro hempty
    rw [start, if_pos hempty] at h
    cases h
  have hnull : '\x00' ∉ path.text.toList := by
    intro hnull
    rw [start, if_neg hempty, if_pos (by simpa using hnull)] at h
    cases h
  rw [start_eq hempty hnull] at h
  exact ⟨hempty, hnull, (Except.ok.inj h).symm⟩

/-! ## Steps -/

theorem step_silent (hdirectory : tree.node? place = some .directory) {part : List Char}
    (h : IsSilent part) : tree.step place part = .ok place := by
  have hexpect : tree.expectDirectory place = .ok () := by rw [expectDirectory, hdirectory]
  have hpart : part = [] ∨ part = ['.'] := h
  simp only [step, hexpect, hpart, if_true]
  rfl

/-- A step along a name. -/
theorem step_name (hdirectory : tree.node? place = some .directory) {part : List Char}
    (hloud : ¬ IsSilent part) (hup : part ≠ ['.', '.'])
    (hshort : (String.ofList part).utf8ByteSize ≤ maxNameSize) :
    tree.step place part = .ok (place ++ [String.ofList part]) := by
  have hexpect : tree.expectDirectory place = .ok () := by rw [expectDirectory, hdirectory]
  have hpart : ¬ (part = [] ∨ part = ['.']) := hloud
  simp only [step, hexpect, hpart, hup, if_false, Nat.not_lt.2 hshort]
  rfl

theorem step_eq_ok {part : List Char} (h : tree.step place part = .ok target) :
    tree.node? place = some .directory ∧ (IsSilent part → target = place) ∧
      (¬ IsSilent part → part ≠ ['.', '.'] → (String.ofList part).utf8ByteSize ≤ maxNameSize ∧
        target = place ++ [String.ofList part]) := by
  unfold step at h
  cases hexpect : tree.expectDirectory place with
  | error e =>
    rw [hexpect] at h
    cases h
  | ok done =>
    have hdirectory : tree.node? place = some .directory := by
      unfold expectDirectory at hexpect
      split at hexpect
      · cases hexpect
      · cases hexpect
      · assumption
    simp only [hexpect, bind, Except.bind] at h
    refine ⟨hdirectory, fun hsilent => ?_, fun hloud hup => ?_⟩
    · have hpart : part = [] ∨ part = ['.'] := hsilent
      rw [if_pos hpart] at h
      cases h
      rfl
    · have hpart : ¬ (part = [] ∨ part = ['.']) := hloud
      rw [if_neg hpart, if_neg hup] at h
      split at h
      · cases h
      · rename_i hshort
        cases h
        exact ⟨Nat.not_lt.1 hshort, rfl⟩

/-! ## Ways -/

theorem Opens.directory (h : tree.Opens place names) : tree.node? place = some .directory := by
  have := h.directories [] List.nil_prefix
  rwa [List.append_nil] at this

theorem Opens.tail {name : String} (h : tree.Opens place (name :: names)) :
    tree.Opens (place ++ [name]) names where
  directories above habove := by
    rw [List.append_assoc]
    exact h.directories (name :: above) ((List.prefix_cons_inj name).2 habove)
  short other hother := h.short other (List.mem_cons_of_mem _ hother)

/-- Parts for names lead on along the names. -/
theorem foldlM_step (hparts : laterParts parts = names.map .name) (hopens : tree.Opens place names) :
    parts.foldlM tree.step place = .ok (place ++ names) := by
  induction parts generalizing place names with
  | nil =>
    have hnames : names = [] := by simpa [laterParts] using hparts.symm
    rw [hnames, List.append_nil]
    rfl
  | cons part rest ih =>
    rw [List.foldlM_cons]
    rcases laterParts_cons_eq_names hparts with
      ⟨hsilent, hrest⟩ | ⟨hloud, hup, others, rfl, hrest⟩
    · rw [step_silent hopens.directory hsilent]
      exact ih hrest hopens
    · rw [step_name hopens.directory hloud hup (hopens.short _ (List.mem_cons_self ..))]
      refine (ih hrest hopens.tail).trans ?_
      rw [List.append_assoc, List.singleton_append]

/-- A way that leads somewhere leads there through directories. -/
theorem opens_of_foldlM (hparts : laterParts parts = names.map .name)
    (h : parts.foldlM tree.step place = .ok target) :
    target = place ++ names ∧ (∀ name ∈ names, name.utf8ByteSize ≤ maxNameSize) ∧
      ∀ above, above <+: names → above ≠ names → tree.node? (place ++ above) = some .directory := by
  induction parts generalizing place names with
  | nil =>
    have hnames : names = [] := by simpa [laterParts] using hparts.symm
    subst hnames
    cases h
    refine ⟨(List.append_nil _).symm, by simp, fun above habove hne => ?_⟩
    exact absurd (List.prefix_nil.1 habove) hne
  | cons part rest ih =>
    rw [List.foldlM_cons] at h
    cases hstep : tree.step place part with
    | error e =>
      rw [hstep] at h
      cases h
    | ok next =>
      rw [hstep] at h
      obtain ⟨hdirectory, hstays, hgoes⟩ := step_eq_ok hstep
      rcases laterParts_cons_eq_names hparts with
        ⟨hsilent, hrest⟩ | ⟨hloud, hup, others, rfl, hrest⟩
      · obtain rfl := hstays hsilent
        exact ih hrest h
      · obtain ⟨hshort, rfl⟩ := hgoes hloud hup
        obtain ⟨htarget, hothers, hdirectories⟩ := ih hrest h
        refine ⟨?_, List.forall_mem_cons.2 ⟨hshort, hothers⟩, fun above habove hne => ?_⟩
        · rw [htarget, List.append_assoc, List.singleton_append]
        · -- Either nothing of the way is done yet, or the first name is.
          cases above with
          | nil => rwa [List.append_nil]
          | cons first later =>
            obtain ⟨rfl, hlater⟩ := List.cons_prefix_cons.1 habove
            have hnode := hdirectories later hlater fun heq => hne (congrArg _ heq)
            rwa [List.append_assoc, List.singleton_append] at hnode

/-! ## Paths of names -/

variable {fromRoot : Bool}

/-- A path along names leads to their place. -/
theorem place?_eq (hempty : path.text ≠ "") (hnull : '\x00' ∉ path.text.toList)
    (hparts : laterParts (splitSlashes path.text.toList) = names.map .name)
    (hopens : tree.Opens (tree.origin path.isAbsolute) names) :
    tree.place? path = some (tree.origin path.isAbsolute ++ names) := by
  simp only [place?, start_eq hempty hnull, foldlM_step hparts hopens]
  rfl

/-- A name joined to a path along names leads on to the place of the name. -/
theorem place?_join {name : String} (hname : IsFileName name) (hplain : '\x00' ∉ name.toList)
    (hshort : name.utf8ByteSize ≤ maxNameSize) (hnull : '\x00' ∉ path.text.toList)
    (hparts : laterParts (splitSlashes path.text.toList) = names.map .name)
    (hopens : tree.Opens (tree.origin path.isAbsolute) names) :
    tree.place? (path.join ⟨name⟩) = some (tree.origin path.isAbsolute ++ names ++ [name]) := by
  obtain ⟨parts, hsplit, hlater, habsolute, hchars⟩ := splitSlashes_join path hname
  have hempty : (path.join ⟨name⟩).text ≠ "" := by
    intro hempty
    rw [hempty] at hsplit
    have hlast := congrArg List.getLast? hsplit
    rw [List.getLast?_concat] at hlast
    exact hname.nonempty (Option.some.inj hlast).symm
  have hjoined : '\x00' ∉ (path.join ⟨name⟩).text.toList := by
    intro hmem
    rcases hchars _ hmem with hpath | hslash | hmem
    · exact hnull hpath
    · exact absurd hslash (by decide)
    · exact hplain hmem
  have hlast : tree.step (tree.origin path.isAbsolute ++ names) name.toList =
      .ok (tree.origin path.isAbsolute ++ names ++ [name]) := by
    have hloud : ¬ IsSilent name.toList := not_or.2 ⟨hname.nonempty, hname.notHere⟩
    have hstep := step_name (hopens.directories names List.prefix_rfl) hloud hname.notUp
    rw [String.ofList_toList] at hstep
    exact hstep hshort
  simp only [place?, start_eq hempty hjoined, hsplit, habsolute, List.foldlM_append,
    foldlM_step (hlater.trans hparts) hopens, bind, Except.bind, List.foldlM_cons, hlast]
  rfl

/-- The directory of what a path along names leads to is opened by the names above. -/
theorem opens_of_place? {dirs : List String} {name : String}
    (hparts : laterParts (splitSlashes path.text.toList) = (dirs ++ [name]).map .name)
    (h : tree.place? path = some target) :
    '\x00' ∉ path.text.toList ∧ tree.Opens (tree.origin path.isAbsolute) dirs := by
  unfold place? at h
  cases hstart : tree.start path with
  | error e => simp [hstart] at h
  | ok found =>
    obtain ⟨-, hnull, rfl⟩ := start_eq_ok hstart
    simp only [hstart] at h
    cases hfold : (splitSlashes path.text.toList).foldlM tree.step
        (tree.origin path.isAbsolute) with
    | error e => simp [hfold, Except.toOption] at h
    | ok reached =>
      obtain ⟨-, hshort, hdirectories⟩ := opens_of_foldlM hparts hfold
      refine ⟨hnull, fun above habove => hdirectories above ?_ ?_, fun name hname => hshort name ?_⟩
      · exact habove.trans (List.prefix_append _ _)
      · rintro rfl
        have hlength := habove.length_le
        rw [List.length_append, List.length_singleton] at hlength
        omega
      · exact List.mem_append_left _ hname

end FileTree

end CommandFactory
