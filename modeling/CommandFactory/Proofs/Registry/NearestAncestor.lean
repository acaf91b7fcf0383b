import CommandFactory.Proofs.Registry.Acyclicity

/-!
# The nearest declared ancestor

The ancestors of a class are counted by the superclass links that lead up to them
(`SymbolTable.ancestor?`), in a table where chains may be of any length, lead nowhere, or come back.
The walks over them stop at the first class that they look for, where the chain ends, or where it
comes back to a class that they have left (`SymbolTable.climb`). One of the three happens within
`ancestrySteps` steps (`climb_endsAt`), and where it happens follows from the chain alone
(`EndsAt.unique`). So a class is linked to the first declared class of its chain before any class is
repeated (`IsNearest`), and is warned of a cycle if there is none and the chain repeats a class.

Links are set one after the other, each looked up in the registry that the links before it have
changed. Neither the links nor the warnings depend on that, nor on the order of the classes
(`linkEach_spec`).
-/

set_option autoImplicit false

namespace CommandFactory

/-! ## Chains of superclasses -/

namespace SymbolTable

/-- The class which so many superclass links lead up to; none lead to the class itself. -/
def ancestor? (table : SymbolTable) (id : SymbolId) : Nat → Option SymbolId
  | 0 => some id
  | links + 1 => (table.ancestor? id links).bind table.superclass?

/-- The first classes on the way up from a class, the last one in front. -/
def left (table : SymbolTable) (id : SymbolId) : Nat → List SymbolId
  | 0 => []
  | links + 1 => (table.ancestor? id links).toList ++ table.left id links

/-- So many classes on the way up, the class itself included, are there and pairwise distinct. -/
structure Climbs (table : SymbolTable) (id : SymbolId) (count : Nat) : Prop where
  there : ∀ i < count, ∃ ancestor, table.ancestor? id i = some ancestor
  distinct : ∀ i j, i < j → j < count → table.ancestor? id i ≠ table.ancestor? id j

/-- The way up comes back to a class on it. -/
def ComesBack (table : SymbolTable) (id : SymbolId) : Prop :=
  ∃ i j ancestor, i < j ∧ table.ancestor? id i = some ancestor ∧ table.ancestor? id j = some ancestor

/-- How a walk up ends: at a class that it looks for, at the end of the chain, or at a class that it
has left. -/
inductive Ascent where
  | reaches (ancestor : SymbolId)
  | ends
  | returns
  deriving DecidableEq, Repr

/-- The walk up from a superclass, past the classes that it does not look for. The classes in
`visited` have been left. There is no answer when the steps run out. -/
def climb (table : SymbolTable) (sought : SymbolId → Bool) :
    Nat → List SymbolId → Option SymbolId → Option Ascent
  | 0, _, _ => none
  | _ + 1, _, none => some .ends
  | steps + 1, visited, some ancestor =>
      if ancestor ∈ visited then some .returns
      else if sought ancestor = true then some (.reaches ancestor)
      else climb table sought steps (ancestor :: visited) (table.superclass? ancestor)

variable {table : SymbolTable} {id : SymbolId}

theorem mem_left {links : Nat} {ancestor : SymbolId} :
    ancestor ∈ table.left id links ↔ ∃ i < links, table.ancestor? id i = some ancestor := by
  induction links with
  | zero => simp [left]
  | succ links ih =>
    rw [left, List.mem_append, ih, Option.mem_toList]
    constructor
    · rintro (hlast | ⟨i, hi, hancestor⟩)
      · exact ⟨links, Nat.lt_succ_self _, hlast⟩
      · exact ⟨i, Nat.lt_succ_of_lt hi, hancestor⟩
    · rintro ⟨i, hi, hancestor⟩
      rcases Nat.lt_succ_iff_lt_or_eq.1 hi with hlt | rfl
      · exact Or.inr ⟨i, hlt, hancestor⟩
      · exact Or.inl hancestor

theorem ancestor?_eq_none {i j : Nat} (h : table.ancestor? id i = none) (hle : i ≤ j) :
    table.ancestor? id j = none := by
  induction hle with
  | refl => exact h
  | step _ ih => rw [ancestor?, ih, Option.bind_none]

namespace Climbs

variable {count : Nat}

theorem of_le {more : Nat} (h : table.Climbs id more) (hle : count ≤ more) :
    table.Climbs id count :=
  ⟨fun i hi => h.there i (Nat.lt_of_lt_of_le hi hle),
    fun i j hij hj => h.distinct i j hij (Nat.lt_of_lt_of_le hj hle)⟩

theorem one (table : SymbolTable) (id : SymbolId) : table.Climbs id 1 :=
  ⟨fun i hi => ⟨id, by rw [Nat.lt_one_iff.1 hi, ancestor?]⟩, fun i j hij hj => by omega⟩

/-- The way up goes on as long as it leads to a class that it has not left. -/
theorem succ_iff {ancestor : SymbolId} (h : table.ancestor? id count = some ancestor) :
    table.Climbs id (count + 1) ↔ table.Climbs id count ∧ ancestor ∉ table.left id count := by
  rw [mem_left]
  constructor
  · intro hclimbs
    refine ⟨hclimbs.of_le (Nat.le_succ _), ?_⟩
    rintro ⟨i, hi, hancestor⟩
    exact hclimbs.distinct i count hi (Nat.lt_succ_self _) (hancestor.trans h.symm)
  · rintro ⟨hclimbs, hnew⟩
    constructor
    · intro i hi
      rcases Nat.lt_succ_iff_lt_or_eq.1 hi with hlt | rfl
      · exact hclimbs.there i hlt
      · exact ⟨ancestor, h⟩
    · intro i j hij hj
      rcases Nat.lt_succ_iff_lt_or_eq.1 hj with hlt | rfl
      · exact hclimbs.distinct i j hij hlt
      · exact fun heq => hnew ⟨i, hij, heq.trans h⟩

theorem left_spec (h : table.Climbs id count) :
    (table.left id count).Nodup ∧ (table.left id count).length = count := by
  induction count with
  | zero => exact ⟨List.nodup_nil, rfl⟩
  | succ count ih =>
    obtain ⟨ancestor, hancestor⟩ := h.there count (Nat.lt_succ_self _)
    obtain ⟨hclimbs, hnew⟩ := (succ_iff hancestor).1 h
    obtain ⟨hnodup, hlength⟩ := ih hclimbs
    rw [left, hancestor, Option.toList_some, List.singleton_append, List.length_cons, hlength]
    exact ⟨List.nodup_cons.2 ⟨hnew, hnodup⟩, rfl⟩

end Climbs

/-- The walk from a class ends that way after so many links. -/
structure EndsAt (table : SymbolTable) (sought : SymbolId → Bool) (id : SymbolId) (links : Nat)
    (ascent : Ascent) : Prop where
  up : 0 < links
  climbs : table.Climbs id links
  passed : ∀ j, 0 < j → j < links → ∀ ancestor, table.ancestor? id j = some ancestor →
    ¬ sought ancestor = true
  stop :
    match ascent with
    | .reaches found =>
        table.ancestor? id links = some found ∧ found ∉ table.left id links ∧ sought found = true
    | .ends => table.ancestor? id links = none
    | .returns => ∃ known, table.ancestor? id links = some known ∧ known ∈ table.left id links

namespace EndsAt

variable {sought : SymbolId → Bool} {links links' : Nat} {ascent ascent' : Ascent}

/-- A walk does not pass the place where it ends. -/
theorem le (h : table.EndsAt sought id links ascent) (h' : table.EndsAt sought id links' ascent') :
    links' ≤ links := by
  by_contra hlt
  rw [Nat.not_le] at hlt
  have hstop := h.stop
  cases ascent with
  | reaches found => exact h'.passed links h.up hlt found hstop.1 hstop.2.2
  | ends =>
    obtain ⟨ancestor, hancestor⟩ := h'.climbs.there links hlt
    rw [hstop] at hancestor
    cases hancestor
  | returns =>
    obtain ⟨known, hknown, hleft⟩ := hstop
    obtain ⟨i, hi, hancestor⟩ := mem_left.1 hleft
    exact h'.climbs.distinct i links hi hlt (hancestor.trans hknown.symm)

/-- A walk ends in one way only. -/
theorem unique (h : table.EndsAt sought id links ascent)
    (h' : table.EndsAt sought id links' ascent') : ascent = ascent' := by
  obtain rfl := Nat.le_antisymm (h'.le h) (h.le h')
  have hstop := h.stop
  have hstop' := h'.stop
  cases ascent <;> cases ascent' <;> simp_all

end EndsAt

end SymbolTable

namespace Registry

open SymbolTable

variable {registry : Registry} {id : SymbolId}

/-! ## Walks end -/

/-- A way up without repetitions is not longer than the table, except for a last class that the table
does not know. -/
theorem count_le_of_climbs {count : Nat} (h : registry.symbols.Climbs id count) :
    count ≤ registry.symbols.size + 1 := by
  cases count with
  | zero => exact Nat.zero_le _
  | succ count =>
    obtain ⟨hnodup, hlength⟩ := (h.of_le (Nat.le_succ count)).left_spec
    refine Nat.succ_le_succ (hlength ▸ length_visited_le hnodup ?_)
    intro ancestor hmem
    obtain ⟨i, hi, hancestor⟩ := mem_left.1 hmem
    obtain ⟨above, habove⟩ := h.there (i + 1) (Nat.succ_lt_succ hi)
    rw [ancestor?, hancestor, Option.bind_some] at habove
    exact SymbolTable.hasClass_of_superclass? habove

/-- A walk with steps enough ends, and ends where the chain says. -/
theorem exists_climb_endsAt {sought : SymbolId → Bool} {steps links : Nat} (hup : 0 < links)
    (hclimbs : registry.symbols.Climbs id links)
    (hpassed : ∀ j, 0 < j → j < links → ∀ ancestor, registry.symbols.ancestor? id j = some ancestor →
      ¬ sought ancestor = true)
    (hsteps : registry.symbols.size + 1 < steps + links) :
    ∃ ascent last, registry.symbols.climb sought steps (registry.symbols.left id links)
        (registry.symbols.ancestor? id links) = some ascent ∧
      registry.symbols.EndsAt sought id last ascent := by
  induction steps generalizing links with
  | zero =>
    have hle := count_le_of_climbs hclimbs
    omega
  | succ steps ih =>
    cases hancestor : registry.symbols.ancestor? id links with
    | none => exact ⟨.ends, links, rfl, hup, hclimbs, hpassed, hancestor⟩
    | some ancestor =>
      rw [climb]
      by_cases hleft : ancestor ∈ registry.symbols.left id links
      · exact ⟨.returns, links, if_pos hleft, hup, hclimbs, hpassed, ancestor, hancestor, hleft⟩
      by_cases hsought : sought ancestor = true
      · refine ⟨.reaches ancestor, links, ?_, hup, hclimbs, hpassed, hancestor, hleft, hsought⟩
        rw [if_neg hleft, if_pos hsought]
      · rw [if_neg hleft, if_neg hsought]
        have hleft' : registry.symbols.left id (links + 1) =
            ancestor :: registry.symbols.left id links := by
          rw [left, hancestor]
          rfl
        have hancestor' : registry.symbols.ancestor? id (links + 1) =
            registry.symbols.superclass? ancestor := by
          rw [ancestor?, hancestor, Option.bind_some]
        rw [← hleft', ← hancestor']
        refine ih (Nat.succ_pos _) ((Climbs.succ_iff hancestor).2 ⟨hclimbs, hleft⟩) ?_ (by omega)
        intro j hj hlt other hother
        rcases Nat.lt_succ_iff_lt_or_eq.1 hlt with hlt | rfl
        · exact hpassed j hj hlt other hother
        · obtain rfl := Option.some.inj (hancestor.symm.trans hother)
          exact hsought

/-- The walk from a class ends within `ancestrySteps` steps, and more steps change nothing. -/
theorem climb_endsAt (registry : Registry) (sought : SymbolId → Bool) (id : SymbolId) :
    ∃ ascent last, registry.symbols.EndsAt sought id last ascent ∧
      ∀ steps, registry.ancestrySteps ≤ steps →
        registry.symbols.climb sought steps [id] (registry.symbols.superclass? id) = some ascent := by
  have hends : ∀ steps, registry.symbols.size + 1 < steps + 1 → ∃ ascent last,
      registry.symbols.climb sought steps [id] (registry.symbols.superclass? id) = some ascent ∧
        registry.symbols.EndsAt sought id last ascent := fun steps hsteps =>
    exists_climb_endsAt Nat.one_pos (Climbs.one registry.symbols id)
      (fun j hj hlt => by omega) hsteps
  obtain ⟨ascent, last, -, hascent⟩ := hends registry.ancestrySteps (by rw [ancestrySteps]; omega)
  refine ⟨ascent, last, hascent, fun steps hsteps => ?_⟩
  obtain ⟨ascent', last', hclimb, hascent'⟩ := hends steps (by rw [ancestrySteps] at hsteps; omega)
  rw [hascent.unique hascent']
  exact hclimb

/-! ## What the walks find -/

/-- The class is the first declared one on the way up from another, before the way repeats a class. -/
def IsNearest (registry : Registry) (id found : SymbolId) : Prop :=
  ∃ links > 0, registry.symbols.ancestor? id links = some found ∧ registry.Declares found ∧
    registry.symbols.Climbs id (links + 1) ∧
    ∀ j, 0 < j → j < links → ∀ ancestor, registry.symbols.ancestor? id j = some ancestor →
      ¬ registry.Declares ancestor

/-- Whether the identity has a command or a holder of its own. -/
def declares (registry : Registry) (id : SymbolId) : Bool := (registry.command? id).isSome

theorem isNearest_iff_endsAt {found : SymbolId} : registry.IsNearest id found ↔
    ∃ links, registry.symbols.EndsAt registry.declares id links (.reaches found) := by
  constructor
  · rintro ⟨links, hup, hancestor, hdeclared, hclimbs, hpassed⟩
    obtain ⟨hbefore, hnew⟩ := (Climbs.succ_iff hancestor).1 hclimbs
    exact ⟨links, hup, hbefore, hpassed, hancestor, hnew, hdeclared⟩
  · rintro ⟨links, hup, hclimbs, hpassed, hancestor, hnew, hdeclared⟩
    exact ⟨links, hup, hancestor, hdeclared, (Climbs.succ_iff hancestor).2 ⟨hclimbs, hnew⟩, hpassed⟩

theorem nearestFrom_eq_some_iff {steps : Nat} {visited : List SymbolId} {start : Option SymbolId}
    {found : SymbolId} : registry.nearestFrom steps visited start = some found ↔
      registry.symbols.climb registry.declares steps visited start = some (.reaches found) := by
  fun_induction nearestFrom registry steps visited start with
  | case1 => simp [climb]
  | case2 => simp [climb]
  | case3 steps visited ancestor hvisited => simp [climb, hvisited]
  | case4 steps visited ancestor hvisited hdeclared => simp [climb, hvisited, declares, hdeclared]
  | case5 steps visited ancestor hvisited hdeclared ih =>
    have hpassed : ¬ registry.declares ancestor = true := hdeclared
    rw [ih, climb, if_neg hvisited, if_neg hpassed]

theorem repeatsFrom_eq_true_iff {steps : Nat} {visited : List SymbolId} {start : Option SymbolId} :
    registry.repeatsFrom steps visited start = true ↔
      registry.symbols.climb (fun _ => false) steps visited start = some .returns := by
  fun_induction repeatsFrom registry steps visited start with
  | case1 => simp [climb]
  | case2 => simp [climb]
  | case3 steps visited ancestor hvisited => simp [climb, hvisited]
  | case4 steps visited ancestor hvisited ih =>
    rw [ih, climb, if_neg hvisited, if_neg Bool.false_ne_true]

/-- More steps than `ancestrySteps` change nothing of what the walks find. -/
theorem walks_eq_of_le {steps : Nat} (h : registry.ancestrySteps ≤ steps) (id : SymbolId) :
    registry.nearestFrom steps [id] (registry.symbols.superclass? id) =
        registry.nearestDeclared? id ∧
      registry.repeatsFrom steps [id] (registry.symbols.superclass? id) =
        registry.hasSuperclassCycle id := by
  obtain ⟨_, -, -, hnearest⟩ := registry.climb_endsAt registry.declares id
  obtain ⟨_, -, -, hrepeats⟩ := registry.climb_endsAt (fun _ => false) id
  constructor
  · apply Option.ext
    intro found
    rw [nearestDeclared?, nearestFrom_eq_some_iff, nearestFrom_eq_some_iff, hnearest _ h,
      hnearest _ (Nat.le_refl _)]
  · rw [hasSuperclassCycle, Bool.eq_iff_iff, repeatsFrom_eq_true_iff, repeatsFrom_eq_true_iff,
      hrepeats _ h, hrepeats _ (Nat.le_refl _)]

theorem nearestDeclared?_eq_some_iff {found : SymbolId} :
    registry.nearestDeclared? id = some found ↔ registry.IsNearest id found := by
  obtain ⟨ascent, last, hends, hclimb⟩ := registry.climb_endsAt registry.declares id
  rw [nearestDeclared?, nearestFrom_eq_some_iff, hclimb _ (Nat.le_refl _), isNearest_iff_endsAt]
  constructor
  · intro hascent
    obtain rfl := Option.some.inj hascent
    exact ⟨last, hends⟩
  · rintro ⟨links, hfound⟩
    rw [hends.unique hfound]

theorem nearestDeclared?_eq_none_iff :
    registry.nearestDeclared? id = none ↔ ¬ ∃ found, registry.IsNearest id found := by
  simp only [← nearestDeclared?_eq_some_iff, Option.eq_none_iff_forall_ne_some, not_exists, ne_eq]

theorem hasSuperclassCycle_iff :
    registry.hasSuperclassCycle id = true ↔ registry.symbols.ComesBack id := by
  obtain ⟨ascent, last, hends, hclimb⟩ := registry.climb_endsAt (fun _ => false) id
  rw [hasSuperclassCycle, repeatsFrom_eq_true_iff, hclimb _ (Nat.le_refl _)]
  have hstop := hends.stop
  constructor
  · intro hascent
    obtain rfl := Option.some.inj hascent
    obtain ⟨known, hknown, hleft⟩ := hstop
    obtain ⟨i, hi, hancestor⟩ := mem_left.1 hleft
    exact ⟨i, last, known, hi, hancestor, hknown⟩
  · rintro ⟨i, j, ancestor, hij, hi, hj⟩
    cases ascent with
    | reaches found => exact absurd hstop.2.2 Bool.false_ne_true
    | returns => rfl
    | ends =>
      -- The chain ends above both places, so the classes there would be distinct.
      have hlt : j < last := by
        by_contra hle
        rw [ancestor?_eq_none hstop (Nat.not_lt.1 hle)] at hj
        cases hj
      exact absurd (hi.trans hj.symm) (hends.climbs.distinct i j hij hlt)

/-! ## One link after the other -/

/-- The warning for a class that has no declared ancestor because its chain comes back. -/
def cycleWarning (id : SymbolId) : Diagnostic :=
  .warningAt id "Superclass chain contains a cycle; inheritance ignored"

end Registry

/-- The declaration with a new link to its ancestor, if it is a command of one of the identities. -/
def Declaration.relinked (ids : List SymbolId) (link : SymbolId → Option SymbolId) :
    Declaration → Declaration
  | .command d => if d.id ∈ ids then .command { d with superCommand := link d.id } else .command d
  | .container c => .container c

theorem Declaration.id_relinked (ids : List SymbolId) (link : SymbolId → Option SymbolId)
    (declaration : Declaration) : (declaration.relinked ids link).id = declaration.id := by
  cases declaration with
  | command d => by_cases h : d.id ∈ ids <;> simp [relinked, id, h]
  | container c => rfl

theorem Declaration.relinked_relinked (first : SymbolId) (ids : List SymbolId)
    (link : SymbolId → Option SymbolId) (declaration : Declaration) :
    (declaration.relinked [first] link).relinked ids link =
      declaration.relinked (first :: ids) link := by
  cases declaration with
  | container c => rfl
  | command d =>
    by_cases hfirst : d.id = first <;> by_cases hrest : d.id ∈ ids <;>
      simp [relinked, hfirst, hrest]

namespace Registry

variable {registry other : Registry} {ids : List SymbolId}

/-- The warning for the chain of a class, if there is one. -/
def ancestryWarning? (registry : Registry) (id : SymbolId) : Option Diagnostic :=
  if registry.nearestDeclared? id = none ∧ registry.hasSuperclassCycle id = true then
    some (cycleWarning id)
  else
    none

/-- The registry with the command of an identity linked to its nearest declared ancestor. -/
def linkOne (registry : Registry) (id : SymbolId) : Registry :=
  { registry with
    declarations :=
      registry.declarations.mapItems (Declaration.relinked [id] registry.nearestDeclared?)
        (Declaration.id_relinked _ _)
    diagnostics := registry.diagnostics ++ (registry.ancestryWarning? id).toList }

/-- The registry with the commands of the identities linked one after the other. -/
def linkEach (registry : Registry) (ids : List SymbolId) : Registry := ids.foldl linkOne registry

/-- The identities of the commands that are rooted in a class, in the order of discovery. -/
def classRootedIds (registry : Registry) : List SymbolId :=
  (registry.commands.filter fun d => d.rooting = .classRooted).map CommandDeclaration.id

theorem declares_linkOne (registry : Registry) (id found : SymbolId) :
    (registry.linkOne id).Declares found ↔ registry.Declares found := by
  unfold Declares command? get? linkOne
  rw [Keyed.get?_mapItems]
  cases registry.declarations.get? found with
  | none => rfl
  | some declaration =>
    cases declaration with
    | container c => rfl
    | command d => by_cases h : d.id = id <;> simp [Declaration.relinked, Declaration.command?, h]

/-- The links that are already set are not seen by the walks. -/
theorem nearestDeclared?_linkOne (registry : Registry) (id : SymbolId) :
    (registry.linkOne id).nearestDeclared? = registry.nearestDeclared? := by
  funext start
  apply Option.ext
  intro found
  rw [nearestDeclared?_eq_some_iff, nearestDeclared?_eq_some_iff]
  simp only [IsNearest, declares_linkOne]
  exact Iff.rfl

theorem ancestryWarning?_linkOne (registry : Registry) (id : SymbolId) :
    (registry.linkOne id).ancestryWarning? = registry.ancestryWarning? := by
  funext start
  have hcycle : (registry.linkOne id).hasSuperclassCycle start =
      registry.hasSuperclassCycle start := by
    rw [Bool.eq_iff_iff, hasSuperclassCycle_iff, hasSuperclassCycle_iff]
    exact Iff.rfl
  simp only [ancestryWarning?, nearestDeclared?_linkOne, hcycle]

/-- Links set one after the other are those of the first registry, set at once. -/
theorem linkEach_eq (registry : Registry) (ids : List SymbolId) :
    registry.linkEach ids =
      { registry with
        declarations :=
          registry.declarations.mapItems (Declaration.relinked ids registry.nearestDeclared?)
            (Declaration.id_relinked _ _)
        diagnostics := registry.diagnostics ++ ids.filterMap registry.ancestryWarning? } := by
  induction ids generalizing registry with
  | nil =>
    have hsame : ∀ declaration : Declaration,
        declaration.relinked [] registry.nearestDeclared? = declaration := by
      rintro (d | c) <;> rfl
    simp [linkEach, Keyed.mapItems, funext hsame]
  | cons id rest ih =>
    have hstep : registry.linkEach (id :: rest) = (registry.linkOne id).linkEach rest := rfl
    rw [hstep, ih, nearestDeclared?_linkOne, ancestryWarning?_linkOne]
    have hdiagnostics : (registry.ancestryWarning? id).toList ++ rest.filterMap registry.ancestryWarning? =
        (id :: rest).filterMap registry.ancestryWarning? := by
      rw [List.filterMap_cons]
      cases registry.ancestryWarning? id <;> rfl
    simp only [linkOne, Keyed.mapItems, List.map_map, List.append_assoc, hdiagnostics]
    congr 3
    funext declaration
    exact declaration.relinked_relinked id rest _

theorem mem_classRootedIds {id : SymbolId} :
    id ∈ registry.classRootedIds ↔
      ∃ d ∈ registry.commands, d.rooting = .classRooted ∧ d.id = id := by
  simp only [classRootedIds, List.mem_map, List.mem_filter, decide_eq_true_eq, and_assoc]

theorem nodup_classRootedIds (registry : Registry) : registry.classRootedIds.Nodup :=
  registry.nodup_command_ids.sublist (List.filter_sublist.map _)

/-- The class-rooted commands linked in the order of discovery. -/
theorem linkEach_classRootedIds (registry : Registry) :
    registry.linkEach registry.classRootedIds = registry.linkAncestors := by
  have hwarnings : registry.classRootedIds.filterMap registry.ancestryWarning? =
      registry.commands.filterMap registry.cycleWarning? := by
    rw [classRootedIds, List.filterMap_map, List.filterMap_filter]
    refine List.filterMap_congr fun d _ => ?_
    by_cases h : d.rooting = .classRooted <;> simp [cycleWarning?, ancestryWarning?, cycleWarning, h]
  have hlinked : ∀ declaration ∈ registry.declarations.toList,
      declaration.relinked registry.classRootedIds registry.nearestDeclared? =
        declaration.linked registry.nearestDeclared? := by
    intro declaration hmem
    cases declaration with
    | container c => rfl
    | command d =>
      have hd : d ∈ registry.commands := mem_commands.2 hmem
      -- Another command of the same identity would be the same command.
      have hiff : d.id ∈ registry.classRootedIds ↔ d.rooting = .classRooted := by
        rw [mem_classRootedIds]
        refine ⟨?_, fun h => ⟨d, hd, h, rfl⟩⟩
        rintro ⟨e, he, hrooted, hid⟩
        rwa [← eq_of_id_eq he hd hid]
      simp only [Declaration.relinked, Declaration.linked, hiff]
  rw [linkEach_eq, linkAncestors, hwarnings]
  congr 1
  simp only [Keyed.mapItems, Keyed.mk.injEq]
  exact List.map_congr_left hlinked

/-- The order of the identities does not matter to the declarations, and to the warnings only for their
order. -/
theorem linkEach_perm {ids' : List SymbolId} (h : ids.Perm ids') :
    (registry.linkEach ids).declarations = (registry.linkEach ids').declarations ∧
      (registry.linkEach ids).diagnostics.Perm (registry.linkEach ids').diagnostics := by
  have hrelinked : Declaration.relinked ids registry.nearestDeclared? =
      Declaration.relinked ids' registry.nearestDeclared? := by
    funext declaration
    cases declaration <;> simp only [Declaration.relinked, h.mem_iff]
  simp only [linkEach_eq, hrelinked]
  exact ⟨trivial, (h.filterMap _).append_left _⟩

/-- The second registry is the first with its class-rooted commands linked to their nearest declared
ancestors, and nothing else done to it than to warn of the cycles that are in the way. -/
structure Resolves (before after : Registry) : Prop where
  symbols : after.symbols = before.symbols
  settings : after.settings = before.settings
  ids : after.ids = before.ids
  linked : ∀ d ∈ before.commands, d.rooting = .classRooted →
    ∃ link, after.get? d.id = some (.command { d with superCommand := link }) ∧
      ∀ found, link = some found ↔ before.IsNearest d.id found
  unlinked : ∀ id, id ∉ before.classRootedIds → after.get? id = before.get? id
  warned : ∃ warnings, after.diagnostics = before.diagnostics ++ warnings ∧
    (∀ warning ∈ warnings, ∃ id ∈ before.classRootedIds, warning = cycleWarning id) ∧
    ∀ id ∈ before.classRootedIds,
      (¬ (∃ found, before.IsNearest id found) ∧ before.symbols.ComesBack id →
        warnings.count (cycleWarning id) = 1) ∧
      (¬ (¬ (∃ found, before.IsNearest id found) ∧ before.symbols.ComesBack id) →
        warnings.count (cycleWarning id) = 0)

theorem ancestryWarning?_eq_some_iff {id : SymbolId} {warning : Diagnostic} :
    registry.ancestryWarning? id = some warning ↔
      (¬ (∃ found, registry.IsNearest id found) ∧ registry.symbols.ComesBack id) ∧
        cycleWarning id = warning := by
  rw [ancestryWarning?, ← nearestDeclared?_eq_none_iff, ← hasSuperclassCycle_iff]
  split <;> simp_all

theorem cycleWarning_injective : Function.Injective cycleWarning := by
  intro a b h
  simpa [cycleWarning, Diagnostic.warningAt] using h

theorem resolves_linkEach {registry : Registry} (h : ids.Perm registry.classRootedIds) :
    registry.Resolves (registry.linkEach ids) := by
  have hget : ∀ id, (registry.linkEach ids).get? id =
      (registry.get? id).map (Declaration.relinked ids registry.nearestDeclared?) := by
    intro id
    rw [linkEach_eq]
    exact Keyed.get?_mapItems _ _ (Declaration.id_relinked ids _) id
  have hnodup : ids.Nodup := h.nodup_iff.2 registry.nodup_classRootedIds
  constructor
  case symbols => rw [linkEach_eq]
  case settings => rw [linkEach_eq]
  case ids =>
    rw [linkEach_eq]
    exact Keyed.keys_mapItems _ _ (Declaration.id_relinked ids _)
  case linked =>
    intro d hd hrooted
    have hmem : d.id ∈ ids := h.mem_iff.2 (mem_classRootedIds.2 ⟨d, hd, hrooted, rfl⟩)
    refine ⟨registry.nearestDeclared? d.id, ?_, fun found => nearestDeclared?_eq_some_iff⟩
    have hd' : registry.get? d.id = some (.command d) := get?_of_mem (mem_commands.1 hd)
    rw [hget, hd', Option.map_some, Declaration.relinked, if_pos hmem]
  case unlinked =>
    intro id hid
    rw [hget]
    cases hdeclaration : registry.get? id with
    | none => rfl
    | some declaration =>
      obtain ⟨-, rfl⟩ := Keyed.get?_eq_some_iff.1 hdeclaration
      cases declaration with
      | container c => rfl
      | command d =>
        have hother : d.id ∉ ids := fun hmem => hid (h.mem_iff.1 hmem)
        rw [Option.map_some, Declaration.relinked, if_neg hother]
  case warned =>
    have hwarning : ∀ {warning}, warning ∈ ids.filterMap registry.ancestryWarning? ↔
        ∃ id ∈ ids, (¬ (∃ found, registry.IsNearest id found) ∧ registry.symbols.ComesBack id) ∧
          cycleWarning id = warning := by
      simp only [List.mem_filterMap, ancestryWarning?_eq_some_iff, implies_true]
    refine ⟨ids.filterMap registry.ancestryWarning?, by rw [linkEach_eq], ?_, ?_⟩
    · intro warning hmem
      obtain ⟨id, hid, -, hid'⟩ := hwarning.1 hmem
      exact ⟨id, h.mem_iff.1 hid, hid'.symm⟩
    · intro id hid
      constructor
      · intro hcut
        -- Warnings of two classes are different, so each stands in the list at most once.
        have hdistinct : (ids.filterMap registry.ancestryWarning?).Nodup := by
          refine hnodup.filterMap fun a b warning ha hb => cycleWarning_injective ?_
          rw [(ancestryWarning?_eq_some_iff.1 ha).2, (ancestryWarning?_eq_some_iff.1 hb).2]
        exact List.count_eq_one_of_mem hdistinct
          (hwarning.2 ⟨id, h.mem_iff.2 hid, hcut, rfl⟩)
      · intro huncut
        refine List.count_eq_zero.2 fun hmem => ?_
        obtain ⟨other, -, hcut, heq⟩ := hwarning.1 hmem
        exact huncut (cycleWarning_injective heq ▸ hcut)

/-- In every registry, whatever the superclasses of its table and whichever classes are declared: a walk
has come to its end after `ancestrySteps` steps, whatever it looks for, so more steps find the same;
linking the class-rooted commands in any order resolves the registry; and the order changes nothing but
the order of the warnings. -/
theorem linkEach_spec (registry : Registry) :
    (∀ id steps, registry.ancestrySteps ≤ steps →
      (∀ sought, registry.symbols.climb sought steps [id] (registry.symbols.superclass? id) ≠ none) ∧
        registry.nearestFrom steps [id] (registry.symbols.superclass? id) =
          registry.nearestDeclared? id ∧
        registry.repeatsFrom steps [id] (registry.symbols.superclass? id) =
          registry.hasSuperclassCycle id) ∧
      registry.linkEach registry.classRootedIds = registry.linkAncestors ∧
      ∀ ids, ids.Perm registry.classRootedIds →
        registry.Resolves (registry.linkEach ids) ∧
          (registry.linkEach ids).declarations = registry.linkAncestors.declarations ∧
          (registry.linkEach ids).diagnostics.Perm registry.linkAncestors.diagnostics := by
  refine ⟨fun id steps hsteps => ⟨fun sought => ?_, walks_eq_of_le hsteps id⟩,
    linkEach_classRootedIds registry, fun ids hperm => ?_⟩
  · obtain ⟨ascent, -, -, hclimb⟩ := registry.climb_endsAt sought id
    rw [hclimb steps hsteps]
    exact Option.some_ne_none ascent
  · rw [← linkEach_classRootedIds]
    exact ⟨resolves_linkEach hperm, linkEach_perm hperm⟩

end Registry

end CommandFactory
