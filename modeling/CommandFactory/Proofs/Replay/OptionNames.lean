import CommandFactory.Proofs.Replay.Arguments
import CommandFactory.Proofs.Replay.Delivery

/-!
# Names of options

An option that is added takes the place of the first one that shares a name with it, and of no other.
So options stay told apart by their names (`CommandSpec.Unambiguous`) exactly as long as none that is
added shares names with two at once; the options that are added in a replay are those that the sinks of
its run deliver (`unambiguous_iff`). One that shares names with two leaves the second where it was
(`not_unambiguous_bothNames`).

Whatever there was before, an option that is added is the one that its names lead to
(`CommandSpec.Leads`), and stays so while options of other names are added. So the options that a
declaration adds win over those of its ancestors (`added_options_win`).
-/

set_option autoImplicit false

namespace CommandFactory

namespace ArgSpec

theorem sharesNameWith_iff {a b : ArgSpec} :
    a.sharesNameWith b = true ↔ ∃ name ∈ a.names, name ∈ b.names := by
  simp [sharesNameWith]

theorem sharesNameWith_comm (a b : ArgSpec) : a.sharesNameWith b = b.sharesNameWith a := by
  rw [Bool.eq_iff_iff, sharesNameWith_iff, sharesNameWith_iff]
  constructor <;>
  · rintro ⟨name, hname, hother⟩
    exact ⟨name, hother, hname⟩

end ArgSpec

namespace CommandSpec

/-! ## One option -/

/-- An option is placed behind all others, none of which shares a name with it, or in the place of the
first that does. -/
theorem placeOption_cases (option : ArgSpec) (options : List ArgSpec) :
    ((∀ other ∈ options, other.sharesNameWith option = false) ∧
        placeOption option options = options ++ [option]) ∨
      ∃ before displaced behind, options = before ++ displaced :: behind ∧
        (∀ other ∈ before, other.sharesNameWith option = false) ∧
        displaced.sharesNameWith option = true ∧
        placeOption option options = before ++ option :: behind := by
  induction options with
  | nil => exact Or.inl ⟨fun _ hother => (List.not_mem_nil hother).elim, rfl⟩
  | cons first rest ih =>
    rw [placeOption]
    by_cases hshares : first.sharesNameWith option = true
    · rw [if_pos hshares]
      exact Or.inr ⟨[], first, rest, rfl, fun _ hother => (List.not_mem_nil hother).elim, hshares,
        rfl⟩
    · rw [if_neg hshares]
      replace hshares : first.sharesNameWith option = false := Bool.not_eq_true _ ▸ hshares
      rcases ih with ⟨hnone, hplaced⟩ | ⟨before, displaced, behind, rfl, hbefore, hdisplaced, hplaced⟩
      · exact Or.inl ⟨List.forall_mem_cons.2 ⟨hshares, hnone⟩, by rw [hplaced, List.cons_append]⟩
      · exact Or.inr ⟨first :: before, displaced, behind, rfl,
          List.forall_mem_cons.2 ⟨hshares, hbefore⟩, hdisplaced, by rw [hplaced, List.cons_append]⟩

/-- No two options have a name in common. -/
def Unambiguous (options : List ArgSpec) : Prop :=
  options.Pairwise fun a b => a.sharesNameWith b = false

instance (options : List ArgSpec) : Decidable (Unambiguous options) :=
  inferInstanceAs (Decidable (options.Pairwise fun a b => a.sharesNameWith b = false))

/-- How many options share a name with one. -/
def rivals (option : ArgSpec) (options : List ArgSpec) : Nat :=
  options.countP fun other => other.sharesNameWith option

theorem rivals_eq_zero_iff {option : ArgSpec} {options : List ArgSpec} :
    rivals option options = 0 ↔ ∀ other ∈ options, other.sharesNameWith option = false := by
  simp [rivals, List.countP_eq_zero]

/-- Placing an option keeps options unambiguous exactly if it has at most one rival among them. -/
theorem unambiguous_placeOption_iff {options : List ArgSpec} (h : Unambiguous options)
    (option : ArgSpec) : Unambiguous (placeOption option options) ↔ rivals option options ≤ 1 := by
  rcases placeOption_cases option options with
    ⟨hnone, hplaced⟩ | ⟨before, displaced, behind, rfl, hbefore, hdisplaced, hplaced⟩
  · have hunambiguous : Unambiguous (options ++ [option]) := by
      refine List.pairwise_append.2 ⟨h, List.pairwise_singleton _ _, fun other hother last hlast => ?_⟩
      obtain rfl := List.mem_singleton.1 hlast
      exact hnone other hother
    rw [hplaced, rivals_eq_zero_iff.2 hnone]
    exact iff_of_true hunambiguous (Nat.zero_le 1)
  · -- The rivals are the displaced option and those behind it, which stay.
    obtain ⟨hfirst, hlast, hacross⟩ := List.pairwise_append.1 h
    obtain ⟨-, hbehind⟩ := List.pairwise_cons.1 hlast
    have hcount : rivals option (before ++ displaced :: behind) = rivals option behind + 1 := by
      have hnone : rivals option before = 0 := rivals_eq_zero_iff.2 hbefore
      unfold rivals at hnone ⊢
      rw [List.countP_append, List.countP_cons, if_pos hdisplaced, hnone, Nat.zero_add]
    have hkept : Unambiguous (before ++ option :: behind) ↔
        ∀ other ∈ behind, option.sharesNameWith other = false := by
      constructor
      · intro hplaced
        exact (List.pairwise_cons.1 (List.pairwise_append.1 hplaced).2.1).1
      · intro hapart
        refine List.pairwise_append.2 ⟨hfirst, List.pairwise_cons.2 ⟨hapart, hbehind⟩, ?_⟩
        intro earlier hearlier later hlater
        rcases List.mem_cons.1 hlater with rfl | hlater
        · exact hbefore earlier hearlier
        · exact hacross earlier hearlier later (List.mem_cons_of_mem _ hlater)
    have hzero : rivals option behind + 1 ≤ 1 ↔ rivals option behind = 0 := by omega
    rw [hplaced, hkept, hcount, hzero, rivals_eq_zero_iff]
    simp only [ArgSpec.sharesNameWith_comm option]

/-! ## Added options -/

/-- What has been placed among no options before. -/
theorem options_foldl_addOption (added : List ArgSpec) :
    (added.foldl addOption {}).options = placeOptions [] added := by
  rw [foldl_addOption]

theorem placeOptions_concat (options added : List ArgSpec) (option : ArgSpec) :
    placeOptions options (added ++ [option]) = placeOption option (placeOptions options added) :=
  placeOptions_append options added [option]

/-- The options are unambiguous all the way exactly if every one finds at most one rival where it is
added. -/
theorem unambiguous_prefixes_iff (added : List ArgSpec) :
    (∀ first, first <+: added → Unambiguous (placeOptions [] first)) ↔
      ∀ first option, first ++ [option] <+: added →
        rivals option (placeOptions [] first) ≤ 1 := by
  constructor
  · intro hprefixes first option hfirst
    have hbefore := hprefixes first ((List.prefix_append first [option]).trans hfirst)
    have hafter := hprefixes _ hfirst
    rw [placeOptions_concat] at hafter
    exact (unambiguous_placeOption_iff hbefore option).1 hafter
  · intro hapart first
    induction first using List.reverseRecOn with
    | nil => exact fun _ => List.Pairwise.nil
    | append_singleton first option ih =>
      intro hfirst
      have hbefore := ih ((List.prefix_append first [option]).trans hfirst)
      rw [placeOptions_concat]
      exact (unambiguous_placeOption_iff hbefore option).2 (hapart first option hfirst)

/-- Options that are added to an empty specification stay unambiguous exactly if none of them shares
names with two at once. The options of what a factory makes, of its mixins and of its subcommands are
the ones that the sinks of its run deliver to each of them, added in this way. -/
theorem unambiguous_iff (added : List ArgSpec) (replayer : Replayer) (factory : ProcedureRef)
    (owner : Option ObjectRef) :
    ((∀ first, first <+: added → Unambiguous (first.foldl addOption {}).options) ↔
      ∀ first option, first ++ [option] <+: added →
        rivals option (first.foldl addOption {}).options ≤ 1) ∧
      ∀ store, (replayer.createSpec factory owner).Ends store fun spec _ =>
        (replayer.optionLog Replayer.maxCalls factory { target := owner } store {}).Explains spec := by
  refine ⟨?_, Replayer.ends_createSpec_explained replayer factory owner⟩
  simp only [options_foldl_addOption]
  exact unambiguous_prefixes_iff added

/-- An ancestor has two options; the class below has one with the names of both. -/
def bothNames : Manifest where
  symbols :=
    .ofList
      [⟨⟨"demo"⟩, "demo", none, [], .package⟩,
        ⟨⟨"demo.Base"⟩, "Base", some ⟨"demo"⟩, [], .classType none none none⟩,
        ⟨⟨"demo.Base.x"⟩, "x", some ⟨"demo.Base"⟩, [], .field "String" false⟩,
        ⟨⟨"demo.Base.y"⟩, "y", some ⟨"demo.Base"⟩, [], .field "String" false⟩,
        ⟨⟨"demo.Tool"⟩, "Tool", some ⟨"demo"⟩, [], .classType (some ⟨"demo.Base"⟩) none none⟩,
        ⟨⟨"demo.Tool.xy"⟩, "xy", some ⟨"demo.Tool"⟩, [], .field "String" false⟩]
  elements :=
    [{ CommandInput.bare ⟨"demo.Base"⟩ with
        options :=
          [Compilation.textArg ⟨"demo.Base.x"⟩ .option ["-x"],
            Compilation.textArg ⟨"demo.Base.y"⟩ .option ["-y"]] },
      { CommandInput.bare ⟨"demo.Tool"⟩ with
        command := some ⟨"tool", []⟩
        options := [Compilation.textArg ⟨"demo.Tool.xy"⟩ .option ["-x", "-y"]] }]

/-- The option with both names takes the place of the first of the two others and leaves the second,
whether the three are added by hand or by the factory of a command. -/
theorem not_unambiguous_bothNames :
    ¬ Unambiguous
      (([{ names := ["-x"] }, { names := ["-y"] }, { names := ["-x", "-y"] }] :
        List ArgSpec).foldl addOption {}).options ∧
      ∃ spec, (Compilation.ofManifest {} bothNames).made? ⟨"demo.Tool"⟩ = some spec ∧
        ¬ Unambiguous spec.options := by
  have hmade : ((Compilation.ofManifest {} bothNames).made? ⟨"demo.Tool"⟩).map
      (fun spec => decide (Unambiguous spec.options)) = some false := by
    decide +kernel
  obtain ⟨spec, hspec, hambiguous⟩ := Option.map_eq_some_iff.1 hmade
  exact ⟨by decide, spec, hspec, of_decide_eq_false hambiguous⟩

/-- The sinks deliver all three, those of the ancestor first. -/
example :
    let compilation := Compilation.ofManifest {} bothNames
    (compilation.factory? ⟨"demo.Tool"⟩).map (fun (module, factory) =>
      ((Replayer.ofModules compilation.modules).optionLog Replayer.maxCalls
        ⟨module.path, factory.name⟩ {} .empty {}).options.map ArgSpec.names) =
          some [["-x"], ["-y"], ["-x", "-y"]] := by
  decide +kernel

/-! ## Precedence -/

/-- The option is the first to have its names. -/
def Leads (option : ArgSpec) (options : List ArgSpec) : Prop :=
  ∃ before behind, options = before ++ option :: behind ∧
    ∀ other ∈ before, other.sharesNameWith option = false

/-- Each name of an option that leads is found at it. -/
theorem Leads.find?_eq {option : ArgSpec} {options : List ArgSpec} (h : Leads option options)
    {name : String} (hname : name ∈ option.names) :
    options.find? (fun other => other.names.contains name) = some option := by
  obtain ⟨before, behind, rfl, hbefore⟩ := h
  refine List.find?_eq_some_iff_append.2 ⟨by simpa using hname, before, behind, rfl, ?_⟩
  intro other hother
  have hapart := hbefore other hother
  rw [← Bool.not_eq_true, ArgSpec.sharesNameWith_iff] at hapart
  by_contra hhas
  exact hapart ⟨name, by simpa using hhas, hname⟩

theorem leads_placeOption (option : ArgSpec) (options : List ArgSpec) :
    Leads option (placeOption option options) := by
  rcases placeOption_cases option options with
    ⟨hnone, hplaced⟩ | ⟨before, displaced, behind, -, hbefore, -, hplaced⟩
  · exact ⟨options, [], hplaced, hnone⟩
  · exact ⟨before, behind, hplaced, hbefore⟩

/-- An option goes on leading when one of other names is placed. -/
theorem Leads.placeOption {leader option : ArgSpec} {options : List ArgSpec}
    (h : Leads leader options) (hapart : leader.sharesNameWith option = false) :
    Leads leader (placeOption option options) := by
  obtain ⟨before, behind, rfl, hbefore⟩ := h
  induction before with
  | nil =>
    rw [List.nil_append, CommandSpec.placeOption, if_neg (by simp [hapart])]
    exact ⟨[], _, rfl, fun _ hother => (List.not_mem_nil hother).elim⟩
  | cons first rest ih =>
    obtain ⟨hfirst, hrest⟩ := List.forall_mem_cons.1 hbefore
    rw [List.cons_append, CommandSpec.placeOption]
    split
    · -- The placed option is now before the leader, and shares no name with it.
      refine ⟨option :: rest, behind, rfl, List.forall_mem_cons.2 ⟨?_, hrest⟩⟩
      rwa [ArgSpec.sharesNameWith_comm]
    · obtain ⟨before, after, hplaced, hapart⟩ := ih hrest
      rw [hplaced]
      exact ⟨first :: before, after, rfl, List.forall_mem_cons.2 ⟨hfirst, hapart⟩⟩

theorem Leads.placeOptions {leader : ArgSpec} {options added : List ArgSpec}
    (h : Leads leader options) (hapart : ∀ option ∈ added, leader.sharesNameWith option = false) :
    Leads leader (placeOptions options added) := by
  induction added generalizing options with
  | nil => exact h
  | cons option rest ih =>
    obtain ⟨hoption, hrest⟩ := List.forall_mem_cons.1 hapart
    exact ih (h.placeOption hoption) hrest

/-- Of unambiguous options that are added each one leads in the end, whatever was there before. -/
theorem leads_placeOptions {added : List ArgSpec} (h : Unambiguous added) (options : List ArgSpec)
    {option : ArgSpec} (hoption : option ∈ added) : Leads option (placeOptions options added) := by
  induction added generalizing options with
  | nil => cases hoption
  | cons first rest ih =>
    obtain ⟨hfirst, hrest⟩ := List.pairwise_cons.1 h
    rcases List.mem_cons.1 hoption with rfl | hlater
    · have hleads : Leads option (CommandSpec.placeOption option options) :=
        leads_placeOption option options
      exact hleads.placeOptions hfirst
    · exact ih hrest (CommandSpec.placeOption first options) hlater

/-- An option keeps its index when one of other names is placed. -/
theorem getElem?_placeOption {options : List ArgSpec} {index : Nat} {kept option : ArgSpec}
    (hindex : options[index]? = some kept) (hapart : kept.sharesNameWith option = false) :
    (placeOption option options)[index]? = some kept := by
  induction options generalizing index with
  | nil => cases hindex
  | cons first rest ih =>
    rw [placeOption]
    cases index with
    | zero =>
      obtain rfl := Option.some.inj hindex
      rw [if_neg (by simp [hapart])]
      rfl
    | succ index =>
      split
      · exact hindex
      · exact ih hindex

theorem getElem?_placeOptions {options added : List ArgSpec} {index : Nat} {kept : ArgSpec}
    (hindex : options[index]? = some kept)
    (hapart : ∀ option ∈ added, kept.sharesNameWith option = false) :
    (placeOptions options added)[index]? = some kept := by
  induction added generalizing options with
  | nil => exact hindex
  | cons option rest ih =>
    obtain ⟨hoption, hrest⟩ := List.forall_mem_cons.1 hapart
    exact ih (getElem?_placeOption hindex hoption) hrest

/-- After unambiguous options have been added to any specification, each of their names leads to its
own option, and every option from before that shares no name with them has kept its index. -/
theorem added_options_win (spec : CommandSpec) {added : List ArgSpec} (h : Unambiguous added) :
    (∀ option ∈ added, ∀ name ∈ option.names,
        (added.foldl addOption spec).option? name = some option) ∧
      ∀ (index : Nat) (kept : ArgSpec), spec.options[index]? = some kept →
        (∀ option ∈ added, kept.sharesNameWith option = false) →
          (added.foldl addOption spec).options[index]? = some kept := by
  rw [foldl_addOption]
  refine ⟨fun option hoption name hname => ?_, fun index kept hindex hapart => ?_⟩
  · exact (leads_placeOptions h spec.options hoption).find?_eq hname
  · exact getElem?_placeOptions hindex hapart

/-- Options of a base, of which two share a name. -/
def baseOptions : CommandSpec :=
  { options := [{ names := ["-a"] }, { names := ["-b", "-c"] }, { names := ["-d"] },
      { names := ["-c", "-e"] }] }

/-- The first of two options displaces one of the base and shares a name with another one, which it
leaves behind itself; the second displaces the first option of the base. -/
theorem added_options_win_baseOptions :
    Unambiguous [{ names := ["-c", "-f"] }, { names := ["-g", "-a"] }] ∧
      let spec := ([{ names := ["-c", "-f"] }, { names := ["-g", "-a"] }] : List ArgSpec).foldl
        addOption baseOptions
      spec.option? "-c" = some { names := ["-c", "-f"] } ∧
        spec.option? "-a" = some { names := ["-g", "-a"] } ∧
        spec.options[2]? = some { names := ["-d"] } := by
  have hunambiguous : Unambiguous [{ names := ["-c", "-f"] }, { names := ["-g", "-a"] }] := by decide
  obtain ⟨hwins, hkeeps⟩ := added_options_win baseOptions hunambiguous
  refine ⟨hunambiguous, ?_, ?_, ?_⟩
  · exact hwins { names := ["-c", "-f"] } (by decide) "-c" (by decide)
  · exact hwins { names := ["-g", "-a"] } (by decide) "-a" (by decide)
  · exact hkeeps 2 { names := ["-d"] } (by decide) (by decide)

end CommandSpec

end CommandFactory
