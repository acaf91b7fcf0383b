import CommandFactory.Json.Decoder
import CommandFactory.Proofs.Keyed
import Mathlib.Data.List.Pairwise
import Mathlib.Data.List.Perm.Basic
import Mathlib.Logic.Function.Conjugate

/-!
# Reading back what was written

A record is written as an object with a member for each field that does not hold its default. The
object may be passed on with its members in another order (`Rearranges`), for instance sorted by key.
Reading it makes one change for each member. Changes of different fields commute, so the order does not
matter, and a field that was left out holds its default from the start (`Restores.decode`).
-/

set_option autoImplicit false

namespace CommandFactory.Json

variable {α β : Type} {medium : Medium} {arrange : Json → Json}

/-! ## Arrangements -/

/-- Passes values on as they are, but for the order of the members in objects. -/
structure Rearranges (arrange : Json → Json) : Prop where
  null : arrange .null = .null
  bool : ∀ value, arrange (.bool value) = .bool value
  number : ∀ value, arrange (.number value) = .number value
  string : ∀ text, arrange (.string text) = .string text
  array : ∀ items, arrange (.array items) = .array (items.map arrange)
  object : ∀ members : List (String × Json), (members.map Prod.fst).Nodup →
    ∃ others, arrange (.object members) = .object others ∧
      others.Perm (members.map (Prod.map id arrange))

theorem rearranges_id : Rearranges id where
  null := rfl
  bool := fun _ => rfl
  number := fun _ => rfl
  string := fun _ => rfl
  array := fun items => by simp
  object := fun members _ => ⟨members, rfl, by simp⟩

/-- A member of a new key is put in beside the others. -/
theorem insertMember_perm {key : String} {value : Json} {members : List (String × Json)}
    (h : key ∉ members.map Prod.fst) :
    (insertMember key value members).Perm ((key, value) :: members) := by
  induction members with
  | nil => exact List.Perm.refl _
  | cons member rest ih =>
    obtain ⟨k, v⟩ := member
    rw [List.map_cons, List.mem_cons, not_or] at h
    rw [insertMember]
    split
    · exact List.Perm.refl _
    · rw [if_neg h.1]
      exact ((ih h.2).cons _).trans (List.Perm.swap _ _ _)

/-- Members of new and distinct keys are put in one after the other without a loss. -/
theorem foldl_insertMember_perm (members before : List (String × Json))
    (h : ((members ++ before).map Prod.fst).Nodup) :
    (members.foldl (fun sorted member => insertMember member.1 member.2 sorted) before).Perm
      (members ++ before) := by
  induction members generalizing before with
  | nil => exact List.Perm.refl _
  | cons member rest ih =>
    have hmiddle : (rest ++ member :: before).Perm (member :: (rest ++ before)) :=
      List.perm_middle
    rw [List.cons_append, List.map_cons, List.nodup_cons] at h
    have hput : (insertMember member.1 member.2 before).Perm (member :: before) := by
      apply insertMember_perm
      intro hmem
      apply h.1
      simp only [List.map_append, List.mem_append]
      exact Or.inr hmem
    -- To have put the member in first changes the keys that are there by its own only.
    have hkeys : ((rest ++ insertMember member.1 member.2 before).map Prod.fst).Nodup := by
      rw [(((hput.append_left rest).trans hmiddle).map Prod.fst).nodup_iff]
      exact List.nodup_cons.2 h
    exact (ih _ hkeys).trans ((hput.append_left rest).trans hmiddle)

/-- Members of distinct keys are sorted without a loss. -/
theorem sortMembers_perm {members : List (String × Json)} (h : (members.map Prod.fst).Nodup) :
    (sortMembers members).Perm members := by
  have hfold := foldl_insertMember_perm members [] (by rwa [List.append_nil])
  rwa [List.append_nil] at hfold

theorem sortedItems_eq_map (items : List Json) : sortedItems items = items.map sorted := by
  induction items with
  | nil => rfl
  | cons item rest ih => rw [sortedItems, ih, List.map_cons]

theorem sortedMembers_eq_map (members : List (String × Json)) :
    sortedMembers members = members.map (Prod.map id sorted) := by
  induction members with
  | nil => rfl
  | cons member rest ih =>
    obtain ⟨key, value⟩ := member
    rw [sortedMembers, ih, List.map_cons]
    rfl

/-- To sort the members of all objects is to rearrange them. -/
theorem rearranges_sorted : Rearranges sorted where
  null := by rw [sorted] <;> simp
  bool := fun _ => by rw [sorted] <;> simp
  number := fun _ => by rw [sorted] <;> simp
  string := fun _ => by rw [sorted] <;> simp
  array := fun items => by rw [sorted, sortedItems_eq_map]
  object := by
    intro members hdistinct
    refine ⟨sortMembers (sortedMembers members), by rw [sorted], ?_⟩
    rw [sortedMembers_eq_map]
    refine sortMembers_perm ?_
    rw [List.map_map]
    exact hdistinct

/-- Members are told apart by their keys, so an arrangement leaves them on the side where they are. -/
theorem filter_perm {own : String → Bool} {front back others : List (String × Json)}
    (hfront : ∀ key ∈ front.map Prod.fst, own key = true)
    (hback : ∀ key ∈ back.map Prod.fst, own key = false)
    (hperm : others.Perm ((front ++ back).map (Prod.map id arrange))) :
    (others.filter fun member => own member.1).Perm (front.map (Prod.map id arrange)) ∧
      (others.filter fun member => !own member.1).Perm (back.map (Prod.map id arrange)) := by
  rw [List.forall_mem_map] at hfront hback
  constructor
  · have hfilter := hperm.filter fun member => own member.1
    have hown : (front ++ back).filter (fun member => own member.1) = front := by
      rw [List.filter_append, List.filter_eq_self.2 hfront,
        List.filter_eq_nil_iff.2 (by simpa using hback), List.append_nil]
    rw [List.filter_map] at hfilter
    exact hown ▸ hfilter
  · have hfilter := hperm.filter fun member => !own member.1
    have hothers : (front ++ back).filter (fun member => !own member.1) = back := by
      rw [List.filter_append, List.filter_eq_nil_iff.2 (by simpa using hfront),
        List.filter_eq_self.2 (by simpa using hback), List.nil_append]
    rw [List.filter_map] at hfilter
    exact hothers ▸ hfilter

/-! ## Plain decoders -/

@[simp]
theorem StringText.read_ofString (text : String) : (StringText.ofString text).read = .ok text := by
  have hpieces : ∀ chars : List Char, readPieces .closed (chars.map .char) = .ok chars := by
    intro chars
    induction chars with
    | nil => rfl
    | cons c rest ih =>
      rw [List.map_cons, readPieces, ih]
      rfl
  rw [read, ofString, hpieces]
  simp [Except.map]

/-- The decoder reads a value back from what it is written as, however that is rearranged. -/
def ReadsBack (medium : Medium) (arrange : Json → Json) (decoder : Decoder α) (encode : α → Json) :
    Prop :=
  ∀ a, decoder medium (Draft.ofJson (arrange (encode a))) = .ok a

namespace ReadsBack

theorem text (h : Rearranges arrange) : ReadsBack medium arrange Decoder.text .string := by
  intro text
  simp [h.string, Draft.ofJson, Decoder.text, reading]

theorem flag (h : Rearranges arrange) : ReadsBack medium arrange Decoder.flag .bool := by
  intro value
  simp [h.bool, Draft.ofJson, Decoder.flag]

/-- A variant is read back from its name, if the name is listed for it. -/
theorem variantOf (h : Rearranges arrange) {variants : List (String × α)} {other : Option α}
    {name : α → String} (hname : ∀ a, Decoder.ofVariant variants other (name a) = .ok a) :
    ReadsBack medium arrange (Decoder.variantOf variants other) fun a => .string (name a) := by
  intro a
  simp only [h.string, Draft.ofJson, Decoder.variantOf]
  simp [reading, hname, bind, Except.bind]

theorem items {decoder : Decoder α} {encode : α → Json}
    (h : ReadsBack medium arrange decoder encode) (values : List α) :
    Decoder.items decoder medium (Draft.ofItems (values.map (arrange ∘ encode))) = .ok values := by
  induction values with
  | nil => simp [Draft.ofItems, Decoder.items]
  | cons value rest ih =>
    rw [List.map_cons, Draft.ofItems, Decoder.items, Function.comp_apply, h value, ih]
    rfl

theorem listOf (harrange : Rearranges arrange) {decoder : Decoder α} {encode : α → Json}
    (h : ReadsBack medium arrange decoder encode) :
    ReadsBack medium arrange (Decoder.listOf decoder) fun values => .array (values.map encode) := by
  intro values
  simp only [harrange.array, Draft.ofJson, Decoder.listOf, List.map_map, h.items values]
  rfl

theorem texts (h : Rearranges arrange) :
    ReadsBack medium arrange (Decoder.listOf Decoder.text) Json.texts :=
  listOf h (text h)

end ReadsBack

/-! ## Members of records -/

/-- Among the fields there is one for the member, and reading it makes the change. -/
def ReadsAs (fields : List (FieldReader α)) (medium : Medium) (member : String × Json)
    (change : α → α) : Prop :=
  ∃ field, fields.find? (fun field => field.name = member.1) = some field ∧
    field.read medium (Draft.ofJson member.2) = .ok change

/-- Members of distinct keys make their changes one after the other. -/
theorem members_of_forall₂ {fields : List (FieldReader α)} {members : List (String × Json)}
    {changes : List (α → α)} (h : List.Forall₂ (ReadsAs fields medium) members changes)
    {seen : List String} (hdistinct : (members.map Prod.fst).Nodup)
    (hnew : ∀ key ∈ members.map Prod.fst, key ∉ seen) (a : α) :
    Record.members fields medium (Draft.ofMembers members) seen a =
      .ok ((members.map Prod.fst).reverse ++ seen, changes.foldl (fun a change => change a) a) := by
  induction h generalizing seen a with
  | nil => rfl
  | @cons member change members changes hreads _ ih =>
    obtain ⟨key, value⟩ := member
    obtain ⟨field, hfield, hchange⟩ := hreads
    obtain rfl : field.name = key := by simpa using List.find?_some hfield
    rw [List.map_cons, List.nodup_cons] at hdistinct
    rw [List.map_cons, List.forall_mem_cons] at hnew
    -- What comes later has neither a key that was seen nor that of this member.
    have hrest : ∀ other ∈ members.map Prod.fst, other ∉ field.name :: seen := by
      intro other hother
      rw [List.mem_cons, not_or]
      refine ⟨?_, hnew.2 other hother⟩
      rintro rfl
      exact hdistinct.1 hother
    simp only [Draft.ofMembers, Record.members, StringText.read_ofString, reading, bind,
      Except.bind]
    simp [hfield, hnew.1, hchange, ih hdistinct.2 hrest]

/-- Members for fields of a record in their order, and the changes of all these fields. A field is left
out only if the record at the start already has what the change would bring. -/
inductive Restores (medium : Medium) (arrange : Json → Json) (start : α) :
    List (FieldReader α) → List (String × Json) → List (α → α) → Prop
  | nil : Restores medium arrange start [] [] []
  | written {field : FieldReader α} {fields : List (FieldReader α)} {value : Json}
      {members : List (String × Json)} {change : α → α} {changes : List (α → α)}
      (reads : field.read medium (Draft.ofJson (arrange value)) = .ok change)
      (rest : Restores medium arrange start fields members changes) :
      Restores medium arrange start (field :: fields) ((field.name, value) :: members)
        (change :: changes)
  | leftOut {field : FieldReader α} {fields : List (FieldReader α)}
      {members : List (String × Json)} {change : α → α} {changes : List (α → α)}
      (optional : field.required = false) (same : change start = start)
      (rest : Restores medium arrange start fields members changes) :
      Restores medium arrange start (field :: fields) members (change :: changes)

namespace Restores

variable {start : α} {fields : List (FieldReader α)} {members : List (String × Json)}
  {changes : List (α → α)}

/-- A field that has to be there is always written. -/
theorem needed {decoder : Decoder β} {encode : β → Json} (name : String) (set : β → α → α)
    (h : ReadsBack medium arrange decoder encode) (value : β)
    (rest : Restores medium arrange start fields members changes) :
    Restores medium arrange start (.needed name decoder set :: fields)
      ((name, encode value) :: members) (set value :: changes) := by
  refine .written ?_ rest
  simp [FieldReader.needed, h value, Except.map]

/-- A field with a default may be written all the same. -/
theorem defaulted {decoder : Decoder β} {encode : β → Json} (name : String) (set : β → α → α)
    (h : ReadsBack medium arrange decoder encode) (value : β)
    (rest : Restores medium arrange start fields members changes) :
    Restores medium arrange start (.defaulted name decoder set :: fields)
      ((name, encode value) :: members) (set value :: changes) := by
  refine .written ?_ rest
  simp [FieldReader.defaulted, h value, Except.map]

/-- A field that may hold nothing is left out then. -/
theorem optional {decoder : Decoder β} {encode : β → Json} (name : String)
    (set : Option β → α → α) (h : ReadsBack medium arrange decoder encode)
    (hnull : ∀ value, decoder medium .null ≠ .ok value)
    (same : set none start = start) (value : Option β)
    (rest : Restores medium arrange start fields members changes) :
    Restores medium arrange start (.defaulted name (.optional decoder) set :: fields)
      (memberIf name (value.map encode) ++ members) (set value :: changes) := by
  cases value with
  | none => exact .leftOut rfl same rest
  | some value =>
    refine .written ?_ rest
    have hread : Decoder.optional decoder medium (Draft.ofJson (arrange (encode value))) =
        .ok (some value) := by
      unfold Decoder.optional
      split
      · rename_i hdraft
        exact absurd (hdraft ▸ h value) (hnull value)
      · rw [h value]
        rfl
    simp [FieldReader.defaulted, hread, Except.map]

/-- A field with a list may be left out where the list is empty. -/
theorem unlessEmpty {decoder : Decoder β} {encode : β → Json} (name : String)
    (set : List β → α → α) (h : ReadsBack medium arrange decoder encode)
    (harrange : Rearranges arrange) (same : set [] start = start) (values : List β)
    (rest : Restores medium arrange start fields members changes) :
    Restores medium arrange start (.defaulted name (.listOf decoder) set :: fields)
      ((if values.isEmpty then [] else [(name, .array (values.map encode))]) ++ members)
      (set values :: changes) := by
  cases values with
  | nil => exact .leftOut rfl same rest
  | cons value values => exact .defaulted name set (.listOf harrange h) (value :: values) rest

theorem keys_sublist (h : Restores medium arrange start fields members changes) :
    (members.map Prod.fst).Sublist (fields.map FieldReader.name) := by
  induction h with
  | nil => exact List.Sublist.refl _
  | written _ _ ih => exact ih.cons_cons _
  | leftOut _ _ _ ih => exact ih.cons _

theorem mem_keys_of_required (h : Restores medium arrange start fields members changes) :
    ∀ field ∈ fields, field.required = true → field.name ∈ members.map Prod.fst := by
  induction h with
  | nil =>
    intro field hfield
    cases hfield
  | written _ _ ih =>
    intro field hfield hrequired
    rcases List.mem_cons.1 hfield with rfl | hfield
    · exact List.mem_cons_self ..
    · exact List.mem_cons_of_mem _ (ih field hfield hrequired)
  | leftOut hoptional _ _ ih =>
    intro field hfield hrequired
    rcases List.mem_cons.1 hfield with rfl | hfield
    · rw [hoptional] at hrequired
      cases hrequired
    · exact ih field hfield hrequired

/-- The members make changes that come to the same as those of all fields, from a record on which the
changes of the fields that were left out do nothing. -/
theorem exists_made (h : Restores medium arrange start fields members changes)
    {all : List (FieldReader α)} (hall : fields ⊆ all)
    (hdistinct : (all.map FieldReader.name).Nodup)
    (hcommute : ∀ f ∈ changes, ∀ g ∈ changes, Function.Commute f g) :
    ∃ made ⊆ changes,
      List.Forall₂ (ReadsAs all medium) (members.map (Prod.map id arrange)) made ∧
      ∀ a, (∀ f ∈ changes, f start = start → f a = a) →
        made.foldl (fun a f => f a) a = changes.foldl (fun a f => f a) a := by
  induction h with
  | nil => exact ⟨[], List.nil_subset _, List.Forall₂.nil, fun _ _ => rfl⟩
  | @written field fields value members change changes reads rest ih =>
    rw [List.cons_subset] at hall
    obtain ⟨made, hmade, hreads, hfold⟩ := ih hall.2 fun f hf g hg =>
      hcommute f (List.mem_cons_of_mem _ hf) g (List.mem_cons_of_mem _ hg)
    have hfield : all.find? (fun other => other.name = field.name) = some field :=
      (Keyed.get?_of_mem hall.1 : (⟨all, hdistinct⟩ : Keyed FieldReader.name).get? _ = _)
    refine ⟨change :: made, List.cons_subset_cons _ hmade, .cons ⟨field, hfield, reads⟩ hreads, ?_⟩
    intro a ha
    rw [List.foldl_cons, List.foldl_cons]
    apply hfold
    -- What does nothing on a record does nothing after the change either.
    intro f hf hstart
    have hsame := ha f (List.mem_cons_of_mem _ hf) hstart
    rw [hcommute f (List.mem_cons_of_mem _ hf) change (List.mem_cons_self ..) a, hsame]
  | @leftOut field fields members change changes optional same rest ih =>
    rw [List.cons_subset] at hall
    obtain ⟨made, hmade, hreads, hfold⟩ := ih hall.2 fun f hf g hg =>
      hcommute f (List.mem_cons_of_mem _ hf) g (List.mem_cons_of_mem _ hg)
    refine ⟨made, List.Subset.trans hmade (List.subset_cons_self _ _), hreads, ?_⟩
    intro a ha
    rw [List.foldl_cons, ha change (List.mem_cons_self ..) same]
    exact hfold a fun f hf => ha f (List.mem_cons_of_mem _ hf)

/-- In whatever order the members come, the fields read the record that has all changes, and miss
none. -/
theorem members_eq (h : Restores medium arrange start fields members changes)
    (hdistinct : (fields.map FieldReader.name).Nodup)
    (hcommute : ∀ f ∈ changes, ∀ g ∈ changes, Function.Commute f g)
    {others : List (String × Json)} (hperm : others.Perm (members.map (Prod.map id arrange))) :
    ∃ seen, Record.unlessMissing fields seen = .ok () ∧
      Record.members fields medium (Draft.ofMembers others) [] start =
        .ok (seen, changes.foldl (fun a f => f a) start) := by
  obtain ⟨made, hmade, hreads, hfold⟩ :=
    h.exists_made (List.Subset.refl _) hdistinct hcommute
  obtain ⟨inOrder, hothers, hmadePerm⟩ := List.perm_comp_forall₂ hperm hreads
  have hkeys : (others.map Prod.fst).Perm (members.map Prod.fst) := by
    have hmap := hperm.map Prod.fst
    rwa [List.map_map] at hmap
  refine ⟨(others.map Prod.fst).reverse ++ [], ?_, ?_⟩
  · -- A field that has to be there is a key of the members.
    have hnone : fields.find? (fun field => field.required &&
        !((others.map Prod.fst).reverse ++ []).contains field.name) = none := by
      rw [List.find?_eq_none]
      intro field hfield hmissing
      rw [Bool.and_eq_true] at hmissing
      have hmem := hkeys.mem_iff.2 (h.mem_keys_of_required field hfield hmissing.1)
      simp [hmem] at hmissing
    rw [Record.unlessMissing, hnone]
  · have hnodup : (others.map Prod.fst).Nodup :=
      hkeys.nodup_iff.2 (hdistinct.sublist h.keys_sublist)
    rw [members_of_forall₂ hothers hnodup (by simp)]
    rw [hmadePerm.foldl_eq', hfold start fun f _ hstart => hstart]
    intro f hf g hg a
    exact hcommute g (hmade (hmadePerm.subset hg)) f (hmade (hmadePerm.subset hf)) a

end Restores

@[simp]
theorem commute_iff {f g : α → α} : Function.Commute f g ↔ ∀ a, f (g a) = g (f a) := Iff.rfl

/-- Members for the fields of a record, whose changes commute and together make the value from the
defaults. -/
inductive Record.Writes (record : Record α) (medium : Medium) (arrange : Json → Json)
    (members : List (String × Json)) (a : α) : Prop
  | intro {changes : List (α → α)} (distinct : (record.fields.map FieldReader.name).Nodup)
      (restores : Restores medium arrange record.start record.fields members changes)
      (commute : changes.Pairwise Function.Commute)
      (whole : changes.foldl (fun b f => f b) record.start = a)

namespace Record.Writes

variable {record : Record α} {members : List (String × Json)} {a : α}

theorem keys_sublist (h : record.Writes medium arrange members a) :
    (members.map Prod.fst).Sublist (record.fields.map FieldReader.name) := by
  cases h with
  | intro _ restores _ _ => exact restores.keys_sublist

theorem distinct_keys (h : record.Writes medium arrange members a) :
    (members.map Prod.fst).Nodup := by
  cases h with
  | intro distinct restores _ _ => exact distinct.sublist restores.keys_sublist

/-- The members are all read, in any order, and no field is missing. -/
theorem members_eq (h : record.Writes medium arrange members a)
    {others : List (String × Json)} (hperm : others.Perm (members.map (Prod.map id arrange))) :
    ∃ seen, unlessMissing record.fields seen = .ok () ∧
      Record.members record.fields medium (Draft.ofMembers others) [] record.start =
        .ok (seen, a) := by
  cases h with
  | @intro changes distinct restores commute whole =>
    have hsymm : Std.Symm (@Function.Commute α) := ⟨fun _ _ h => h.symm⟩
    have hcommute : ∀ f ∈ changes, ∀ g ∈ changes, Function.Commute f g := fun f hf g hg =>
      commute.forall_of_forall (fun f _ => .refl f) hf hg
    obtain ⟨seen, hmissing, hmembers⟩ := restores.members_eq distinct hcommute hperm
    exact ⟨seen, hmissing, whole ▸ hmembers⟩

/-- The members give the value back in any order. -/
theorem ofMembers (h : record.Writes medium arrange members a)
    {others : List (String × Json)} (hperm : others.Perm (members.map (Prod.map id arrange))) :
    record.ofMembers medium (Draft.ofMembers others) = .ok a := by
  obtain ⟨seen, hmissing, hmembers⟩ := h.members_eq hperm
  rw [Record.ofMembers, hmembers]
  simp [hmissing, bind, Except.bind, pure, Except.pure]

/-- The object of the members gives the value back. -/
theorem decode (harrange : Rearranges arrange) (h : record.Writes medium arrange members a) :
    record.decode medium (Draft.ofJson (arrange (.object members))) = .ok a := by
  obtain ⟨others, hothers, hperm⟩ := harrange.object members h.distinct_keys
  have hread := h.ofMembers hperm
  rw [hothers, Draft.ofJson]
  exact hread

end Record.Writes

end CommandFactory.Json
