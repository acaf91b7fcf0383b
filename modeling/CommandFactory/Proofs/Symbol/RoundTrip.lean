import CommandFactory.Proofs.Json.Reading
import CommandFactory.Symbol.Coding

/-!
# Symbols are read back

A symbol is read back from its object, in whatever order the members come. The members that all symbols
have and those of the kind stand beside one another: the first are read on the way, and the others are
kept until the kind is made out from them (`Symbol.members_eq`, `SymbolKind.splitTag_eq`).
-/

set_option autoImplicit false

namespace CommandFactory

open Json

variable {medium : Medium} {arrange : Json → Json}

theorem SymbolId.readsBack (h : Rearranges arrange) :
    ReadsBack medium arrange SymbolId.decode SymbolId.encode := by
  intro id
  rw [SymbolId.decode, SymbolId.encode, ReadsBack.text h]
  rfl

theorem Modifier.readsBack (h : Rearranges arrange) :
    ReadsBack medium arrange Modifier.decode fun modifier => .string modifier.name :=
  .variantOf h fun modifier => by cases modifier <;> rfl

namespace SymbolKind

/-- Every kind has a record under its word, and is read back by it from the members it adds. None of
these has the name of a member that all symbols have. -/
theorem exists_record (h : Rearranges arrange) (kind : SymbolKind) :
    ∃ record, Decoder.ofVariant byName none kind.describe = .ok record ∧
      record.Writes medium arrange kind.encodeMembers kind ∧
      (Symbol.fields.map FieldReader.name ++
        "kind" :: record.fields.map FieldReader.name).Nodup := by
  have hid : ReadsBack medium arrange SymbolId.decode SymbolId.encode := SymbolId.readsBack h
  have htext : ReadsBack medium arrange Decoder.text .string := .text h
  cases kind with
  | package =>
    refine ⟨_, rfl, ?_, by decide⟩
    constructor
    · decide
    · exact .nil
    · simp
    · rfl
  | classType superclass typePath members =>
    refine ⟨classRecord, rfl, ?_, by decide⟩
    constructor
    · decide
    · rw [encodeMembers, List.append_assoc]
      apply Restores.optional _ _ hid nofun rfl
      apply Restores.optional _ _ htext nofun rfl
      rw [← List.append_nil (memberIf _ _)]
      apply Restores.optional _ _ (.listOf h hid) nofun rfl
      exact .nil
    · simp only [List.pairwise_cons, List.forall_mem_cons]
      refine ⟨⟨?_, ?_, by simp⟩, ⟨?_, by simp⟩, by simp⟩ <;> intro kind <;> cases kind <;> rfl
    · rfl
  | method params =>
    refine ⟨methodRecord, rfl, ?_, by decide⟩
    constructor
    · decide
    · apply Restores.defaulted _ _ (.texts h)
      exact .nil
    · simp
    · rfl
  | field type argGroup =>
    refine ⟨fieldRecord, rfl, ?_, by decide⟩
    constructor
    · decide
    · apply Restores.needed _ _ htext
      apply Restores.defaulted _ _ (.flag h)
      exact .nil
    · rw [List.pairwise_pair]
      intro kind
      cases kind <;> rfl
    · rfl
  | parameter type =>
    refine ⟨parameterRecord, rfl, ?_, by decide⟩
    constructor
    · decide
    · apply Restores.needed _ _ htext
      exact .nil
    · simp
    · rfl

/-- Members as they are kept for the kind. -/
def keptOf (members : List (String × Json)) : List (String × Draft) :=
  members.map fun member => (member.1, Draft.ofJson member.2)

theorem splitTag_of_not_mem {members : List (String × Json)}
    (h : "kind" ∉ members.map Prod.fst) (tag : Option (Record SymbolKind)) :
    splitTag (keptOf members) tag = .ok (tag, Draft.ofMembers members) := by
  induction members with
  | nil => rfl
  | cons member rest ih =>
    rw [List.map_cons, List.mem_cons, not_or] at h
    have hrest := ih h.2
    rw [keptOf] at hrest
    simp [keptOf, splitTag, Ne.symm h.1, hrest, bind, Except.bind, Draft.ofMembers]

/-- The kind is found wherever it stands, and the other members are left in their order. -/
theorem splitTag_eq {members : List (String × Json)} {word : String} {record : Record SymbolKind}
    (hdistinct : (members.map Prod.fst).Nodup) (hmem : ("kind", Json.string word) ∈ members)
    (hrecord : Decoder.ofVariant byName none word = .ok record) :
    splitTag (keptOf members) none =
      .ok (some record, Draft.ofMembers (members.filter fun member => member.1 != "kind")) := by
  induction members with
  | nil => cases hmem
  | cons member rest ih =>
    rw [List.map_cons, List.nodup_cons] at hdistinct
    by_cases hkind : member.1 = "kind"
    · -- This member is the kind, as no other member has its key.
      have hnone : "kind" ∉ rest.map Prod.fst := hkind ▸ hdistinct.1
      obtain rfl : member = ("kind", .string word) := by
        rcases List.mem_cons.1 hmem with heq | hrest
        · exact heq.symm
        · exact absurd (List.mem_map_of_mem hrest) hnone
      have hfilter : rest.filter (fun member => member.1 != "kind") = rest := by
        rw [List.filter_eq_self]
        intro other hother
        rw [bne_iff_ne]
        rintro heq
        exact hnone (heq ▸ List.mem_map_of_mem hother)
      have hshape : Decoder.shapeOf byName .kept (Draft.ofJson (.string word)) = .ok record := by
        simp [Draft.ofJson, Decoder.shapeOf, reading, hrecord, bind, Except.bind]
      have hrest := splitTag_of_not_mem hnone (some record)
      rw [keptOf] at hrest
      rw [keptOf, List.map_cons, splitTag, if_pos rfl, hshape, List.filter_cons_of_neg (by simp),
        hfilter]
      simp only [bind, Except.bind, hrest]
    · have hrest := ih hdistinct.2 (by
        rcases List.mem_cons.1 hmem with heq | hrest
        · exact absurd (congrArg Prod.fst heq).symm hkind
        · exact hrest)
      rw [keptOf] at hrest
      rw [keptOf, List.map_cons, splitTag, if_neg hkind, hrest,
        List.filter_cons_of_pos (by simpa using hkind)]
      rfl

/-- The kind is read back from its members, in whatever order they were kept. -/
theorem ofKept_eq (h : Rearranges arrange) {kind : SymbolKind} {record : Record SymbolKind}
    (hrecord : Decoder.ofVariant byName none kind.describe = .ok record)
    (hwrites : record.Writes .kept arrange kind.encodeMembers kind)
    (hnew : "kind" ∉ kind.encodeMembers.map Prod.fst) {others : List (String × Json)}
    (hperm : others.Perm ((("kind", Json.string kind.describe) :: kind.encodeMembers).map
      (Prod.map id arrange))) :
    ofKept (keptOf others) = .ok kind := by
  have hkeys : (others.map Prod.fst).Nodup := by
    rw [(hperm.map Prod.fst).nodup_iff, List.map_map]
    exact List.nodup_cons.2 ⟨hnew, hwrites.distinct_keys⟩
  have hmem : ("kind", Json.string kind.describe) ∈ others := by
    rw [hperm.mem_iff, List.map_cons, Prod.map_apply, h.string]
    exact List.mem_cons_self ..
  have hothers : ∀ key ∈ kind.encodeMembers.map Prod.fst, (key == "kind") = false := by
    intro key hkey
    rw [beq_eq_false_iff_ne]
    rintro rfl
    exact hnew hkey
  have hkind : ∀ key ∈ [("kind", Json.string kind.describe)].map Prod.fst,
      (key == "kind") = true := by simp
  have hrest := (filter_perm hkind hothers hperm).2
  rw [ofKept, splitTag_eq hkeys hmem hrecord]
  exact hwrites.ofMembers hrest

end SymbolKind

namespace Symbol

/-- Is the name of a member that symbols of all kinds have. -/
def isShared (key : String) : Bool := fields.any fun field => field.name = key

theorem isShared_iff {key : String} : isShared key = true ↔ key ∈ fields.map FieldReader.name := by
  simp [isShared]

/-- The members that all symbols have are read in their order, and the others are kept in theirs. -/
theorem members_eq (hmedium : medium ≠ .text) (members : List (String × Json))
    (seen : List String) (symbol : Symbol) :
    Symbol.members medium (Draft.ofMembers members) seen symbol =
      (Record.members fields medium (Draft.ofMembers (members.filter fun member => isShared member.1))
        seen symbol).map fun found => (found.1, found.2,
          SymbolKind.keptOf (members.filter fun member => !isShared member.1)) := by
  induction members generalizing seen symbol with
  | nil => rfl
  | cons member rest ih =>
    obtain ⟨key, value⟩ := member
    rw [Draft.ofMembers, Symbol.members, StringText.read_ofString]
    cases hfind : fields.find? fun field => field.name = key with
    | none =>
      have hshared : isShared key = false := by
        rw [isShared, List.any_eq_false]
        exact List.find?_eq_none.1 hfind
      have hsettle : settleKept medium (Draft.ofJson value) = .ok () := by
        unfold settleKept
        split
        · exact absurd rfl hmedium
        · rfl
      simp only [reading, bind, Except.bind, hfind, hsettle, ih, List.filter_cons, hshared,
        Bool.not_false, Bool.false_eq_true, if_true, if_false]
      cases Record.members fields medium (Draft.ofMembers (rest.filter fun member => isShared member.1)) seen symbol <;> rfl
    | some field =>
      have hshared : isShared key = true := by
        rw [isShared, List.any_eq_true]
        exact ⟨field, List.mem_of_find?_eq_some hfind, by simpa using List.find?_some hfind⟩
      simp only [List.filter_cons, hshared, if_true, Bool.not_true, Draft.ofMembers,
        Record.members, StringText.read_ofString, reading, bind, Except.bind, hfind]
      split
      · rfl
      · cases field.read medium (Draft.ofJson value) with
        | error e => rfl
        | ok change => exact ih (key :: seen) (change symbol)

/-- The members that symbols of all kinds have. -/
def sharedMembers (symbol : Symbol) : List (String × Json) :=
  [("id", symbol.id.encode), ("name", .string symbol.name)] ++
    memberIf "owner" (symbol.owner.map SymbolId.encode) ++
    (if symbol.modifiers.isEmpty then []
      else [("modifiers", .array (symbol.modifiers.map fun m => .string m.name))])

theorem encode_eq (symbol : Symbol) :
    symbol.encode = .object (symbol.sharedMembers ++
      ("kind", .string symbol.kind.describe) :: symbol.kind.encodeMembers) := by
  simp [encode, sharedMembers]

/-- The members that symbols of all kinds have, as a record that leaves the kind open. -/
def sharedRecord : Record Symbol := ⟨"Symbol", ⟨⟨""⟩, "", none, [], .package⟩, fields⟩

theorem writes_sharedMembers (h : Rearranges arrange) (symbol : Symbol) :
    sharedRecord.Writes medium arrange symbol.sharedMembers { symbol with kind := .package } := by
  constructor
  · decide
  · rw [sharedMembers, List.append_assoc]
    apply Restores.needed _ _ (SymbolId.readsBack h)
    apply Restores.needed _ _ (.text h)
    apply Restores.optional _ _ (SymbolId.readsBack h) nofun rfl
    rw [← List.append_nil (if symbol.modifiers.isEmpty then [] else _)]
    apply Restores.unlessEmpty _ _ (Modifier.readsBack h) h rfl
    exact .nil
  · simp
  · rfl

/-- A symbol is read back. -/
theorem readsBack (h : Rearranges arrange) (hmedium : medium ≠ .text) :
    ReadsBack medium arrange decode encode := by
  intro symbol
  have hshared : sharedRecord.Writes medium arrange symbol.sharedMembers
      { symbol with kind := .package } := symbol.writes_sharedMembers h
  obtain ⟨record, hrecord, hkind, hdistinct⟩ : ∃ record,
      Decoder.ofVariant SymbolKind.byName none symbol.kind.describe = .ok record ∧
        record.Writes .kept arrange symbol.kind.encodeMembers symbol.kind ∧
        (fields.map FieldReader.name ++ "kind" :: record.fields.map FieldReader.name).Nodup :=
    SymbolKind.exists_record h symbol.kind
  -- The keys of the members come in the order of the fields, so they are distinct as well.
  have hsharedKeys := hshared.keys_sublist
  have hkindKeys := hkind.keys_sublist
  have hkeys : (symbol.sharedMembers ++ ("kind", .string symbol.kind.describe) ::
      symbol.kind.encodeMembers).map Prod.fst |>.Nodup := by
    rw [List.map_append, List.map_cons]
    exact hdistinct.sublist (hsharedKeys.append (hkindKeys.cons_cons _))
  obtain ⟨others, hothers, hperm⟩ := h.object _ hkeys
  have hfront : ∀ key ∈ symbol.sharedMembers.map Prod.fst, isShared key = true := by
    intro key hkey
    rw [isShared_iff]
    exact hsharedKeys.subset hkey
  have hback : ∀ key ∈ (("kind", .string symbol.kind.describe) ::
      symbol.kind.encodeMembers).map Prod.fst, isShared key = false := by
    intro key hkey
    rw [List.map_cons] at hkey
    rw [← Bool.not_eq_true, isShared_iff]
    intro hshared
    exact List.disjoint_of_nodup_append hdistinct hshared
      ((hkindKeys.cons_cons _).subset hkey)
  obtain ⟨hown, hkept⟩ := filter_perm hfront hback hperm
  obtain ⟨seen, hmissing, hmembers⟩ := hshared.members_eq hown
  have hread : SymbolKind.ofKept (SymbolKind.keptOf
      (others.filter fun member => !isShared member.1)) = .ok symbol.kind := by
    refine SymbolKind.ofKept_eq h hrecord hkind ?_ hkept
    intro hkind
    exact (List.nodup_cons.1 (List.nodup_append.1 hdistinct).2.1).1 (hkindKeys.subset hkind)
  rw [sharedRecord] at hmissing hmembers
  rw [encode_eq, hothers, Draft.ofJson, decode]
  simp [members_eq hmedium, hmembers, hmissing, hread, Except.map, bind, Except.bind, unlessFault]

end Symbol

end CommandFactory
