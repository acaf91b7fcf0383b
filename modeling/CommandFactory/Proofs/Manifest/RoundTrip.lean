import CommandFactory.Manifest.Coding
import CommandFactory.Proofs.Symbol.RoundTrip

/-!
# Manifests are read back

Every record of a manifest is decoded from what it is encoded as, field by field: a field is either
written or holds the default that the decoder starts from. As the order of members does not matter, this
holds of the encoding with its members in the order of the fields, and with its members sorted by key
(`Manifest.roundTrip`).
-/

set_option autoImplicit false

namespace CommandFactory

open Json

variable {medium : Medium} {arrange : Json → Json}

theorem ArgScope.readsBack (h : Rearranges arrange) :
    ReadsBack medium arrange ArgScope.decode fun scope => .string scope.name :=
  .variantOf h fun scope => by cases scope <;> rfl

theorem ArgCategory.readsBack (h : Rearranges arrange) :
    ReadsBack medium arrange ArgInput.decodeCategory fun category => .string category.name :=
  .variantOf h fun category => by cases category <;> rfl

/-- An argument is read back. -/
theorem ArgInput.readsBack (h : Rearranges arrange) :
    ReadsBack medium arrange ArgInput.record.decode ArgInput.encode := by
  intro arg
  have hid : ReadsBack medium arrange SymbolId.decode SymbolId.encode := SymbolId.readsBack h
  have htext : ReadsBack medium arrange Decoder.text .string := .text h
  have htexts : ReadsBack medium arrange (Decoder.listOf Decoder.text) texts := .texts h
  have hflag : ReadsBack medium arrange Decoder.flag .bool := .flag h
  unfold ArgInput.encode
  apply Record.Writes.decode h
  constructor
  · decide
  · simp only [List.append_assoc, List.cons_append, List.nil_append]
    apply Restores.needed _ _ hid
    apply Restores.needed _ _ (ArgCategory.readsBack h)
    apply Restores.defaulted _ _ htexts
    apply Restores.optional _ _ htext nofun rfl
    apply Restores.defaulted _ _ htext
    apply Restores.defaulted _ _ htexts
    apply Restores.needed _ _ htext
    apply Restores.defaulted _ _ htexts
    apply Restores.optional _ _ htext nofun rfl
    apply Restores.defaulted _ _ hflag
    apply Restores.defaulted _ _ hflag
    apply Restores.defaulted _ _ (ArgScope.readsBack h)
    apply Restores.defaulted _ _ htext
    apply Restores.optional _ _ htext nofun rfl
    apply Restores.defaulted _ _ hflag
    apply Restores.defaulted _ _ hflag
    apply Restores.optional _ _ htext nofun rfl
    apply Restores.optional _ _ htext nofun rfl
    apply Restores.optional _ _ htext nofun rfl
    apply Restores.optional _ _ htext nofun rfl
    apply Restores.defaulted _ _ hflag
    exact .nil
  · simp
  · rfl

theorem CommandMeta.readsBack (h : Rearranges arrange) :
    ReadsBack medium arrange CommandMeta.record.decode CommandMeta.encode := by
  intro command
  apply Record.Writes.decode h
  constructor
  · decide
  · apply Restores.needed _ _ (.text h)
    apply Restores.defaulted _ _ (.texts h)
    exact .nil
  · simp
  · rfl

theorem NamedElement.readsBack (h : Rearranges arrange) :
    ReadsBack medium arrange NamedElement.record.decode NamedElement.encode := by
  intro named
  apply Record.Writes.decode h
  constructor
  · decide
  · apply Restores.needed _ _ (.text h)
    apply Restores.needed _ _ (SymbolId.readsBack h)
    exact .nil
  · simp
  · rfl

theorem ArgGroupInput.readsBack (h : Rearranges arrange) :
    ReadsBack medium arrange ArgGroupInput.record.decode ArgGroupInput.encode := by
  intro group
  unfold ArgGroupInput.encode
  apply Record.Writes.decode h
  constructor
  · decide
  · simp only [List.cons_append, List.nil_append]
    apply Restores.defaulted _ _ (.listOf h (ArgInput.readsBack h))
    apply Restores.defaulted _ _ (.flag h)
    apply Restores.optional _ _ (.text h) nofun rfl
    rw [← List.append_nil (memberIf _ _)]
    apply Restores.optional _ _ (.text h) nofun rfl
    exact .nil
  · simp
  · rfl

theorem CommandInput.readsBack (h : Rearranges arrange) :
    ReadsBack medium arrange CommandInput.record.decode CommandInput.encode := by
  intro input
  have hnamed : ReadsBack medium arrange (Decoder.listOf NamedElement.record.decode) fun named =>
      .array (named.map NamedElement.encode) := .listOf h (NamedElement.readsBack h)
  have hargs : ReadsBack medium arrange (Decoder.listOf ArgInput.record.decode) fun args =>
      .array (args.map ArgInput.encode) := .listOf h (ArgInput.readsBack h)
  have htexts : ReadsBack medium arrange (Decoder.listOf Decoder.text) texts := .texts h
  unfold CommandInput.encode
  apply Record.Writes.decode h
  constructor
  · decide
  · simp only [List.cons_append, List.nil_append]
    apply Restores.needed _ _ (SymbolId.readsBack h)
    apply Restores.optional _ _ (CommandMeta.readsBack h) nofun rfl
    apply Restores.defaulted _ _ hnamed
    apply Restores.defaulted _ _ hnamed
    apply Restores.defaulted _ _ hargs
    apply Restores.defaulted _ _ hargs
    apply Restores.defaulted _ _ (.listOf h (ArgGroupInput.readsBack h))
    apply Restores.defaulted _ _ htexts
    apply Restores.defaulted _ _ htexts
    apply Restores.defaulted _ _ htexts
    exact .nil
  · simp
  · rfl

/-- The symbols and elements of a manifest are read back, in their order. -/
theorem Manifest.readsBack (h : Rearranges arrange) (hmedium : medium ≠ .text) :
    ReadsBack medium arrange record.decode fun parts => encode parts.1 parts.2 := by
  intro parts
  have hsymbols : ReadsBack medium arrange Symbol.decode Symbol.encode :=
    Symbol.readsBack h hmedium
  apply Record.Writes.decode h
  constructor
  · decide
  · apply Restores.defaulted _ _ (.listOf h hsymbols)
    apply Restores.defaulted _ _ (.listOf h (CommandInput.readsBack h))
    exact .nil
  · simp
  · rfl

/-! ## Values -/

/-- Decodes what the values are encoded as, both as it is written and as a sorted map holds it. -/
def Decodes {α : Type} (decoder : Decoder α) (encode : α → Json) : Prop :=
  ∀ a, decodeValue decoder (encode a) = .ok a ∧ decodeValue decoder (encode a).sorted = .ok a

theorem decodes_of_readsBack {α : Type} {decoder : Decoder α} {encode : α → Json}
    (h : ∀ arrange, Rearranges arrange → ReadsBack .value arrange decoder encode) :
    Decodes decoder encode := by
  intro a
  exact ⟨h id rearranges_id a, h sorted rearranges_sorted a⟩

/-- Symbols and elements are decoded from what they are encoded as, and a manifest of encoded symbols and
elements is a source of just these elements and of the table of just these symbols. -/
theorem Manifest.roundTrip :
    Decodes Symbol.decode Symbol.encode ∧ Decodes CommandInput.record.decode CommandInput.encode ∧
      ∀ symbols elements,
        ofValue (encode symbols elements) = .ok ⟨.ofList symbols, elements⟩ ∧
        ofValue (encode symbols elements).sorted = .ok ⟨.ofList symbols, elements⟩ := by
  have hparts : Decodes record.decode fun parts => encode parts.1 parts.2 :=
    decodes_of_readsBack fun arrange h => Manifest.readsBack h (by decide)
  refine ⟨?_, ?_, ?_⟩
  · exact decodes_of_readsBack fun arrange h => Symbol.readsBack h (by decide)
  · exact decodes_of_readsBack fun arrange h => CommandInput.readsBack h
  · intro symbols elements
    obtain ⟨hwritten, hsorted⟩ := hparts (symbols, elements)
    constructor
    · rw [ofValue, hwritten]
      rfl
    · rw [ofValue, hsorted]
      rfl

end CommandFactory
