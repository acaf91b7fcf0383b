import CommandFactory.Json.Draft
import CommandFactory.Json.Decimal
import CommandFactory.Text.Quoted

/-!
# Decoding drafts

A decoder turns a draft into a value of a type, or says what is wrong with it (`DecodeError`). The
errors come in the order of the text: a decoder reads the parts of a draft from left to right and
ends at the first fault, be it of the text or of the type.

- `text`, `flag`, `listOf`, `optional` and `variantOf` decode the plain types;
- a `Record` describes a structure by its fields, and `Record.decode` reads it from an object, or
  from a list of the fields in their order;
- `Draft.skim` skips a part that no field asks for.

A few errors depend on the `Medium`: whether the draft comes from a text or from a finished value, or
was kept until the shape of the object around it was known.
-/

set_option autoImplicit false

namespace CommandFactory.Json

/-! ## Errors -/

/-- What stands where something else was expected. -/
inductive Found where
  | null
  | bool (value : Bool)
  | integer (value : Int)
  | real (text : String)
  | string (text : String)
  | sequence
  | map
  deriving DecidableEq, Repr, Inhabited

/-- The words for what was found. -/
def Found.describe : Found → String
  | .null => "null"
  | .bool value => "boolean `" ++ (if value then "true" else "false") ++ "`"
  | .integer value => "integer `" ++ toString value ++ "`"
  | .real text => "floating point `" ++ text ++ "`"
  | .string text => "string " ++ Text.quote text
  | .sequence => "sequence"
  | .map => "map"

/-- Why a draft does not decode. -/
inductive DecodeError where
  | malformed (cause : SyntaxError)
  | missingField (name : String)
  | duplicateField (name : String)
  | unknownVariant (found : String) (expected : List String)
  | invalidType (found : Found) (expected : String)
  | invalidValue (found : Found) (expected : String)
  | invalidLength (found : Nat) (expected : String)
  deriving DecidableEq, Repr, Inhabited

/-- The variants an error lists: two with "or", more as a list. -/
def listVariants : List String → String
  | [a] => "`" ++ a ++ "`"
  | [a, b] => "`" ++ a ++ "` or `" ++ b ++ "`"
  | names => "one of " ++ ", ".intercalate (names.map fun name => "`" ++ name ++ "`")

/-- The message for a decoding error. -/
def DecodeError.message : DecodeError → String
  | .malformed cause => cause.message
  | .missingField name => "missing field `" ++ name ++ "`"
  | .duplicateField name => "duplicate field `" ++ name ++ "`"
  | .unknownVariant found expected =>
      "unknown variant `" ++ found ++ "`, expected " ++ listVariants expected
  | .invalidType found expected => "invalid type: " ++ found.describe ++ ", expected " ++ expected
  | .invalidValue found expected => "invalid value: " ++ found.describe ++ ", expected " ++ expected
  | .invalidLength found expected =>
      "invalid length " ++ toString found ++ ", expected " ++ expected

/-- Where a draft comes from: from a text, from a finished value, or from the parts of either that were
kept until the shape they belong to was known. -/
inductive Medium where
  | text
  | value
  | kept
  deriving DecidableEq, Repr, Inhabited

/-- Reads a value from a draft. -/
abbrev Decoder (α : Type) := Medium → Draft → Except DecodeError α

/-- A syntax error as a decoding error. -/
def reading {α : Type} : Except SyntaxError α → Except DecodeError α
  | .ok a => .ok a
  | .error e => .error (.malformed e)

/-- Goes on unless there is a fault. -/
def unlessFault : Option Fault → Except DecodeError Unit
  | none => .ok ()
  | some fault => .error (.malformed fault.read)

/-! ## Numbers -/

/-- The number that digits spell. -/
def digitsValue (digits : List Char) : Nat :=
  digits.foldl (fun n c => 10 * n + (c.toNat - '0'.toNat)) 0

namespace NumberText

/-- The written number as a decimal, without its sign. -/
def decimal (number : NumberText) : Decimal :=
  let fraction := number.fraction.getD []
  let exponent : Int :=
    match number.exponent with
    | none => 0
    | some (true, digits) => -(digitsValue digits : Int)
    | some (false, digits) => digitsValue digits
  ⟨digitsValue (number.whole ++ fraction), exponent - fraction.length⟩

/-- The text of a number that is no integer of 64 bits. -/
def realText (number : NumberText) : Except SyntaxError String :=
  let d := number.decimal
  let sign := if number.negative then "-" else ""
  let places : Int := (toString d.digits).length + d.exponent
  if d.digits = 0 ∨ places < -400 then .ok (sign ++ "0.0")
  else if 400 < places then .error .numberOutOfRange
  else
    let (num, den) := d.fraction
    match Binary.nearest? num den with
    | none => .error .numberOutOfRange
    | some b => .ok (sign ++ (if b.mantissa = 0 then "0.0" else b.shortest.text))

/-- What the number is: an integer where it is written as one and fits 64 bits. -/
def read (number : NumberText) : Except SyntaxError Found :=
  match number.stop with
  | some fault => .error fault.read
  | none =>
      let n := digitsValue number.whole
      if number.fraction.isNone && number.exponent.isNone then
        if number.negative then
          if 0 < n ∧ n ≤ powerOfTwo 63 then .ok (.integer (-n)) else number.realText.map .real
        else
          if n < powerOfTwo 64 then .ok (.integer n) else number.realText.map .real
      else number.realText.map .real

end NumberText

/-! ## Whole drafts -/

namespace Draft

/-- What the draft holds, as an error names it. -/
def found : Draft → Except SyntaxError Found
  | .null => .ok .null
  | .bool value => .ok (.bool value)
  | .number written => written.read
  | .string text => text.read.map .string
  | .list _ _ => .ok .sequence
  | .object _ _ => .ok .map
  | .broken fault => .error fault.read

/-- The error of a draft that stands where something else was expected. -/
def mismatch {α : Type} (draft : Draft) (expected : String) : Except DecodeError α :=
  match draft.found with
  | .ok found => .error (.invalidType found expected)
  | .error e => .error (.malformed e)

/-- Goes on unless the skipping reader finds an error. -/
def unlessSkipped : Option SyntaxError → Except SyntaxError Unit
  | none => .ok ()
  | some e => .error e

mutual

/-- Skips the draft; the fault found on the way is the error. -/
def skim : Draft → Except SyntaxError Unit
  | .null => .ok ()
  | .bool _ => .ok ()
  | .number written => unlessSkipped (written.stop.map Fault.skipped)
  | .string text => unlessSkipped text.skipped?
  | .list items stop => do
      skimItems items
      unlessSkipped (stop.map Fault.skipped)
  | .object members stop => do
      skimMembers members
      unlessSkipped (stop.map Fault.skipped)
  | .broken fault => .error fault.skipped

/-- Skips the items of a list. -/
def skimItems : List Draft → Except SyntaxError Unit
  | [] => .ok ()
  | item :: rest => do
      skim item
      skimItems rest

/-- Skips the members of an object. -/
def skimMembers : List (StringText × Draft) → Except SyntaxError Unit
  | [] => .ok ()
  | (key, value) :: rest => do
      unlessSkipped key.skipped?
      skim value
      skimMembers rest

end

mutual

/-- Reads the draft in full, with at most `levels` lists and objects inside one another. -/
def settle (levels : Nat) : Draft → Except SyntaxError Unit
  | .null => .ok ()
  | .bool _ => .ok ()
  | .number written => written.read.map fun _ => ()
  | .string text => text.read.map fun _ => ()
  | .list items stop =>
      if levels = 0 then .error .tooDeep
      else do
        settleItems (levels - 1) items
        unlessSkipped (stop.map Fault.read)
  | .object members stop =>
      if levels = 0 then .error .tooDeep
      else do
        settleMembers (levels - 1) members
        unlessSkipped (stop.map Fault.read)
  | .broken fault => .error fault.read

/-- Reads the items of a list in full. -/
def settleItems (levels : Nat) : List Draft → Except SyntaxError Unit
  | [] => .ok ()
  | item :: rest => do
      settle levels item
      settleItems levels rest

/-- Reads the members of an object in full. -/
def settleMembers (levels : Nat) : List (StringText × Draft) → Except SyntaxError Unit
  | [] => .ok ()
  | (key, value) :: rest => do
      let _ ← key.read
      settle levels value
      settleMembers levels rest

end

mutual

/-- The draft of a value. -/
def ofJson : Json → Draft
  | .null => .null
  | .bool value => .bool value
  | .number value => .number ⟨value < 0, Nat.toDigits 10 value.natAbs, none, none, none⟩
  | .string text => .string (.ofString text)
  | .array items => .list (ofItems items) none
  | .object members => .object (ofMembers members) none

/-- The drafts of items. -/
def ofItems : List Json → List Draft
  | [] => []
  | item :: rest => ofJson item :: ofItems rest

/-- The drafts of members. -/
def ofMembers : List (String × Json) → List (StringText × Draft)
  | [] => []
  | (key, value) :: rest => (.ofString key, ofJson value) :: ofMembers rest

end

mutual

/-- The value of a draft without faults, with sorted objects; its numbers have to be integers. -/
def toJson? : Draft → Option Json
  | .null => some .null
  | .bool value => some (.bool value)
  | .number written =>
      match written.read with
      | .ok (.integer value) => some (.number value)
      | _ => none
  | .string text =>
      match text.read with
      | .ok text => some (.string text)
      | .error _ => none
  | .list items stop => if stop.isSome then none else (toItems? items).map .array
  | .object members stop =>
      if stop.isSome then none
      else (toMembers? members).map fun members => .object (sortMembers members)
  | .broken _ => none

/-- The values of drafts. -/
def toItems? : List Draft → Option (List Json)
  | [] => some []
  | item :: rest => do
      let item ← toJson? item
      let rest ← toItems? rest
      return item :: rest

/-- The members of drafts. -/
def toMembers? : List (StringText × Draft) → Option (List (String × Json))
  | [] => some []
  | (key, value) :: rest => do
      let key ← key.read.toOption
      let value ← toJson? value
      let rest ← toMembers? rest
      return (key, value) :: rest

end

end Draft

/-- The value of a JSON text, with sorted objects. -/
def parse? (text : String) : Option Json :=
  match Draft.ofText text with
  | (draft, false) => draft.toJson?
  | (_, true) => none

/-! ## Plain types -/

namespace Decoder

/-- A text. -/
def text : Decoder String := fun _ draft =>
  match draft with
  | .string text => reading text.read
  | draft => draft.mismatch "a string"

/-- A truth value. -/
def flag : Decoder Bool := fun _ draft =>
  match draft with
  | .bool value => .ok value
  | draft => draft.mismatch "a boolean"

/-- A value or null. -/
def optional {α : Type} (inner : Decoder α) : Decoder (Option α) := fun medium draft =>
  match draft with
  | .null => .ok none
  | draft => (inner medium draft).map some

/-- The items of a list, decoded one after the other. -/
def items {α : Type} (inner : Decoder α) (medium : Medium) :
    List Draft → Except DecodeError (List α)
  | [] => .ok []
  | item :: rest => do
      let a ← inner medium item
      let rest ← items inner medium rest
      return a :: rest

/-- A list. -/
def listOf {α : Type} (inner : Decoder α) : Decoder (List α) := fun medium draft =>
  match draft with
  | .list drafts stop => do
      let values ← items inner medium drafts
      unlessFault stop
      return values
  | draft => draft.mismatch "a sequence"

/-- Parts that were read, as an error counts them. -/
def countParts (word : String) (n : Nat) : String :=
  toString n ++ " " ++ word ++ (if n = 1 then "" else "s")

/-- The length a finished list should have had, when `read` parts of it were read. -/
def shorterThan (medium : Medium) (read : Nat) : String :=
  if medium = .kept then countParts "element" read ++ " in sequence" else "fewer elements in array"

/-- A pair, given as a list of two. -/
def pairOf {α β : Type} (first : Decoder α) (second : Decoder β) : Decoder (α × β) :=
  fun medium draft =>
    match draft with
    | .list (a :: b :: rest) stop => do
        let a ← first medium a
        let b ← second medium b
        match rest with
        | [] => unlessFault stop
        | _ :: _ => .error (.invalidLength (rest.length + 2) (shorterThan medium 2))
        return (a, b)
    | .list [a] stop => do
        let _ ← first medium a
        unlessFault stop
        .error (.invalidLength 1 "a tuple of size 2")
    | .list [] stop => do
        unlessFault stop
        .error (.invalidLength 0 "a tuple of size 2")
    | draft => draft.mismatch "a tuple of size 2"

/-- The value of a variant name. -/
def ofVariant {α : Type} (variants : List (String × α)) (other : Option α) (name : String) :
    Except DecodeError α :=
  match variants.find? fun variant => variant.1 = name with
  | some variant => .ok variant.2
  | none =>
      match other with
      | some a => .ok a
      | none => .error (.unknownVariant name (variants.map Prod.fst))

/-- Null, as the content of a variant without content. A kept empty object counts as null. -/
def unit : Decoder Unit := fun medium draft =>
  match draft, medium with
  | .null, _ => .ok ()
  | .object [] none, .kept => .ok ()
  | draft, _ => draft.mismatch "unit"

/-- One of several names; `other` stands for every name that is not listed. The name may also be the
only key of an object whose value is null. -/
def variantOf {α : Type} (variants : List (String × α)) (other : Option α) : Decoder α :=
  fun medium draft =>
    match draft, medium with
    | .string text, _ => do
        let name ← reading text.read
        ofVariant variants other name
    | .object [] stop, .text => do
        unlessFault stop
        .error (.malformed .expectedValue)
    | .object [] _, _ => .error (.invalidValue .map "map with a single key")
    | .object ((key, value) :: rest) stop, _ => do
        if medium ≠ .text && !rest.isEmpty then
          .error (.invalidValue .map "map with a single key")
        let name ← reading key.read
        let a ← ofVariant variants other name
        unit medium value
        match rest, stop with
        | [], none => return a
        | [], some fault =>
            .error (.malformed (if fault.read = .endInObject then .endInObject else .expectedValue))
        | _ :: _, _ => .error (.malformed .expectedValue)
    | .broken fault, _ => .error (.malformed fault.read)
    | _, .text => .error (.malformed .expectedValue)
    | draft, _ => draft.mismatch "string or map"

/-- Which of several shapes an object has: the name of the shape or, where it was kept, the place of
the shape among them. -/
def shapeOf {α : Type} (shapes : List (String × α)) : Decoder α := fun medium draft =>
  match draft with
  | .string text => do
      let name ← reading text.read
      ofVariant shapes none name
  | draft => do
      match ← reading draft.found, medium with
      | .integer (.ofNat n), .kept =>
          match shapes[n]? with
          | some shape => .ok shape.2
          | none =>
              .error
                (.invalidValue (.integer n)
                  ("variant index 0 <= i < " ++ toString shapes.length))
      | found, _ => .error (.invalidType found "variant identifier")

end Decoder

/-! ## Records -/

/-- A field of a record: how its draft changes the record read so far. -/
structure FieldReader (α : Type) where
  name : String
  required : Bool
  read : Decoder (α → α)

namespace FieldReader

variable {α β : Type}

/-- A field that has to be there. -/
def needed (name : String) (inner : Decoder β) (set : β → α → α) : FieldReader α :=
  ⟨name, true, fun medium draft => (inner medium draft).map set⟩

/-- A field that keeps its default where it is missing. -/
def defaulted (name : String) (inner : Decoder β) (set : β → α → α) : FieldReader α :=
  ⟨name, false, fun medium draft => (inner medium draft).map set⟩

end FieldReader

/-- A record type: its name, the record of all defaults, and its fields in order. -/
structure Record (α : Type) where
  name : String
  start : α
  fields : List (FieldReader α)

namespace Record

variable {α : Type}

/-- Reads the members of an object, and collects the names of the fields that were there. -/
def members (fields : List (FieldReader α)) (medium : Medium) :
    List (StringText × Draft) → List String → α → Except DecodeError (List String × α)
  | [], seen, a => .ok (seen, a)
  | (key, draft) :: rest, seen, a => do
      let name ← reading key.read
      match fields.find? fun field => field.name = name with
      | none =>
          reading draft.skim
          members fields medium rest seen a
      | some field =>
          if name ∈ seen then
            .error (.duplicateField name)
          let change ← field.read medium draft
          members fields medium rest (name :: seen) (change a)

/-- The first required field that was not there is missing. -/
def unlessMissing (fields : List (FieldReader α)) (seen : List String) : Except DecodeError Unit :=
  match fields.find? fun field => field.required && !seen.contains field.name with
  | none => .ok ()
  | some field => .error (.missingField field.name)

/-- The record as an error names it, with the number of its fields. -/
def described (record : Record α) : String :=
  "struct " ++ record.name ++ " with " ++ Decoder.countParts "element" record.fields.length

/-- Goes on unless a list has parts after those that were read. -/
def unlessLonger (medium : Medium) (read : Nat) (rest : List Draft) (stop : Option Fault) :
    Except DecodeError Unit :=
  match medium, rest, stop with
  | _, [], none => .ok ()
  | .text, _ :: _, _ => .error (.malformed .trailingText)
  | .text, [], some fault =>
      .error (.malformed
        (match fault.read with
        | .trailingComma => .trailingComma
        | .endInList => .endInList
        | _ => .trailingText))
  | medium, rest, _ =>
      .error (.invalidLength (read + rest.length) (Decoder.shorterThan medium read))

/-- Reads fields from the items of a list in order. -/
def positions (record : Record α) (medium : Medium) (stop : Option Fault) :
    List (FieldReader α) → Nat → List Draft → α → Except DecodeError α
  | [], index, rest, a => do
      unlessLonger medium index rest stop
      return a
  | field :: fields, index, [], a => do
      unlessFault stop
      if field.required then
        .error (.invalidLength index record.described)
      positions record medium stop fields (index + 1) [] a
  | field :: fields, index, draft :: rest, a => do
      let change ← field.read medium draft
      positions record medium stop fields (index + 1) rest (change a)

/-- Reads a record from members that are known to be sound. -/
def ofMembers (record : Record α) (medium : Medium) (drafts : List (StringText × Draft)) :
    Except DecodeError α := do
  let (seen, a) ← members record.fields medium drafts [] record.start
  unlessMissing record.fields seen
  return a

/-- Reads a record from an object, or from a list of its fields. -/
def decode (record : Record α) : Decoder α := fun medium draft =>
  match draft with
  | .object drafts stop => do
      let (seen, a) ← members record.fields medium drafts [] record.start
      unlessFault stop
      unlessMissing record.fields seen
      return a
  | .list items stop => positions record medium stop record.fields 0 items record.start
  | draft => draft.mismatch ("struct " ++ record.name)

end Record

/-- Decodes a whole text. -/
def decodeText {α : Type} (decoder : Decoder α) (text : String) : Except DecodeError α := do
  let (draft, trailing) := Draft.ofText text
  let a ← decoder .text draft
  if trailing then
    .error (.malformed .trailingText)
  return a

/-- Decodes a value. -/
def decodeValue {α : Type} (decoder : Decoder α) (value : Json) : Except DecodeError α :=
  decoder .value (Draft.ofJson value)

end CommandFactory.Json
