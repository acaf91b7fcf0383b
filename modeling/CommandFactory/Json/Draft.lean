import CommandFactory.Json.Basic

/-!
# Drafts of JSON values

A draft is what a JSON text holds as far as it can be made out: the tree of its values, with the
fault that ends it where the text breaks off or goes wrong. Numbers and strings stay as written,
because a value that nobody asks for is skipped and only a value that is read is checked in full.
A fault therefore has two names (`Fault`): one for a reader that meets it, one for a reader that
skips the value around it.

- `Draft.ofText` makes the draft of a text, and says whether more text follows the value;
- `Draft.ofJson` is the draft of a value, without any fault;
- `NumberText.read` and `StringText.read` read the two leaves;
- `Draft.skim` skips a draft and `Draft.settle` reads it in full.
-/

set_option autoImplicit false

namespace CommandFactory.Json

/-! ## Faults -/

/-- What is wrong with a JSON text. -/
inductive SyntaxError where
  | endInValue
  | endInList
  | endInObject
  | endInString
  | expectedValue
  | expectedWord
  | expectedColon
  | expectedListSeparator
  | expectedObjectSeparator
  | keyNotString
  | trailingComma
  | trailingText
  | invalidNumber
  | numberOutOfRange
  | invalidEscape
  | loneSurrogate
  | brokenSurrogatePair
  | controlCharacter
  | tooDeep
  deriving DecidableEq, Repr, Inhabited

/-- The message for a syntax error. -/
def SyntaxError.message : SyntaxError → String
  | .endInValue => "EOF while parsing a value"
  | .endInList => "EOF while parsing a list"
  | .endInObject => "EOF while parsing an object"
  | .endInString => "EOF while parsing a string"
  | .expectedValue => "expected value"
  | .expectedWord => "expected ident"
  | .expectedColon => "expected `:`"
  | .expectedListSeparator => "expected `,` or `]`"
  | .expectedObjectSeparator => "expected `,` or `\x7d`"
  | .keyNotString => "key must be a string"
  | .trailingComma => "trailing comma"
  | .trailingText => "trailing characters"
  | .invalidNumber => "invalid number"
  | .numberOutOfRange => "number out of range"
  | .invalidEscape => "invalid escape"
  | .loneSurrogate => "lone leading surrogate in hex escape"
  | .brokenSurrogatePair => "unexpected end of hex escape"
  | .controlCharacter => "control character (\\u0000-\\u001F) found while parsing a string"
  | .tooDeep => "recursion limit exceeded"

/-- A place where a text goes wrong, as a reader names it and as a skipping reader does. -/
structure Fault where
  read : SyntaxError
  skipped : SyntaxError
  deriving DecidableEq, Repr, Inhabited

namespace Fault

/-- A fault with one name. -/
def plain (e : SyntaxError) : Fault := ⟨e, e⟩

/-- The list ends right after a comma. -/
def commaBeforeListEnd : Fault := ⟨.trailingComma, .expectedValue⟩

/-- The object ends right after a comma. -/
def commaBeforeObjectEnd : Fault := ⟨.trailingComma, .keyNotString⟩

/-- The text ends after a comma in an object. -/
def endAfterMember : Fault := ⟨.endInValue, .endInObject⟩

/-- The text ends inside a number. -/
def endInNumber : Fault := ⟨.endInValue, .invalidNumber⟩

end Fault

/-! ## Leaves as written -/

/-- A number as written. -/
structure NumberText where
  negative : Bool
  whole : List Char
  fraction : Option (List Char)
  /-- Sign and digits of the exponent. -/
  exponent : Option (Bool × List Char)
  /-- Where the number goes wrong. -/
  stop : Option Fault
  deriving Repr, Inhabited, BEq

/-- A unit of a string as written: a character, or a number given by a hexadecimal escape. -/
inductive Piece where
  | char (c : Char)
  | unit (n : Nat)
  deriving DecidableEq, Repr, Inhabited

/-- How a string as written ends. -/
inductive StringEnd where
  | closed
  /-- The text ends. -/
  | cut
  /-- A control character stands in the string. -/
  | control
  /-- A backslash is followed by no escape letter. -/
  | badEscape
  /-- The escape for a number does not have its four digits. -/
  | badDigits
  deriving DecidableEq, Repr, Inhabited

/-- A string as written. -/
structure StringText where
  pieces : List Piece
  ending : StringEnd
  deriving DecidableEq, Repr, Inhabited

namespace StringText

/-- The string that stands for a text. -/
def ofString (text : String) : StringText := ⟨text.toList.map .char, .closed⟩

/-- The fault a skipping reader finds in the string. -/
def skipped? (text : StringText) : Option SyntaxError :=
  match text.ending with
  | .closed => none
  | .cut => some .endInString
  | .control => some .controlCharacter
  | .badEscape => some .invalidEscape
  | .badDigits => some .invalidEscape

/-- Is the first half of a surrogate pair. -/
def isHigh (n : Nat) : Bool := 0xD800 ≤ n && n ≤ 0xDBFF

/-- Is the second half of a surrogate pair. -/
def isLow (n : Nat) : Bool := 0xDC00 ≤ n && n ≤ 0xDFFF

/-- The character of a surrogate pair. -/
def pairChar (high low : Nat) : Char :=
  Char.ofNat ((high - 0xD800) * 0x400 + (low - 0xDC00) + 0x10000)

/-- What a reader makes of the end of a string right after the first half of a pair. -/
def endAfterHigh : StringEnd → SyntaxError
  | .cut => .endInString
  | .badDigits => .invalidEscape
  | _ => .brokenSurrogatePair

/-- The characters of the pieces; halves of pairs have to come together. -/
def readPieces (ending : StringEnd) : List Piece → Except SyntaxError (List Char)
  | [] =>
      match (StringText.mk [] ending).skipped? with
      | none => .ok []
      | some e => .error e
  | .char c :: rest => (readPieces ending rest).map (c :: ·)
  | .unit n :: rest =>
      if isLow n then .error .loneSurrogate
      else if isHigh n then
        match rest with
        | [] => .error (endAfterHigh ending)
        | .char _ :: _ => .error .brokenSurrogatePair
        | .unit m :: rest' =>
            if isLow m then (readPieces ending rest').map (pairChar n m :: ·)
            else .error .loneSurrogate
      else (readPieces ending rest).map (Char.ofNat n :: ·)

/-- The text of the string. -/
def read (text : StringText) : Except SyntaxError String :=
  (readPieces text.ending text.pieces).map String.ofList

end StringText

/-! ## Trees -/

/-- A JSON value as far as a text shows it. A container has a fault where its text stops before the
closing bracket, unless its last part is itself faulty. -/
inductive Draft where
  | null
  | bool (value : Bool)
  | number (text : NumberText)
  | string (text : StringText)
  | list (items : List Draft) (stop : Option Fault)
  | object (members : List (StringText × Draft)) (stop : Option Fault)
  | broken (fault : Fault)
  deriving Repr, Inhabited

/-! ## Making drafts from text -/

namespace Draft

/-- The text from its first character that is no JSON blank. -/
def skipBlanks : List Char → List Char
  | [] => []
  | c :: rest =>
      if c = ' ' || c = '\n' || c = '\t' || c = '\r' then skipBlanks rest else c :: rest

/-- The digits at the start of a text, and what follows them. -/
def spanDigits : List Char → List Char × List Char
  | [] => ([], [])
  | c :: rest =>
      if c.isDigit then
        let (digits, after) := spanDigits rest
        (c :: digits, after)
      else ([], c :: rest)

/-- The fault of a number that needs a digit where `rest` starts. -/
def digitMissing : List Char → Fault
  | [] => .endInNumber
  | _ :: _ => .plain .invalidNumber

/-- Reads the exponent of a number whose other parts are given. -/
def scanExponent (number : NumberText) : List Char → NumberText × List Char
  | [] => (number, [])
  | c :: rest =>
      if c = 'e' || c = 'E' then
        let (negative, rest) :=
          match rest with
          | '+' :: rest => (false, rest)
          | '-' :: rest => (true, rest)
          | rest => (false, rest)
        let (digits, after) := spanDigits rest
        if digits.isEmpty then ({ number with stop := some (digitMissing after) }, after)
        else ({ number with exponent := some (negative, digits) }, after)
      else (number, c :: rest)

/-- Reads the fraction and the exponent of a number whose whole part is given. -/
def scanFraction (number : NumberText) : List Char → NumberText × List Char
  | '.' :: rest =>
      let (digits, after) := spanDigits rest
      if digits.isEmpty then ({ number with stop := some (digitMissing after) }, after)
      else scanExponent { number with fraction := some digits } after
  | rest => scanExponent number rest

/-- Reads a number after its sign. -/
def scanNumber (negative : Bool) (text : List Char) : NumberText × List Char :=
  let (digits, after) := spanDigits text
  let number : NumberText := ⟨negative, digits, none, none, none⟩
  match digits with
  | [] => ({ number with stop := some (digitMissing after) }, after)
  | '0' :: _ :: _ => ({ number with stop := some (.plain .invalidNumber) }, after)
  | _ => scanFraction number after

/-- The value of a hexadecimal digit. -/
def hexDigit? (c : Char) : Option Nat :=
  if c.isDigit then some (c.toNat - '0'.toNat)
  else if 'a' ≤ c && c ≤ 'f' then some (c.toNat - 'a'.toNat + 10)
  else if 'A' ≤ c && c ≤ 'F' then some (c.toNat - 'A'.toNat + 10)
  else none

/-- The number of four hexadecimal digits. -/
def fourDigits? (a b c d : Char) : Option Nat := do
  let a ← hexDigit? a
  let b ← hexDigit? b
  let c ← hexDigit? c
  let d ← hexDigit? d
  return ((a * 16 + b) * 16 + c) * 16 + d

/-- The character of a one-letter escape. -/
def simpleEscape? (c : Char) : Option Char :=
  match c with
  | '"' => some '"'
  | '\\' => some '\\'
  | '/' => some '/'
  | 'b' => some '\x08'
  | 'f' => some '\x0c'
  | 'n' => some '\n'
  | 'r' => some '\r'
  | 't' => some '\t'
  | _ => none

/-- The string ends in the middle of a numeric escape: its digits are missing if the text has fewer
than four bytes left, and wrong otherwise. -/
def brokenDigits (rest : List Char) : StringEnd :=
  if (String.ofList rest).utf8ByteSize < 4 then .cut else .badDigits

/-- Puts a piece in front of a string. -/
def prepend (piece : Piece) (scanned : StringText × Option (List Char)) :
    StringText × Option (List Char) :=
  ({ scanned.1 with pieces := piece :: scanned.1.pieces }, scanned.2)

/-- Reads a string after its opening quote, and what follows it if it is closed. -/
def scanString : List Char → StringText × Option (List Char)
  | [] => (⟨[], .cut⟩, none)
  | '"' :: rest => (⟨[], .closed⟩, some rest)
  | '\\' :: 'u' :: a :: b :: c :: d :: rest =>
      match fourDigits? a b c d with
      | some n => prepend (.unit n) (scanString rest)
      | none => (⟨[], .badDigits⟩, none)
  | '\\' :: 'u' :: rest => (⟨[], brokenDigits rest⟩, none)
  | '\\' :: e :: rest =>
      match simpleEscape? e with
      | some c => prepend (.char c) (scanString rest)
      | none => (⟨[], .badEscape⟩, none)
  | ['\\'] => (⟨[], .cut⟩, none)
  | c :: rest =>
      if c.toNat < 0x20 then (⟨[], .control⟩, none)
      else prepend (.char c) (scanString rest)

/-- Reads the letters of a word; the fault says that another letter or the end of the text came. -/
def scanWord : List Char → List Char → Except Fault (List Char)
  | [], rest => .ok rest
  | _ :: _, [] => .error (.plain .endInValue)
  | w :: word, c :: rest =>
      if w = c then scanWord word rest else .error (.plain .expectedWord)

/-- The draft of a word with its value, and what follows it. -/
def ofWord (value : Draft) : Except Fault (List Char) → Draft × Option (List Char)
  | .ok rest => (value, some rest)
  | .error fault => (.broken fault, none)

/-- The draft of a number, and what follows it if the number is sound. -/
def ofNumber (scanned : NumberText × List Char) : Draft × Option (List Char) :=
  (.number scanned.1, if scanned.1.stop.isNone then some scanned.2 else none)

mutual

/-- Reads a value: its draft, and what follows it if the value is sound. -/
def scanValue : Nat → List Char → Draft × Option (List Char)
  | 0, _ => (.broken (.plain .endInValue), none)
  | fuel + 1, text =>
      match skipBlanks text with
      | [] => (.broken (.plain .endInValue), none)
      | 'n' :: rest => ofWord .null (scanWord ['u', 'l', 'l'] rest)
      | 't' :: rest => ofWord (.bool true) (scanWord ['r', 'u', 'e'] rest)
      | 'f' :: rest => ofWord (.bool false) (scanWord ['a', 'l', 's', 'e'] rest)
      | '"' :: rest =>
          let (text, after) := scanString rest
          (.string text, after)
      | '-' :: rest => ofNumber (scanNumber true rest)
      | '[' :: rest =>
          let (items, stop, after) := scanItems fuel true rest
          (.list items stop, after)
      | '\x7b' :: rest =>
          let (members, stop, after) := scanMembers fuel true rest
          (.object members stop, after)
      | c :: rest =>
          if c.isDigit then ofNumber (scanNumber false (c :: rest))
          else (.broken (.plain .expectedValue), none)

/-- Reads the items of a list up to its closing bracket. -/
def scanItems : Nat → Bool → List Char → List Draft × Option Fault × Option (List Char)
  | 0, _, _ => ([], some (.plain .endInList), none)
  | fuel + 1, first, text =>
      match skipBlanks text with
      | [] => ([], some (.plain .endInList), none)
      | ']' :: rest => ([], none, some rest)
      | c :: rest =>
          if first then scanItem fuel (c :: rest)
          else if c = ',' then
            match skipBlanks rest with
            | [] => ([], some (.plain .endInValue), none)
            | ']' :: _ => ([], some .commaBeforeListEnd, none)
            | rest => scanItem fuel rest
          else ([], some (.plain .expectedListSeparator), none)

/-- Reads an item of a list and those after it. -/
def scanItem : Nat → List Char → List Draft × Option Fault × Option (List Char)
  | 0, _ => ([], some (.plain .endInList), none)
  | fuel + 1, text =>
      match scanValue fuel text with
      | (item, none) => ([item], none, none)
      | (item, some rest) =>
          let (items, stop, after) := scanItems fuel false rest
          (item :: items, stop, after)

/-- Reads the members of an object up to its closing bracket. -/
def scanMembers :
    Nat → Bool → List Char → List (StringText × Draft) × Option Fault × Option (List Char)
  | 0, _, _ => ([], some (.plain .endInObject), none)
  | fuel + 1, first, text =>
      match skipBlanks text with
      | [] => ([], some (.plain .endInObject), none)
      | '\x7d' :: rest => ([], none, some rest)
      | c :: rest =>
          if first then scanMember fuel (c :: rest)
          else if c = ',' then
            match skipBlanks rest with
            | [] => ([], some .endAfterMember, none)
            | '\x7d' :: _ => ([], some .commaBeforeObjectEnd, none)
            | rest => scanMember fuel rest
          else ([], some (.plain .expectedObjectSeparator), none)

/-- Reads a member of an object and those after it. -/
def scanMember :
    Nat → List Char → List (StringText × Draft) × Option Fault × Option (List Char)
  | 0, _ => ([], some (.plain .endInObject), none)
  | fuel + 1, text =>
      match text with
      | '"' :: rest =>
          match scanString rest with
          | (key, none) => ([(key, .null)], none, none)
          | (key, some rest) =>
              match skipBlanks rest with
              | [] => ([(key, .broken (.plain .endInObject))], none, none)
              | ':' :: rest =>
                  match scanValue fuel rest with
                  | (value, none) => ([(key, value)], none, none)
                  | (value, some rest) =>
                      let (members, stop, after) := scanMembers fuel false rest
                      ((key, value) :: members, stop, after)
              | _ => ([(key, .broken (.plain .expectedColon))], none, none)
      | _ => ([], some (.plain .keyNotString), none)

end

/-- The draft of a text, and whether anything but blanks follows the value. Each character is worth
three steps: one to read it, and two to enter the list or object that it opens. -/
def ofText (text : String) : Draft × Bool :=
  let chars := text.toList
  match scanValue (3 * chars.length + 3) chars with
  | (draft, none) => (draft, false)
  | (draft, some rest) => (draft, !(skipBlanks rest).isEmpty)

end Draft

end CommandFactory.Json
