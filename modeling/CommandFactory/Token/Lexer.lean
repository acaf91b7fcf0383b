import CommandFactory.Text.Blank
import CommandFactory.Token.Basic

/-!
# Reading tokens

`Token.ofText?` reads the tokens of a text. Blanks and comments vanish, and so does a byte order mark
at the start; brackets have to match. A mark is joined to the next when another mark follows at once.
Of the literals there are integers and strings with short escapes. A text with anything else,
documentation comments included, is no program text here.
-/

set_option autoImplicit false

namespace CommandFactory

namespace Token

/-! ## Pieces of text -/

/-- A token without brackets around others, or one side of a pair of brackets. -/
inductive Lexeme where
  | token (token : Token)
  | opening (delimiter : Delimiter)
  | closing (delimiter : Delimiter)
  deriving Repr, Inhabited

/-- The punctuation marks, apart from the one that starts a lifetime. -/
def marks : List Char := "~!@#$%^&*-=+|;:,<.>/?".toList

/-- Separates tokens. Besides blanks, the two direction marks do. -/
def isSeparator (c : Char) : Bool :=
  Text.isBlank c || c == '\u200e' || c == '\u200f'

/-- What follows the end of a comment that is open `depth + 1` times. -/
def afterComment : Nat → List Char → Option (List Char)
  | _, [] => none
  | depth, '/' :: '*' :: rest => afterComment (depth + 1) rest
  | 0, '*' :: '/' :: rest => some rest
  | depth + 1, '*' :: '/' :: rest => afterComment depth rest
  | depth, _ :: rest => afterComment depth rest

/-- Whether a text that starts with `//` or `/*` documents something. -/
def isDocumentation : List Char → Bool
  | '/' :: '/' :: '/' :: '/' :: _ => false
  | '/' :: '/' :: '/' :: _ => true
  | '/' :: '/' :: '!' :: _ => true
  | '/' :: '*' :: '*' :: '/' :: _ => false
  | '/' :: '*' :: '*' :: '*' :: _ => false
  | '/' :: '*' :: '*' :: _ => true
  | '/' :: '*' :: '!' :: _ => true
  | _ => false

/-- Whether a text goes on with a punctuation mark. A comment is none. -/
def startsMark : List Char → Bool
  | '/' :: '/' :: _ => false
  | '/' :: '*' :: _ => false
  | c :: _ => c == '\'' || marks.contains c
  | [] => false

/-- The identifier at the start of a text, and what follows it. -/
def identifierStart? (chars : List Char) : Option (Text.Identifier × List Char) :=
  let (raw, chars) :=
    match chars with
    | 'r' :: '#' :: rest => (true, rest)
    | chars => (false, chars)
  match chars with
  | [] => none
  | c :: rest =>
      let name := String.ofList (c :: rest.takeWhile Text.isIdentifierContinue)
      if !Text.isIdentifierStart c || raw && ("_" :: Text.pathKeywords).contains name then none
      else some ({ name, raw }, rest.dropWhile Text.isIdentifierContinue)

/-- A digit, or a letter that is a digit in hexadecimal numbers. -/
def isDigitOf (base : Nat) (c : Char) : Bool :=
  c.isDigit || c == '_' || base == 16 && ('a' ≤ c && c ≤ 'f' || 'A' ≤ c && c ≤ 'F')

/-- The base of a number, and its spelling without the mark of the base. -/
def splitBase : List Char → Nat × List Char
  | '0' :: 'x' :: rest => (16, rest)
  | '0' :: 'o' :: rest => (8, rest)
  | '0' :: 'b' :: rest => (2, rest)
  | chars => (10, chars)

/-- Spells an integer: digits of a base, and perhaps a suffix. -/
def isInteger (spelling : List Char) : Bool :=
  let (base, rest) := splitBase spelling
  let digits := rest.takeWhile (isDigitOf base)
  digits.any (· != '_') &&
    digits.all (fun c => !c.isDigit || c.toNat - '0'.toNat < base) &&
    match rest.dropWhile (isDigitOf base) with
    | [] => true
    | c :: _ => Text.isIdentifierStart c

/-- The letters of the short escapes. -/
def escapeLetters : List Char := ['n', 'r', 't', '0', '\\', '\'', '"']

/-- The rest of a string literal up to its closing quote, and what follows it. -/
def closeString : List Char → Option (List Char × List Char)
  | [] => none
  | '"' :: rest => some (['"'], rest)
  | '\\' :: c :: rest =>
      if escapeLetters.contains c then
        (closeString rest).map fun found => ('\\' :: c :: found.1, found.2)
      else none
  | c :: rest =>
      if c = '\\' ∨ c = '\r' then none
      else (closeString rest).map fun found => (c :: found.1, found.2)

/-- The suffix of a literal. -/
def literalSuffix : List Char → List Char
  | [] => []
  | c :: rest => if Text.isIdentifierStart c then c :: rest.takeWhile Text.isIdentifierContinue else []

/-- A literal with its suffix, and what follows it. -/
def literalLexeme (spelling rest : List Char) : Lexeme × List Char :=
  let suffix := literalSuffix rest
  (.token (.spelled (String.ofList (spelling ++ suffix))), rest.drop suffix.length)

/-- The brackets. -/
def bracketLexeme? : Char → Option Lexeme
  | '(' => some (.opening .parenthesis)
  | ')' => some (.closing .parenthesis)
  | '[' => some (.opening .bracket)
  | ']' => some (.closing .bracket)
  | '\x7b' => some (.opening .brace)
  | '\x7d' => some (.closing .brace)
  | _ => none

/-- The lifetime after its mark, and what follows it. -/
def lifetime? (chars : List Char) : Option (Lexeme × List Char) :=
  match identifierStart? chars with
  | none => none
  | some (name, rest) =>
      match rest with
      | '\'' :: _ => none
      | '#' :: _ => if name.raw then some (.token (.lifetime name), rest) else none
      | _ => some (.token (.lifetime name), rest)

/-- What a text starts with that is neither separator nor comment, and what follows it. -/
def lexeme? : List Char → Option (Lexeme × List Char)
  | [] => none
  | '\'' :: rest => lifetime? rest
  | '"' :: rest => (closeString rest).map fun found => literalLexeme ('"' :: found.1) found.2
  | c :: rest =>
      match bracketLexeme? c with
      | some lexeme => some (lexeme, rest)
      | none =>
          if c.isDigit then
            let spelling := c :: rest.takeWhile Text.isIdentifierContinue
            if isInteger spelling then
              some (.token (.spelled (String.ofList spelling)),
                rest.dropWhile Text.isIdentifierContinue)
            else none
          else if marks.contains c then some (.token (.mark c (startsMark rest)), rest)
          else
            (identifierStart? (c :: rest)).map fun found =>
              (.token (.identifier found.1), found.2)

/-- What a text starts with, unless it is skipped, and what follows it. -/
def step? (chars : List Char) : Option (Option Lexeme × List Char) :=
  match chars with
  | '/' :: '/' :: rest =>
      if isDocumentation chars then none else some (none, rest.dropWhile (· != '\n'))
  | '/' :: '*' :: rest =>
      if isDocumentation chars then none else (afterComment 0 rest).map fun rest => (none, rest)
  | c :: rest =>
      if isSeparator c then some (none, rest)
      else (lexeme? (c :: rest)).map fun found => (some found.1, found.2)
  | [] => none

/-- The lexemes of a text. -/
def lexemes (chars : List Char) : Option (List Lexeme) :=
  if chars.isEmpty then some []
  else
    match step? chars with
    | none => none
    | some (lexeme, rest) =>
        if rest.length < chars.length then (lexemes rest).map (lexeme.toList ++ ·) else none
  termination_by chars.length

/-! ## Brackets -/

/-- Closes brackets: `opened` are the brackets still open, innermost first, each with the tokens
before it, and `done` the tokens since the last of them; both are kept in reverse. -/
def nest : List Lexeme → List (Delimiter × List Token) → List Token → Option (List Token)
  | [], [], done => some done.reverse
  | [], _ :: _, _ => none
  | .token token :: rest, opened, done => nest rest opened (token :: done)
  | .opening delimiter :: rest, opened, done => nest rest ((delimiter, done) :: opened) []
  | .closing _ :: _, [], _ => none
  | .closing delimiter :: rest, (other, before) :: opened, done =>
      if delimiter = other then nest rest opened (.group delimiter done.reverse :: before)
      else none

/-- A text without the byte order mark at its start. -/
def dropByteOrderMark : List Char → List Char
  | '\ufeff' :: rest => rest
  | chars => chars

/-- The tokens of a text, if it is program text. -/
def ofText? (text : String) : Option (List Token) :=
  (lexemes (dropByteOrderMark text.toList)).bind fun found => nest found [] []

end Token

end CommandFactory
