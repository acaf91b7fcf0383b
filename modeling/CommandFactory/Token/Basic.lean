import CommandFactory.Text.Quoted

/-!
# Tokens

Program text as a list of tokens, and the text that a list prints as. Tokens stand one space apart,
but a mark that is joined to the next token stands right before it. Brackets keep what is between
them in one token (`Token.group`), so every list of tokens is balanced.

- `Token.print` is the printed text;
- `Token.words` turns words into tokens, which is how fixed program text is written here;
- `Token.texts` lists the texts in the string literals of a list, in order.
-/

set_option autoImplicit false

namespace CommandFactory

/-- A kind of brackets. -/
inductive Delimiter where
  | parenthesis
  | bracket
  | brace
  deriving DecidableEq, Repr, Inhabited

/-- A token of program text. -/
inductive Token where
  | identifier (identifier : Text.Identifier)
  /-- One punctuation mark; a joined one forms an operator with the next mark. -/
  | mark (char : Char) (joined : Bool)
  | lifetime (identifier : Text.Identifier)
  /-- A literal as it is spelled. -/
  | spelled (literal : String)
  /-- The string literal of a text. -/
  | text (value : String)
  | group (delimiter : Delimiter) (content : List Token)
  deriving Repr, Inhabited, BEq

namespace Token

/-! ## Printing -/

/-- Whether the next token follows without a space. -/
def isJoined : Token → Bool
  | .mark _ joined => joined
  | _ => false

/-- Printed content between brackets. Braces keep a space inside on both sides. -/
def enclose (delimiter : Delimiter) (content : String) : String :=
  match delimiter with
  | .parenthesis => "(" ++ content ++ ")"
  | .bracket => "[" ++ content ++ "]"
  | .brace => if content.isEmpty then "\x7b \x7d" else "\x7b " ++ content ++ " \x7d"

mutual

/-- The printed text of one token. -/
def printOne : Token → String
  | .identifier name => name.text
  | .mark char _ => String.singleton char
  | .lifetime name => "'" ++ name.text
  | .spelled literal => literal
  | .text value => Text.literal value
  | .group delimiter content => enclose delimiter (print content)

/-- The printed text of tokens. -/
def print : List Token → String
  | [] => ""
  | [token] => printOne token
  | token :: next :: rest =>
      printOne token ++ (if token.isJoined then "" else " ") ++ print (next :: rest)

end

/-! ## Writing tokens -/

/-- An identifier that needs no raw spelling. -/
def named (name : String) : Token := .identifier { name }

/-- An operator: its marks, each joined to the next. -/
def operatorChars : List Char → List Token
  | [] => []
  | [c] => [.mark c false]
  | c :: rest => .mark c true :: operatorChars rest

/-- The tokens of a word: an identifier, or an operator if it starts with a punctuation mark. -/
def wordTokens (word : List Char) : List Token :=
  match word with
  | [] => []
  | c :: _ =>
      if Text.isIdentifierStart c then [.identifier { name := String.ofList word }]
      else operatorChars word

/-- The parts of a text between spaces. -/
def splitSpaces : List Char → List (List Char)
  | [] => [[]]
  | c :: rest =>
      match splitSpaces rest with
      | [] => [[c]]
      | part :: parts => if c = ' ' then [] :: part :: parts else (c :: part) :: parts

/-- The tokens of words with spaces between them. -/
def words (text : String) : List Token := (splitSpaces text.toList).flatMap wordTokens

/-- Tokens in parentheses. -/
def parens (content : List Token) : Token := .group .parenthesis content

/-- Tokens in square brackets. -/
def brackets (content : List Token) : Token := .group .bracket content

/-- Tokens in braces. -/
def braces (content : List Token) : Token := .group .brace content

/-- Lists of tokens with a comma between each two. -/
def commaSeparated : List (List Token) → List Token
  | [] => []
  | [item] => item
  | item :: next :: rest => item ++ [.mark ',' false] ++ commaSeparated (next :: rest)

/-- Texts as string literals with commas between them. -/
def literals (values : List String) : List Token :=
  commaSeparated (values.map fun value => [.text value])

/-! ## String literals -/

mutual

/-- The texts in the string literals of one token. -/
def textsOne : Token → List String
  | .text value => [value]
  | .group _ content => texts content
  | _ => []

/-- The texts in the string literals of tokens, in order. -/
def texts : List Token → List String
  | [] => []
  | token :: rest => textsOne token ++ texts rest

end

end Token

end CommandFactory
