import CommandFactory.Text.Identifier
import CommandFactory.Text.EscapedRanges

/-!
# Quoted text

Text between double quotes. A quote, a backslash and the common control characters have short
escapes; a character without a visible form (`hasNoForm`) is spelled by its number; every other
character stands for itself. The two ways to quote differ in the null character only:

- `quote` writes it `\0`, as messages do;
- `literal` writes it `\0` too, except before an octal digit, where the longer `\x00` keeps the digit
  from being read as part of the escape.
-/

set_option autoImplicit false

namespace CommandFactory.Text

/-- A control character, or a character above ASCII without a visible form of its own. -/
def hasNoForm (c : Char) : Bool :=
  c.toNat < 0x20 || c.toNat == 0x7F || inRanges escapedRanges c.toNat

/-- The number of a character in braces, in lower-case hexadecimal. -/
def numbered (c : Char) : List Char :=
  ['\\', 'u', '\x7b'] ++ Nat.toDigits 16 c.toNat ++ ['\x7d']

/-- How one character stands between quotes. -/
def quotedChar (c : Char) : List Char :=
  if c = '\x00' then ['\\', '0']
  else if c = '\t' then ['\\', 't']
  else if c = '\n' then ['\\', 'n']
  else if c = '\r' then ['\\', 'r']
  else if c = '"' then ['\\', '"']
  else if c = '\\' then ['\\', '\\']
  else if hasNoForm c then numbered c
  else [c]

/-- The text between quotes, as messages show it. -/
def quote (text : String) : String :=
  String.ofList ('"' :: (text.toList.flatMap quotedChar ++ ['"']))

/-- Whether the text goes on with an octal digit. -/
def startsOctal : List Char → Bool
  | [] => false
  | c :: _ => '0' ≤ c && c ≤ '7'

/-- The characters of a string literal, without its quotes. -/
def literalChars : List Char → List Char
  | [] => []
  | c :: rest =>
      (if c = '\x00' && startsOctal rest then ['\\', 'x', '0', '0'] else quotedChar c) ++
        literalChars rest

/-- The string literal that stands for a text. -/
def literal (text : String) : String :=
  String.ofList ('"' :: (literalChars text.toList ++ ['"']))

end CommandFactory.Text
