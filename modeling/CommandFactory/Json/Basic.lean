/-!
# JSON values

Values whose objects keep their members in order, and their two printed forms: `compact`, without
any space, and `pretty`, with one member or item a line and two spaces for each level. `sorted` puts
the members of every object in the order of their keys, as a value read into a sorted map has them.
-/

set_option autoImplicit false

namespace CommandFactory

/-- A JSON value. Numbers are integers. -/
inductive Json where
  | null
  | bool (value : Bool)
  | number (value : Int)
  | string (text : String)
  | array (items : List Json)
  | object (members : List (String × Json))
  deriving Repr, Inhabited, BEq

namespace Json

/-! ## Printing -/

/-- Four hexadecimal digits. -/
def fourDigits (n : Nat) : List Char :=
  let digits := Nat.toDigits 16 n
  List.replicate (4 - digits.length) '0' ++ digits

/-- How one character stands in a JSON string. -/
def escapedChar (c : Char) : List Char :=
  if c = '"' then ['\\', '"']
  else if c = '\\' then ['\\', '\\']
  else if c = '\x08' then ['\\', 'b']
  else if c = '\x0c' then ['\\', 'f']
  else if c = '\n' then ['\\', 'n']
  else if c = '\r' then ['\\', 'r']
  else if c = '\t' then ['\\', 't']
  else if c.toNat < 0x20 then '\\' :: 'u' :: fourDigits c.toNat
  else [c]

/-- A text as a JSON string. -/
def quoted (text : String) : String :=
  String.ofList ('"' :: (text.toList.flatMap escapedChar ++ ['"']))

mutual

/-- The value without any space. -/
def compact : Json → String
  | .null => "null"
  | .bool value => if value then "true" else "false"
  | .number value => toString value
  | .string text => quoted text
  | .array items => "[" ++ ",".intercalate (compactItems items) ++ "]"
  | .object members => "\x7b" ++ ",".intercalate (compactMembers members) ++ "\x7d"

/-- The items of an array without any space. -/
def compactItems : List Json → List String
  | [] => []
  | item :: rest => compact item :: compactItems rest

/-- The members of an object without any space. -/
def compactMembers : List (String × Json) → List String
  | [] => []
  | (key, value) :: rest => (quoted key ++ ":" ++ compact value) :: compactMembers rest

end

/-- A new line at a level. -/
def lineAt (level : Nat) : String := "\n" ++ String.ofList (List.replicate (2 * level) ' ')

/-- Parts on lines of their own, one level in, between two brackets. -/
def onLines (level : Nat) (openBracket closeBracket : String) : List String → String
  | [] => openBracket ++ closeBracket
  | parts =>
      openBracket ++ lineAt (level + 1) ++ ("," ++ lineAt (level + 1)).intercalate parts ++
        lineAt level ++ closeBracket

mutual

/-- The value on several lines, `level` levels in. -/
def prettyAt (level : Nat) : Json → String
  | .null => "null"
  | .bool value => if value then "true" else "false"
  | .number value => toString value
  | .string text => quoted text
  | .array items => onLines level "[" "]" (prettyItems (level + 1) items)
  | .object members => onLines level "\x7b" "\x7d" (prettyMembers (level + 1) members)

/-- The items of an array, `level` levels in. -/
def prettyItems (level : Nat) : List Json → List String
  | [] => []
  | item :: rest => prettyAt level item :: prettyItems level rest

/-- The members of an object, `level` levels in. -/
def prettyMembers (level : Nat) : List (String × Json) → List String
  | [] => []
  | (key, value) :: rest =>
      (quoted key ++ ": " ++ prettyAt level value) :: prettyMembers level rest

end

/-- The value on several lines. -/
def pretty (value : Json) : String := prettyAt 0 value

/-! ## Building and sorting -/

/-- An array of texts. -/
def texts (items : List String) : Json := .array (items.map .string)

/-- The text, or null. -/
def textOrNull : Option String → Json
  | none => .null
  | some text => .string text

/-- A member that is left out when there is no value. -/
def memberIf (key : String) : Option Json → List (String × Json)
  | none => []
  | some value => [(key, value)]

/-- Puts a member in among members sorted by key; a member of the same key gives way. -/
def insertMember (key : String) (value : Json) : List (String × Json) → List (String × Json)
  | [] => [(key, value)]
  | (k, v) :: rest =>
      if key < k then (key, value) :: (k, v) :: rest
      else if key = k then (key, value) :: rest
      else (k, v) :: insertMember key value rest

/-- The members sorted by key; the last of several with one key stays. -/
def sortMembers (members : List (String × Json)) : List (String × Json) :=
  members.foldl (fun sorted member => insertMember member.1 member.2 sorted) []

mutual

/-- The value with the members of every object sorted by key. -/
def sorted : Json → Json
  | .array items => .array (sortedItems items)
  | .object members => .object (sortMembers (sortedMembers members))
  | value => value

/-- The items, each with its objects sorted. -/
def sortedItems : List Json → List Json
  | [] => []
  | item :: rest => sorted item :: sortedItems rest

/-- The members in their order, each value with its objects sorted. -/
def sortedMembers : List (String × Json) → List (String × Json)
  | [] => []
  | (key, value) :: rest => (key, sorted value) :: sortedMembers rest

end

end Json

end CommandFactory
