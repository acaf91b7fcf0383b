import CommandFactory.Token.Lexer

/-!
# Types and paths

The grammar of types and of paths, as readers of tokens. A reader takes tokens from the front of a
list and gives the tokens that the part prints as: the ones it took, except that marks are joined
only within operators, and that the lifetimes of a list of arguments come before the other arguments.

`Token.type?` reads a text as a type, and `Token.path?` as a path; either has to take all of it. The
readers call each other at most `levels` deep; more levels than a text has characters, times the
number of readers, are never needed.
-/

set_option autoImplicit false

namespace CommandFactory

namespace Token

/-- Takes tokens from the front of a list, or fails. -/
abbrev Reading := StateT (List Token) Option

/-! ## Single tokens -/

/-- Whether tokens start with an operator. -/
def startsOperator : List Char → List Token → Bool
  | [], _ => true
  | [c], .mark d _ :: _ => c == d
  | c :: rest, .mark d joined :: tokens => c == d && joined && startsOperator rest tokens
  | _ :: _, _ => false

/-- Whether tokens start with a word without a raw mark. -/
def startsWord (word : String) : List Token → Bool
  | .identifier name :: _ => !name.raw && name.name == word
  | _ => false

/-- Whether tokens start with parentheses. -/
def startsParens : List Token → Bool
  | .group .parenthesis _ :: _ => true
  | _ => false

/-- Words that are no names in types and paths. -/
def reservedWords : List String :=
  "_" :: (Text.pathKeywords ++ Text.keywords.filter (· != "gen"))

/-- Whether tokens start with a name. -/
def startsName : List Token → Bool
  | .identifier name :: _ => name.raw || !reservedWords.contains name.name
  | _ => false

/-- Whether tokens start with any word. -/
def startsAnyWord : List Token → Bool
  | .identifier _ :: _ => true
  | _ => false

/-- Whether tokens start with a lifetime. -/
def startsLifetime : List Token → Bool
  | .lifetime _ :: _ => true
  | _ => false

/-- Whether tokens start with a literal. -/
def startsLiteral : List Token → Bool
  | .spelled _ :: _ => true
  | .mark '-' _ :: .spelled _ :: _ => true
  | tokens => startsWord "true" tokens || startsWord "false" tokens

/-- Takes the first token. -/
def takeOne : Reading (List Token) := do
  match ← get with
  | token :: rest => do
      set rest
      return [token]
  | [] => failure

/-- Takes an operator. -/
def takeOperator (marks : String) : Reading (List Token) := do
  let tokens ← get
  if startsOperator marks.toList tokens then
    set (tokens.drop marks.length)
    return operatorChars marks.toList
  else failure

/-- Takes an operator if it is there. -/
def takeOperator? (marks : String) : Reading (List Token) := do
  if startsOperator marks.toList (← get) then takeOperator marks else return []

/-- Takes a word. -/
def takeWord (word : String) : Reading (List Token) := do
  if startsWord word (← get) then takeOne else failure

/-- Takes a word if it is there. -/
def takeWord? (word : String) : Reading (List Token) := do
  if startsWord word (← get) then takeOne else return []

/-- Takes a lifetime. -/
def takeLifetime : Reading (List Token) := do
  if startsLifetime (← get) then takeOne else failure

/-- Takes a literal. A sign becomes a part of it. -/
def takeLiteral : Reading (List Token) := do
  match ← get with
  | .mark '-' _ :: .spelled literal :: rest => do
      set rest
      return [.spelled ("-" ++ literal)]
  | tokens => if startsLiteral tokens then takeOne else failure

/-- Takes brackets of a kind and gives what is between them. -/
def takeGroup (delimiter : Delimiter) : Reading (List Token) := do
  match ← get with
  | .group found content :: rest => do
      if found = delimiter then
        set rest
        return content
      else failure
  | _ => failure

/-- Reads tokens in full. -/
def readAll {α : Type} (reading : Reading α) (tokens : List Token) : Option α :=
  match reading tokens with
  | some (a, []) => some a
  | _ => none

/-- Reads the content of brackets in full. -/
def within {α : Type} (reading : Reading α) (content : List Token) : Reading α :=
  match readAll reading content with
  | some a => return a
  | none => failure

/-- Lifetimes with commas between them, up to the end of their list, at most `levels` of them. -/
def lifetimeList : Nat → Reading (List Token)
  | 0 => failure
  | levels + 1 => do
      if startsOperator ['>'] (← get) then return []
      let lifetime ← takeLifetime
      if startsOperator ['>'] (← get) then return lifetime
      let comma ← takeOperator ","
      return lifetime ++ comma ++ (← lifetimeList levels)

/-- The lifetimes that a type is for, if it says so. -/
def binder (levels : Nat) : Reading (List Token) := do
  if startsWord "for" (← get) then
    return (← takeWord "for") ++ (← takeOperator "<") ++ (← lifetimeList levels) ++
      (← takeOperator ">")
  else return []

/-! ## Arguments in angle brackets -/

/-- An argument in angle brackets. -/
structure Argument where
  tokens : List Token
  isLifetime : Bool
  /-- A comma follows. -/
  hasComma : Bool
  deriving Inhabited

/-- Appends an argument to printed ones; the flag says that no comma is needed before the next. -/
def appendArgument (printed : List Token × Bool) (argument : Argument) : List Token × Bool :=
  let before := if printed.2 || argument.isLifetime then [] else operatorChars [',']
  let after := if argument.hasComma then operatorChars [','] else []
  (printed.1 ++ before ++ argument.tokens ++ after, argument.hasComma)

/-- The printed arguments, lifetimes first. -/
def printArguments (arguments : List Argument) : List Token :=
  ((arguments.filter Argument.isLifetime ++ arguments.filter fun a => !a.isLifetime).foldl
    appendArgument ([], true)).1

/-! ## Types -/

/-- What a type looks like from outside. -/
inductive TypeShape where
  /-- A path of one segment. -/
  | name
  /-- A path that may be the first bound of a sum. -/
  | path
  | other
  deriving DecidableEq, Repr, Inhabited

/-- The printed tokens of a type and its shape. -/
structure TypeText where
  tokens : List Token
  shape : TypeShape
  deriving Inhabited

/-- The printed tokens of a path. -/
structure PathText where
  tokens : List Token
  /-- One segment, with nothing before it. -/
  isName : Bool
  /-- No segment has arguments. -/
  isPlain : Bool
  /-- The last segment has no arguments. -/
  isOpen : Bool
  deriving Inhabited

/-- The printed bounds of a sum, and whether a trait is among them. -/
structure BoundsText where
  tokens : List Token
  hasTrait : Bool
  deriving Inhabited

/-- Whether another bound may start here. -/
def startsBound (tokens : List Token) : Bool :=
  startsAnyWord tokens || startsOperator [':', ':'] tokens || startsOperator ['?'] tokens ||
    startsLifetime tokens || startsParens tokens

/-- Whether a type that is for lifetimes may go on here. -/
def startsBoundType (tokens : List Token) : Bool :=
  startsName tokens ||
    ["fn", "unsafe", "extern", "super", "self", "Self", "crate"].any fun word =>
      startsWord word tokens

/-- Whether a path may start here. -/
def startsPath (tokens : List Token) : Bool :=
  startsName tokens || startsOperator [':', ':'] tokens || startsOperator ['<'] tokens ||
    Text.pathKeywords.any fun word => startsWord word tokens

/-- Whether the arguments of a segment start here. -/
def startsArguments (inExpression : Bool) (tokens : List Token) : Bool :=
  !inExpression && startsOperator ['<'] tokens && !startsOperator ['<', '='] tokens ||
    startsOperator [':', ':'] tokens && startsOperator ['<'] (tokens.drop 2)

/-- Whether a value stands here as an argument. -/
def startsConstant (tokens : List Token) : Bool :=
  startsLiteral tokens ||
    match tokens with
    | .group .brace _ :: _ => true
    | _ => false

/-- The operators between two values, longer ones first. -/
def binaryOperators : List String :=
  ["<<", ">>", "&&", "||", "+", "-", "*", "/", "%", "&", "|", "^"]

mutual

/-- A type; `sums` says whether it may be a sum of bounds. -/
def readType (levels : Nat) (sums : Bool) : Reading TypeText :=
  match levels with
  | 0 => failure
  | levels + 1 => do
      let lifetimes ← binder levels
      let tokens ← get
      if !lifetimes.isEmpty && !startsBoundType tokens then failure
      if startsParens tokens then readParens levels sums (← takeGroup .parenthesis)
      else if ["fn", "unsafe", "extern"].any fun word => startsWord word tokens then
        return ⟨lifetimes ++ (← readFunction levels), .other⟩
      else if startsPath tokens then readPathType levels sums lifetimes
      else if startsWord "dyn" tokens then
        let word ← takeOne
        let bounds ← readBounds levels sums
        if bounds.hasTrait then return ⟨word ++ bounds.tokens, .other⟩ else failure
      else if startsWord "impl" tokens then
        let word ← takeOne
        let bounds ← readBounds levels sums
        if bounds.hasTrait then return ⟨word ++ bounds.tokens, .other⟩ else failure
      else if startsLifetime tokens then
        let bounds ← readBounds levels true
        if bounds.hasTrait then return ⟨bounds.tokens, .other⟩ else failure
      else if startsWord "_" tokens then return ⟨← takeOne, .other⟩
      else if startsOperator ['*'] tokens then
        let star ← takeOperator "*"
        let access ← if startsWord "const" (← get) then takeOne else takeWord "mut"
        return ⟨star ++ access ++ (← readType levels false).tokens, .other⟩
      else if startsOperator ['&'] tokens then
        let mark ← takeOperator "&"
        let lifetime ← if startsLifetime (← get) then takeOne else pure []
        let access ← takeWord? "mut"
        return ⟨mark ++ lifetime ++ access ++ (← readType levels false).tokens, .other⟩
      else if startsOperator ['!'] tokens && !startsOperator ['!', '='] tokens then
        return ⟨← takeOperator "!", .other⟩
      else
        let content ← takeGroup .bracket
        return ⟨[brackets (← within (readItems levels) content)], .other⟩

/-- What is between the brackets of a slice or of an array. -/
def readItems (levels : Nat) : Reading (List Token) :=
  match levels with
  | 0 => failure
  | levels + 1 => do
      let item ← readType levels true
      if startsOperator [';'] (← get) then
        return item.tokens ++ (← takeOperator ";") ++ (← readValue levels)
      else return item.tokens

/-- A type in parentheses with the given content, a tuple, or a sum that starts so. -/
def readParens (levels : Nat) (sums : Bool) (content : List Token) : Reading TypeText :=
  match levels with
  | 0 => failure
  | levels + 1 => do
      if content.isEmpty then return ⟨[parens []], .other⟩
      else if startsLifetime content then
        let bounds ← within (readBounds levels true) content
        if bounds.hasTrait then return ⟨[parens bounds.tokens], .other⟩ else failure
      else if startsOperator ['?'] content then
        let first ← within (readTrait levels) content
        return ⟨parens first :: (← readMoreBounds levels), .other⟩
      else
        let inner ← within (readTuple levels) content
        if sums && inner.shape ≠ .other && startsOperator ['+'] (← get) then
          return ⟨parens inner.tokens :: (← readMoreBounds levels), .other⟩
        else return ⟨[parens inner.tokens], .other⟩

/-- Types with commas between them; one type without a comma keeps its shape. -/
def readTuple (levels : Nat) : Reading TypeText :=
  match levels with
  | 0 => failure
  | levels + 1 => do
      let first ← readType levels true
      if (← get).isEmpty then return first
      let comma ← takeOperator ","
      return ⟨first.tokens ++ comma ++ (← readTypes levels), .other⟩

/-- Types with commas between them, up to the end. -/
def readTypes (levels : Nat) : Reading (List Token) :=
  match levels with
  | 0 => failure
  | levels + 1 => do
      if (← get).isEmpty then return []
      let first ← readType levels true
      if (← get).isEmpty then return first.tokens
      let comma ← takeOperator ","
      return first.tokens ++ comma ++ (← readTypes levels)

/-- A type that starts with a path. -/
def readPathType (levels : Nat) (sums : Bool) (lifetimes : List Token) : Reading TypeText :=
  match levels with
  | 0 => failure
  | levels + 1 => do
      if startsOperator ['<'] (← get) then
        return ⟨lifetimes ++ (← readQualified levels), .other⟩
      let path ← readPath levels false
      let tokens ← get
      if startsOperator ['!'] tokens && !startsOperator ['!', '='] tokens && path.isPlain then
        let mark ← takeOperator "!"
        match ← takeOne with
        | [.group delimiter content] =>
            return ⟨path.tokens ++ mark ++ [.group delimiter content], .other⟩
        | _ => failure
      else if sums && startsOperator ['+'] tokens then
        return ⟨lifetimes ++ path.tokens ++ (← readSum levels), .other⟩
      else if lifetimes.isEmpty then
        return ⟨path.tokens, if path.isName then .name else .path⟩
      else return ⟨lifetimes ++ path.tokens, .path⟩

/-- The bounds after the first of a sum, each behind its mark. The last mark may stand alone. -/
def readSum (levels : Nat) : Reading (List Token) :=
  match levels with
  | 0 => failure
  | levels + 1 => do
      if startsOperator ['+'] (← get) then
        let mark ← takeOperator "+"
        if startsBound (← get) then
          let bound ← readBound levels
          return mark ++ bound.tokens ++ (← readSum levels)
        else return mark
      else return []

/-- The bounds after a first one in parentheses, each behind its mark. -/
def readMoreBounds (levels : Nat) : Reading (List Token) :=
  match levels with
  | 0 => failure
  | levels + 1 => do
      if startsOperator ['+'] (← get) then
        let mark ← takeOperator "+"
        let bound ← readBound levels
        return mark ++ bound.tokens ++ (← readMoreBounds levels)
      else return []

/-- A bound, or a sum of bounds where `sums` allows it. -/
def readBounds (levels : Nat) (sums : Bool) : Reading BoundsText :=
  match levels with
  | 0 => failure
  | levels + 1 => do
      let first ← readBound levels
      if sums && startsOperator ['+'] (← get) then
        let mark ← takeOperator "+"
        if startsBound (← get) then
          let rest ← readBounds levels sums
          return ⟨first.tokens ++ mark ++ rest.tokens, first.hasTrait || rest.hasTrait⟩
        else return ⟨first.tokens ++ mark, first.hasTrait⟩
      else return first

/-- One bound. -/
def readBound (levels : Nat) : Reading BoundsText :=
  match levels with
  | 0 => failure
  | levels + 1 => do
      let tokens ← get
      if startsLifetime tokens then return ⟨← takeOne, false⟩
      else if startsParens tokens then
        let content ← takeGroup .parenthesis
        return ⟨[parens (← within (readTrait levels) content)], true⟩
      else return ⟨← readTrait levels, true⟩

/-- A trait as a bound. -/
def readTrait (levels : Nat) : Reading (List Token) :=
  match levels with
  | 0 => failure
  | levels + 1 => do
      let lifetimes ← binder levels
      let mark ← takeOperator? "?"
      let inner ← if lifetimes.isEmpty && !mark.isEmpty then binder levels else pure []
      let path ← readPath levels false
      let tokens ← get
      let start := lifetimes ++ mark ++ inner ++ path.tokens
      if startsParens tokens && path.isOpen then return start ++ (← readSignature levels)
      else if startsOperator [':', ':'] tokens && startsParens (tokens.drop 2) && path.isOpen then
        let _ ← takeOperator "::"
        return start ++ (← readSignature levels)
      else return start

/-- Argument types in parentheses, and the type of the result. -/
def readSignature (levels : Nat) : Reading (List Token) :=
  match levels with
  | 0 => failure
  | levels + 1 => do
      let content ← takeGroup .parenthesis
      let arguments ← within (readTypes levels) content
      return parens arguments :: (← readResult levels)

/-- The type of a result, if there is one. -/
def readResult (levels : Nat) : Reading (List Token) :=
  match levels with
  | 0 => failure
  | levels + 1 => do
      if startsOperator ['-', '>'] (← get) then
        return (← takeOperator "->") ++ (← readType levels false).tokens
      else return []

/-- The type of a function. -/
def readFunction (levels : Nat) : Reading (List Token) :=
  match levels with
  | 0 => failure
  | levels + 1 => do
      let guarded ← takeWord? "unsafe"
      let foreign ← takeWord? "extern"
      let convention ←
        match foreign, ← get with
        | _ :: _, .spelled _ :: _ => takeOne
        | _, _ => pure []
      let word ← takeWord "fn"
      let content ← takeGroup .parenthesis
      let inputs ← within (readInputs levels) content
      return guarded ++ foreign ++ convention ++ word ++ [parens inputs] ++ (← readResult levels)

/-- The inputs of a function type, up to the end. Three dots at the end stand for more of them. -/
def readInputs (levels : Nat) : Reading (List Token) :=
  match levels with
  | 0 => failure
  | levels + 1 => do
      if (← get).isEmpty then return []
      if startsOperator ['.', '.', '.'] (← get) then
        return (← takeOperator "...") ++ (← takeOperator? ",")
      let first ← readInput levels
      if (← get).isEmpty then return first
      let comma ← takeOperator ","
      return first ++ comma ++ (← readInputs levels)

/-- One input of a function type, with or without a name. -/
def readInput (levels : Nat) : Reading (List Token) :=
  match levels with
  | 0 => failure
  | levels + 1 => do
      let tokens ← get
      let rest := tokens.drop 1
      if (startsName tokens || startsWord "_" tokens || startsWord "self" tokens) &&
          startsOperator [':'] rest && !startsOperator [':', ':'] rest then
        return (← takeOne) ++ (← takeOperator ":") ++ (← readType levels true).tokens
      else return (← readType levels true).tokens

/-- A path. In an expression, arguments need the separator before them. -/
def readPath (levels : Nat) (inExpression : Bool) : Reading PathText :=
  match levels with
  | 0 => failure
  | levels + 1 => do
      let start ← takeOperator? "::"
      let first ← readSegment levels inExpression
      let rest ← readSegments levels inExpression
      match rest with
      | none => return { first with
          tokens := start ++ first.tokens, isName := start.isEmpty }
      | some rest => return { rest with
          tokens := start ++ first.tokens ++ rest.tokens
          isPlain := first.isPlain && rest.isPlain }

/-- The segments after the first of a path, if there are any. -/
def readSegments (levels : Nat) (inExpression : Bool) : Reading (Option PathText) :=
  match levels with
  | 0 => failure
  | levels + 1 => do
      let tokens ← get
      if startsOperator [':', ':'] tokens && !startsParens (tokens.drop 2) then
        let separator ← takeOperator "::"
        let segment ← readSegment levels inExpression
        match ← readSegments levels inExpression with
        | none => return some { segment with tokens := separator ++ segment.tokens, isName := false }
        | some rest =>
            return some { rest with
              tokens := separator ++ segment.tokens ++ rest.tokens
              isPlain := segment.isPlain && rest.isPlain }
      else return none

/-- One segment of a path. -/
def readSegment (levels : Nat) (inExpression : Bool) : Reading PathText :=
  match levels with
  | 0 => failure
  | levels + 1 => do
      let tokens ← get
      if ["super", "self", "crate"].any fun word => startsWord word tokens then
        return ⟨← takeOne, true, true, true⟩
      else if startsName tokens || startsWord "Self" tokens then
        let name ← takeOne
        if startsArguments inExpression (← get) then
          return ⟨name ++ (← readArguments levels), true, false, false⟩
        else return ⟨name, true, true, true⟩
      else failure

/-- A path that starts from a type. -/
def readQualified (levels : Nat) : Reading (List Token) :=
  match levels with
  | 0 => failure
  | levels + 1 => do
      let opening ← takeOperator "<"
      let type ← readType levels true
      let target ←
        if startsWord "as" (← get) then
          pure ((← takeOne) ++ (← readPath levels false).tokens)
        else pure []
      let closing ← takeOperator ">"
      let separator ← takeOperator "::"
      return opening ++ type.tokens ++ target ++ closing ++ separator ++
        (← readQualifiedRest levels)

/-- The segments after the type of a path that starts from one. -/
def readQualifiedRest (levels : Nat) : Reading (List Token) :=
  match levels with
  | 0 => failure
  | levels + 1 => do
      let segment ← readSegment levels false
      if startsOperator [':', ':'] (← get) then
        return segment.tokens ++ (← takeOperator "::") ++ (← readQualifiedRest levels)
      else return segment.tokens

/-- Arguments in angle brackets. -/
def readArguments (levels : Nat) : Reading (List Token) :=
  match levels with
  | 0 => failure
  | levels + 1 => do
      let separator ← takeOperator? "::"
      let opening ← takeOperator "<"
      let arguments ← readArgumentList levels
      return separator ++ opening ++ printArguments arguments ++ (← takeOperator ">")

/-- The arguments up to the closing bracket. -/
def readArgumentList (levels : Nat) : Reading (List Argument) :=
  match levels with
  | 0 => failure
  | levels + 1 => do
      if startsOperator ['>'] (← get) then return []
      let isLifetime := startsLifetime (← get) && !startsOperator ['+'] ((← get).drop 1)
      let tokens ← if isLifetime then takeOne else readArgument levels
      if startsOperator ['>'] (← get) then return [⟨tokens, isLifetime, false⟩]
      let _ ← takeOperator ","
      return ⟨tokens, isLifetime, true⟩ :: (← readArgumentList levels)

/-- An argument that is no lifetime: a value, a type, or what a name inside is bound to. -/
def readArgument (levels : Nat) : Reading (List Token) :=
  match levels with
  | 0 => failure
  | levels + 1 => do
      if startsConstant (← get) then readConstant levels
      else
        let type ← readType levels true
        if type.shape = .name && startsOperator ['='] (← get) then
          let equals ← takeOperator "="
          let value ←
            if startsConstant (← get) then readConstant levels
            else pure (← readType levels true).tokens
          return type.tokens ++ equals ++ value
        else if type.shape = .name && startsOperator [':'] (← get) then
          return type.tokens ++ (← takeOperator ":") ++ (← readConstraint levels)
        else return type.tokens

/-- The bounds of a name among arguments. -/
def readConstraint (levels : Nat) : Reading (List Token) :=
  match levels with
  | 0 => failure
  | levels + 1 => do
      let tokens ← get
      if startsOperator [','] tokens || startsOperator ['>'] tokens then return []
      let bound ← readBound levels
      if startsOperator ['+'] (← get) then
        return bound.tokens ++ (← takeOperator "+") ++ (← readConstraint levels)
      else return bound.tokens

/-- A value as an argument: a literal, or an expression in braces. -/
def readConstant (levels : Nat) : Reading (List Token) :=
  match levels with
  | 0 => failure
  | levels + 1 => do
      if startsLiteral (← get) then takeLiteral
      else readBlock levels

/-- An expression in braces. -/
def readBlock (levels : Nat) : Reading (List Token) :=
  match levels with
  | 0 => failure
  | levels + 1 => do
      let content ← takeGroup .brace
      if content.isEmpty then return [braces []]
      else return [braces (← within (readValue levels) content)]

/-- A value: operands with operators between them. -/
def readValue (levels : Nat) : Reading (List Token) :=
  match levels with
  | 0 => failure
  | levels + 1 => do
      let operand ← readOperand levels
      let tokens ← get
      match binaryOperators.find? fun marks => startsOperator marks.toList tokens with
      | none => return operand
      | some marks => return operand ++ (← takeOperator marks) ++ (← readValue levels)

/-- An operand: a literal, a path, or a value in brackets, with its signs before it. -/
def readOperand (levels : Nat) : Reading (List Token) :=
  match levels with
  | 0 => failure
  | levels + 1 => do
      let tokens ← get
      match ["-", "!", "*"].find? fun marks => startsOperator marks.toList tokens with
      | some marks => return (← takeOperator marks) ++ (← readOperand levels)
      | none =>
          if startsLiteral tokens then takeOne
          else if startsParens tokens then
            let content ← takeGroup .parenthesis
            return [parens (← within (readValue levels) content)]
          else if startsOperator ['<'] tokens then readQualified levels
          else if startsPath tokens then return (← readPath levels true).tokens
          else readBlock levels

end

/-! ## Whole texts -/

/-- Reads a whole text. The readers may call each other as often as the text can need. -/
def readText? {α : Type} (reading : Nat → Reading α) (text : String) : Option α :=
  (ofText? text).bind (readAll (reading (32 * (text.length + 1))))

/-- The tokens of a type. -/
def type? (text : String) : Option (List Token) :=
  readText? (fun levels => TypeText.tokens <$> readType levels true) text

/-- The tokens of a path. -/
def path? (text : String) : Option (List Token) :=
  readText? (fun levels => PathText.tokens <$> readPath levels false) text

end Token

end CommandFactory
