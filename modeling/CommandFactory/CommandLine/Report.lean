import CommandFactory.Compilation

/-!
# Reports

The lines that the program shows of declarations, diagnostics and failures, and the outcome of a run.
-/

set_option autoImplicit false

namespace CommandFactory

/-- What a run leaves: its exit status and what it printed. -/
structure Outcome where
  exit : Nat
  stdout : String
  stderr : String
  deriving DecidableEq, Repr, Inhabited

namespace Report

/-- Lines as text. -/
def lines (texts : List String) : String := String.join (texts.map fun text => text ++ "\n")

/-- A line between parts of a report. -/
def rule : String := String.ofList (List.replicate 80 '=')

/-! ## Diagnostics -/

/-- The sign of a severity. -/
def icon : Severity → String
  | .note => "ℹ️ "
  | .warning => "⚠️ "
  | .error => "❌"

/-- The lines for diagnostics; none if there are none. -/
def diagnostics (log : List Diagnostic) : List String :=
  if log.isEmpty then []
  else
    "\n🩺 Diagnostics:" ::
      log.map fun diagnostic => "   " ++ icon diagnostic.severity ++ " " ++ diagnostic.display

/-! ## Declarations -/

/-- What a command is rooted in. -/
def rooting : Rooting → String
  | .classRooted => "class-rooted"
  | .methodRooted _ method params =>
      "method-rooted (" ++ method ++ "(" ++ ", ".intercalate params ++ "))"

/-- A line with the names of elements; none if there are none. -/
def names (label : String) (elements : List NamedElement) : List String :=
  if elements.isEmpty then []
  else [label ++ ", ".intercalate (elements.map NamedElement.name)]

/-- The lines for a command. -/
def command (d : CommandDeclaration) : List String :=
  let heading :=
    match d.command with
    | some command => "   🚀 Command: " ++ command.name ++ " [" ++ rooting d.rooting ++ "]"
    | none => "   🧩 Holder [" ++ rooting d.rooting ++ "]"
  [heading] ++
    d.superCommand.toList.map (fun id => "   🧬 Super command: " ++ id.text) ++
    names "   🌿 Subcommands: " d.subcommands ++ names "   🔗 Mixins: " d.mixins ++
    ["   ⚙️  Args: " ++ toString d.directOptions.length ++ " option(s), " ++
      toString d.directPositionals.length ++ " positional(s), " ++
      toString d.argGroups.length ++ " group(s)"]

/-- The line for the scope of a declaration. -/
def scope : Scope → String
  | .root (some package) => "   📁 Package: " ++ package
  | .root none => "   📁 Package: (root)"
  | .declaration id => "   📁 Nested in: " ++ id.text

/-- The lines for a declaration. -/
def declaration (position : Nat) (analyzed : AnalyzedDeclaration) : List String :=
  let d := analyzed.declaration
  [toString position ++ ". " ++ d.id.text] ++
    (match d with
    | .command d => command d
    | .container _ => ["   📦 Synthetic container"]) ++
    [scope d.owner, "   📏 Depth: " ++ toString analyzed.depth]

/-- The lines for declarations, numbered from `position`. -/
def declarations : Nat → List AnalyzedDeclaration → List String
  | _, [] => []
  | position, analyzed :: rest =>
      declaration position analyzed ++ declarations (position + 1) rest

/-! ## Failures -/

/-- A text whose later lines start with an indent. -/
def indentLines (indent text : String) : String :=
  String.ofList (text.toList.flatMap fun c => if c = '\n' then '\n' :: indent.toList else [c])

/-- The lines for the causes of a failure, numbered if there are several. -/
def causes : List String → List String
  | [] => []
  | [cause] => ["", "Caused by:", "    " ++ indentLines "    " cause]
  | many =>
      ["", "Caused by:"] ++
        (many.zipIdx.map fun (cause, index) =>
          let number := toString index
          String.ofList (List.replicate (5 - number.length) ' ') ++ number ++ ": " ++
            indentLines "       " cause)

/-- The text for a failure, given by its messages from the outermost on. -/
def failure : List String → String
  | [] => ""
  | message :: rest => lines (("Error: " ++ message) :: causes rest)

end Report

/-- The outcome of a run that fails after it printed something. -/
def Outcome.failed (stdout stderr : String) (messages : List String) : Outcome :=
  ⟨1, stdout, stderr ++ Report.failure messages⟩

end CommandFactory
