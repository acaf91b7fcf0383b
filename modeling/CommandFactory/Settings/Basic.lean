import CommandFactory.Json.Decoder

/-!
# Settings

The settings of the generator and their JSON form. A setting that is missing has its default.
-/

set_option autoImplicit false

namespace CommandFactory

open Json

/-- The settings of the generator. -/
structure Settings where
  /-- Ends the name of every module. -/
  moduleSuffix : String := "_cli_cfg"
  /-- The path under which the modules are mounted. -/
  moduleRoot : String := "crate::cli_cfg"
  /-- The path of the crate that holds the types of specifications. -/
  runtimeCrate : String := "::cmdspec_runtime"
  /-- Every artifact starts with a line that says it is generated. -/
  emitHeader : Bool := true
  /-- The text of every artifact goes through the formatter of the machine. -/
  rustfmt : Bool := false
  deriving DecidableEq, Repr, Inhabited

namespace Settings

/-- The settings as an object. -/
def encode (settings : Settings) : Json :=
  .object
    [("module_suffix", .string settings.moduleSuffix),
      ("module_root", .string settings.moduleRoot),
      ("runtime_crate", .string settings.runtimeCrate),
      ("emit_header", .bool settings.emitHeader),
      ("rustfmt", .bool settings.rustfmt)]

/-- The fields of the settings. -/
def record : Record Settings where
  name := "GeneratorConfig"
  start := {}
  fields :=
    [.defaulted "module_suffix" .text fun v a => { a with moduleSuffix := v },
      .defaulted "module_root" .text fun v a => { a with moduleRoot := v },
      .defaulted "runtime_crate" .text fun v a => { a with runtimeCrate := v },
      .defaulted "emit_header" .flag fun v a => { a with emitHeader := v },
      .defaulted "rustfmt" .flag fun v a => { a with rustfmt := v }]

end Settings

end CommandFactory
