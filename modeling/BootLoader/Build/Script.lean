import BootLoader.Build.Directory
import BootLoader.Build.Layout
import BootLoader.Text.Quote

/-!
The step before the loader is compiled: find the payloads that the environment names, check that
they fit, and write the table that embeds them. What it prints tells the build tool when to run it
again.
-/

namespace BootLoader.Build

open Text

/-- what the step can see: variables, and the directory it runs in -/
structure Surroundings where
  env : List (String × String)
  files : Directory

namespace Surroundings

def var? (s : Surroundings) (name : String) : Option String :=
  (s.env.find? (·.1 == name)).map (·.2)

def text? (s : Surroundings) (path : String) : Option String :=
  (s.files.read? path).bind fun bs => String.fromUTF8? bs.packed

end Surroundings

inductive ScriptError where
  | missingVariable
  | missingPayload (variableName : String)
  | notAFile (variableName path : String)
  | noLayout (arch : String)
  | layout (cause : LayoutError)
  | unwritable (cause : PathError)
deriving DecidableEq

def ScriptError.message : ScriptError → String
  | missingVariable => "called `Result::unwrap()` on an `Err` value: NotPresent"
  | missingPayload variableName => s!"{variableName} must name the payload to embed"
  | notAFile variableName path => s!"{variableName}={path} is not a file"
  | noLayout arch => s!"no platform layout for target architecture {arch}"
  | layout cause => cause.message
  | unwritable cause => s!"called `Result::unwrap()` on an `Err` value: {cause.inspect}"

structure Embedded where
  path : String
  len : Nat

/-- a computation that prints, and keeps what it printed when it fails -/
abbrev Script := ExceptT ScriptError (StateM (List String))

def trimReturn (line : String) : String :=
  match line.toList.reverse with
  | '\r' :: cs => String.ofList cs.reverse
  | _ => line

def linesOf (text : String) : List String := (text.splitOn "\n").map trimReturn

/-- Print a text and a line break. The lines are kept as they are read, the newest first until the
end; a path may have line breaks of its own. -/
def put (text : String) : Script Unit := modify ((linesOf text).reverse ++ ·)

/-- The file that a variable names. Only a build for the firmware insists on there being one. -/
def payload (s : Surroundings) (variableName : String) (required : Bool) :
    Script (Option Embedded) := do
  match s.var? variableName with
  | none =>
    if required then throw (.missingPayload variableName)
    put s!"cargo:warning={variableName} is not set, embedding an empty placeholder"
    return none
  | some path =>
    match s.files.read? path with
    | none => throw (.notAFile variableName path)
    | some bytes =>
      put s!"cargo:rerun-if-changed={path}"
      return some ⟨path, bytes.size⟩

def tableLine (name : String) : Option Embedded → String
  | some file => s!"pub static {name}: &[u8] = include_bytes!({quote file.path});\n"
  | none => s!"pub static {name}: &[u8] = &[];\n"

def table (hypervisor kernel : Option Embedded) : String :=
  "// Generated by build.rs.\n" ++ tableLine "HVISOR" hypervisor ++ tableLine "VMLINUX" kernel

def lengthOf (file : Option Embedded) : Nat := (file.map (·.len)).getD 0

/-- The payloads must fit where there is a layout; a build for the firmware needs one. -/
def requireFit (targetArch : String) (required : Bool) (hypervisor kernel : Option Embedded) :
    Script Unit := do
  match Arch.ofName? targetArch with
  | some arch =>
    match checkLayout arch (lengthOf hypervisor) (lengthOf kernel) with
    | .ok _ => return
    | .error e => throw (.layout e)
  | none => if required then throw (.noLayout targetArch)

def tableFile : String := "payloads.rs"

structure Plan where
  path : String
  table : String

/-- The whole step but for the writing. -/
def script (s : Surroundings) : Script Plan := do
  let some outDir := s.var? "OUT_DIR" | throw .missingVariable
  let some targetArch := s.var? "CARGO_CFG_TARGET_ARCH" | throw .missingVariable
  let required := s.var? "CARGO_CFG_TARGET_OS" == some "uefi"
  put "cargo:rerun-if-env-changed=HVISOR_BIN"
  put "cargo:rerun-if-env-changed=HVISOR_VMLINUX"
  let hypervisor ← payload s "HVISOR_BIN" required
  let kernel ← if (s.var? "CARGO_FEATURE_VMLINUX").isSome then payload s "HVISOR_VMLINUX" required
    else pure none
  requireFit targetArch required hypervisor kernel
  return ⟨joinPath outDir tableFile, table hypervisor kernel⟩

structure Finished where
  result : Except ScriptError Unit
  /-- the lines that were printed -/
  output : List String
  /-- what the next step will see; a step that failed wrote nothing -/
  after : Surroundings

def run (s : Surroundings) : Finished :=
  match (script s).run.run [] with
  | (.error e, lines) => ⟨.error e, lines.reverse, s⟩
  | (.ok plan, lines) =>
    match s.files.write plan.path ⟨plan.table.toUTF8⟩ with
    | .error e => ⟨.error (.unwritable e), lines.reverse, s⟩
    | .ok files => ⟨.ok (), lines.reverse, { s with files }⟩

end BootLoader.Build
