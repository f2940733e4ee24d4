import LoadPlan.CommandLine.Command
import LoadPlan.Compile
import LoadPlan.Listing
import LoadPlan.Settings.File

/-! What commands do. A command reads files, and ends in an exit code, texts on the two output
streams, and at most one written file; an output is written only after everything else succeeded. -/
namespace LoadPlan

/-- The files around a command: what reading one gives, and what writing one meets. A reason says
why a file cannot be read or written. -/
structure Files where
  read : String → Except String String
  write : String → Except String Unit

namespace Files

def noSuchFile : String := "No such file or directory (os error 2)"

/-- The name that a path has in the current folder, if it leads to a file there. -/
def localName? (path : String) : Option String :=
  match (path.splitOn "/").filter fun part => part != "" && part != "." with
  | [name] => if path.startsWith "/" || name == ".." then none else some name
  | _ => none

/-- A folder of files by their names, without folders inside it. -/
def ofList (files : List (String × String)) : Files where
  read path :=
    match (localName? path).bind fun name => files.lookup name with
    | some content => .ok content
    | none => .error noSuchFile
  write path := if (localName? path).isSome then .ok () else .error noSuchFile

end Files

inductive Failure where
  | settingsUnreadable (path reason : String)
  | settingsMalformed (path : String)
  | specUnreadable (path reason : String)
  | outputUnwritable (path reason : String)
  | compile (cause : CompileError)
  deriving Repr

namespace Failure

def causedBy (reason : String) : String := "\n\nCaused by:\n    " ++ reason

def message : Failure → String
  | settingsUnreadable path reason =>
    "Failed to load configuration: Failed to read file " ++ path ++ ": " ++ reason
  | settingsMalformed path =>
    "Failed to load configuration: Failed to parse " ++ path ++ ": syntax error"
  | specUnreadable path reason => "Failed to read spec file " ++ path ++ causedBy reason
  | outputUnwritable path reason => "Failed to write test plan " ++ path ++ causedBy reason
  | compile cause => cause.message

end Failure

structure Outcome where
  exitCode : Nat
  stdout : String
  stderr : String
  written : Option (String × String)
  deriving DecidableEq, Repr

namespace Outcome

/-- An end without an output, after what was already printed. -/
def failed (stdout stderr : String) (failure : Failure) : Outcome :=
  ⟨1, stdout, stderr ++ "Error: " ++ failure.message ++ "\n", none⟩

def usage : String := "Usage: " ++ Program.name ++ " <COMMAND>\n\nCommands: compile, list, help\n"

def wrongUsage : Outcome := ⟨2, "", usage, none⟩

end Outcome

/-- The settings of a file; without a file all are open. -/
def Settings.Layer.ofFile (files : Files) : Option String → Except Failure Settings.Layer
  | none => .ok .empty
  | some path =>
    match files.read path with
    | .error reason => .error (.settingsUnreadable path reason)
    | .ok text =>
      match Settings.Layer.read? text with
      | some layer => .ok layer
      | none => .error (.settingsMalformed path)

/-- Options go before the file, and the file before the defaults. -/
def CompileOptions.effective (o : CompileOptions) (files : Files) : Except Failure Settings :=
  (Settings.Layer.ofFile files o.settingsFile).map fun layer =>
    o.settings.onto (layer.onto .default)

namespace Outcome

/-- The finished plan goes to the output file, or to standard output without one. -/
def deliver (files : Files) (notes plan : String) : Option String → Outcome
  | none => ⟨0, plan, notes, none⟩
  | some path =>
    match files.write path with
    | .ok () =>
      ⟨0, "", notes ++ "✓ Generated JMeter test plan: " ++ path ++ "\n", some (path, plan)⟩
    | .error reason => failed "" notes (.outputUnwritable path reason)

def compilation (files : Files) (chance : Sample.Chance) (o : CompileOptions) : Outcome :=
  match o.effective files with
  | .error failure => failed "" "" failure
  | .ok settings =>
    match files.read o.spec with
    | .error reason => failed "" "" (.specUnreadable o.spec reason)
    | .ok text =>
      let notes := "✓ Loaded spec file: " ++ o.spec ++ "\n"
      match compile text (Encoding.ofPath? o.spec) settings chance with
      | .error cause => failed "" notes (.compile cause)
      | .ok plan => deliver files notes plan o.output

/-- A document with its operations. -/
def loaded (files : Files) (spec : String) : Except Failure (Document × List Operation) := do
  let text ← (files.read spec).mapError (.specUnreadable spec)
  let document ← (Document.read text (Encoding.ofPath? spec)).mapError (.compile ∘ .document)
  let operations ← document.operations.mapError (.compile ∘ .reference)
  .ok (document, operations)

def listing (files : Files) (spec : String) : Outcome :=
  let heading := "Loading spec file...\n  Path: " ++ spec ++ "\n"
  match loaded files spec with
  | .error failure => failed heading "" failure
  | .ok (document, operations) => ⟨0, heading ++ Listing.text document operations, "", none⟩

def versionText : String := Program.name ++ " " ++ Program.version ++ "\n"

def ofCommand (files : Files) (chance : Sample.Chance) : Command → Outcome
  | .compile options => compilation files chance options
  | .list spec => listing files spec
  | .version => ⟨0, versionText, "", none⟩
  | .help => ⟨0, usage, "", none⟩

/-- What comes of a command line. -/
def ofArguments (files : Files) (chance : Sample.Chance) (arguments : List String) : Outcome :=
  match Command.parse? arguments with
  | some command => ofCommand files chance command
  | none => wrongUsage

end Outcome
end LoadPlan
