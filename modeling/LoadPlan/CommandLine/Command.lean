import LoadPlan.Settings.Basic
import LoadPlan.Text.Digits

/-! Commands as they are given on a command line. Options may come in any order, each once, and
take their value attached or as the next argument. -/
namespace LoadPlan

structure CompileOptions where
  spec : String
  output : Option String
  settingsFile : Option String
  settings : Settings.Layer
  deriving DecidableEq, Repr

inductive Command where
  | compile (options : CompileOptions)
  | list (spec : String)
  | version
  | help
  deriving DecidableEq, Repr

namespace Command

/-- What an option takes. -/
inductive ValueKind where
  | path
  | count
  | text
  deriving DecidableEq, Repr

structure Flag where
  name : String
  letter : Option Char
  kind : ValueKind
  deriving DecidableEq, Repr

def specFlag : Flag := ⟨"spec", some 's', .path⟩
def outputFlag : Flag := ⟨"output", some 'O', .path⟩
def settingsFlag : Flag := ⟨"config", some 'c', .path⟩
def threadsFlag : Flag := ⟨"threads", none, .count⟩
def rampUpFlag : Flag := ⟨"ramp-up", none, .count⟩
def loopsFlag : Flag := ⟨"loops", none, .count⟩
def baseUrlFlag : Flag := ⟨"base-url", none, .text⟩
def nameFlag : Flag := ⟨"name", some 'n', .text⟩

def compileFlags : List Flag :=
  [specFlag, outputFlag, settingsFlag, threadsFlag, rampUpFlag, loopsFlag, baseUrlFlag, nameFlag]

def listFlags : List Flag := [specFlag]

/-- A whole number with or without a sign, which must not make it negative. -/
def count? (text : String) : Option UInt32 :=
  match text.toList with
  | '-' :: cs => ((Text.digits? cs).filter (· == 0)).bind Settings.count?
  | cs => (Text.unsigned? UInt32.size cs).bind Settings.count?

def ValueKind.accepts (value : String) : ValueKind → Bool
  | path => value != ""
  | count => (count? value).isSome
  | text => true

/-- Options as they were given, or a request for help among them. -/
inductive Given where
  | values (values : List (Flag × String))
  | help

/-- One more option with its value. -/
def add? (values : List (Flag × String)) (flag : Flag) (value : String) :
    Option (List (Flag × String)) :=
  if (values.lookup flag).isSome || !flag.kind.accepts value then none
  else some ((flag, value) :: values)

/-- An argument that may be the value of the option before it. -/
def isValue (argument : String) : Bool := argument == "-" || !argument.startsWith "-"

/-- A name, and what is attached to it by an equals sign. -/
def splitEquals (cs : List Char) : String × Option String :=
  (String.ofList (cs.takeWhile (· != '=')),
    match cs.dropWhile (· != '=') with
    | _ :: value => some (String.ofList value)
    | [] => none)

/-- What is attached to the letter of an option; an equals sign is not part of it. -/
def attachedValue? : List Char → Option String
  | [] => none
  | '=' :: value => some (String.ofList value)
  | value => some (String.ofList value)

/-- What an argument asks for: help, or a flag with the value attached to it. -/
inductive Ask where
  | help
  | flag (flag : Flag) (attached : Option String)

def ask? (flags : List Flag) (argument : String) : Option Ask :=
  match argument.toList with
  | '-' :: '-' :: cs =>
    match splitEquals cs with
    | ("help", none) => some .help
    | (name, attached) => (flags.find? (·.name == name)).map (.flag · attached)
  | '-' :: 'h' :: _ => some .help
  | '-' :: letter :: cs =>
    (flags.find? (·.letter == some letter)).map (.flag · (attachedValue? cs))
  | _ => none

def given? (flags : List Flag) (values : List (Flag × String)) : List String → Option Given
  | [] => some (.values values)
  | ["--"] => some (.values values)
  | argument :: rest =>
    match ask? flags argument with
    | some .help => some .help
    | some (.flag flag (some value)) => (add? values flag value).bind (given? flags · rest)
    | some (.flag flag none) =>
      match rest with
      | value :: rest =>
        if isValue value then (add? values flag value).bind (given? flags · rest) else none
      | [] => none
    | none => none

def layerOf (values : List (Flag × String)) : Settings.Layer :=
  { threads := (values.lookup threadsFlag).bind count?
    rampUp := (values.lookup rampUpFlag).bind count?
    loops := (values.lookup loopsFlag).bind count?
    baseUrl := values.lookup baseUrlFlag
    name := values.lookup nameFlag }

def compileOf? (arguments : List String) : Option Command := do
  match ← given? compileFlags [] arguments with
  | .help => some help
  | .values values =>
    let spec ← values.lookup specFlag
    some (compile
      { spec
        output := values.lookup outputFlag
        settingsFile := values.lookup settingsFlag
        settings := layerOf values })

def listOf? (arguments : List String) : Option Command := do
  match ← given? listFlags [] arguments with
  | .help => some help
  | .values values => (values.lookup specFlag).map list

def helpOf? : List String → Option Command
  | [] => some help
  | [topic] => if ["compile", "list", "help"].contains topic then some help else none
  | _ => none

/-- The command that arguments give; others are wrong usage. -/
def parse? : List String → Option Command
  | [] => none
  | "compile" :: rest => compileOf? rest
  | "list" :: rest => listOf? rest
  | "help" :: rest => helpOf? rest
  | "--version" :: _ => some version
  | "--help" :: _ => some help
  | argument :: _ =>
    match argument.toList with
    | '-' :: 'V' :: _ => some version
    | '-' :: 'h' :: _ => some help
    | _ => none

end Command
end LoadPlan
