import LoadPlan.CommandLine.Outcome
import Std.Time.Zoned

/-! The program: its arguments are read, the files it needs are read, and what comes of them is
printed and written. -/
namespace LoadPlan.Main

/-- A well mixed word for each number. -/
def mixed (seed : UInt64) (index : Nat) : UInt64 :=
  let z := seed + UInt64.ofNat (index + 1) * 0x9e3779b97f4a7c15
  let z := (z ^^^ (z >>> 30)) * 0xbf58476d1ce4e5b9
  let z := (z ^^^ (z >>> 27)) * 0x94d049bb133111eb
  z ^^^ (z >>> 31)

def chance : IO Sample.Chance := do
  let today ← Std.Time.PlainDate.now
  let seed ← IO.rand 0 (UInt64.size - 1)
  return ⟨Int32.ofInt today.year, mixed (UInt64.ofNat seed)⟩

def reason : IO.Error → String
  | .noFileOrDirectory .. => Files.noSuchFile
  | e => toString e

/-- Runs an action on a file, and keeps the reason if it cannot be done. -/
def attempt (action : IO α) : IO (Except String α) := do
  try
    return .ok (← action)
  catch e =>
    return .error (reason e)

/-- The files that a command reads. -/
def inputs : Option Command → List String
  | some (.compile o) => o.settingsFile.toList ++ [o.spec]
  | some (.list spec) => [spec]
  | _ => []

def run (arguments : List String) : IO Outcome := do
  let chance ← chance
  let contents ← (inputs (Command.parse? arguments)).mapM fun (path : String) => do
    return (path, ← attempt (IO.FS.readFile path))
  let read (path : String) := (contents.lookup path).getD (.error Files.noSuchFile)
  let outcome := Outcome.ofArguments ⟨read, fun _ => .ok ()⟩ chance arguments
  match outcome.written with
  | none => return outcome
  | some (path, content) =>
    match ← attempt (IO.FS.writeFile path content) with
    | .ok () => return outcome
    | .error reason => return Outcome.ofArguments ⟨read, fun _ => .error reason⟩ chance arguments

end LoadPlan.Main

def main (arguments : List String) : IO UInt32 := do
  let outcome ← LoadPlan.Main.run arguments
  IO.print outcome.stdout
  IO.eprint outcome.stderr
  return UInt32.ofNat outcome.exitCode
