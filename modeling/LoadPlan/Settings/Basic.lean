/-! Settings of a test plan, and layers of them that leave some settings open. -/
namespace LoadPlan

/-- The settings that are counts. -/
inductive Count where
  | threads
  | rampUp
  | loops
  deriving DecidableEq, Repr

namespace Count

def all : List Count := [threads, rampUp, loops]

def key : Count → String
  | threads => "threadCount"
  | rampUp => "rampUpSeconds"
  | loops => "loopCount"

end Count

structure Settings where
  threads : UInt32
  /-- Seconds until all threads run. -/
  rampUp : UInt32
  loops : UInt32
  /-- A blank one gives way to the URL that the document declares. -/
  baseUrl : String
  name : String
  deriving DecidableEq, Repr

namespace Settings

def baseUrlKey : String := "baseUrl"

def nameKey : String := "testPlanName"

/-- All keys, in the order of the settings. -/
def keys : List String := Count.all.map Count.key ++ [baseUrlKey, nameKey]

def default : Settings := ⟨10, 1, 1, "", "API Test Plan"⟩

def count (s : Settings) : Count → UInt32
  | .threads => s.threads
  | .rampUp => s.rampUp
  | .loops => s.loops

/-- The first count that is zero, as none may be. -/
def zeroCount? (s : Settings) : Option Count := Count.all.find? fun c => s.count c == 0

/-- The count that a number is, if it fits. -/
def count? (n : Nat) : Option UInt32 := if n < UInt32.size then some (UInt32.ofNat n) else none

/-- Settings of which each may be open. -/
structure Layer where
  threads : Option UInt32
  rampUp : Option UInt32
  loops : Option UInt32
  baseUrl : Option String
  name : Option String
  deriving DecidableEq, Repr

namespace Layer

def empty : Layer := ⟨none, none, none, none, none⟩

/-- Open settings are those of the base. -/
def onto (layer : Layer) (base : Settings) : Settings :=
  { threads := layer.threads.getD base.threads
    rampUp := layer.rampUp.getD base.rampUp
    loops := layer.loops.getD base.loops
    baseUrl := layer.baseUrl.getD base.baseUrl
    name := layer.name.getD base.name }

end Layer
end Settings
end LoadPlan
