import LoadPlan.Program
import LoadPlan.Text.Blank

/-! Formats of log lines, and what is logged unless told otherwise. -/
namespace LoadPlan

inductive LogFormat where
  | pretty
  | json
  deriving DecidableEq, Repr

namespace LogFormat

/-- The format that a setting asks for; the word counts in any letter case. -/
def ofSetting (setting : Option String) : LogFormat :=
  match setting with
  | some text =>
    if (Text.trim text).toList.map Char.toLower == "json".toList then json else pretty
  | none => pretty

def name : LogFormat → String
  | pretty => "Pretty"
  | json => "Json"

def defaultFilter : String := Program.name ++ "=info"

end LogFormat
end LoadPlan
