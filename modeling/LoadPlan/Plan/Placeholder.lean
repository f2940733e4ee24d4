import LoadPlan.Text.Replace
import LoadPlan.Text.Word

/-! Placeholders in paths. A path template has a name in braces where a test plan has a variable,
which is written the same way with a dollar before it. -/
namespace LoadPlan.Placeholder

/-- A name of word characters in braces, at the head of a text. -/
def placeholder? : List Char → Option (List Char)
  | '\x7b' :: rest =>
    let name := rest.takeWhile Text.isWord
    if !name.isEmpty && (rest.dropWhile Text.isWord).head? == some '\x7d' then
      some ('\x7b' :: (name ++ ['\x7d']))
    else none
  | _ => none

/-- A name in braces with a dollar before it, at the head of a text. -/
def planVariable? : List Char → Option (List Char)
  | '$' :: rest => (placeholder? rest).map ('$' :: ·)
  | _ => none

/-- Puts a dollar before each placeholder; variables are matched too, and stay as they are. -/
def addDollars (cs : List Char) : List Char :=
  Text.replaceMatches (fun cs => (planVariable? cs).or (placeholder? cs))
    (fun found => if found.head? == some '$' then found else '$' :: found) cs

/-- Takes away the dollar of each variable. -/
def dropDollars (cs : List Char) : List Char :=
  Text.replaceMatches planVariable? (List.drop 1) cs

/-- A path with variables for its placeholders. -/
def toVariables (path : String) : String := String.ofList (addDollars path.toList)

/-- A path with placeholders for its variables. -/
def ofVariables (path : String) : String := String.ofList (dropDollars path.toList)

end LoadPlan.Placeholder
