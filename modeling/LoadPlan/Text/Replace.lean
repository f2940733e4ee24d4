/-! Replacing a text wherever it occurs. -/
namespace LoadPlan.Text

/-- Occurrences are taken from the left and do not overlap. -/
def replaceChars (pattern replacement : List Char) (cs : List Char) : List Char :=
  match cs with
  | [] => []
  | c :: rest =>
    if pattern.isPrefixOf (c :: rest) then
      replacement ++ replaceChars pattern replacement (rest.drop (pattern.length - 1))
    else c :: replaceChars pattern replacement rest
  termination_by cs.length
  decreasing_by all_goals simp only [List.length_drop, List.length_cons]; omega

def replace (text pattern replacement : String) : String :=
  String.ofList (replaceChars pattern.toList replacement.toList text.toList)

/-- Writes anew what `match?` finds at the head of a text. Matches are taken from the left and do not
overlap, so the search goes on behind the one that is found. -/
def replaceMatches (match? : List Char → Option (List Char)) (write : List Char → List Char)
    (cs : List Char) : List Char :=
  match cs with
  | [] => []
  | c :: rest =>
    match match? (c :: rest) with
    | some found => write found ++ replaceMatches match? write (rest.drop (found.length - 1))
    | none => c :: replaceMatches match? write rest
  termination_by cs.length
  decreasing_by all_goals simp only [List.length_drop, List.length_cons]; omega

end LoadPlan.Text
