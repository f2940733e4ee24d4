import LoadPlan.Json.Escape
import LoadPlan.Json.Number

/-! Tokens of JSON texts: punctuation, strings with their escapes undone, and other scalars. What
has the form of a string or number but stands for none is a token without a value. -/
namespace LoadPlan.Json

inductive Token where
  | openObject
  | closeObject
  | openArray
  | closeArray
  | comma
  | colon
  | string (content : Option String)
  | scalar (value : Option Json)
  deriving Repr, BEq

namespace Token

def isSpace (c : Char) : Bool := c == ' ' || c == '\t' || c == '\n' || c == '\r'

def punctuation? : Char → Option Token
  | '\x7b' => some openObject
  | '\x7d' => some closeObject
  | '[' => some openArray
  | ']' => some closeArray
  | ',' => some comma
  | ':' => some colon
  | _ => none

/-- The three words of the grammar. -/
def word? : List Char → Option (Option Json × List Char)
  | 'n' :: 'u' :: 'l' :: 'l' :: rest => some (some .null, rest)
  | 't' :: 'r' :: 'u' :: 'e' :: rest => some (some (.bool true), rest)
  | 'f' :: 'a' :: 'l' :: 's' :: 'e' :: rest => some (some (.bool false), rest)
  | _ => none

/-- The token at the head of a text that begins with no white space. -/
def next? : List Char → Option (Token × List Char)
  | [] => none
  | c :: rest =>
    match punctuation? c with
    | some token => some (token, rest)
    | none =>
      if c = '"' then
        (scanString rest).map fun (content, rest) => (.string (content.map String.ofList), rest)
      else ((word? (c :: rest)).or (scanNumber (c :: rest))).map fun (v, rest) => (.scalar v, rest)

private theorem word?_length {cs rest : List Char} (h : word? cs = some (v, rest)) :
    rest.length < cs.length := by
  unfold word? at h
  split at h
  case h_4 => simp at h
  all_goals
    simp only [Option.some.injEq, Prod.mk.injEq] at h
    simp only [List.length_cons, ← h.2]
    omega

theorem next?_length {cs rest : List Char} (h : next? cs = some (t, rest)) :
    rest.length < cs.length := by
  unfold next? at h
  split at h
  · simp at h
  · split at h
    · simp_all
    · split at h
      · obtain ⟨⟨_, _⟩, hs, heq⟩ := Option.map_eq_some_iff.1 h
        have := scanString_length hs
        simp only [Prod.mk.injEq] at heq
        simp only [List.length_cons, ← heq.2]
        omega
      · obtain ⟨⟨_, _⟩, hs, heq⟩ := Option.map_eq_some_iff.1 h
        simp only [Prod.mk.injEq] at heq
        rw [← heq.2]
        rcases Option.or_eq_some_iff.1 hs with hw | ⟨_, hn⟩
        · exact word?_length hw
        · exact scanNumber_length hn

/-- A token of the same form that has a value. -/
def valued : Token → Token
  | string none => string (some "")
  | scalar none => scalar (some .null)
  | token => token

/-- All tokens of a text. -/
def scan (cs : List Char) : Option (List Token) :=
  match cs with
  | [] => some []
  | c :: rest =>
    if isSpace c then scan rest
    else match _h : next? (c :: rest) with
      | some (token, after) => (scan after).map (token :: ·)
      | none => none
  termination_by cs.length
  decreasing_by
    · simp
    · exact next?_length _h

end Token
end LoadPlan.Json
