import LoadPlan.Json.Reader
import LoadPlan.Settings.Basic

/-! Settings as JSON texts: an object with a field for each, or an array of all in order. No setting
may be open or given twice; of other fields only the form counts. -/
namespace LoadPlan.Settings
open Json (Token)

def countOf? : Token → Option UInt32
  | .scalar (some (.int n)) => if 0 ≤ n then count? n.toNat else none
  | _ => none

def textOf? : Token → Option String
  | .string content => content
  | _ => none

def ofTokens? (threads rampUp loops baseUrl name : Token) : Option Settings := do
  let threads ← countOf? threads
  let rampUp ← countOf? rampUp
  let loops ← countOf? loops
  let baseUrl ← textOf? baseUrl
  let name ← textOf? name
  some { threads, rampUp, loops, baseUrl, name }

/-- A field's value, and what follows it. Settings have values of one token, others are skipped. -/
def fieldValue? (key : String) (tokens : List Token) :
    Option (List (String × Token) × List Token) :=
  if keys.contains key then
    match tokens with
    | value :: rest => some ([(key, value)], rest)
    | [] => none
  else (Json.Reader.start.skip? tokens).map ([], ·)

theorem fieldValue?_length {key : String} {field : List (String × Token)}
    {tokens rest : List Token}
    (h : fieldValue? key tokens = some (field, rest)) : rest.length < tokens.length := by
  unfold fieldValue? at h
  split at h
  · split at h <;> simp_all
  · obtain ⟨_, hs, heq⟩ := Option.map_eq_some_iff.1 h
    simp only [Prod.mk.injEq] at heq
    exact heq.2 ▸ Json.Reader.skip?_length hs

/-- The settings among the fields of an object, from its first key to its end. -/
def fields? (tokens : List Token) : Option (List (String × Token)) :=
  match tokens with
  | .string (some key) :: .colon :: tokens =>
    match _h : fieldValue? key tokens with
    | some (field, [.closeObject]) => some field
    | some (field, .comma :: rest) => (fields? rest).map (field ++ ·)
    | _ => none
  | _ => none
  termination_by tokens.length
  decreasing_by
    have := fieldValue?_length _h
    simp only [List.length_cons] at *
    omega

def ofFields? (fields : List (String × Token)) : Option Settings := do
  if !(fields.map Prod.fst).Nodup then none
  let threads ← fields.lookup Count.threads.key
  let rampUp ← fields.lookup Count.rampUp.key
  let loops ← fields.lookup Count.loops.key
  let baseUrl ← fields.lookup baseUrlKey
  let name ← fields.lookup nameKey
  ofTokens? threads rampUp loops baseUrl name

def readJson? (text : String) : Option Settings := do
  match ← Token.scan text.toList with
  | .openObject :: tokens => (fields? tokens).bind ofFields?
  | [.openArray, a, .comma, b, .comma, c, .comma, d, .comma, e, .closeArray] => ofTokens? a b c d e
  | _ => none

end LoadPlan.Settings
