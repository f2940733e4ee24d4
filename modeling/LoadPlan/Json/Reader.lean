import LoadPlan.Json.Token

/-! Reading JSON texts by the strict grammar. The tokens drive a stack of unfinished arrays and
objects, so that reading recurses on the tokens alone. -/
namespace LoadPlan.Json

/-- An unfinished array (items latest first), an object between two fields, or an object whose
next field has its key. -/
inductive Frame where
  | array (items : List Json)
  | object (fields : List (String × Json))
  | member (fields : List (String × Json)) (key : String)

inductive Want where
  | value
  | valueOrClose
  | key
  | keyOrClose
  | colon
  | after (value : Json)

structure Reader where
  stack : List Frame
  want : Want

namespace Reader

/-- Arrays and objects in a text nest at most this deep. -/
def maxDepth : Nat := 127

def start : Reader := ⟨[], .value⟩

def beginValue (stack : List Frame) : Token → Option Reader
  | .string (some content) => some ⟨stack, .after (.string content)⟩
  | .scalar (some value) => some ⟨stack, .after value⟩
  | .openArray => some ⟨.array [] :: stack, .valueOrClose⟩
  | .openObject => some ⟨.object [] :: stack, .keyOrClose⟩
  | _ => none

def key? (stack : List Frame) (token : Token) : Option Reader :=
  match token, stack with
  | .string (some key), .object fields :: stack => some ⟨.member fields key :: stack, .colon⟩
  | _, _ => none

def afterValue (stack : List Frame) (value : Json) : Token → Option Reader
  | .comma =>
    match stack with
    | .array items :: stack => some ⟨.array (value :: items) :: stack, .value⟩
    | .member fields key :: stack => some ⟨.object (insert fields key value) :: stack, .key⟩
    | _ => none
  | .closeArray =>
    match stack with
    | .array items :: stack => some ⟨stack, .after (.array (value :: items).reverse)⟩
    | _ => none
  | .closeObject =>
    match stack with
    | .member fields key :: stack => some ⟨stack, .after (.object (insert fields key value))⟩
    | _ => none
  | _ => none

def step (r : Reader) (token : Token) : Option Reader :=
  match r.want with
  | .value => beginValue r.stack token
  | .valueOrClose =>
    match token, r.stack with
    | .closeArray, .array items :: stack => some ⟨stack, .after (.array items.reverse)⟩
    | token, stack => beginValue stack token
  | .key => key? r.stack token
  | .keyOrClose =>
    match token, r.stack with
    | .closeObject, .object fields :: stack => some ⟨stack, .after (.object fields)⟩
    | token, stack => key? stack token
  | .colon => if token matches .colon then some ⟨r.stack, .value⟩ else none
  | .after value => afterValue r.stack value token

/-- The value read, when nothing is unfinished. -/
def result? (r : Reader) : Option Json :=
  match r.stack, r.want with
  | [], .after value => some value
  | _, _ => none

def run (r : Reader) : List Token → Option Reader
  | [] => some r
  | token :: rest =>
    (r.step token).bind fun next => if next.stack.length ≤ maxDepth then next.run rest else none

/-- What follows the value being read, of which only the form counts, however deep it is. -/
def skip? (r : Reader) : List Token → Option (List Token)
  | [] => none
  | token :: rest =>
    (r.step token.valued).bind fun next =>
      if next.result?.isSome then some rest else next.skip? rest

theorem skip?_length {r : Reader} {tokens rest : List Token} (h : r.skip? tokens = some rest) :
    rest.length < tokens.length := by
  induction tokens generalizing r with
  | nil => simp [skip?] at h
  | cons token tail ih =>
    obtain ⟨next, _, h⟩ := Option.bind_eq_some_iff.1 h
    split at h
    · simp_all
    · exact Nat.lt_succ_of_lt (ih h)

end Reader

def read? (text : String) : Option Json := do
  let tokens ← Token.scan text.toList
  let reader ← Reader.start.run tokens
  reader.result?

end LoadPlan.Json
