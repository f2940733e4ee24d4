import LoadPlan.Json.Value
import LoadPlan.Number.Decimal

/-! Written forms of JSON values: the compact one, and the indented one used for request bodies. -/
namespace LoadPlan.Json

/-- Floats keep a fraction and are written without a power of ten from 10^-5 to below 10^16. -/
def floatLayout : Decimal.Layout := ⟨-5, 16, true⟩

def hexDigit (n : Nat) : Char := if n < 10 then Char.ofNat (48 + n) else Char.ofNat (87 + n)

/-- Quotes, backslashes and control characters are escaped, all else stands as it is. -/
def escapeChar (c : Char) : List Char :=
  match c with
  | '"' => ['\\', '"']
  | '\\' => ['\\', '\\']
  | '\x08' => ['\\', 'b']
  | '\x0c' => ['\\', 'f']
  | '\n' => ['\\', 'n']
  | '\r' => ['\\', 'r']
  | '\t' => ['\\', 't']
  | c =>
    if c.toNat < 0x20 then
      ['\\', 'u', '0', '0', hexDigit (c.toNat / 16), hexDigit (c.toNat % 16)]
    else [c]

def quote (text : String) : String :=
  String.ofList ('"' :: (text.toList.flatMap escapeChar ++ ['"']))

/-- Text of a value without parts. -/
def scalarText : Json → String
  | .null => "null"
  | .bool value => if value then "true" else "false"
  | .int value => toString value
  | .float value => floatLayout.write value
  | .string text => quote text
  | .array _ => "[]"
  | .object _ => "\x7b\x7d"

mutual
def compact : Json → String
  | .array items => "[" ++ String.intercalate "," (compactItems items) ++ "]"
  | .object fields => "\x7b" ++ String.intercalate "," (compactFields fields) ++ "\x7d"
  | value => scalarText value

def compactItems : List Json → List String
  | [] => []
  | item :: rest => compact item :: compactItems rest

def compactFields : List (String × Json) → List String
  | [] => []
  | (key, value) :: rest => (quote key ++ ":" ++ compact value) :: compactFields rest
end

def indent (level : Nat) : String := String.ofList (List.replicate (2 * level) ' ')

mutual
/-- Each item and field has a line of its own, two spaces further in; empty ones have none. -/
def indented (level : Nat) : Json → String
  | .array (item :: rest) =>
    "[\n" ++ String.intercalate ",\n" (indentedItems (level + 1) (item :: rest)) ++
      "\n" ++ indent level ++ "]"
  | .object (field :: rest) =>
    "\x7b\n" ++ String.intercalate ",\n" (indentedFields (level + 1) (field :: rest)) ++
      "\n" ++ indent level ++ "\x7d"
  | value => scalarText value

def indentedItems (level : Nat) : List Json → List String
  | [] => []
  | item :: rest => (indent level ++ indented level item) :: indentedItems level rest

def indentedFields (level : Nat) : List (String × Json) → List String
  | [] => []
  | (key, value) :: rest =>
    (indent level ++ quote key ++ ": " ++ indented level value) :: indentedFields level rest
end

/-- The text of a request body. -/
def bodyText (value : Json) : String := indented 0 value

end LoadPlan.Json
