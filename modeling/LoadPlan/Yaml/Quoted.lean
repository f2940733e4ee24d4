import LoadPlan.Yaml.Fold
import LoadPlan.Json.Escape

/-! Quoted scalars. Single quotes are doubled inside; double-quoted text has escapes. -/
namespace LoadPlan.Yaml

/-- Reads after the opening quote; `closing` tells that a quote has just been passed. -/
def scanSingle (f : Folded) (closing : Bool) : List Cell → Option (String × List Cell)
  | [] => if closing then some (f.text, []) else none
  | c :: rest =>
    if closing then
      if c.char == '\'' then scanSingle (f.push '\'') false rest else some (f.text, c :: rest)
    else if Cell.atDocumentMark (c :: rest) then none
    else if isGap c.char then scanSingle (f.pass c.char) false rest
    else if c.char == '\'' then scanSingle f.settle true rest
    else scanSingle (f.push c.char) false rest

/-- Where a double-quoted scalar stands: in text, after a backslash, or within the digits of a
numbered escape. -/
inductive QuoteState where
  | text
  | escape
  | digits (left : Nat) (value : Nat)

/-- The character of a one-letter escape. -/
def namedEscape? (c : Char) : Option Char :=
  match c with
  | '0' => some '\x00'
  | 'a' => some '\x07'
  | 'b' => some '\x08'
  | 't' => some '\t'
  | '\t' => some '\t'
  | 'n' => some '\n'
  | 'v' => some '\x0b'
  | 'f' => some '\x0c'
  | 'r' => some '\r'
  | 'e' => some '\x1b'
  | ' ' => some ' '
  | '"' => some '"'
  | '/' => some '/'
  | '\\' => some '\\'
  | 'N' => some '\u0085'
  | '_' => some '\u00a0'
  | 'L' => some '\u2028'
  | 'P' => some '\u2029'
  | _ => none

def escapeDigits? (c : Char) : Option Nat :=
  match c with
  | 'x' => some 2
  | 'u' => some 4
  | 'U' => some 8
  | _ => none

/-- Surrogates and numbers beyond U+10FFFF are no characters. -/
def codePoint? (n : Nat) : Option Char := if n.isValidChar then some (Char.ofNat n) else none

/-- Reads after the opening quote. An escaped line break vanishes with the blanks after it. -/
def scanDouble (f : Folded) (state : QuoteState) : List Cell → Option (String × List Cell)
  | [] => none
  | c :: rest =>
    match state with
    | .escape =>
      if isBreak c.char then scanDouble ⟨f.done, .breaks none []⟩ .text rest
      else match escapeDigits? c.char, namedEscape? c.char with
        | some count, _ => scanDouble f (.digits count 0) rest
        | none, some d => scanDouble (f.push d) .text rest
        | none, none => none
    | .digits left value =>
      match Json.hexValue? c.char with
      | none => none
      | some d =>
        let value := value * 16 + d
        if left ≤ 1 then
          match codePoint? value with
          | some d => scanDouble (f.push d) .text rest
          | none => none
        else scanDouble f (.digits (left - 1) value) rest
    | .text =>
      if Cell.atDocumentMark (c :: rest) then none
      else if isGap c.char then scanDouble (f.pass c.char) .text rest
      else if c.char == '"' then some (f.settle.text, rest)
      else if c.char == '\\' then scanDouble f.settle .escape rest
      else scanDouble (f.push c.char) .text rest

end LoadPlan.Yaml
