import LoadPlan.Yaml.Fold

/-! Plain scalars, and the characters that end them. -/
namespace LoadPlan.Yaml

def isFlowMark (c : Char) : Bool :=
  c == ',' || c == '[' || c == ']' || c == '\x7b' || c == '\x7d'

/-- A colon inside a flow collection must not touch the mark after it. -/
def clashesInFlow (rest : List Cell) : Bool :=
  match rest with
  | [] => false
  | c :: _ => isFlowMark c.char || c.char == '?'

structure PlainEnd where
  text : String
  rest : List Cell
  broken : Bool

/-- Reads on while the lines stay indented; `margin` is the least column outside flow collections.
The answer is none for a tab in the margin and for a colon that clashes. -/
def scanPlain (inFlow : Bool) (margin : Nat) (f : Folded) : List Cell → Option PlainEnd
  | [] => some ⟨f.text, [], f.gap.isBroken⟩
  | c :: rest =>
    let stop := some ⟨f.text, c :: rest, f.gap.isBroken⟩
    if isGap c.char then
      if f.gap.isBroken && c.column < margin && c.char == '\t' then none
      else scanPlain inFlow margin (f.pass c.char) rest
    else if f.gap.isBroken && !inFlow && c.column < margin then stop
    else if Cell.atDocumentMark (c :: rest) then stop
    else if c.char == '#' && !f.gap.isEmpty then stop
    else if inFlow && c.char == ':' && clashesInFlow rest then none
    else if c.char == ':' && Cell.atGap rest then stop
    else if inFlow && isFlowMark c.char then stop
    else scanPlain inFlow margin (f.push c.char) rest

end LoadPlan.Yaml
