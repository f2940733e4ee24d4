import LoadPlan.Settings.Basic
import LoadPlan.Yaml.Node
import LoadPlan.Yaml.Scalar
import LoadPlan.Yaml.Value

/-! Settings files: a YAML mapping of settings, any of which may be left out or be null. Scalars are
taken as written, so that every one of them is a text. -/
namespace LoadPlan.Settings.Layer
open Yaml (Node Scalar)

/-- What an entry's value says about its setting, if that is not left open. -/
structure Written where
  tag : Option Yaml.Tag
  text : String
  style : Yaml.Style
  deriving Repr

def written? (anchors : List (Nat × Node)) : Node → Option Written
  | .scalar p text style => some ⟨p.tag, text, style⟩
  | .alias number =>
    match anchors.lookup number with
    | some (.scalar p text style) => some ⟨p.tag, text, style⟩
    | _ => none
  | _ => none

namespace Written

/-- Whether a setting is left open. The null tag has to stand before a word for null. -/
def isOpen? (w : Written) : Option Bool :=
  if w.style != .plain then some false
  else match w.tag with
    | none => some (w.text.isEmpty || Scalar.isNullWord w.text)
    | some tag =>
      if tag != .shared "null" then some false
      else if Scalar.isNullWord w.text then some true
      else none

/-- A whole number without a minus, written plainly or as a tagged literal block. -/
def count? (w : Written) : Option UInt32 :=
  if w.style == .plain || (w.style == .literal && w.tag == some (.shared "int")) then
    (Scalar.magnitude? (match w.text.toList with
      | '+' :: rest => rest
      | cs => cs)).bind Settings.count?
  else none

end Written

/-- The scalars under the keys of a mapping, which must be settings and differ. -/
def fieldsOf? (anchors : List (Nat × Node)) (entries : List (Node × Node)) :
    Option (List (String × Written)) := do
  let fields ← entries.mapM fun (key, value) => do
    let key ← written? anchors key
    let value ← written? anchors value
    some (key.text, value)
  let names := fields.map Prod.fst
  if names.all keys.contains && names.Nodup then some fields else none

/-- The setting of a key, which is open if the key is missing. -/
def setting? (fields : List (String × Written)) (key : String) (value? : Written → Option α) :
    Option (Option α) :=
  match fields.lookup key with
  | none => some none
  | some w => do if ← w.isOpen? then some none else (value? w).map some

def ofFields? (fields : List (String × Written)) : Option Layer := do
  let threads ← setting? fields Count.threads.key Written.count?
  let rampUp ← setting? fields Count.rampUp.key Written.count?
  let loops ← setting? fields Count.loops.key Written.count?
  let baseUrl ← setting? fields baseUrlKey fun w => some w.text
  let name ← setting? fields nameKey fun w => some w.text
  some { threads, rampUp, loops, baseUrl, name }

/-- A file without content leaves everything open. -/
def ofNode? (root : Node) : Option Layer :=
  match root with
  | .mapping _ entries => (fieldsOf? root.anchorTable entries).bind ofFields?
  | .scalar _ "" .plain => some empty
  | _ => none

def read? (text : String) : Option Layer := (Node.read? text).bind ofNode?

end LoadPlan.Settings.Layer
