import LoadPlan.Yaml.Value

/-! Merge keys. An entry `<<` of a mapping is replaced by the entries of the mappings it names, as
far as their keys are new: the last entry of the mapping takes its place, and new entries follow
at the end. Mappings are treated from the outside in, so an entry `<<` that comes with a merge
stays. -/
namespace LoadPlan.Yaml.Value

def mergeKey : Value := .scalar (.string "<<")

/-- The entry at a place is removed and the last one moved there. -/
def removeAt (entries : List (Value × α)) (place : Nat) : List (Value × α) :=
  match entries.getLast? with
  | none => []
  | some last =>
    if place + 1 = entries.length then entries.dropLast else entries.dropLast.set place last

/-- Entries with new keys go last. -/
def addMissing (entries more : List (Value × α)) : List (Value × α) :=
  more.foldl
    (fun done entry => if done.any (fun e => e.1.same entry.1) then done else done ++ [entry])
    entries

/-- What stands under a merge key: the entries to add, when it is a mapping or a list of them. -/
abbrev Spread (α : Type) := Option (List (Value × α))

def mergeInto (entries : List (Value × α)) (spread : Spread α) (place : Nat) :
    Option (List (Value × α)) :=
  spread.map fun more => addMissing (removeAt entries place) more

/-- The entries of a mapping whose parts are still to be settled, once its merge key is. -/
def spreadOut (entries : List (Value × α)) (spread : Spread α) : Option (List (Value × α)) :=
  match entries.findIdx? fun entry => entry.1.same mergeKey with
  | none => some entries
  | some place => mergeInto entries spread place

def sequenceEntries : List (Value × Option Value) → Option (List (Value × Value))
  | [] => some []
  | (key, value) :: rest => do
    let value ← value
    let rest ← sequenceEntries rest
    some ((key, value) :: rest)

mutual
/-- The value with all merge keys applied, or none if one stands over something else. -/
def merged? : Value → Option Value
  | .scalar s => some (.scalar s)
  | .sequence items => (mergedItems? items).map .sequence
  | .mapping entries => do
    let parts := mergedParts entries
    let spread := spreadOf entries
    let entries ← spreadOut parts spread
    (sequenceEntries entries).map .mapping
  | .tagged tag value => (merged? value).map (.tagged tag)

def mergedItems? : List Value → Option (List Value)
  | [] => some []
  | item :: rest => do
    let item ← merged? item
    let rest ← mergedItems? rest
    some (item :: rest)

/-- Each entry with its value settled, or not to be. -/
def mergedParts : List (Value × Value) → List (Value × Option Value)
  | [] => []
  | (key, value) :: rest => (key, merged? value) :: mergedParts rest

/-- What the merge key of these entries brings; nothing where there is none. -/
def spreadOf : List (Value × Value) → Spread (Option Value)
  | [] => some []
  | (key, value) :: rest => if key.same mergeKey then spreadOfValue value else spreadOf rest

def spreadOfValue : Value → Spread (Option Value)
  | .mapping entries => some (mergedParts entries)
  | .sequence items => spreadOfItems items
  | _ => none

def spreadOfItems : List Value → Spread (Option Value)
  | [] => some []
  | .mapping entries :: rest => (spreadOfItems rest).map fun more => mergedParts entries ++ more
  | _ :: _ => none
end

end LoadPlan.Yaml.Value
