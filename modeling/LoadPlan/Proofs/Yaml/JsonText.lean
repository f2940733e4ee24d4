import LoadPlan.Proofs.Yaml.Entries
import LoadPlan.Proofs.Yaml.FlowNodes

/-! JSON texts read as YAML. Where no field `<<` stands over objects, nothing is merged, and the value
is that of the JSON reader. -/
namespace LoadPlan

namespace Json

def isObject : Json → Bool
  | .object _ => true
  | _ => false

/-- Fields under a merge key are those of an object, or of the objects in a list. -/
def isSpread : Json → Bool
  | .object _ => true
  | .array items => items.all isObject
  | _ => false

mutual
/-- No merge key stands over objects. -/
def isMergeless : Json → Bool
  | .array items => areMergeless items
  | .object fields => fieldsAreMergeless fields
  | _ => true

def areMergeless : List Json → Bool
  | [] => true
  | item :: rest => isMergeless item && areMergeless rest

def fieldsAreMergeless : List (String × Json) → Bool
  | [] => true
  | (key, value) :: rest =>
    !(key == "<<" && isSpread value) && isMergeless value && fieldsAreMergeless rest
end

theorem mergeless_items (mergeless : areMergeless items = true) :
    ∀ item ∈ items, item.isMergeless = true := by
  induction items with
  | nil => exact List.forall_mem_nil _
  | cons item rest ih =>
    obtain ⟨first, others⟩ := Bool.and_eq_true_iff.mp mergeless
    exact List.forall_mem_cons.mpr ⟨first, ih others⟩

theorem mergeless_fields (mergeless : fieldsAreMergeless fields = true) :
    ∀ field ∈ fields, (field.1 = "<<" → field.2.isSpread = false) ∧ field.2.isMergeless = true := by
  induction fields with
  | nil => exact List.forall_mem_nil _
  | cons field rest ih =>
    rw [fieldsAreMergeless, Bool.and_eq_true, Bool.and_eq_true] at mergeless
    obtain ⟨⟨own, inner⟩, others⟩ := mergeless
    refine List.forall_mem_cons.mpr ⟨⟨fun merges => ?_, inner⟩, ih others⟩
    simpa [merges] using own

end Json

namespace Yaml

namespace Value

/-- Values in which nothing can be merged, since no merge key stands over mappings. -/
inductive Unspread : Value → Prop
  | scalar : Unspread (.scalar s)
  | sequence (inner : ∀ item ∈ items, Unspread item) : Unspread (.sequence items)
  | mapping (none : ∀ entry ∈ entries, entry.1 = mergeKey → spreadOfValue entry.2 = none)
      (inner : ∀ entry ∈ entries, Unspread entry.2) : Unspread (.mapping entries)

theorem mergedItems?_eq {items : List Value}
    (each : ∀ item ∈ items, ∀ settled, item.merged? = some settled → settled = item)
    (merged : mergedItems? items = some values) : values = items := by
  induction items generalizing values with
  | nil =>
    cases merged
    rfl
  | cons item rest ih =>
    obtain ⟨value, here, merged⟩ := Option.bind_eq_some_iff.mp merged
    obtain ⟨others, later, merged⟩ := Option.bind_eq_some_iff.mp merged
    cases merged
    rw [each item List.mem_cons_self value here,
      ih (fun item member => each item (List.mem_cons_of_mem _ member)) later]

theorem spreadOf_eq_none {entries : List (Value × Value)} (merging : entry ∈ entries)
    (named : entry.1 = mergeKey)
    (none : ∀ entry ∈ entries, entry.1 = mergeKey → spreadOfValue entry.2 = none) :
    spreadOf entries = Option.none := by
  induction entries with
  | nil => cases merging
  | cons first rest ih =>
    obtain ⟨key, value⟩ := first
    rw [spreadOf]
    split
    · rename_i here
      exact none _ List.mem_cons_self (same_mergeKey.mp here)
    · rename_i elsewhere
      rcases List.mem_cons.mp merging with rfl | later
      · exact absurd (same_mergeKey.mpr named) elsewhere
      · exact ih later fun entry member => none entry (List.mem_cons_of_mem _ member)

theorem sequenceEntries_parts {entries kept : List (Value × Value)}
    (each : ∀ entry ∈ entries, ∀ settled, entry.2.merged? = some settled → settled = entry.2)
    (settled : sequenceEntries (mergedParts entries) = some kept) : kept = entries := by
  have same := sequenceEntries_eq settled
  rw [mergedParts_eq] at same
  clear settled
  induction entries generalizing kept with
  | nil => exact List.map_eq_nil_iff.mp same.symm
  | cons entry rest ih =>
    cases kept with
    | nil => cases same
    | cons first others =>
      obtain ⟨head, tail⟩ := List.cons_eq_cons.mp same
      obtain ⟨named, merged⟩ := Prod.mk.inj head
      have value := each entry List.mem_cons_self first.2 merged
      rw [ih (fun entry member => each entry (List.mem_cons_of_mem _ member)) tail,
        Prod.ext named.symm value]

/-- Merging leaves such a value as it is, or fails. -/
theorem merged?_unspread {value settled : Value} (unspread : value.Unspread)
    (merged : value.merged? = some settled) : settled = value := by
  induction unspread generalizing settled with
  | scalar =>
    cases merged
    rfl
  | sequence inner ih =>
    obtain ⟨values, each, rfl⟩ := Option.map_eq_some_iff.mp merged
    rw [mergedItems?_eq (fun item member _ => ih item member) each]
  | @mapping entries none inner ih =>
    obtain ⟨result, spread, settling⟩ := Option.bind_eq_some_iff.mp merged
    obtain ⟨final, sequenced, rfl⟩ := Option.map_eq_some_iff.mp settling
    rw [spreadOut, mergedParts_eq, List.findIdx?_map] at spread
    split at spread
    · cases spread
      rw [← mergedParts_eq] at sequenced
      rw [sequenceEntries_parts (fun entry member _ => ih entry member) sequenced]
    · rename_i found
      obtain ⟨_, brought, -⟩ := Option.map_eq_some_iff.mp spread
      obtain ⟨_, entry, _, rfl, -, merging, -⟩ := findIdx?_split found
      rw [spreadOf_eq_none (List.mem_append_right _ List.mem_cons_self)
        (same_mergeKey.mp merging) none] at brought
      cases brought

theorem toJsonItems_eq (items : List Value) : toJsonItems items = items.map toJson := by
  induction items with
  | nil => rfl
  | cons item rest ih => rw [toJsonItems, ih, List.map_cons]

/-- What a merge key can bring is an object or a list of objects. -/
theorem spreadOfValue_eq_none {value : Value} (none : value.toJson.isSpread = false) :
    spreadOfValue value = Option.none := by
  have items {items : List Value} (none : (items.map toJson).all Json.isObject = false) :
      spreadOfItems items = Option.none := by
    induction items with
    | nil => cases none
    | cons item rest ih =>
      cases item with
      | mapping entries =>
        rw [spreadOfItems, ih none]
        rfl
      | scalar | sequence | tagged => rfl
  cases value with
  | scalar | tagged => rfl
  | sequence values =>
    rw [toJson, toJsonItems_eq] at none
    exact items none
  | mapping => cases none

end Value

/-- What is read off a node that is written like a JSON value. -/
structure Node.Reads (node : Node) (value : Value) : Prop where
  text : ∀ text, node = .scalar .none text .quoted → value = .scalar (.string text)
  json : ∀ json, Spells node json → json.isMergeless = true → value.toJson = json ∧ value.Unspread

namespace Node

theorem reads_items {nodes : List Node} {values : List Value} (each : List.Forall₂ Reads nodes values)
    {items : List Json} (spelt : List.Forall₂ Spells nodes items)
    (mergeless : ∀ item ∈ items, item.isMergeless = true) :
    values.map Value.toJson = items ∧ ∀ value ∈ values, value.Unspread := by
  induction each generalizing items with
  | nil =>
    cases spelt
    exact ⟨rfl, List.forall_mem_nil _⟩
  | cons first _ ih =>
    cases spelt with
    | cons head tail =>
      obtain ⟨own, others⟩ := List.forall_mem_cons.mp mergeless
      obtain ⟨rfl, here⟩ := first.json _ head own
      obtain ⟨rfl, later⟩ := ih tail others
      exact ⟨rfl, List.forall_mem_cons.mpr ⟨here, later⟩⟩

theorem reads_keys {fields : List (String × Json)} {keys : List Value}
    (each : List.Forall₂ Reads (fields.map fieldKey) keys) :
    keys = fields.map fun field => .scalar (.string field.1) := by
  induction fields generalizing keys with
  | nil =>
    cases each
    rfl
  | cons field rest ih =>
    cases each with
    | cons first others => rw [List.map_cons, ← ih others, first.text field.1 rfl]

theorem nodup_of_keysDiffer {pairs : List (Value × Value)} {fields : List (String × Json)}
    (keys : pairs.map Prod.fst = fields.map fun field => .scalar (.string field.1))
    (differ : Value.KeysDiffer pairs) : (fields.map Prod.fst).Nodup := by
  have unlike : (pairs.map Prod.fst).Pairwise fun earlier later => earlier.same later = false :=
    List.pairwise_map.mpr differ
  rw [keys, List.pairwise_map] at unlike
  refine List.pairwise_map.mpr (unlike.imp fun different same => ?_)
  rw [same] at different
  simp [Value.same, Scalar.same] at different

theorem toJsonFields_of_keys {pairs : List (Value × Value)} {fields : List (String × Json)}
    (keys : pairs.map Prod.fst = fields.map fun field => .scalar (.string field.1))
    (values : (pairs.map Prod.snd).map Value.toJson = fields.map Prod.snd) :
    Value.toJsonFields pairs = fields := by
  induction pairs generalizing fields with
  | nil => exact (List.map_eq_nil_iff.mp keys.symm).symm
  | cons pair rest ih =>
    cases fields with
    | nil => cases keys
    | cons field fields =>
      obtain ⟨named, names⟩ := List.cons.inj keys
      obtain ⟨valued, contents⟩ := List.cons.inj values
      obtain ⟨key, value⟩ := pair
      have same : (key.keyText, value.toJson) = field := by
        rw [show key = _ from named]
        exact Prod.ext rfl valued
      rw [Value.toJsonFields, ih names contents, same]

theorem reads_compositional (table : List (Nat × Node)) : Compositional table Reads where
  replaced _ _ := ⟨nofun, nofun⟩
  scalar read := by
    constructor
    · rintro text ⟨⟩
      cases read
      rfl
    · intro json spells _
      cases spells with
      | text =>
        cases read
        exact ⟨rfl, .scalar⟩
      | plain value => exact ⟨value _ read, .scalar⟩
  sequence each := by
    constructor
    · nofun
    · intro json spells mergeless
      cases spells with
      | sequence spelt =>
        obtain ⟨rfl, unspread⟩ := reads_items each spelt (Json.mergeless_items mergeless)
        refine ⟨?_, .sequence unspread⟩
        rw [← Value.toJsonItems_eq]
        rfl
  mapping keys values differ := by
    constructor
    · nofun
    · intro json spells mergeless
      cases spells with
      | @mapping _ fields named spelt =>
        rw [named] at keys
        have keys := reads_keys keys
        rw [Json.ofFields_eq (nodup_of_keysDiffer keys differ)] at mergeless
        have each := Json.mergeless_fields mergeless
        have inner : ∀ value ∈ fields.map Prod.snd, value.isMergeless = true :=
          List.forall_mem_map.mpr fun field member => (each field member).2
        obtain ⟨contents, unspread⟩ := reads_items values spelt inner
        have same := toJsonFields_of_keys keys contents
        refine ⟨congrArg Json.ofFields same, .mapping ?_ ?_⟩
        · rintro ⟨_, content⟩ member rfl
          rw [Value.toJsonFields_eq] at same
          have field : ("<<", content.toJson) ∈ fields := same ▸ List.mem_map_of_mem member
          exact Value.spreadOfValue_eq_none ((each _ field).1 rfl)
        · exact fun entry member => unspread _ (List.mem_map_of_mem member)

end Node

/-- A JSON text in which nothing is merged is read as YAML, if at all, with its value. -/
theorem readJson?_eq {text : String} (value : Json.read? text = some json)
    (mergeless : json.isMergeless = true) (unfolded : Unfolded text.toList)
    (agree : NumbersAgree text.toList) (read : readJson? text = some found) : found = json := by
  obtain ⟨written, valued, read⟩ := Option.bind_eq_some_iff.mp read
  obtain ⟨settled, merged, read⟩ := Option.bind_eq_some_iff.mp read
  obtain ⟨root, parsed, valued⟩ := Option.bind_eq_some_iff.mp valued
  cases read
  have spells := Node.read?_spells unfolded agree value parsed
  have reads := Node.value?_gives (Node.reads_compositional _) valued
  obtain ⟨rfl, unspread⟩ := reads.json json spells mergeless
  rw [Value.merged?_unspread unspread merged]

end Yaml
end LoadPlan
