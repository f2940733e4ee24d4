import LoadPlan.Proofs.Json.Fields
import LoadPlan.Proofs.Yaml.Reading
import LoadPlan.Yaml.Reader

/-! Entries of mappings. Every entry written in a mapping is a field of its object, in the order
written, but for what a merge key moves and for keys that are different and have one text. -/
namespace LoadPlan.Yaml

namespace Value

/-- Values in whose mappings, however deep, keys differ. -/
inductive Distinct : Value → Prop
  | scalar : Distinct (.scalar s)
  | sequence (inner : ∀ item ∈ items, Distinct item) : Distinct (.sequence items)
  | mapping (differ : KeysDiffer entries) (inner : ∀ entry ∈ entries, Distinct entry.2) :
      Distinct (.mapping entries)
  | tagged (inner : Distinct value) : Distinct (.tagged tag value)

/-- The entries of a mapping other than its merge key. -/
def written (entries : List (Value × Value)) : List (Value × Value) :=
  entries.filter fun entry => !entry.1.same mergeKey

/-- The keys of a mapping, or of a list of mappings. -/
def keysWithin : Value → List Value
  | .mapping entries => entries.map Prod.fst
  | .sequence items => items.flatMap fun
    | .mapping entries => entries.map Prod.fst
    | _ => []
  | _ => []

/-- The keys that the merge key of a mapping brings. -/
def keysBrought (entries : List (Value × Value)) : List Value :=
  match entries.find? fun entry => entry.1.same mergeKey with
  | some entry => keysWithin entry.2
  | none => []

/-- One entry alone is written with a text for its key, and no other key with that text is brought. -/
def isOwnText (entries : List (Value × Value)) (text : String) : Bool :=
  match (written entries).filter (·.1.keyText == text) with
  | [entry] => (keysBrought entries).all fun key => key.keyText != text || entry.1.same key
  | _ => false

/-- The order that the entries written in a mapping have in its object: that of the text, except that
the last one goes where a merge key was. -/
inductive Arranged : List (Value × Value) → List (Value × Value) → Prop where
  | unmerged : (∀ entry ∈ entries, entry.1.same mergeKey = false) → Arranged entries entries
  | mergedLast : (∀ entry ∈ before, entry.1.same mergeKey = false) →
      Arranged (before ++ [(mergeKey, source)]) before
  | merged : (∀ entry ∈ before ++ between ++ [last], entry.1.same mergeKey = false) →
      Arranged (before ++ (mergeKey, source) :: (between ++ [last])) (before ++ last :: between)

/-- An entry with its value in an object. -/
structure Part where
  key : Value
  value : Value
  json : Json

def Part.entry (part : Part) : Value × Value := (part.key, part.value)

def Part.field (part : Part) : String × Json := (part.key.keyText, part.json)

/-- The JSON value for a value keeps what is written there: in a mapping, each entry's key is there,
and those that have their texts to themselves are there with their own values, as arranged. -/
inductive Keeps : Value → Json → Prop where
  | scalar : Keeps (.scalar s) s.toJson
  | sequence : List.Forall₂ Keeps items values → Keeps (.sequence items) (.array values)
  | tagged : Keeps value json → Keeps (.tagged tag value) json
  | mapping (parts : List Part) : Arranged entries (parts.map Part.entry) →
      (∀ part ∈ parts, Keeps part.value part.json) →
      (∀ part ∈ parts, part.key.keyText ∈ fields.map Prod.fst) →
      fields.filter (fun field => isOwnText entries field.1) =
        (parts.map Part.field).filter (fun field => isOwnText entries field.1) →
      Keeps (.mapping entries) (.object fields)

end Value

namespace Node

theorem applyTag_distinct (p : Properties) {value : Value} (distinct : value.Distinct) :
    (applyTag p value).Distinct := by
  unfold applyTag
  split
  · exact .tagged distinct
  · exact distinct

theorem forall₂_distinct {nodes : List Node} {values : List Value}
    (each : List.Forall₂ (fun _ value => value.Distinct) nodes values) :
    ∀ value ∈ values, value.Distinct := by
  induction each with
  | nil => exact List.forall_mem_nil _
  | cons first _ ih => exact List.forall_mem_cons.mpr ⟨first, ih⟩

theorem distinct_compositional (table : List (Nat × Node)) :
    Compositional table fun _ value => value.Distinct where
  replaced _ distinct := distinct
  scalar _ := applyTag_distinct _ .scalar
  sequence each := applyTag_distinct _ (.sequence (forall₂_distinct each))
  mapping _ each differ := applyTag_distinct _ (.mapping differ fun entry member =>
    forall₂_distinct each entry.2 (List.mem_map_of_mem member))

end Node

namespace Value

theorem same_mergeKey {key : Value} : key.same mergeKey = true ↔ key = mergeKey := by
  cases key with
  | scalar s => cases s <;> simp [same, Scalar.same, mergeKey]
  | sequence | mapping | tagged => simp [same, mergeKey]

theorem mergedParts_eq (entries : List (Value × Value)) :
    mergedParts entries = entries.map fun entry => (entry.1, entry.2.merged?) := by
  induction entries with
  | nil => rfl
  | cons entry rest ih => rw [mergedParts, ih, List.map_cons]

theorem spreadOfItems_keys {items : List Value} (brought : spreadOfItems items = some more) :
    more.map Prod.fst = keysWithin (.sequence items) := by
  induction items generalizing more with
  | nil =>
    cases brought
    rfl
  | cons item rest ih =>
    cases item with
    | mapping entries =>
      obtain ⟨others, later, rfl⟩ := Option.map_eq_some_iff.mp brought
      simp [mergedParts_eq, ih later, keysWithin, Function.comp_def]
    | scalar | sequence | tagged => cases brought

theorem spreadOf_keys {entries : List (Value × Value)} (brought : spreadOf entries = some more) :
    more.map Prod.fst = keysBrought entries := by
  induction entries with
  | nil =>
    cases brought
    rfl
  | cons entry rest ih =>
    obtain ⟨key, source⟩ := entry
    rw [spreadOf] at brought
    rw [keysBrought, List.find?_cons]
    split at brought
    · rename_i merging
      rw [merging]
      cases source with
      | mapping entries =>
        cases brought
        simp [mergedParts_eq, keysWithin, Function.comp_def]
      | sequence items => exact spreadOfItems_keys brought
      | scalar | tagged => cases brought
    · rename_i other
      rw [Bool.eq_false_iff.mpr other]
      exact ih brought

section
variable {entries more result : List (Value × α)}

/-- Entries are added at the end, and none has a key that is there. -/
theorem addMissing_eq (entries more : List (Value × α)) :
    ∃ added, addMissing entries more = entries ++ added ∧ ∀ entry ∈ added, entry ∈ more ∧
      ∀ old ∈ entries, old.1.same entry.1 = false := by
  unfold addMissing
  induction more generalizing entries with
  | nil => exact ⟨[], (List.append_nil _).symm, List.forall_mem_nil _⟩
  | cons first rest ih =>
    rw [List.foldl_cons]
    split
    · obtain ⟨added, joined, each⟩ := ih entries
      exact ⟨added, joined, fun entry member =>
        (each entry member).imp_left (List.mem_cons_of_mem _)⟩
    · rename_i new
      obtain ⟨added, joined, each⟩ := ih (entries ++ [first])
      refine ⟨first :: added, by simpa using joined, List.forall_mem_cons.mpr ⟨?_, ?_⟩⟩
      · refine ⟨List.mem_cons_self, fun old member => ?_⟩
        simpa using List.any_eq_false.mp (Bool.not_eq_true _ ▸ new) old member
      · intro entry member
        obtain ⟨here, unlike⟩ := each entry member
        exact ⟨List.mem_cons_of_mem _ here, fun old among =>
          unlike old (List.mem_append_left _ among)⟩

theorem removeAt_last (before : List (Value × α)) (entry : Value × α) :
    removeAt (before ++ [entry]) before.length = before := by
  simp [removeAt]

theorem removeAt_inner (before between : List (Value × α)) (entry last : Value × α) :
    removeAt (before ++ entry :: (between ++ [last])) before.length =
      before ++ last :: between := by
  have ends : before ++ entry :: (between ++ [last]) = (before ++ entry :: between) ++ [last] := by
    rw [List.append_assoc, List.cons_append]
  rw [ends, removeAt, List.getLast?_concat, List.dropLast_concat]
  simp

theorem findIdx?_split {p : β → Bool} {entries : List β} {index : Nat}
    (found : entries.findIdx? p = some index) :
    ∃ before entry after, entries = before ++ entry :: after ∧ before.length = index ∧
      p entry = true ∧ ∀ other ∈ before, p other = false := by
  induction entries generalizing index with
  | nil => cases found
  | cons first rest ih =>
    rw [List.findIdx?_cons] at found
    split at found
    · rename_i here
      cases found
      exact ⟨[], first, rest, rfl, rfl, here, List.forall_mem_nil _⟩
    · rename_i elsewhere
      obtain ⟨later, deeper, rfl⟩ := Option.map_eq_some_iff.mp found
      obtain ⟨before, entry, after, rfl, rfl, here, none⟩ := ih deeper
      exact ⟨first :: before, entry, after, rfl, rfl, here,
        List.forall_mem_cons.mpr ⟨Bool.eq_false_iff.mpr elsewhere, none⟩⟩

end

/-- What becomes of parts when their merge key is settled, the parts being those of a mapping. -/
theorem spreadOut_arranged {entries : List (Value × Value)} {f : Value × Value → Value × α}
    (keyed : ∀ entry, (f entry).1 = entry.1) (differ : KeysDiffer entries)
    (settled : spreadOut (entries.map f) spread = some result) :
    ∃ order added, Arranged entries order ∧ result = order.map f ++ added ∧
      ∀ entry ∈ added, (∃ more, spread = some more ∧ entry ∈ more) ∧
        ∀ old ∈ order, old.1.same entry.1 = false := by
  unfold spreadOut at settled
  rw [List.findIdx?_map] at settled
  simp only [Function.comp_def, keyed] at settled
  split at settled
  · rename_i absent
    cases settled
    refine ⟨entries, [], .unmerged ?_, (List.append_nil _).symm, List.forall_mem_nil _⟩
    exact List.findIdx?_eq_none_iff.mp absent
  · rename_i index found
    obtain ⟨more, brought, rfl⟩ := Option.map_eq_some_iff.mp settled
    obtain ⟨before, ⟨key, source⟩, after, rfl, rfl, merging, earlier⟩ := findIdx?_split found
    obtain rfl : key = mergeKey := same_mergeKey.mp merging
    have later : ∀ entry ∈ after, entry.1.same mergeKey = false := by
      intro entry member
      have unlike := List.rel_of_pairwise_cons (List.pairwise_append.mp differ).2.1 member
      refine Bool.eq_false_iff.mpr fun again => ?_
      rw [same_mergeKey.mp again] at unlike
      cases unlike
    have rest : ∃ order, Arranged (before ++ (mergeKey, source) :: after) order ∧
        removeAt ((before ++ (mergeKey, source) :: after).map f) before.length = order.map f := by
      have length : before.length = (before.map f).length := (List.length_map f).symm
      rw [List.map_append, List.map_cons, length]
      rcases List.eq_nil_or_concat' after with rfl | ⟨between, last, rfl⟩
      · exact ⟨before, .mergedLast earlier, removeAt_last _ _⟩
      · refine ⟨before ++ last :: between, .merged ?_, ?_⟩
        · rw [List.append_assoc]
          exact List.forall_mem_append.mpr ⟨earlier, later⟩
        · rw [List.map_append, List.map_singleton, removeAt_inner]
          simp
    obtain ⟨order, arranged, moved⟩ := rest
    rw [moved]
    obtain ⟨added, joined, each⟩ := addMissing_eq (order.map f) more
    refine ⟨order, added, arranged, joined, fun entry member => ?_⟩
    obtain ⟨among, unlike⟩ := each entry member
    refine ⟨⟨more, brought, among⟩, fun old here => ?_⟩
    rw [← keyed old]
    exact unlike (f old) (List.mem_map_of_mem here)

theorem sequenceEntries_eq {parts : List (Value × Option Value)}
    (settled : sequenceEntries parts = some entries) :
    parts = entries.map fun entry => (entry.1, some entry.2) := by
  induction parts generalizing entries with
  | nil =>
    cases settled
    rfl
  | cons part rest ih =>
    obtain ⟨key, content⟩ := part
    obtain ⟨value, here, settled⟩ := Option.bind_eq_some_iff.mp settled
    obtain ⟨others, later, settled⟩ := Option.bind_eq_some_iff.mp settled
    cases settled
    rw [List.map_cons, ← ih later, show content = some value from here]

theorem toJsonFields_eq (entries : List (Value × Value)) :
    toJsonFields entries = entries.map fun entry => (entry.1.keyText, entry.2.toJson) := by
  induction entries with
  | nil => rfl
  | cons entry rest ih => rw [toJsonFields, ih, List.map_cons]

theorem written_eq_self {entries : List (Value × Value)}
    (none : ∀ entry ∈ entries, entry.1.same mergeKey = false) : written entries = entries :=
  List.filter_eq_self.mpr fun entry member => by rw [none entry member, Bool.not_false]

theorem written_merged {before after : List (Value × Value)}
    (none : ∀ entry ∈ before ++ after, entry.1.same mergeKey = false) (source : Value) :
    written (before ++ (mergeKey, source) :: after) = before ++ after := by
  have dropped : written (before ++ (mergeKey, source) :: after) = written (before ++ after) := by
    unfold written
    rw [List.filter_append, List.filter_append]
    rfl
  rw [dropped, written_eq_self none]

theorem Arranged.perm (arranged : Arranged entries order) : order.Perm (written entries) := by
  cases arranged with
  | unmerged none => rw [written_eq_self none]
  | @mergedLast before source none =>
    rw [written_merged (by simpa using none), List.append_nil]
  | @merged before between last source none =>
    rw [written_merged (List.append_assoc .. ▸ none)]
    exact List.Perm.append_left before (List.perm_append_singleton last between).symm

/-- Entries keep the order in which they are written where at most one follows a merge key. -/
theorem Arranged.eq_written (arranged : Arranged entries order)
    (near : ∀ before source after, entries = before ++ (mergeKey, source) :: after →
      after.length ≤ 1) : order = written entries := by
  cases arranged with
  | unmerged none => rw [written_eq_self none]
  | @mergedLast before source none =>
    rw [written_merged (by simpa using none), List.append_nil]
  | @merged before between last source none =>
    have short := near before source _ rfl
    rw [List.length_append, List.length_singleton] at short
    obtain rfl : between = [] := List.length_eq_zero_iff.mp (by omega)
    rw [written_merged (List.append_assoc .. ▸ none)]
    rfl

theorem parts_of_settled {order kept : List (Value × Value)}
    (same : kept.map (fun entry => (entry.1, some entry.2)) =
      order.map fun entry => (entry.1, entry.2.merged?))
    (each : ∀ entry ∈ order, ∀ value, entry.2.merged? = some value → Keeps entry.2 value.toJson) :
    ∃ parts : List Part, parts.map Part.entry = order ∧
      parts.map Part.field = toJsonFields kept ∧ ∀ part ∈ parts, Keeps part.value part.json := by
  induction order generalizing kept with
  | nil =>
    cases List.map_eq_nil_iff.mp same
    exact ⟨[], rfl, rfl, List.forall_mem_nil _⟩
  | cons entry rest ih =>
    obtain ⟨key, value⟩ := entry
    cases kept with
    | nil => cases same
    | cons first others =>
      obtain ⟨head, tail⟩ := List.cons_eq_cons.mp same
      obtain ⟨named, settled⟩ := Prod.mk.inj head
      obtain ⟨parts, rfl, fields, keep⟩ :=
        ih tail fun entry member => each entry (List.mem_cons_of_mem _ member)
      have here := each (key, value) List.mem_cons_self first.2 settled.symm
      refine ⟨⟨key, value, first.2.toJson⟩ :: parts, rfl, ?_, List.forall_mem_cons.mpr ⟨here, keep⟩⟩
      rw [List.map_cons, fields, toJsonFields_eq, toJsonFields_eq, List.map_cons, named]
      rfl

/-- A text that an entry written in a mapping has to itself is not brought by another key. -/
theorem isOwnText_brought {entries : List (Value × Value)} (brought : key ∈ keysBrought entries)
    (unlike : ∀ old ∈ written entries, old.1.same key = false) :
    isOwnText entries key.keyText = false := by
  unfold isOwnText
  split
  · rename_i entry only
    have member : entry ∈ written entries :=
      (List.mem_filter.mp (only ▸ List.mem_singleton_self entry)).1
    refine List.all_eq_false.mpr ⟨key, brought, ?_⟩
    simp [unlike entry member]
  · rfl

theorem isOwnText_single {entries : List (Value × Value)} (own : isOwnText entries text = true) :
    ((written entries).filter (·.1.keyText == text)).length = 1 := by
  unfold isOwnText at own
  split at own
  · rename_i only
    rw [only, List.length_singleton]
  · cases own

/-- The fields of a mapping's object, those that stand for its entries first. -/
theorem keeps_mapping {entries : List (Value × Value)} {parts : List Part}
    (arranged : Arranged entries (parts.map Part.entry))
    (each : ∀ part ∈ parts, Keeps part.value part.json)
    (brought : ∀ entry ∈ more, entry.1 ∈ keysBrought entries ∧
      ∀ part ∈ parts, part.key.same entry.1 = false) :
    Keeps (.mapping entries) (.ofFields (parts.map Part.field ++ toJsonFields more)) := by
  have foreign : ∀ field ∈ toJsonFields more, isOwnText entries field.1 = false := by
    intro field member
    rw [toJsonFields_eq] at member
    obtain ⟨entry, among, rfl⟩ := List.mem_map.mp member
    obtain ⟨known, unlike⟩ := brought entry among
    refine isOwnText_brought known fun old here => ?_
    obtain ⟨part, standing, rfl⟩ := List.mem_map.mp (arranged.perm.symm.subset here)
    exact unlike part standing
  have single : ∀ name, isOwnText entries name →
      ((parts.map Part.field ++ toJsonFields more).filter (·.1 == name)).length ≤ 1 := by
    intro name own
    have none : (toJsonFields more).filter (·.1 == name) = [] := by
      refine List.filter_eq_nil_iff.mpr fun field member named => ?_
      rw [← eq_of_beq named, foreign field member] at own
      cases own
    have one := isOwnText_single own
    rw [← (arranged.perm.filter fun entry => entry.1.keyText == name).length_eq, List.filter_map,
      List.length_map] at one
    rw [List.filter_append, none, List.append_nil, List.filter_map, List.length_map]
    exact Nat.le_of_eq one
  have unowned : (toJsonFields more).filter (fun field => isOwnText entries field.1) = [] :=
    List.filter_eq_nil_iff.mpr fun field member own =>
      Bool.false_ne_true ((foreign field member).symm.trans own)
  refine .mapping parts arranged each ?_ ?_
  · intro part member
    refine Json.mem_keys_foldl_insert.mpr (.inr ?_)
    rw [List.map_append]
    exact List.mem_append_left _ (List.mem_map_of_mem (List.mem_map_of_mem member))
  · rw [Json.filter_foldl_insert (by simpa only [List.nil_append] using single), List.nil_append,
      List.filter_append, unowned, List.append_nil]

theorem forall₂_keeps {items : List Value} (settled : mergedItems? items = some values)
    (each : ∀ item ∈ items, ∀ value, item.merged? = some value → Keeps item value.toJson) :
    List.Forall₂ Keeps items (toJsonItems values) := by
  induction items generalizing values with
  | nil =>
    cases settled
    exact .nil
  | cons item rest ih =>
    obtain ⟨value, here, settled⟩ := Option.bind_eq_some_iff.mp settled
    obtain ⟨others, later, settled⟩ := Option.bind_eq_some_iff.mp settled
    cases settled
    exact .cons (each item List.mem_cons_self value here)
      (ih later fun item member => each item (List.mem_cons_of_mem _ member))

theorem merged?_keeps {value settled : Value} (distinct : value.Distinct)
    (merged : value.merged? = some settled) : Keeps value settled.toJson := by
  induction distinct generalizing settled with
  | scalar =>
    cases merged
    exact .scalar
  | sequence inner ih =>
    obtain ⟨values, each, rfl⟩ := Option.map_eq_some_iff.mp merged
    exact .sequence (forall₂_keeps each fun item member _ => ih item member)
  | tagged inner ih =>
    obtain ⟨content, within, rfl⟩ := Option.map_eq_some_iff.mp merged
    rw [toJson]
    exact .tagged (ih within)
  | @mapping entries differ inner ih =>
    obtain ⟨result, spread, settling⟩ := Option.bind_eq_some_iff.mp merged
    obtain ⟨final, sequenced, rfl⟩ := Option.map_eq_some_iff.mp settling
    rw [mergedParts_eq] at spread
    obtain ⟨order, added, arranged, joined, brought⟩ :=
      spreadOut_arranged (f := fun entry => (entry.1, entry.2.merged?)) (fun _ => rfl) differ spread
    rw [sequenceEntries_eq sequenced] at joined
    obtain ⟨kept, more, rfl, own, others⟩ := List.map_eq_append_iff.mp joined
    obtain ⟨parts, rfl, fields, keep⟩ := parts_of_settled own fun entry member _ =>
      ih entry (List.mem_filter.mp (arranged.perm.subset member)).1
    have object : toJson (.mapping (kept ++ more)) =
        .ofFields (parts.map Part.field ++ toJsonFields more) := by
      rw [toJson, toJsonFields_eq, List.map_append, ← toJsonFields_eq, ← toJsonFields_eq, fields]
    rw [object]
    refine keeps_mapping arranged keep fun entry member => ?_
    have standing : (entry.1, some entry.2) ∈ added := others ▸ List.mem_map_of_mem member
    obtain ⟨⟨source, spreads, among⟩, unlike⟩ := brought _ standing
    exact ⟨spreadOf_keys spreads ▸ List.mem_map_of_mem among, fun part here =>
      unlike _ (List.mem_map_of_mem here)⟩

end Value

/-- A text that is read as YAML has a tree, with a value for it, that the JSON value keeps. -/
theorem readJson?_keeps (read : readJson? text = some json) :
    ∃ root value, Node.read? text = some root ∧ Node.Denotes root.anchorTable root value ∧
      Value.Keeps value json := by
  obtain ⟨value, found, read⟩ := Option.bind_eq_some_iff.mp read
  obtain ⟨settled, merged, read⟩ := Option.bind_eq_some_iff.mp read
  obtain ⟨root, parsed, valued⟩ := Option.bind_eq_some_iff.mp found
  cases read
  exact ⟨root, value, parsed, Node.value?_denotes valued,
    Value.merged?_keeps (Node.value?_gives (Node.distinct_compositional _) valued) merged⟩

end LoadPlan.Yaml
