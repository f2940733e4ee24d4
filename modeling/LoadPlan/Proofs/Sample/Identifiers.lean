import Mathlib.Data.List.Infix
import LoadPlan.Proofs.Sample.Randomness

/-! Identifiers in a sample. The schemas that take one are listed as synthesis comes to them, each with
the place that its value has in the sample. The list is made without counting, and what is counted is
just its length: the sites get the numbers from one on, in their order. -/
namespace LoadPlan

namespace Json

/-- An item or the value of a field, by its position. -/
def part? (value : Json) (i : Nat) : Option Json :=
  match value with
  | .array items => items[i]?
  | .object fields => (fields[i]?).map Prod.snd
  | _ => none

/-- What stands in a value at the end of a way through its parts. -/
def at? (value : Json) : List Nat → Option Json
  | [] => some value
  | i :: rest => (value.part? i).bind (at? · rest)

end Json

namespace Sample
open Reference (follow Trail)

/-- A name that has `id` in it, in any letter case. -/
def namesIdentifier (property : Option String) : Bool :=
  property.any fun name => ['i', 'd'] <:+: lowered name

/-- Schemas of texts and whole numbers that list no values take identifiers, under such a name. -/
def takesIdentifier (property : Option String) (schema : Schema) (type : LeafType) : Bool :=
  (type = .string ∨ type = .integer) ∧ listed? schema = none ∧ namesIdentifier property

/-- A schema that takes an identifier, and where in the sample its value is. -/
structure Site where
  place : List Nat
  schema : Schema
  type : LeafType

/-- The value at a site for a number: the number itself, or its digits brought to the lengths that the
schema declares. -/
def Site.value (site : Site) (n : Nat) : Json :=
  match site.type with
  | .string => fitted site.schema (toString n)
  | _ => .int (saturate n)

/-- The sites that synthesis comes to in their order, and whether it comes to the end of the schema
without an error. -/
structure Found where
  sites : List Site
  complete : Bool

namespace Found

def nothing : Found := ⟨[], true⟩

/-- What is found in a part of the schema. -/
def under (i : Nat) (found : Found) : Found :=
  { found with sites := found.sites.map fun site => { site with place := i :: site.place } }

/-- One part after another, the first at a position; nothing is found behind an error. -/
def inOrder (i : Nat) : List Found → Found
  | [] => nothing
  | first :: rest =>
    if first.complete then
      ⟨(first.under i).sites ++ (inOrder (i + 1) rest).sites, (inOrder (i + 1) rest).complete⟩
    else first.under i

end Found

/-- The identifiers that a node asks for, a reference standing for what it leads to wherever it occurs;
`path` are the pointers being expanded. -/
def identifiers (root : Json) (path : List String) (property : Option String) (node : Json) : Found :=
  match _ends : follow root path node with
  | .error _ => ⟨[], false⟩
  | .ok (.cycle _) => .nothing
  | .ok (.literal literal via) =>
    match _asked : form literal with
    | .fixed _ => .nothing
    | .leaf schema type =>
      if takesIdentifier property schema type then ⟨[⟨[], schema, type⟩], true⟩ else .nothing
    | .items part => (identifiers root (path ++ via) property part).under 0
    | .fields properties => .inOrder 0 <| properties.attach.map fun field =>
        identifiers root (path ++ via) (some field.val.1) field.val.2
termination_by room root root.depth (path, node)
decreasing_by
  all_goals
    obtain ⟨trail, plain⟩ := Reference.follow_literal _ends
    refine Expands.room_lt (.part trail plain ?_) (Nat.le_refl _)
    rw [_asked]
  · exact List.mem_cons_self
  · exact List.mem_map_of_mem field.property

section
variable (root : Json) (path : List String) (property : Option String)

/-- The identifiers that a form asks for. -/
def identifiersIn : Form → Found
  | .fixed _ => .nothing
  | .leaf schema type =>
    if takesIdentifier property schema type then ⟨[⟨[], schema, type⟩], true⟩ else .nothing
  | .items part => (identifiers root path property part).under 0
  | .fields properties => .inOrder 0 <| properties.map fun field =>
      identifiers root path (some field.1) field.2

variable {root path property}

theorem identifiers_error (ends : follow root path node = .error e) :
    identifiers root path property node = ⟨[], false⟩ := by
  rw [identifiers]
  split <;> simp_all

theorem identifiers_cycle (ends : follow root path node = .ok (.cycle pointer)) :
    identifiers root path property node = .nothing := by
  rw [identifiers]
  split <;> simp_all

theorem identifiers_literal (ends : follow root path node = .ok (.literal literal via)) :
    identifiers root path property node =
      identifiersIn root (path ++ via) property (form literal) := by
  rw [identifiers]
  split
  · simp_all
  · simp_all
  · rename_i other via' ends'
    cases ends'.symm.trans ends
    split <;> rename_i asked <;> rw [asked]
    · rfl
    · rfl
    · rfl
    · exact congrArg (Found.inOrder 0) (List.attach_map_val
        (f := fun field : String × Json => identifiers root (path ++ via) (some field.1) field.2))

end

theorem infix_of_occursIn {word text : List Char} : occursIn word text ↔ word <:+: text := by
  induction text with
  | nil => simp [occursIn]
  | cons c rest ih => simp [occursIn, ih, List.infix_cons_iff]

/-- Identifiers are the first entry of a table, for names with `id` in them. -/
theorem hint?_identifier {identifier : α} {table : Table α} {property : Option String}
    (others : ∀ entry ∈ table, entry.2 ≠ identifier) :
    hint? ((["id"], identifier) :: table) property = some identifier ↔ namesIdentifier property := by
  cases property with
  | none => simp [hint?, namesIdentifier]
  | some name =>
    have word : (["id"].any fun word => occursIn word.toList (lowered name)) =
        namesIdentifier (some name) := by
      rw [Bool.eq_iff_iff]
      simp [namesIdentifier, infix_of_occursIn]
    rw [hint?, Option.bind_some, List.find?_cons, word]
    cases namesIdentifier (some name) with
    | true => simp
    | false =>
      simp only [Option.map_eq_some_iff, Bool.false_eq_true, iff_false]
      rintro ⟨entry, found, same⟩
      exact others entry (List.mem_of_find?_eq_some found) same

theorem stringHint_identifier : hint? stringHints property = some .identifier ↔
    namesIdentifier property :=
  hint?_identifier (by decide)

theorem integerHint_identifier : hint? integerHints property = some .identifier ↔
    namesIdentifier property :=
  hint?_identifier (by decide)

/-- From a counter on, a run gives the sites that are found one number each, and no others. -/
structure Numbers (found : Found) (c : Counters) (outcome : Outcome Json) : Prop where
  complete : outcome.1.isOk = found.complete
  next : outcome.2.nextId = c.nextId + found.sites.length
  values : ∀ value, outcome.1 = .ok value → ∀ k (site : Site), found.sites[k]? = some site →
    value.at? site.place = some (site.value (c.nextId + k))

namespace Numbers
variable {c d : Counters} {found : Found}

theorem nothing (same : d.nextId = c.nextId) : Numbers .nothing c (.ok value, d) where
  complete := rfl
  next := same
  values _ _ _ _ listed := nomatch listed

theorem one {site : Site} (top : site.place = []) (same : d.nextId = c.nextId + 1)
    (numbered : value = site.value c.nextId) : Numbers ⟨[site], true⟩ c (.ok value, d) where
  complete := rfl
  next := same
  values other done k chosen listed := by
    cases done
    cases k with
    | zero =>
      cases listed
      rw [top, Json.at?, numbered]
      rfl
    | succ k => cases listed

end Numbers

section
variable {chance : Chance} {property : Option String} {schema : Schema}

theorem leafValue_numbers (type : LeafType) (c : Counters) :
    Numbers (if takesIdentifier property schema type then ⟨[⟨[], schema, type⟩], true⟩ else .nothing) c
      (.ok (leafValue chance schema property type c).1,
        (leafValue chance schema property type c).2) := by
  unfold leafValue
  cases unlisted : listed? schema with
  | some value =>
    rw [if_neg (by simp [takesIdentifier, unlisted])]
    exact .nothing rfl
  | none =>
    cases named : namesIdentifier property with
    | true =>
      have text := stringHint_identifier.mpr named
      have whole := integerHint_identifier.mpr named
      cases type with
      | string =>
        rw [if_pos (by simp [takesIdentifier, unlisted, named])]
        simp only [leaf, stringText, text]
        exact .one rfl rfl rfl
      | integer =>
        rw [if_pos (by simp [takesIdentifier, unlisted, named])]
        simp only [leaf, integerValue, whole]
        exact .one rfl rfl rfl
      | number | boolean =>
        rw [if_neg (by simp [takesIdentifier])]
        exact .nothing rfl
    | false =>
      have unnamed : ¬ namesIdentifier property := by simp [named]
      have text := mt stringHint_identifier.mp unnamed
      have whole := mt integerHint_identifier.mp unnamed
      rw [if_neg (by simp [takesIdentifier, named])]
      refine .nothing ?_
      cases type with
      | string =>
        simp only [leaf, stringText]
        split <;> first | rfl | contradiction
      | integer =>
        simp only [leaf, integerValue]
        split <;> first | rfl | contradiction | exact draw_nextId ..
      | number | boolean => rfl

end

namespace Numbers
variable {c d : Counters} {first found : Found} {whole value : Json} {i : Nat}

/-- The sites of a value that stands in another are where this puts it. -/
theorem under_values (placed : whole.part? i = some value)
    (values : ∀ k (site : Site), found.sites[k]? = some site →
      value.at? site.place = some (site.value (n + k)))
    {k : Nat} {site : Site} (listed : (found.under i).sites[k]? = some site) :
    whole.at? site.place = some (site.value (n + k)) := by
  rw [Found.under, List.getElem?_map] at listed
  obtain ⟨inner, known, rfl⟩ := Option.map_eq_some_iff.mp listed
  rw [Json.at?, placed, Option.bind_some]
  exact values k inner known

theorem under {outcome : Outcome Json} (numbers : Numbers found c outcome) (i : Nat) {f : Json → Json}
    (placed : ∀ value, (f value).part? i = some value) :
    Numbers (found.under i) c (outcome.map f) := by
  obtain ⟨answer, d⟩ := outcome
  refine ⟨?_, ?_, fun value done k site listed => ?_⟩
  · rw [Found.under, ← numbers.complete]
    cases answer <;> rfl
  · rw [Found.under, List.length_map]
    exact numbers.next
  · obtain ⟨inner, answered, rfl⟩ := Result.map_ok done
    exact under_values (placed inner) (numbers.values inner answered) listed

/-- Behind an error nothing is found, and nothing is counted. -/
theorem stop (here : Numbers first c (.error e, d)) (i : Nat) (others : List Found) :
    Numbers (.inOrder i (first :: others)) c (.error e, d) := by
  rw [Found.inOrder, if_neg (by simp [← here.complete, Except.isOk, Except.toBool])]
  refine ⟨here.complete, ?_, fun _ done => nomatch done⟩
  rw [Found.under, List.length_map]
  exact here.next

theorem cons {outcome : Outcome Json} {others : List Found} (here : Numbers first c (.ok value, d))
    (later : Numbers (.inOrder (i + 1) others) d outcome)
    (placed : ∀ whole, outcome.1 = .ok whole → whole.part? i = some value) :
    Numbers (.inOrder i (first :: others)) c outcome := by
  have length : (first.under i).sites.length = first.sites.length := List.length_map _
  rw [Found.inOrder, if_pos (by rw [← here.complete]; rfl)]
  refine ⟨later.complete, ?_, fun whole done k site listed => ?_⟩
  · rw [later.next, here.next, List.length_append, length, Nat.add_assoc]
  · rw [List.getElem?_append] at listed
    split at listed
    · exact under_values (placed whole done) (here.values value rfl) listed
    · have there := later.values whole done _ site listed
      rwa [here.next, Nat.add_assoc, length, Nat.add_sub_cancel' (by omega)] at there

end Numbers

section
variable {chance : Chance} {root : Json} {path : List String}

theorem sampleFields_numbers {properties : List (String × Json)}
    (each : ∀ name part, (name, part) ∈ properties → ∀ c,
      Numbers (identifiers root path (some name) part) c
        (sample chance root path (some name) part c))
    (before : List (String × Json)) (c : Counters) :
    Numbers (.inOrder before.length <| properties.map fun field =>
        identifiers root path (some field.1) field.2) c
      ((sampleFields chance root path properties c).map fun values => .object (before ++ values)) := by
  induction properties generalizing before c with
  | nil =>
    rw [sampleFields]
    exact .nothing rfl
  | cons field rest ih =>
    obtain ⟨name, part⟩ := field
    have here := each name part List.mem_cons_self c
    rw [sampleFields_cons, List.map_cons]
    rcases sampled : sample chance root path (some name) part c with ⟨e | value, d⟩
    · rw [sampled] at here
      exact here.stop _ _
    · rw [sampled] at here
      have later := ih (fun name part member => each name part (List.mem_cons_of_mem _ member))
        (before ++ [(name, value)]) d
      have joined : ((sampleFields chance root path rest d).map ((name, value) :: ·)).map
          (fun values => Json.object (before ++ values)) =
          (sampleFields chance root path rest d).map
            fun values => Json.object (before ++ [(name, value)] ++ values) := by
        rcases sampleFields chance root path rest d with ⟨_ | values, _⟩
        · rfl
        · simp [Outcome.map, Except.map]
      rw [Outcome.andThen, joined]
      rw [List.length_append, List.length_singleton] at later
      refine here.cons later fun whole done => ?_
      obtain ⟨values, -, rfl⟩ := Result.map_ok done
      simp [Json.part?]

theorem sample_numbers (path : List String) (property : Option String) (node : Json) (c : Counters) :
    Numbers (identifiers root path property node) c (sample chance root path property node c) := by
  induction path, node using sample_induction root generalizing property c with
  | unresolvable path node e ends =>
    rw [sample_follow, ends, identifiers_error ends]
    exact ⟨rfl, rfl, fun _ done => nomatch done⟩
  | cycle path node pointer ends =>
    rw [sample_follow, ends, identifiers_cycle ends]
    exact .nothing rfl
  | literal path node literal via ends parts =>
    rw [sample_follow, ends, identifiers_literal ends]
    simp only [sampleResolution]
    generalize form literal = asked at parts
    cases asked with
    | fixed value => exact .nothing rfl
    | leaf schema type => exact leafValue_numbers type c
    | items part => exact (parts part List.mem_cons_self property c).under 0 fun _ => rfl
    | fields properties =>
      exact sampleFields_numbers (fun name part member c =>
        parts part (List.mem_map_of_mem member) (some name) c) [] c

end

/-- Identifiers are numbered as they are met. In the sample of a body, the sites that ask for one get the
numbers 1, 2, 3 and so on in their order, each as its own number or as the digits of it brought to the
declared lengths; and whether or not the sample is complete, no other numbers are taken. Whole numbers
have 64 bits with their sign, and all that fit are written as they are. -/
theorem identifiers_numbered (chance : Chance) (root : Json) (body : BodySchema) (c : Counters) :
    (∀ value, (sampleBody chance root body c).1 = .ok value →
      ∀ k (site : Site), (identifiers root body.via none body.schema).sites[k]? = some site →
        value.at? site.place = some (site.value (k + 1))) ∧
    (sampleBody chance root body c).1.isOk = (identifiers root body.via none body.schema).complete ∧
    (sampleBody chance root body c).2.nextId =
      (identifiers root body.via none body.schema).sites.length + 1 ∧
    ∀ n : Nat, n < twoTo 63 → saturate n = n := by
  obtain ⟨complete, next, values⟩ : Numbers _ _ (sampleBody chance root body c) :=
    sample_numbers body.via none body.schema { c with nextId := 1 }
  refine ⟨fun value done k site listed => ?_, complete, ?_, fun n small => ?_⟩
  · rw [values value done k site listed, Nat.add_comm]
  · rw [next, Nat.add_comm]
  · unfold saturate
    omega

def wholeNumber : Schema := [("type", .string "integer")]

def paddedText : Schema := [("type", .string "string"), ("minLength", .int 3)]

def memberMarker : Json := .object [("$ref", .string "#/member")]

def teamDocument : Json := .object [("member",
  .object [("type", .string "object"), ("properties", .object [("id", .object paddedText)])])]

/-- A number and two members of the same schema, who have identifiers. -/
def team : BodySchema where
  schema := .object [("type", .string "object"), ("properties", .object
    [("teamId", .object wholeNumber), ("owner", memberMarker), ("deputy", memberMarker)])]
  via := []

theorem lookup_member : Pointer.lookup? teamDocument "#/member" = some (.object
    [("type", .string "object"), ("properties", .object [("id", .object paddedText)])]) := by
  unfold Pointer.lookup? Pointer.segments?
  rw [show String.toList "#/member" = _ from String.toList_ofList]
  with_unfolding_all rfl

theorem identifiers_team : identifiers teamDocument team.via none team.schema =
    ⟨[⟨[0], wholeNumber, .integer⟩, ⟨[1, 0], paddedText, .string⟩, ⟨[2, 0], paddedText, .string⟩],
      true⟩ := by
  have number : identifiers teamDocument [] (some "teamId") (.object wholeNumber) =
      ⟨[⟨[], wholeNumber, .integer⟩], true⟩ := by
    rw [identifiers_literal (Reference.follow_plain rfl)]
    rfl
  have text (path : List String) : identifiers teamDocument path (some "id") (.object paddedText) =
      ⟨[⟨[], paddedText, .string⟩], true⟩ := by
    rw [identifiers_literal (Reference.follow_plain rfl)]
    rfl
  have member (name : String) : identifiers teamDocument [] (some name) memberMarker =
      ⟨[⟨[0], paddedText, .string⟩], true⟩ := by
    rw [identifiers_literal (Reference.follow_hop rfl List.not_mem_nil lookup_member rfl)]
    change Found.inOrder 0 [identifiers teamDocument _ (some "id") (.object paddedText)] = _
    rw [text]
    rfl
  rw [identifiers_literal (Reference.follow_plain rfl)]
  change Found.inOrder 0 [identifiers teamDocument [] (some "teamId") (.object wholeNumber),
    identifiers teamDocument [] (some "owner") memberMarker,
    identifiers teamDocument [] (some "deputy") memberMarker] = _
  rw [number, member, member]
  rfl

theorem team_numbered : ∃ value,
    (sampleBody ⟨2024, fun _ => 0⟩ teamDocument team .start).1 = .ok value ∧
      value.at? [0] = some (.int 1) ∧ value.at? [1, 0] = some (.string "2xx") ∧
      value.at? [2, 0] = some (.string "3xx") ∧
      (sampleBody ⟨2024, fun _ => 0⟩ teamDocument team .start).2.nextId = 4 := by
  obtain ⟨values, complete, next, -⟩ :=
    identifiers_numbered ⟨2024, fun _ => 0⟩ teamDocument team .start
  rw [identifiers_team] at values complete next
  cases sampled : (sampleBody ⟨2024, fun _ => 0⟩ teamDocument team .start).1 with
  | error e =>
    rw [sampled] at complete
    cases complete
  | ok value =>
    have site := values value sampled
    exact ⟨value, rfl, (site 0 _ rfl).trans rfl, site 1 _ rfl, site 2 _ rfl, next⟩

end Sample
end LoadPlan
