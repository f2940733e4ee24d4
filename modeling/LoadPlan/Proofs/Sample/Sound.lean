import LoadPlan.Proofs.Document.Sound
import LoadPlan.Proofs.Sample.Nesting

/-! Samples are sound: a given value is a part of the document, whole numbers that synthesis makes are
small, and the fields of a sampled object have the names of the properties. -/
namespace LoadPlan.Sample
open Json (Sound Whole)

section
variable {schema : Schema} {property : Option String}

theorem whole_of_small {n : Int} (low : -twoTo 31 ≤ n) (high : n < twoTo 31) : Whole n := by
  have bounds : twoTo 31 ≤ twoTo 63 ∧ twoTo 31 ≤ twoTo 64 := by decide
  exact ⟨by omega, by omega⟩

theorem saturate_whole (n : Int) : Whole (saturate n) := by
  have bounds : 0 < twoTo 63 ∧ twoTo 63 ≤ twoTo 64 := by decide
  unfold saturate
  exact ⟨by omega, by omega⟩

/-- The carry of a second word stays below the next multiple of the word size. -/
theorem below_lt (chance : Chance) {size : Nat} (some : 0 < size) (c : Counters) :
    (chance.below size c).1 < size := by
  have word (i : Nat) : (chance.words i).toNat * size + size ≤ UInt64.size * size := by
    rw [← Nat.succ_mul]
    exact Nat.mul_le_mul_right size (UInt64.toNat_lt_size (chance.words i))
  have spread (i : Nat) : (chance.words i).toNat * size / UInt64.size < size := by
    have within := word i
    exact Nat.div_lt_of_lt_mul (by omega)
  simp only [Chance.below]
  split
  · have joined := Nat.add_mul_div_left
      ((chance.words c.drawn).toNat * size % UInt64.size +
        (chance.words (c.drawn + 1)).toNat * size / UInt64.size)
      ((chance.words c.drawn).toNat * size / UInt64.size) (show 0 < UInt64.size by decide)
    have divided := Nat.mod_add_div ((chance.words c.drawn).toNat * size) UInt64.size
    have first := word c.drawn
    have second := spread (c.drawn + 1)
    rw [Nat.add_comm _ (_ / UInt64.size), ← joined]
    exact Nat.div_lt_of_lt_mul (by omega)
  · exact spread c.drawn

theorem hint?_mem {table : Table α} (found : hint? table property = some hint) :
    ∃ words, (words, hint) ∈ table := by
  obtain ⟨name, -, found⟩ := Option.bind_eq_some_iff.mp found
  obtain ⟨entry, first, rfl⟩ := Option.map_eq_some_iff.mp found
  exact ⟨entry.1, List.mem_of_find?_eq_some first⟩

theorem integerHints_small : ∀ entry ∈ integerHints,
    (∀ value, entry.2 = .fixed value → Whole value) ∧
      ∀ low high, entry.2 = .between low high → low ≤ high ∧ high < 100 := by
  simp only [integerHints, List.forall_mem_cons]
  refine ⟨?_, ?_, ?_, ?_, ?_, ?_, ?_, fun _ => (nomatch ·)⟩ <;>
    refine ⟨fun value same => ?_, fun low high same => ?_⟩ <;> cases same <;> decide

theorem integerValue_whole (chance : Chance) (c : Counters) :
    Whole (integerValue chance schema property c).1 := by
  unfold integerValue
  cases found : hint? integerHints property with
  | none => exact saturate_whole _
  | some hint =>
    obtain ⟨words, listed⟩ := hint?_mem found
    obtain ⟨fixed, between⟩ := integerHints_small _ listed
    cases hint with
    | identifier => exact saturate_whole _
    | fixed value => exact fixed value rfl
    | currentYear => exact whole_of_small (Int32.le_toInt _) (Int32.toInt_lt _)
    | between low high =>
      obtain ⟨ordered, limited⟩ := between low high rfl
      have bounds : 100 ≤ UInt64.size ∧ 100 < twoTo 31 := by decide
      have below := below_lt chance (show 0 < high - low + 1 by omega) c
      simp only [Chance.draw]
      exact whole_of_small (by omega) (by omega)

theorem leafValue_sound (chance : Chance) (type : LeafType) (sound : Sound (.object schema))
    (c : Counters) : Sound (leafValue chance schema property type c).1 := by
  unfold leafValue
  cases listed : listed? schema with
  | some value =>
    obtain ⟨node, found, first⟩ := Option.bind_eq_some_iff.mp listed
    exact (sound.field (Reference.mem_of_lookup found)).first? first
  | none =>
    cases type with
    | string => exact .string
    | integer => exact .int (integerValue_whole chance c)
    | number =>
      simp only [leaf, numberValue]
      split
      · rename_i decimal _
        cases Double.ofDecimal? false decimal.digits decimal.exponent with
        | none => exact .null
        | some x => exact .float
      · exact .float
    | boolean => exact .bool

end

section
variable {chance : Chance} {root : Json} {path : List String}

theorem sampleFields_sound {properties : List (String × Json)} {values : List (String × Json)}
    (each : ∀ name node, (name, node) ∈ properties → ∀ c value,
      (sample chance root path (some name) node c).1 = .ok value → Sound value) (c : Counters)
    (sampled : (sampleFields chance root path properties c).1 = .ok values) :
    values.map Prod.fst = properties.map Prod.fst ∧ ∀ field ∈ values, Sound field.2 := by
  induction properties generalizing values c with
  | nil =>
    rw [sampleFields] at sampled
    cases sampled
    exact ⟨rfl, List.forall_mem_nil _⟩
  | cons entry rest ih =>
    obtain ⟨name, node⟩ := entry
    have first := each name node List.mem_cons_self c
    rw [sampleFields] at sampled
    generalize sample chance root path (some name) node c = outcome at sampled first
    obtain ⟨_ | value, d⟩ := outcome
    · cases sampled
    · obtain ⟨others, later, rfl⟩ := Result.map_ok sampled
      obtain ⟨names, sound⟩ :=
        ih (fun name node member => each name node (List.mem_cons_of_mem _ member)) d later
      refine ⟨?_, List.forall_mem_cons.mpr ⟨first value rfl, sound⟩⟩
      rw [List.map_cons, List.map_cons, names]

/-- A form whose values and schemas are sound. -/
def Form.Sound : Form → Prop
  | .fixed value => Json.Sound value
  | .leaf schema _ => Json.Sound (.object schema)
  | .items node => Json.Sound node
  | .fields properties => Json.Sound (.object properties)

theorem typedForm_sound (sound : Sound (.object schema)) (type : SchemaType) :
    (typedForm schema type).Sound := by
  cases type with
  | leaf type => exact sound
  | array =>
    dsimp only [typedForm]
    split
    · rename_i found
      exact sound.field (Reference.mem_of_lookup found)
    · exact .array (List.forall_mem_nil _)
  | object =>
    dsimp only [typedForm]
    split
    · rename_i found
      exact sound.field (Reference.mem_of_lookup found)
    · exact .object List.nodup_nil (List.forall_mem_nil _)

theorem given?_sound (sound : Sound (.object schema)) (given : given? schema = some value) :
    Sound value := by
  rcases Option.or_eq_some_iff.mp given with found | ⟨-, found⟩
  · exact sound.field (Reference.mem_of_lookup found)
  · obtain ⟨node, listed, first⟩ := Option.bind_eq_some_iff.mp found
    exact (sound.field (Reference.mem_of_lookup listed)).first? first

theorem form_sound {node : Json} (sound : Sound node) : (form node).Sound := by
  cases node with
  | object schema =>
    dsimp only [form]
    split
    · rename_i given
      exact given?_sound sound given
    · exact typedForm_sound sound _
    · exact .null
  | null | bool | int | float | string | array => exact .null

theorem sample_sound (whole : Sound root) {node : Json} (sound : Sound node) (property : Option String)
    (c : Counters) (sampled : (sample chance root path property node c).1 = .ok value) :
    Sound value := by
  induction path, node using sample_induction root generalizing property c value with
  | unresolvable path node e ends =>
    rw [sample_follow, ends] at sampled
    cases sampled
  | cycle path node pointer ends =>
    rw [sample_follow, ends] at sampled
    cases sampled
    exact .null
  | literal path node literal via ends inside =>
    have asks := form_sound ((Reference.follow_literal ends).1.sound whole sound)
    rw [sample_follow, ends] at sampled
    simp only [sampleResolution] at sampled
    generalize form literal = asked at asks inside sampled
    cases asked with
    | fixed given =>
      cases sampled
      exact asks
    | leaf schema type =>
      cases sampled
      exact leafValue_sound chance type asks c
    | items part =>
      obtain ⟨item, read, rfl⟩ := Result.map_ok sampled
      exact .array (List.forall_mem_singleton.mpr
        (inside part List.mem_cons_self asks property c read))
    | fields properties =>
      obtain ⟨values, read, rfl⟩ := Result.map_ok sampled
      have each : ∀ name node, (name, node) ∈ properties → ∀ c value,
          (sample chance root (path ++ via) (some name) node c).1 = .ok value → Sound value :=
        fun name node member c value =>
          inside node (List.mem_map_of_mem member) (asks.field member) (some name) c
      obtain ⟨same, sound⟩ := sampleFields_sound each c read
      exact .object (same ▸ asks.keys) sound

end

end LoadPlan.Sample
