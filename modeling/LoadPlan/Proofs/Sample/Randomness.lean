import LoadPlan.Proofs.Sample.Sound

/-! Samples with other random words. They have the same errors and the same structure, and differ at
most where an integer is sampled under a name that suggests a month or a day. -/
namespace LoadPlan.Sample
open Reference (follow)

/-- The first entry of a table with a word that occurs in the name. -/
def firstFound? (table : Table α) (property : Option String) : Option (List String × α) :=
  property.bind fun property =>
    table.find? fun entry => entry.1.any fun word => occursIn word.toList (lowered property)

/-- The last of the numbers for a name whose first hint for integers is that of months or days. -/
def calendarLast? (property : Option String) : Option Nat :=
  match (firstFound? integerHints property).map Prod.fst with
  | some ["month"] => some 12
  | some ["day"] => some 28
  | _ => none

theorem hint?_eq (table : Table α) (property : Option String) :
    hint? table property = (firstFound? table property).map Prod.snd := by
  cases property <;> rfl

theorem calendarLast?_of_between (found : hint? integerHints property = some (.between low high)) :
    low = 1 ∧ 1 ≤ high ∧ calendarLast? property = some high := by
  rw [hint?_eq] at found
  obtain ⟨entry, first, between⟩ := Option.map_eq_some_iff.mp found
  have listed : entry ∈ integerHints := by
    obtain ⟨name, -, among⟩ := Option.bind_eq_some_iff.mp first
    exact List.mem_of_find?_eq_some among
  rw [calendarLast?, first]
  simp only [integerHints, List.mem_cons, List.not_mem_nil, or_false] at listed
  rcases listed with rfl | rfl | rfl | rfl | rfl | rfl | rfl <;> cases between <;>
    exact ⟨rfl, by decide, rfl⟩

/-- A property with its schema and with what two samples have for it. -/
structure Member where
  name : String
  schema : Json
  first : Json
  second : Json

section
variable (root : Json)

/-- Values of one structure for a node below a path, under a property name. They differ only in
integers that are drawn: those of integer schemas without given or listed values, under the name of a
month or a day, and both within the numbers of months or days. -/
inductive Alike : List String → Option String → Json → Json → Json → Prop where
  | same : Alike path property node value value
  | drawn {n m : Int} : follow root path node = .ok (.literal literal via) →
      form literal = .leaf schema .integer → listed? schema = none →
      calendarLast? property = some last → 1 ≤ n ∧ n ≤ last → 1 ≤ m ∧ m ≤ last →
      Alike path property node (.int n) (.int m)
  | items : follow root path node = .ok (.literal literal via) → form literal = .items part →
      Alike (path ++ via) property part first second →
      Alike path property node (.array [first]) (.array [second])
  | fields (members : List Member) : follow root path node = .ok (.literal literal via) →
      form literal = .fields (members.map fun m => (m.name, m.schema)) →
      (∀ m ∈ members, Alike (path ++ via) (some m.name) m.schema m.first m.second) →
      Alike path property node (.object (members.map fun m => (m.name, m.first)))
        (.object (members.map fun m => (m.name, m.second)))

/-- An integer that is drawn is among what is sampled for a node. -/
inductive Draws : List String → Option String → Json → Prop where
  | leaf : follow root path node = .ok (.literal literal via) →
      form literal = .leaf schema .integer → listed? schema = none →
      calendarLast? property = some last → Draws path property node
  | items : follow root path node = .ok (.literal literal via) → form literal = .items part →
      Draws (path ++ via) property part → Draws path property node
  | field : follow root path node = .ok (.literal literal via) → form literal = .fields properties →
      (name, part) ∈ properties → Draws (path ++ via) (some name) part → Draws path property node

end

section
variable {root : Json} {path : List String} {property : Option String} {node v w : Json}

theorem Alike.eq (alike : Alike root path property node v w)
    (fixed : ¬ Draws root path property node) : v = w := by
  induction alike with
  | same => rfl
  | drawn follows asks unlisted suggests => exact absurd (.leaf follows asks unlisted suggests) fixed
  | items follows asks _ ih => rw [ih fun inner => fixed (.items follows asks inner)]
  | fields members follows asks _ ih =>
    congr 1
    refine List.map_congr_left fun m member => ?_
    have inside : (m.name, m.schema) ∈ members.map fun m => (m.name, m.schema) :=
      List.mem_map_of_mem member
    rw [ih m member fun inner => fixed (.field follows asks inside inner)]

end

/-- Answers that are errors alike, or related values. -/
inductive Paired (R : α → α → Prop) : Except ε α → Except ε α → Prop where
  | error (e : ε) : Paired R (.error e) (.error e)
  | ok : R v w → Paired R (.ok v) (.ok w)

theorem Paired.map {R : α → α → Prop} {S : β → β → Prop} {f g : α → β} {x y : Except ε α}
    (paired : Paired R x y) (related : ∀ v w, R v w → S (f v) (g w)) :
    Paired S (x.map f) (y.map g) := by
  cases paired with
  | error e => exact .error e
  | ok same => exact .ok (related _ _ same)

/-- From the same next identifier, two runs pair their answers and have the same identifier next. -/
def InStep (R : α → α → Prop) (run run' : Counters → Outcome α) : Prop :=
  ∀ c c', c'.nextId = c.nextId →
    Paired R (run c).1 (run' c').1 ∧ (run' c').2.nextId = (run c).2.nextId

namespace InStep
variable {R : α → α → Prop} {S : β → β → Prop}

theorem pure {answer answer' : Except ReferenceError α} (paired : Paired R answer answer') :
    InStep R (fun c => (answer, c)) (fun c => (answer', c)) :=
  fun _ _ same => ⟨paired, same⟩

theorem map {run run' : Counters → Outcome α} {f g : α → β} (steps : InStep R run run')
    (related : ∀ v w, R v w → S (f v) (g w)) :
    InStep S (fun c => (run c).map f) (fun c => (run' c).map g) := fun c c' same =>
  have ⟨paired, next⟩ := steps c c' same
  ⟨paired.map related, next⟩

theorem andThen {run run' : Counters → Outcome α} {next next' : α → Counters → Outcome β}
    (steps : InStep R run run') (later : ∀ v w, R v w → InStep S (next v) (next' w)) :
    InStep S (fun c => (run c).andThen next) (fun c => (run' c).andThen next') := by
  intro c c' same
  have ⟨paired, onward⟩ := steps c c' same
  rcases ran : run c with ⟨answer, d⟩
  rcases ran' : run' c' with ⟨answer', d'⟩
  simp only [ran, ran'] at paired onward ⊢
  cases paired with
  | error e => exact ⟨.error e, onward⟩
  | ok related => exact later _ _ related d d' onward

end InStep

section
variable {chance chance' : Chance} {root : Json} {path : List String} {property : Option String}

theorem draw_within (chance : Chance) (some : 1 ≤ last) (c : Counters) :
    1 ≤ ((chance.draw 1 last c).1 : Int) ∧ ((chance.draw 1 last c).1 : Int) ≤ last := by
  have below := below_lt chance (show 0 < last - 1 + 1 by omega) c
  simp only [Chance.draw]
  omega

theorem draw_nextId (chance : Chance) (low high : Nat) (c : Counters) :
    (chance.draw low high c).2.nextId = c.nextId := by
  simp only [Chance.draw, Chance.below]
  split <;> rfl

/-- What a leaf is sampled to is the same, or is drawn in both runs. -/
theorem leafValue_inStep (sameYear : chance'.year = chance.year)
    (follows : follow root path node = .ok (.literal literal via))
    (asks : form literal = .leaf schema type) :
    InStep (Alike root path property node)
      (fun c => (.ok (leafValue chance schema property type c).1,
        (leafValue chance schema property type c).2))
      (fun c => (.ok (leafValue chance' schema property type c).1,
        (leafValue chance' schema property type c).2)) := by
  intro c c' same
  unfold leafValue
  cases unlisted : listed? schema with
  | some value => exact ⟨.ok .same, same⟩
  | none =>
    cases type with
    | string =>
      simp only [leaf, stringText, Counters.nextIdentifier, same]
      split <;> exact ⟨.ok .same, by simp only [same]⟩
    | number => exact ⟨.ok .same, same⟩
    | boolean => exact ⟨.ok .same, same⟩
    | integer =>
      simp only [leaf, integerValue, Counters.nextIdentifier, same, sameYear]
      split
      · exact ⟨.ok .same, rfl⟩
      · exact ⟨.ok .same, same⟩
      · exact ⟨.ok .same, same⟩
      · rename_i low high found
        obtain ⟨rfl, some, last⟩ := calendarLast?_of_between found
        refine ⟨.ok (.drawn follows asks unlisted last (draw_within chance some c)
          (draw_within chance' some c')), ?_⟩
        simp only [draw_nextId, same]
      · exact ⟨.ok .same, same⟩

/-- The values of properties in two samples, side by side. -/
def AlikeFields (root : Json) (path : List String) (properties vs ws : List (String × Json)) : Prop :=
  ∃ members : List Member, properties = members.map (fun m => (m.name, m.schema)) ∧
    vs = members.map (fun m => (m.name, m.first)) ∧
    ws = members.map (fun m => (m.name, m.second)) ∧
    ∀ m ∈ members, Alike root path (some m.name) m.schema m.first m.second

theorem sampleFields_inStep {properties : List (String × Json)}
    (each : ∀ name part, (name, part) ∈ properties → InStep (Alike root path (some name) part)
      (sample chance root path (some name) part) (sample chance' root path (some name) part)) :
    InStep (AlikeFields root path properties) (sampleFields chance root path properties)
      (sampleFields chance' root path properties) := by
  induction properties with
  | nil =>
    have none (chance : Chance) : sampleFields chance root path [] = fun c => (.ok [], c) :=
      funext fun c => by rw [sampleFields]
    rw [none, none]
    exact .pure (.ok ⟨[], rfl, rfl, rfl, List.forall_mem_nil _⟩)
  | cons field rest ih =>
    obtain ⟨name, part⟩ := field
    have later := ih fun name part member => each name part (List.mem_cons_of_mem _ member)
    have cons (chance : Chance) := funext (sampleFields_cons chance root path name part rest)
    rw [cons, cons]
    refine (each name part List.mem_cons_self).andThen fun v w alike => later.map ?_
    rintro vs ws ⟨members, rfl, rfl, rfl, others⟩
    exact ⟨⟨name, part, v, w⟩ :: members, rfl, rfl, rfl, List.forall_mem_cons.mpr ⟨alike, others⟩⟩

theorem sample_inStep (sameYear : chance'.year = chance.year) (path : List String)
    (property : Option String) (node : Json) :
    InStep (Alike root path property node) (sample chance root path property node)
      (sample chance' root path property node) := by
  induction path, node using sample_induction root generalizing property with
  | unresolvable path node e ends =>
    rw [sample_followed, sample_followed, ends]
    exact .pure (.error _)
  | cycle path node pointer ends =>
    rw [sample_followed, sample_followed, ends]
    exact .pure (.ok .same)
  | literal path node literal via ends parts =>
    rw [sample_followed, sample_followed, ends]
    simp only [sampleResolution]
    generalize asks : form literal = asked at parts
    cases asked with
    | fixed value => exact .pure (.ok .same)
    | leaf schema type => exact leafValue_inStep sameYear ends asks
    | items part =>
      exact (parts part List.mem_cons_self property).map fun v w alike => .items ends asks alike
    | fields properties =>
      have fields : InStep (AlikeFields root (path ++ via) properties)
          (sampleFields chance root (path ++ via) properties)
          (sampleFields chance' root (path ++ via) properties) :=
        sampleFields_inStep fun name part member =>
          parts part (List.mem_map_of_mem member) (some name)
      refine fields.map ?_
      rintro vs ws ⟨members, rfl, rfl, rfl, alike⟩
      exact .fields members ends asks alike

end

end LoadPlan.Sample
