import LoadPlan.Proofs.Sample.Nesting

/-! Samples for which nothing is drawn. The number of words drawn never goes down, and where it stays
as it was, other words, and other numbers of them drawn before, make no difference. -/
namespace LoadPlan.Sample

/-- The second run does what the first does whenever that draws nothing. -/
structure Quiet (run run' : Counters → β × Counters) : Prop where
  drawn_le : ∀ c, c.drawn ≤ (run c).2.drawn
  agrees : ∀ c c', c'.nextId = c.nextId → (run c).2.drawn = c.drawn →
    run' c' = ((run c).1, ⟨(run c).2.nextId, c'.drawn⟩)

namespace Quiet

theorem pure (value : β) : Quiet (fun c => (value, c)) (fun c => (value, c)) where
  drawn_le _ := Nat.le_refl _
  agrees c c' same _ := by rw [← same]

theorem nextIdentifier (f : Nat → β) :
    Quiet (fun c => (f c.nextIdentifier.1, c.nextIdentifier.2))
      (fun c => (f c.nextIdentifier.1, c.nextIdentifier.2)) where
  drawn_le _ := Nat.le_refl _
  agrees c c' same _ := by simp only [Counters.nextIdentifier, same]

theorem map {run run' : Counters → β × Counters} (quiet : Quiet run run') (f : β → γ) :
    Quiet (fun c => (f (run c).1, (run c).2)) (fun c => (f (run' c).1, (run' c).2)) where
  drawn_le := quiet.drawn_le
  agrees c c' same still := by rw [quiet.agrees c c' same still]

theorem andThen {run run' : Counters → Outcome α} {next next' : α → Counters → Outcome β}
    (quiet : Quiet run run') (later : ∀ value, Quiet (next value) (next' value)) :
    Quiet (fun c => (run c).andThen next) (fun c => (run' c).andThen next') where
  drawn_le c := by
    have first := quiet.drawn_le c
    rcases ran : run c with ⟨_ | value, d⟩
    · rwa [ran] at first
    · rw [ran] at first
      exact Nat.le_trans first ((later value).drawn_le d)
  agrees c c' same still := by
    have first := quiet.drawn_le c
    have agrees := quiet.agrees c c' same
    rcases ran : run c with ⟨e | value, d⟩
    · rw [ran] at still agrees
      rw [agrees still]
      rfl
    · rw [ran] at first still agrees
      -- The words are counted up in both parts, so neither draws any.
      have onward : d.drawn ≤ (next value d).2.drawn := (later value).drawn_le d
      change c.drawn ≤ d.drawn at first
      change (next value d).2.drawn = c.drawn at still
      rw [agrees (show d.drawn = c.drawn by omega)]
      exact (later value).agrees d _ rfl (by omega)

end Quiet

section
variable {chance chance' : Chance} (sameYear : chance'.year = chance.year)

theorem draw_drawn (chance : Chance) (low high : Nat) (c : Counters) :
    c.drawn < (chance.draw low high c).2.drawn := by
  simp only [Chance.draw, Chance.below]
  split <;> simp

theorem stringText_quiet (property : Option String) :
    Quiet (stringText property) (stringText property) := by
  unfold stringText
  split
  · exact .nextIdentifier toString
  · exact .pure _
  · exact .pure _
  · exact .pure _

include sameYear

theorem integerValue_quiet (schema : Schema) (property : Option String) :
    Quiet (integerValue chance schema property) (integerValue chance' schema property) := by
  unfold integerValue
  cases hint? integerHints property with
  | none => exact .pure _
  | some hint =>
    cases hint with
    | identifier => exact .nextIdentifier fun id => saturate id
    | fixed value => exact .pure _
    | currentYear =>
      simp only [sameYear]
      exact .pure _
    | between low high =>
      refine ⟨fun c => Nat.le_of_lt (draw_drawn chance low high c), fun c c' _ still => ?_⟩
      exact absurd still (Nat.ne_of_gt (draw_drawn chance low high c))

theorem leafValue_quiet (schema : Schema) (property : Option String) (type : LeafType) :
    Quiet (leafValue chance schema property type) (leafValue chance' schema property type) := by
  unfold leafValue
  cases listed? schema with
  | some value => exact .pure value
  | none =>
    cases type with
    | string => exact (stringText_quiet property).map (fitted schema)
    | integer => exact (integerValue_quiet sameYear schema property).map Json.int
    | number => exact .pure _
    | boolean => exact .pure _

end

section
variable {chance chance' : Chance} {root : Json} {path : List String}

theorem sampleFields_quiet {properties : List (String × Json)}
    (each : ∀ name node, (name, node) ∈ properties → Quiet
      (sample chance root path (some name) node) (sample chance' root path (some name) node)) :
    Quiet (sampleFields chance root path properties) (sampleFields chance' root path properties) := by
  induction properties with
  | nil =>
    have none (chance : Chance) : sampleFields chance root path [] = fun c => (.ok [], c) :=
      funext fun c => by rw [sampleFields]
    rw [none, none]
    exact .pure _
  | cons field rest ih =>
    obtain ⟨name, node⟩ := field
    have later := ih fun name node member => each name node (List.mem_cons_of_mem _ member)
    have cons (chance : Chance) := funext (sampleFields_cons chance root path name node rest)
    rw [cons, cons]
    exact (each name node List.mem_cons_self).andThen fun value =>
      later.map (Except.map ((name, value) :: ·))

theorem sample_quiet (sameYear : chance'.year = chance.year) (path : List String)
    (property : Option String) (node : Json) :
    Quiet (sample chance root path property node) (sample chance' root path property node) := by
  induction path, node using sample_induction root generalizing property with
  | unresolvable path node e ends =>
    rw [sample_followed, sample_followed, ends]
    exact .pure _
  | cycle path node pointer ends =>
    rw [sample_followed, sample_followed, ends]
    exact .pure _
  | literal path node literal via ends parts =>
    rw [sample_followed, sample_followed, ends]
    simp only [sampleResolution]
    generalize form literal = asked at parts
    cases asked with
    | fixed value => exact .pure _
    | leaf schema type => exact (leafValue_quiet sameYear schema property type).map Except.ok
    | items node =>
      exact (parts node List.mem_cons_self property).map (Except.map fun value => Json.array [value])
    | fields properties =>
      have fields : Quiet (sampleFields chance root (path ++ via) properties)
          (sampleFields chance' root (path ++ via) properties) :=
        sampleFields_quiet fun name node member =>
          parts node (List.mem_map_of_mem member) (some name)
      exact fields.map (Except.map Json.object)

theorem sampleBody_drawn_le (chance : Chance) (root : Json) (body : BodySchema) (c : Counters) :
    c.drawn ≤ (sampleBody chance root body c).2.drawn := by
  have quiet : Quiet (sample chance root body.via none body.schema) _ := sample_quiet rfl _ _ _
  exact quiet.drawn_le { c with nextId := 1 }

/-- A body for which nothing is drawn has the same sample after any other samples. -/
theorem sampleBody_agrees (sameYear : chance'.year = chance.year) (body : BodySchema)
    (c c' : Counters) (still : (sampleBody chance root body c).2.drawn = c.drawn) :
    sampleBody chance' root body c' = ((sampleBody chance root body c).1,
      ⟨(sampleBody chance root body c).2.nextId, c'.drawn⟩) :=
  (sample_quiet sameYear body.via none body.schema).agrees { c with nextId := 1 }
    { c' with nextId := 1 } rfl still

end

end LoadPlan.Sample
