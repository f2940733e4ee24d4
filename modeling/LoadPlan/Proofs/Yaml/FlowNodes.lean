import LoadPlan.Proofs.Yaml.FlowTokens
import LoadPlan.Yaml.Node
import Mathlib.Data.List.Forall2

/-! Trees of JSON texts read as YAML. Arrays and objects become sequences and mappings, with the values
of the JSON reader at the leaves. -/
namespace LoadPlan.Yaml
open Json (Reader Steps)

/-- The key of a field as a node. -/
def fieldKey (field : String × Json) : Node := .scalar .none field.1 .quoted

/-- A node that is written like a JSON value. Of an object's fields, those written are given. -/
inductive Spells : Node → Json → Prop where
  | text : Spells (.scalar .none text .quoted) (.string text)
  | plain : (∀ s, Scalar.ofPlain? text = some s → s.toJson = json) →
      Spells (.scalar .none text .plain) json
  | sequence : List.Forall₂ Spells nodes items → Spells (.sequence .none nodes) (.array items)
  | mapping {entries : List (Node × Node)} {fields : List (String × Json)} :
      entries.map Prod.fst = fields.map fieldKey →
      List.Forall₂ Spells (entries.map Prod.snd) (fields.map Prod.snd) →
      Spells (.mapping .none entries) (Json.ofFields fields)

/-- Entries that are written like fields. -/
structure Lists (entries : List (Node × Node)) (fields : List (String × Json)) : Prop where
  keys : entries.map Prod.fst = fields.map fieldKey
  values : List.Forall₂ Spells (entries.map Prod.snd) (fields.map Prod.snd)

/-- Fields as they stand in an object, for those written, latest first. -/
def gathered (fields : List (String × Json)) : List (String × Json) :=
  fields.reverse.foldl (fun done (key, value) => Json.insert done key value) []

theorem gathered_cons (key : String) (value : Json) (fields : List (String × Json)) :
    gathered ((key, value) :: fields) = Json.insert (gathered fields) key value := by
  rw [gathered, List.reverse_cons, List.foldl_append]
  rfl

theorem Lists.nil : Lists [] [] := ⟨rfl, .nil⟩

theorem Lists.add {entries : List (Node × Node)} {fields : List (String × Json)}
    (lists : Lists entries fields) (spells : Spells node value) :
    Lists ((.scalar .none key .quoted, node) :: entries) ((key, value) :: fields) :=
  ⟨congrArg _ lists.keys, .cons spells lists.values⟩

theorem Lists.mappingOf {entries : List (Node × Node)} {fields : List (String × Json)}
    (lists : Lists entries fields) :
    Spells (Position.mappingOf .none entries) (.object (gathered fields)) := by
  have keys : entries.reverse.map Prod.fst = fields.reverse.map fieldKey := by
    rw [List.map_reverse, List.map_reverse, lists.keys]
  have values : List.Forall₂ Spells (entries.reverse.map Prod.snd) (fields.reverse.map Prod.snd) := by
    rw [List.map_reverse, List.map_reverse]
    exact List.forall₂_reverse_iff.mpr lists.values
  exact .mapping keys values

theorem spells_sequenceOf (each : List.Forall₂ Spells nodes items) :
    Spells (Position.sequenceOf .none nodes) (.array items.reverse) :=
  .sequence (List.forall₂_reverse_iff.mpr each)

/-- Collections that both readers are within. Their parts are latest first. -/
inductive Nests : List Json.Frame → List Frame → Prop where
  | document : Nests [] [.document]
  | array : List.Forall₂ Spells nodes items → Nests outer around →
      Nests (.array items :: outer) (.flowItem .none nodes :: around)
  | object : Lists entries fields → Nests outer around →
      Nests (.object (gathered fields) :: outer) (.flowKey .none entries false :: around)
  | member : Lists entries fields → Nests outer around →
      Nests (.member (gathered fields) name :: outer)
        (.flowValue .none entries (.scalar .none name .quoted) :: around)

theorem Nests.some (nests : Nests stack around) : ∃ frame outer, around = frame :: outer := by
  cases nests <;> exact ⟨_, _, rfl⟩

/-- Positions of both readers in one text. -/
inductive Abreast : Reader → Position → Prop where
  | before : want.takesValue = true ∨ want.takesKey = true → Nests stack around →
      Abreast ⟨stack, want⟩ (.want around)
  | after : Spells node value → Nests stack around →
      Abreast ⟨stack, .after value⟩ (.found node around)

/-- A token that is neither an alias nor written before a node. -/
def Token.isContent : Token → Bool
  | .alias _ | .anchor _ | .tag _ _ => false
  | _ => true

theorem isContent_of_flowMark? (marks : flowMark? token = some mark) : mark.isContent = true := by
  cases token <;> cases marks <;> rfl

namespace Builder
variable {place : Position} {names : Names} {next : Builder}

theorem step_want (plain : token.isContent = true) :
    step ⟨.want (frame :: around), names⟩ token =
      (Position.fresh token frame around).map fun position => ⟨position, names⟩ := by
  cases token <;> first | rfl | cases plain

theorem step_found :
    step ⟨.found node around, names⟩ token =
      (Position.afterNode node token around).map fun position => ⟨position, names⟩ := rfl

/-- Both readers begin a collection in the same way. -/
theorem fresh_open (nests : Nests stack (frame :: around)) :
    Position.fresh .openSequence frame around =
        some (.want (.flowItem .none [] :: frame :: around)) ∧
      Position.fresh .openMapping frame around =
        some (.want (.flowKey .none [] false :: frame :: around)) := by
  cases nests <;> exact ⟨rfl, rfl⟩

theorem fresh_scalar (nests : Nests stack (frame :: around)) :
    Position.fresh (.scalar text style) frame around =
      some (.found (.scalar .none text style) (frame :: around)) := by
  cases nests <;> rfl

/-- At a mark both readers go on to the same place. -/
theorem mark_abreast (abreast : Abreast r place) (steps : Steps r token after)
    (marks : flowMark? token = some mark) (stepped : step ⟨place, names⟩ mark = some next) :
    Abreast after next.position ∧ next.names = names := by
  cases abreast with
  | before takes nests =>
    obtain ⟨frame, outer, rfl⟩ := nests.some
    rw [step_want (isContent_of_flowMark? marks)] at stepped
    obtain ⟨_, found, rfl⟩ := Option.map_eq_some_iff.mp stepped
    refine ⟨?_, rfl⟩
    cases steps with
    | openArray =>
      cases marks
      cases (fresh_open nests).1.symm.trans found
      exact .before (.inl rfl) (.array .nil nests)
    | openObject =>
      cases marks
      cases (fresh_open nests).2.symm.trans found
      exact .before (.inr rfl) (.object .nil nests)
    | closeEmptyArray =>
      cases nests with
      | array each nests =>
        cases marks
        cases found
        exact .after (spells_sequenceOf each) nests
    | closeEmptyObject =>
      cases nests with
      | object lists nests =>
        cases marks
        cases found
        exact .after lists.mappingOf nests
    | string | scalar | key | colon => cases marks
    | nextItem | nextField | closeArray | closeObject => rcases takes with takes | takes <;> cases takes
  | after spells nests =>
    rw [step_found] at stepped
    obtain ⟨_, found, rfl⟩ := Option.map_eq_some_iff.mp stepped
    refine ⟨?_, rfl⟩
    cases steps with
    | nextItem =>
      cases nests with
      | array each nests =>
        cases marks
        cases found
        exact .before (.inl rfl) (.array (.cons spells each) nests)
    | nextField =>
      cases nests with
      | member lists nests =>
        cases marks
        cases found
        rw [← gathered_cons]
        exact .before (.inr rfl) (.object (lists.add spells) nests)
    | closeArray =>
      cases nests with
      | array each nests =>
        cases marks
        cases found
        exact .after (spells_sequenceOf (.cons spells each)) nests
    | closeObject =>
      cases nests with
      | member lists nests =>
        cases marks
        cases found
        rw [← gathered_cons]
        exact .after (lists.add spells).mappingOf nests
    | string | scalar | openArray | openObject | key => contradiction

/-- A scalar where both readers want a value. -/
theorem scalar_abreast (takes : want.takesValue = true) (abreast : Abreast ⟨stack, want⟩ place)
    (spells : Spells (.scalar .none text style) value)
    (stepped : step ⟨place, names⟩ (.scalar text style) = some next) :
    Abreast ⟨stack, .after value⟩ next.position ∧ next.names = names := by
  cases abreast with
  | before _ nests =>
    obtain ⟨frame, outer, rfl⟩ := nests.some
    rw [step_want rfl, fresh_scalar nests] at stepped
    cases stepped
    exact ⟨.after spells nests, rfl⟩
  | after => cases takes

/-- A key with its colon leads to the place of its value. Without the mark of a key it is refused. -/
theorem key_abreast (takes : want.takesKey = true)
    (abreast : Abreast ⟨.object fields :: stack, want⟩ place) (kinds : marks = [.key] ∨ marks = [])
    (ran : run ⟨place, names⟩ (marks ++ .scalar name .quoted :: .value :: rest) = some done) :
    ∃ place, Abreast ⟨.member fields name :: stack, .value⟩ place ∧
      run ⟨place, names⟩ rest = some done := by
  cases abreast with
  | before _ nests =>
    cases nests with
    | object lists nests =>
      rcases kinds with rfl | rfl
      · exact ⟨_, .before (.inl rfl) (.member lists nests), ran⟩
      · cases ran
  | after => cases takes

/-- The tree that is built from the tokens of a JSON text is written like its value. -/
theorem run_spells (cut : Tokenised ts ys) (abreast : Abreast r place)
    (read : r.run ts = some final) (ended : final.result? = some json)
    (ran : run ⟨place, names⟩ ys = some done) (found : done.result? = some root) :
    Spells root json := by
  induction cut generalizing r place with
  | nil =>
    cases read
    cases ran
    cases Json.Reader.eq_of_result? ended
    cases abreast with
    | before takes => rcases takes with takes | takes <;> cases takes
    | after spells nests =>
      cases nests
      cases found
      exact spells
  | mark marks cut ih =>
    obtain ⟨_, steps, read⟩ := Json.Reader.run_cons_steps read
    obtain ⟨next, stepped, onward⟩ := Option.bind_eq_some_iff.mp ran
    obtain ⟨abreast, rfl⟩ := mark_abreast abreast steps marks stepped
    exact ih abreast read onward
  | string cut ih =>
    obtain ⟨_, steps, read⟩ := Json.Reader.run_cons_steps read
    obtain ⟨next, stepped, onward⟩ := Option.bind_eq_some_iff.mp ran
    cases steps with
    | string takes =>
      obtain ⟨abreast, rfl⟩ := scalar_abreast takes abreast .text stepped
      exact ih abreast read onward
    | key takes =>
      -- a colon follows, which is cut into tokens together with its key only
      cases cut with
      | nil =>
        cases read
        cases ended
      | mark marks =>
        obtain ⟨_, colon, -⟩ := Json.Reader.run_cons_steps read
        cases colon.colon_eq.1
        cases marks
      | string | scalar | key =>
        obtain ⟨_, colon, -⟩ := Json.Reader.run_cons_steps read
        cases colon.colon_eq.1
  | scalar value cut ih =>
    obtain ⟨_, steps, read⟩ := Json.Reader.run_cons_steps read
    obtain ⟨next, stepped, onward⟩ := Option.bind_eq_some_iff.mp ran
    cases steps with
    | scalar takes =>
      obtain ⟨abreast, rfl⟩ := scalar_abreast takes abreast (.plain value) stepped
      exact ih abreast read onward
  | key kinds cut ih =>
    obtain ⟨_, steps, read⟩ := Json.Reader.run_cons_steps read
    obtain ⟨_, colon, read⟩ := Json.Reader.run_cons_steps read
    cases steps with
    | string => cases colon
    | key takes =>
      obtain ⟨-, rfl⟩ := colon.colon_eq
      obtain ⟨place, abreast, ran⟩ := key_abreast takes abreast kinds ran
      exact ih abreast read ran

/-- Where a text begins with no directive, its node is read as that of a document begun. -/
theorem start_run (cut : Tokenised (token :: ts) ys) :
    start.run ys = run ⟨.want [.document], start.names⟩ ys := by
  cases cut with
  | @mark _ mark _ ys marks =>
    have same : start.step mark = step ⟨.want [.document], start.names⟩ mark := by
      cases token <;> cases marks <;> rfl
    rw [run, run, same]
  | string | scalar => rfl
  | key kinds => rcases kinds with rfl | rfl <;> rfl

end Builder

theorem Node.read?_spells {text : String} (unfolded : Unfolded text.toList)
    (agree : NumbersAgree text.toList) (value : Json.read? text = some json)
    (read : Node.read? text = some root) : Spells root json := by
  obtain ⟨ts, scanned, value⟩ := Option.bind_eq_some_iff.mp value
  obtain ⟨final, ran, ended⟩ := Option.bind_eq_some_iff.mp value
  obtain ⟨ys, found, read⟩ := Option.bind_eq_some_iff.mp read
  obtain ⟨done, built, result⟩ := Option.bind_eq_some_iff.mp read
  have cut := tokens?_tokenised unfolded agree scanned ran ended found
  cases ts with
  | nil =>
    cases ran
    cases ended
  | cons token ts =>
    rw [Builder.start_run cut] at built
    exact Builder.run_spells cut (.before (.inl rfl) .document) ran ended built result

end LoadPlan.Yaml
