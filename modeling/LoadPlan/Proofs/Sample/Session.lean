import LoadPlan.Proofs.Sample.Draws

/-! Sessions of synthesis. One path and one set of counters serve all calls: pointers are put at the
end of the path while what they lead to is sampled, and the path is cut back afterwards, after an
error too. Such a session gives what is sampled below the pointers on its path, which are the same
again when the call is over. -/
namespace LoadPlan.Sample
open Reference (follow)

structure Session where
  counters : Counters
  path : List String

/-- An answer, and the session after it. -/
abbrev Reply (α : Type) := Except ReferenceError α × Session

namespace Session

def fresh : Session := ⟨.start, []⟩

def extend (s : Session) (via : List String) : Session := { s with path := s.path ++ via }

def cut (s : Session) (length : Nat) : Session := { s with path := s.path.take length }

/-- Samples for properties, one after another until there is an error. -/
def visitEach (visit : String → Json → Session → Option (Reply Json)) :
    List (String × Json) → Session → Option (Reply (List (String × Json)))
  | [], s => some (.ok [], s)
  | (name, node) :: rest, s =>
    match visit name node s with
    | none => none
    | some (.error e, s) => some (.error e, s)
    | some (.ok value, s) =>
      (visitEach visit rest s).map fun (values, s) => (values.map ((name, value) :: ·), s)

section
variable (chance : Chance) (root : Json)

/-- A sample of a node, cut off at a number of levels: nothing comes of calls that nest deeper. -/
def visit : Nat → Option String → Json → Session → Option (Reply Json)
  | 0, _, _, _ => none
  | levels + 1, property, node, s =>
    match follow root s.path node with
    | .error e => some (.error e, s)
    | .ok (.cycle _) => some (.ok .null, s)
    | .ok (.literal literal via) =>
      let reply : Option (Reply Json) :=
        match form literal with
        | .fixed value => some (.ok value, s.extend via)
        | .leaf schema type =>
          some (.ok (leafValue chance schema property type s.counters).1,
            { s.extend via with counters := (leafValue chance schema property type s.counters).2 })
        | .items part =>
          (visit levels property part (s.extend via)).map fun (value, after) =>
            (value.map fun value => .array [value], after)
        | .fields properties =>
          (visitEach (fun name part => visit levels (some name) part) properties (s.extend via)).map
            fun (values, after) => (values.map .object, after)
      reply.map fun (answer, after) => (answer, after.cut s.path.length)

/-- A sample of a node below the pointers on the path. -/
def sample (s : Session) (property : Option String) (node : Json) : Option (Reply Json) :=
  visit chance root (levelBound root node) property node s

/-- What a session can be asked for. -/
inductive Job where
  | body (schema : BodySchema)
  | node (property : Option String) (node : Json)

/-- A body begins with identifiers at one and with its own pointers, and leaves no pointers. -/
def perform (s : Session) : Job → Option (Reply Json)
  | .body schema =>
    (sample chance root ⟨{ s.counters with nextId := 1 }, schema.via⟩ none schema.schema).map
      fun (answer, after) => (answer, { after with path := [] })
  | .node property node => s.sample chance root property node

/-- The session after jobs, whatever their answers are. -/
def performAll (s : Session) : List Job → Option Session
  | [] => some s
  | job :: rest => (s.perform chance root job).bind fun (_, after) => after.performAll rest

variable {chance root}

theorem visitEach_eq {visit : String → Json → Session → Option (Reply Json)}
    {sampler : String → Json → Counters → Option (Outcome Json)} {path : List String}
    (agrees : ∀ name node c, visit name node ⟨c, path⟩ =
      (sampler name node c).map fun (answer, c) => (answer, ⟨c, path⟩))
    (properties : List (String × Json)) (c : Counters) :
    visitEach visit properties ⟨c, path⟩ =
      (sampleEach sampler properties c).map fun (values, c) => (values, ⟨c, path⟩) := by
  induction properties generalizing c with
  | nil => rfl
  | cons field rest ih =>
    obtain ⟨name, node⟩ := field
    rw [visitEach, sampleEach, agrees]
    rcases sampler name node c with _ | ⟨_ | value, d⟩
    · rfl
    · rfl
    · simp only [Option.map_some, ih, Option.map_map]
      rfl

theorem cut_extend (c : Counters) (path via : List String) :
    (⟨c, path ++ via⟩ : Session).cut path.length = ⟨c, path⟩ := by
  rw [cut, List.take_left]

/-- The path is what it was, at whatever depth the calls are cut off. -/
theorem visit_eq (levels : Nat) (property : Option String) (node : Json) (s : Session) :
    visit chance root levels property node s =
      (sampleWithin chance root levels s.path property node s.counters).map fun (answer, c) =>
        (answer, ⟨c, s.path⟩) := by
  induction levels generalizing property node s with
  | zero => rfl
  | succ levels ih =>
    obtain ⟨c, path⟩ := s
    rw [visit, sampleWithin]
    rcases follow root path node with e | ⟨literal, via⟩ | pointer
    · rfl
    · simp only
      generalize form literal = asked
      cases asked with
      | fixed value => simp only [extend, cut_extend, Option.map_some]
      | leaf schema type => simp only [extend, cut_extend, Option.map_some]
      | items part =>
        simp only [extend, ih, Option.map_map]
        congr 1
        funext reply
        obtain ⟨answer, d⟩ := reply
        simp only [Function.comp, cut_extend, Outcome.map]
      | fields properties =>
        have each := visitEach_eq (fun name part c => ih (some name) part ⟨c, path ++ via⟩)
          properties c
        simp only [extend, each, Option.map_map]
        congr 1
        funext reply
        obtain ⟨answer, d⟩ := reply
        simp only [Function.comp, cut_extend, Outcome.map]
    · rfl

theorem sample_eq (s : Session) (property : Option String) (node : Json) :
    s.sample chance root property node =
      some ((Sample.sample chance root s.path property node s.counters).1,
        ⟨(Sample.sample chance root s.path property node s.counters).2, s.path⟩) := by
  have enough : sampleWithin chance root (levelBound root node) s.path property node s.counters =
      some (Sample.sample chance root s.path property node s.counters) :=
    sampleWithin_eq (Nat.le_max_left _ _) (room_lt_levelBound root node s.path) property s.counters
  rw [sample, visit_eq, enough, Option.map_some]

theorem perform_body (s : Session) (schema : BodySchema) :
    s.perform chance root (.body schema) =
      some ((sampleBody chance root schema s.counters).1,
        ⟨(sampleBody chance root schema s.counters).2, []⟩) := by
  rw [perform, sample_eq]
  rfl

/-- No job leaves pointers on the path, if there were none before. -/
theorem perform_path (chance : Chance) (root : Json) (job : Job) (s : Session)
    (empty : s.path = []) :
    ∃ answer after, s.perform chance root job = some (answer, after) ∧ after.path = [] := by
  cases job with
  | body schema => exact ⟨_, _, perform_body s schema, rfl⟩
  | node property node => exact ⟨_, _, sample_eq s property node, empty⟩

theorem performAll_path (chance : Chance) (root : Json) (jobs : List Job) (s : Session)
    (empty : s.path = []) :
    ∃ after, s.performAll chance root jobs = some after ∧ after.path = [] := by
  induction jobs generalizing s with
  | nil => exact ⟨s, rfl, empty⟩
  | cons job rest ih =>
    obtain ⟨answer, next, performed, clean⟩ := perform_path chance root job s empty
    obtain ⟨after, others, last⟩ := ih next clean
    refine ⟨after, ?_, last⟩
    rw [performAll, performed]
    exact others

end

end Session
end LoadPlan.Sample
