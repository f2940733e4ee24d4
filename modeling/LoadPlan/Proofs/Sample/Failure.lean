import LoadPlan.Proofs.Sample.Cycle

/-! Where synthesis fails. A call fails exactly if a call below it, however deep, comes to a marker whose
pointer leads nowhere: an error is passed on by every call above, and has no other cause. -/
namespace LoadPlan.Sample
open Reference (follow)
open Relation (ReflTransGen)

theorem Outcome.map_eq_error {outcome : Outcome α} {f : α → β} {d : Counters} :
    outcome.map f = (.error e, d) ↔ outcome = (.error e, d) := by
  obtain ⟨cause | value, c⟩ := outcome <;> simp [Outcome.map, Except.map]

theorem Outcome.map_eq_ok {outcome : Outcome α} {f : α → β} {d : Counters} :
    outcome.map f = (.ok result, d) ↔ ∃ value, outcome = (.ok value, d) ∧ f value = result := by
  obtain ⟨cause | value, c⟩ := outcome <;> simp [Outcome.map, Except.map, and_comm]

/-- What comes of inputs one after another, each with what those before it leave, until one fails. -/
def inTurn (make : α → Counters → Outcome β) : List α → Counters → Outcome (List β)
  | [], c => (.ok [], c)
  | input :: rest, c => (make input c).andThen fun made c => (inTurn make rest c).map (made :: ·)

section
variable {make : α → Counters → Outcome β} {input : α} {rest inputs : List α} {c d : Counters}

theorem inTurn_cons_error (failed : make input c = (.error e, d)) :
    inTurn make (input :: rest) c = (.error e, d) := by
  rw [inTurn, failed]
  rfl

theorem inTurn_cons_ok (done : make input c = (.ok made, d)) :
    inTurn make (input :: rest) c = (inTurn make rest d).map (made :: ·) := by
  rw [inTurn, done]
  rfl

/-- The first input that fails is preceded by inputs that do not. -/
theorem inTurn_eq_error :
    inTurn make inputs c = (.error e, d) ↔
      ∃ before input after results d', inputs = before ++ input :: after ∧
        inTurn make before c = (.ok results, d') ∧ make input d' = (.error e, d) := by
  induction inputs generalizing c with
  | nil => simp [inTurn]
  | cons first rest ih =>
    rcases made : make first c with ⟨cause | result, d'⟩
    · rw [inTurn_cons_error made]
      constructor
      · intro failed
        cases failed
        exact ⟨[], first, rest, [], c, rfl, rfl, made⟩
      · rintro ⟨_ | ⟨_, before⟩, input, after, results, d'', split, done, failed⟩
        · cases split
          cases done
          cases made.symm.trans failed
          rfl
        · cases split
          cases (inTurn_cons_error made).symm.trans done
    · rw [inTurn_cons_ok made, Outcome.map_eq_error, ih]
      constructor
      · rintro ⟨before, input, after, results, d'', rfl, done, failed⟩
        refine ⟨first :: before, input, after, result :: results, d'', rfl, ?_, failed⟩
        rw [inTurn_cons_ok made, done]
        rfl
      · rintro ⟨_ | ⟨_, before⟩, input, after, results, d'', split, done, failed⟩
        · cases split
          cases done
          cases made.symm.trans failed
        · cases split
          rw [inTurn_cons_ok made, Outcome.map_eq_ok] at done
          obtain ⟨others, done, -⟩ := done
          exact ⟨before, input, after, others, d'', rfl, done, failed⟩

end

section
variable {chance : Chance} {root : Json} {path : List String} {properties : List (String × Json)}
  {c d : Counters}

/-- A sample of a property, under its name. -/
def sampleField (chance : Chance) (root : Json) (path : List String) (field : String × Json)
    (c : Counters) : Outcome (String × Json) :=
  (sample chance root path (some field.1) field.2 c).map (field.1, ·)

theorem sampleFields_eq_inTurn (properties : List (String × Json)) (c : Counters) :
    sampleFields chance root path properties c =
      inTurn (sampleField chance root path) properties c := by
  induction properties generalizing c with
  | nil => rw [sampleFields, inTurn]
  | cons field rest ih =>
    obtain ⟨name, part⟩ := field
    rw [sampleFields_cons, inTurn, sampleField]
    rcases sample chance root path (some name) part c with ⟨cause | value, d⟩
    · rfl
    · exact congrArg (Outcome.map _) (ih d)

/-- Properties fail with the first of them that does, after samples of those before it. -/
theorem sampleFields_eq_error :
    sampleFields chance root path properties c = (.error e, d) ↔
      ∃ before name part after values d', properties = before ++ (name, part) :: after ∧
        sampleFields chance root path before c = (.ok values, d') ∧
        sample chance root path (some name) part d' = (.error e, d) := by
  simp only [sampleFields_eq_inTurn, inTurn_eq_error, Prod.exists, sampleField, Outcome.map_eq_error]

end

namespace Frame
variable {chance : Chance} {root : Json} {frame called : Frame} {d : Counters}

theorem sample_broken (broken : follow root frame.path frame.node = .error e) :
    frame.sample chance root = (.error e, frame.counters) := by
  rw [Frame.sample, sample_follow, broken]
  rfl

/-- A call fails at a broken chain of markers of its own, or as a call fails that it makes. -/
theorem sample_eq_error :
    frame.sample chance root = (.error e, d) ↔
      follow root frame.path frame.node = .error e ∧ frame.counters = d ∨
        ∃ called, Calls chance root frame called ∧ called.sample chance root = (.error e, d) := by
  constructor
  · intro failed
    obtain ⟨path, property, node, c⟩ := frame
    rw [Frame.sample, sample_follow] at failed
    rcases ends : follow root path node with cause | ⟨literal, via⟩ | pointer
    · rw [ends] at failed
      cases failed
      exact .inl ⟨rfl, rfl⟩
    · rw [ends, sampleResolution] at failed
      cases asked : form literal with
      | fixed | leaf =>
        rw [asked] at failed
        cases failed
      | items part =>
        rw [asked, sampleForm, Outcome.map_eq_error] at failed
        exact .inr ⟨_, .items ends asked, failed⟩
      | fields properties =>
        rw [asked, sampleForm, Outcome.map_eq_error, sampleFields_eq_error] at failed
        obtain ⟨before, name, part, after, values, d', rfl, sampled, failed⟩ := failed
        exact .inr ⟨_, .property ends asked sampled, failed⟩
    · rw [ends] at failed
      cases failed
  · rintro (⟨broken, rfl⟩ | ⟨called, calls, failed⟩)
    · exact sample_broken broken
    · cases calls with
      | items ends asked =>
        rw [Frame.sample, sample_follow, ends, sampleResolution, asked]
        exact Outcome.map_eq_error.mpr failed
      | property ends asked sampled =>
        rw [Frame.sample, sample_follow, ends, sampleResolution, asked]
        exact Outcome.map_eq_error.mpr
          (sampleFields_eq_error.mpr ⟨_, _, _, _, _, _, rfl, sampled, failed⟩)

/-- A call fails exactly if a call below it, at any depth, comes to a broken chain of markers. -/
theorem sample_error_iff :
    frame.sample chance root = (.error e, d) ↔
      ∃ deep, ReflTransGen (Calls chance root) frame deep ∧
        follow root deep.path deep.node = .error e ∧ deep.counters = d := by
  constructor
  · obtain ⟨path, property, node, c⟩ := frame
    intro failed
    induction path, node using sample_induction root generalizing property c with
    | unresolvable path node cause ends =>
      rw [sample_broken ends] at failed
      cases failed
      exact ⟨_, .refl, ends, rfl⟩
    | cycle path node pointer ends =>
      rw [Frame.sample, sample_follow, ends] at failed
      cases failed
    | literal path node literal via ends parts =>
      obtain ⟨broken, -⟩ | ⟨called, calls, failed⟩ := sample_eq_error.mp failed
      · cases ends.symm.trans broken
      · have below : ∃ deep, ReflTransGen (Calls chance root) called deep ∧
            follow root deep.path deep.node = .error e ∧ deep.counters = d := by
          cases calls with
          | items ends' asked =>
            cases ends.symm.trans ends'
            refine parts _ ?_ _ _ failed
            rw [asked]
            exact List.mem_cons_self
          | property ends' asked _ =>
            cases ends.symm.trans ends'
            refine parts _ ?_ _ _ failed
            rw [asked]
            exact List.mem_map_of_mem (List.mem_append_right _ List.mem_cons_self)
        obtain ⟨deep, later, broken⟩ := below
        exact ⟨deep, .head calls later, broken⟩
  · rintro ⟨deep, calls, broken, rfl⟩
    induction calls using ReflTransGen.head_induction_on with
    | refl => exact sample_broken broken
    | head first _ ih => exact sample_eq_error.mpr (.inr ⟨_, first, ih⟩)

end Frame
end LoadPlan.Sample
