import LoadPlan.CommandLine.Command
import Mathlib.Data.List.Basic

/-! Command lines from which the output option is left out. Options are read one after another, and
each is looked up apart from the others, so that such a line gives the same command but for its output. -/
namespace LoadPlan.Command

/-- Arguments without the output option and its value. -/
def withoutOutput : List String → List String
  | [] => []
  | argument :: rest =>
    match ask? compileFlags argument with
    | some (.flag flag (some _)) =>
      if flag = outputFlag then withoutOutput rest else argument :: withoutOutput rest
    | some (.flag flag none) =>
      match rest with
      | value :: rest =>
        if flag = outputFlag then withoutOutput rest else argument :: value :: withoutOutput rest
      | [] => [argument]
    | _ => argument :: rest

/-- Options but for the output. -/
def others (values : List (Flag × String)) : List (Flag × String) :=
  values.filter (·.1 ≠ outputFlag)

section
variable {values added all : List (Flag × String)} {flag : Flag} {value argument : String}
  {rest arguments : List String}

theorem others_cons_output : others ((outputFlag, value) :: values) = others values :=
  List.filter_cons_of_neg (by simp)

theorem others_cons (other : flag ≠ outputFlag) :
    others ((flag, value) :: values) = (flag, value) :: others values :=
  List.filter_cons_of_pos (by simpa using other)

theorem lookup_others (values : List (Flag × String)) (other : flag ≠ outputFlag) :
    (others values).lookup flag = values.lookup flag := by
  induction values with
  | nil => rfl
  | cons entry rest ih =>
    obtain ⟨first, value⟩ := entry
    by_cases output : first = outputFlag
    · subst output
      rw [others_cons_output, ih, List.lookup_cons, beq_false_of_ne other]
    · rw [others_cons output, List.lookup_cons, List.lookup_cons, ih]

theorem lookup_others_output (values : List (Flag × String)) :
    (others values).lookup outputFlag = none := by
  rw [List.lookup_eq_none_iff]
  intro entry member
  have other : entry.1 ≠ outputFlag := by simpa [others] using And.right (List.mem_filter.mp member)
  exact bne_iff_ne.mpr other.symm

/-- One more option is the newest, and was not given before. -/
theorem add?_eq_some :
    add? values flag value = some added ↔
      values.lookup flag = none ∧ flag.kind.accepts value ∧ added = (flag, value) :: values := by
  rw [add?]
  cases given : values.lookup flag <;> cases accepted : flag.kind.accepts value <;> simp [eq_comm]

theorem add?_output (new : add? values outputFlag value = some added) : others added = others values := by
  obtain ⟨-, -, rfl⟩ := add?_eq_some.mp new
  exact others_cons_output

theorem add?_other (other : flag ≠ outputFlag) (new : add? values flag value = some added) :
    add? (others values) flag value = some (others added) := by
  obtain ⟨first, accepted, rfl⟩ := add?_eq_some.mp new
  exact add?_eq_some.mpr ⟨(lookup_others values other).trans first, accepted, others_cons other⟩

theorem ne_end_of_asked (asked : ask? compileFlags argument = some ask) : argument ≠ "--" := by
  rintro rfl
  have ends : ask? compileFlags "--" = none := by decide
  cases ends.symm.trans asked

/-- An option is given with its value in one argument, or in two. -/
inductive Gives (flag : Flag) (value : String) : List String → Prop where
  | attached (asked : ask? compileFlags name = some (.flag flag (some value))) :
      Gives flag value [name]
  | next (asked : ask? compileFlags name = some (.flag flag none)) (fit : isValue value) :
      Gives flag value [name, value]

namespace Gives
variable {used : List String}

theorem given?_append (gives : Gives flag value used) :
    given? compileFlags values (used ++ rest) =
      (add? values flag value).bind (given? compileFlags · rest) := by
  cases gives with
  | attached asked =>
    rw [List.singleton_append, given?, asked]
    intro ends _
    exact ne_end_of_asked asked ends
  | next asked fit =>
    rw [List.cons_append, List.singleton_append, given?, asked]
    · exact if_pos fit
    · intro ends _
      exact ne_end_of_asked asked ends

theorem withoutOutput_append (gives : Gives flag value used) :
    withoutOutput (used ++ rest) =
      if flag = outputFlag then withoutOutput rest else used ++ withoutOutput rest := by
  cases gives with
  | attached asked =>
    rw [List.singleton_append, withoutOutput, asked]
    rfl
  | next asked fit =>
    rw [List.cons_append, List.singleton_append, withoutOutput, asked]
    rfl

/-- One more option is left out of the values with the arguments that give it, or stays in both. -/
theorem keeps_others (gives : Gives flag value used)
    (given : given? compileFlags values (used ++ rest) = some (.values all))
    (later : ∀ added, given? compileFlags added rest = some (.values all) →
      given? compileFlags (others added) (withoutOutput rest) = some (.values (others all))) :
    given? compileFlags (others values) (withoutOutput (used ++ rest)) =
      some (.values (others all)) := by
  rw [gives.given?_append] at given
  obtain ⟨added, new, read⟩ := Option.bind_eq_some_iff.mp given
  rw [gives.withoutOutput_append]
  by_cases output : flag = outputFlag
  · subst output
    rw [if_pos rfl, ← add?_output new]
    exact later added read
  · rw [if_neg output, gives.given?_append, add?_other output new]
    exact later added read

end Gives

/-- Without the output option, arguments give the other values. -/
theorem given?_withoutOutput (given : given? compileFlags values arguments = some (.values all)) :
    given? compileFlags (others values) (withoutOutput arguments) = some (.values (others all)) := by
  induction values, arguments using given?.induct compileFlags with
  | case1 values =>
    cases given
    rfl
  | case2 values =>
    cases given
    rfl
  | case4 values name rest _ flag value asked later =>
    exact (Gives.attached asked).keeps_others given later
  | case5 values name flag asked value rest fit _ later =>
    exact (Gives.next asked fit).keeps_others given later
  -- an option that cannot be read, or a request for help, gives no values
  | case3 | case6 | case7 | case8 => simp_all [given?]

theorem layerOf_others (values : List (Flag × String)) : layerOf (others values) = layerOf values := by
  rw [layerOf, layerOf, lookup_others _ (by decide), lookup_others _ (by decide),
    lookup_others _ (by decide), lookup_others _ (by decide), lookup_others _ (by decide)]

/-- The options of a compile command are looked up in the values that were given. -/
theorem compileOf?_eq_some {o : CompileOptions} :
    compileOf? arguments = some (.compile o) ↔
      ∃ values, given? compileFlags [] arguments = some (.values values) ∧
        values.lookup specFlag = some o.spec ∧ values.lookup outputFlag = o.output ∧
        values.lookup settingsFlag = o.settingsFile ∧ layerOf values = o.settings := by
  obtain ⟨spec, output, settingsFile, settings⟩ := o
  unfold compileOf?
  constructor
  · intro given
    obtain ⟨values | _, read, given⟩ := Option.bind_eq_some_iff.mp given
    · obtain ⟨spec, named, given⟩ := Option.bind_eq_some_iff.mp given
      cases given
      exact ⟨values, read, named, rfl, rfl, rfl⟩
    · cases given
  · rintro ⟨values, read, named, rfl, rfl, rfl⟩
    exact Option.bind_eq_some_iff.mpr
      ⟨.values values, read, Option.bind_eq_some_iff.mpr ⟨spec, named, rfl⟩⟩

/-- A compile command stays one without its output option, and differs in its output only. -/
theorem parse?_withoutOutput {o : CompileOptions}
    (given : parse? ("compile" :: arguments) = some (.compile o)) :
    parse? ("compile" :: withoutOutput arguments) = some (.compile { o with output := none }) := by
  obtain ⟨values, read, named, -, settingsFile, settings⟩ := compileOf?_eq_some.mp given
  refine compileOf?_eq_some.mpr ⟨others values, given?_withoutOutput read, ?_, ?_, ?_, ?_⟩
  · exact (lookup_others values (by decide)).trans named
  · exact lookup_others_output values
  · exact (lookup_others values (by decide)).trans settingsFile
  · exact (layerOf_others values).trans settings

end

example : withoutOutput ["--spec=a", "-O", "b", "--loops", "2"] = ["--spec=a", "--loops", "2"] := by
  decide

end LoadPlan.Command
