import Mathlib
import LoadPlan.Document.Server
import LoadPlan.Proofs.Json.Fields
import LoadPlan.Proofs.Plan.Paths

/-! The variables of a server. They are filled in one after another, and each is looked for in what the
earlier ones left, their defaults included. That is the same as filling them all in together, in whatever
order they are listed, as long as it leaves no variable's name in braces: one that came about in between
would still be there in the end. -/
namespace LoadPlan

namespace Text
variable {pattern put before cs : List Char}

theorem replaceChars_match (some : pattern ≠ []) :
    replaceChars pattern put (pattern ++ cs) = put ++ replaceChars pattern put cs := by
  obtain ⟨c, rest, rfl⟩ := List.exists_cons_of_ne_nil some
  have begins : (c :: rest).isPrefixOf (c :: (rest ++ cs)) :=
    List.isPrefixOf_iff_prefix.mpr (List.prefix_append (c :: rest) cs)
  rw [List.cons_append, replaceChars, if_pos begins, List.length_cons, Nat.add_sub_cancel,
    List.drop_left]

/-- Where no match begins a text stays as it is. -/
theorem replaceChars_keep
    (none : ∀ place < before.length, ¬ pattern <+: (before ++ cs).drop place) :
    replaceChars pattern put (before ++ cs) = before ++ replaceChars pattern put cs := by
  induction before with
  | nil => rfl
  | cons c before ih =>
    have here : ¬ pattern.isPrefixOf (c :: (before ++ cs)) := fun begins =>
      none 0 (Nat.zero_lt_succ _) (List.isPrefixOf_iff_prefix.mp begins)
    rw [List.cons_append, replaceChars, if_neg here,
      ih fun place within => none (place + 1) (Nat.succ_lt_succ within), List.cons_append]

end Text

/-- Where no key stands twice, the order of fields makes no difference to a look-up. -/
theorem Json.lookup_perm {fields listed : List (String × Json)} (same : listed.Perm fields)
    (distinct : (fields.map Prod.fst).Nodup) (key : String) :
    listed.lookup key = fields.lookup key := by
  induction same with
  | nil => rfl
  | cons field _ ih =>
    obtain ⟨name, value⟩ := field
    rw [lookup_field, lookup_field, ih (List.nodup_cons.mp distinct).2]
  | swap first second rest =>
    obtain ⟨name, value⟩ := first
    obtain ⟨other, value'⟩ := second
    have different : name ≠ other := by
      rintro rfl
      simp at distinct
    simp only [lookup_field]
    grind
  | trans _ later first second =>
    rw [first ((later.map Prod.fst).nodup_iff.mpr distinct), second distinct]

namespace Document
open Placeholder (closed_append)

/-- A text without braces. -/
def Unbraced (cs : List Char) : Prop := '\x7b' ∉ cs ∧ '\x7d' ∉ cs

instance (cs : List Char) : Decidable (Unbraced cs) := inferInstanceAs (Decidable (_ ∧ _))

def isUnbraced (c : Char) : Bool := c != '\x7b' && c != '\x7d'

/-- The name in braces that a text begins with. -/
def nameAt? : List Char → Option String
  | '\x7b' :: rest =>
    if (rest.dropWhile isUnbraced).head? == some '\x7d' then
      some (String.ofList (rest.takeWhile isUnbraced))
    else none
  | _ => none

/-- The variable that a text begins with, and what is to stand for it. -/
def variableAt? (values : String → Option String) (cs : List Char) : Option (String × String) :=
  (nameAt? cs).bind fun name => (values name).map (name, ·)

/-- Variables filled in together: the text is gone through once, and what comes to stand for a variable
is not looked at. -/
def filled (values : String → Option String) (cs : List Char) : List Char :=
  match cs with
  | [] => []
  | c :: rest =>
    match variableAt? values (c :: rest) with
    | some (name, value) => value.toList ++ filled values (rest.drop (name.length + 1))
    | none => c :: filled values rest
  termination_by cs.length
  decreasing_by all_goals simp only [List.length_drop, List.length_cons]; omega

/-- The default of a variable, if it has a text for one. -/
def default? (entry : Json) : Option String := (entry.get? "default").bind Json.string?

/-- The default of the variable that is listed under a name. -/
def defaultOf (entries : List (String × Json)) (name : String) : Option String :=
  (entries.lookup name).bind default?

/-- A text in which no variable is left to be filled in. -/
def Settled (values : String → Option String) (cs : List Char) : Prop :=
  ∀ name value, values name = some value → ¬ (placeholder name).toList <:+: cs

section
variable {values all : String → Option String} {name value : String} {w cs rest : List Char}

theorem placeholder_append (name : String) (rest : List Char) :
    (placeholder name).toList ++ rest = '\x7b' :: (name.toList ++ '\x7d' :: rest) := by
  simp [placeholder]

theorem unbraced_cons {c : Char} : Unbraced (c :: w) ↔ isUnbraced c ∧ Unbraced w := by
  simp only [Unbraced, isUnbraced, List.mem_cons, not_or, Bool.and_eq_true, bne_iff_ne, ne_eq]
  grind

theorem unbraced_iff : Unbraced w ↔ ∀ c ∈ w, isUnbraced c := by
  induction w with
  | nil => simp [Unbraced]
  | cons c w ih => rw [unbraced_cons, List.forall_mem_cons, ih]

/-- Braces around a text without braces hold that text only. -/
theorem closed_unique {u : List Char} {more : List Char} (plain : Unbraced w) (plain' : Unbraced u)
    (same : w ++ '\x7d' :: rest = u ++ '\x7d' :: more) : w = u ∧ rest = more := by
  have front (w rest : List Char) (plain : Unbraced w) :
      (w ++ '\x7d' :: rest).takeWhile isUnbraced = w ∧
        (w ++ '\x7d' :: rest).dropWhile isUnbraced = '\x7d' :: rest := by
    have inside := unbraced_iff.mp plain
    rw [List.takeWhile_append_of_pos inside, List.dropWhile_append_of_pos inside]
    simp [isUnbraced]
  obtain ⟨first, behind⟩ := front w rest plain
  obtain ⟨first', behind'⟩ := front u more plain'
  rw [same] at first behind
  exact ⟨first.symm.trans first', (List.cons.inj (behind.symm.trans behind')).2⟩

theorem nameAt?_eq_some : nameAt? cs = some name ↔
    Unbraced name.toList ∧ ∃ rest, cs = (placeholder name).toList ++ rest := by
  constructor
  · intro found
    unfold nameAt? at found
    split at found
    · rename_i after
      obtain ⟨closed, same⟩ := Option.ite_none_right_eq_some.mp found
      cases same
      obtain ⟨rest, closing⟩ := List.head?_eq_some_iff.mp (eq_of_beq closed)
      have unbraced : Unbraced (after.takeWhile isUnbraced) :=
        unbraced_iff.mpr fun c member => List.mem_takeWhile_imp member
      refine ⟨by rwa [String.toList_ofList], rest, ?_⟩
      rw [placeholder_append, String.toList_ofList, ← closing, List.takeWhile_append_dropWhile]
    · contradiction
  · rintro ⟨unbraced, rest, rfl⟩
    have inside := unbraced_iff.mp unbraced
    rw [placeholder_append]
    simp [nameAt?, List.takeWhile_append_of_pos inside, List.dropWhile_append_of_pos inside,
      isUnbraced]

theorem variableAt?_eq_some : variableAt? values cs = some (name, value) ↔
    values name = some value ∧ Unbraced name.toList ∧
      ∃ rest, cs = (placeholder name).toList ++ rest := by
  simp only [variableAt?, Option.bind_eq_some_iff, nameAt?_eq_some, Option.map_eq_some_iff]
  grind

@[simp] theorem filled_nil : filled values [] = [] := by rw [filled]

theorem filled_variable (valued : values name = some value) (unbraced : Unbraced name.toList) :
    filled values ((placeholder name).toList ++ rest) = value.toList ++ filled values rest := by
  have found := variableAt?_eq_some.mpr ⟨valued, unbraced, rest, rfl⟩
  have behind : (name.toList ++ '\x7d' :: rest).drop (name.length + 1) = rest := by
    rw [← String.length_toList, List.drop_length_add_append]
    rfl
  rw [placeholder_append] at found ⊢
  rw [filled, found]
  simp only [behind]

theorem filled_kept {c : Char} (none : variableAt? values (c :: rest) = none) :
    filled values (c :: rest) = c :: filled values rest := by
  rw [filled, none]

theorem variableAt?_none_of_head {c : Char} (other : c ≠ '\x7b') :
    variableAt? values (c :: rest) = none := by
  have unnamed : nameAt? (c :: rest) = none := by
    unfold nameAt?
    split
    · rename_i brace
      exact absurd (List.cons.inj brace).1 other
    · rfl
  rw [variableAt?, unnamed, Option.bind_none]

/-- Nothing is filled in up to the next brace, or for one that closes. -/
theorem filled_closed (unbraced : Unbraced w) :
    filled values (w ++ '\x7d' :: rest) = w ++ '\x7d' :: filled values rest := by
  induction w with
  | nil => exact filled_kept (variableAt?_none_of_head (by decide))
  | cons c w ih =>
    obtain ⟨plain, others⟩ := unbraced_cons.mp unbraced
    have other : c ≠ '\x7b' := by
      rintro rfl
      contradiction
    rw [List.cons_append, filled_kept (variableAt?_none_of_head other), ih others, List.cons_append]

/-- A name in braces without a value stays. -/
theorem filled_unvalued (unvalued : values name = none) (unbraced : Unbraced name.toList) :
    filled values ((placeholder name).toList ++ rest) =
      (placeholder name).toList ++ filled values rest := by
  have none : variableAt? values ((placeholder name).toList ++ rest) = none := by
    rw [variableAt?, nameAt?_eq_some.mpr ⟨unbraced, rest, rfl⟩, Option.bind_some, unvalued]
    rfl
  rw [placeholder_append] at none ⊢
  rw [filled_kept none, filled_closed unbraced, placeholder_append]

/-- A text is gone through variable by variable, and character by character between them. -/
theorem filled_induction (values : String → Option String) {motive : List Char → Prop} (nil : motive [])
    (variable_ : ∀ name value rest, values name = some value → Unbraced name.toList → motive rest →
      motive ((placeholder name).toList ++ rest))
    (kept : ∀ c rest, variableAt? values (c :: rest) = none → motive rest → motive (c :: rest))
    (cs : List Char) : motive cs := by
  fun_induction filled values cs with
  | case1 => exact nil
  | case2 c rest name value found ih =>
    obtain ⟨valued, unbraced, behind, text⟩ := variableAt?_eq_some.mp found
    rw [placeholder_append] at text
    obtain ⟨rfl, rfl⟩ := List.cons.inj text
    rw [← String.length_toList, List.drop_length_add_append] at ih
    rw [← placeholder_append]
    exact variable_ name value behind valued unbraced ih
  | case3 c rest none ih => exact kept c rest none ih

theorem filled_unlisted (cs : List Char) : filled (fun _ => none) cs = cs := by
  induction cs using filled_induction fun _ => none with
  | nil => exact filled_nil
  | variable_ name value rest valued => contradiction
  | kept c rest none ih => rw [filled_kept none, ih]

theorem placeholder_prefix_cons {c : Char} : (placeholder name).toList <+: c :: cs ↔
    c = '\x7b' ∧ ∃ rest, cs = name.toList ++ '\x7d' :: rest := by
  constructor
  · rintro ⟨rest, text⟩
    rw [placeholder_append] at text
    obtain ⟨rfl, rfl⟩ := List.cons.inj text
    exact ⟨rfl, rest, rfl⟩
  · rintro ⟨rfl, rest, rfl⟩
    exact ⟨rest, placeholder_append name rest⟩

/-- No name in braces begins within another one. -/
theorem placeholder_prefix_drop {other : String} {place : Nat}
    (within : place < (placeholder other).toList.length) (unbraced : Unbraced name.toList)
    (unbraced' : Unbraced other.toList)
    (begins : (placeholder name).toList <+: ((placeholder other).toList ++ cs).drop place) :
    name = other := by
  cases place with
  | zero =>
    rw [List.drop_zero, placeholder_append, placeholder_prefix_cons] at begins
    obtain ⟨-, rest, same⟩ := begins
    exact (String.toList_inj.mp (closed_unique unbraced' unbraced same).1).symm
  | succ place =>
    have split : ((placeholder other).toList ++ cs).drop (place + 1) =
        (other.toList ++ ['\x7d']).drop place ++ cs := by
      rw [← List.drop_append_of_le_length (by simpa [placeholder] using Nat.le_of_lt within)]
      simp [placeholder]
    rw [split] at begins
    -- What begins there begins with a character of the name, or with the brace that closes it.
    cases behind : (other.toList ++ ['\x7d']).drop place with
    | nil => simp [placeholder] at behind within; omega
    | cons c more =>
      rw [behind, List.cons_append, placeholder_prefix_cons] at begins
      have member : c ∈ other.toList ++ ['\x7d'] :=
        List.mem_of_mem_drop (behind ▸ List.mem_cons_self)
      rcases List.mem_append.mp member with inside | last
      · exact absurd (begins.1 ▸ inside) unbraced'.1
      · cases List.mem_singleton.mp last
        exact absurd begins.1 (by decide)

theorem Settled.of_suffix {fill : List Char} (settled : Settled values cs) (last : fill <:+ cs) :
    Settled values fill :=
  fun name value valued inside => settled name value valued (inside.trans last.isInfix)

section
variable (extends_ : ∀ name value, values name = some value → all name = some value)
include extends_

theorem variableAt?_none_of_extends (unvalued : variableAt? all cs = none) :
    variableAt? values cs = none := by
  rw [Option.eq_none_iff_forall_ne_some]
  rintro ⟨name, value⟩ found
  obtain ⟨valued, begins⟩ := variableAt?_eq_some.mp found
  have found := variableAt?_eq_some.mpr ⟨extends_ name value valued, begins⟩
  rw [unvalued] at found
  contradiction

/-- What a brace closes when some variables are filled in it still closes when all are: the others have
braces around them, so they stand behind it. -/
theorem closed_filled (unbraced : Unbraced w) (closed : ∃ rest, filled values cs = w ++ '\x7d' :: rest) :
    ∃ rest, filled all cs = w ++ '\x7d' :: rest := by
  induction cs using filled_induction all generalizing w with
  | nil => simp at closed
  | variable_ name value rest valued named ih =>
    rw [filled_variable valued named]
    cases early : values name with
    | some value' =>
      cases (extends_ _ _ early).symm.trans valued
      rw [filled_variable early named] at closed
      rw [closed_append] at closed ⊢
      refine closed.imp_right ?_
      rintro ⟨last, split, behind⟩
      have unbraced' := unbraced_iff.mpr fun c member =>
        unbraced_iff.mp unbraced c (split ▸ List.mem_append_right _ member)
      exact ⟨last, split, ih unbraced' behind⟩
    | none =>
      obtain ⟨more, text⟩ := closed
      rw [filled_unvalued early named, placeholder_append] at text
      cases w with
      | nil => cases (List.cons.inj text).1
      | cons c w => exact absurd (unbraced_cons.mp unbraced).1 ((List.cons.inj text).1 ▸ by decide)
  | kept c rest none ih =>
    rw [filled_kept (variableAt?_none_of_extends extends_ none)] at closed
    rw [filled_kept none]
    obtain ⟨more, text⟩ := closed
    cases w with
    | nil => exact ⟨_, congrArg (· :: _) (List.cons.inj text).1⟩
    | cons d w =>
      obtain ⟨rfl, behind⟩ := List.cons.inj text
      obtain ⟨more, closed⟩ := ih (unbraced_cons.mp unbraced).2 ⟨more, behind⟩
      exact ⟨more, congrArg (c :: ·) closed⟩

theorem placeholder_prefix_filled {before : List Char} (some : before ≠ [])
    (unbraced : Unbraced name.toList)
    (begins : (placeholder name).toList <+: before ++ filled values cs) :
    (placeholder name).toList <+: before ++ filled all cs := by
  obtain ⟨c, before, rfl⟩ := List.exists_cons_of_ne_nil some
  rw [List.cons_append, placeholder_prefix_cons, closed_append] at begins ⊢
  refine ⟨begins.1, begins.2.imp_right ?_⟩
  rintro ⟨last, split, closed⟩
  have unbraced' := unbraced_iff.mpr fun c member =>
    unbraced_iff.mp unbraced c (split ▸ List.mem_append_right _ member)
  exact ⟨last, split, closed_filled extends_ unbraced' closed⟩

/-- One more variable is filled in. Its name in braces stands nowhere but where the template has it: one
that came about in between would still be there when all variables are filled in. -/
theorem replaceChars_filled {next : String → Option String} (unbraced : Unbraced name.toList)
    (fresh : values name = none) (valued : next name = some value)
    (others : ∀ other, other ≠ name → next other = values other)
    (within : ∀ name value, next name = some value → all name = some value)
    (settled : Settled all (filled all cs)) :
    Text.replaceChars (placeholder name).toList value.toList (filled values cs) = filled next cs := by
  have grows : ∀ other text, values other = some text → next other = some text := by
    intro other text early
    by_cases same : other = name
    · cases same
      cases fresh.symm.trans early
    · rw [others other same, early]
  have nonempty : (placeholder name).toList ≠ [] := by simp [placeholder]
  induction cs using filled_induction all with
  | nil => rw [filled_nil, filled_nil, Text.replaceChars]
  | variable_ other text rest valued' unbraced' ih =>
    rw [filled_variable valued' unbraced'] at settled
    have again := ih (settled.of_suffix (List.suffix_append _ _))
    cases early : values other with
    | some text' =>
      cases (extends_ _ _ early).symm.trans valued'
      rw [filled_variable early unbraced', filled_variable (grows _ _ early) unbraced',
        Text.replaceChars_keep, again]
      intro place inside begins
      rw [List.drop_append_of_le_length (Nat.le_of_lt inside)] at begins
      have some : text.toList.drop place ≠ [] := by simpa using inside
      have still := placeholder_prefix_filled extends_ some unbraced begins
      rw [← List.drop_append_of_le_length (Nat.le_of_lt inside)] at still
      exact settled name value (within _ _ valued)
        (still.isInfix.trans (List.drop_suffix _ _).isInfix)
    | none =>
      rw [filled_unvalued early unbraced']
      by_cases same : other = name
      · cases same
        cases (within _ _ valued).symm.trans valued'
        rw [Text.replaceChars_match nonempty, filled_variable valued unbraced', again]
      · have late : next other = none := (others other same).trans early
        rw [filled_unvalued late unbraced', Text.replaceChars_keep, again]
        intro place inside begins
        exact same (placeholder_prefix_drop inside unbraced unbraced' begins).symm
  | kept c rest none ih =>
    rw [filled_kept none] at settled
    have again := ih (settled.of_suffix (List.suffix_cons _ _))
    rw [filled_kept (variableAt?_none_of_extends extends_ none),
      filled_kept (variableAt?_none_of_extends within none), ← List.singleton_append,
      Text.replaceChars_keep, again, List.singleton_append]
    intro place inside begins
    cases Nat.lt_one_iff.mp inside
    have still := placeholder_prefix_filled extends_ (List.cons_ne_nil c []) unbraced begins
    exact settled name value (within _ _ valued) still.isInfix

end

end

theorem fillVariable_eq (url name : String) (entry : Json) : fillVariable url name entry =
    match default? entry with
    | some value => Text.replace url (placeholder name) value
    | none => url := rfl

section
variable {entries done rest : List (String × Json)} {name value : String} {cs : List Char}

theorem defaultOf_append_left (valued : defaultOf done name = some value) :
    defaultOf (done ++ rest) name = some value := by
  obtain ⟨entry, found, given⟩ := Option.bind_eq_some_iff.mp valued
  rw [defaultOf, List.lookup_append, found, Option.some_or, Option.bind_some, given]

theorem defaultOf_append_other {entry : Json} {other : String} (different : other ≠ name) :
    defaultOf (done ++ [(name, entry)]) other = defaultOf done other := by
  rw [defaultOf, List.lookup_append, Json.lookup_field, if_neg different, List.lookup_nil,
    Option.or_none, defaultOf]

theorem defaultOf_new (entry : Json) (fresh : name ∉ done.map Prod.fst) :
    defaultOf done name = none ∧ defaultOf (done ++ [(name, entry)]) name = default? entry := by
  have missing := Json.lookup_eq_none.mpr fresh
  constructor
  · rw [defaultOf, missing, Option.bind_none]
  · rw [defaultOf, List.lookup_append, missing, Json.lookup_field, if_pos rfl, Option.none_or,
      Option.bind_some]

/-- The variables that are not filled in yet are filled in one after another. -/
theorem fillVariables_filled (distinct : ((done ++ rest).map Prod.fst).Nodup)
    (unbraced : ∀ name ∈ (done ++ rest).map Prod.fst, Unbraced name.toList)
    (settled : Settled (defaultOf (done ++ rest)) (filled (defaultOf (done ++ rest)) cs)) :
    fillVariables (String.ofList (filled (defaultOf done) cs)) rest =
      String.ofList (filled (defaultOf (done ++ rest)) cs) := by
  induction rest generalizing done with
  | nil => rw [List.append_nil]; rfl
  | cons field rest ih =>
    obtain ⟨name, entry⟩ := field
    have split : done ++ (name, entry) :: rest = (done ++ [(name, entry)]) ++ rest := by simp
    have fresh : name ∉ done.map Prod.fst := by
      rw [List.map_append, List.map_cons, List.nodup_append] at distinct
      exact fun early => distinct.2.2 name early name List.mem_cons_self rfl
    have own : Unbraced name.toList := unbraced name (by simp)
    obtain ⟨before, after⟩ := defaultOf_new entry fresh
    rw [split] at distinct unbraced settled ⊢
    have step : fillVariable (String.ofList (filled (defaultOf done) cs)) name entry =
        String.ofList (filled (defaultOf (done ++ [(name, entry)])) cs) := by
      rw [fillVariable_eq]
      cases given : default? entry with
      | some value =>
        have later : ∀ other text, defaultOf (done ++ [(name, entry)]) other = some text →
            defaultOf ((done ++ [(name, entry)]) ++ rest) other = some text :=
          fun other text early => defaultOf_append_left early
        have replaced := replaceChars_filled
          (fun other text early => later other text (defaultOf_append_left early)) own before
          (after.trans given) (fun other different => defaultOf_append_other different) later settled
        exact congrArg String.ofList (String.toList_ofList ▸ replaced)
      | none =>
        have same : defaultOf (done ++ [(name, entry)]) = defaultOf done := by
          funext other
          by_cases here : other = name
          · rw [here, before, after, given]
          · exact defaultOf_append_other here
        rw [same]
    exact (congrArg (fillVariables · rest) step).trans (ih distinct unbraced settled)

end

/-- No name in braces stands within other braces: behind an opening brace a closing one comes before the
next that opens. -/
def isFlat (opened : Bool) : List Char → Bool
  | [] => true
  | '\x7b' :: rest => !opened && isFlat true rest
  | '\x7d' :: rest => isFlat false rest
  | _ :: rest => isFlat opened rest

section
variable {values : String → Option String} {opened : Bool} {w cs rest : List Char}

theorem isFlat_other {c : Char} (plain : isUnbraced c) :
    isFlat opened (c :: rest) = isFlat opened rest := by
  obtain ⟨opening, closing⟩ := Bool.and_eq_true_iff.mp plain
  rw [isFlat]
  · exact fun same => absurd same (bne_iff_ne.mp opening)
  · exact fun same => absurd same (bne_iff_ne.mp closing)

theorem isFlat_closed (unbraced : Unbraced w) :
    isFlat opened (w ++ '\x7d' :: rest) = isFlat false rest := by
  induction w with
  | nil => rfl
  | cons c w ih =>
    obtain ⟨plain, others⟩ := unbraced_cons.mp unbraced
    rw [List.cons_append, isFlat_other plain, ih others]

/-- What a brace closes when variables are filled in it closed before, if there are none in between. -/
theorem closed_of_filled (flat : isFlat true cs) (unbraced : Unbraced w)
    (closed : ∃ rest, filled values cs = w ++ '\x7d' :: rest) : ∃ rest, cs = w ++ '\x7d' :: rest := by
  induction cs generalizing w with
  | nil => simp at closed
  | cons c rest ih =>
    have other : c ≠ '\x7b' := by
      rintro rfl
      simp [isFlat] at flat
    rw [filled_kept (variableAt?_none_of_head other)] at closed
    obtain ⟨more, text⟩ := closed
    cases w with
    | nil => exact ⟨rest, congrArg (· :: rest) (List.cons.inj text).1⟩
    | cons d w =>
      obtain ⟨plain, others⟩ := unbraced_cons.mp unbraced
      obtain ⟨rfl, behind⟩ := List.cons.inj text
      rw [isFlat_other plain] at flat
      obtain ⟨after, rfl⟩ := ih flat others ⟨more, behind⟩
      exact ⟨after, rfl⟩

theorem infix_of_append {pattern before : List Char} (braced : pattern.head? = some '\x7b')
    (unbraced : '\x7b' ∉ before) (inside : pattern <:+: before ++ cs) : pattern <:+: cs := by
  induction before with
  | nil => exact inside
  | cons c before ih =>
    obtain ⟨other, unbraced⟩ := not_or.mp (mt List.mem_cons.mpr unbraced)
    rw [List.cons_append, List.infix_cons_iff] at inside
    rcases inside with ⟨rest, begins⟩ | later
    · obtain ⟨more, rfl⟩ := List.head?_eq_some_iff.mp braced
      exact absurd (List.cons.inj begins).1 other
    · exact ih unbraced later

/-- Defaults without braces make no name in braces in a text where none stands within other braces. -/
theorem settled_filled (named : ∀ name value, values name = some value → Unbraced name.toList)
    (plain : ∀ name value, values name = some value → Unbraced value.toList)
    (flat : isFlat opened cs) : Settled values (filled values cs) := by
  intro name value valued
  have unbraced := named name value valued
  have braced : (placeholder name).toList.head? = some '\x7b' := by simp [placeholder]
  induction cs using filled_induction values generalizing opened with
  | nil => simp [placeholder]
  | variable_ other text rest valued' unbraced' ih =>
    rw [placeholder_append, isFlat, Bool.and_eq_true, isFlat_closed unbraced'] at flat
    rw [filled_variable valued' unbraced']
    exact fun inside => ih flat.2 (infix_of_append braced (plain _ _ valued').1 inside)
  | kept c rest none ih =>
    rw [filled_kept none, List.infix_cons_iff]
    rintro (begins | later)
    · obtain ⟨rfl, closed⟩ := placeholder_prefix_cons.mp begins
      rw [isFlat, Bool.and_eq_true] at flat
      obtain ⟨after, rfl⟩ := closed_of_filled flat.2 unbraced closed
      rw [← placeholder_append, variableAt?_eq_some.mpr ⟨valued, unbraced, after, rfl⟩] at none
      contradiction
    · by_cases opening : c = '\x7b'
      · subst opening
        rw [isFlat, Bool.and_eq_true] at flat
        exact ih flat.2 later
      by_cases closing : c = '\x7d'
      · subst closing
        have behind : isFlat false rest := flat
        exact ih behind later
      · rw [isFlat_other (by simp [isUnbraced, opening, closing])] at flat
        exact ih flat later

end

/-- The first server that a document declares has a URL with variables. -/
def Serves (d : Document) (url : String) (entries : List (String × Json)) : Prop :=
  ∃ server, d.firstOf? "servers" = some server ∧ server.get? "url" = some (.string url) ∧
    server.get? "variables" = some (.object entries)

theorem Serves.declaredUrl? {d : Document} (serves : d.Serves url entries) :
    d.declaredUrl? = some (fillVariables url entries) := by
  obtain ⟨server, first, located, listed⟩ := serves
  simp [Document.declaredUrl?, first, serverUrl?, located, listed, Json.string?, Json.fields?]

/-- Variables are filled in together, in whatever order they are listed, and so in the base URL that a
document declares, if filling them in makes no name in braces of a variable. -/
theorem variables_filled_together {url : String} {entries : List (String × Json)}
    (distinct : (entries.map Prod.fst).Nodup)
    (unbraced : ∀ name ∈ entries.map Prod.fst, Unbraced name.toList)
    (settled : Settled (defaultOf entries) (filled (defaultOf entries) url.toList)) :
    fillVariables url entries = String.ofList (filled (defaultOf entries) url.toList) ∧
    ∀ listed, listed.Perm entries → fillVariables url listed = fillVariables url entries ∧
      ∀ d : Document, d.Serves url listed → d.declaredUrl? = some (fillVariables url entries) := by
  have together (listed) (same : listed.Perm entries) : fillVariables url listed =
      String.ofList (filled (defaultOf entries) url.toList) := by
    have defaults : defaultOf listed = defaultOf entries := by
      funext name
      rw [defaultOf, defaultOf, Json.lookup_perm same distinct]
    have keys := same.map Prod.fst
    have filling := @fillVariables_filled [] listed url.toList (keys.nodup_iff.mpr distinct)
      (fun name member => unbraced name (keys.mem_iff.mp member)) (defaults ▸ settled)
    have unlisted : defaultOf [] = fun _ => none := rfl
    rw [unlisted, filled_unlisted, String.ofList_toList, List.nil_append, defaults] at filling
    exact filling
  refine ⟨together entries (.refl _), fun listed same => ?_⟩
  have equal := (together listed same).trans (together entries (.refl _)).symm
  exact ⟨equal, fun d serves => serves.declaredUrl?.trans (congrArg some equal)⟩

/-- A server with a region and a host; for the version, it leaves the choice to others. -/
def regionEntries : List (String × Json) :=
  [("region", .object [("default", .string "eu")]),
    ("version", .object [("enum", .array [.string "v1"])]),
    ("host", .object [("default", .string "example.com")])]

def regionUrl : String := "https://\x7bregion\x7d.\x7bhost\x7d/\x7bversion\x7d"

theorem settled_regionEntries :
    Settled (defaultOf regionEntries) (filled (defaultOf regionEntries) regionUrl.toList) := by
  have known (name value : String) (valued : defaultOf regionEntries name = some value) :
      (name, value) ∈ [("region", "eu"), ("host", "example.com")] := by
    obtain ⟨entry, found, given⟩ := Option.bind_eq_some_iff.mp valued
    have member := Reference.mem_of_lookup found
    simp only [regionEntries, List.mem_cons, List.not_mem_nil, or_false, Prod.mk.injEq] at member
    rcases member with ⟨rfl, rfl⟩ | ⟨rfl, rfl⟩ | ⟨rfl, rfl⟩
    · cases given
      simp
    · contradiction
    · cases given
      simp
  have unbraced : ∀ entry ∈ [("region", "eu"), ("host", "example.com")],
      Unbraced entry.1.toList ∧ Unbraced entry.2.toList := by
    decide
  exact settled_filled (fun name value valued => (unbraced _ (known name value valued)).1)
    (fun name value valued => (unbraced _ (known name value valued)).2)
    (show isFlat false regionUrl.toList by decide)

/-- Neither order of the variables changes the base URL, and one without a default stays. -/
theorem region_filled_together :
    (regionEntries.map Prod.fst).Nodup ∧
      (∀ name ∈ regionEntries.map Prod.fst, Unbraced name.toList) ∧
      Settled (defaultOf regionEntries) (filled (defaultOf regionEntries) regionUrl.toList) ∧
      fillVariables regionUrl regionEntries = "https://eu.example.com/\x7bversion\x7d" ∧
      fillVariables regionUrl regionEntries.reverse = "https://eu.example.com/\x7bversion\x7d" := by
  have distinct : (regionEntries.map Prod.fst).Nodup := by decide
  have unbraced : ∀ name ∈ regionEntries.map Prod.fst, Unbraced name.toList := by decide
  obtain ⟨together, order⟩ := variables_filled_together distinct unbraced settled_regionEntries
  have text : String.ofList (filled (defaultOf regionEntries) regionUrl.toList) =
      "https://eu.example.com/\x7bversion\x7d" := by
    cbv
  exact ⟨distinct, unbraced, settled_regionEntries, together.trans text,
    (order _ (List.reverse_perm _)).1.trans (together.trans text)⟩

/-- A host whose default has a name in braces. -/
def hostEntries : List (String × Json) :=
  [("host", .object [("default", .string "\x7bregion\x7d.example.com")]),
    ("region", .object [("default", .string "eu")])]

def hostTemplate : String := "https://\x7bhost\x7d/v1"

/-- A name in braces in a default is filled in too if its variable is listed later, so that the order of
the variables tells. -/
theorem default_filled_in :
    (hostEntries.map Prod.fst).Nodup ∧ (∀ name ∈ hostEntries.map Prod.fst, Unbraced name.toList) ∧
      String.ofList (filled (defaultOf hostEntries) hostTemplate.toList) =
        "https://\x7bregion\x7d.example.com/v1" ∧
      fillVariables hostTemplate hostEntries = "https://eu.example.com/v1" ∧
      fillVariables hostTemplate hostEntries ≠
        String.ofList (filled (defaultOf hostEntries) hostTemplate.toList) ∧
      fillVariables hostTemplate hostEntries ≠ fillVariables hostTemplate hostEntries.reverse := by
  have together : String.ofList (filled (defaultOf hostEntries) hostTemplate.toList) =
      "https://\x7bregion\x7d.example.com/v1" := by
    cbv
  have listed : fillVariables hostTemplate hostEntries = "https://eu.example.com/v1" := by
    cbv
  have reversed : fillVariables hostTemplate hostEntries.reverse =
      "https://\x7bregion\x7d.example.com/v1" := by
    cbv
  refine ⟨by decide, by decide, together, listed, ?_, ?_⟩
  · rw [listed, together]
    decide
  · rw [listed, reversed]
    decide

end Document
end LoadPlan
