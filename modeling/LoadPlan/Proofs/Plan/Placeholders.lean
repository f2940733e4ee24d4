import LoadPlan.Plan.Placeholder
import Mathlib.Data.List.TakeWhile

/-! Where placeholders get their dollars. Matches are replaced one after another, and what is behind a
match is not looked at again until the search has come to it; so it takes an argument on the whole text
that every name in braces gets its dollar, by its own place alone, whatever stands around it. -/
namespace LoadPlan.Placeholder

/-- A text begins with a name of word characters in braces. -/
def Begins (cs : List Char) : Prop :=
  ∃ name rest, name ≠ [] ∧ (∀ c ∈ name, Text.isWord c) ∧ cs = '\x7b' :: (name ++ '\x7d' :: rest)

/-- A name in braces stands at a place of a text. -/
def OccursAt (cs : List Char) (place : Nat) : Prop := Begins (cs.drop place)

/-- A dollar stands right before a place of a text. -/
def DollarBefore (cs : List Char) (place : Nat) : Prop :=
  ∃ before, place = before + 1 ∧ cs[before]? = some '$'

/-- A name in braces stands there, and no dollar before it. -/
def BareAt (cs : List Char) (place : Nat) : Prop := OccursAt cs place ∧ ¬ DollarBefore cs place

theorem not_word_closing : Text.isWord '\x7d' = false := by decide

theorem ne_of_isWord {c d : Char} (word : Text.isWord c) (other : Text.isWord d = false) : c ≠ d := by
  rintro rfl
  exact absurd (word.symm.trans other) (by decide)

/-- The name is all that stands before the closing brace, since that is no word character. -/
theorem placeholder?_eq_some {cs found : List Char} : placeholder? cs = some found ↔
    ∃ name rest, name ≠ [] ∧ (∀ c ∈ name, Text.isWord c) ∧ found = '\x7b' :: (name ++ ['\x7d']) ∧
      cs = '\x7b' :: (name ++ '\x7d' :: rest) := by
  constructor
  · intro matched
    unfold placeholder? at matched
    split at matched
    · rename_i after
      simp only [Option.ite_none_right_eq_some, Bool.and_eq_true, Bool.not_eq_true',
        List.isEmpty_eq_false_iff, beq_iff_eq, Option.some.injEq] at matched
      obtain ⟨⟨some, closed⟩, rfl⟩ := matched
      obtain ⟨rest, closing⟩ := List.head?_eq_some_iff.mp closed
      refine ⟨_, rest, some, fun c member => List.mem_takeWhile_imp member, rfl, ?_⟩
      rw [← closing, List.takeWhile_append_dropWhile]
    · contradiction
  · rintro ⟨name, rest, some, words, rfl, rfl⟩
    have closing : ('\x7d' :: rest).takeWhile Text.isWord = [] ∧
        ('\x7d' :: rest).dropWhile Text.isWord = '\x7d' :: rest := by
      simp [not_word_closing]
    have front : (name ++ '\x7d' :: rest).takeWhile Text.isWord = name := by
      rw [List.takeWhile_append_of_pos words, closing.1, List.append_nil]
    have back : (name ++ '\x7d' :: rest).dropWhile Text.isWord = '\x7d' :: rest := by
      rw [List.dropWhile_append_of_pos words, closing.2]
    simp [placeholder?, front, back, some]

theorem placeholder?_isSome {cs : List Char} : (placeholder? cs).isSome ↔ Begins cs := by
  rw [Option.isSome_iff_exists]
  constructor
  · rintro ⟨found, matched⟩
    obtain ⟨name, rest, some, words, -, text⟩ := placeholder?_eq_some.mp matched
    exact ⟨name, rest, some, words, text⟩
  · rintro ⟨name, rest, some, words, text⟩
    exact ⟨_, placeholder?_eq_some.mpr ⟨name, rest, some, words, rfl, text⟩⟩

instance (cs : List Char) : Decidable (Begins cs) := decidable_of_iff _ placeholder?_isSome

instance (cs : List Char) (place : Nat) : Decidable (OccursAt cs place) :=
  inferInstanceAs (Decidable (Begins _))

instance (cs : List Char) (place : Nat) : Decidable (DollarBefore cs place) :=
  match place with
  | 0 => isFalse fun ⟨_, same, _⟩ => nomatch same
  | before + 1 => decidable_of_iff (cs[before]? = some '$')
      ⟨fun dollar => ⟨before, rfl, dollar⟩, fun ⟨_, same, dollar⟩ => Nat.succ.inj same ▸ dollar⟩

instance (cs : List Char) (place : Nat) : Decidable (BareAt cs place) :=
  inferInstanceAs (Decidable (_ ∧ _))

/-- Dollars put in one character after another, with what stands right before the text in mind. -/
def dollared (afterDollar : Bool) : List Char → List Char
  | [] => []
  | c :: rest =>
    if Begins (c :: rest) ∧ afterDollar = false then '$' :: c :: dollared (c == '$') rest
    else c :: dollared (c == '$') rest

theorem not_begins_cons {c : Char} (other : c ≠ '\x7b') (rest : List Char) : ¬ Begins (c :: rest) := by
  rintro ⟨name, more, some, words, text⟩
  exact other (List.cons.inj text).1

theorem dollared_other {c : Char} (other : c ≠ '\x7b') (afterDollar : Bool) (rest : List Char) :
    dollared afterDollar (c :: rest) = c :: dollared (c == '$') rest := by
  rw [dollared, if_neg fun begins => not_begins_cons other rest begins.1]

/-- What stands before a text matters only to a name in braces that it begins with. -/
theorem dollared_of_not_begins {cs : List Char} (none : ¬ Begins cs) (afterDollar : Bool) :
    dollared afterDollar cs = dollared false cs := by
  cases cs with
  | nil => rfl
  | cons c rest => rw [dollared, dollared, if_neg fun h => none h.1, if_neg fun h => none h.1]

theorem dollared_name {name : List Char} (words : ∀ c ∈ name, Text.isWord c) (afterDollar : Bool)
    (rest : List Char) :
    dollared afterDollar (name ++ '\x7d' :: rest) = name ++ '\x7d' :: dollared false rest := by
  induction name generalizing afterDollar with
  | nil => exact dollared_other (by decide) afterDollar rest
  | cons c name ih =>
    obtain ⟨word, others⟩ := List.forall_mem_cons.mp words
    rw [List.cons_append, dollared_other (ne_of_isWord word (by decide)), ih others, List.cons_append]

/-- Behind a match the search goes on as if the text began there: the closing brace is no dollar. -/
theorem dollared_match {cs found : List Char} (matched : placeholder? cs = some found)
    (afterDollar : Bool) :
    dollared afterDollar cs =
      (if afterDollar then found else '$' :: found) ++ dollared false (cs.drop found.length) := by
  obtain ⟨name, rest, some, words, rfl, rfl⟩ := placeholder?_eq_some.mp matched
  have begins : Begins ('\x7b' :: (name ++ '\x7d' :: rest)) := ⟨name, rest, some, words, rfl⟩
  have behind : ('\x7b' :: (name ++ '\x7d' :: rest)).drop ('\x7b' :: (name ++ ['\x7d'])).length =
      rest := by
    simp
  rw [behind, dollared, dollared_name words]
  cases afterDollar with
  | false => simp [begins]
  | true => simp [begins]

theorem planVariable?_eq_some {cs found : List Char} : planVariable? cs = some found ↔
    ∃ rest name, cs = '$' :: rest ∧ placeholder? rest = some name ∧ found = '$' :: name := by
  unfold planVariable?
  constructor
  · intro matched
    split at matched
    · obtain ⟨name, nameFound, same⟩ := Option.map_eq_some_iff.mp matched
      exact ⟨_, name, rfl, nameFound, same.symm⟩
    · contradiction
  · rintro ⟨rest, name, rfl, nameFound, rfl⟩
    exact congrArg (Option.map ('$' :: ·)) nameFound

/-- Replacing matches from the left puts in the same dollars: a match takes no dollar with it that
stands before another name, and behind it the search goes on before any other name begins. -/
theorem addDollars_eq_dollared (cs : List Char) : addDollars cs = dollared false cs := by
  unfold addDollars
  fun_induction Text.replaceMatches (fun cs => (planVariable? cs).or (placeholder? cs)) _ cs with
  | case1 => rfl
  | case2 c rest found matched ih =>
    rw [ih]
    rcases Option.or_eq_some_iff.mp matched with variableFound | ⟨-, nameFound⟩
    · obtain ⟨rest, name, text, nameFound, rfl⟩ := planVariable?_eq_some.mp variableFound
      cases text
      have first : dollared false ('$' :: rest) = '$' :: dollared true rest :=
        dollared_other (by decide) false rest
      rw [first, dollared_match nameFound]
      rfl
    · have shown := dollared_match nameFound false
      obtain ⟨name, more, some, words, rfl, text⟩ := placeholder?_eq_some.mp nameFound
      rw [shown]
      simp
  | case3 c rest unmatched ih =>
    obtain ⟨noVariable, noName⟩ := Option.or_eq_none_iff.mp unmatched
    have other : ¬ Begins (c :: rest) := by
      rw [← placeholder?_isSome, noName]
      exact Bool.false_ne_true
    have behind : dollared (c == '$') rest = dollared false rest := by
      by_cases dollar : c = '$'
      · subst dollar
        have unnamed : placeholder? rest = none := Option.map_eq_none_iff.mp noVariable
        refine dollared_of_not_begins (fun begins => ?_) _
        rw [← placeholder?_isSome, unnamed] at begins
        exact Bool.false_ne_true begins
      · rw [beq_eq_false_iff_ne.mpr dollar]
    rw [ih, dollared, if_neg fun begins => other begins.1, behind]

/-- The text with a dollar before each name in braces that has none, told by places. -/
theorem dollared_eq_flatMap (before cs : List Char) (afterDollar : Bool)
    (dollar : afterDollar = true ↔ DollarBefore (before ++ cs) before.length) :
    dollared afterDollar cs = (cs.zipIdx before.length).flatMap fun (c, place) =>
      if BareAt (before ++ cs) place then ['$', c] else [c] := by
  induction cs generalizing before afterDollar with
  | nil => rfl
  | cons c rest ih =>
    have split : before ++ c :: rest = (before ++ [c]) ++ rest := by simp
    have next : (c == '$') = true ↔ DollarBefore ((before ++ [c]) ++ rest) (before ++ [c]).length := by
      simp [DollarBefore]
    have bare : BareAt (before ++ c :: rest) before.length ↔
        Begins (c :: rest) ∧ afterDollar = false := by
      rw [BareAt, OccursAt, List.drop_left, ← dollar, Bool.not_eq_true]
    have later := ih (before ++ [c]) (c == '$') next
    rw [List.zipIdx_cons, List.flatMap_cons, dollared, later, split, List.length_append,
      List.length_singleton]
    simp only [← split, bare]
    split <;> rfl

theorem dollared_eq_inserted (cs : List Char) :
    dollared false cs = cs.zipIdx.flatMap fun (c, place) =>
      if BareAt cs place then ['$', c] else [c] := by
  have none : ¬ DollarBefore cs 0 := by
    rintro ⟨before, same, -⟩
    cases same
  exact dollared_eq_flatMap [] cs false (iff_of_false Bool.false_ne_true none)

/-- What closes a name behind inserted dollars closed it before: no dollar is put into a name. -/
theorem name_of_dollared {name more : List Char} (words : ∀ c ∈ name, Text.isWord c)
    {afterDollar : Bool} {cs : List Char} (shown : dollared afterDollar cs = name ++ '\x7d' :: more) :
    ∃ rest, cs = name ++ '\x7d' :: rest := by
  induction name generalizing afterDollar cs with
  | nil =>
    cases cs with
    | nil => cases shown
    | cons c rest =>
      rw [dollared] at shown
      split at shown
      · cases (List.cons.inj shown).1
      · exact ⟨rest, by rw [(List.cons.inj shown).1, List.nil_append]⟩
  | cons d name ih =>
    obtain ⟨word, others⟩ := List.forall_mem_cons.mp words
    cases cs with
    | nil => cases shown
    | cons c rest =>
      rw [dollared] at shown
      split at shown
      · exact absurd (List.cons.inj shown).1.symm (ne_of_isWord word (by decide))
      · obtain ⟨rfl, later⟩ := List.cons.inj shown
        obtain ⟨after, rfl⟩ := ih others later
        exact ⟨after, rfl⟩

theorem begins_of_dollared {c : Char} {afterDollar : Bool} {cs : List Char}
    (begins : Begins (c :: dollared afterDollar cs)) : Begins (c :: cs) := by
  obtain ⟨name, more, some, words, text⟩ := begins
  obtain ⟨rfl, shown⟩ := List.cons.inj text
  obtain ⟨rest, rfl⟩ := name_of_dollared words shown
  exact ⟨name, rest, some, words, rfl⟩

theorem DollarBefore.cons {cs : List Char} {place : Nat} (dollar : DollarBefore cs place) (c : Char) :
    DollarBefore (c :: cs) (place + 1) := by
  obtain ⟨before, rfl, here⟩ := dollar
  exact ⟨before + 1, rfl, here⟩

/-- After that no name in braces is without a dollar, but for one that the text begins with and that
has its dollar outside. -/
theorem dollared_complete {cs : List Char} {afterDollar : Bool} {place : Nat}
    (occurs : OccursAt (dollared afterDollar cs) place) :
    place = 0 ∧ afterDollar = true ∨ DollarBefore (dollared afterDollar cs) place := by
  induction cs generalizing afterDollar place with
  | nil =>
    obtain ⟨name, rest, -, -, text⟩ := occurs
    rw [dollared, List.drop_nil] at text
    cases text
  | cons c rest ih =>
    -- A name behind the first character has its dollar from the rest, or that character is one.
    have later (place : Nat) (occurs : OccursAt (dollared (c == '$') rest) place) :
        DollarBefore (c :: dollared (c == '$') rest) (place + 1) := by
      rcases ih occurs with ⟨rfl, dollar⟩ | dollar
      · exact ⟨0, rfl, congrArg some (eq_of_beq dollar)⟩
      · exact dollar.cons c
    rw [dollared] at occurs ⊢
    split at occurs
    · rename_i bare
      rw [if_pos bare]
      rcases place with _ | _ | place
      · exact absurd occurs (not_begins_cons (by decide) _)
      · exact .inr ⟨0, rfl, rfl⟩
      · exact .inr ((later place occurs).cons '$')
    · rename_i kept
      rw [if_neg kept]
      rcases place with _ | place
      · have begins : Begins (c :: rest) := begins_of_dollared occurs
        exact .inl ⟨rfl, by simpa [begins] using kept⟩
      · exact .inr (later place occurs)

theorem inserted_eq_self {cs : List Char} (complete : ∀ place, OccursAt cs place → DollarBefore cs place) :
    (cs.zipIdx.flatMap fun (c, place) => if BareAt cs place then ['$', c] else [c]) = cs := by
  have kept : (fun (c, place) => if BareAt cs place then ['$', c] else [c]) =
      fun pair : Char × Nat => [pair.1] := by
    funext ⟨c, place⟩
    exact if_neg fun bare => bare.2 (complete place bare.1)
  rw [kept, ← List.map_eq_flatMap, List.zipIdx_map_fst]

/-- Placeholders are rewritten by their places. A dollar comes right before each name in braces that
has none, and all else stays as it is; so every name in braces has its dollar then, and to rewrite the
path once more changes nothing. -/
theorem toVariables_inserts (path : String) :
    (toVariables path).toList = (path.toList.zipIdx.flatMap fun (c, place) =>
      if BareAt path.toList place then ['$', c] else [c]) ∧
    (∀ place, OccursAt (toVariables path).toList place →
      DollarBefore (toVariables path).toList place) ∧
    toVariables (toVariables path) = toVariables path := by
  have written : (toVariables path).toList = dollared false path.toList := by
    rw [toVariables, String.toList_ofList, addDollars_eq_dollared]
  have complete (place : Nat) (occurs : OccursAt (toVariables path).toList place) :
      DollarBefore (toVariables path).toList place := by
    rw [written] at occurs ⊢
    rcases dollared_complete occurs with ⟨-, never⟩ | dollar
    · cases never
    · exact dollar
  refine ⟨written.trans (dollared_eq_inserted _), complete, ?_⟩
  have again := (addDollars_eq_dollared (toVariables path).toList).trans (dollared_eq_inserted _)
  rw [inserted_eq_self complete] at again
  rw [toVariables, again, String.ofList_toList]

example : toVariables "/\x7b\x7bid\x7d/$\x7bb\x7d/\x7b\x7d" = "/\x7b$\x7bid\x7d/$\x7bb\x7d/\x7b\x7d" := by
  cbv

end LoadPlan.Placeholder
