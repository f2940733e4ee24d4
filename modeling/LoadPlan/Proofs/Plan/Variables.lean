import LoadPlan.Proofs.Plan.Placeholders

/-! Templates and paths with variables. A path has its dollars put in and taken out by two searches that
match different texts. Neither search makes a match that was not there: a name in braces begins with a
brace and goes on with word characters, so no dollar is ever put into one, or taken out of one. Hence the
two are inverse to each other between the paths that have no variable and those in which each name in
braces has one dollar, and no second one before that. -/
namespace LoadPlan.Placeholder

/-- No name in braces has a dollar. -/
def VariableFree (cs : List Char) : Prop :=
  ∀ place, OccursAt cs place → ¬ DollarBefore cs place

/-- Each name in braces has a dollar, and before that no other. -/
def OneDollarEach (cs : List Char) : Prop :=
  ∀ place, OccursAt cs place → DollarBefore cs place ∧ ¬ DollarBefore cs (place - 1)

theorem not_begins_nil : ¬ Begins [] := by
  rintro ⟨name, rest, -, -, text⟩
  contradiction

theorem not_occursAt_of_le {cs : List Char} {place : Nat} (behind : cs.length ≤ place) :
    ¬ OccursAt cs place := by
  rw [OccursAt, List.drop_of_length_le behind]
  exact not_begins_nil

/-- A name in braces is looked for at the places of the text only. -/
theorem forall_occursAt_iff {cs : List Char} {P : Nat → Prop} :
    (∀ place < cs.length, OccursAt cs place → P place) ↔ ∀ place, OccursAt cs place → P place := by
  constructor
  · intro within place occurs
    by_cases inside : place < cs.length
    · exact within place inside occurs
    · exact absurd occurs (not_occursAt_of_le (Nat.le_of_not_lt inside))
  · intro all place _
    exact all place

instance (cs : List Char) : Decidable (VariableFree cs) :=
  decidable_of_iff (∀ place < cs.length, OccursAt cs place → ¬ DollarBefore cs place)
    forall_occursAt_iff

instance (cs : List Char) : Decidable (OneDollarEach cs) :=
  decidable_of_iff (∀ place < cs.length, OccursAt cs place →
    DollarBefore cs place ∧ ¬ DollarBefore cs (place - 1)) forall_occursAt_iff

section
variable {c d : Char} {cs rest : List Char} {place : Nat}

theorem not_dollarBefore_zero : ¬ DollarBefore cs 0 := by
  rintro ⟨before, never, -⟩
  contradiction

theorem dollarBefore_one : DollarBefore (c :: rest) 1 ↔ c = '$' := by
  constructor
  · rintro ⟨before, first, here⟩
    cases Nat.succ.inj first
    exact Option.some.inj here
  · rintro rfl
    exact ⟨0, rfl, rfl⟩

theorem dollarBefore_cons : DollarBefore (c :: rest) (place + 2) ↔ DollarBefore rest (place + 1) := by
  constructor
  · rintro ⟨before, next, here⟩
    cases Nat.succ.inj next
    exact ⟨place, rfl, here⟩
  · intro dollar
    exact dollar.cons c

theorem variableFree_cons :
    VariableFree (c :: rest) ↔ ¬ (c = '$' ∧ Begins rest) ∧ VariableFree rest := by
  constructor
  · intro free
    constructor
    · rintro ⟨dollar, begins⟩
      exact free 1 begins (dollarBefore_one.mpr dollar)
    · intro place occurs dollar
      exact free (place + 1) occurs (dollar.cons c)
  · rintro ⟨head, tail⟩ place occurs dollar
    rcases place with _ | _ | place
    · exact not_dollarBefore_zero dollar
    · exact head ⟨dollarBefore_one.mp dollar, occurs⟩
    · exact tail (place + 1) occurs (dollarBefore_cons.mp dollar)

/-- Each name in braces in a text has one dollar, where the text stands behind a character. -/
def OneDollarEachBehind (d : Char) (cs : List Char) : Prop :=
  ∀ place, OccursAt cs place →
    DollarBefore (d :: cs) (place + 1) ∧ ¬ DollarBefore (d :: cs) place

theorem OneDollarEach.behind (each : OneDollarEach cs) (other : d ≠ '$') :
    OneDollarEachBehind d cs := by
  intro place occurs
  obtain ⟨dollar, single⟩ := each place occurs
  refine ⟨dollar.cons d, fun second => ?_⟩
  rcases place with _ | _ | place
  · exact not_dollarBefore_zero second
  · exact other (dollarBefore_one.mp second)
  · exact single (dollarBefore_cons.mp second)

theorem OneDollarEachBehind.tail (each : OneDollarEachBehind d (c :: rest)) :
    OneDollarEachBehind c rest := by
  intro place occurs
  obtain ⟨dollar, single⟩ := each (place + 1) occurs
  exact ⟨dollarBefore_cons.mp dollar, fun second => single (second.cons d)⟩

/-- The dollars of variables left out, one character after another. -/
def undollared : List Char → List Char
  | [] => []
  | c :: rest => if c = '$' ∧ Begins rest then undollared rest else c :: undollared rest

theorem undollared_dollar (begins : Begins rest) : undollared ('$' :: rest) = undollared rest := by
  rw [undollared, if_pos ⟨rfl, begins⟩]

theorem undollared_kept (kept : ¬ (c = '$' ∧ Begins rest)) :
    undollared (c :: rest) = c :: undollared rest := by
  rw [undollared, if_neg kept]

theorem undollared_other (other : c ≠ '$') : undollared (c :: rest) = c :: undollared rest :=
  undollared_kept fun dropped => other dropped.1

/-- Where a dollar is left out a brace comes next, which is no part of a name and closes none. -/
theorem undollared_brace (begins : Begins rest) :
    ∃ after, undollared ('$' :: rest) = '\x7b' :: after := by
  rw [undollared_dollar begins]
  obtain ⟨name, more, -, -, rfl⟩ := begins
  exact ⟨_, undollared_other (by decide)⟩

theorem undollared_name {name : List Char} (words : ∀ c ∈ name, Text.isWord c) :
    undollared (name ++ '\x7d' :: rest) = name ++ '\x7d' :: undollared rest := by
  induction name with
  | nil => exact undollared_other (by decide)
  | cons c name ih =>
    obtain ⟨word, others⟩ := List.forall_mem_cons.mp words
    rw [List.cons_append, undollared_other (ne_of_isWord word (by decide)), ih others,
      List.cons_append]

/-- Behind a match the search goes on as if the text began there. -/
theorem undollared_match {found : List Char} (matched : placeholder? cs = some found) :
    undollared cs = found ++ undollared (cs.drop found.length) := by
  obtain ⟨name, rest, some, words, rfl, rfl⟩ := placeholder?_eq_some.mp matched
  have behind : ('\x7b' :: (name ++ '\x7d' :: rest)).drop ('\x7b' :: (name ++ ['\x7d'])).length =
      rest := by
    simp
  rw [behind, undollared_other (by decide), undollared_name words]
  simp

theorem dropDollars_eq_undollared (cs : List Char) : dropDollars cs = undollared cs := by
  unfold dropDollars
  fun_induction Text.replaceMatches planVariable? (List.drop 1) cs with
  | case1 => rfl
  | case2 c rest found matched ih =>
    obtain ⟨after, name, text, nameFound, rfl⟩ := planVariable?_eq_some.mp matched
    cases text
    have begins : Begins rest := placeholder?_isSome.mp (Option.isSome_of_mem nameFound)
    rw [ih, undollared_dollar begins, undollared_match nameFound]
    rfl
  | case3 c rest unmatched ih =>
    have kept : ¬ (c = '$' ∧ Begins rest) := by
      rintro ⟨rfl, begins⟩
      have unnamed : placeholder? rest = none := Option.map_eq_none_iff.mp unmatched
      rw [← placeholder?_isSome, unnamed] at begins
      exact Bool.false_ne_true begins
    rw [ih, undollared_kept kept]

theorem begins_dollared (begins : Begins (c :: rest)) (afterDollar : Bool) :
    Begins (c :: dollared afterDollar rest) := by
  obtain ⟨name, more, some, words, text⟩ := begins
  obtain ⟨rfl, rfl⟩ := List.cons.inj text
  exact ⟨name, dollared false more, some, words, by rw [dollared_name words]⟩

theorem begins_of_dollared_true (begins : Begins (dollared true cs)) : Begins cs := by
  cases cs with
  | nil => exact begins
  | cons c rest =>
    rw [dollared, if_neg fun bare => absurd bare.2 (by decide)] at begins
    exact begins_of_dollared begins

theorem dollared_begins (begins : Begins cs) : dollared false cs = '$' :: dollared true cs := by
  cases cs with
  | nil => exact absurd begins not_begins_nil
  | cons c rest =>
    have behind : ¬ (Begins (c :: rest) ∧ true = false) := fun bare => absurd bare.2 (by decide)
    rw [dollared, dollared, if_pos ⟨begins, rfl⟩, if_neg behind]

/-- What comes first where dollars are left out came first before, unless a brace does. -/
theorem undollared_head {next : Char} {more : List Char} (unbraced : next ≠ '\x7b')
    (shown : undollared cs = next :: more) : ∃ rest, cs = next :: rest ∧ undollared rest = more := by
  cases cs with
  | nil => contradiction
  | cons c rest =>
    by_cases dropped : c = '$' ∧ Begins rest
    · obtain ⟨rfl, begins⟩ := dropped
      obtain ⟨after, opened⟩ := undollared_brace begins
      rw [opened] at shown
      exact absurd (List.cons.inj shown).1.symm unbraced
    · rw [undollared_kept dropped] at shown
      obtain ⟨rfl, later⟩ := List.cons.inj shown
      exact ⟨rest, rfl, later⟩

/-- What closes a name where dollars are left out closed it before: no dollar is taken out of a name. -/
theorem name_of_undollared {name more : List Char} (words : ∀ c ∈ name, Text.isWord c)
    (shown : undollared cs = name ++ '\x7d' :: more) : ∃ rest, cs = name ++ '\x7d' :: rest := by
  induction name generalizing cs with
  | nil =>
    obtain ⟨rest, rfl, -⟩ := undollared_head (by decide) shown
    exact ⟨rest, rfl⟩
  | cons d name ih =>
    obtain ⟨word, others⟩ := List.forall_mem_cons.mp words
    obtain ⟨rest, rfl, later⟩ := undollared_head (ne_of_isWord word (by decide)) shown
    obtain ⟨after, rfl⟩ := ih others later
    exact ⟨after, rfl⟩

theorem begins_undollared : Begins (c :: undollared rest) ↔ Begins (c :: rest) := by
  constructor
  · rintro ⟨name, more, some, words, text⟩
    obtain ⟨rfl, shown⟩ := List.cons.inj text
    obtain ⟨after, rfl⟩ := name_of_undollared words shown
    exact ⟨name, after, some, words, rfl⟩
  · rintro ⟨name, more, some, words, text⟩
    obtain ⟨rfl, rfl⟩ := List.cons.inj text
    exact ⟨name, undollared more, some, words, by rw [undollared_name words]⟩

theorem Begins.undollared (begins : Begins cs) : Begins (undollared cs) := by
  obtain ⟨name, rest, some, words, rfl⟩ := begins
  rw [undollared_other (by decide)]
  exact begins_undollared.mpr ⟨name, rest, some, words, rfl⟩

/-- The dollars that are put in are found again, and no others. -/
theorem undollared_dollared (free : VariableFree cs) (afterDollar : Bool) :
    undollared (dollared afterDollar cs) = cs := by
  induction cs generalizing afterDollar with
  | nil => rfl
  | cons c rest ih =>
    obtain ⟨head, tail⟩ := variableFree_cons.mp free
    rw [dollared]
    split
    · rename_i bare
      have other : c ≠ '$' := by
        rintro rfl
        exact not_begins_cons (by decide) rest bare.1
      rw [undollared_dollar (begins_dollared bare.1 _), undollared_other other, ih tail]
    · have kept : ¬ (c = '$' ∧ Begins (dollared (c == '$') rest)) := by
        rintro ⟨rfl, begins⟩
        exact head ⟨rfl, begins_of_dollared_true begins⟩
      rw [undollared_kept kept, ih tail]

/-- The dollars that are left out are put in again, and no others. -/
theorem dollared_undollared (each : OneDollarEachBehind d cs) :
    dollared (d == '$') (undollared cs) = cs := by
  induction cs generalizing d with
  | nil => rfl
  | cons c rest ih =>
    have again := ih each.tail
    by_cases dropped : c = '$' ∧ Begins rest
    · obtain ⟨rfl, begins⟩ := dropped
      have other : d ≠ '$' := fun dollar => (each 1 begins).2 (dollarBefore_one.mpr dollar)
      rw [undollared_dollar begins, beq_eq_false_iff_ne.mpr other, dollared_begins begins.undollared]
      exact congrArg ('$' :: ·) again
    · have unbare : ¬ (Begins (c :: undollared rest) ∧ (d == '$') = false) := by
        rintro ⟨begins, other⟩
        have dollar := dollarBefore_one.mp (each 0 (begins_undollared.mp begins)).1
        exact beq_eq_false_iff_ne.mp other dollar
      rw [undollared_kept dropped, dollared, if_neg unbare, again]

/-- Where each name has one dollar, none is left when these are taken out. -/
theorem variableFree_undollared (each : OneDollarEachBehind d cs) : VariableFree (undollared cs) := by
  induction cs generalizing d with
  | nil =>
    intro place occurs
    exact absurd occurs (not_occursAt_of_le (Nat.zero_le _))
  | cons c rest ih =>
    by_cases dropped : c = '$' ∧ Begins rest
    · obtain ⟨rfl, begins⟩ := dropped
      rw [undollared_dollar begins]
      exact ih each.tail
    rw [undollared_kept dropped, variableFree_cons]
    refine ⟨?_, ih each.tail⟩
    rintro ⟨rfl, begins⟩
    -- A name that follows now has lost its own dollar, and this one would be a second.
    cases rest with
    | nil => exact not_begins_nil begins
    | cons next more =>
      by_cases second : next = '$' ∧ Begins more
      · exact (each 2 second.2).2 (dollarBefore_cons.mpr (dollarBefore_one.mpr rfl))
      · rw [undollared_kept second] at begins
        exact dropped ⟨rfl, begins_undollared.mp begins⟩

/-- Of two dollars before a name the first is still there when dollars are left out. -/
theorem not_variableFree_undollared (occurs : OccursAt cs (place + 2))
    (dollar : DollarBefore cs (place + 2)) (second : DollarBefore cs (place + 1)) :
    ¬ VariableFree (undollared cs) := by
  induction place generalizing cs with
  | zero =>
    rcases cs with _ | ⟨c, _ | ⟨next, rest⟩⟩
    · exact absurd occurs (not_occursAt_of_le (Nat.zero_le _))
    · exact absurd occurs (not_occursAt_of_le (by simp))
    · cases dollarBefore_one.mp second
      cases dollarBefore_one.mp (dollarBefore_cons.mp dollar)
      have kept : ¬ ('$' = '$' ∧ Begins ('$' :: rest)) := fun dropped =>
        not_begins_cons (by decide) rest dropped.2
      have begins : Begins rest := occurs
      rw [undollared_kept kept, undollared_dollar begins, variableFree_cons]
      exact fun free => free.1 ⟨rfl, begins.undollared⟩
  | succ place ih =>
    cases cs with
    | nil => exact absurd occurs (not_occursAt_of_le (Nat.zero_le _))
    | cons c rest =>
      have inside : ¬ VariableFree (undollared rest) :=
        ih occurs (dollarBefore_cons.mp dollar) (dollarBefore_cons.mp second)
      rw [undollared]
      split
      · exact inside
      · rw [variableFree_cons]
        exact fun free => inside free.2

theorem oneDollarEach_dollared (free : VariableFree cs) : OneDollarEach (dollared false cs) := by
  intro place occurs
  constructor
  · rcases dollared_complete occurs with ⟨-, never⟩ | dollar
    · contradiction
    · exact dollar
  · intro second
    rcases place with _ | _ | place
    · exact not_dollarBefore_zero second
    · exact not_dollarBefore_zero second
    · rcases dollared_complete occurs with ⟨never, -⟩ | dollar
      · contradiction
      · refine not_variableFree_undollared occurs dollar second ?_
        rwa [undollared_dollared free]

end

/-- To put dollars in and to take them out are inverse bijections between the paths without variables
and those where each name in braces has one dollar. -/
theorem toVariables_ofVariables_inverse :
    (∀ path : String, VariableFree path.toList →
      OneDollarEach (toVariables path).toList ∧ ofVariables (toVariables path) = path) ∧
    ∀ path : String, OneDollarEach path.toList →
      VariableFree (ofVariables path).toList ∧ toVariables (ofVariables path) = path := by
  simp only [toVariables, ofVariables, String.toList_ofList, addDollars_eq_dollared,
    dropDollars_eq_undollared]
  constructor
  · intro path free
    exact ⟨oneDollarEach_dollared free, by rw [undollared_dollared free, String.ofList_toList]⟩
  · intro path each
    have behind : OneDollarEachBehind '/' path.toList := each.behind (by decide)
    have again : dollared false (undollared path.toList) = path.toList := dollared_undollared behind
    exact ⟨variableFree_undollared behind, by rw [again, String.ofList_toList]⟩

/-- Braces and dollars that belong to no name stay where they are, next to one or not. -/
theorem crowded_inverse :
    (VariableFree "$/\x7ba\x7bid\x7d$".toList ∧
      ofVariables (toVariables "$/\x7ba\x7bid\x7d$") = "$/\x7ba\x7bid\x7d$") ∧
    OneDollarEach "\x7b$\x7bid\x7da\x7d$$".toList ∧
      toVariables (ofVariables "\x7b$\x7bid\x7da\x7d$$") = "\x7b$\x7bid\x7da\x7d$$" := by
  have free : VariableFree "$/\x7ba\x7bid\x7d$".toList := by decide
  have each : OneDollarEach "\x7b$\x7bid\x7da\x7d$$".toList := by decide
  exact ⟨⟨free, (toVariables_ofVariables_inverse.1 _ free).2⟩, each,
    (toVariables_ofVariables_inverse.2 _ each).2⟩

end LoadPlan.Placeholder
