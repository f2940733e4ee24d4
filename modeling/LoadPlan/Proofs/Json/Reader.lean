import LoadPlan.Json.Reader

/-! What a JSON reader does at each token, and where the tokens of a text stand. -/
namespace LoadPlan.Json

/-- A value may come next. -/
def Want.takesValue : Want → Bool
  | .value | .valueOrClose => true
  | _ => false

/-- A key may come next. -/
def Want.takesKey : Want → Bool
  | .key | .keyOrClose => true
  | _ => false

/-- The steps of a reader, one kind for each token that can come in each place. -/
inductive Steps : Reader → Token → Reader → Prop where
  | string : want.takesValue = true →
      Steps ⟨stack, want⟩ (.string (some text)) ⟨stack, .after (.string text)⟩
  | scalar : want.takesValue = true →
      Steps ⟨stack, want⟩ (.scalar (some value)) ⟨stack, .after value⟩
  | openArray : want.takesValue = true →
      Steps ⟨stack, want⟩ .openArray ⟨.array [] :: stack, .valueOrClose⟩
  | openObject : want.takesValue = true →
      Steps ⟨stack, want⟩ .openObject ⟨.object [] :: stack, .keyOrClose⟩
  | key : want.takesKey = true →
      Steps ⟨.object fields :: stack, want⟩ (.string (some key)) ⟨.member fields key :: stack, .colon⟩
  | colon : Steps ⟨stack, .colon⟩ .colon ⟨stack, .value⟩
  | nextItem : Steps ⟨.array items :: stack, .after value⟩ .comma
      ⟨.array (value :: items) :: stack, .value⟩
  | nextField : Steps ⟨.member fields key :: stack, .after value⟩ .comma
      ⟨.object (insert fields key value) :: stack, .key⟩
  | closeArray : Steps ⟨.array items :: stack, .after value⟩ .closeArray
      ⟨stack, .after (.array (value :: items).reverse)⟩
  | closeObject : Steps ⟨.member fields key :: stack, .after value⟩ .closeObject
      ⟨stack, .after (.object (insert fields key value))⟩
  | closeEmptyArray : Steps ⟨.array items :: stack, .valueOrClose⟩ .closeArray
      ⟨stack, .after (.array items.reverse)⟩
  | closeEmptyObject : Steps ⟨.object fields :: stack, .keyOrClose⟩ .closeObject
      ⟨stack, .after (.object fields)⟩

theorem Steps.colon_eq (steps : Steps ⟨stack, .colon⟩ token next) :
    token = .colon ∧ next = ⟨stack, .value⟩ := by
  cases steps with
  | colon => exact ⟨rfl, rfl⟩
  | _ => contradiction

namespace Reader
variable {stack : List Frame} {want : Want}

theorem beginValue_steps (takes : want.takesValue = true)
    (begun : beginValue stack token = some next) : Steps ⟨stack, want⟩ token next := by
  unfold beginValue at begun
  split at begun <;> cases begun
  · exact .string takes
  · exact .scalar takes
  · exact .openArray takes
  · exact .openObject takes

theorem key?_steps (takes : want.takesKey = true) (found : key? stack token = some next) :
    Steps ⟨stack, want⟩ token next := by
  unfold key? at found
  split at found <;> cases found
  exact .key takes

theorem afterValue_steps (ended : afterValue stack value token = some next) :
    Steps ⟨stack, .after value⟩ token next := by
  unfold afterValue at ended
  repeat' split at ended
  all_goals cases ended
  · exact .nextItem
  · exact .nextField
  · exact .closeArray
  · exact .closeObject

theorem step_steps {r : Reader} (stepped : r.step token = some next) : Steps r token next := by
  obtain ⟨stack, want⟩ := r
  cases want with
  | value => exact beginValue_steps rfl stepped
  | valueOrClose =>
    unfold step at stepped
    dsimp only at stepped
    split at stepped
    · cases stepped
      exact .closeEmptyArray
    · exact beginValue_steps rfl stepped
  | key => exact key?_steps rfl stepped
  | keyOrClose =>
    unfold step at stepped
    dsimp only at stepped
    split at stepped
    · cases stepped
      exact .closeEmptyObject
    · exact key?_steps rfl stepped
  | colon =>
    unfold step at stepped
    dsimp only at stepped
    split at stepped
    · cases stepped
      exact .colon
    · cases stepped
  | after value => exact afterValue_steps stepped

theorem run_cons_steps {r : Reader} (ran : r.run (token :: rest) = some final) :
    ∃ next, Steps r token next ∧ next.run rest = some final := by
  obtain ⟨next, stepped, ran⟩ := Option.bind_eq_some_iff.mp ran
  split at ran
  · exact ⟨next, step_steps stepped, ran⟩
  · cases ran

theorem eq_of_result? {r : Reader} (ended : r.result? = some value) : r = ⟨[], .after value⟩ := by
  obtain ⟨stack, want⟩ := r
  unfold result? at ended
  split at ended
  · rename_i empty after
    dsimp only at empty after
    cases ended
    rw [empty, after]
  · cases ended

end Reader

namespace Token

/-- Punctuation, which is one character long. -/
def isMark : Token → Bool
  | .string _ | .scalar _ => false
  | _ => true

/-- The character of each mark. -/
inductive Marks : Char → Token → Prop where
  | openObject : Marks '\x7b' .openObject
  | closeObject : Marks '\x7d' .closeObject
  | openArray : Marks '[' .openArray
  | closeArray : Marks ']' .closeArray
  | comma : Marks ',' .comma
  | colon : Marks ':' .colon

theorem punctuation?_marks (found : punctuation? c = some token) : Marks c token := by
  unfold punctuation? at found
  split at found <;> cases found
  · exact .openObject
  · exact .closeObject
  · exact .openArray
  · exact .closeArray
  · exact .comma
  · exact .colon

/-- What comes next in a text, and what follows it. -/
inductive Next : List Char → Token → List Char → Prop where
  | mark : Marks c token → Next (c :: rest) token rest
  | string : scanString rest = some (content, after) →
      Next ('"' :: rest) (.string (content.map String.ofList)) after
  | word : word? cs = some (value, after) → Next cs (.scalar value) after
  | number : scanNumber cs = some (value, after) → Next cs (.scalar value) after

theorem next?_next (found : next? cs = some (token, after)) : Next cs token after := by
  cases cs with
  | nil => cases found
  | cons c rest =>
    rw [next?] at found
    split at found
    · rename_i mark
      cases found
      exact .mark (punctuation?_marks mark)
    · split at found
      · rename_i quote
        subst quote
        obtain ⟨⟨content, _⟩, scanned, same⟩ := Option.map_eq_some_iff.mp found
        cases same
        exact .string scanned
      · obtain ⟨⟨value, _⟩, scanned, same⟩ := Option.map_eq_some_iff.mp found
        cases same
        rcases Option.or_eq_some_iff.mp scanned with word | ⟨-, number⟩
        · exact .word word
        · exact .number number

theorem next_mark (next : Next cs token after) (mark : token.isMark = true) :
    ∃ c, Marks c token ∧ cs = c :: after := by
  cases next with
  | mark marks => exact ⟨_, marks, rfl⟩
  | string | word | number => cases mark

theorem next_string (next : Next cs (.string (some text)) after) :
    ∃ content rest, scanString rest = some (some content, after) ∧
      text = String.ofList content ∧ cs = '"' :: rest := by
  generalize same : Token.string (some text) = token at next
  cases next with
  | mark marks =>
    subst same
    cases marks
  | @string rest content _ scanned =>
    cases content with
    | none => cases same
    | some content =>
      cases same
      exact ⟨content, rest, scanned, rfl, rfl⟩
  | word | number => cases same

/-- White space before a text makes no difference to its tokens. -/
theorem scan_dropWhile (cs : List Char) : scan (cs.dropWhile isSpace) = scan cs := by
  induction cs with
  | nil => rfl
  | cons c rest ih =>
    by_cases space : isSpace c = true
    · rw [List.dropWhile_cons_of_pos space, ih, scan.eq_2, if_pos space]
    · rw [List.dropWhile_cons_of_neg space]

/-- The tokens of a text: none if it is all white space, or the next one and then the others. -/
theorem scan_cases (scanned : scan cs = some tokens) :
    (cs.dropWhile isSpace = [] ∧ tokens = []) ∨
      ∃ token after others, next? (cs.dropWhile isSpace) = some (token, after) ∧
        tokens = token :: others ∧ scan after = some others := by
  fun_induction scan cs generalizing tokens with
  | case1 =>
    cases scanned
    exact .inl ⟨rfl, rfl⟩
  | case2 c rest space ih =>
    rw [List.dropWhile_cons_of_pos space]
    exact ih scanned
  | case3 c rest solid token after found ih =>
    rw [List.dropWhile_cons_of_neg solid]
    obtain ⟨others, later, rfl⟩ := Option.map_eq_some_iff.mp scanned
    exact .inr ⟨token, after, others, found, rfl, later⟩
  | case4 => cases scanned

end Token
end LoadPlan.Json
