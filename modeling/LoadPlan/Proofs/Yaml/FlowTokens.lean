import LoadPlan.Proofs.Yaml.FlowScanner
import LoadPlan.Proofs.Yaml.Numerals

/-! JSON texts cut into YAML tokens. The scanner finds a mark of a flow collection for each mark of an
array or object, and a scalar for each string, number and word. -/
namespace LoadPlan.Yaml
open Json (Reader)

/-- The mark of a flow collection for a mark of an array or object. -/
def flowMark? : Json.Token → Option Token
  | .openObject => some .openMapping
  | .closeObject => some .closeMapping
  | .openArray => some .openSequence
  | .closeArray => some .closeSequence
  | .comma => some .flowEntry
  | _ => none

theorem isMark_of_flowMark? (marks : flowMark? token = some mark) : token.isMark = true := by
  cases token <;> first | rfl | cases marks

/-- YAML tokens for JSON tokens. A string with its colon may have been too long for a key to be marked
before it. -/
inductive Tokenised : List Json.Token → List Token → Prop where
  | nil : Tokenised [] []
  | mark : flowMark? token = some mark → Tokenised ts ys → Tokenised (token :: ts) (mark :: ys)
  | string : Tokenised ts ys →
      Tokenised (.string (some text) :: ts) (.scalar text .quoted :: ys)
  | scalar : (∀ s, Scalar.ofPlain? text = some s → s.toJson = value) → Tokenised ts ys →
      Tokenised (.scalar (some value) :: ts) (.scalar text .plain :: ys)
  | key : marks = [.key] ∨ marks = [] → Tokenised ts ys →
      Tokenised (.string (some text) :: .colon :: ts)
        (marks ++ .scalar text .quoted :: .value :: ys)

namespace Scanner
open Json.Token (isSpace Next next? next?_next next_mark next_string)
variable {s t : Scanner} {r : Reader} {cs : List Char}

/-- A scanner outside block collections, in as many flow collections as a JSON reader has unfinished
ones, where keys may begin if the reader takes them. -/
structure Tracks (s : Scanner) (r : Reader) : Prop where
  flat : s.indents = []
  count : s.count = s.tokens.length
  levels : s.keys.length = r.stack.length + 1
  allowed : r.want.takesKey = true → s.keyAllowed = true

theorem Tracks.keys (tracks : Tracks s r) : s.keys ≠ [] := by
  rw [← List.length_pos_iff, tracks.levels]
  exact Nat.succ_pos _

theorem Tracks.emits (tracks : Tracks s r) (emits : Emits s token rest t)
    (levels : t.keys.length = after.stack.length + 1)
    (allowed : after.want.takesKey = true → t.keyAllowed = true) : Tracks t after :=
  ⟨emits.indents.trans tracks.flat, by rw [emits.count, tracks.count, emits.tokens, List.length_cons],
    levels, allowed⟩

/-- Each step of a JSON reader at a mark but the colon is followed. -/
theorem Tracks.fetchMark (tracks : Tracks s r) (steps : Json.Steps r token after)
    (marks : flowMark? token = some mark) (fetched : s.fetchMark? cell rest token = some t) :
    Emits s mark rest t ∧ Tracks t after := by
  have levels := tracks.levels
  have keys := tracks.keys
  cases steps <;> cases marks
  case openArray | openObject =>
    obtain ⟨emits, more, allowed⟩ := fetchOpen?_emits keys fetched
    exact ⟨emits, tracks.emits emits (more.trans (congrArg (· + 1) levels)) fun _ => allowed⟩
  case nextItem | nextField =>
    obtain ⟨dropped, found, rfl⟩ := Option.map_eq_some_iff.mp fetched
    have same := dropKey?_rekeyed keys found
    have emits : Emits s .flowEntry rest (((dropped.allowKey true).emit .flowEntry).moveTo rest) :=
      ⟨rfl, congrArg _ same.tokens, congrArg (· + 1) same.count, same.indents⟩
    exact ⟨emits, tracks.emits emits (same.levels.trans levels) fun _ => rfl⟩
  case closeArray | closeObject | closeEmptyArray | closeEmptyObject =>
    have flow : s.inFlow = true := by simp [inFlow, levels]
    obtain ⟨emits, fewer⟩ := fetchClose?_emits flow fetched
    refine ⟨emits, tracks.emits emits ?_ fun takes => by cases takes⟩
    rw [fewer, levels]
    rfl

theorem Tracks.advance (tracks : Tracks s r) : Tracks s.advance r := by
  refine ⟨tracks.flat, tracks.count, tracks.levels, fun takes => ?_⟩
  rw [Scanner.advance, tracks.allowed takes]
  exact skipToToken_allowed ..

theorem run_end (flat : s.indents = []) (levels : s.keys ≠ []) (ends : s.advance.cells = [])
    (ran : s.run = some found) : found = s.tokens.reverse := by
  rw [run, ends] at ran
  obtain ⟨ended, closed, rfl⟩ := Option.map_eq_some_iff.mp ran
  rw [endBlocks?, unroll_flat (s := s.advance) flat] at closed
  obtain ⟨dropped, found, rfl⟩ := Option.map_eq_some_iff.mp closed
  exact congrArg _ (dropKey?_rekeyed (s := s.advance) levels found).tokens

theorem run_fetch {cell : Cell} {rest : List Cell} (next : s.advance.cells = cell :: rest)
    (ran : s.run = some found) : ∃ t, s.advance.fetch? cell rest = some t ∧ t.run = some found := by
  rw [run, next] at ran
  dsimp only at ran
  split at ran
  · cases ran
  · rename_i t fetched
    split at ran
    · exact ⟨t, fetched, ran⟩
    · cases ran

/-- The words of the grammar are plain scalars with their values. -/
theorem word?_steady (found : Json.Token.word? cs = some (value, after)) :
    ∃ c word s, cs = c :: word ++ after ∧ isSteady (c :: word) = true ∧
      Scalar.ofPlain? (String.ofList (c :: word)) = some s ∧ value = some s.toJson := by
  unfold Json.Token.word? at found
  split at found <;> cases found
  · exact ⟨'n', ['u', 'l', 'l'], .null, rfl, by decide, by decide +kernel, rfl⟩
  · exact ⟨'t', ['r', 'u', 'e'], .bool true, rfl, by decide, by decide +kernel, rfl⟩
  · exact ⟨'f', ['a', 'l', 's', 'e'], .bool false, rfl, by decide, by decide +kernel, rfl⟩

/-- A word or number that comes next in a JSON text is a plain scalar with its value. -/
theorem next_steady (next : Next cs (.scalar value) after) :
    ∃ c word, cs = c :: word ++ after ∧ isSteady (c :: word) = true ∧
      ((∀ n ∈ Json.numeral? cs, n.isLarge = true ∨ n.toJson? = n.rounded?) →
        ∀ json, value = some json →
          ∀ s, Scalar.ofPlain? (String.ofList (c :: word)) = some s → s.toJson = json) := by
  cases next with
  | mark marks => cases marks
  | word found =>
    obtain ⟨c, word, s, rfl, steady, plain, rfl⟩ := word?_steady found
    refine ⟨c, word, rfl, steady, ?_⟩
    rintro - _ ⟨⟩ other read
    cases plain.symm.trans read
    rfl
  | number scanned =>
    obtain ⟨n, written, rfl, first, rfl, signed⟩ := Json.scanNumber_signed scanned
    have steady := Scalar.isSteady_signed signed
    cases written with
    | nil => cases Scalar.isNumberlike_signed signed
    | cons c word =>
      exact ⟨c, word, rfl, steady, fun agree _ read _ plain =>
        Scalar.toJson_signed signed (agree n first) read plain⟩

/-- What is next in a JSON text begins with a character that the scanner does not pass. -/
theorem next_begins (next : Next cs token after) :
    (∃ c rest, cs = c :: rest ∧ Begins c) ∧ after <:+ cs := by
  have scalar {value : Option Json} (next : Next cs (.scalar value) after) :
      (∃ c rest, cs = c :: rest ∧ Begins c) ∧ after <:+ cs := by
    obtain ⟨c, word, rfl, steady, -⟩ := next_steady next
    exact ⟨⟨c, _, rfl, (isSteady_cons steady).1.toBegins⟩, List.suffix_append ..⟩
  cases next with
  | mark marks =>
    refine ⟨⟨_, _, rfl, ?_⟩, List.suffix_cons ..⟩
    cases marks <;> exact ⟨rfl, by decide, by decide⟩
  | string scanned =>
    exact ⟨⟨_, _, rfl, rfl, by decide, by decide⟩,
      (scanString_suffix scanned).trans (List.suffix_cons ..)⟩
  | word found => exact scalar (.word found)
  | number scanned => exact scalar (.number scanned)

/-- A scanner and a reader with the same text before them. -/
structure Meets (s : Scanner) (r : Reader) (cs : List Char) : Prop where
  tracks : Tracks s r
  shows : Shows s.cells cs
  unfolded : Unfolded cs
  agree : NumbersAgree cs

theorem next_suffix (next : next? (cs.dropWhile isSpace) = some (token, after)) : after <:+ cs :=
  (next_begins (next?_next next)).2.trans (List.dropWhile_suffix _)

theorem marks_solid (marks : Json.Token.Marks c token) : c ≠ '\r' ∧ c ≠ '\u0085' := by
  cases marks <;> decide

namespace Meets
variable (meets : Meets s r cs)
include meets

theorem advance (begins : ∀ c ∈ (cs.dropWhile isSpace).head?, Begins c) (ran : s.run = some found) :
    Shows s.advance.cells (cs.dropWhile isSpace) := by
  rcases skipToToken_shows s.inFlow s.keyAllowed meets.shows meets.unfolded.lines begins with
    shows | ⟨cell, rest, cells, tab⟩
  · exact shows
  · obtain ⟨t, fetched, -⟩ := run_fetch cells ran
    rw [fetch?_tab (s := s.advance) meets.tracks.flat tab] at fetched
    cases fetched

theorem run_nothing (none : cs.dropWhile isSpace = []) (ran : s.run = some found) :
    found = s.tokens.reverse := by
  have shows := meets.advance (by rw [none]; exact fun _ => (nomatch ·)) ran
  rw [none] at shows
  exact run_end meets.tracks.flat meets.tracks.keys shows.nil ran

/-- The token that is next in the text is next for the scanner. -/
theorem run_next (next : next? (cs.dropWhile isSpace) = some (token, after))
    (ran : s.run = some found) :
    ∃ cell rest t, Shows (cell :: rest) (cs.dropWhile isSpace) ∧
      s.advance.fetch? cell rest = some t ∧ t.run = some found := by
  obtain ⟨c, others, same, begins⟩ := (next_begins (next?_next next)).1
  have shows := meets.advance (by rw [same]; rintro _ ⟨⟩; exact begins) ran
  cases cells : s.advance.cells with
  | nil =>
    rw [cells, same] at shows
    cases shows.empty
  | cons cell rest =>
    obtain ⟨t, fetched, ran⟩ := run_fetch cells ran
    exact ⟨cell, rest, t, cells ▸ shows, fetched, ran⟩

/-- After a token the scanner and the reader have the same text before them again. -/
theorem next (next : next? (cs.dropWhile isSpace) = some (token, after)) (tracks : Tracks t r')
    (shows : Shows t.cells after) : Meets t r' after := by
  refine ⟨tracks, shows, meets.unfolded.suffix (next_suffix next), fun n inside => ?_⟩
  refine meets.agree n ?_
  rw [Json.Token.numerals_next next]
  exact List.mem_append_right _ inside

theorem follow_mark (next : next? (cs.dropWhile isSpace) = some (token, after))
    (steps : Json.Steps r token r') (marks : flowMark? token = some mark) (ran : s.run = some found) :
    ∃ t, t.run = some found ∧ t.tokens = mark :: s.tokens ∧ Meets t r' after := by
  obtain ⟨cell, rest, t, shows, fetched, ran⟩ := meets.run_next next ran
  obtain ⟨c, named, same⟩ := next_mark (next?_next next) (isMark_of_flowMark? marks)
  rw [same] at shows
  have solid := marks_solid named
  obtain ⟨_, _, ⟨⟩, rfl, later⟩ := shows.cons solid.1 solid.2
  rw [fetch?_mark meets.tracks.advance.flat named (by rintro rfl; cases marks)] at fetched
  obtain ⟨emits, tracks⟩ := meets.tracks.advance.fetchMark steps marks fetched
  exact ⟨t, ran, emits.tokens, meets.next next tracks (emits.cells ▸ later)⟩

/-- A string where a value or a key may be. -/
theorem follow_string (next : next? (cs.dropWhile isSpace) = some (.string (some text), after))
    (ran : s.run = some found) :
    ∃ t, t.run = some found ∧ Emits s (.scalar text .quoted) t.cells t ∧
      t.keys.length = s.keys.length ∧ Shows t.cells after ∧
      (r.want.takesKey = true → ∃ key, t.topKey = some key ∧ key.tokens = s.count) := by
  obtain ⟨cell, rest, t, shows, fetched, ran⟩ := meets.run_next next ran
  obtain ⟨content, tail, scanned, rfl, same⟩ := next_string (next?_next next)
  rw [same] at shows
  obtain ⟨_, _, ⟨⟩, quote, later⟩ := shows.cons (by decide) (by decide)
  have tracks := meets.tracks.advance
  rw [fetch?_quote tracks.flat quote] at fetched
  obtain ⟨token, rest, read, emits, levels, key⟩ := fetchNode?_emits tracks.keys fetched
  obtain ⟨⟨text, _⟩, double, ⟨⟩⟩ := Option.map_eq_some_iff.mp read
  have unfolded : Unfolded tail := by
    refine meets.unfolded.suffix ((List.suffix_cons '"' tail).trans ?_)
    rw [← same]
    exact List.dropWhile_suffix _
  obtain ⟨rfl, shows⟩ := scanDouble_shows scanned later unfolded (.none : Pending _ ' ' _)
    (absurd rfl) double
  have cells := emits.cells
  exact ⟨t, ran, ⟨rfl, emits.tokens, emits.count, emits.indents⟩, levels, cells ▸ shows,
    fun takes => key (tracks.allowed takes)⟩

/-- A word or number, which a mark of a collection or the end of the text comes after. -/
theorem follow_scalar (next : next? (cs.dropWhile isSpace) = some (.scalar (some json), after))
    (steps : Json.Steps r (.scalar (some json)) r')
    (ends : ∀ c ∈ (after.dropWhile isSpace).head?, s.inFlow = true ∧ isFlowMark c = true)
    (ran : s.run = some found) :
    ∃ t text, t.run = some found ∧ t.tokens = .scalar text .plain :: s.tokens ∧
      (∀ s, Scalar.ofPlain? text = some s → s.toJson = json) ∧
      Meets t r' (after.dropWhile isSpace) := by
  obtain ⟨cell, rest, t, shows, fetched, ran⟩ := meets.run_next next ran
  obtain ⟨c, word, same, steady, value⟩ := next_steady (next?_next next)
  rw [same] at shows
  have tracks := meets.tracks.advance
  obtain ⟨own, others, cells, chars, -⟩ := shows.steady steady
  obtain ⟨first, own, rfl, rfl, rfl⟩ := List.map_eq_cons_iff.mp chars
  rw [List.cons_append] at cells
  obtain ⟨rfl, rfl⟩ := List.cons.inj cells
  rw [fetch?_steady tracks.flat steady] at fetched
  obtain ⟨plain, scanned, emits, levels⟩ := fetchPlain?_emits tracks.keys fetched
  have lines : '\u0085' ∉ after := (meets.unfolded.suffix (next_suffix next)).lines
  obtain ⟨text, shows⟩ := scanPlain_shows steady shows lines ends scanned
  have numbers := Json.Token.numerals_next next
  refine ⟨t, _, ran, emits.tokens, ?_, ?_⟩
  · rw [text]
    refine value (fun n first => meets.agree n ?_) json rfl
    rw [numbers]
    exact List.mem_append_left _ (Option.mem_toList.mpr first)
  · cases steps
    refine ⟨tracks.emits emits (levels.trans tracks.levels) (fun takes => by cases takes),
      emits.cells ▸ shows, ?_, ?_⟩
    · exact meets.unfolded.suffix ((List.dropWhile_suffix _).trans (next_suffix next))
    · rw [NumbersAgree, Json.Token.numerals_dropWhile]
      exact fun n inside => meets.agree n (by simp [numbers, inside])

/-- The colon after a key. -/
theorem follow_colon (next : next? (cs.dropWhile isSpace) = some (.colon, after))
    (flow : s.inFlow = true) (behind : s.tokens = scalar :: early)
    (top : s.topKey = some key) (place : key.tokens = early.length) (ran : s.run = some found) :
    ∃ t marks, t.run = some found ∧ (marks = [.key] ∨ marks = []) ∧
      t.tokens = .value :: scalar :: (marks ++ early) ∧ Meets t ⟨r.stack, .value⟩ after := by
  obtain ⟨cell, rest, t, shows, fetched, ran⟩ := meets.run_next next ran
  obtain ⟨c, named, same⟩ := next_mark (next?_next next) rfl
  rw [same] at shows
  have solid := marks_solid named
  obtain ⟨_, _, ⟨⟩, rfl, later⟩ := shows.cons solid.1 solid.2
  have tracks := meets.tracks.advance
  rw [fetch?_mark tracks.flat named fun _ => flow] at fetched
  obtain ⟨marks, kinds, tokens, count, rfl, indents, levels⟩ :=
    fetchValue?_flow (s := s.advance) flow top behind tracks.count place fetched
  exact ⟨t, marks, ran, kinds, tokens, meets.next next
    ⟨indents.trans tracks.flat, count, levels.trans tracks.levels, nofun⟩ later⟩

end Meets

/-- After a value there is a mark of the collection around it, or the end of the text. -/
theorem ends_after {stack : List Json.Frame} (scanned : Json.Token.scan cs = some ts)
    (read : Reader.run ⟨stack, .after value⟩ ts = some final) :
    ∀ c ∈ (cs.dropWhile isSpace).head?, stack ≠ [] ∧ isFlowMark c = true := by
  rcases Json.Token.scan_cases scanned with ⟨nothing, -⟩ | ⟨token, after, others, next, rfl, -⟩
  · rw [nothing]
    exact fun _ => nofun
  · obtain ⟨r, steps, -⟩ := Json.Reader.run_cons_steps read
    have inside : token.isMark = true ∧ stack ≠ [] := by
      cases steps <;> first | exact ⟨rfl, List.cons_ne_nil _ _⟩ | contradiction
    obtain ⟨c, named, same⟩ := next_mark (next?_next next) inside.1
    rw [same]
    rintro _ ⟨⟩
    refine ⟨inside.2, ?_⟩
    cases named
    case colon => cases steps
    all_goals rfl

theorem Tracks.inFlow (tracks : Tracks s r) (inside : r.stack ≠ []) : s.inFlow = true := by
  have levels := tracks.levels
  have some := List.length_pos_iff.mpr inside
  rw [Scanner.inFlow, decide_eq_true_eq]
  omega

/-- The scanner cuts the rest of a JSON text into tokens like the JSON reader. -/
theorem run_tokenised {s : Scanner} {r : Reader} {cs : List Char} (meets : Meets s r cs)
    (scanned : Json.Token.scan cs = some ts) (read : r.run ts = some final)
    (ended : final.result? = some json) (colon : r.want ≠ .colon) (found : s.run = some ys) :
    ∃ later, ys = s.tokens.reverse ++ later ∧ Tokenised ts later := by
  induction count : ts.length using Nat.strong_induction_on generalizing s r cs ts
  rename_i ih
  subst count
  rcases Json.Token.scan_cases scanned with ⟨nothing, rfl⟩ | ⟨token, after, others, next, rfl, onward⟩
  · exact ⟨[], by rw [meets.run_nothing nothing found, List.append_nil], .nil⟩
  obtain ⟨r', steps, read⟩ := Json.Reader.run_cons_steps read
  cases marks : flowMark? token with
  | some mark =>
    have open' : r'.want ≠ .colon := by
      intro same
      cases steps <;> cases same
      cases marks
    obtain ⟨t, ran, tokens, meets⟩ := meets.follow_mark next steps marks found
    obtain ⟨later, rfl, cut⟩ := ih _ (Nat.lt_succ_self _) meets onward read open' ran rfl
    exact ⟨mark :: later, by simp [tokens], .mark marks cut⟩
  | none =>
    cases steps with
    | @string stack want text =>
      obtain ⟨t, ran, emits, levels, shows, -⟩ := meets.follow_string next found
      have tracks : Tracks t ⟨stack, .after (.string text)⟩ :=
        meets.tracks.emits emits (levels.trans meets.tracks.levels) nofun
      obtain ⟨later, rfl, cut⟩ :=
        ih _ (Nat.lt_succ_self _) (meets.next next tracks shows) onward read nofun ran rfl
      exact ⟨_ :: later, by simp [emits.tokens], .string cut⟩
    | scalar takes =>
      have ends : ∀ c ∈ (after.dropWhile isSpace).head?, s.inFlow = true ∧ isFlowMark c = true :=
        fun c head =>
          have ⟨inside, mark⟩ := ends_after onward read c head
          ⟨meets.tracks.inFlow inside, mark⟩
      obtain ⟨t, text, ran, tokens, value, meets⟩ := meets.follow_scalar next (.scalar takes) ends found
      rw [← Json.Token.scan_dropWhile] at onward
      obtain ⟨later, rfl, cut⟩ := ih _ (Nat.lt_succ_self _) meets onward read nofun ran rfl
      exact ⟨_ :: later, by simp [tokens], .scalar value cut⟩
    | @key fields stack want name takes =>
      have count := meets.tracks.count
      obtain ⟨t, ran, emits, levels, shows, key⟩ := meets.follow_string next found
      obtain ⟨key, top, place⟩ := key takes
      have tracks : Tracks t ⟨.member fields name :: stack, .colon⟩ :=
        meets.tracks.emits emits (levels.trans meets.tracks.levels) nofun
      have meets := meets.next next tracks shows
      rcases Json.Token.scan_cases onward with ⟨-, rfl⟩ | ⟨token, after, others, next, rfl, further⟩
      · cases read
        cases ended
      obtain ⟨r, steps, read⟩ := Json.Reader.run_cons_steps read
      obtain ⟨rfl, rfl⟩ := steps.colon_eq
      have flow := tracks.inFlow (List.cons_ne_nil _ _)
      obtain ⟨t, marks, ran, kinds, tokens, meets⟩ := meets.follow_colon next flow emits.tokens top
        (place.trans count) ran
      have shorter : others.length < others.length + 2 := Nat.lt_add_of_pos_right Nat.two_pos
      obtain ⟨later, rfl, cut⟩ := ih _ shorter meets further read nofun ran rfl
      refine ⟨marks ++ _ :: _ :: later, ?_, .key kinds cut⟩
      rw [tokens]
      rcases kinds with rfl | rfl <;> simp
    | colon => exact absurd rfl colon
    | _ => cases marks

theorem start_meets {text : String} {cells : List Cell} (read : cells? text = some cells)
    (unfolded : Unfolded text.toList) (agree : NumbersAgree text.toList) :
    Meets (start cells) Reader.start text.toList :=
  ⟨⟨rfl, rfl, rfl, fun _ => rfl⟩, cells?_shows read, unfolded, agree⟩

end Scanner

/-- A JSON text is cut into tokens, if at all, like the JSON reader cuts it. -/
theorem tokens?_tokenised {text : String} (unfolded : Unfolded text.toList)
    (agree : NumbersAgree text.toList) (scanned : Json.Token.scan text.toList = some ts)
    (read : Reader.start.run ts = some final) (ended : final.result? = some json)
    (found : tokens? text = some ys) : Tokenised ts ys := by
  obtain ⟨cells, placed, ran⟩ := Option.bind_eq_some_iff.mp found
  obtain ⟨later, rfl, cut⟩ :=
    Scanner.run_tokenised (Scanner.start_meets placed unfolded agree) scanned read ended nofun ran
  exact cut

end LoadPlan.Yaml
