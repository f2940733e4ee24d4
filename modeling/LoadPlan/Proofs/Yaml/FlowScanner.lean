import LoadPlan.Proofs.Json.Reader
import LoadPlan.Proofs.Yaml.PlainText

/-! What the scanner does at the marks, quotes and words of a JSON text, outside block collections. -/
namespace LoadPlan.Yaml.Scanner

variable {s : Scanner} {cell : Cell} {rest : List Cell}

/-- Scanners alike but for where keys may have begun. -/
structure Rekeyed (s t : Scanner) : Prop where
  cells : t.cells = s.cells
  tokens : t.tokens = s.tokens
  count : t.count = s.count
  indents : t.indents = s.indents
  levels : t.keys.length = s.keys.length
  allowed : t.keyAllowed = s.keyAllowed

theorem Rekeyed.inFlow (same : Rekeyed s t) : t.inFlow = s.inFlow := by
  rw [Scanner.inFlow, Scanner.inFlow, same.levels]

theorem setKey_rekeyed (levels : s.keys ≠ []) (key : Option KeyStart) :
    Rekeyed s (s.setKey key) := by
  refine ⟨rfl, rfl, rfl, rfl, ?_, rfl⟩
  have some := List.length_pos_iff.mpr levels
  simp only [setKey, List.length_cons, List.length_drop]
  omega

theorem dropKey?_rekeyed (levels : s.keys ≠ []) (dropped : s.dropKey? = some t) : Rekeyed s t := by
  unfold dropKey? at dropped
  split at dropped
  · split at dropped <;> cases dropped
    exact setKey_rekeyed levels none
  · cases dropped
    exact setKey_rekeyed levels none

theorem markKey?_rekeyed (levels : s.keys ≠ []) (marked : s.markKey? cell = some t) :
    Rekeyed s t ∧ (s.keyAllowed = true → ∃ key, t.topKey = some key ∧ key.tokens = s.count) := by
  unfold markKey? at marked
  split at marked
  · obtain ⟨dropped, found, rfl⟩ := Option.map_eq_some_iff.mp marked
    have same := dropKey?_rekeyed levels found
    have others : dropped.keys ≠ [] := by
      rw [← List.length_pos_iff, same.levels]
      exact List.length_pos_iff.mpr levels
    obtain ⟨cells, tokens, count, indents, length, allowed⟩ := setKey_rekeyed others _
    refine ⟨⟨cells.trans same.cells, tokens.trans same.tokens, count.trans same.count,
      indents.trans same.indents, length.trans same.levels, allowed.trans same.allowed⟩, fun _ => ?_⟩
    exact ⟨_, rfl, same.count⟩
  · rename_i never
    cases marked
    exact ⟨⟨rfl, rfl, rfl, rfl, rfl, rfl⟩, fun allowed => absurd allowed never⟩

theorem unroll_flat (flat : s.indents = []) (column : Int) : s.unroll column = s := by
  unfold unroll
  split
  · rfl
  · rw [flat, unrollList, ← flat]

theorem atRow_other {mark : Char} (other : cell.char ≠ mark) (rest : List Cell) :
    Cell.atRow mark (cell :: rest) = false := by
  unfold Cell.atRow
  split <;> simp_all

/-- What is done at a mark of an array or object. -/
def fetchMark? (s : Scanner) (cell : Cell) (rest : List Cell) : Json.Token → Option Scanner
  | .openArray => s.fetchOpen? cell rest .openSequence
  | .openObject => s.fetchOpen? cell rest .openMapping
  | .closeArray => s.fetchClose? rest .closeSequence
  | .closeObject => s.fetchClose? rest .closeMapping
  | .comma => s.dropKey?.map fun s => ((s.allowKey true).emit .flowEntry).moveTo rest
  | .colon => s.fetchValue? cell rest
  | _ => none

theorem fetch?_mark (flat : s.indents = []) (marks : Json.Token.Marks cell.char token)
    (flow : token = .colon → s.inFlow = true) :
    s.fetch? cell rest = s.fetchMark? cell rest token := by
  generalize same : cell.char = c at marks
  have other : c ≠ '-' ∧ c ≠ '.' ∧ c ≠ '%' := by
    cases marks <;> decide
  obtain ⟨dash, dot, percent⟩ := other
  unfold fetch?
  rw [unroll_flat flat, atRow_other (same ▸ dash), atRow_other (same ▸ dot)]
  cases marks <;> simp [same, fetchMark?, flow]

theorem fetch?_quote (flat : s.indents = []) (quote : cell.char = '"') :
    s.fetch? cell rest = s.fetchNode? cell
      ((scanDouble .start .text rest).map fun (text, rest) => (.scalar text .quoted, rest)) := by
  unfold fetch?
  rw [unroll_flat flat, atRow_other (by rw [quote]; decide), atRow_other (by rw [quote]; decide)]
  simp [quote]

theorem fetch?_tab (flat : s.indents = []) (tab : cell.char = '\t') : s.fetch? cell rest = none := by
  unfold fetch?
  rw [unroll_flat flat, atRow_other (by rw [tab]; decide), atRow_other (by rw [tab]; decide)]
  simp [tab, beginsPlain, isGap, isSpaceOrTab]

theorem fetch?_steady (flat : s.indents = []) {word : List Cell}
    (steady : isSteady ((cell :: word).map Cell.char) = true) :
    s.fetch? cell (word ++ rest) = s.fetchPlain? cell (word ++ rest) := by
  have marked := not_atDocumentMark_steady steady rest
  obtain ⟨dashes, dots⟩ := Bool.or_eq_false_iff.mp marked
  unfold fetch?
  rw [unroll_flat flat, dashes, dots]
  obtain ⟨⟨⟨solid, hash, -⟩, colon, -, -, flow⟩, steadier, dashed⟩ := isSteady_cons steady
  rw [List.map_cons, isSteady, Bool.and_eq_true] at steady
  obtain ⟨kind, -⟩ := steady
  simp only [isFlowMark, Bool.or_eq_false_iff, beq_eq_false_iff_ne] at flow
  obtain ⟨⟨⟨⟨comma, openSequence⟩, closeSequence⟩, openMapping⟩, closeMapping⟩ := flow
  by_cases dash : cell.char = '-'
  · obtain ⟨d, tail, same, digit⟩ := dashed (.inl dash)
    obtain ⟨next, others, rfl, rfl, -⟩ := List.map_eq_cons_iff.mp same
    have apart : isGap next.char = false := (isSteady_cons steadier).1.solid
    simp [dash, beginsPlain, Cell.atGap, apart, (Bool.or_eq_false_iff.mp apart).1]
  · have unlike (d : Char) (mark : (d.isAlphanum || d == '+' || d == '.') = false) :
        cell.char ≠ d := by
      rintro rfl
      simp_all
    simp [beginsPlain, solid, dash, comma, openSequence, closeSequence, openMapping, closeMapping,
      hash, colon, unlike '?' rfl, unlike '*' rfl, unlike '&' rfl, unlike '!' rfl, unlike '|' rfl,
      unlike '>' rfl, unlike '\'' rfl, unlike '"' rfl, unlike '%' rfl, unlike '@' rfl,
      unlike '\x60' rfl]

/-- What comes of finding a token: the scanner goes on after it. -/
structure Emits (s : Scanner) (token : Token) (rest : List Cell) (t : Scanner) : Prop where
  cells : t.cells = rest
  tokens : t.tokens = token :: s.tokens
  count : t.count = s.count + 1
  indents : t.indents = s.indents

theorem fetchOpen?_emits (levels : s.keys ≠ []) (opened : s.fetchOpen? cell rest mark = some t) :
    Emits s mark rest t ∧ t.keys.length = s.keys.length + 1 ∧ t.keyAllowed = true := by
  obtain ⟨marked, found, rfl⟩ := Option.map_eq_some_iff.mp opened
  have same := (markKey?_rekeyed levels found).1
  exact ⟨⟨rfl, congrArg _ same.tokens, congrArg (· + 1) same.count, same.indents⟩,
    congrArg (· + 1) same.levels, rfl⟩

theorem fetchClose?_emits (flow : s.inFlow = true) (closed : s.fetchClose? rest mark = some t) :
    Emits s mark rest t ∧ t.keys.length = s.keys.length - 1 := by
  obtain ⟨dropped, found, rfl⟩ := Option.map_eq_some_iff.mp closed
  have levels : s.keys ≠ [] := by
    rintro none
    rw [inFlow, none] at flow
    cases flow
  have same := dropKey?_rekeyed levels found
  refine ⟨⟨rfl, congrArg _ same.tokens, congrArg (· + 1) same.count, same.indents⟩, ?_⟩
  simp only [moveTo, allowKey, emit, same.inFlow, flow, if_true, List.length_drop, same.levels]

theorem fetchNode?_emits (levels : s.keys ≠ []) {found : Option (Token × List Cell)}
    (fetched : s.fetchNode? cell found = some t) :
    ∃ token rest, found = some (token, rest) ∧ Emits s token rest t ∧
      t.keys.length = s.keys.length ∧
      (s.keyAllowed = true → ∃ key, t.topKey = some key ∧ key.tokens = s.count) := by
  obtain ⟨marked, kept, fetched⟩ := Option.bind_eq_some_iff.mp fetched
  obtain ⟨⟨token, rest⟩, rfl, fetched⟩ := Option.bind_eq_some_iff.mp fetched
  cases fetched
  obtain ⟨same, key⟩ := markKey?_rekeyed levels kept
  exact ⟨token, rest, rfl, ⟨rfl, congrArg _ same.tokens, congrArg (· + 1) same.count, same.indents⟩,
    same.levels, key⟩

theorem fetchPlain?_emits (levels : s.keys ≠ []) (fetched : s.fetchPlain? cell rest = some t) :
    ∃ plain, scanPlain s.inFlow (s.indent + 1).toNat .start (cell :: rest) = some plain ∧
      Emits s (.scalar plain.text .plain) plain.rest t ∧ t.keys.length = s.keys.length := by
  obtain ⟨marked, found, fetched⟩ := Option.bind_eq_some_iff.mp fetched
  obtain ⟨plain, read, fetched⟩ := Option.bind_eq_some_iff.mp fetched
  cases fetched
  have same := (markKey?_rekeyed levels found).1
  rw [same.inFlow, indent, same.indents] at read
  exact ⟨plain, read, ⟨rfl, congrArg _ same.tokens, congrArg (· + 1) same.count, same.indents⟩,
    same.levels⟩

theorem insertAt_behind (behind : s.tokens = scalar :: early) (count : s.count = s.tokens.length)
    (inserted : List Token) :
    s.insertAt early.length inserted =
      { s with
        tokens := scalar :: (inserted.reverse ++ early), count := s.count + inserted.length } := by
  have one : s.count - early.length = 1 := by
    rw [count, behind, List.length_cons]
    omega
  rw [insertAt, one, behind, List.splitAt_eq]
  rfl

/-- At a colon in a flow collection the mark of a key is put before the scalar, unless that began
too far back. -/
theorem fetchValue?_flow (flow : s.inFlow = true) (found : s.topKey = some key)
    (behind : s.tokens = scalar :: early) (count : s.count = s.tokens.length)
    (place : key.tokens = early.length) (fetched : s.fetchValue? cell rest = some t) :
    ∃ marks, (marks = [.key] ∨ marks = []) ∧ t.tokens = .value :: scalar :: (marks ++ early) ∧
      t.count = t.tokens.length ∧ t.cells = rest ∧ t.indents = s.indents ∧
      t.keys.length = s.keys.length := by
  have levels : s.keys ≠ [] := by
    rintro none
    rw [topKey, none] at found
    cases found
  have rekeyed := (setKey_rekeyed levels none).inFlow
  simp only [fetchValue?, found, place, insertAt_behind behind count, flow, rekeyed, roll, Bool.not_true,
    Bool.false_and, Bool.false_eq_true, if_false] at fetched
  split at fetched
  · cases fetched
    exact ⟨[.key], .inl rfl, rfl, by simp [count, behind, allowKey, emit, setKey, moveTo], rfl, rfl,
      (setKey_rekeyed levels none).levels⟩
  · split at fetched
    · cases fetched
    · cases fetched
      exact ⟨[], .inr rfl, congrArg _ behind, congrArg (· + 1) count, rfl, rfl,
        (setKey_rekeyed levels none).levels⟩

end LoadPlan.Yaml.Scanner
