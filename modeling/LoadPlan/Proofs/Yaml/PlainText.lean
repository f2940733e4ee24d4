import LoadPlan.Proofs.Yaml.QuotedText

/-! Words and numbers of JSON texts as plain scalars. The YAML scanner reads them up to the mark, or
the end of the text, that comes after them. -/
namespace LoadPlan.Yaml
open Json.Token (isSpace)

/-- A word without white space and marks; a dash or point in it has a digit after it. -/
def isSteady : List Char → Bool
  | [] => true
  | c :: rest =>
    (c.isAlphanum || c == '+' || ((c == '-' || c == '.') && rest.head?.any Char.isDigit)) &&
      isSteady rest

/-- What holds of the characters of such words. -/
structure Plain (c : Char) : Prop extends Begins c where
  colon : c ≠ ':'
  unix : c ≠ '\r'
  lines : c ≠ '\u0085'
  flow : isFlowMark c = false

theorem isSteady_cons (steady : isSteady (c :: cs) = true) :
    Plain c ∧ isSteady cs = true ∧
      (c = '-' ∨ c = '.' → ∃ d rest, cs = d :: rest ∧ d.isDigit = true) := by
  rw [isSteady, Bool.and_eq_true] at steady
  obtain ⟨kind, steady⟩ := steady
  refine ⟨?_, steady, ?_⟩
  · simp only [Bool.or_eq_true, Bool.and_eq_true, beq_iff_eq] at kind
    rcases kind with (letter | rfl) | ⟨rfl | rfl, -⟩
    · have unlike (d : Char) (mark : d.isAlphanum = false) : c ≠ d := by
        rintro rfl
        rw [letter] at mark
        cases mark
      refine ⟨⟨?_, unlike '#' rfl, unlike '\ufeff' rfl⟩, unlike ':' rfl, unlike '\r' rfl,
        unlike '\u0085' rfl, ?_⟩
      · simp [isGap, isSpaceOrTab, isBreak, unlike ' ' rfl, unlike '\t' rfl, unlike '\n' rfl,
          unlike '\u2028' rfl, unlike '\u2029' rfl]
      · simp [isFlowMark, unlike ',' rfl, unlike '[' rfl, unlike ']' rfl, unlike '\x7b' rfl,
          unlike '\x7d' rfl]
    all_goals exact ⟨⟨rfl, by decide, by decide⟩, by decide, by decide, by decide, rfl⟩
  · rintro dashed
    have marked : c.isAlphanum = false ∧ (c == '+') = false := by
      rcases dashed with rfl | rfl <;> exact ⟨by decide, by decide⟩
    rw [marked.1, marked.2] at kind
    cases cs with
    | nil => simp at kind
    | cons d rest => exact ⟨d, rest, rfl, by simp_all⟩

theorem not_atDocumentMark_digit {a b : Cell} (digit : b.char.isDigit = true) (rest : List Cell) :
    Cell.atDocumentMark (a :: b :: rest) = false := by
  have dash : b.char ≠ '-' := by
    intro same
    rw [same] at digit
    cases digit
  have dot : b.char ≠ '.' := by
    intro same
    rw [same] at digit
    cases digit
  unfold Cell.atDocumentMark Cell.atRow
  split <;> simp_all

theorem not_atDocumentMark_steady {cell : Cell} {word : List Cell}
    (steady : isSteady ((cell :: word).map Cell.char) = true) (rest : List Cell) :
    Cell.atDocumentMark (cell :: (word ++ rest)) = false := by
  obtain ⟨-, -, dashed⟩ := isSteady_cons steady
  by_cases mark : cell.char = '-' ∨ cell.char = '.'
  · obtain ⟨d, tail, same, digit⟩ := dashed mark
    obtain ⟨next, others, rfl, rfl, -⟩ := List.map_eq_cons_iff.mp same
    exact not_atDocumentMark_digit digit _
  · obtain ⟨dash, dot⟩ := not_or.mp mark
    exact not_atDocumentMark dash dot _

section
variable {flow : Bool} {margin : Nat}

/-- A plain scalar goes on through a word. -/
theorem scanPlain_steady {word : List Cell} (steady : isSteady (word.map Cell.char) = true)
    (done : List Char) (rest : List Cell) :
    scanPlain flow margin ⟨done, Gap.none⟩ (word ++ rest) =
      scanPlain flow margin ⟨(word.map Cell.char).reverse ++ done, Gap.none⟩ rest := by
  induction word generalizing done with
  | nil => rfl
  | cons cell word ih =>
    obtain ⟨⟨⟨solid, hash, -⟩, colon, -, -, mark⟩, steadier, -⟩ := isSteady_cons steady
    rw [List.cons_append, scanPlain, not_atDocumentMark_steady steady]
    simp only [solid, mark, Gap.isBroken, Gap.none, beq_eq_false_iff_ne.mpr hash,
      beq_eq_false_iff_ne.mpr colon, Bool.false_and, Bool.and_false, Bool.false_eq_true, if_false]
    have onward := ih steadier (cell.char :: done)
    rw [List.map_cons, List.reverse_cons, List.append_assoc, List.singleton_append]
    exact onward

theorem scanPlain_gap {f : Folded} {cell : Cell} (gapped : isGap cell.char = true)
    (scanned : scanPlain flow margin f (cell :: rest) = some plain) :
    scanPlain flow margin (f.pass cell.char) rest = some plain := by
  rw [scanPlain, if_pos gapped] at scanned
  split at scanned
  · cases scanned
  · exact scanned

theorem scanPlain_mark {f : Folded} {cell : Cell} (mark : isFlowMark cell.char = true)
    (scanned : scanPlain true margin f (cell :: rest) = some plain) :
    plain.text = f.text ∧ plain.rest = cell :: rest := by
  have solid : isGap cell.char = false ∧ cell.char ≠ '-' ∧ cell.char ≠ '.' ∧
      (cell.char == '#') = false ∧ (cell.char == ':') = false := by
    simp only [isFlowMark, Bool.or_eq_true, beq_iff_eq] at mark
    rcases mark with (((same | same) | same) | same) | same <;> rw [same] <;> decide
  obtain ⟨solid, dash, dot, hash, colon⟩ := solid
  rw [scanPlain, not_atDocumentMark dash dot] at scanned
  simp only [solid, hash, colon, mark, Bool.not_true, Bool.and_false, Bool.false_and,
    Bool.true_and, Bool.false_eq_true, if_false, if_true] at scanned
  cases scanned
  exact ⟨rfl, rfl⟩

/-- After a word there are only gaps up to the end of the text, or in a flow collection up to a mark
of it, where the plain scalar ends. -/
theorem scanPlain_gaps {f : Folded} {cells : List Cell} {cs : List Char} (shows : Shows cells cs)
    (unlike : '\u0085' ∉ cs)
    (ends : ∀ c ∈ (cs.dropWhile isSpace).head?, flow = true ∧ isFlowMark c = true)
    (scanned : scanPlain flow margin f cells = some plain) :
    plain.text = f.text ∧ Shows plain.rest (cs.dropWhile isSpace) := by
  induction cs using unifyBreaks.induct generalizing cells f with
  | case1 rest ih =>
    obtain ⟨cell, others, rfl, line, later⟩ := List.map_eq_cons_iff.mp shows
    have ending := ih later (fun inside => unlike (by simp [inside])) ends
      (scanPlain_gap (by rw [line]; rfl) scanned)
    exact ending
  | case2 rest _ ih =>
    rw [Shows, unifyBreaks] at shows
    · obtain ⟨cell, others, rfl, line, later⟩ := List.map_eq_cons_iff.mp shows
      have ending := ih later (fun inside => unlike (by simp [inside])) ends
        (scanPlain_gap (by rw [line]; rfl) scanned)
      exact ending
    · assumption
  | case3 rest ih => exact absurd List.mem_cons_self unlike
  | case4 c rest _ unix _ ih =>
    obtain ⟨cell, others, rfl, rfl, later⟩ := shows.cons unix fun next => unlike (by simp [next])
    by_cases space : isSpace cell.char = true
    · rw [List.dropWhile_cons_of_pos space] at ends ⊢
      have gapped : isGap cell.char = true := by
        simp only [isSpace, Bool.or_eq_true, beq_iff_eq] at space
        rcases space with ((same | same) | same) | same
        · rw [same]; rfl
        · rw [same]; rfl
        · rw [same]; rfl
        · exact absurd same unix
      have ending := ih later (fun inside => unlike (by simp [inside])) ends
        (scanPlain_gap gapped scanned)
      exact ending
    · rw [List.dropWhile_cons_of_neg space] at ends ⊢
      obtain ⟨rfl, mark⟩ := ends cell.char rfl
      obtain ⟨same, stops⟩ := scanPlain_mark mark scanned
      exact ⟨same, stops ▸ shows⟩
  | case5 =>
    rw [shows.nil] at scanned
    cases scanned
    exact ⟨rfl, rfl⟩

theorem Shows.steady {word after : List Char} {cells : List Cell} (steady : isSteady word = true)
    (shows : Shows cells (word ++ after)) :
    ∃ own rest, cells = own ++ rest ∧ own.map Cell.char = word ∧ Shows rest after := by
  induction word generalizing cells with
  | nil => exact ⟨[], cells, rfl, rfl, shows⟩
  | cons c word ih =>
    obtain ⟨plain, steadier, -⟩ := isSteady_cons steady
    obtain ⟨cell, others, rfl, rfl, later⟩ := shows.cons plain.unix plain.lines
    obtain ⟨own, rest, rfl, rfl, ends⟩ := ih steadier later
    exact ⟨cell :: own, rest, rfl, rfl, ends⟩

/-- A word that a JSON text has next is read as a plain scalar, if at all, up to what follows it. -/
theorem scanPlain_shows {word after : List Char} {cells : List Cell} (steady : isSteady word = true)
    (shows : Shows cells (word ++ after)) (unlike : '\u0085' ∉ after)
    (ends : ∀ c ∈ (after.dropWhile isSpace).head?, flow = true ∧ isFlowMark c = true)
    (scanned : scanPlain flow margin .start cells = some plain) :
    plain.text = String.ofList word ∧ Shows plain.rest (after.dropWhile isSpace) := by
  obtain ⟨own, rest, rfl, rfl, later⟩ := shows.steady steady
  rw [Folded.start, scanPlain_steady steady] at scanned
  obtain ⟨text, stops⟩ := scanPlain_gaps later unlike ends scanned
  exact ⟨by simpa [Folded.text] using text, stops⟩

end
end LoadPlan.Yaml
