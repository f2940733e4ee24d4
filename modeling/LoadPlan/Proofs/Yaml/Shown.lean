import LoadPlan.Json.Token
import LoadPlan.Yaml.Scanner

/-! Cells and the characters that they show. Where a text has no next-line character, white space
between JSON tokens is passed by the YAML scanner too. -/
namespace LoadPlan.Yaml
open Json.Token (isSpace)
open Scanner (skipToToken)

/-- Cells that stand for characters, with line breaks of all spellings made one. -/
def Shows (cells : List Cell) (cs : List Char) : Prop := cells.map Cell.char = unifyBreaks cs

theorem map_char_place (line column bytes : Nat) (cs : List Char) :
    (place line column bytes cs).map Cell.char = cs := by
  induction cs generalizing line column bytes with
  | nil => rfl
  | cons c rest ih =>
    rw [place, List.map_cons]
    split <;> rw [ih]

theorem cells?_shows (read : cells? text = some cells) : Shows cells text.toList := by
  unfold cells? at read
  split at read
  · cases read
    exact map_char_place ..
  · cases read

theorem unifyBreaks_cons {c : Char} (unix : c ≠ '\r') (unlike : c ≠ '\u0085') (cs : List Char) :
    unifyBreaks (c :: cs) = c :: unifyBreaks cs := by
  rw [unifyBreaks]
  · rintro rest ⟨⟩
    contradiction
  · rintro ⟨⟩
    contradiction
  · rintro ⟨⟩
    contradiction

namespace Shows
variable {cells : List Cell} {cs : List Char}

theorem nil (shows : Shows cells []) : cells = [] := List.map_eq_nil_iff.mp shows

theorem empty (shows : Shows [] cs) : cs = [] := by
  rw [Shows, List.map_nil] at shows
  unfold unifyBreaks at shows
  split at shows <;> cases shows
  rfl

theorem cons (shows : Shows cells (c :: cs)) (unix : c ≠ '\r') (unlike : c ≠ '\u0085') :
    ∃ cell rest, cells = cell :: rest ∧ cell.char = c ∧ Shows rest cs := by
  rw [Shows, unifyBreaks_cons unix unlike] at shows
  exact List.map_eq_cons_iff.mp shows

end Shows

/-- A character that no comment, gap or byte order mark begins with. -/
structure Begins (c : Char) : Prop where
  solid : isGap c = false
  hash : c ≠ '#'
  mark : c ≠ '\ufeff'

theorem skipToToken_begins (flow allowed : Bool) {cell : Cell} (begins : Begins cell.char)
    (rest : List Cell) :
    skipToToken flow allowed false (cell :: rest) = (cell :: rest, allowed) := by
  obtain ⟨solid, hash, mark⟩ := begins
  simp only [isGap, isSpaceOrTab, Bool.or_eq_false_iff] at solid
  rw [skipToToken]
  simp [solid, hash, mark]

theorem skipToToken_break (flow allowed : Bool) {cell : Cell} (ends : cell.char = '\n')
    (rest : List Cell) :
    skipToToken flow allowed false (cell :: rest) =
      skipToToken flow (allowed || !flow) false rest := by
  rw [skipToToken, ends]
  rfl

/-- White space is passed up to what comes after it, or up to a tab where a key may begin. -/
theorem skipToToken_shows (flow allowed : Bool) {cells : List Cell} {cs : List Char}
    (shows : Shows cells cs) (unlike : '\u0085' ∉ cs)
    (begins : ∀ c ∈ (cs.dropWhile isSpace).head?, Begins c) :
    Shows (skipToToken flow allowed false cells).1 (cs.dropWhile isSpace) ∨
      ∃ cell rest, (skipToToken flow allowed false cells).1 = cell :: rest ∧ cell.char = '\t' := by
  induction cs using unifyBreaks.induct generalizing cells allowed with
  | case1 rest ih =>
    obtain ⟨cell, others, rfl, ends, later⟩ := List.map_eq_cons_iff.mp shows
    rw [skipToToken_break _ _ ends]
    exact ih _ later (fun inside => unlike (by simp [inside])) begins
  | case2 rest _ ih =>
    rw [Shows, unifyBreaks] at shows
    · obtain ⟨cell, others, rfl, ends, later⟩ := List.map_eq_cons_iff.mp shows
      rw [skipToToken_break _ _ ends]
      exact ih _ later (fun inside => unlike (by simp [inside])) begins
    · assumption
  | case3 rest ih => exact absurd List.mem_cons_self unlike
  | case4 c rest _ unix _ ih =>
    obtain ⟨cell, others, rfl, rfl, later⟩ := shows.cons unix fun next => unlike (by simp [next])
    by_cases space : isSpace cell.char = true
    · rw [List.dropWhile_cons_of_pos space] at begins ⊢
      have onward := fun allowed => ih allowed later (fun inside => unlike (by simp [inside])) begins
      simp only [isSpace, Bool.or_eq_true, beq_iff_eq] at space
      rcases space with ((blank | tab) | line) | carriage
      · rw [skipToToken, blank]
        exact onward allowed
      · by_cases stops : flow || !allowed
        · rw [skipToToken, tab, stops]
          exact onward allowed
        · refine .inr ⟨cell, others, ?_, tab⟩
          rw [skipToToken, tab, Bool.eq_false_iff.mpr stops]
          rfl
      · rw [skipToToken_break _ _ line]
        exact onward _
      · exact absurd carriage unix
    · rw [List.dropWhile_cons_of_neg space] at begins ⊢
      rw [skipToToken_begins _ _ (begins cell.char rfl)]
      exact .inl shows
  | case5 =>
    rw [shows.nil]
    exact .inl rfl

theorem skipToToken_allowed (flow comment : Bool) (cells : List Cell) :
    (skipToToken flow true comment cells).2 = true := by
  induction cells generalizing comment with
  | nil => rfl
  | cons cell rest ih =>
    rw [skipToToken]
    split
    · exact ih false
    · repeat' split
      all_goals first | exact ih _ | rfl

end LoadPlan.Yaml
