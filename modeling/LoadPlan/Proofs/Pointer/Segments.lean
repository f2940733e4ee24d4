import LoadPlan.Pointer
import Mathlib.Data.List.Basic

/-! Segments of pointers. Any list of texts is written as a pointer and read back from it, whatever
slashes and tildes its texts have; and of all the ways to spell these segments this one alone has no
tilde but in the escapes. -/
namespace LoadPlan.Pointer

/-- The escapes of a segment undone in one pass. -/
def decode : List Char → List Char
  | '~' :: '1' :: rest => '/' :: decode rest
  | '~' :: '0' :: rest => '~' :: decode rest
  | c :: rest => c :: decode rest
  | [] => []

section
variable {a b : Char} (put : List Char)

theorem replaceChars_pair (rest : List Char) :
    Text.replaceChars [a, b] put (a :: b :: rest) = put ++ Text.replaceChars [a, b] put rest := by
  rw [Text.replaceChars, if_pos (by simp [List.isPrefixOf])]
  rfl

theorem replaceChars_other {c : Char} {rest : List Char}
    (other : c = a → rest.head? ≠ some b) :
    Text.replaceChars [a, b] put (c :: rest) = c :: Text.replaceChars [a, b] put rest := by
  rw [Text.replaceChars, if_neg]
  intro found
  cases rest with
  | nil => simp [List.isPrefixOf] at found
  | cons d rest =>
    simp only [List.isPrefixOf, Bool.and_eq_true, beq_iff_eq] at found
    exact other found.1.symm (congrArg some found.2.1.symm)

end

/-- Slashes that are put in bring no zero to the front, so they make no escape of a tilde. -/
theorem head?_slashes {rest : List Char}
    (zero : (Text.replaceChars ['~', '1'] ['/'] rest).head? = some '0') : rest.head? = some '0' := by
  cases rest with
  | nil => rw [Text.replaceChars] at zero; cases zero
  | cons c rest =>
    rw [Text.replaceChars] at zero
    split at zero
    · cases zero
    · exact zero

/-- No escape is made or broken by undoing others, if slashes are put in before tildes. -/
theorem unescape_eq_decode (cs : List Char) : unescape cs = decode cs := by
  unfold unescape
  fun_induction decode cs with
  | case1 rest ih =>
    rw [replaceChars_pair, List.singleton_append, replaceChars_other _ (by simp), ih]
  | case2 rest ih =>
    have zero : Text.replaceChars ['~', '1'] ['/'] ('~' :: '0' :: rest) =
        '~' :: '0' :: Text.replaceChars ['~', '1'] ['/'] rest := by
      rw [replaceChars_other _ (by simp), replaceChars_other _ (by simp)]
    rw [zero, replaceChars_pair, List.singleton_append, ih]
  | case3 c rest noSlash noTilde ih =>
    have one : c = '~' → rest.head? ≠ some '1' := by
      rintro rfl head
      obtain ⟨more, rfl⟩ := List.head?_eq_some_iff.mp head
      exact noSlash more rfl rfl
    have zero : c = '~' → (Text.replaceChars ['~', '1'] ['/'] rest).head? ≠ some '0' := by
      rintro rfl head
      obtain ⟨more, rfl⟩ := List.head?_eq_some_iff.mp (head?_slashes head)
      exact noTilde more rfl rfl
    rw [replaceChars_other _ one, replaceChars_other _ zero, ih]
  | case4 => simp [Text.replaceChars]

theorem decode_other {c : Char} (other : c ≠ '~') (rest : List Char) :
    decode (c :: rest) = c :: decode rest := by
  rw [decode]
  · rintro - rfl
    contradiction
  · rintro - rfl
    contradiction

theorem escape_tilde (rest : List Char) : escape ('~' :: rest) = '~' :: '0' :: escape rest := rfl

theorem escape_slash (rest : List Char) : escape ('/' :: rest) = '~' :: '1' :: escape rest := rfl

theorem escape_other {c : Char} (tilde : c ≠ '~') (slash : c ≠ '/') (rest : List Char) :
    escape (c :: rest) = c :: escape rest := by
  rw [escape, List.flatMap_cons, if_neg tilde, if_neg slash, List.singleton_append]
  rfl

theorem decode_escape (cs : List Char) : decode (escape cs) = cs := by
  induction cs with
  | nil => rfl
  | cons c rest ih =>
    by_cases tilde : c = '~'
    · rw [tilde, escape_tilde, decode, ih]
    · by_cases slash : c = '/'
      · rw [slash, escape_slash, decode, ih]
      · rw [escape_other tilde slash, decode_other tilde, ih]

theorem slash_not_mem_escape (cs : List Char) : '/' ∉ escape cs := by
  intro member
  obtain ⟨c, -, written⟩ := List.mem_flatMap.mp member
  by_cases tilde : c = '~'
  · simp [tilde] at written
  · by_cases slash : c = '/'
    · simp [slash] at written
    · rw [if_neg tilde, if_neg slash, List.mem_singleton] at written
      exact slash written.symm

theorem splitSlash_eq_splitOn (cs : List Char) : splitSlash cs = cs.splitOn '/' := by
  induction cs with
  | nil => rfl
  | cons c rest ih =>
    rw [splitSlash, List.splitOn_cons_eq_if_modifyHead, ih]
    cases pieces : rest.splitOn '/' with
    | nil => exact absurd pieces (List.splitOn_ne_nil _ _)
    | cons piece pieces =>
      by_cases slash : c = '/'
      · simp [slash]
      · simp [slash]

theorem flatMap_slash {pieces : List (List Char)} (some : pieces ≠ []) :
    pieces.flatMap ('/' :: ·) = '/' :: ['/'].intercalate pieces := by
  induction pieces with
  | nil => contradiction
  | cons piece rest ih =>
    cases rest with
    | nil => simp
    | cons next rest =>
      rw [List.flatMap_cons, ih (List.cons_ne_nil _ _), List.intercalate_cons_cons]
      simp

theorem splitSlash_intercalate {pieces : List (List Char)} (some : pieces ≠ [])
    (free : ∀ piece ∈ pieces, '/' ∉ piece) : splitSlash (['/'].intercalate pieces) = pieces := by
  rw [splitSlash_eq_splitOn, List.splitOn_intercalate '/' free some]

theorem flatMap_splitSlash (cs : List Char) : (splitSlash cs).flatMap ('/' :: ·) = '/' :: cs := by
  rw [splitSlash_eq_splitOn, flatMap_slash (List.splitOn_ne_nil _ _), List.intercalate_splitOn]

theorem slash_not_mem_piece {cs piece : List Char} (member : piece ∈ splitSlash cs) :
    '/' ∉ piece := by
  induction cs generalizing piece with
  | nil =>
    rw [List.mem_singleton.mp member]
    exact List.not_mem_nil
  | cons c rest ih =>
    rw [splitSlash] at member
    split at member
    · rename_i first others pieces
      have earlier : ∀ piece ∈ first :: others, '/' ∉ piece := fun piece inside => ih (pieces ▸ inside)
      split at member
      · rcases List.mem_cons.mp member with rfl | inside
        · exact List.not_mem_nil
        · exact earlier piece inside
      · rename_i other
        rcases List.mem_cons.mp member with rfl | inside
        · intro slash
          rcases List.mem_cons.mp slash with same | slash
          · exact other same.symm
          · exact earlier first List.mem_cons_self slash
        · exact earlier piece (List.mem_cons_of_mem _ inside)
    · rename_i pieces
      exact absurd (splitSlash_eq_splitOn rest ▸ pieces) (List.splitOn_ne_nil _ _)

/-- The text of a pointer read as its segments again, whatever characters they have. -/
theorem segments?_ofSegments (segments : List String) :
    segments? (ofSegments segments) = some segments := by
  unfold segments? ofSegments
  rw [String.toList_ofList]
  cases segments with
  | nil => rfl
  | cons first others =>
    have pieces : (first :: others).flatMap (fun segment => '/' :: escape segment.toList) =
        '/' :: ['/'].intercalate ((first :: others).map fun segment => escape segment.toList) := by
      rw [← flatMap_slash (by simp), List.flatMap_map]
    have free : ∀ piece ∈ (first :: others).map (fun segment => escape segment.toList),
        '/' ∉ piece := by
      intro piece member
      obtain ⟨segment, -, rfl⟩ := List.mem_map.mp member
      exact slash_not_mem_escape _
    rw [pieces]
    simp only [splitSlash_intercalate (by simp) free, List.map_map]
    refine congrArg some (List.map_id'' (fun segment => ?_) _)
    rw [Function.comp_apply, unescape_eq_decode, decode_escape, String.ofList_toList]

/-- Each tilde begins an escape. -/
def WellEscaped (cs : List Char) : Prop :=
  ∀ before after, cs = before ++ '~' :: after → after.head? = some '0' ∨ after.head? = some '1'

theorem wellEscaped_cons {c : Char} {cs : List Char} : WellEscaped (c :: cs) ↔
    (c = '~' → cs.head? = some '0' ∨ cs.head? = some '1') ∧ WellEscaped cs := by
  constructor
  · intro escaped
    refine ⟨?_, fun before after split => escaped (c :: before) after (by rw [split]; rfl)⟩
    rintro rfl
    exact escaped [] cs rfl
  · rintro ⟨first, later⟩ before after split
    cases before with
    | nil =>
      obtain ⟨tilde, rfl⟩ := List.cons.inj split
      exact first tilde
    | cons d before => exact later before after (List.cons.inj split).2

theorem WellEscaped.tail {c : Char} {cs : List Char} (escaped : WellEscaped (c :: cs)) :
    WellEscaped cs :=
  (wellEscaped_cons.mp escaped).2

theorem WellEscaped.nil : WellEscaped [] := fun before after split =>
  absurd split.symm (by simp)

theorem WellEscaped.cons {c : Char} {cs : List Char} (escaped : WellEscaped cs) (other : c ≠ '~') :
    WellEscaped (c :: cs) :=
  wellEscaped_cons.mpr ⟨fun tilde => absurd tilde other, escaped⟩

theorem WellEscaped.escape_append {rest : List Char} (escaped : WellEscaped rest) (cs : List Char) :
    WellEscaped (escape cs ++ rest) := by
  induction cs with
  | nil => exact escaped
  | cons c cs ih =>
    by_cases tilde : c = '~'
    · rw [tilde, escape_tilde]
      exact wellEscaped_cons.mpr ⟨fun _ => .inl rfl, ih.cons (by decide)⟩
    · by_cases slash : c = '/'
      · rw [slash, escape_slash]
        exact wellEscaped_cons.mpr ⟨fun _ => .inr rfl, ih.cons (by decide)⟩
      · rw [escape_other tilde slash]
        exact ih.cons tilde

theorem wellEscaped_ofSegments (segments : List String) :
    WellEscaped (ofSegments segments).toList := by
  rw [ofSegments, String.toList_ofList]
  refine .cons ?_ (by decide)
  induction segments with
  | nil => exact .nil
  | cons segment rest ih =>
    rw [List.flatMap_cons]
    exact (ih.escape_append segment.toList).cons (by decide)

theorem escape_decode {cs : List Char} (escaped : WellEscaped cs) (free : '/' ∉ cs) :
    escape (decode cs) = cs := by
  fun_induction decode cs with
  | case1 rest ih =>
    have later := ih escaped.tail.tail fun slash => free (by simp [slash])
    rw [escape_slash, later]
  | case2 rest ih =>
    have later := ih escaped.tail.tail fun slash => free (by simp [slash])
    rw [escape_tilde, later]
  | case3 c rest noSlash noTilde ih =>
    have later := ih escaped.tail fun slash => free (List.mem_cons_of_mem _ slash)
    have tilde : c ≠ '~' := by
      rintro rfl
      rcases escaped [] rest rfl with head | head
      · obtain ⟨more, rfl⟩ := List.head?_eq_some_iff.mp head
        exact noTilde more rfl rfl
      · obtain ⟨more, rfl⟩ := List.head?_eq_some_iff.mp head
        exact noSlash more rfl rfl
    have slash : c ≠ '/' := fun same => free (same ▸ List.mem_cons_self)
    rw [escape_other tilde slash, later]
  | case4 => rfl

/-- No escape goes on behind a slash, so the pieces between slashes have escapes of their own. -/
theorem WellEscaped.piece {cs piece : List Char} (escaped : WellEscaped ('/' :: cs))
    (member : piece ∈ splitSlash cs) : WellEscaped piece := by
  obtain ⟨earlier, later, split⟩ := List.append_of_mem member
  intro before after rfl
  have whole : '/' :: cs = (earlier.flatMap ('/' :: ·) ++ '/' :: before) ++
      '~' :: (after ++ later.flatMap ('/' :: ·)) := by
    rw [← flatMap_splitSlash, split]
    simp
  have escape := escaped _ _ whole
  cases after with
  | nil =>
    cases later with
    | nil => simp at escape
    | cons next later => simp at escape
  | cons c after => exact escape

/-- Of all pointers with these segments one has no tilde but in escapes. -/
theorem eq_ofSegments {pointer : String} {segments : List String}
    (escaped : WellEscaped pointer.toList) (read : segments? pointer = some segments) :
    pointer = ofSegments segments := by
  rw [← String.toList_inj, ofSegments, String.toList_ofList]
  unfold segments? at read
  split at read
  · rename_i whole
    cases read
    exact whole
  · rename_i cs text
    have pieces : WellEscaped ('/' :: cs) := (text ▸ escaped).tail
    have each : ∀ piece ∈ splitSlash cs,
        '/' :: escape (String.ofList (unescape piece)).toList = '/' :: piece := by
      intro piece member
      rw [String.toList_ofList, unescape_eq_decode,
        escape_decode (pieces.piece member) (slash_not_mem_piece member)]
    rw [text, ← Option.some.inj read, List.flatMap_map, List.flatMap_congr each, flatMap_splitSlash]
  · cases read

end LoadPlan.Pointer
