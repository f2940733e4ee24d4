import LoadPlan.Json.Token
import Mathlib.Data.List.TakeDrop
import Mathlib.Data.List.TakeWhile

/-! Numbers of JSON texts: the characters that they are written with, and where they stand. -/
namespace LoadPlan.Json

namespace Numeral

/-- Characters that write some digits. -/
structure Digits (digits : List Nat) (written : List Char) : Prop where
  some : written ≠ []
  all : ∀ c ∈ written, c.isDigit = true
  values : digits = written.map digitValue

/-- The fraction after its point, or nothing. -/
inductive WritesFraction : List Nat → List Char → Prop
  | none : WritesFraction [] []
  | some : Digits digits written → WritesFraction digits ('.' :: written)

/-- The power of ten with its letter and sign, or nothing. -/
inductive WritesPower : Option (Bool × List Nat) → List Char → Prop
  | none : WritesPower .none []
  | unsigned : letter = 'e' ∨ letter = 'E' → Digits digits written →
      WritesPower (some (true, digits)) (letter :: written)
  | plus : letter = 'e' ∨ letter = 'E' → Digits digits written →
      WritesPower (some (true, digits)) (letter :: '+' :: written)
  | minus : letter = 'e' ∨ letter = 'E' → Digits digits written →
      WritesPower (some (false, digits)) (letter :: '-' :: written)

/-- The characters of a number without its minus. -/
inductive Writes (n : Numeral) : List Char → Prop
  | mk {whole fraction power : List Char} : Digits n.whole whole →
      (whole = ['0'] ∨ whole.head? ≠ some '0') → WritesFraction n.fraction fraction →
      WritesPower n.exponent power → Writes n (whole ++ fraction ++ power)

theorem scanDigits_writes (scanned : scanDigits cs = some (digits, rest)) :
    ∃ written, cs = written ++ rest ∧ Digits digits written := by
  unfold scanDigits at scanned
  split at scanned
  · cases scanned
  · rename_i some
    cases scanned
    refine ⟨cs.takeWhile Char.isDigit, List.takeWhile_append_dropWhile.symm, ?_, ?_, rfl⟩
    · simpa using some
    · exact fun c member => List.mem_takeWhile_imp member

theorem scanWhole_writes (scanned : scanWhole cs = some (digits, rest)) :
    ∃ written, cs = written ++ rest ∧ Digits digits written ∧
      (written = ['0'] ∨ written.head? ≠ some '0') := by
  unfold scanWhole at scanned
  split at scanned
  · cases scanned
    exact ⟨['0'], rfl, ⟨List.cons_ne_nil _ _, by simp, rfl⟩, .inl rfl⟩
  · rename_i unlike
    obtain ⟨written, rfl, digits⟩ := scanDigits_writes scanned
    refine ⟨written, rfl, digits, .inr fun zero => ?_⟩
    cases written with
    | nil => cases zero
    | cons c tail =>
      cases zero
      exact unlike _ rfl

theorem scanFraction_writes (scanned : scanFraction cs = some (digits, rest)) :
    ∃ written, cs = written ++ rest ∧ WritesFraction digits written := by
  unfold scanFraction at scanned
  split at scanned
  · obtain ⟨written, rfl, digits⟩ := scanDigits_writes scanned
    exact ⟨'.' :: written, rfl, .some digits⟩
  · cases scanned
    exact ⟨[], rfl, .none⟩

theorem scanPower_writes (letter : Char) (named : letter = 'e' ∨ letter = 'E')
    (scanned : scanPower cs = some (power, rest)) :
    ∃ written, letter :: cs = written ++ rest ∧ WritesPower power written := by
  obtain ⟨⟨digits, _⟩, found, same⟩ := Option.map_eq_some_iff.mp scanned
  cases same
  unfold scanSign at found ⊢
  split at found
  · obtain ⟨written, rfl, digits⟩ := scanDigits_writes found
    exact ⟨letter :: '+' :: written, rfl, .plus named digits⟩
  · obtain ⟨written, rfl, digits⟩ := scanDigits_writes found
    exact ⟨letter :: '-' :: written, rfl, .minus named digits⟩
  · obtain ⟨written, rfl, digits⟩ := scanDigits_writes found
    exact ⟨letter :: written, rfl, .unsigned named digits⟩

theorem scanExponent_writes (scanned : scanExponent cs = some (power, rest)) :
    ∃ written, cs = written ++ rest ∧ WritesPower power written := by
  unfold scanExponent at scanned
  split at scanned
  · exact scanPower_writes 'e' (.inl rfl) scanned
  · exact scanPower_writes 'E' (.inr rfl) scanned
  · cases scanned
    exact ⟨[], rfl, .none⟩

theorem scan_writes {sign : Bool} (scanned : scan sign cs = some (n, rest)) :
    ∃ written, cs = written ++ rest ∧ n.negative = sign ∧ Writes n written := by
  obtain ⟨⟨whole, afterWhole⟩, first, scanned⟩ := Option.bind_eq_some_iff.mp scanned
  obtain ⟨⟨fraction, afterFraction⟩, second, scanned⟩ := Option.bind_eq_some_iff.mp scanned
  obtain ⟨⟨power, afterPower⟩, third, scanned⟩ := Option.bind_eq_some_iff.mp scanned
  cases scanned
  obtain ⟨wholePart, rfl, digits, unpadded⟩ := scanWhole_writes first
  obtain ⟨fractionPart, same, fractions⟩ := scanFraction_writes second
  obtain ⟨powerPart, same', powers⟩ := scanExponent_writes third
  refine ⟨wholePart ++ fractionPart ++ powerPart, ?_, rfl, .mk digits unpadded fractions powers⟩
  rw [same, same']
  simp only [List.append_assoc]

/-- The power of ten that a number is written with. -/
def power (n : Numeral) : Int :=
  match n.exponent with
  | some (true, digits) => ofDigits digits
  | some (false, digits) => -(ofDigits digits : Int)
  | none => 0

/-- Neither fraction nor power are written. -/
def isWhole (n : Numeral) : Bool := n.fraction.isEmpty && n.exponent.isNone

def wholeValue (n : Numeral) : Int := if n.negative then -(ofDigits n.whole : Int) else ofDigits n.whole

/-- The float nearest to the number. -/
def nearest? (n : Numeral) : Option Double :=
  Double.ofDecimal? n.negative (ofDigits (n.whole ++ n.fraction)) (n.power - n.fraction.length)

/-- The characters of a number with its minus. -/
def Signed (n : Numeral) (written : List Char) : Prop :=
  ∃ body, Writes n body ∧ written = if n.negative then '-' :: body else body

section
variable {n : Numeral} {written fraction power rest : List Char} {ds : List Nat}
  {exponent : Option (Bool × List Nat)}

theorem WritesPower.head (writes : WritesPower exponent written) :
    ∀ c ∈ written.head?, c = 'e' ∨ c = 'E' := by
  cases writes with
  | none => exact fun _ => (nomatch ·)
  | unsigned named | plus named | minus named =>
    rintro c ⟨⟩
    exact named

/-- After the digits in front there is a point, the letter of a power, or nothing. -/
theorem head_after (fractions : WritesFraction ds fraction) (powers : WritesPower exponent power) :
    ∀ c ∈ (fraction ++ power).head?, c = '.' ∨ c = 'e' ∨ c = 'E' := by
  cases fractions with
  | none => exact fun c head => .inr (powers.head c head)
  | some =>
    rintro c ⟨⟩
    exact .inl rfl

theorem head_after_other (fractions : WritesFraction ds fraction)
    (powers : WritesPower exponent power) : ∀ c ∈ (fraction ++ power).head?, c.isDigit = false := by
  intro c head
  rcases head_after fractions powers c head with rfl | rfl | rfl <;> rfl

theorem isWhole_eq (fractions : WritesFraction n.fraction fraction)
    (powers : WritesPower n.exponent power) : n.isWhole = (fraction ++ power).isEmpty := by
  unfold isWhole
  generalize n.fraction = ds at fractions
  generalize n.exponent = exponent at powers
  cases fractions with
  | some digits =>
    rw [digits.values, List.isEmpty_map, List.isEmpty_eq_false_iff.mpr digits.some]
    rfl
  | none => cases powers <;> rfl

theorem Writes.head (writes : Writes n written) :
    ∃ c cs, written = c :: cs ∧ c.isDigit = true := by
  obtain ⟨digits, -, -, -⟩ := writes
  rename_i whole fraction power
  cases whole with
  | nil => exact absurd rfl digits.some
  | cons c cs => exact ⟨c, cs ++ fraction ++ power, rfl, digits.all c List.mem_cons_self⟩

/-- A number without its minus starts with no sign. -/
theorem Writes.unlike (writes : Writes n written) (other : c.isDigit = false) :
    ∀ rest, written ≠ c :: rest := by
  rintro rest rfl
  obtain ⟨first, cs, same, digit⟩ := writes.head
  cases same
  exact absurd digit (Bool.eq_false_iff.mp other)

theorem Writes.after_zero (writes : Writes n ('0' :: c :: rest)) : c = '.' ∨ c = 'e' ∨ c = 'E' := by
  generalize same : '0' :: c :: rest = written at writes
  obtain ⟨digits, unpadded, fractions, powers⟩ := writes
  rename_i whole fraction power
  rw [List.append_assoc] at same
  rcases unpadded with rfl | other
  · obtain ⟨-, same⟩ := List.cons_eq_cons.mp same
    have head : (fraction ++ power).head? = some c := congrArg List.head? same.symm
    exact head_after fractions powers c head
  · cases whole with
    | nil => exact absurd rfl digits.some
    | cons d ds =>
      obtain ⟨rfl, -⟩ := List.cons_eq_cons.mp same
      exact absurd rfl other

end
end Numeral

/-- The number that comes next in a text. -/
def numeral? : List Char → Option Numeral
  | '-' :: rest => (Numeral.scan true rest).map Prod.fst
  | cs => (Numeral.scan false cs).map Prod.fst

theorem scanNumber_signed (scanned : scanNumber cs = some (value, rest)) :
    ∃ n written, cs = written ++ rest ∧ numeral? cs = some n ∧ value = n.toJson? ∧
      Numeral.Signed n written := by
  unfold scanNumber at scanned
  split at scanned
  · obtain ⟨⟨n, after⟩, found, same⟩ := Option.map_eq_some_iff.mp scanned
    cases same
    obtain ⟨body, rfl, negative, writes⟩ := Numeral.scan_writes found
    refine ⟨n, '-' :: body, rfl, ?_, rfl, body, writes, ?_⟩
    · rw [numeral?, found]
      rfl
    · rw [negative, if_pos rfl]
  · rename_i unlike
    obtain ⟨⟨n, after⟩, found, same⟩ := Option.map_eq_some_iff.mp scanned
    cases same
    obtain ⟨body, rfl, negative, writes⟩ := Numeral.scan_writes found
    refine ⟨n, body, rfl, ?_, rfl, body, writes, ?_⟩
    · rw [numeral?, found]
      · rfl
      · exact unlike
    · rw [negative, if_neg Bool.false_ne_true]

namespace Token

/-- The numbers of a text outside its strings. -/
def numerals (cs : List Char) : List Numeral :=
  match cs with
  | [] => []
  | c :: rest =>
    if isSpace c then numerals rest
    else match _h : next? (c :: rest) with
      | some (_, after) => (numeral? (c :: rest)).toList ++ numerals after
      | none => []
  termination_by cs.length
  decreasing_by
    · simp
    · exact next?_length _h

theorem numerals_dropWhile (cs : List Char) : numerals (cs.dropWhile isSpace) = numerals cs := by
  induction cs with
  | nil => rfl
  | cons c rest ih =>
    by_cases space : isSpace c = true
    · rw [List.dropWhile_cons_of_pos space, ih, numerals.eq_2, if_pos space]
    · rw [List.dropWhile_cons_of_neg space]

theorem numerals_next (found : next? (cs.dropWhile isSpace) = some (token, after)) :
    numerals cs = (numeral? (cs.dropWhile isSpace)).toList ++ numerals after := by
  rw [← numerals_dropWhile]
  have solid := List.head?_dropWhile_not isSpace cs
  generalize cs.dropWhile isSpace = ahead at found solid
  cases ahead with
  | nil => cases found
  | cons c rest =>
    rw [numerals, if_neg (Bool.eq_false_iff.mp solid)]
    split
    · rename_i same
      cases found.symm.trans same
      rfl
    · rename_i none
      cases found.symm.trans none

end Token
end LoadPlan.Json
