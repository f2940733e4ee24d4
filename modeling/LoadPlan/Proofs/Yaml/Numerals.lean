import LoadPlan.Proofs.Json.Equality
import LoadPlan.Proofs.Json.Numerals
import LoadPlan.Proofs.Yaml.PlainText
import LoadPlan.Yaml.Reader

/-! Numbers of JSON texts as plain scalars. The YAML reader gives whole numbers within 64 bits and
rounds other numbers once. -/
namespace LoadPlan

namespace Json.Numeral

/-- The number in one rounding: a whole number within 64 bits as it is, and else the nearest float. -/
def rounded? (n : Numeral) : Option Json :=
  if n.isWhole && Yaml.Scalar.fits64 n.wholeValue then some (.int n.wholeValue)
  else n.nearest?.map .float

/-- A whole number that takes more than 64 bits, but not more than 128. -/
def isLarge (n : Numeral) : Bool :=
  n.isWhole && !Yaml.Scalar.fits64 n.wholeValue && Yaml.Scalar.fits128 n.wholeValue

end Json.Numeral

namespace Yaml.Scalar
open Json (Numeral)
open Json.Numeral (Digits WritesFraction WritesPower Writes Signed digitValue ofDigits)
variable {c : Char} {ds : List Nat} {written : List Char}

theorem digit?_ten (digit : c.isDigit = true) : digit? 10 c = some (digitValue c) := by
  have bounds : 48 ≤ c.toNat ∧ c.toNat ≤ 57 := by
    simpa [Char.isDigit, UInt32.le_iff_toNat_le] using digit
  have zero : '0'.toNat = 48 := rfl
  simp only [digit?, digit, if_true, digitValue, zero]
  rw [if_pos (by omega)]

theorem digit?_other (other : c.isDigit = false) : digit? 10 c = none := by
  simp only [digit?, other, Bool.false_eq_true, if_false]
  rw [if_neg]
  repeat' split
  all_goals simp only [Bool.and_eq_true, decide_eq_true_eq] at *
  all_goals omega

theorem foldl_digits (digits : ∀ c ∈ written, c.isDigit = true) (start : Nat) :
    written.foldl (fun n c => n.bind fun n => (digit? 10 c).map (n * 10 + ·)) (some start) =
      some ((written.map digitValue).foldl (fun n d => n * 10 + d) start) := by
  induction written generalizing start with
  | nil => rfl
  | cons c rest ih =>
    obtain ⟨digit, others⟩ := List.forall_mem_cons.mp digits
    rw [List.foldl_cons, Option.bind_some, digit?_ten digit, Option.map_some, ih others,
      List.map_cons, List.foldl_cons]

theorem foldl_other (member : c ∈ written) (other : c.isDigit = false) (start : Option Nat) :
    written.foldl (fun n c => n.bind fun n => (digit? 10 c).map (n * 10 + ·)) start = none := by
  induction written generalizing start with
  | nil => cases member
  | cons first rest ih =>
    rcases List.mem_cons.mp member with rfl | later
    · have absent : start.bind (fun n => (digit? 10 c).map (n * 10 + ·)) = none := by
        rw [digit?_other other]
        cases start <;> rfl
      rw [List.foldl_cons, absent]
      clear ih member
      induction rest with
      | nil => rfl
      | cons _ _ ih => exact ih
    · exact ih later _

theorem digits?_written (digits : Digits ds written) : digits? 10 written = some (ofDigits ds) := by
  rw [digits?, if_neg (by simpa using digits.some), foldl_digits digits.all, digits.values]
  rfl

theorem digits?_other (member : c ∈ written) (other : c.isDigit = false) :
    digits? 10 written = none := by
  rw [digits?, foldl_other member other]
  split <;> rfl

theorem power?_written {n : Numeral} (writes : WritesPower n.exponent written) :
    power? written = some n.power := by
  unfold Json.Numeral.power
  generalize n.exponent = exponent at writes
  have plain (c : Char) (named : c = 'e' ∨ c = 'E') : (c != 'e' && c != 'E') = false := by
    rcases named with rfl | rfl <;> rfl
  cases writes with
  | none => rfl
  | @unsigned letter _ written named digits =>
    have signless (sign : Char) (rest : List Char) (same : written = sign :: rest) :
        sign.isDigit = true := digits.all sign (same ▸ List.mem_cons_self)
    rw [power?, if_neg (by simp [plain letter named]), digits?_written digits]
    · rfl
    · exact fun rest same => absurd (signless _ rest same) (by decide)
    · exact fun rest same => absurd (signless _ rest same) (by decide)
  | plus named digits =>
    rw [power?, if_neg (by simp [plain _ named])]
    simp only [digits?_written digits]
    rfl
  | minus named digits =>
    rw [power?, if_neg (by simp [plain _ named])]
    simp only [digits?_written digits]
    rfl

section
variable {n : Numeral}

theorem isZeroPadded_written (writes : Writes n written) : isZeroPadded written = false := by
  unfold isZeroPadded
  split
  · rename_i c rest
    rcases writes.after_zero with rfl | rfl | rfl <;> rfl
  · rfl

/-- Without fraction and power, the number that the digits write; else none. -/
theorem magnitude?_written (writes : Writes n written) :
    magnitude? written = if n.isWhole then some (ofDigits n.whole) else none := by
  have decimal : magnitude? written = digits? 10 written := by
    unfold magnitude?
    split
    · exact absurd writes.after_zero (by decide)
    · exact absurd writes.after_zero (by decide)
    · exact absurd writes.after_zero (by decide)
    · rw [isZeroPadded_written writes]
      rfl
  obtain ⟨digits, -, fractions, powers⟩ := writes
  rename_i whole fraction power
  rw [decimal, Json.Numeral.isWhole_eq fractions powers, List.append_assoc]
  have other := Json.Numeral.head_after_other fractions powers
  cases tail : fraction ++ power with
  | nil =>
    rw [List.append_nil, digits?_written digits]
    rfl
  | cons c rest =>
    rw [tail] at other
    rw [digits?_other (c := c) (by simp) (other c rfl)]
    rfl

theorem span_written (digits : Digits ds written) (other : ∀ c ∈ rest.head?, c.isDigit = false) :
    (written ++ rest).span Char.isDigit = (written, rest) := by
  have none : rest.takeWhile Char.isDigit = [] ∧ rest.dropWhile Char.isDigit = rest := by
    cases rest with
    | nil => exact ⟨rfl, rfl⟩
    | cons c tail =>
      have stops : ¬ c.isDigit = true := Bool.not_eq_true _ ▸ other c rfl
      exact ⟨List.takeWhile_cons_of_neg stops, List.dropWhile_cons_of_neg stops⟩
  rw [List.span_eq_takeWhile_dropWhile, List.takeWhile_append_of_pos digits.all,
    List.dropWhile_append_of_pos digits.all, none.1, none.2, List.append_nil]

section
variable {negative : Bool} {cs whole fraction tail : List Char} {d : Nat} {p : Int}

theorem decimal?_point (first : cs.span Char.isDigit = (whole, '.' :: rest))
    (second : rest.span Char.isDigit = (fraction, tail))
    (digits : digits? 10 (whole ++ fraction) = some d) (power : power? tail = some p) :
    decimal? negative cs = Double.ofDecimal? negative d (p - fraction.length) := by
  rw [decimal?, first]
  simp only [second, digits, power]

theorem decimal?_pointless (first : cs.span Char.isDigit = (whole, tail))
    (pointless : ∀ rest, tail ≠ '.' :: rest) (digits : digits? 10 whole = some d)
    (power : power? tail = some p) :
    decimal? negative cs = Double.ofDecimal? negative d p := by
  rw [decimal?, first]
  simp [digits, power]

end

theorem decimal?_written (writes : Writes n written) :
    decimal? n.negative written = n.nearest? := by
  obtain ⟨digits, -, fractions, powers⟩ := writes
  rename_i whole fraction power
  have first := span_written digits (Json.Numeral.head_after_other fractions powers)
  have scaled := power?_written powers
  rw [List.append_assoc]
  unfold Json.Numeral.nearest?
  generalize n.fraction = ds at fractions ⊢
  cases fractions with
  | none =>
    have pointless : ∀ rest, power ≠ '.' :: rest := by
      rintro rest rfl
      exact absurd (powers.head '.' rfl) (by decide)
    rw [decimal?_pointless first pointless (digits?_written digits) scaled]
    simp
  | @some _ following after =>
    have joined : Digits (n.whole ++ ds) (whole ++ following) := by
      refine ⟨by simp [digits.some], ?_, ?_⟩
      · exact List.forall_mem_append.mpr ⟨digits.all, after.all⟩
      · rw [List.map_append, digits.values, after.values]
    have letters : ∀ c ∈ power.head?, c.isDigit = false := by
      intro c head
      rcases powers.head c head with rfl | rfl <;> rfl
    have lengths : ds.length = following.length := by rw [after.values, List.length_map]
    rw [lengths]
    exact decimal?_point first (span_written after letters) (digits?_written joined) scaled

/-- A digit comes first, or after a minus. -/
def isNumberlike : List Char → Bool
  | '-' :: c :: _ => c.isDigit
  | c :: _ => c.isDigit
  | [] => false

theorem not_contains {words : List String} (none : ∀ word ∈ words, isNumberlike word.toList = false)
    (like : isNumberlike written = true) : words.contains (String.ofList written) = false := by
  refine Bool.eq_false_iff.mpr fun found => ?_
  have unlike := none _ (List.contains_iff_mem.mp found)
  rw [String.toList_ofList, like] at unlike
  cases unlike

end

section
variable {n : Numeral} (signed : Signed n written)
include signed

theorem isNumberlike_signed : isNumberlike written = true := by
  obtain ⟨body, writes, rfl⟩ := signed
  obtain ⟨c, cs, rfl, digit⟩ := writes.head
  split
  · exact digit
  · rw [Scalar.isNumberlike]
    · exact digit
    · rintro c rest ⟨⟩
      cases digit

theorem int?_signed : int? written = if n.isWhole then some n.wholeValue else none := by
  obtain ⟨body, writes, rfl⟩ := signed
  have magnitude := magnitude?_written writes
  unfold Json.Numeral.wholeValue
  split
  · rw [int?, magnitude]
    split <;> rfl
  · rw [int?, magnitude]
    · split <;> rfl
    · exact writes.unlike rfl
    · exact writes.unlike rfl

theorem finite?_signed : finite? written = n.nearest? := by
  obtain ⟨body, writes, rfl⟩ := signed
  have decimal := decimal?_written writes
  split
  · rename_i negative
    rw [finite?, ← negative, decimal]
  · rename_i positive
    rw [finite?, ← Bool.eq_false_iff.mpr positive, decimal]
    · exact writes.unlike rfl
    · exact writes.unlike rfl

theorem isZeroPadded_signed : isZeroPadded (unsigned written) = false := by
  obtain ⟨body, writes, rfl⟩ := signed
  have padded := isZeroPadded_written writes
  split
  · exact padded
  · rw [unsigned, padded]
    · exact writes.unlike rfl
    · exact writes.unlike rfl

theorem float?_signed : float? (String.ofList written) = n.nearest?.map float := by
  have like := isNumberlike_signed signed
  rw [float?, not_contains (by decide +kernel) like, not_contains (by decide +kernel) like,
    not_contains (by decide +kernel) like, String.toList_ofList, finite?_signed signed]
  rfl

/-- What a number stands for as a plain scalar. -/
theorem ofPlain?_signed :
    ofPlain? (String.ofList written) =
      if n.isWhole && fits64 n.wholeValue then some (.int n.wholeValue)
      else if n.isLarge then none
      else some ((n.nearest?.map float).getD (.string (String.ofList written))) := by
  have like := isNumberlike_signed signed
  have some : (String.ofList written).isEmpty = false := by
    have filled : written ≠ [] := by
      rintro rfl
      cases like
    simp [filled]
  rw [ofPlain?, some, isNullWord, not_contains (by decide +kernel) like, boolWord?,
    not_contains (by decide +kernel) like, not_contains (by decide +kernel) like, wholeNumber,
    String.toList_ofList, int?_signed signed, isZeroPadded_signed signed, float?_signed signed]
  unfold Json.Numeral.isLarge
  cases n.isWhole with
  | false => rfl
  | true =>
    simp only [Bool.or_self, Bool.false_eq_true, if_false, if_true, Bool.true_and]
    cases fits64 n.wholeValue <;> cases fits128 n.wholeValue <;> rfl

/-- A number that a JSON text rounds as a YAML text does stands for the same value. -/
theorem toJson_signed (agrees : n.isLarge = true ∨ n.toJson? = n.rounded?)
    (value : n.toJson? = some json) (read : ofPlain? (String.ofList written) = some s) :
    s.toJson = json := by
  rw [ofPlain?_signed signed] at read
  rcases agrees with large | same
  · have unfit : (n.isWhole && fits64 n.wholeValue) = false := by
      simp only [Json.Numeral.isLarge, Bool.and_eq_true, Bool.not_eq_true'] at large
      rw [large.1.2, Bool.and_false]
    rw [unfit, large] at read
    cases read
  · rw [value, Json.Numeral.rounded?] at same
    split at read
    · rename_i fits
      rw [if_pos fits] at same
      cases read
      exact (Option.some.inj same).symm
    · rename_i unfit
      rw [if_neg unfit] at same
      split at read
      · cases read
      · obtain ⟨x, nearest, rfl⟩ := Option.map_eq_some_iff.mp same.symm
        rw [nearest] at read
        cases read
        rfl

end

section
variable {n : Numeral} {rest : List Char}

theorem isSteady_digits (digits : ∀ c ∈ written, c.isDigit = true) (steady : isSteady rest = true) :
    isSteady (written ++ rest) = true := by
  induction written with
  | nil => exact steady
  | cons c tail ih =>
    obtain ⟨digit, others⟩ := List.forall_mem_cons.mp digits
    rw [List.cons_append, isSteady, ih others, Char.isAlphanum, digit]
    simp

theorem head_digits (digits : Digits ds written) (rest : List Char) :
    (written ++ rest).head?.any Char.isDigit = true := by
  cases written with
  | nil => exact absurd rfl digits.some
  | cons c tail => exact digits.all c List.mem_cons_self

theorem isSteady_only (digits : Digits ds written) : isSteady written = true := by
  have joined : isSteady (written ++ []) = true := isSteady_digits digits.all rfl
  rwa [List.append_nil] at joined

theorem isSteady_power {exponent : Option (Bool × List Nat)} (writes : WritesPower exponent written) :
    isSteady written = true := by
  have letters {letter : Char} (named : letter = 'e' ∨ letter = 'E') :
      letter.isAlphanum = true := by
    rcases named with rfl | rfl <;> rfl
  cases writes with
  | none => rfl
  | unsigned named digits => simp [Yaml.isSteady, letters named, isSteady_only digits]
  | plus named digits => simp [Yaml.isSteady, letters named, isSteady_only digits]
  | @minus _ _ written named digits =>
    have head := head_digits digits []
    rw [List.append_nil] at head
    simp [Yaml.isSteady, letters named, isSteady_only digits, head]

theorem isSteady_written (writes : Writes n written) : isSteady written = true := by
  obtain ⟨digits, -, fractions, powers⟩ := writes
  rename_i whole fraction power
  have steady := isSteady_power powers
  rw [List.append_assoc]
  refine isSteady_digits digits.all ?_
  generalize n.fraction = following at fractions
  cases fractions with
  | none => exact steady
  | some after =>
    rw [List.cons_append, Yaml.isSteady, head_digits after, isSteady_digits after.all steady]
    rfl

theorem isSteady_signed (signed : Signed n written) : isSteady written = true := by
  obtain ⟨body, writes, rfl⟩ := signed
  have steady := isSteady_written writes
  split
  · obtain ⟨c, cs, rfl, digit⟩ := writes.head
    rw [Yaml.isSteady, steady, List.head?_cons, Option.any_some, digit]
    rfl
  · exact steady

end
end Yaml.Scalar

/-- Every number of a text is one value for both readers, or too large for the YAML reader. -/
def Yaml.NumbersAgree (cs : List Char) : Prop :=
  ∀ n ∈ Json.Token.numerals cs, n.isLarge = true ∨ n.toJson? = n.rounded?

instance (cs : List Char) : Decidable (Yaml.NumbersAgree cs) :=
  inferInstanceAs
    (Decidable (∀ n ∈ Json.Token.numerals cs, n.isLarge = true ∨ n.toJson? = n.rounded?))

end LoadPlan
