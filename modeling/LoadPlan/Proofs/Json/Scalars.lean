import LoadPlan.Json.Printer
import LoadPlan.Json.Reader

/-! Written scalars, read back. The reader undoes the escapes of a quoted text and takes the digits
of a whole number together, and goes on with what follows. -/
namespace LoadPlan.Json

/-- How a character stands between quotes. -/
inductive Quoted : Char → List Char → Prop
  | plain (quote : c ≠ '"') (backslash : c ≠ '\\') (printed : ¬ c.toNat < 0x20) : Quoted c [c]
  | escaped (undone : ∀ rest, escape? (cs ++ rest) = some (some c, rest)) : Quoted c ('\\' :: cs)

theorem hexValue?_hexDigit (n : Nat) (digit : n < 16) : hexValue? (hexDigit n) = some n := by
  revert n
  decide

theorem hex4?_control {n : Nat} (control : n < 0x20) (rest : List Char) :
    hex4? ('0' :: '0' :: hexDigit (n / 16) :: hexDigit (n % 16) :: rest) = some (n, rest) := by
  have high : hexValue? (hexDigit (n / 16)) = some (n / 16) := hexValue?_hexDigit _ (by omega)
  have low : hexValue? (hexDigit (n % 16)) = some (n % 16) := hexValue?_hexDigit _ (by omega)
  have zero : hexValue? '0' = some 0 := by decide
  have joined : ((0 * 16 + 0) * 16 + n / 16) * 16 + n % 16 = n := by omega
  simp only [hex4?, high, low, zero, joined, Option.bind_eq_bind, Option.bind_some]

theorem escapeChar_quoted (c : Char) : Quoted c (escapeChar c) := by
  unfold escapeChar
  split
  · exact .escaped fun _ => rfl
  · exact .escaped fun _ => rfl
  · exact .escaped fun _ => rfl
  · exact .escaped fun _ => rfl
  · exact .escaped fun _ => rfl
  · exact .escaped fun _ => rfl
  · exact .escaped fun _ => rfl
  · rename_i quote backslash _ _ _ _ _
    split
    · rename_i control
      refine .escaped fun rest => ?_
      change unicodeEscape? ('0' :: '0' :: _ :: _ :: rest) = _
      rw [unicodeEscape?, hex4?_control control rest, Option.bind_eq_bind, Option.bind_some]
      have unit : (c.toNat < 0xd800 || 0xe000 ≤ c.toNat) = true := by simp; omega
      exact (if_pos unit).trans (by rw [Char.ofNat_toNat])
    · rename_i printed
      exact .plain quote backslash printed

theorem scanString_escape (undone : escape? after = some (c, rest)) :
    scanString ('\\' :: after) =
      (scanString rest).map fun (content, rest) => (prepend c content, rest) := by
  rw [scanString, if_neg (by decide), if_pos rfl]
  split
  · rename_i found
    cases undone.symm.trans found
    rfl
  · rename_i missing
    cases undone.symm.trans missing

/-- Quoting loses nothing, and the reader stops at the closing quote. -/
theorem scanString_quote (cs rest : List Char) :
    scanString (cs.flatMap escapeChar ++ '"' :: rest) = some (some cs, rest) := by
  induction cs with
  | nil => rw [List.flatMap_nil, List.nil_append, scanString, if_pos rfl]
  | cons c more ih =>
    rw [List.flatMap_cons, List.append_assoc]
    have quoted := escapeChar_quoted c
    generalize escapeChar c = written at quoted
    cases quoted with
    | plain quote backslash printed =>
      rw [List.singleton_append, scanString, if_neg quote, if_neg backslash, if_neg printed, ih]
      rfl
    | escaped undone =>
      rw [List.cons_append, scanString_escape (undone _), ih]
      rfl

/-- What follows a value that is written: nothing, or a mark or line end. -/
def Ended (rest : List Char) : Prop := ∀ c ∈ rest.head?, c = ',' ∨ c = '\n'

namespace Numeral

/-- Only zero is written with a zero in front. -/
theorem eq_zero_of_toDigits {n : Nat} (zero : Nat.toDigits 10 n = '0' :: rest) : n = 0 := by
  induction n using Nat.strongRecOn generalizing rest with
  | ind n ih =>
    rw [Nat.toDigits_eq_if (by decide)] at zero
    split at zero
    · rename_i digit
      have digits : ∀ n < 10, n.digitChar = '0' → n = 0 := by decide
      exact digits n digit (List.cons.inj zero).1
    · rename_i larger
      cases front : Nat.toDigits 10 (n / 10) with
      | nil => exact absurd front Nat.toDigits_ne_nil
      | cons c more =>
        rw [front] at zero
        have starts : c = '0' := (List.cons.inj zero).1
        have none := ih (n / 10) (by omega) (starts ▸ front)
        omega

theorem ofDigits_toDigits (n : Nat) : ofDigits ((Nat.toDigits 10 n).map digitValue) = n := by
  have gathered := Nat.ofDigitChars_ten_toDigits (n := n)
  rw [Nat.ofDigitChars_eq_foldl] at gathered
  simpa only [ofDigits, List.foldl_map, digitValue, Nat.mul_comm] using gathered

theorem scanDigits_toDigits (n : Nat) (ended : Ended rest) :
    scanDigits (Nat.toDigits 10 n ++ rest) = some ((Nat.toDigits 10 n).map digitValue, rest) := by
  have digits : ∀ c ∈ Nat.toDigits 10 n, c.isDigit :=
    fun c member => Nat.isDigit_of_mem_toDigits (by decide) (by decide) member
  have front : rest.takeWhile Char.isDigit = [] ∧ rest.dropWhile Char.isDigit = rest := by
    cases rest with
    | nil => exact ⟨rfl, rfl⟩
    | cons c more =>
      rcases ended c rfl with rfl | rfl <;> exact ⟨rfl, rfl⟩
  rw [scanDigits, List.takeWhile_append_of_pos digits, List.dropWhile_append_of_pos digits, front.1,
    front.2, List.append_nil, if_neg]
  simp [Nat.toDigits_ne_nil]

theorem scanWhole_toDigits (n : Nat) (ended : Ended rest) :
    scanWhole (Nat.toDigits 10 n ++ rest) = some ((Nat.toDigits 10 n).map digitValue, rest) := by
  unfold scanWhole
  split
  · rename_i more starts
    cases front : Nat.toDigits 10 n with
    | nil => exact absurd front Nat.toDigits_ne_nil
    | cons c others =>
      rw [front] at starts
      obtain ⟨rfl, rfl⟩ := List.cons.inj starts
      cases eq_zero_of_toDigits front
      cases front
      rfl
  · exact scanDigits_toDigits n ended

theorem scan_toDigits (negative : Bool) (n : Nat) (ended : Ended rest) :
    scan negative (Nat.toDigits 10 n ++ rest) =
      some (⟨negative, (Nat.toDigits 10 n).map digitValue, [], none⟩, rest) := by
  have fraction : scanFraction rest = some ([], rest) := by
    cases rest with
    | nil => rfl
    | cons c more => rcases ended c rfl with rfl | rfl <;> rfl
  have exponent : scanExponent rest = some (none, rest) := by
    cases rest with
    | nil => rfl
    | cons c more => rcases ended c rfl with rfl | rfl <;> rfl
  simp only [scan, scanWhole_toDigits n ended, fraction, exponent, Option.bind_eq_bind,
    Option.bind_some]

theorem toJson?_toDigits {n : Nat} (fits : n < twoTo 64) :
    toJson? ⟨false, (Nat.toDigits 10 n).map digitValue, [], none⟩ = some (.int n) := by
  simp [toJson?, ofDigits_toDigits, fits]

theorem toJson?_negative {n : Nat} (some : 0 < n) (fits : n ≤ twoTo 63) :
    toJson? ⟨true, (Nat.toDigits 10 n).map digitValue, [], none⟩ = .some (.int (-n)) := by
  simp [toJson?, ofDigits_toDigits, some, fits]

end Numeral

/-- The whole numbers of 64 bits, signed or not. -/
def Whole (n : Int) : Prop := -twoTo 63 ≤ n ∧ n < twoTo 64

instance (n : Int) : Decidable (Whole n) := inferInstanceAs (Decidable (_ ∧ _))

theorem toDigits_head (n : Nat) : ∃ c cs, Nat.toDigits 10 n = c :: cs ∧ c.isDigit := by
  cases front : Nat.toDigits 10 n with
  | nil => exact absurd front Nat.toDigits_ne_nil
  | cons c cs =>
    exact ⟨c, cs, rfl,
      Nat.isDigit_of_mem_toDigits (by decide) (by decide) (front ▸ List.mem_cons_self)⟩

theorem toList_ofNat (n : Nat) : (toString (Int.ofNat n)).toList = Nat.toDigits 10 n :=
  Nat.toList_repr

theorem toList_negSucc (n : Nat) :
    (toString (Int.negSucc n)).toList = '-' :: Nat.toDigits 10 (n + 1) := by
  rw [show toString (Int.negSucc n) = "-" ++ Nat.repr (n + 1) from rfl, String.toList_append,
    Nat.toList_repr]
  rfl

theorem toList_int_head (n : Int) :
    ∃ c cs, (toString n).toList = c :: cs ∧ (c = '-' ∨ c.isDigit) := by
  cases n with
  | ofNat n =>
    obtain ⟨c, cs, front, digit⟩ := toDigits_head n
    exact ⟨c, cs, (toList_ofNat n).trans front, .inr digit⟩
  | negSucc n => exact ⟨'-', _, toList_negSucc n, .inl rfl⟩

theorem scanNumber_int {n : Int} (whole : Whole n) (ended : Ended rest) :
    scanNumber ((toString n).toList ++ rest) = some (some (.int n), rest) := by
  obtain ⟨low, high⟩ := whole
  cases n with
  | ofNat n =>
    have read := Numeral.scan_toDigits false n ended
    have unsigned : ∀ more, Nat.toDigits 10 n ++ rest ≠ '-' :: more := by
      intro more starts
      obtain ⟨c, cs, front, digit⟩ := toDigits_head n
      rw [front] at starts
      have minus : c = '-' := (List.cons.inj starts).1
      rw [minus] at digit
      exact absurd digit (by decide)
    rw [toList_ofNat, scanNumber]
    · simp only [read, Option.map_some, Numeral.toJson?_toDigits (Int.ofNat_lt.mp high)]
      rfl
    · exact unsigned
  | negSucc n =>
    have read := Numeral.scan_toDigits true (n + 1) ended
    have fits : n + 1 ≤ twoTo 63 := by omega
    rw [toList_negSucc, List.cons_append, scanNumber]
    simp only [read, Option.map_some, Numeral.toJson?_negative (Nat.succ_pos n) fits]
    rfl

/-- The characters that white space and other tokens begin with. -/
def otherStarts : List Char :=
  [' ', '\t', '\n', '\r', '\x7b', '\x7d', '[', ']', ',', ':', '"', 'n', 't', 'f']

theorem next?_number {c : Char} (starts : c = '-' ∨ c.isDigit) (cs : List Char) :
    Token.isSpace c = false ∧
      Token.next? (c :: cs) = (scanNumber (c :: cs)).map fun (v, rest) => (.scalar v, rest) := by
  have other : ∀ d ∈ otherStarts, c ≠ d := by
    have none : otherStarts.all fun d => ¬ (d = '-' ∨ d.isDigit) := by decide
    rintro d member rfl
    exact of_decide_eq_true (List.all_eq_true.mp none c member) starts
  simp only [otherStarts, List.forall_mem_cons, List.not_mem_nil, false_implies, implies_true] at other
  obtain ⟨space, tab, newline, ret, curly, curly', bracket, bracket', comma, colon, quote, n, t, f, -⟩ :=
    other
  have mark : Token.punctuation? c = none := by
    unfold Token.punctuation?
    split <;> simp_all
  have word : Token.word? (c :: cs) = none := by
    unfold Token.word?
    split <;> simp_all
  refine ⟨by simp [Token.isSpace, space, tab, newline, ret], ?_⟩
  simp [Token.next?, mark, quote, word]

end LoadPlan.Json
