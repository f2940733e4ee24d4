import LoadPlan.Proofs.Number.Rounding
import LoadPlan.Proofs.Sample.Distinct

/-! What is sampled within declared bounds and lengths. A whole number is chosen between the bounds and
then rounded as floating-point values are, so it may miss a bound of more than 53 significant bits, by a
little, and no other. A text is filled up or cut to the declared lengths, in characters, and left as it is
where these allow it. -/
namespace LoadPlan.Sample
open Double (Significant roundedInt rounded)

/-- A schema of a type without parts, and without a value of its own. -/
structure Unvalued (schema : Schema) (type : LeafType) : Prop where
  unmarked : Reference.pointer? (.object schema) = none
  typed : type? schema = some (.leaf type)
  ungiven : given? schema = none
  unlisted : listed? schema = none

section
variable {schema : Schema} {type : LeafType}

theorem Unvalued.sample (unvalued : Unvalued schema type) (chance : Chance) (root : Json)
    (path : List String) (property : Option String) (c : Counters) :
    sample chance root path property (.object schema) c =
      (.ok (leaf chance schema property c type).1, (leaf chance schema property c type).2) := by
  have asked : form (.object schema) = .leaf schema type := by
    simp only [form, unvalued.ungiven, unvalued.typed, typedForm]
  rw [sample_literal chance unvalued.unmarked, asked, sampleForm, leafValue, unvalued.unlisted]

end

section Bounds
variable {schema : Schema} {key : String} {least most : Option Int}

/-- The whole number that is asked for: the minimum, or else one if the maximum allows it. -/
def asked (least most : Option Int) : Int :=
  match least, most with
  | some low, _ => low
  | none, some high => min 1 high
  | none, none => 1

theorem le_asked (low : Int) (member : low ∈ least) : low ≤ asked least most := by
  cases member
  exact Int.le_refl low

theorem asked_le (ordered : ∀ low ∈ least, ∀ high ∈ most, low ≤ high) (high : Int)
    (member : high ∈ most) : asked least most ≤ high := by
  cases member
  cases least with
  | none => exact Int.min_le_right 1 high
  | some low => exact ordered low rfl high rfl

/-- The signed numbers of 64 bits. -/
def InWord (n : Int) : Prop := -twoTo 63 ≤ n ∧ n < twoTo 63

instance (n : Int) : Decidable (InWord n) := inferInstanceAs (Decidable (_ ∧ _))

theorem InWord.natAbs_le {n : Int} (word : InWord n) : n.natAbs ≤ twoTo 63 := by
  obtain ⟨low, high⟩ := word
  omega

theorem asked_inWord (words : ∀ n, n ∈ least ∨ n ∈ most → InWord n) : InWord (asked least most) := by
  have positive : 1 < (twoTo 63 : Int) := by decide
  cases least with
  | some low => exact words low (.inl rfl)
  | none =>
    cases most with
    | none => exact ⟨show -(twoTo 63 : Int) ≤ 1 by omega, positive⟩
    | some high =>
      obtain ⟨above, below⟩ := words high (.inr rfl)
      exact ⟨show -(twoTo 63 : Int) ≤ min 1 high by omega, show min 1 high < twoTo 63 by omega⟩

theorem saturate_mono {m n : Int} (le : m ≤ n) : saturate m ≤ saturate n := by
  unfold saturate
  omega

theorem saturate_of_inWord {n : Int} (word : InWord n) : saturate n = n := by
  obtain ⟨low, high⟩ := word
  unfold saturate
  omega

/-- The nearest number of 64 bits is not farther from any other. -/
theorem saturate_near {n target : Int} (word : InWord target)
    (near : target ≤ n + 512 ∧ n ≤ target + 512) :
    target ≤ saturate n + 512 ∧ saturate n ≤ target + 512 := by
  obtain ⟨low, high⟩ := word
  unfold saturate
  omega

theorem bound?_eq {bound : Option Int} (declared : schema.lookup key = bound.map .int)
    (words : ∀ n ∈ bound, InWord n) :
    bound? schema key = bound.map fun n => ⟨n < 0, rounded n.natAbs * Double.one⟩ := by
  rw [bound?, declared]
  cases bound with
  | none => rfl
  | some n =>
    rw [Option.map_some, Option.bind_some, Json.double?, Double.ofInt?_eq (words n rfl).natAbs_le,
      Option.map_some]

theorem roundedInt_one : roundedInt 1 = 1 :=
  Double.roundedInt_of_significant (Double.significant_of_lt (by decide))

/-- One is capped by the rounded number as it is by the number, for no number is rounded across one. -/
theorem roundedInt_min_one (high : Int) :
    (if roundedInt high < 1 then roundedInt high else 1) = roundedInt (min 1 high) := by
  by_cases positive : 1 ≤ high
  · have mono : 1 ≤ roundedInt high := roundedInt_one ▸ Double.roundedInt_mono positive
    rw [if_neg (Int.not_lt.mpr mono), Int.min_eq_left positive, roundedInt_one]
  · have mono : roundedInt high ≤ roundedInt 0 := Double.roundedInt_mono (by omega)
    have zero : roundedInt 0 = 0 :=
      Double.roundedInt_of_significant (Double.significant_of_lt (by decide))
    rw [if_pos (by omega), Int.min_eq_right (by omega)]

/-- What is chosen is the number asked for, rounded. -/
theorem boundedInteger_eq (minimum : schema.lookup "minimum" = least.map .int)
    (maximum : schema.lookup "maximum" = most.map .int)
    (words : ∀ n, n ∈ least ∨ n ∈ most → InWord n)
    (ordered : ∀ low ∈ least, ∀ high ∈ most, low ≤ high) :
    boundedInteger schema = saturate (roundedInt (asked least most)) := by
  have lower : (bound? schema "minimum").map Double.ceil = least.map roundedInt := by
    rw [bound?_eq minimum fun n member => words n (.inl member), Option.map_map]
    exact congrArg (Option.map · least) (funext Double.ceil_rounded)
  have upper : (bound? schema "maximum").map Double.floor = most.map roundedInt := by
    rw [bound?_eq maximum fun n member => words n (.inr member), Option.map_map]
    exact congrArg (Option.map · most) (funext Double.floor_rounded)
  unfold boundedInteger
  dsimp only
  rw [lower, upper]
  congr 1
  cases most with
  | none =>
    cases least with
    | none => exact roundedInt_one.symm
    | some low => rfl
  | some high =>
    cases least with
    | none => exact roundedInt_min_one high
    | some low =>
      have mono : roundedInt low ≤ roundedInt high := Double.roundedInt_mono (ordered low rfl high rfl)
      exact if_neg (Int.not_lt.mpr mono)

/-- A whole number sampled under a name without a hint keeps every declared bound of at most 53
significant bits, and misses any other by at most 512. If the bound that decides is such a number, it
keeps both bounds. -/
theorem integers_within_bounds (chance : Chance) (root : Json) (path : List String)
    {property : Option String} (unvalued : Unvalued schema .integer)
    (unhinted : hint? integerHints property = none)
    (minimum : schema.lookup "minimum" = least.map .int)
    (maximum : schema.lookup "maximum" = most.map .int)
    (words : ∀ n, n ∈ least ∨ n ∈ most → InWord n)
    (ordered : ∀ low ∈ least, ∀ high ∈ most, low ≤ high) (c : Counters) :
    ∃ v, sample chance root path property (.object schema) c = (.ok (.int v), c) ∧
      (Significant (asked least most).natAbs →
        (∀ low ∈ least, low ≤ v) ∧ ∀ high ∈ most, v ≤ high) ∧
      (∀ low ∈ least, low ≤ v + 512 ∧ (Significant low.natAbs → low ≤ v)) ∧
      ∀ high ∈ most, v ≤ high + 512 ∧ (Significant high.natAbs → v ≤ high) := by
  have word := asked_inWord words
  have near := saturate_near word (Double.roundedInt_near word.natAbs_le)
  have kept (significant : Significant (asked least most).natAbs) :
      saturate (roundedInt (asked least most)) = asked least most := by
    rw [Double.roundedInt_of_significant significant, saturate_of_inWord word]
  refine ⟨saturate (roundedInt (asked least most)), ?_, ?_, ?_, ?_⟩
  · rw [unvalued.sample, leaf, integerValue, unhinted,
      boundedInteger_eq minimum maximum words ordered]
  · intro significant
    rw [kept significant]
    exact ⟨le_asked, asked_le ordered⟩
  · intro low member
    have below : low ≤ asked least most := le_asked low member
    constructor
    · omega
    · intro significant
      cases member
      exact Int.le_of_eq (kept significant).symm
  · intro high member
    have above := asked_le ordered high member
    constructor
    · omega
    · intro significant
      have mono := saturate_mono (Double.roundedInt_mono above)
      rwa [Double.roundedInt_of_significant significant,
        saturate_of_inWord (words high (.inr member))] at mono

/-- A minimum of 2^62 has one significant bit. -/
def highSchema : Schema :=
  [("type", .string "integer"), ("minimum", .int 4611686018427387904),
    ("maximum", .int 4611686018427387905)]

theorem high_within_bounds :
    ∃ v, sample ⟨2024, fun _ => 0⟩ .null [] (some "level") (.object highSchema) .start =
        (.ok (.int v), .start) ∧
      4611686018427387904 ≤ v ∧ v ≤ 4611686018427387905 := by
  have unvalued : Unvalued highSchema .integer := ⟨by decide, by decide, by decide, by decide⟩
  have unhinted : hint? integerHints (some "level") = none := by decide
  have minimum : highSchema.lookup "minimum" = (some 4611686018427387904).map .int := rfl
  have maximum : highSchema.lookup "maximum" = (some 4611686018427387905).map .int := rfl
  have words (n : Int) (member : n ∈ some 4611686018427387904 ∨ n ∈ some 4611686018427387905) :
      InWord n := by
    rcases member with lower | upper
    · cases Option.some.inj lower
      decide
    · cases Option.some.inj upper
      decide
  have ordered : ∀ low ∈ some (4611686018427387904 : Int), ∀ high ∈ some (4611686018427387905 : Int),
      low ≤ high := by
    rintro low ⟨⟩ high ⟨⟩
    decide
  obtain ⟨v, sampled, within, -, -⟩ := integers_within_bounds ⟨2024, fun _ => 0⟩ .null [] unvalued
    unhinted minimum maximum words ordered .start
  obtain ⟨above, below⟩ := within (Double.significant_twoTo 62)
  exact ⟨v, sampled, above _ rfl, below _ rfl⟩

/-- A minimum of 2^53 + 1, which has one significant bit more than are kept. -/
def longSchema : Schema := [("type", .string "integer"), ("minimum", .int 9007199254740993)]

theorem long_minimum_missed :
    Unvalued longSchema .integer ∧ hint? integerHints none = none ∧
      longSchema.lookup "minimum" = some (.int 9007199254740993) ∧
      longSchema.lookup "maximum" = none ∧ InWord 9007199254740993 ∧
      ∃ v, sample ⟨2024, fun _ => 0⟩ .null [] none (.object longSchema) .start =
          (.ok (.int v), .start) ∧ v < 9007199254740993 := by
  have unvalued : Unvalued longSchema .integer := ⟨by decide, by decide, by decide, by decide⟩
  have minimum : longSchema.lookup "minimum" = (some 9007199254740993).map .int := rfl
  have maximum : longSchema.lookup "maximum" = none.map .int := rfl
  have words (n : Int) (member : n ∈ some 9007199254740993 ∨ n ∈ none) : InWord n := by
    rcases member with lower | upper
    · cases Option.some.inj lower
      decide
    · contradiction
  have ordered : ∀ low ∈ some (9007199254740993 : Int), ∀ high ∈ none, low ≤ high := by
    rintro low - high ⟨⟩
  have chosen : boundedInteger longSchema = 9007199254740992 := by
    rw [boundedInteger_eq minimum maximum words ordered]
    decide +kernel
  refine ⟨unvalued, rfl, minimum, maximum, by decide, 9007199254740992, ?_, by decide⟩
  rw [unvalued.sample, leaf, integerValue]
  exact congrArg (fun v => (Except.ok (Json.int v), Counters.start)) chosen

end Bounds

section Lengths

/-- The length that a text is filled up to: the declared one, as far as the longest and the limit of
filling allow. -/
def leastLength (shortest longest : Option Nat) : Nat :=
  match shortest with
  | some least => min (longest.elim least (min least)) 1024
  | none => 0

section
variable {shortest longest : Option Nat} {text : List Char}

theorem leastLength_le {most : Nat} (member : most ∈ longest) : leastLength shortest longest ≤ most := by
  cases member
  cases shortest with
  | none => exact Nat.zero_le _
  | some least => exact Nat.le_trans (Nat.min_le_left _ _) (Nat.min_le_right _ _)

theorem leastLength_eq {least : Nat} (member : least ∈ shortest) (limit : least ≤ 1024)
    (room : ∀ most ∈ longest, least ≤ most) : leastLength shortest longest = least := by
  cases member
  cases longest with
  | none => exact Nat.min_eq_left limit
  | some most =>
    have fits : min least most = least := Nat.min_eq_left (room most rfl)
    exact (congrArg (min · 1024) fits).trans (Nat.min_eq_left limit)

theorem fitLength_eq : fitLength shortest longest text =
    longest.elim id List.take
      (text ++ List.replicate (leastLength shortest longest - text.length) 'x') := by
  cases shortest <;> cases longest <;> simp [fitLength, leastLength, maxPadding]

theorem length_fitLength_le {most : Nat} (member : most ∈ longest) :
    (fitLength shortest longest text).length ≤ most := by
  cases member
  rw [fitLength_eq]
  exact List.length_take_le _ _

theorem leastLength_le_length :
    leastLength shortest longest ≤ (fitLength shortest longest text).length := by
  have filled : leastLength shortest longest ≤
      (text ++ List.replicate (leastLength shortest longest - text.length) 'x').length := by
    rw [List.length_append, List.length_replicate]
    omega
  rw [fitLength_eq]
  cases longest with
  | none => exact filled
  | some most => exact List.length_take ▸ Nat.le_min.mpr ⟨leastLength_le rfl, filled⟩

/-- A text that is filled up is not cut. -/
theorem fitLength_filled (short : text.length ≤ leastLength shortest longest) :
    fitLength shortest longest text =
      text ++ List.replicate (leastLength shortest longest - text.length) 'x' := by
  rw [fitLength_eq]
  cases longest with
  | none => rfl
  | some most =>
    have room : leastLength shortest (some most) ≤ most := leastLength_le rfl
    refine List.take_of_length_le ?_
    rw [List.length_append, List.length_replicate]
    omega

theorem fitLength_kept (long : leastLength shortest longest ≤ text.length)
    (room : ∀ most ∈ longest, text.length ≤ most) : fitLength shortest longest text = text := by
  rw [fitLength_eq, Nat.sub_eq_zero_of_le long, List.replicate_zero, List.append_nil]
  cases longest with
  | none => rfl
  | some most => exact List.take_of_length_le (room most rfl)

end

/-- A text brought to its declared lengths, in characters: filled up with the letter x, or cut between
two characters, or left as it is. -/
structure Fitted (shortest longest : Option Nat) (text result : String) : Prop where
  atMost : ∀ most ∈ longest, result.length ≤ most
  atLeast : ∀ least ∈ shortest, leastLength shortest longest ≤ result.length
  conforms : ∀ least ∈ shortest, least ≤ 1024 → (∀ most ∈ longest, least ≤ most) →
    least ≤ result.length
  kept : leastLength shortest longest ≤ text.length → (∀ most ∈ longest, text.length ≤ most) →
    result = text
  filled : text.length < leastLength shortest longest →
    ∃ count, text.length + count = leastLength shortest longest ∧
      result = text ++ String.ofList (List.replicate count 'x')
  cut : ∀ most ∈ longest, most < text.length →
    result = String.ofList (text.toList.take most) ∧ result.rawEndPos.IsValid text

theorem fitted_fits (shortest longest : Option Nat) (text : String) :
    Fitted shortest longest text (String.ofList (fitLength shortest longest text.toList)) where
  atMost most member := by
    rw [String.length_ofList]
    exact length_fitLength_le member
  atLeast least _ := by
    rw [String.length_ofList]
    exact leastLength_le_length
  conforms least member limit room := by
    rw [String.length_ofList, ← leastLength_eq member limit room]
    exact leastLength_le_length
  kept long room := by
    rw [← String.length_toList] at long room
    rw [fitLength_kept long room, String.ofList_toList]
  filled short := by
    refine ⟨_, Nat.add_sub_cancel' (Nat.le_of_lt short), ?_⟩
    rw [← String.length_toList] at short ⊢
    rw [fitLength_filled (Nat.le_of_lt short), String.ofList_append, String.ofList_toList]
  cut most member long := by
    cases member
    rw [← String.length_toList] at long
    rw [fitLength_cut (Nat.le_of_lt long)]
    have parts : text =
        String.ofList (text.toList.take most) ++ String.ofList (text.toList.drop most) := by
      rw [← String.ofList_append, List.take_append_drop, String.ofList_toList]
    exact ⟨rfl, String.Pos.Raw.isValid_iff_exists_append.mpr ⟨_, _, parts, rfl⟩⟩

/-- A text sampled for a schema without values of its own is what the name and the counters give it,
brought to the declared lengths. -/
theorem strings_fitted (chance : Chance) (root : Json) (path : List String) {schema : Schema}
    (unvalued : Unvalued schema .string) (property : Option String) (c : Counters) :
    ∃ result, sample chance root path property (.object schema) c =
        (.ok (.string result), (stringText property c).2) ∧
      Fitted ((schema.lookup "minLength").bind Json.nat?) ((schema.lookup "maxLength").bind Json.nat?)
        (stringText property c).1 result :=
  ⟨_, unvalued.sample chance root path property c, fitted_fits _ _ _⟩

/-- Lengths from three to nine characters. -/
def briefSchema : Schema :=
  [("type", .string "string"), ("minLength", .int 3), ("maxLength", .int 9)]

/-- The name is cut behind a character of two bytes. -/
theorem accented_name_cut :
    Unvalued briefSchema .string ∧
      sample ⟨2024, fun _ => 0⟩ .null [] (some "naïve_name") (.object briefSchema) .start =
        (.ok (.string "sampleNaï"), .start) ∧
      "sampleNaï".rawEndPos.IsValid "sampleNaïve_name" := by
  have unvalued : Unvalued briefSchema .string := ⟨by decide, by decide, by decide, by decide⟩
  have text : stringText (some "naïve_name") .start = ("sampleNaïve_name", .start) := by decide
  obtain ⟨result, sampled, fits⟩ :=
    strings_fitted ⟨2024, fun _ => 0⟩ .null [] unvalued (some "naïve_name") .start
  rw [text] at sampled fits
  obtain ⟨front, between⟩ := fits.cut 9 rfl (by decide)
  have nine : String.ofList ("sampleNaïve_name".toList.take 9) = "sampleNaï" := by decide
  rw [nine] at front
  subst front
  exact ⟨unvalued, sampled, between⟩

end Lengths

end LoadPlan.Sample
