import LoadPlan.Proofs.Json.Scalars
import LoadPlan.Proofs.Sample.Identifiers

/-! When identifiers in one sample differ. The digits of a number end where the letters that fill them up
begin, so an identifier that keeps all its digits differs from every one before it. What is left of any
other is the digits of a smaller number, which may have been written already. -/
namespace LoadPlan

/-- The text of a string, or a whole number in digits. -/
def Json.written? : Json → Option String
  | .string text => some text
  | .int n => some (toString n)
  | _ => none

namespace Sample

section
variable {shortest : Option Nat} {text : List Char}

/-- A text that is not too long is at most filled up. -/
theorem fitLength_whole {longest : Option Nat} (room : ∀ most, longest = some most → text.length ≤ most) :
    ∃ count, fitLength shortest longest text = text ++ List.replicate count 'x' := by
  cases longest with
  | none => exact ⟨_, rfl⟩
  | some most =>
    have fits := room most rfl
    refine ⟨_, List.take_of_length_le ?_⟩
    rw [List.length_append, List.length_replicate]
    cases shortest <;> simp only [Option.getD_some] <;> omega

theorem fitLength_cut {most : Nat} (long : most ≤ text.length) :
    fitLength shortest (some most) text = text.take most :=
  List.take_append_of_le_length long

end

/-- Digits without the last ones are those of a smaller number. -/
theorem take_toDigits {count n : Nat} (positive : 0 < count) (short : count < (Nat.toDigits 10 n).length) :
    ∃ m, 0 < m ∧ m < n ∧ (Nat.toDigits 10 n).take count = Nat.toDigits 10 m := by
  induction n using Nat.strongRecOn with
  | ind n ih =>
    rcases Nat.lt_or_ge n 10 with digit | more
    · rw [Nat.toDigits_of_lt_base digit] at short
      simp only [List.length_singleton] at short
      omega
    · rw [Nat.toDigits_of_base_le (by decide) more] at short ⊢
      rw [List.length_append, List.length_singleton] at short
      rw [List.take_append_of_le_length (by omega)]
      rcases Nat.lt_or_eq_of_le (Nat.le_of_lt_succ short) with earlier | last
      · obtain ⟨m, positive, smaller, same⟩ := ih (n / 10) (by omega) earlier
        exact ⟨m, positive, by omega, same⟩
      · exact ⟨n / 10, by omega, by omega, List.take_of_length_le (Nat.le_of_eq last.symm)⟩

/-- A number is told by its digits also when letters follow. -/
theorem toDigits_filled_inj {m n p q : Nat}
    (same : Nat.toDigits 10 m ++ List.replicate p 'x' = Nat.toDigits 10 n ++ List.replicate q 'x') :
    m = n := by
  have front (k count : Nat) :
      (Nat.toDigits 10 k ++ List.replicate count 'x').takeWhile Char.isDigit = Nat.toDigits 10 k := by
    rw [List.takeWhile_append_of_pos fun c member =>
      Nat.isDigit_of_mem_toDigits (by decide) (by decide) member]
    cases count <;> simp [List.replicate_succ]
  calc m = Nat.ofDigitChars 10 (Nat.toDigits 10 m) 0 := Nat.ofDigitChars_ten_toDigits.symm
    _ = Nat.ofDigitChars 10 (Nat.toDigits 10 n) 0 := by rw [← front m p, same, front]
    _ = n := Nat.ofDigitChars_ten_toDigits

theorem saturate_ofNat (n : Nat) : saturate n = Int.ofNat (min n (twoTo 63 - 1)) := by
  have positive : 0 < twoTo 63 := by decide
  rw [saturate, Int.ofNat_eq_natCast]
  omega

namespace Site
variable {site : Site} {m n : Nat}

def longest? (site : Site) : Option Nat := (site.schema.lookup "maxLength").bind Json.nat?

/-- What is written at a site for a number. -/
def text (site : Site) (n : Nat) : String :=
  match site.type with
  | .string => String.ofList
      (fitLength ((site.schema.lookup "minLength").bind Json.nat?) site.longest? (toString n).toList)
  | _ => toString (saturate n)

/-- There is room at a site for all digits of a number. -/
def Holds (site : Site) (n : Nat) : Prop :=
  match site.type with
  | .string => ∀ most, site.longest? = some most → (Nat.toDigits 10 n).length ≤ most
  | _ => n < twoTo 63

/-- There is room at a site for a digit, whatever the number. -/
def Open (site : Site) : Prop := site.type = .string → site.longest? ≠ some 0

theorem written?_value (site : Site) (n : Nat) : (site.value n).written? = some (site.text n) := by
  unfold value text
  cases site.type <;> rfl

theorem text_holds (room : site.Holds n) :
    ∃ count, (site.text n).toList = Nat.toDigits 10 n ++ List.replicate count 'x' := by
  unfold Holds at room
  unfold text
  split at room
  · rw [String.toList_ofList, Nat.toString_eq_repr, Nat.toList_repr]
    exact fitLength_whole room
  · refine ⟨0, ?_⟩
    rw [saturate_ofNat, Nat.min_eq_left (by omega), Json.toList_ofNat]
    exact (List.append_nil _).symm

/-- Where there is no room for all digits, a smaller number is written, and has room. -/
theorem text_cut (digit : site.Open) (short : ¬ site.Holds n) :
    ∃ m, 0 < m ∧ m < n ∧ site.Holds m ∧ site.text n = site.text m := by
  unfold Open at digit
  unfold Holds text at *
  split at short
  · push Not at short
    obtain ⟨most, declared, long⟩ := short
    have positive : most ≠ 0 := fun zero => digit ‹_› (zero ▸ declared)
    obtain ⟨m, above, below, same⟩ := take_toDigits (Nat.pos_of_ne_zero positive) long
    have length : (Nat.toDigits 10 m).length = most := by
      rw [← same, List.length_take, Nat.min_eq_left (Nat.le_of_lt long)]
    refine ⟨m, above, below, ?_, ?_⟩
    · rw [declared]
      rintro other ⟨⟩
      exact Nat.le_of_eq length
    · simp only [Nat.toString_eq_repr, Nat.toList_repr, declared]
      rw [fitLength_cut (Nat.le_of_lt long), fitLength_cut (Nat.le_of_eq length.symm), same,
        List.take_of_length_le (Nat.le_of_eq length)]
  · have positive : 0 < twoTo 63 := by decide
    refine ⟨twoTo 63 - 1, by decide, by omega, by decide, ?_⟩
    rw [saturate_ofNat, saturate_ofNat, Nat.min_eq_right (by omega), Nat.min_self]

theorem text_closed (closed : ¬ site.Open) : (site.text n).toList = [] := by
  unfold Open at closed
  push Not at closed
  obtain ⟨string, none⟩ := closed
  unfold text
  rw [string, none]
  exact String.toList_ofList

theorem text_ne_of_holds {a b : Site} (smaller : m < n) (less : a.Holds m) (room : b.Holds n) :
    a.text m ≠ b.text n := by
  obtain ⟨p, earlier⟩ := text_holds less
  obtain ⟨q, later⟩ := text_holds room
  intro same
  exact Nat.ne_of_lt smaller (toDigits_filled_inj (earlier.symm.trans (same ▸ later)))

/-- All digits of a number are written nowhere for a smaller one. -/
theorem text_ne {a b : Site} (smaller : m < n) (room : b.Holds n) : a.text m ≠ b.text n := by
  by_cases less : a.Holds m
  · exact text_ne_of_holds smaller less room
  by_cases digit : a.Open
  · -- what is cut is a still smaller number, for which there is room
    obtain ⟨k, -, below, less, cut⟩ := text_cut digit less
    rw [cut]
    exact text_ne_of_holds (Nat.lt_trans below smaller) less room
  · intro same
    obtain ⟨count, later⟩ := text_holds room
    rw [← same, text_closed digit] at later
    exact Nat.toDigits_ne_nil (List.append_eq_nil_iff.mp later.symm).1

/-- Room for all digits is what it takes to write something new. -/
theorem holds_iff (digit : site.Open) :
    site.Holds n ↔ ∀ m, 0 < m → m < n → site.text m ≠ site.text n := by
  refine ⟨fun room m _ smaller => text_ne smaller room, fun fresh => ?_⟩
  by_contra short
  obtain ⟨m, positive, smaller, -, same⟩ := text_cut digit short
  exact fresh m positive smaller same.symm

end Site

section
variable {chance : Chance} {root value : Json} {body : BodySchema} {c : Counters}

/-- An identifier in a sample is the text that its site writes for its number. -/
theorem written_at (done : (sampleBody chance root body c).1 = .ok value) {k : Nat} {site : Site}
    (listed : (identifiers root body.via none body.schema).sites[k]? = some site) :
    (value.at? site.place).bind Json.written? = some (site.text (k + 1)) := by
  obtain ⟨-, -, values⟩ : Numbers _ _ (sampleBody chance root body c) :=
    sample_numbers body.via none body.schema { c with nextId := 1 }
  rw [values value done k site listed, Option.bind_some, Site.written?_value, Nat.add_comm]

/-- An identifier in a sample is written differently from all before it when there is room for the
digits of its own number, however the others are filled up or cut. -/
theorem whole_identifier_differs (done : (sampleBody chance root body c).1 = .ok value)
    {i j : Nat} {a b : Site} (ordered : i < j)
    (earlier : (identifiers root body.via none body.schema).sites[i]? = some a)
    (later : (identifiers root body.via none body.schema).sites[j]? = some b)
    (room : b.Holds (j + 1)) :
    ∃ s t, (value.at? a.place).bind Json.written? = some s ∧
      (value.at? b.place).bind Json.written? = some t ∧ s ≠ t :=
  ⟨_, _, written_at done earlier, written_at done later,
    Site.text_ne (Nat.succ_lt_succ ordered) room⟩

end

def emptyDocument : Json := .object [("openapi", .string "3.0.0"), ("paths", .object [])]

def oneCharacter : Schema := [("type", .string "string"), ("maxLength", .int 1)]

def idNames : List String := ["id0", "id1", "id2", "id3", "id4", "id5", "id6", "id7", "id8", "id9"]

/-- Ten identifiers of one character each. -/
def tenIdentifiers : BodySchema where
  schema := .object [("type", .string "object"),
    ("properties", .object (idNames.map fun name => (name, .object oneCharacter)))]
  via := []

theorem identifiers_ten : identifiers emptyDocument tenIdentifiers.via none tenIdentifiers.schema =
    ⟨(List.range 10).map fun i => ⟨[i], oneCharacter, .string⟩, true⟩ := by
  have one (name : String) (member : name ∈ idNames) :
      identifiers emptyDocument [] (some name) (.object oneCharacter) =
        ⟨[⟨[], oneCharacter, .string⟩], true⟩ := by
    have named : ∀ name ∈ idNames, namesIdentifier (some name) := by decide
    rw [identifiers_literal (Reference.follow_plain rfl)]
    exact if_pos (by simp [takesIdentifier, named name member]; rfl)
  have asked : form tenIdentifiers.schema =
      .fields (idNames.map fun name => (name, .object oneCharacter)) := rfl
  rw [identifiers_literal (Reference.follow_plain rfl), asked, identifiersIn, List.map_map]
  exact congrArg (Found.inOrder 0) (List.map_congr_left one)

theorem ten_sites {i : Nat} (within : i < 10) :
    (identifiers emptyDocument tenIdentifiers.via none tenIdentifiers.schema).sites[i]? =
      some ⟨[i], oneCharacter, .string⟩ := by
  rw [identifiers_ten, List.getElem?_map, List.getElem?_range within]
  rfl

theorem sampleBody_ten (chance : Chance) (c : Counters) :
    ∃ value, (sampleBody chance emptyDocument tenIdentifiers c).1 = .ok value := by
  obtain ⟨complete, -, -⟩ : Numbers _ _ (sampleBody chance emptyDocument tenIdentifiers c) :=
    sample_numbers tenIdentifiers.via none tenIdentifiers.schema { c with nextId := 1 }
  rw [identifiers_ten] at complete
  cases answer : (sampleBody chance emptyDocument tenIdentifiers c).1 with
  | error e => rw [answer] at complete; cases complete
  | ok value => exact ⟨value, rfl⟩

theorem ninth_identifier_differs :
    ∃ value, (sampleBody ⟨2024, fun _ => 0⟩ emptyDocument tenIdentifiers .start).1 = .ok value ∧
      ∃ s t, (value.at? [0]).bind Json.written? = some s ∧
        (value.at? [8]).bind Json.written? = some t ∧ s ≠ t := by
  obtain ⟨value, done⟩ := sampleBody_ten ⟨2024, fun _ => 0⟩ .start
  refine ⟨value, done, whole_identifier_differs done (i := 0) (j := 8) (by decide)
    (ten_sites (by decide)) (ten_sites (by decide)) ?_⟩
  rintro most ⟨⟩
  decide

/-- The tenth identifier, cut to one character, is written as the first. -/
theorem tenth_identifier_repeats :
    ∃ value, (sampleBody ⟨2024, fun _ => 0⟩ emptyDocument tenIdentifiers .start).1 = .ok value ∧
      ∃ a b : Site,
        (identifiers emptyDocument tenIdentifiers.via none tenIdentifiers.schema).sites[0]? = some a ∧
        (identifiers emptyDocument tenIdentifiers.via none tenIdentifiers.schema).sites[9]? = some b ∧
        a.place ≠ b.place ∧ a.Open ∧ b.Open ∧
        (value.at? a.place).bind Json.written? = some "1" ∧
        (value.at? b.place).bind Json.written? = some "1" := by
  obtain ⟨value, done⟩ := sampleBody_ten ⟨2024, fun _ => 0⟩ .start
  have first := ten_sites (show 0 < 10 by decide)
  have tenth := ten_sites (show 9 < 10 by decide)
  refine ⟨value, done, _, _, first, tenth, by decide, fun _ => by decide, fun _ => by decide, ?_, ?_⟩
  · rw [written_at done first]
    rfl
  · rw [written_at done tenth]
    rfl

end Sample
end LoadPlan
