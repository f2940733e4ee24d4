import LoadPlan.Proofs.Json.Sound
import LoadPlan.Proofs.Yaml.Reading
import LoadPlan.Yaml.Reader

/-! Values of YAML texts. The whole numbers among them fit into 64 bits, through aliases and merge
keys, so that they are sound as JSON values. -/
namespace LoadPlan.Yaml
open Scalar (fits64)

/-- Values whose whole numbers fit into 64 bits. Keys become texts, whatever they are. -/
inductive Value.Fits : Value → Prop
  | scalar (fits : ∀ n, s = .int n → fits64 n) : Fits (.scalar s)
  | sequence (inner : ∀ item ∈ items, Fits item) : Fits (.sequence items)
  | mapping (inner : ∀ entry ∈ entries, Fits entry.2) : Fits (.mapping entries)
  | tagged (inner : Fits value) : Fits (.tagged tag value)

namespace Scalar

theorem wholeNumber_fits (whole : wholeNumber text = .value n) : fits64 n := by
  unfold wholeNumber at whole
  split at whole
  · split at whole
    · cases whole
      assumption
    · split at whole <;> cases whole
  · cases whole

theorem float?_ne_int (read : float? text = some s) : s ≠ .int n := by
  rintro rfl
  unfold float? at read
  split at read
  · cases read
  · split at read
    · cases read
    · split at read
      · cases read
      · obtain ⟨x, -, same⟩ := Option.map_eq_some_iff.mp read
        cases same

theorem ofPlain?_fits (read : ofPlain? text = some (.int n)) : fits64 n := by
  unfold ofPlain? at read
  split at read
  · cases read
  · split at read
    · cases read
    · split at read
      · rename_i whole
        cases read
        exact wholeNumber_fits whole
      · cases read
      · split at read
        · cases read
        · cases real : float? text with
          | none => simp [real] at read
          | some s =>
            simp only [real, Option.getD_some, Option.some.injEq] at read
            exact absurd read (float?_ne_int real)

theorem ofTagged?_fits (read : ofTagged? tag text = some (some (.int n))) : fits64 n := by
  unfold ofTagged? at read
  split at read
  · obtain ⟨_, -, same⟩ := Option.map_eq_some_iff.mp (Option.some.inj read)
    cases same
  · split at read
    · split at read
      · rename_i whole
        cases read
        exact wholeNumber_fits whole
      · cases read
    · split at read
      · exact absurd rfl (float?_ne_int (Option.some.inj read))
      · split at read
        · split at read <;> cases read
        · cases read

end Scalar

namespace Node

theorem scalar?_fits {p : Properties} (read : scalar? p text style = some (.int n)) : fits64 n := by
  have untagged (read : (if style == .plain then Scalar.ofPlain? text else some (.string text)) =
      some (.int n)) : fits64 n := by
    split at read
    · exact Scalar.ofPlain?_fits read
    · cases read
  dsimp only [scalar?] at read
  cases tagged : p.tag with
  | none => exact untagged (by rwa [tagged] at read)
  | some tag =>
    simp only [tagged] at read
    split at read
    · exact untagged read
    · cases forced : Scalar.ofTagged? tag text with
      | none => simp [forced] at read
      | some s =>
        rw [forced, Option.getD_some] at read
        exact Scalar.ofTagged?_fits (read ▸ forced)

theorem applyTag_fits (p : Properties) {value : Value} (fits : value.Fits) :
    (applyTag p value).Fits := by
  unfold applyTag
  split
  · exact .tagged fits
  · exact fits

theorem forall₂_fits {nodes : List Node} {values : List Value}
    (each : List.Forall₂ (fun _ value => value.Fits) nodes values) :
    ∀ value ∈ values, value.Fits := by
  induction each with
  | nil => exact List.forall_mem_nil _
  | cons first _ ih => exact List.forall_mem_cons.mpr ⟨first, ih⟩

theorem fits_compositional (table : List (Nat × Node)) :
    Compositional table fun _ value => value.Fits where
  replaced _ fits := fits
  scalar form := applyTag_fits _ (.scalar fun _ same => scalar?_fits (same ▸ form))
  sequence each := applyTag_fits _ (.sequence (forall₂_fits each))
  mapping _ each _ := applyTag_fits _ (.mapping fun entry member =>
    forall₂_fits each entry.2 (List.mem_map_of_mem member))

theorem value?_fits {root : Node} (read : root.value? = some value) : value.Fits :=
  value?_gives (fits_compositional _) read

end Node
namespace Value

/-- The values that are settled among some entries. -/
def PartsFit (parts : List (Value × Option Value)) : Prop :=
  ∀ entry ∈ parts, ∀ value, entry.2 = some value → value.Fits

/-- A value, and what it brings under a merge key, once merge keys are applied. -/
structure Settles (v : Value) : Prop where
  merged : ∀ value, v.merged? = some value → value.Fits
  spread : ∀ more, spreadOfValue v = some more → PartsFit more

theorem mem_removeAt {entries : List (Value × α)} {place : Nat}
    (member : entry ∈ removeAt entries place) : entry ∈ entries := by
  unfold removeAt at member
  split at member
  · contradiction
  · rename_i last ends
    split at member
    · exact (List.dropLast_sublist entries).subset member
    · rcases List.mem_or_eq_of_mem_set member with kept | rfl
      · exact (List.dropLast_sublist entries).subset kept
      · exact List.mem_of_mem_getLast? ends

theorem mem_addMissing {entries more : List (Value × α)} (member : entry ∈ addMissing entries more) :
    entry ∈ entries ∨ entry ∈ more := by
  unfold addMissing at member
  induction more generalizing entries with
  | nil => exact .inl member
  | cons first rest ih =>
    rcases ih member with earlier | later
    · dsimp only at earlier
      split at earlier
      · exact .inl earlier
      · rcases List.mem_append.mp earlier with old | new
        · exact .inl old
        · cases List.mem_singleton.mp new
          exact .inr List.mem_cons_self
    · exact .inr (List.mem_cons_of_mem _ later)

theorem mem_spreadOut {entries result : List (Value × α)} {spread : Spread α}
    (settled : spreadOut entries spread = some result) (member : entry ∈ result) :
    entry ∈ entries ∨ ∃ more, spread = some more ∧ entry ∈ more := by
  unfold spreadOut at settled
  split at settled
  · cases settled
    exact .inl member
  · obtain ⟨more, brought, rfl⟩ := Option.map_eq_some_iff.mp settled
    rcases mem_addMissing member with kept | added
    · exact .inl (mem_removeAt kept)
    · exact .inr ⟨more, brought, added⟩

theorem sequenceEntries_fits {parts : List (Value × Option Value)} (fit : PartsFit parts)
    (settled : sequenceEntries parts = some entries) : ∀ entry ∈ entries, entry.2.Fits := by
  induction parts generalizing entries with
  | nil =>
    cases settled
    exact fun _ => (nomatch ·)
  | cons part rest ih =>
    obtain ⟨key, content⟩ := part
    obtain ⟨value, here, settled⟩ := Option.bind_eq_some_iff.mp settled
    obtain ⟨others, later, settled⟩ := Option.bind_eq_some_iff.mp settled
    cases settled
    refine List.forall_mem_cons.mpr ⟨fit _ List.mem_cons_self value here, ih ?_ later⟩
    exact fun entry member => fit entry (List.mem_cons_of_mem _ member)

theorem mergedParts_fit {entries : List (Value × Value)}
    (each : ∀ entry ∈ entries, entry.2.Settles) : PartsFit (mergedParts entries) := by
  induction entries with
  | nil => exact fun _ => (nomatch ·)
  | cons entry rest ih =>
    refine List.forall_mem_cons.mpr ⟨(each entry List.mem_cons_self).merged, ih ?_⟩
    exact fun entry member => each entry (List.mem_cons_of_mem _ member)

theorem spreadOf_fit {entries : List (Value × Value)} (each : ∀ entry ∈ entries, entry.2.Settles)
    (brought : spreadOf entries = some more) : PartsFit more := by
  induction entries with
  | nil =>
    cases brought
    exact fun _ => (nomatch ·)
  | cons entry rest ih =>
    obtain ⟨key, value⟩ := entry
    rw [spreadOf] at brought
    split at brought
    · exact (each (key, value) List.mem_cons_self).spread more brought
    · exact ih (fun entry member => each entry (List.mem_cons_of_mem _ member)) brought

theorem mergedItems?_fit {items : List Value} (each : ∀ item ∈ items, item.Settles)
    (settled : mergedItems? items = some values) : ∀ value ∈ values, value.Fits := by
  induction items generalizing values with
  | nil =>
    cases settled
    exact fun _ => (nomatch ·)
  | cons item rest ih =>
    obtain ⟨value, here, settled⟩ := Option.bind_eq_some_iff.mp settled
    obtain ⟨others, later, settled⟩ := Option.bind_eq_some_iff.mp settled
    cases settled
    refine List.forall_mem_cons.mpr ⟨(each item List.mem_cons_self).merged value here, ih ?_ later⟩
    exact fun item member => each item (List.mem_cons_of_mem _ member)

theorem spreadOfItems_fit {items : List Value} (each : ∀ item ∈ items, item.Settles)
    (brought : spreadOfItems items = some more) : PartsFit more := by
  induction items generalizing more with
  | nil =>
    cases brought
    exact fun _ => (nomatch ·)
  | cons item rest ih =>
    cases item with
    | mapping entries =>
      obtain ⟨others, later, rfl⟩ := Option.map_eq_some_iff.mp brought
      have here := (each _ List.mem_cons_self).spread (mergedParts entries) rfl
      have there := ih (fun item member => each item (List.mem_cons_of_mem _ member)) later
      exact fun entry member => (List.mem_append.mp member).elim (here entry) (there entry)
    | scalar | sequence | tagged => cases brought

theorem Fits.settles {value : Value} (fits : value.Fits) : value.Settles := by
  induction fits with
  | scalar fits =>
    refine ⟨fun value same => ?_, fun _ => (nomatch ·)⟩
    cases same
    exact .scalar fits
  | sequence inner ih =>
    refine ⟨fun value settled => ?_, fun more brought => spreadOfItems_fit ih brought⟩
    obtain ⟨values, each, rfl⟩ := Option.map_eq_some_iff.mp settled
    exact .sequence (mergedItems?_fit ih each)
  | @mapping entries inner ih =>
    refine ⟨fun value settled => ?_, fun more brought => ?_⟩
    · obtain ⟨parts, spread, settled⟩ := Option.bind_eq_some_iff.mp settled
      obtain ⟨result, each, rfl⟩ := Option.map_eq_some_iff.mp settled
      refine .mapping (sequenceEntries_fits (fun entry member => ?_) each)
      rcases mem_spreadOut spread member with own | ⟨more, brought, added⟩
      · exact mergedParts_fit ih entry own
      · exact spreadOf_fit ih brought entry added
    · cases brought
      exact mergedParts_fit ih
  | tagged inner ih =>
    refine ⟨fun value settled => ?_, fun _ => (nomatch ·)⟩
    obtain ⟨content, within, rfl⟩ := Option.map_eq_some_iff.mp settled
    exact .tagged (ih.merged content within)

theorem toJsonItems_sound {items : List Value} (each : ∀ item ∈ items, item.toJson.Sound) :
    ∀ item ∈ toJsonItems items, item.Sound := by
  induction items with
  | nil => exact fun _ => (nomatch ·)
  | cons item rest ih =>
    exact List.forall_mem_cons.mpr ⟨each item List.mem_cons_self,
      ih fun item member => each item (List.mem_cons_of_mem _ member)⟩

theorem toJsonFields_sound {entries : List (Value × Value)}
    (each : ∀ entry ∈ entries, entry.2.toJson.Sound) :
    ∀ field ∈ toJsonFields entries, field.2.Sound := by
  induction entries with
  | nil => exact fun _ => (nomatch ·)
  | cons entry rest ih =>
    exact List.forall_mem_cons.mpr ⟨each entry List.mem_cons_self,
      ih fun entry member => each entry (List.mem_cons_of_mem _ member)⟩

theorem toJson_sound {value : Value} (fits : value.Fits) : value.toJson.Sound := by
  induction fits with
  | @scalar s fits =>
    cases s with
    | int n =>
      have within := fits n rfl
      simp only [fits64, Bool.and_eq_true, decide_eq_true_eq] at within
      exact .int within
    | null => exact .null
    | bool => exact .bool
    | float => exact .float
    | infinity => exact .null
    | nan => exact .null
    | string => exact .string
  | sequence inner ih => exact .array (toJsonItems_sound ih)
  | mapping inner ih => exact .ofFields (toJsonFields_sound ih)
  | tagged inner ih => exact ih

end Value

/-- What is read is sound. -/
theorem readJson?_sound (read : readJson? text = some json) : json.Sound := by
  obtain ⟨value, found, read⟩ := Option.bind_eq_some_iff.mp read
  obtain ⟨merged, settled, read⟩ := Option.bind_eq_some_iff.mp read
  obtain ⟨root, -, valued⟩ := Option.bind_eq_some_iff.mp found
  cases read
  exact Value.toJson_sound ((Node.value?_fits valued).settles.merged merged settled)

end LoadPlan.Yaml
