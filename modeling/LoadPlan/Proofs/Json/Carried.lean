import LoadPlan.Proofs.Json.Sound
import LoadPlan.Proofs.Xml.RoundTrip

/-! Body texts in markup. Of the characters that markup cannot hold, control characters are escaped in
a quoted text already; so what markup keeps of the text of a value is the text of the value without
the two noncharacters U+FFFE and U+FFFF. -/
namespace LoadPlan.Json

/-- Neither of the two characters that stand in quoted texts and not in markup. -/
def isCarried (c : Char) : Bool := c != '\ufffe' && c != '\uffff'

def carriedText (text : String) : String := String.ofList (text.toList.filter isCarried)

mutual
/-- The value with what markup keeps of its texts and keys. -/
def carried : Json → Json
  | .string text => .string (carriedText text)
  | .array items => .array (carriedItems items)
  | .object fields => .object (carriedFields fields)
  | value => value

def carriedItems : List Json → List Json
  | [] => []
  | item :: rest => carried item :: carriedItems rest

def carriedFields : List (String × Json) → List (String × Json)
  | [] => []
  | (key, value) :: rest => (carriedText key, carried value) :: carriedFields rest
end

theorem isAllowed_printed {c : Char} (printed : ¬ c.toNat < 0x20) :
    Xml.isAllowed c = isCarried c := by
  rw [Xml.isAllowed_eq, Xml.isForbidden, isCarried]
  simp [printed, bne]

theorem isCarried_control {c : Char} (control : c.toNat < 0x20) : isCarried c := by
  have other (d : Char) (large : ¬ d.toNat < 0x20) : c ≠ d := by
    rintro rfl
    exact large control
  simp [isCarried, other '\ufffe' (by decide), other '\uffff' (by decide)]

theorem filter_escapeChar (c : Char) :
    (escapeChar c).filter Xml.isAllowed = if isCarried c then escapeChar c else [] := by
  unfold escapeChar
  split
  · rfl
  · rfl
  · rfl
  · rfl
  · rfl
  · rfl
  · rfl
  · split
    · rename_i control
      have digits : ∀ n < 16, Xml.isAllowed (hexDigit n) := by decide
      have high := digits (c.toNat / 16) (by omega)
      have low := digits (c.toNat % 16) (by omega)
      have marks : ['\\', 'u', '0'].all Xml.isAllowed := by decide
      rw [if_pos (isCarried_control control), List.filter_eq_self]
      simp_all
    · rename_i printed
      rw [List.filter_singleton, isAllowed_printed printed]
      cases isCarried c <;> rfl

theorem carriedText_quote (text : String) :
    Xml.carriedText (quote text) = quote (carriedText text) := by
  have each (cs : List Char) : (cs.flatMap escapeChar).filter Xml.isAllowed =
      (cs.filter isCarried).flatMap escapeChar := by
    induction cs with
    | nil => rfl
    | cons c rest ih =>
      rw [List.flatMap_cons, List.filter_append, filter_escapeChar, ih, List.filter_cons]
      split <;> simp
  have mark : Xml.isAllowed '"' := by decide
  rw [Xml.carriedText, quote, quote, carriedText, String.toList_ofList, String.toList_ofList,
    List.filter_cons_of_pos mark, List.filter_append, each, List.filter_cons_of_pos mark,
    List.filter_nil]

theorem carriedText_indent (level : Nat) : Xml.carriedText (indent level) = indent level :=
  Xml.carriedText_allowed (Xml.allowed_indent level)

theorem carriedText_items {items : List Json} (level : Nat)
    (each : ∀ item ∈ items, Xml.carriedText (indented level item) = indented level item.carried) :
    (indentedItems level items).map Xml.carriedText = indentedItems level (carriedItems items) := by
  induction items with
  | nil => rfl
  | cons item rest ih =>
    rw [indentedItems, carriedItems, indentedItems, List.map_cons, Xml.carriedText_append,
      carriedText_indent, each item List.mem_cons_self,
      ih fun item member => each item (List.mem_cons_of_mem _ member)]

theorem carriedText_fields {fields : List (String × Json)} (level : Nat)
    (each : ∀ field ∈ fields,
      Xml.carriedText (indented level field.2) = indented level field.2.carried) :
    (indentedFields level fields).map Xml.carriedText =
      indentedFields level (carriedFields fields) := by
  induction fields with
  | nil => rfl
  | cons field rest ih =>
    have colon : Xml.carriedText ": " = ": " := Xml.carriedText_allowed (by decide)
    rw [indentedFields, carriedFields, indentedFields, List.map_cons, Xml.carriedText_append,
      Xml.carriedText_append, Xml.carriedText_append, carriedText_indent, carriedText_quote, colon,
      each field List.mem_cons_self, ih fun field member => each field (List.mem_cons_of_mem _ member)]

theorem allowed_int (n : Int) : Xml.Allowed (toString n) := by
  have digit (m : Nat) : ∀ c ∈ Nat.toDigits 10 m, Xml.isAllowed c := by
    intro c member
    have digit : c.isDigit := Nat.isDigit_of_mem_toDigits (by decide) (by decide) member
    have bounds : '0'.toNat ≤ c.toNat ∧ c.toNat ≤ '9'.toNat := by
      simpa [Char.isDigit, UInt32.le_iff_toNat_le] using digit
    rw [Xml.isAllowed]
    simp only [Bool.or_eq_true, Bool.and_eq_true, decide_eq_true_eq]
    have known : '0'.toNat = 48 ∧ '9'.toNat = 57 := by decide
    omega
  rw [Xml.allowed_iff]
  cases n with
  | ofNat n =>
    rw [toList_ofNat]
    exact digit n
  | negSucc n =>
    rw [toList_negSucc]
    exact List.forall_mem_cons.mpr ⟨by decide, digit (n + 1)⟩

/-- Markup keeps of a text what is the text of the value that it keeps. -/
theorem carriedText_indented {value : Json} (writable : Writable value) (level : Nat) :
    Xml.carriedText (indented level value) = indented level value.carried := by
  induction writable generalizing level with
  | null => exact Xml.carriedText_allowed (show Xml.Allowed "null" by decide)
  | @bool value =>
    cases value with
    | false => exact Xml.carriedText_allowed (show Xml.Allowed "false" by decide)
    | true => exact Xml.carriedText_allowed (show Xml.Allowed "true" by decide)
  | @int n whole => exact Xml.carriedText_allowed (allowed_int n)
  | string => exact carriedText_quote _
  | @array items inner ih =>
    cases items with
    | nil => exact Xml.carriedText_allowed (show Xml.Allowed "[]" by decide)
    | cons item rest =>
      have each := carriedText_items (level + 1) fun item member => ih item member (level + 1)
      have comma : Xml.Allowed ",\n" := by decide
      have opening : Xml.carriedText "[\n" = "[\n" := Xml.carriedText_allowed (by decide)
      have newline : Xml.carriedText "\n" = "\n" := Xml.carriedText_allowed (by decide)
      have closing : Xml.carriedText "]" = "]" := Xml.carriedText_allowed (by decide)
      simp only [carried, carriedItems, indented, Xml.carriedText_append, opening, newline, closing,
        carriedText_indent, Xml.carriedText_intercalate comma, each]
  | @object fields inner ih =>
    cases fields with
    | nil => exact Xml.carriedText_allowed (show Xml.Allowed "\x7b\x7d" by decide)
    | cons field rest =>
      have each := carriedText_fields (level + 1) fun field member => ih field member (level + 1)
      have comma : Xml.Allowed ",\n" := by decide
      have opening : Xml.carriedText "\x7b\n" = "\x7b\n" := Xml.carriedText_allowed (by decide)
      have newline : Xml.carriedText "\n" = "\n" := Xml.carriedText_allowed (by decide)
      have closing : Xml.carriedText "\x7d" = "\x7d" := Xml.carriedText_allowed (by decide)
      simp only [carried, carriedFields, indented, Xml.carriedText_append, opening, newline, closing,
        carriedText_indent, Xml.carriedText_intercalate comma, each]

/-- Values that have no floats in them. -/
inductive FloatFree : Json → Prop
  | null : FloatFree .null
  | bool : FloatFree (.bool value)
  | int : FloatFree (.int n)
  | string : FloatFree (.string text)
  | array (inner : ∀ item ∈ items, FloatFree item) : FloatFree (.array items)
  | object (inner : ∀ field ∈ fields, FloatFree field.2) : FloatFree (.object fields)

theorem Sound.writable {value : Json} (sound : Sound value) (floatFree : FloatFree value) :
    Writable value := by
  induction floatFree with
  | null => exact .null
  | bool => exact .bool
  | int =>
    cases sound with
    | int whole => exact .int whole
  | string => exact .string
  | array _ ih => exact .array fun item member => ih item member (sound.item member)
  | object _ ih => exact .object fun field member => ih field member (sound.field member)

namespace Writable

theorem carriedItems_inner {items : List Json}
    (each : ∀ item ∈ items, Writable item.carried ∧ item.carried.depth = item.depth) :
    (∀ item ∈ carriedItems items, Writable item) ∧
      depthItems (carriedItems items) = depthItems items := by
  induction items with
  | nil => exact ⟨List.forall_mem_nil _, rfl⟩
  | cons item rest ih =>
    obtain ⟨first, same⟩ := each item List.mem_cons_self
    obtain ⟨others, deep⟩ := ih fun item member => each item (List.mem_cons_of_mem _ member)
    exact ⟨List.forall_mem_cons.mpr ⟨first, others⟩, by simp only [carriedItems, depthItems, same, deep]⟩

theorem carriedFields_inner {fields : List (String × Json)}
    (each : ∀ field ∈ fields, Writable field.2.carried ∧ field.2.carried.depth = field.2.depth) :
    (∀ field ∈ carriedFields fields, Writable field.2) ∧
      depthFields (carriedFields fields) = depthFields fields := by
  induction fields with
  | nil => exact ⟨List.forall_mem_nil _, rfl⟩
  | cons field rest ih =>
    obtain ⟨first, same⟩ := each field List.mem_cons_self
    obtain ⟨others, deep⟩ := ih fun field member => each field (List.mem_cons_of_mem _ member)
    exact ⟨List.forall_mem_cons.mpr ⟨first, others⟩,
      by simp only [carriedFields, depthFields, same, deep]⟩

theorem carried {value : Json} (writable : Writable value) :
    Writable value.carried ∧ value.carried.depth = value.depth := by
  induction writable with
  | null => exact ⟨.null, rfl⟩
  | bool => exact ⟨.bool, rfl⟩
  | int whole => exact ⟨.int whole, rfl⟩
  | string => exact ⟨.string, rfl⟩
  | array inner ih =>
    obtain ⟨each, deep⟩ := carriedItems_inner ih
    exact ⟨.array each, congrArg (· + 1) deep⟩
  | object inner ih =>
    obtain ⟨each, deep⟩ := carriedFields_inner ih
    exact ⟨.object each, congrArg (· + 1) deep⟩

end Writable

/-- What markup keeps of a body text is read back to what it keeps of the value; all of the value, if
none of its texts and keys has a noncharacter. -/
theorem read?_carriedText {value : Json} (sound : Sound value) (floatFree : FloatFree value)
    (shallow : value.depth ≤ Reader.maxDepth) :
    read? (Xml.carriedText (bodyText value)) = some value.carried.joined ∧
      (value.carried = value → read? (Xml.carriedText (bodyText value)) = some value) := by
  have writable := sound.writable floatFree
  obtain ⟨kept, deep⟩ := writable.carried
  have read : read? (Xml.carriedText (bodyText value)) = some value.carried.joined := by
    rw [bodyText, carriedText_indented writable 0]
    exact read?_bodyText kept (by omega)
  refine ⟨read, fun whole => ?_⟩
  rw [read, whole, sound.joined_eq]

end LoadPlan.Json
