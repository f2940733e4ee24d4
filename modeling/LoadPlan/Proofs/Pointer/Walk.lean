import LoadPlan.Proofs.Json.Fields
import LoadPlan.Proofs.Pointer.Segments
import LoadPlan.Proofs.Reference.Trail

/-! Ways through a document. A segment names the field of its key in an object and the item at its index
in an array, and nothing in a scalar. The pointer written for a list of segments goes the way that these
go, and no other: no slash or tilde in a key is taken for a mark of the pointer. -/
namespace LoadPlan

namespace Text

theorem digits?_toDigits (n : Nat) : digits? (Nat.toDigits 10 n) = some n := by
  have digits : (Nat.toDigits 10 n).all Char.isDigit := by
    rw [List.all_eq_true]
    exact fun c member => Nat.isDigit_of_mem_toDigits (by decide) (by decide) member
  have gathered := Nat.ofDigitChars_ten_toDigits (n := n)
  rw [Nat.ofDigitChars_eq_foldl] at gathered
  have all : ((Nat.toDigits 10 n).isEmpty || !(Nat.toDigits 10 n).all Char.isDigit) = false := by
    simp [digits, Nat.toDigits_ne_nil]
  rw [digits?, all, if_neg Bool.false_ne_true]
  exact congrArg some (by simpa only [Nat.mul_comm] using gathered)

theorem unsigned?_toDigits (limit n : Nat) :
    unsigned? limit (Nat.toDigits 10 n) = if n < limit then some n else none := by
  have unsigned : ((Nat.toDigits 10 n).head? == some '+') = false := by
    rw [beq_eq_false_iff_ne]
    intro plus
    have digit := Nat.isDigit_of_mem_toDigits (by decide) (by decide) (List.mem_of_head? plus)
    exact absurd digit (by decide)
  rw [unsigned?, unsigned, if_neg Bool.false_ne_true, digits?_toDigits, Option.filter_some]
  simp

end Text

namespace Pointer

/-- A whole number in decimal digits, with no sign and no zeros in front. -/
def IsDecimal (segment : String) : Prop := ∃ n : Nat, segment = toString n

theorem index?_toString (n : Nat) :
    index? (toString n) = if n < UInt64.size then some n else none := by
  rw [index?, show (toString n).toList = Nat.toDigits 10 n from Nat.toList_repr,
    Text.unsigned?_toDigits]

/-- A segment names a part of a node. -/
inductive Enters : Json → String → Json → Prop where
  | field (found : fields.lookup key = some part) : Enters (.object fields) key part
  | item (found : items[i]? = some part) (fits : i < UInt64.size) :
      Enters (.array items) (toString i) part

theorem Enters.child? {node part : Json} {segment : String} (enters : Enters node segment part) :
    child? node segment = some part := by
  cases enters with
  | field found => exact found
  | item found fits => rw [Pointer.child?, index?_toString, if_pos fits, Option.bind_some, found]

/-- A segment names no part of a node: a key is missing, an index is out of range or too large, or
there are no parts. -/
inductive Outside : Json → String → Prop where
  | key (missing : key ∉ fields.map Prod.fst) : Outside (.object fields) key
  | index (beyond : items.length ≤ i ∨ UInt64.size ≤ i) : Outside (.array items) (toString i)
  | scalar {segment : String} (flat : node.depth = 0) : Outside node segment

/-- Segments lead from a node to another, part by part. -/
inductive Walks : Json → List String → Json → Prop where
  | here : Walks node [] node
  | enter {segment : String} (enters : Enters node segment part) (onward : Walks part rest target) :
      Walks node (segment :: rest) target

/-- Segments lead out of the document. -/
inductive Leaves : Json → List String → Prop where
  | here {segment : String} (outside : Outside node segment) : Leaves node (segment :: rest)
  | later {segment : String} (enters : Enters node segment part) (onward : Leaves part rest) :
      Leaves node (segment :: rest)

/-- The segments that meet arrays are decimal numbers. -/
def DecimalIndices (node : Json) (segments : List String) : Prop :=
  ∀ before segment after items, segments = before ++ segment :: after →
    Walks node before (.array items) → IsDecimal segment

theorem DecimalIndices.head {items : List Json} {segment : String} {rest : List String}
    (decimal : DecimalIndices (.array items) (segment :: rest)) : IsDecimal segment :=
  decimal [] segment rest items rfl .here

theorem DecimalIndices.tail {node part : Json} {segment : String} {rest : List String}
    (decimal : DecimalIndices node (segment :: rest)) (enters : Enters node segment part) :
    DecimalIndices part rest := fun before other after items split walks =>
  decimal (segment :: before) other after items (by rw [split, List.cons_append])
    (.enter enters walks)

section
variable {node part : Json} {segment : String}
  (decimal : ∀ items, node = .array items → IsDecimal segment)
include decimal

theorem child?_eq_some : child? node segment = some part ↔ Enters node segment part := by
  constructor
  · intro found
    cases node with
    | object fields => exact .field found
    | array items =>
      obtain ⟨n, rfl⟩ := decimal items rfl
      rw [child?, index?_toString] at found
      split at found
      · rename_i fits
        exact .item found fits
      · cases found
    | null | bool | int | float | string => cases found
  · exact Enters.child?

theorem child?_eq_none : child? node segment = none ↔ Outside node segment := by
  constructor
  · intro none
    cases node with
    | object fields => exact .key (Json.lookup_eq_none.mp none)
    | array items =>
      obtain ⟨n, rfl⟩ := decimal items rfl
      rw [child?, index?_toString] at none
      split at none
      · exact .index (.inl (List.getElem?_eq_none_iff.mp none))
      · rename_i large
        exact .index (.inr (Nat.le_of_not_lt large))
    | null | bool | int | float | string => exact .scalar rfl
  · intro outside
    cases outside with
    | key missing => exact Json.lookup_eq_none.mpr missing
    | @index items i beyond =>
      rw [child?, index?_toString]
      split
      · rename_i fits
        exact List.getElem?_eq_none (beyond.resolve_right (Nat.not_le_of_lt fits))
      · rfl
    | scalar flat =>
      cases node with
      | object | array => exact absurd flat (Nat.succ_ne_zero _)
      | null | bool | int | float | string => rfl

end

/-- Which segments lead somewhere, and which lead out of the document. -/
theorem walk?_eq_some {node target : Json} {segments : List String}
    (decimal : DecimalIndices node segments) :
    walk? node segments = some target ↔ Walks node segments target := by
  induction segments generalizing node with
  | nil =>
    constructor
    · rintro ⟨⟩
      exact .here
    · rintro ⟨⟩
      rfl
  | cons segment rest ih =>
    have head (part : Json) : child? node segment = some part ↔ Enters node segment part :=
      child?_eq_some fun items same => (same ▸ decimal).head
    rw [walk?, Option.bind_eq_some_iff]
    constructor
    · rintro ⟨part, found, onward⟩
      have enters := (head part).mp found
      exact .enter enters ((ih (decimal.tail enters)).mp onward)
    · rintro ⟨⟩
      rename_i part enters onward
      exact ⟨part, (head part).mpr enters, (ih (decimal.tail enters)).mpr onward⟩

theorem walk?_eq_none {node : Json} {segments : List String}
    (decimal : DecimalIndices node segments) : walk? node segments = none ↔ Leaves node segments := by
  induction segments generalizing node with
  | nil =>
    constructor
    · rintro ⟨⟩
    · rintro ⟨⟩
  | cons segment rest ih =>
    have indices : ∀ items, node = .array items → IsDecimal segment :=
      fun items same => (same ▸ decimal).head
    constructor
    · intro none
      rw [walk?] at none
      cases first : child? node segment with
      | none => exact .here ((child?_eq_none indices).mp first)
      | some part =>
        have enters := (child?_eq_some indices).mp first
        rw [first] at none
        exact .later enters ((ih (decimal.tail enters)).mp none)
    · intro leaves
      rw [walk?]
      cases leaves with
      | here outside => rw [(child?_eq_none indices).mpr outside, Option.bind_none]
      | later enters onward =>
        rw [(child?_eq_some indices).mpr enters, Option.bind_some]
        exact (ih (decimal.tail enters)).mpr onward

theorem DecimalIndices.cons {node : Json} {segment : String} {rest : List String}
    (here : ∀ items, node = .array items → IsDecimal segment)
    (later : ∀ part, Enters node segment part → DecimalIndices part rest) :
    DecimalIndices node (segment :: rest) := by
  intro before other after items split walks
  cases walks with
  | here =>
    cases split
    exact here items rfl
  | enter first onward =>
    obtain ⟨rfl, behind⟩ := List.cons.inj split
    exact later _ first _ other after items behind onward

theorem Enters.decimalIndices {node part : Json} {segment : String} {rest : List String}
    (enters : Enters node segment part) (decimal : DecimalIndices part rest) :
    DecimalIndices node (segment :: rest) := by
  refine .cons ?_ fun other also => ?_
  · rintro items rfl
    cases enters with
    | item found fits => exact ⟨_, rfl⟩
  · cases enters.child?.symm.trans also.child?
    exact decimal

/-- The segments that lead to a node have such indices, and so have those that lead out. -/
theorem Walks.decimalIndices {node target : Json} {segments : List String}
    (walks : Walks node segments target) : DecimalIndices node segments := by
  induction walks with
  | here =>
    rintro before segment after items split -
    exact absurd split.symm (by simp)
  | enter enters onward ih => exact enters.decimalIndices ih

theorem Leaves.decimalIndices {node : Json} {segments : List String}
    (leaves : Leaves node segments) : DecimalIndices node segments := by
  induction leaves with
  | @here node rest segment outside =>
    have decimal : ∀ items, node = .array items → IsDecimal segment := by
      rintro items rfl
      cases outside with
      | index => exact ⟨_, rfl⟩
      | scalar flat => exact absurd flat (Nat.succ_ne_zero _)
    refine .cons decimal fun part enters => ?_
    cases enters.child?.symm.trans ((child?_eq_none decimal).mpr outside)
  | later enters onward ih => exact enters.decimalIndices ih

end Pointer

namespace Reference

theorem lookup_eq_ok : lookup root pointer = .ok node ↔ Pointer.lookup? root pointer = some node := by
  unfold lookup
  cases Pointer.lookup? root pointer with
  | none => simp
  | some target => simp

theorem lookup_eq_error : lookup root pointer = .error e ↔
    e = .unresolvable pointer ∧ Pointer.lookup? root pointer = none := by
  unfold lookup
  cases Pointer.lookup? root pointer with
  | none => simp [eq_comm]
  | some target => simp

/-- A marker that is followed leads where its pointer does, or to the error of that. -/
theorem chase_lookup (marker : pointer? node = some pointer) (fresh : pointer ∉ path ++ via) :
    chase root path via node =
      lookup root pointer >>= fun next => chase root path (via ++ [pointer]) next := by
  rw [chase_marker marker, if_neg (by simpa using fresh), lookup]
  cases Pointer.lookup? root pointer <;> rfl

end Reference

namespace Pointer
open Reference (lookup)

/-- Every node has a pointer, and a pointer goes where its segments do. The pointer that is written for
any segments, whatever characters are in them, is looked up to the node that these lead to, and is
unresolvable exactly if they lead out of the document. -/
theorem lookup_ofSegments {root : Json} {segments : List String}
    (decimal : DecimalIndices root segments) :
    (∀ node, lookup root (ofSegments segments) = .ok node ↔ Walks root segments node) ∧
    ∀ e, lookup root (ofSegments segments) = .error e ↔
      e = .unresolvable (ofSegments segments) ∧ Leaves root segments := by
  have walked : lookup? root (ofSegments segments) = walk? root segments := by
    rw [lookup?, segments?_ofSegments, Option.bind_some]
  constructor
  · intro node
    rw [Reference.lookup_eq_ok, walked, walk?_eq_some decimal]
  · intro e
    rw [Reference.lookup_eq_error, walked, walk?_eq_none decimal]

/-- A list below keys that have a slash and a tilde, and an object with an empty key in it. -/
def markedRoot : Json := .object [("a/b", .object [("~1", .array [.null, .object [("", .bool true)]])])]

theorem marked_looked_up :
    DecimalIndices markedRoot ["a/b", "~1", "1", ""] ∧
      ofSegments ["a/b", "~1", "1", ""] = "#/a~1b/~01/1/" ∧
      lookup markedRoot "#/a~1b/~01/1/" = .ok (.bool true) ∧
      DecimalIndices markedRoot ["a/b", "~1", "2"] ∧ ofSegments ["a/b", "~1", "2"] = "#/a~1b/~01/2" ∧
      lookup markedRoot "#/a~1b/~01/2" = .error (.unresolvable "#/a~1b/~01/2") := by
  have slash : Enters markedRoot "a/b" _ := .field rfl
  have tilde : Enters (.object [("~1", .array [.null, .object [("", .bool true)]])]) "~1" _ := .field rfl
  have second : Enters (.array [.null, .object [("", .bool true)]]) (toString 1) _ :=
    .item rfl (by decide)
  have beyond : Outside (.array [.null, .object [("", .bool true)]]) (toString 2) :=
    .index (.inl (by decide))
  have walks : Walks markedRoot ["a/b", "~1", "1", ""] (.bool true) :=
    .enter slash (.enter tilde (.enter second (.enter (.field rfl) .here)))
  have leaves : Leaves markedRoot ["a/b", "~1", "2"] := .later slash (.later tilde (.here beyond))
  have written : ofSegments ["a/b", "~1", "1", ""] = "#/a~1b/~01/1/" := by decide
  have written' : ofSegments ["a/b", "~1", "2"] = "#/a~1b/~01/2" := by decide
  have found := ((lookup_ofSegments walks.decimalIndices).1 _).mpr walks
  have missing := ((lookup_ofSegments leaves.decimalIndices).2 _).mpr ⟨rfl, leaves⟩
  rw [written] at found
  rw [written'] at missing
  exact ⟨walks.decimalIndices, written, found, leaves.decimalIndices, written', missing⟩

end Pointer
end LoadPlan
