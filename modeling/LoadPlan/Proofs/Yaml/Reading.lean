import LoadPlan.Yaml.Value
import Mathlib.Data.List.Forall2

/-! How values are read off nodes. What holds between the parts of a node and their values, and then
between the node and its value, holds between the root and what is read for it. -/
namespace LoadPlan.Yaml

/-- No key comes after one that it is the same as. -/
def Value.KeysDiffer (entries : List (Value × Value)) : Prop :=
  entries.Pairwise fun earlier later => earlier.1.same later.1 = false

theorem Value.keysDiffer_snoc {entries : List (Value × Value)} (differ : KeysDiffer entries)
    (new : hasKey entries key = false) : KeysDiffer (entries ++ [(key, value)]) := by
  refine List.pairwise_append.mpr ⟨differ, List.pairwise_singleton _ _, ?_⟩
  intro entry member last same
  cases List.mem_singleton.mp same
  simpa using List.any_eq_false.mp new entry member

namespace Node

/-- All values that a reading can give. -/
def Gives (P : α → Prop) (reading : Reading α) : Prop :=
  ∀ left value after, reading left = some (value, after) → P value

namespace Gives
variable {P : α → Prop} {Q : β → Prop}

theorem pure {value : α} (holds : P value) : Gives P (Pure.pure value : Reading α) := by
  intro left value after same
  cases same
  exact holds

theorem failure : Gives P (Alternative.failure : Reading α) := by
  intro left value after ran
  cases ran

theorem lift {option : Option α} (holds : ∀ value, option = some value → P value) :
    Gives P (StateT.lift option : Reading α) := by
  intro left value after ran
  obtain ⟨here, read, same⟩ := Option.bind_eq_some_iff.mp ran
  cases same
  exact holds value read

theorem bind {reading : Reading α} {next : α → Reading β} (first : Gives P reading)
    (later : ∀ value, P value → Gives Q (next value)) : Gives Q (reading >>= next) := by
  intro left value after ran
  obtain ⟨⟨here, middle⟩, read, onward⟩ := Option.bind_eq_some_iff.mp ran
  exact later here (first left here middle read) middle value after onward

end Gives

/-- A relation between nodes and values that passes from the parts of a node to the node, and from
the node that an alias names to the alias. -/
structure Compositional (table : List (Nat × Node)) (R : Node → Value → Prop) : Prop where
  replaced : ∀ {number target value}, table.lookup number = some target → R target value →
    R (.alias number) value
  scalar : ∀ {p text style s}, scalar? p text style = some s →
    R (.scalar p text style) (applyTag p (.scalar s))
  sequence : ∀ {p items values}, List.Forall₂ R items values →
    R (.sequence p items) (applyTag p (.sequence values))
  mapping : ∀ {p} {entries : List (Node × Node)} {pairs : List (Value × Value)},
    List.Forall₂ R (entries.map Prod.fst) (pairs.map Prod.fst) →
    List.Forall₂ R (entries.map Prod.snd) (pairs.map Prod.snd) → Value.KeysDiffer pairs →
    R (.mapping p entries) (applyTag p (.mapping pairs))

section
variable {table : List (Nat × Node)} {R : Node → Value → Prop}

section
variable {read : Node → Reading Value} (each : ∀ node, Gives (R node) (read node))
include each

theorem readItems_gives (items : List Node) :
    Gives (List.Forall₂ R items) (readItems read items) := by
  induction items with
  | nil => exact .pure .nil
  | cons item rest ih =>
    exact (each item).bind fun value first => ih.bind fun values others =>
      .pure (.cons first others)

/-- After the entries already read there is one pair for each entry. -/
theorem readEntries_gives (entries : List (Node × Node)) {done : List (Value × Value)}
    (differ : Value.KeysDiffer done) :
    Gives (fun all => ∃ pairs, all = done ++ pairs ∧ Value.KeysDiffer all ∧
        List.Forall₂ R (entries.map Prod.fst) (pairs.map Prod.fst) ∧
        List.Forall₂ R (entries.map Prod.snd) (pairs.map Prod.snd))
      (readEntries read done entries) := by
  induction entries generalizing done with
  | nil => exact .pure ⟨[], (List.append_nil done).symm, differ, .nil, .nil⟩
  | cons entry rest ih =>
    obtain ⟨written, content⟩ := entry
    refine (each written).bind fun key named => ?_
    split
    · exact .failure
    · rename_i new
      refine (each content).bind fun value held left all after ran => ?_
      obtain ⟨pairs, joined, unlike, keys, values⟩ :=
        ih (Value.keysDiffer_snoc differ (Bool.not_eq_true _ ▸ new)) left all after ran
      exact ⟨(key, value) :: pairs, by simpa using joined, unlike, .cons named keys,
        .cons held values⟩

end

theorem readContent_gives (composes : Compositional table R)
    {inner : Option (Node → Reading Value)}
    (each : ∀ read, inner = some read → ∀ node, Gives (R node) (read node)) (node : Node) :
    Gives (R node) (readContent inner node) := by
  match node with
  | .alias number => exact .failure
  | .scalar p text style =>
    refine .lift fun value read => ?_
    obtain ⟨s, form, rfl⟩ := Option.map_eq_some_iff.mp read
    exact composes.scalar form
  | .sequence p items =>
    cases inner with
    | none => exact Gives.bind (P := fun _ => False) .failure fun _ none => none.elim
    | some read =>
      exact (readItems_gives (each read rfl) items).bind fun values held =>
        .pure (composes.sequence held)
  | .mapping p entries =>
    cases inner with
    | none => exact Gives.bind (P := fun _ => False) .failure fun _ none => none.elim
    | some read =>
      refine (readEntries_gives (each read rfl) entries .nil).bind fun all found => .pure ?_
      obtain ⟨pairs, rfl, differ, keys, values⟩ := found
      exact composes.mapping keys values differ

/-- An alias is replaced by a node that is read like any other at its place. -/
theorem replaced_gives (composes : Compositional table R) {inner : Option (Node → Reading Value)}
    (each : ∀ read, inner = some read → ∀ node, Gives (R node) (read node)) (number : Nat) :
    Gives (R (.alias number))
      (replaceAlias table number >>= fun target => readContent inner target) := by
  have named : Gives (fun target => table.lookup number = some target)
      (replaceAlias table number) := by
    intro left target after ran
    unfold replaceAlias at ran
    split at ran
    · rename_i found
      cases ran
      exact found
    · cases ran
  refine named.bind fun target found left value after ran => ?_
  exact composes.replaced found (readContent_gives composes each target left value after ran)

theorem read_gives (composes : Compositional table R) (depth : Nat) (node : Node) :
    Gives (R node) (read table depth node) := by
  induction depth generalizing node with
  | zero =>
    have each : ∀ inner : Node → Reading Value, none = some inner →
        ∀ node, Gives (R node) (inner node) := by
      intro inner same
      contradiction
    unfold read
    dsimp only
    split
    · exact replaced_gives composes each _
    · exact readContent_gives composes each _
  | succ depth ih =>
    have each : ∀ inner, some (read table depth) = some inner →
        ∀ node, Gives (R node) (inner node) := by
      rintro inner ⟨⟩
      exact ih
    unfold read
    dsimp only
    split
    · exact replaced_gives composes each _
    · exact readContent_gives composes each _

end

/-- What composes along nodes holds between a root and its value. -/
theorem value?_gives {root : Node} {R : Node → Value → Prop}
    (composes : Compositional root.anchorTable R) (read : root.value? = some value) :
    R root value := by
  obtain ⟨⟨found, left⟩, ran, rfl⟩ := Option.map_eq_some_iff.mp read
  exact read_gives composes _ root _ found left ran

/-- The value that a node stands for, by the anchors of its document. -/
inductive Denotes (table : List (Nat × Node)) : Node → Value → Prop
  | alias : table.lookup number = some target → Denotes table target value →
      Denotes table (.alias number) value
  | scalar : scalar? p text style = some s →
      Denotes table (.scalar p text style) (applyTag p (.scalar s))
  | sequence : List.Forall₂ (Denotes table) items values →
      Denotes table (.sequence p items) (applyTag p (.sequence values))
  | mapping {entries : List (Node × Node)} {pairs : List (Value × Value)} :
      List.Forall₂ (Denotes table) (entries.map Prod.fst) (pairs.map Prod.fst) →
      List.Forall₂ (Denotes table) (entries.map Prod.snd) (pairs.map Prod.snd) →
      Value.KeysDiffer pairs → Denotes table (.mapping p entries) (applyTag p (.mapping pairs))

theorem denotes_compositional (table : List (Nat × Node)) : Compositional table (Denotes table) :=
  ⟨.alias, .scalar, .sequence, .mapping⟩

theorem value?_denotes {root : Node} (read : root.value? = some value) :
    Denotes root.anchorTable root value :=
  value?_gives (denotes_compositional _) read

end Node
end LoadPlan.Yaml
