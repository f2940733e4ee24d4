import LoadPlan.Proofs.Xml.Character
import Mathlib.Data.List.Induction

/-! Elements as they are built, by any sequence of calls, of tags with proper names. An element keeps
its tag whatever is put into it, children go after those that are there, and no element is built
that has a place for children and none in it. -/
namespace LoadPlan.Xml

namespace Element

@[simp] theorem tag_child (e child : Element) : (e.child child).tag = e.tag := rfl

@[simp] theorem children_child (e child : Element) :
    (e.child child).children = e.children ++ [child] := rfl

theorem withChildren_cons (e child : Element) (children : List Element) :
    e.withChildren (child :: children) = (e.child child).withChildren children := rfl

@[simp] theorem tag_withChildren (e : Element) (children : List Element) :
    (e.withChildren children).tag = e.tag := by
  induction children generalizing e with
  | nil => rfl
  | cons child rest ih => rw [withChildren_cons, ih, tag_child]

@[simp] theorem children_withChildren (e : Element) (children : List Element) :
    (e.withChildren children).children = e.children ++ children := by
  induction children generalizing e with
  | nil => exact (List.append_nil _).symm
  | cons child rest ih => rw [withChildren_cons, ih, children_child, List.append_assoc]; rfl

/-- With a child given, all children are in one list, whatever the element held before. -/
theorem withChildren_eq_parent (e child : Element) (children : List Element) :
    e.withChildren (child :: children) = parent e.tag (e.children ++ child :: children) := by
  induction children generalizing e child with
  | nil => rfl
  | cons next rest ih =>
    rw [withChildren_cons, ih, tag_child, children_child, List.append_assoc]
    rfl

end Element

/-- Elements that some sequence of calls builds. -/
inductive Built : Element → Prop
  | named (name : String) : Built (.named name)
  | attr (built : Built e) (name value : String) : Built (e.attr name value)
  | withText (built : Built e) (content : String) : Built (e.withText content)
  | child (built : Built e) (inner : Built part) : Built (e.child part)
  | withChildren (built : Built e) (inner : ∀ part ∈ parts, Built part) : Built (e.withChildren parts)

/-- No element holds an empty list of children, at any depth. -/
inductive Filled : Element → Prop
  | bare : Filled (.bare tag)
  | text : Filled (.text tag content)
  | parent (some : children ≠ []) (inner : ∀ child ∈ children, Filled child) :
      Filled (.parent tag children)

namespace Filled

theorem inner (filled : Filled e) : ∀ child ∈ e.children, Filled child := by
  cases filled with
  | bare | text => exact fun _ => (nomatch ·)
  | parent _ inner => exact inner

theorem child (filled : Filled e) (added : Filled part) : Filled (e.child part) := by
  refine .parent (List.append_ne_nil_of_right_ne_nil _ (List.cons_ne_nil part [])) ?_
  intro child member
  rcases List.mem_append.mp member with before | last
  · exact filled.inner child before
  · cases List.mem_singleton.mp last
    exact added

theorem withChildren (filled : Filled e) (added : ∀ part ∈ parts, Filled part) :
    Filled (e.withChildren parts) := by
  induction parts generalizing e with
  | nil => exact filled
  | cons first rest ih =>
    have head := added first List.mem_cons_self
    exact ih (filled.child head) fun part member => added part (List.mem_cons_of_mem _ member)

end Filled

theorem Built.filled (built : Built e) : Filled e := by
  induction built with
  | named => exact .bare
  | attr _ _ _ filled =>
    cases filled with
    | bare => exact .bare
    | text => exact .text
    | parent some inner => exact .parent some inner
  | withText => exact .text
  | child _ _ filled added => exact filled.child added
  | withChildren _ _ filled added => exact filled.withChildren added

/-- A tag with proper names, none of them given to two attributes. -/
structure Tag.WellNamed (tag : Tag) : Prop where
  name : isName tag.name
  attributes : ∀ pair ∈ tag.attributes, isName pair.1
  distinct : (tag.attributes.map Prod.fst).Nodup

/-- All tags of an element are well named. -/
inductive WellNamed : Element → Prop
  | bare (named : tag.WellNamed) : WellNamed (.bare tag)
  | text (named : tag.WellNamed) : WellNamed (.text tag content)
  | parent (named : tag.WellNamed) (inner : ∀ child ∈ children, WellNamed child) :
      WellNamed (.parent tag children)

/-- Elements of well-named tags that some sequence of calls builds. -/
structure Proper (e : Element) : Prop where
  built : Built e
  named : WellNamed e

theorem wellNamed_of_names (names : List String) (named : isName name)
    (same : attributes.map Prod.fst = names) (each : ∀ name ∈ names, isName name)
    (distinct : names.Nodup) : (Tag.mk name attributes).WellNamed where
  name := named
  attributes pair member := each pair.1 (same ▸ List.mem_map_of_mem member)
  distinct := same ▸ distinct

section
variable {tag : Tag}

theorem built_bare (tag : Tag) : Built (.bare tag) := by
  obtain ⟨name, attributes⟩ := tag
  induction attributes using List.reverseRecOn with
  | nil => exact .named name
  | append_singleton before last ih => exact ih.attr last.1 last.2

theorem proper_text (named : tag.WellNamed) (content : String) : Proper (.text tag content) :=
  ⟨(built_bare tag).withText content, .text named⟩

theorem proper_withChildren {parts : List Element} (named : tag.WellNamed)
    (inner : ∀ part ∈ parts, Proper part) : Proper ((Element.bare tag).withChildren parts) := by
  refine ⟨(built_bare tag).withChildren fun part member => (inner part member).built, ?_⟩
  cases parts with
  | nil => exact .bare named
  | cons first rest =>
    rw [Element.withChildren_eq_parent]
    exact .parent named fun part member => (inner part member).named

theorem proper_parent {parts : List Element} (named : tag.WellNamed) (some : parts ≠ [])
    (inner : ∀ part ∈ parts, Proper part) : Proper (.parent tag parts) := by
  cases parts with
  | nil => contradiction
  | cons first rest =>
    have proper := proper_withChildren named inner
    rwa [Element.withChildren_eq_parent] at proper

end

end LoadPlan.Xml
