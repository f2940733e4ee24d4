import LoadPlan.Proofs.Xml.Built
import LoadPlan.Proofs.Xml.Escaping

/-! Reading back what is written. While an element is read its tag, its text and its children are
gathered as they were, so that the reader ends with the element and white space around it. -/
namespace LoadPlan.Xml

/-- What a value keeps when it is written. -/
def carriedText (value : String) : String := String.ofList (value.toList.filter isAllowed)

theorem carriedText_append (a b : String) :
    carriedText (a ++ b) = carriedText a ++ carriedText b := by
  simp [carriedText, String.ofList_append]

theorem carriedText_allowed (allowed : Allowed text) : carriedText text = text := by
  rw [carriedText, List.filter_eq_self.mpr (allowed_iff.mp allowed), String.ofList_toList]

theorem carriedText_intercalate {separator : String} (allowed : Allowed separator)
    (texts : List String) : carriedText (separator.intercalate texts) =
      separator.intercalate (texts.map carriedText) := by
  induction texts with
  | nil => rfl
  | cons text rest ih =>
    cases rest with
    | nil => simp [String.intercalate_singleton]
    | cons next rest =>
      rw [List.map_cons, List.map_cons, String.intercalate_cons_cons, String.intercalate_cons_cons,
        carriedText_append, carriedText_append, carriedText_allowed allowed, ih, List.map_cons]

def carriedPair (pair : String × String) : String × String := (pair.1, carriedText pair.2)

def Tag.carried (tag : Tag) : Tag := { tag with attributes := tag.attributes.map carriedPair }

namespace Element

mutual
/-- The same element, with what its values and texts keep. -/
def carried : Element → Element
  | bare tag => bare tag.carried
  | text tag content => text tag.carried (carriedText content)
  | parent tag children => parent tag.carried (carriedAll children)

def carriedAll : List Element → List Element
  | [] => []
  | child :: rest => carried child :: carriedAll rest
end

@[simp] theorem carriedAll_eq (es : List Element) : carriedAll es = es.map carried := by
  induction es with
  | nil => rfl
  | cons e rest ih => rw [carriedAll, ih, List.map_cons]

@[simp] theorem name_carried (e : Element) : e.carried.name = e.name := by
  cases e <;> rfl

@[simp] theorem children_carried (e : Element) : e.carried.children = e.children.map carried := by
  cases e with
  | bare | text => rfl
  | parent tag children => exact carriedAll_eq children

end Element

theorem mem_indent (member : c ∈ (indent depth).toList) : c = ' ' := by
  rw [indent, String.toList_ofList] at member
  exact List.eq_of_mem_replicate member

/-- Nothing but white space. -/
def Blank (cs : List Char) : Prop := ∀ c ∈ cs, isSpace c

namespace Blank

theorem newline : Blank ['\n'] := by
  intro c member
  cases List.mem_singleton.mp member
  rfl

theorem append (left : Blank cs) (right : Blank ds) : Blank (cs ++ ds) :=
  fun c member => (List.mem_append.mp member).elim (left c) (right c)

theorem append_indent (blank : Blank cs) (depth : Nat) : Blank (cs ++ (indent depth).toList) := by
  refine blank.append fun c member => ?_
  rw [mem_indent member]
  rfl

theorem unescape? (blank : Blank cs) : unescape? cs = some cs := by
  induction cs with
  | nil => rfl
  | cons c rest ih =>
    have plain : (c == '&') = false := by
      rw [beq_eq_false_iff_ne]
      rintro rfl
      exact absurd (blank '&' List.mem_cons_self) (by decide)
    have later := ih fun c member => blank c (List.mem_cons_of_mem _ member)
    rw [Xml.unescape?] at later ⊢
    simp [unescapeFrom?, plain, later]

end Blank

namespace Reading

theorem run?_append (reading : Reading) (front back : List Char) :
    reading.run? (front ++ back) = (reading.run? front).bind (·.run? back) := by
  induction front generalizing reading with
  | nil => rfl
  | cons c front ih =>
    simp only [List.cons_append, run?]
    cases reading.step? c with
    | none => rfl
    | some next => exact ih next

theorem run?_through {reading : Reading} (first : reading.run? front = some middle)
    (back : List Char) : reading.run? (front ++ back) = middle.run? back := by
  rw [run?_append, first, Option.bind_some]

section
variable {b : Builder} {cs : List Char}

/-- Characters that a mode takes in are gathered in their order. -/
theorem run?_gather (mode : List Char → Mode)
    (stays : ∀ c ∈ cs, ∀ raw, step? ⟨b, mode raw⟩ c = some ⟨b, mode (raw ++ [c])⟩) (raw : List Char) :
    run? ⟨b, mode raw⟩ cs = some ⟨b, mode (raw ++ cs)⟩ := by
  induction cs generalizing raw with
  | nil => rw [run?, List.append_nil]
  | cons c rest ih =>
    have later := ih (fun c member => stays c (List.mem_cons_of_mem _ member)) (raw ++ [c])
    rw [run?, stays c List.mem_cons_self, Option.bind_some, later, List.append_assoc]
    rfl

theorem run?_content (text : ∀ c ∈ cs, c ≠ '<') (raw : List Char) :
    run? ⟨b, .content raw⟩ cs = some ⟨b, .content (raw ++ cs)⟩ := by
  refine run?_gather .content (fun c member raw => ?_) raw
  have inside : (c == '<') = false := beq_eq_false_iff_ne.mpr (text c member)
  simp [step?, inside]

theorem run?_value {tag : Tag} {name : String} (text : ∀ c ∈ cs, c ≠ '<' ∧ c ≠ '"') :
    run? ⟨b, .value tag name '"' []⟩ cs = some ⟨b, .value tag name '"' cs⟩ := by
  refine run?_gather (.value tag name '"') (fun c member raw => ?_) []
  have inside : (c == '<') = false := beq_eq_false_iff_ne.mpr (text c member).1
  have unquoted : (c == '"') = false := beq_eq_false_iff_ne.mpr (text c member).2
  simp [step?, inside, unquoted]

/-- A name is gathered whole from where its first character may stand. -/
theorem run?_name {before : Mode} {name : String} (mode : List Char → Mode) (named : isName name)
    (starts : ∀ c, isNameStart c → step? ⟨b, before⟩ c = some ⟨b, mode [c]⟩)
    (stays : ∀ c, isNameChar c → ∀ raw, step? ⟨b, mode raw⟩ c = some ⟨b, mode (raw ++ [c])⟩) :
    run? ⟨b, before⟩ name.toList = some ⟨b, mode name.toList⟩ := by
  unfold isName at named
  generalize name.toList = cs at named ⊢
  cases cs with
  | nil => contradiction
  | cons first rest =>
    obtain ⟨start, more⟩ := Bool.and_eq_true_iff.mp named
    rw [run?, starts first start]
    exact run?_gather mode (fun c member => stays c (List.all_eq_true.mp more c member)) [first]

variable {name : String} (named : isName name)
include named

theorem run?_tagName : run? ⟨b, .opened⟩ name.toList = some ⟨b, .tagName name.toList⟩ := by
  refine run?_name .tagName named (fun c start => ?_) fun c more raw => by simp [step?, more]
  have other : (c == '/') = false := by
    rw [beq_eq_false_iff_ne]
    rintro rfl
    contradiction
  simp [step?, other, start]

theorem run?_attributeName (tag : Tag) :
    run? ⟨b, .inTag tag⟩ name.toList = some ⟨b, .attributeName tag name.toList⟩ :=
  run?_name (.attributeName tag) named (fun c start => by simp [step?, start])
    fun c more raw => by simp [step?, more]

theorem run?_endName : run? ⟨b, .closing⟩ name.toList = some ⟨b, .endName name.toList⟩ :=
  run?_name .endName named (fun c start => by simp [step?, start])
    fun c more raw => by simp [step?, more]

end

theorem run?_indent (depth : Nat) (raw : List Char) :
    run? ⟨b, .content raw⟩ (indent depth).toList =
      some ⟨b, .content (raw ++ (indent depth).toList)⟩ := by
  refine run?_content (fun c member => ?_) raw
  rw [mem_indent member]
  decide

/-- A tag has been read so far, and can go on or end. -/
def Tagged (b : Builder) (tag : Tag) (reading : Reading) : Prop :=
  ∀ c, isNameChar c = false → reading.step? c = goOn? b tag c

theorem tagged_tagName (b : Builder) (name : String) :
    Tagged b ⟨name, []⟩ ⟨b, .tagName name.toList⟩ := by
  intro c other
  simp [step?, other]

theorem tagged_valued (b : Builder) (tag : Tag) : Tagged b tag ⟨b, .valued tag⟩ := fun _ _ => rfl

theorem run?_attribute {reading : Reading} {pair : String × String} (tagged : Tagged b tag reading)
    (named : isName pair.1) (new : pair.1 ∉ tag.attributes.map Prod.fst) :
    reading.run? (attributeText pair).toList =
      some ⟨b, .valued { tag with attributes := tag.attributes ++ [carriedPair pair] }⟩ := by
  have safe : ∀ c ∈ (escape pair.2).toList, c ≠ '<' ∧ c ≠ '"' :=
    fun c member => (mem_escape member).2
  have layout : (attributeText pair).toList =
      [' '] ++ (pair.1.toList ++ (['=', '"'] ++ ((escape pair.2).toList ++ ['"']))) := by
    simp [attributeText]
  have space : reading.run? [' '] = some ⟨b, .inTag tag⟩ := by
    rw [run?, tagged ' ' (by decide)]
    rfl
  have assigned : run? ⟨b, .attributeName tag pair.1.toList⟩ ['=', '"'] =
      some ⟨b, .value tag pair.1 '"' []⟩ := by
    simp [run?, step?, assign?, show isNameChar '=' = false by decide]
  have ended : run? ⟨b, .value tag pair.1 '"' (escape pair.2).toList⟩ ['"'] =
      some ⟨b, .valued { tag with attributes := tag.attributes ++ [carriedPair pair] }⟩ := by
    have fresh : (tag.attributes.map Prod.fst).contains pair.1 = false := by simpa using new
    simp only [run?, step?, endValue?, fresh, unescape?_escape]
    rfl
  rw [layout, run?_through space, run?_through (run?_attributeName named tag), run?_through assigned,
    run?_through (run?_value safe), ended]

theorem run?_attributes {reading : Reading} {pairs : List (String × String)}
    (tagged : Tagged b tag reading) (named : ∀ pair ∈ pairs, isName pair.1)
    (distinct : ((tag.attributes ++ pairs).map Prod.fst).Nodup) :
    ∃ after, reading.run? (String.join (pairs.map attributeText)).toList = some after ∧
      Tagged b { tag with attributes := tag.attributes ++ pairs.map carriedPair } after := by
  induction pairs generalizing reading tag with
  | nil => exact ⟨reading, rfl, by simpa using tagged⟩
  | cons pair rest ih =>
    -- The reader refuses a name that it has met in this tag.
    have here := run?_attribute tagged (named pair List.mem_cons_self) <| by
      rw [List.map_append, List.map_cons, List.nodup_append] at distinct
      exact fun known => distinct.2.2 _ known _ List.mem_cons_self rfl
    have rejoined : ((tag.attributes ++ [carriedPair pair] ++ rest).map Prod.fst).Nodup := by
      simpa [carriedPair] using distinct
    obtain ⟨after, later, tagged⟩ := ih
      (tagged_valued b { tag with attributes := tag.attributes ++ [carriedPair pair] })
      (fun pair member => named pair (List.mem_cons_of_mem _ member)) rejoined
    refine ⟨after, ?_, by simpa using tagged⟩
    rw [List.map_cons, String.join_cons, String.toList_append, run?_through here, later]

theorem run?_startText {tag : Tag} (named : tag.WellNamed) (undone : unescape? raw = some cs) :
    ∃ after, run? ⟨b, .content raw⟩ (startText tag).toList = some after ∧
      Tagged (b.addText cs) tag.carried after := by
  obtain ⟨after, attributes, tagged⟩ := run?_attributes (tagged_tagName (b.addText cs) tag.name)
    named.attributes (by simpa using named.distinct)
  refine ⟨after, ?_, by simpa [Tag.carried] using tagged⟩
  have layout : (startText tag).toList =
      ['<'] ++ (tag.name.toList ++ (String.join (tag.attributes.map attributeText)).toList) := by
    simp [startText]
  have opened : run? ⟨b, .content raw⟩ ['<'] = some ⟨b.addText cs, .opened⟩ := by
    simp [run?, step?, undone]
  rw [layout, run?_through opened, run?_through (run?_tagName named.name), attributes]

theorem run?_endText {tag : Tag} (named : isName tag.name) (undone : unescape? raw = some cs)
    (closed : (b.addText cs).close? tag.name = some after) :
    run? ⟨b, .content raw⟩ (endText tag).toList = some ⟨after, .content ['\n']⟩ := by
  have layout : (endText tag).toList = ['<', '/'] ++ (tag.name.toList ++ ['>', '\n']) := by
    simp [endText]
  have opened : run? ⟨b, .content raw⟩ ['<', '/'] = some ⟨b.addText cs, .closing⟩ := by
    simp [run?, step?, undone]
  have ended : run? ⟨b.addText cs, .endName tag.name.toList⟩ ['>', '\n'] =
      some ⟨after, .content ['\n']⟩ := by
    simp [run?, step?, close?, show isNameChar '>' = false by decide, closed]
  rw [layout, run?_through opened, run?_through (run?_endName named), ended]

/-- A reading in content has the elements added, and more white space than before. -/
def Adds (b : Builder) (es : List Element) (after : Reading) : Prop :=
  ∃ spaces raw, Blank spaces ∧ Blank raw ∧
    after = ⟨⟨⟨b.level.text ++ spaces, b.level.children ++ es⟩, b.outer⟩, .content raw⟩

/-- An element is read where it stands on lines of its own. -/
def Reads (e : Element) : Prop :=
  ∀ depth b raw, Blank raw →
    ∃ after, run? ⟨b, .content raw⟩ (e.render depth).toList = some after ∧ Adds b [e.carried] after

section
variable {tag : Tag} (named : tag.WellNamed)
include named

theorem reads_bare : Reads (.bare tag) := by
  intro depth b raw blank
  have before := blank.append_indent depth
  obtain ⟨after, started, tagged⟩ := run?_startText (b := b) named before.unescape?
  have layout : ((Element.bare tag).render depth).toList =
      (indent depth).toList ++ ((startText tag).toList ++ ['/', '>', '\n']) := by
    simp [Element.render]
  have ended : after.run? ['/', '>', '\n'] =
      some ⟨(b.addText (raw ++ (indent depth).toList)).add (.bare tag.carried), .content ['\n']⟩ := by
    rw [run?, tagged '/' (by decide)]
    rfl
  rw [layout, run?_through (run?_indent depth raw), run?_through started, ended]
  exact ⟨_, rfl, _, _, before, Blank.newline, rfl⟩

theorem run?_open (depth : Nat) (b : Builder) (blank : Blank raw) :
    run? ⟨b, .content raw⟩ ((indent depth).toList ++ ((startText tag).toList ++ ['>'])) =
      some ⟨(b.addText (raw ++ (indent depth).toList)).start tag.carried, .content []⟩ := by
  obtain ⟨after, started, tagged⟩ :=
    run?_startText (b := b) named (blank.append_indent depth).unescape?
  rw [run?_through (run?_indent depth raw), run?_through started, run?, tagged '>' (by decide)]
  rfl

theorem reads_text (content : String) : Reads (.text tag content) := by
  intro depth b raw blank
  have safe : ∀ c ∈ (escape content).toList, c ≠ '<' := fun c member => (mem_escape member).2.1
  have layout : ((Element.text tag content).render depth).toList =
      ((indent depth).toList ++ ((startText tag).toList ++ ['>'])) ++
        ((escape content).toList ++ (endText tag).toList) := by
    simp [Element.render]
  -- Nothing is read between the tags but the text, be it empty.
  have closed : (((b.addText (raw ++ (indent depth).toList)).start tag.carried).addText
      (content.toList.filter isAllowed)).close? tag.name =
        some ((b.addText (raw ++ (indent depth).toList)).add (Element.text tag content).carried) := by
    simp [Builder.close?, Builder.start, Builder.addText, Builder.add, Level.close?, Level.addText,
      Level.add, Level.empty, Tag.carried, Element.carried, carriedText]
  rw [layout, run?_through (run?_open named depth b blank), run?_through (run?_content safe []),
    List.nil_append, run?_endText named.name (unescape?_escape content) closed]
  exact ⟨_, rfl, _, _, blank.append_indent depth, Blank.newline, rfl⟩

end

theorem run?_renderAll {children : List Element} (each : ∀ child ∈ children, Reads child)
    (depth : Nat) (b : Builder) (blank : Blank raw) :
    ∃ after, run? ⟨b, .content raw⟩ (Element.renderAll depth children).toList = some after ∧
      Adds b (Element.carriedAll children) after := by
  -- White space before a child is on the level already when the next child is read.
  induction children generalizing b raw with
  | nil =>
    refine ⟨_, rfl, [], raw, fun _ => (nomatch ·), blank, ?_⟩
    simp [Element.carriedAll]
  | cons child rest ih =>
    obtain ⟨_, first, spaces, between, blanks, gap, rfl⟩ :=
      each child List.mem_cons_self depth b raw blank
    obtain ⟨after, later, more, last, blanks', gap', rfl⟩ :=
      ih (fun child member => each child (List.mem_cons_of_mem _ member))
        ⟨⟨b.level.text ++ spaces, b.level.children ++ [child.carried]⟩, b.outer⟩ gap
    refine ⟨_, ?_, spaces ++ more, last, blanks.append blanks', gap', rfl⟩
    rw [Element.renderAll, String.toList_append, run?_through first, later]
    simp [Element.carriedAll]

theorem reads_parent {tag : Tag} {children : List Element} (named : tag.WellNamed)
    (filled : children ≠ []) (each : ∀ child ∈ children, Reads child) :
    Reads (.parent tag children) := by
  intro depth b raw blank
  have layout : ((Element.parent tag children).render depth).toList =
      ((indent depth).toList ++ ((startText tag).toList ++ ['>'])) ++ (['\n'] ++
        ((Element.renderAll (depth + 1) children).toList ++
          ((indent depth).toList ++ (endText tag).toList))) := by
    simp [Element.render]
  have newline : run? ⟨(b.addText (raw ++ (indent depth).toList)).start tag.carried, .content []⟩
      ['\n'] = some ⟨(b.addText (raw ++ (indent depth).toList)).start tag.carried, .content ['\n']⟩ :=
    rfl
  obtain ⟨_, inside, spaces, last, blanks, gap, rfl⟩ := run?_renderAll each (depth + 1)
    ((b.addText (raw ++ (indent depth).toList)).start tag.carried) Blank.newline
  -- White space is all the text between the tags, so the children are what the element has.
  have after := gap.append_indent depth
  have whole : (spaces ++ (last ++ (indent depth).toList)).all isSpace :=
    List.all_eq_true.mpr (blanks.append after)
  have some : (Element.carriedAll children).isEmpty = false := by
    cases children with
    | nil => contradiction
    | cons => rfl
  rw [layout, run?_through (run?_open named depth b blank), run?_through newline, run?_through inside,
    run?_through (run?_indent depth last), run?_endText named.name after.unescape?]
  · exact ⟨_, rfl, _, _, blank.append_indent depth, Blank.newline, rfl⟩
  · simp only [Builder.close?, Builder.start, Builder.addText, Level.close?, Level.addText, Level.empty,
      Level.add, Tag.carried, List.nil_append, some, whole, beq_self_eq_true, if_true,
      Bool.false_eq_true, if_false, Option.map_some]
    rfl

theorem reads_of_filled (named : WellNamed e) (filled : Filled e) : Reads e := by
  induction named with
  | bare named => exact reads_bare named
  | text named => exact reads_text named _
  | parent named _ ih =>
    cases filled with
    | parent some inner =>
      exact reads_parent named some fun child member => ih child member (inner child member)

end Reading

open Reading

theorem allowed_startText {tag : Tag} (named : tag.WellNamed) : Allowed (startText tag) := by
  have pairs : ∀ pair ∈ tag.attributes, Allowed (attributeText pair) := by
    intro pair member
    simp only [attributeText, allowed_append]
    exact ⟨⟨⟨⟨by decide, allowed_name (named.attributes pair member)⟩, by decide⟩, allowed_escape _⟩,
      by decide⟩
  refine allowed_append.mpr ⟨allowed_append.mpr ⟨by decide, allowed_name named.name⟩, ?_⟩
  refine allowed_iff.mpr fun c member => ?_
  rw [String.toList_join, List.mem_flatMap] at member
  obtain ⟨text, among, member⟩ := member
  obtain ⟨pair, known, rfl⟩ := List.mem_map.mp among
  exact allowed_iff.mp (pairs pair known) c member

theorem allowed_endText {tag : Tag} (named : tag.WellNamed) : Allowed (endText tag) :=
  allowed_append.mpr ⟨allowed_append.mpr ⟨by decide, allowed_name named.name⟩, by decide⟩

theorem allowed_indent (depth : Nat) : Allowed (indent depth) := by
  refine allowed_iff.mpr fun c member => ?_
  rw [mem_indent member]
  decide

theorem allowed_renderAll {children : List Element}
    (each : ∀ child ∈ children, ∀ depth, Allowed (child.render depth)) (depth : Nat) :
    Allowed (Element.renderAll depth children) := by
  induction children with
  | nil => rfl
  | cons child rest ih =>
    rw [Element.renderAll, allowed_append]
    exact ⟨each child List.mem_cons_self depth,
      ih fun child member => each child (List.mem_cons_of_mem _ member)⟩

theorem allowed_render (named : WellNamed e) (depth : Nat) : Allowed (e.render depth) := by
  induction named generalizing depth with
  | bare named =>
    simp only [Element.render, allowed_append]
    exact ⟨⟨allowed_indent depth, allowed_startText named⟩, by decide⟩
  | text named =>
    simp only [Element.render, allowed_append]
    exact ⟨⟨⟨⟨allowed_indent depth, allowed_startText named⟩, by decide⟩, allowed_escape _⟩,
      allowed_endText named⟩
  | parent named _ ih =>
    simp only [Element.render, allowed_append]
    exact ⟨⟨⟨⟨⟨allowed_indent depth, allowed_startText named⟩, by decide⟩,
      allowed_renderAll ih (depth + 1)⟩, allowed_indent depth⟩, allowed_endText named⟩

theorem read?_render (named : WellNamed e) (filled : Filled e) (depth : Nat) :
    read? (e.render depth) = some e.carried := by
  obtain ⟨_, read, spaces, raw, blanks, blank, rfl⟩ :=
    reads_of_filled named filled depth ⟨.empty, []⟩ [] fun _ => (nomatch ·)
  have allowed : (e.render depth).toList.all isAllowed := allowed_render named depth
  have whole : (spaces ++ raw).all isSpace := List.all_eq_true.mpr (blanks.append blank)
  rw [read?, if_pos allowed, read, Option.bind_some]
  simp only [finish?, blank.unescape?, Option.bind_some, Builder.finish?, Builder.addText,
    Level.addText, Level.empty, List.nil_append, whole, if_true]

/-- What is written of an element has only allowed characters, and reads back. -/
theorem Proper.reads_back (proper : Proper e) (depth : Nat) :
    Allowed (e.render depth) ∧ read? (e.render depth) = some e.carried :=
  ⟨allowed_render proper.named depth, read?_render proper.named proper.built.filled depth⟩

/-- What stands before the element of a document. -/
def declaration : String := "<?xml version=\"1.0\" encoding=\"UTF-8\"?>\n"

def readDocument? (text : String) : Option Element :=
  if declaration.toList <+: text.toList then
    read? (String.ofList (text.toList.drop declaration.toList.length))
  else none

theorem Proper.readDocument?_document (proper : Proper e) :
    readDocument? e.document = some e.carried := by
  have text : e.document.toList = declaration.toList ++ (e.render 0).toList :=
    String.toList_append
  rw [readDocument?, text, if_pos (List.prefix_append _ _), List.drop_left, String.ofList_toList,
    (proper.reads_back 0).2]

/-- Elements that are written alike are alike in all that is written of them. -/
theorem Proper.carried_eq (proper : Proper e) (other : Proper f)
    (same : e.render depth = f.render depth') : e.carried = f.carried := by
  have read := (proper.reads_back depth).2
  rw [same, (other.reads_back depth').2] at read
  exact (Option.some.inj read).symm

end LoadPlan.Xml
