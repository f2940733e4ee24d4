import LoadPlan.Proofs.Xml.RoundTrip

/-! What a standard reader makes of the values that are written. Before all else it reads each end of
a line as a line feed, then white space in the values of attributes as spaces, and only then undoes
entities. Nothing that is written has references but to the five entities, so a text loses its
carriage returns on the way and the value of an attribute all white space but spaces. -/
namespace LoadPlan.Xml

/-- Lines end in a carriage return, a line feed, or both; each end is read as a line feed. -/
def lineEnds : List Char → List Char
  | '\r' :: '\n' :: rest => '\n' :: lineEnds rest
  | '\r' :: rest => '\n' :: lineEnds rest
  | c :: rest => c :: lineEnds rest
  | [] => []

/-- White space of any kind as a space. -/
def flat (c : Char) : Char := if isSpace c then ' ' else c

/-- Where in a text of elements a character stands. -/
inductive Place where
  | content
  | tag
  | value (quote : Char)
  deriving DecidableEq

namespace Place

def next : Place → Char → Place
  | content, c => if c == '<' then tag else content
  | tag, c => if c == '"' || c == '\'' then value c else if c == '>' then content else tag
  | value quote, c => if c == quote then tag else value quote

def shown : Place → Char → Char
  | value _, c => flat c
  | _, c => c

end Place

/-- A text with spaces for all white space in the values of attributes. -/
def spaced (place : Place) : List Char → List Char
  | [] => []
  | c :: rest => place.shown c :: spaced (place.next c) rest

/-- A text as it is before markup and entities are read. -/
def normalized (text : String) : String := String.ofList (spaced .content (lineEnds text.toList))

/-- What is read of a text that stands in an element. -/
def standardText (text : String) : String := String.ofList (lineEnds (text.toList.filter isAllowed))

/-- What is read of the value of an attribute. -/
def standardValue (value : String) : String :=
  String.ofList ((lineEnds (value.toList.filter isAllowed)).map flat)

def standardPair (pair : String × String) : String × String := (pair.1, standardValue pair.2)

def Tag.standard (tag : Tag) : Tag := { tag with attributes := tag.attributes.map standardPair }

namespace Element

mutual
/-- The same element, with what is read of its values and texts. -/
def standard : Element → Element
  | bare tag => bare tag.standard
  | text tag content => text tag.standard (standardText content)
  | parent tag children => parent tag.standard (standardAll children)

def standardAll : List Element → List Element
  | [] => []
  | child :: rest => standard child :: standardAll rest
end

@[simp] theorem standardAll_eq (es : List Element) : standardAll es = es.map standard := by
  induction es with
  | nil => rfl
  | cons e rest ih => rw [standardAll, ih, List.map_cons]

end Element

theorem lineEnds_append {front : List Char} (plain : '\r' ∉ front) (back : List Char) :
    lineEnds (front ++ back) = front ++ lineEnds back := by
  induction front with
  | nil => rfl
  | cons c rest ih =>
    obtain ⟨other, later⟩ := not_or.mp (mt List.mem_cons.mpr plain)
    rw [List.cons_append, lineEnds, ih later]
    · rfl
    · rintro - rfl
      contradiction
    · rintro rfl
      contradiction

theorem lineEnds_return {rest : List Char} (single : rest.head? ≠ some '\n') :
    lineEnds ('\r' :: rest) = '\n' :: lineEnds rest := by
  rw [lineEnds]
  rintro rest rfl
  exact single rfl

theorem space_cases {c : Char} (blank : isSpace c) : c = ' ' ∨ c = '\t' ∨ c = '\n' ∨ c = '\r' := by
  simpa [isSpace, or_assoc] using blank

/-- White space is not escaped, and there is none in what is written for anything else. -/
theorem eq_of_space {c d : Char} (member : d ∈ escapeChar c) (space : isSpace d) : d = c := by
  have solid : ∀ entry ∈ entities, ('&' :: entry.1 ++ [';']).all (! isSpace ·) := by decide
  have escapes := escapeChar_escapes c
  generalize escapeChar c = cs at escapes member
  cases escapes with
  | dropped => exact absurd member List.not_mem_nil
  | entity known => simpa [space] using List.all_eq_true.mp (solid _ known) d member
  | plain => exact List.mem_singleton.mp member

theorem escapeChar_flat (c : Char) : escapeChar (flat c) = (escapeChar c).map flat := by
  by_cases space : isSpace c
  · rcases space_cases space with rfl | rfl | rfl | rfl <;> rfl
  · have solid (d : Char) (member : d ∈ escapeChar c) : flat d = id d := by
      refine if_neg fun blank => space ?_
      rwa [← eq_of_space member blank]
    rw [List.map_congr_left solid, List.map_id, flat, if_neg space]

theorem flatMap_escapeChar_flat (cs : List Char) :
    (cs.map flat).flatMap escapeChar = (cs.flatMap escapeChar).map flat := by
  rw [List.flatMap_map, List.map_flatMap]
  exact congrArg cs.flatMap (funext escapeChar_flat)

/-- No escaped character begins with a line feed but the line feed. -/
theorem head?_escapeChar {c : Char} (allowed : isAllowed c) (other : c ≠ '\n') (back : List Char) :
    (escapeChar c ++ back).head? ≠ some '\n' := by
  have escapes := escapeChar_escapes c
  generalize escapeChar c = cs at escapes
  cases escapes with
  | dropped forbidden => simp [allowed] at forbidden
  | entity => simp
  | plain => simpa using other

/-- Line ends are the same whether they are looked for before or after a value is escaped. -/
theorem lineEnds_flatMap {cs : List Char} (allowed : ∀ c ∈ cs, isAllowed c) {mark : Char}
    (ending : ¬ isSpace mark) (back : List Char) :
    lineEnds (cs.flatMap escapeChar ++ mark :: back) =
      (lineEnds cs).flatMap escapeChar ++ mark :: lineEnds back := by
  have unlike (c : Char) (space : isSpace c) : mark ≠ c := fun same => ending (same ▸ space)
  fun_induction lineEnds cs with
  | case1 rest ih =>
    have later := ih fun c member => allowed c (List.mem_cons_of_mem _ (List.mem_cons_of_mem _ member))
    change lineEnds ('\r' :: '\n' :: (rest.flatMap escapeChar ++ mark :: back)) = _
    rw [lineEnds, later]
    rfl
  | case2 rest single ih =>
    have later := ih fun c member => allowed c (List.mem_cons_of_mem _ member)
    change lineEnds ('\r' :: (rest.flatMap escapeChar ++ mark :: back)) = _
    rw [lineEnds_return, later]
    · rfl
    · cases rest with
      | nil => simpa using unlike '\n' rfl
      | cons d rest =>
        have within := allowed d (List.mem_cons_of_mem _ List.mem_cons_self)
        rw [List.flatMap_cons, List.append_assoc]
        exact head?_escapeChar within (fun same => single rest (same ▸ rfl)) _
  | case3 c rest _ other ih =>
    have later := ih fun c member => allowed c (List.mem_cons_of_mem _ member)
    have plain : '\r' ∉ escapeChar c := fun member => other (eq_of_space member rfl).symm
    rw [List.flatMap_cons, List.flatMap_cons, List.append_assoc, lineEnds_append plain, later,
      List.append_assoc]
  | case4 =>
    have plain : '\r' ∉ [mark] := fun member => unlike '\r' rfl (List.mem_singleton.mp member).symm
    exact lineEnds_append plain back

/-- Only what is allowed matters for what is written. -/
theorem flatMap_escapeChar_filter (cs : List Char) :
    (cs.filter isAllowed).flatMap escapeChar = cs.flatMap escapeChar := by
  induction cs with
  | nil => rfl
  | cons c rest ih =>
    rw [List.filter_cons]
    split
    · rw [List.flatMap_cons, List.flatMap_cons, ih]
    · rename_i forbidden
      have dropped : escapeChar c = [] := by
        unfold escapeChar
        exact if_pos (by simpa [isAllowed_eq] using forbidden)
      rw [List.flatMap_cons, dropped, ih, List.nil_append]

theorem lineEnds_escape {mark : Char} (ending : ¬ isSpace mark) (value : String) (back : List Char) :
    lineEnds ((escape value).toList ++ mark :: back) =
      (escape (standardText value)).toList ++ mark :: lineEnds back := by
  have allowed : ∀ c ∈ value.toList.filter isAllowed, isAllowed c := fun _ member =>
    (List.mem_filter.mp member).2
  rw [escape, escape, standardText, String.toList_ofList, String.toList_ofList, String.toList_ofList,
    ← flatMap_escapeChar_filter value.toList, lineEnds_flatMap allowed ending]

theorem spaced_append (place : Place) (front back : List Char) :
    spaced place (front ++ back) =
      spaced place front ++ spaced (front.foldl Place.next place) back := by
  induction front generalizing place with
  | nil => rfl
  | cons c rest ih =>
    rw [List.cons_append, spaced, spaced, ih]
    rfl

theorem spaced_staying {place : Place} {cs : List Char} (stays : ∀ c ∈ cs, place.next c = place) :
    spaced place cs = cs.map place.shown ∧ cs.foldl Place.next place = place := by
  induction cs with
  | nil => exact ⟨rfl, rfl⟩
  | cons c rest ih =>
    obtain ⟨shown, last⟩ := ih fun c member => stays c (List.mem_cons_of_mem _ member)
    rw [spaced, List.foldl_cons, stays c List.mem_cons_self]
    exact ⟨congrArg (place.shown c :: ·) shown, last⟩

/-- From one place to another, a piece of a text is normalized so, whatever comes after it. -/
def Normalizes (before : Place) (piece result : List Char) (after : Place) : Prop :=
  ∀ back, spaced before (lineEnds (piece ++ back)) = result ++ spaced after (lineEnds back)

namespace Normalizes
variable {before middle after : Place}

theorem append (first : Normalizes before front front' middle)
    (second : Normalizes middle back back' after) :
    Normalizes before (front ++ back) (front' ++ back') after := by
  intro rest
  rw [List.append_assoc, first, second, List.append_assoc]

theorem nil : Normalizes before [] [] before := fun _ => rfl

/-- Markup has no carriage returns, and spaces alone in values. -/
theorem markup (fixed : '\r' ∉ cs ∧ spaced before cs = cs ∧ cs.foldl Place.next before = after) :
    Normalizes before cs cs after := by
  intro back
  obtain ⟨single, same, goes⟩ := fixed
  rw [lineEnds_append single, spaced_append, same, goes]

/-- Characters that stand in one place as they are. -/
theorem kept (each : ∀ c ∈ cs, c ≠ '\r' ∧ before.shown c = c ∧ before.next c = before) :
    Normalizes before cs cs before := by
  obtain ⟨shown, last⟩ := spaced_staying fun c member => (each c member).2.2
  refine markup ⟨fun member => (each _ member).1 rfl, ?_, last⟩
  rw [shown, List.map_congr_left fun c member => (each c member).2.1, List.map_id']

end Normalizes

/-- An escaped value is normalized up to the mark that ends it. -/
theorem normalizes_escape {place after : Place} {mark : Char} (ending : ¬ isSpace mark)
    (inside : ∀ value, ∀ c ∈ (escape value).toList, place.next c = place)
    (kept : place.shown mark = mark) (goes : place.next mark = after) (value : String) :
    Normalizes place ((escape value).toList ++ [mark])
      ((escape (standardText value)).toList.map place.shown ++ [mark]) after := by
  intro back
  obtain ⟨shown, last⟩ := spaced_staying (inside (standardText value))
  rw [List.append_assoc, List.singleton_append, lineEnds_escape ending, spaced_append, shown, last,
    spaced, kept, goes, List.append_assoc, List.singleton_append]

theorem normalizes_value (value : String) :
    Normalizes (.value '"') ((escape value).toList ++ ['"'])
      ((escape (standardValue value)).toList ++ ['"']) .tag := by
  have inside (value : String) : ∀ c ∈ (escape value).toList,
      (Place.value '"').next c = .value '"' :=
    fun c member => if_neg (by simpa using (mem_escape member).2.2)
  have spaces : (escape (standardText value)).toList.map (Place.value '"').shown =
      (escape (standardValue value)).toList := by
    rw [escape, escape, standardText, standardValue, String.toList_ofList, String.toList_ofList,
      String.toList_ofList, String.toList_ofList, flatMap_escapeChar_flat]
    rfl
  rw [← spaces]
  exact normalizes_escape (by decide) inside rfl rfl value

theorem normalizes_text (text : String) :
    Normalizes .content ((escape text).toList ++ ['<'])
      ((escape (standardText text)).toList ++ ['<']) .tag := by
  have inside (text : String) : ∀ c ∈ (escape text).toList, Place.content.next c = .content :=
    fun c member => if_neg (by simpa using (mem_escape member).2.1)
  have same : (escape (standardText text)).toList.map Place.content.shown =
      (escape (standardText text)).toList := List.map_id _
  rw [← same]
  exact normalizes_escape (by decide) inside rfl rfl text

theorem normalizes_indent (depth : Nat) :
    Normalizes .content (indent depth).toList (indent depth).toList .content := by
  refine .kept fun c member => ?_
  rw [mem_indent member]
  decide

theorem normalizes_name {name : String} (named : isName name) :
    Normalizes .tag name.toList name.toList .tag := by
  refine .kept fun c member => ?_
  have within := isNameChar_of_mem named member
  have unlike (d : Char) (outside : isNameChar d = false) : c ≠ d := by
    rintro rfl
    cases outside.symm.trans within
  have quote := unlike '"' (by decide)
  have apostrophe := unlike '\'' (by decide)
  have close := unlike '>' (by decide)
  exact ⟨unlike '\r' (by decide), rfl, by simp [Place.next, quote, apostrophe, close]⟩

theorem normalizes_attribute {pair : String × String} (named : isName pair.1) :
    Normalizes .tag (attributeText pair).toList (attributeText (standardPair pair)).toList .tag := by
  have layout (pair : String × String) : (attributeText pair).toList =
      [' '] ++ (pair.1.toList ++ (['=', '"'] ++ ((escape pair.2).toList ++ ['"']))) := by
    simp [attributeText]
  have space : Normalizes .tag [' '] [' '] .tag := .markup (by decide)
  have assigned : Normalizes .tag ['=', '"'] ['=', '"'] (.value '"') := .markup (by decide)
  rw [layout, layout]
  exact space.append ((normalizes_name named).append (assigned.append (normalizes_value pair.2)))

theorem normalizes_startText {tag : Tag} (named : tag.WellNamed) :
    Normalizes .content (startText tag).toList (startText tag.standard).toList .tag := by
  have layout (tag : Tag) : (startText tag).toList =
      ['<'] ++ (tag.name.toList ++ (String.join (tag.attributes.map attributeText)).toList) := by
    simp [startText]
  have start : Normalizes .content ['<'] ['<'] .tag := .markup (by decide)
  have pairs (attributes : List (String × String)) (each : ∀ pair ∈ attributes, isName pair.1) :
      Normalizes .tag (String.join (attributes.map attributeText)).toList
        (String.join ((attributes.map standardPair).map attributeText)).toList .tag := by
    induction attributes with
    | nil => exact .nil
    | cons pair rest ih =>
      simp only [List.map_cons, String.join_cons, String.toList_append]
      exact (normalizes_attribute (each pair List.mem_cons_self)).append
        (ih fun pair member => each pair (List.mem_cons_of_mem _ member))
  rw [layout, layout]
  exact start.append ((normalizes_name named.name).append (pairs tag.attributes named.attributes))

theorem normalizes_tagEnd : Normalizes .tag ['>', '\n'] ['>', '\n'] .content := .markup (by decide)

theorem normalizes_bareEnd : Normalizes .tag ['/', '>', '\n'] ['/', '>', '\n'] .content :=
  .markup (by decide)

theorem normalizes_renderAll {children : List Element}
    (each : ∀ child ∈ children, ∀ depth, Normalizes .content (child.render depth).toList
      (child.standard.render depth).toList .content) (depth : Nat) :
    Normalizes .content (Element.renderAll depth children).toList
      (Element.renderAll depth (Element.standardAll children)).toList .content := by
  induction children with
  | nil => exact .nil
  | cons child rest ih =>
    simp only [Element.standardAll, Element.renderAll, String.toList_append]
    exact (each child List.mem_cons_self depth).append
      (ih fun child member => each child (List.mem_cons_of_mem _ member))

/-- An element is normalized to what is written of the element that is read. -/
theorem normalizes_render (named : WellNamed e) (depth : Nat) :
    Normalizes .content (e.render depth).toList (e.standard.render depth).toList .content := by
  induction named generalizing depth with
  | @bare tag named =>
    simp only [Element.standard, Element.render, String.toList_append]
    exact ((normalizes_indent depth).append (normalizes_startText named)).append normalizes_bareEnd
  | @text tag content named =>
    have layout (tag : Tag) (content : String) : ((Element.text tag content).render depth).toList =
        (indent depth).toList ++ (startText tag).toList ++ ['>'] ++
          ((escape content).toList ++ ['<']) ++ (['/'] ++ (tag.name.toList ++ ['>', '\n'])) := by
      simp [Element.render, endText]
    have opened : Normalizes .tag ['>'] ['>'] .content := .markup (by decide)
    have slash : Normalizes .tag ['/'] ['/'] .tag := .markup (by decide)
    have closed := slash.append ((normalizes_name named.name).append normalizes_tagEnd)
    rw [Element.standard, layout, layout]
    exact ((((normalizes_indent depth).append (normalizes_startText named)).append opened).append
      (normalizes_text content)).append closed
  | @parent tag children named _ ih =>
    have layout (tag : Tag) (children : List Element) :
        ((Element.parent tag children).render depth).toList =
          (indent depth).toList ++ (startText tag).toList ++ ['>', '\n'] ++
            (Element.renderAll (depth + 1) children).toList ++ (indent depth).toList ++
              (['<', '/'] ++ (tag.name.toList ++ ['>', '\n'])) := by
      simp [Element.render, endText]
    have ended : Normalizes .content ['<', '/'] ['<', '/'] .tag := .markup (by decide)
    have closed := ended.append ((normalizes_name named.name).append normalizes_tagEnd)
    rw [Element.standard, layout, layout]
    exact (((((normalizes_indent depth).append (normalizes_startText named)).append
      normalizes_tagEnd).append (normalizes_renderAll ih (depth + 1))).append
        (normalizes_indent depth)).append closed

theorem normalized_eq {text result : String}
    (whole : Normalizes .content text.toList result.toList .content) : normalized text = result := by
  have read := whole []
  rw [List.append_nil] at read
  rw [normalized, read]
  exact (congrArg String.ofList (List.append_nil _)).trans String.ofList_toList

theorem normalized_render (named : WellNamed e) (depth : Nat) :
    normalized (e.render depth) = e.standard.render depth :=
  normalized_eq (normalizes_render named depth)

theorem normalizes_declaration :
    Normalizes .content declaration.toList declaration.toList .content := .markup (by decide)

theorem normalized_document (named : WellNamed e) :
    normalized e.document = e.standard.document := by
  have text (e : Element) : e.document.toList = declaration.toList ++ (e.render 0).toList :=
    String.toList_append
  apply normalized_eq
  rw [text, text]
  exact normalizes_declaration.append (normalizes_render named 0)

theorem Tag.WellNamed.standard {tag : Tag} (named : tag.WellNamed) : tag.standard.WellNamed := by
  refine wellNamed_of_names (tag.attributes.map Prod.fst) named.name ?_ ?_ named.distinct
  · rw [List.map_map]
    rfl
  · intro name member
    obtain ⟨pair, known, rfl⟩ := List.mem_map.mp member
    exact named.attributes pair known

theorem proper_standard (named : WellNamed e) (filled : Filled e) : Proper e.standard := by
  induction named with
  | bare named => exact ⟨built_bare _, .bare named.standard⟩
  | text named => exact proper_text named.standard _
  | parent named _ ih =>
    cases filled with
    | parent some inner =>
      rw [Element.standard, Element.standardAll_eq]
      exact proper_parent named.standard (by simpa using some)
        (List.forall_mem_map.mpr fun child member => ih child member (inner child member))

theorem mem_lineEnds (member : c ∈ lineEnds cs) : c ≠ '\r' ∧ (c = '\n' ∨ c ∈ cs) := by
  fun_induction lineEnds cs with
  | case1 rest ih | case2 rest single ih =>
    rcases List.mem_cons.mp member with rfl | later
    · exact ⟨by decide, .inl rfl⟩
    · exact ⟨(ih later).1, (ih later).2.imp_right (by simp +contextual)⟩
  | case3 d rest _ other ih =>
    rcases List.mem_cons.mp member with rfl | later
    · exact ⟨other, .inr List.mem_cons_self⟩
    · exact ⟨(ih later).1, (ih later).2.imp_right (List.mem_cons_of_mem _)⟩
  | case4 => contradiction

theorem allowed_lineEnds {cs : List Char} (allowed : ∀ c ∈ cs, isAllowed c) :
    ∀ c ∈ lineEnds cs, isAllowed c := by
  intro c member
  rcases (mem_lineEnds member).2 with rfl | kept
  · decide
  · exact allowed c kept

theorem flat_space {c : Char} (blank : isSpace (flat c)) : flat c = ' ' := by
  unfold flat at blank ⊢
  split at blank <;> simp_all

theorem allowed_space {c : Char} (blank : isSpace c) : isAllowed c := by
  rcases space_cases blank with rfl | rfl | rfl | rfl <;> decide

theorem lineEnds_eq_self_iff : lineEnds cs = cs ↔ '\r' ∉ cs := by
  constructor
  · intro same member
    rw [← same] at member
    exact (mem_lineEnds member).1 rfl
  · intro plain
    have whole := lineEnds_append plain []
    rwa [List.append_nil, lineEnds, List.append_nil] at whole

theorem flattened_eq_self_iff : (lineEnds cs).map flat = cs ↔ ∀ c ∈ cs, isSpace c → c = ' ' := by
  constructor
  · intro same c member blank
    rw [← same] at member
    obtain ⟨d, -, rfl⟩ := List.mem_map.mp member
    exact flat_space blank
  · intro each
    have plain : '\r' ∉ cs := fun member => absurd (each '\r' member rfl) (by decide)
    have kept (c : Char) (member : c ∈ cs) : flat c = id c := by
      unfold flat
      split
      · rename_i blank
        exact (each c member blank).symm
      · rfl
    rw [lineEnds_eq_self_iff.mpr plain, List.map_congr_left kept, List.map_id]

/-- A text is read as it was put in just if it has no carriage return. -/
theorem standardText_eq_iff : standardText text = carriedText text ↔ '\r' ∉ text.toList := by
  rw [standardText, carriedText, String.ofList_inj, lineEnds_eq_self_iff, List.mem_filter]
  exact not_congr (and_iff_left (by decide))

/-- The value of an attribute is read as it was put in just if its white space is spaces. -/
theorem standardValue_eq_iff : standardValue value = carriedText value ↔
    ∀ c ∈ value.toList, isSpace c → c = ' ' := by
  rw [standardValue, carriedText, String.ofList_inj, flattened_eq_self_iff]
  refine forall_congr' fun c => ?_
  rw [List.mem_filter]
  exact ⟨fun each member blank => each ⟨member, allowed_space blank⟩ blank,
    fun each member blank => each member.1 blank⟩

theorem carried_standardText (text : String) : carriedText (standardText text) = standardText text := by
  refine carriedText_allowed (allowed_iff.mpr fun c member => ?_)
  rw [standardText, String.toList_ofList] at member
  exact allowed_lineEnds (fun _ kept => (List.mem_filter.mp kept).2) c member

theorem carried_standardValue (value : String) :
    carriedText (standardValue value) = standardValue value := by
  refine carriedText_allowed (allowed_iff.mpr fun c member => ?_)
  rw [standardValue, String.toList_ofList] at member
  obtain ⟨d, read, rfl⟩ := List.mem_map.mp member
  unfold flat
  split
  · decide
  · exact allowed_lineEnds (fun _ kept => (List.mem_filter.mp kept).2) d read

theorem Tag.carried_standard (tag : Tag) : tag.standard.carried = tag.standard := by
  have pairs (pair : String × String) : carriedPair (standardPair pair) = standardPair pair := by
    rw [standardPair, carriedPair, carried_standardValue]
  simp only [Tag.standard, Tag.carried, List.map_map, Function.comp_def, pairs]

/-- What is read has nothing left that a document cannot have. -/
theorem carried_standard (named : WellNamed e) : e.standard.carried = e.standard := by
  induction named with
  | bare => rw [Element.standard, Element.carried, Tag.carried_standard]
  | text => rw [Element.standard, Element.carried, Tag.carried_standard, carried_standardText]
  | parent _ _ ih =>
    rw [Element.standard, Element.carried, Tag.carried_standard, Element.standardAll_eq,
      Element.carriedAll_eq, List.map_map]
    exact congrArg _ (List.map_congr_left ih)

theorem read?_normalized (proper : Proper e) (depth : Nat) :
    read? (normalized (e.render depth)) = some e.standard ∧
      readDocument? (normalized e.document) = some e.standard := by
  have standard := proper_standard proper.named proper.built.filled
  rw [normalized_render proper.named, normalized_document proper.named,
    (standard.reads_back depth).2, standard.readDocument?_document, carried_standard proper.named]
  exact ⟨rfl, rfl⟩

/-- What a standard reader sees. Every element that is built of proper names is read back, alone at any
depth or as a document, with all its markup, its attributes, texts and children. Besides characters
that no document can have, a text loses just its carriage returns, which are read as line feeds, and
the value of an attribute just its tabs and line ends, which are read as spaces. -/
theorem read_with_normalization (built : Built e) (named : WellNamed e) (depth : Nat) :
    read? (normalized (e.render depth)) = some e.standard ∧
    readDocument? (normalized e.document) = some e.standard ∧
    (∀ text, standardText text = carriedText text ↔ '\r' ∉ text.toList) ∧
    ∀ value, standardValue value = carriedText value ↔ ∀ c ∈ value.toList, isSpace c → c = ' ' := by
  obtain ⟨alone, document⟩ := read?_normalized ⟨built, named⟩ depth
  exact ⟨alone, document, fun _ => standardText_eq_iff, fun _ => standardValue_eq_iff⟩

/-- A property with line ends of several kinds in its name and in its text. -/
def linedProperty : Element :=
  .text ⟨"stringProp", [("name", "one\r\ntwo\tthree")]⟩ "one\r\ntwo\rthree\tfour"

theorem proper_linedProperty : Proper linedProperty :=
  proper_text (wellNamed_of_names ["name"] (by decide) rfl (by decide) (by decide)) _

theorem linedProperty_normalized :
    Built linedProperty ∧ WellNamed linedProperty ∧
      read? (normalized (linedProperty.render 1)) = some (.text
        ⟨"stringProp", [("name", "one two three")]⟩ "one\ntwo\nthree\tfour") :=
  ⟨proper_linedProperty.built, proper_linedProperty.named,
    (read_with_normalization proper_linedProperty.built proper_linedProperty.named 1).1⟩

/-- A sampler whose name has two lines. -/
def twoLineSampler : Element := .bare ⟨"HTTPSamplerProxy", [("testname", "List\nnotes")]⟩

/-- The name is read on one line, though a document can have all its characters. -/
theorem line_end_read_as_space :
    Built twoLineSampler ∧ WellNamed twoLineSampler ∧ carriedText "List\nnotes" = "List\nnotes" ∧
      ∃ read, read? (normalized (twoLineSampler.render 0)) = some read ∧
        read.attribute? "testname" = some "List notes" ∧
        read? (normalized (twoLineSampler.render 0)) ≠ some twoLineSampler.carried := by
  have proper : Proper twoLineSampler := ⟨built_bare _,
    .bare (wellNamed_of_names ["testname"] (by decide) rfl (by decide) (by decide))⟩
  have read := (read?_normalized proper 0).1
  refine ⟨proper.built, proper.named, by decide, _, read, by decide, fun same => ?_⟩
  have named : twoLineSampler.standard.attribute? "testname" =
      twoLineSampler.carried.attribute? "testname" :=
    congrArg (·.attribute? "testname") (Option.some.inj (read.symm.trans same))
  exact absurd named (by decide)

end LoadPlan.Xml
