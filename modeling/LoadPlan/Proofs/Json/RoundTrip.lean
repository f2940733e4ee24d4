import LoadPlan.Proofs.Json.Scalars
import Mathlib.Data.List.Forall2

/-! Written values, read back. A text without floats is scanned to the tokens of its value, whatever
its layout, and these tokens lead the reader to the value itself; fields of one key are joined. -/
namespace LoadPlan.Json

/-- Values without floats whose whole numbers fit into 64 bits. -/
inductive Writable : Json → Prop
  | null : Writable .null
  | bool : Writable (.bool value)
  | int (whole : Whole n) : Writable (.int n)
  | string : Writable (.string text)
  | array (inner : ∀ item ∈ items, Writable item) : Writable (.array items)
  | object (inner : ∀ field ∈ fields, Writable field.2) : Writable (.object fields)

mutual
/-- The tokens of a value. -/
def tokens : Json → List Token
  | .string text => [.string (some text)]
  | .array items => .openArray :: ([Token.comma].intercalate (itemTokens items) ++ [.closeArray])
  | .object fields => .openObject :: ([Token.comma].intercalate (fieldTokens fields) ++ [.closeObject])
  | value => [.scalar (some value)]

def itemTokens : List Json → List (List Token)
  | [] => []
  | item :: rest => tokens item :: itemTokens rest

def fieldTokens : List (String × Json) → List (List Token)
  | [] => []
  | (key, value) :: rest => (.string (some key) :: .colon :: tokens value) :: fieldTokens rest
end

section
variable {cs : List Char}

theorem scan_space {c : Char} (space : Token.isSpace c) (rest : List Char) :
    Token.scan (c :: rest) = Token.scan rest := by
  rw [Token.scan, if_pos space]

theorem scan_next {c : Char} {rest after : List Char} {token : Token}
    (solid : Token.isSpace c = false) (next : Token.next? (c :: rest) = some (token, after)) :
    Token.scan (c :: rest) = (Token.scan after).map (token :: ·) := by
  rw [Token.scan, if_neg (by simp [solid])]
  split
  · rename_i found
    cases next.symm.trans found
    rfl
  · rename_i missing
    cases next.symm.trans missing

theorem scan_punctuation {c : Char} {token : Token} (mark : Token.punctuation? c = some token)
    (solid : Token.isSpace c = false) (rest : List Char) :
    Token.scan (c :: rest) = (Token.scan rest).map (token :: ·) :=
  scan_next solid (by rw [Token.next?, mark])

theorem scan_indent (level : Nat) (rest : List Char) :
    Token.scan ((indent level).toList ++ rest) = Token.scan rest := by
  rw [indent, String.toList_ofList]
  induction 2 * level with
  | zero => rfl
  | succ n ih => rw [List.replicate_succ, List.cons_append, scan_space (by decide), ih]

/-- A part of a text that is scanned to these tokens, wherever a value can end after it. -/
def Scans (cs : List Char) (ts : List Token) : Prop :=
  ∀ rest, Ended rest → Token.scan (cs ++ rest) = (Token.scan rest).map (ts ++ ·)

theorem ended_comma (rest : List Char) : Ended (',' :: rest) := by
  rintro c ⟨⟩
  exact .inl rfl

theorem ended_newline (rest : List Char) : Ended ('\n' :: rest) := by
  rintro c ⟨⟩
  exact .inr rfl

theorem scan_quote (text : String) (rest : List Char) :
    Token.scan ((quote text).toList ++ rest) =
      (Token.scan rest).map (.string (some text) :: ·) := by
  rw [quote, String.toList_ofList, List.cons_append, List.append_assoc]
  refine scan_next (by decide) ?_
  have scanned := scanString_quote text.toList rest
  change (scanString (_ ++ '"' :: rest)).map _ = _
  rw [scanned]
  simp

theorem scans_int {n : Int} (whole : Whole n) : Scans (toString n).toList [.scalar (some (.int n))] := by
  intro rest ended
  obtain ⟨c, cs, front, starts⟩ := toList_int_head n
  have scanned := scanNumber_int whole ended
  obtain ⟨solid, next⟩ := next?_number starts (cs ++ rest)
  rw [front] at scanned ⊢
  exact scan_next solid (next.trans (by rw [← List.cons_append, scanned]; rfl))

theorem intercalate_cons (separator first : List α) (rest : List (List α)) :
    separator.intercalate (first :: rest) = first ++ rest.flatMap (separator ++ ·) := by
  induction rest generalizing first with
  | nil => simp [List.intercalate]
  | cons next rest ih =>
    rw [List.intercalate_cons_cons, ih]
    simp

theorem ended_separated (texts : List (List Char)) (ended : Ended rest) :
    Ended (texts.flatMap ([',', '\n'] ++ ·) ++ rest) := by
  cases texts with
  | nil => exact ended
  | cons text others => exact ended_comma _

theorem scans_later {texts : List (List Char)} {parts : List (List Token)}
    (each : List.Forall₂ Scans texts parts) :
    Scans (texts.flatMap ([',', '\n'] ++ ·)) (parts.flatMap ([Token.comma] ++ ·)) := by
  induction each with
  | nil =>
    intro rest _
    simp
  | @cons text part texts parts first others ih =>
    intro rest ended
    have here := first _ (ended_separated texts ended)
    rw [List.flatMap_cons, List.append_assoc, List.append_assoc, List.cons_append,
      scan_punctuation (show Token.punctuation? ',' = some .comma from rfl) (by decide),
      List.singleton_append, scan_space (by decide), here, ih rest ended]
    simp only [Option.map_map]
    congr 1
    funext more
    simp

section
variable {opening closing : Char} {first last : Token}
  (opens : Token.punctuation? opening = some first) (solid : Token.isSpace opening = false)
  (closes : Token.punctuation? closing = some last) (solid' : Token.isSpace closing = false)
include opens solid closes solid'

theorem scans_brackets : Scans [opening, closing] [first, last] := by
  intro rest _
  rw [List.cons_append, scan_punctuation opens solid, List.singleton_append,
    scan_punctuation closes solid', Option.map_map]
  rfl

/-- Items or fields on lines of their own, between brackets. -/
theorem scans_bracketed
    (level : Nat) {texts : List (List Char)} {parts : List (List Token)}
    (each : List.Forall₂ Scans texts parts) :
    Scans (opening :: '\n' :: ([',', '\n'].intercalate texts ++
      '\n' :: ((indent level).toList ++ [closing])))
      (first :: ([Token.comma].intercalate parts ++ [last])) := by
  intro rest _
  have newline : Token.isSpace '\n' := by decide
  have ends : Token.scan ('\n' :: ((indent level).toList ++ closing :: rest)) =
      (Token.scan rest).map (last :: ·) := by
    rw [scan_space newline, scan_indent, scan_punctuation closes solid']
  have content : Token.scan ([',', '\n'].intercalate texts ++
      '\n' :: ((indent level).toList ++ closing :: rest)) =
        (Token.scan rest).map ([Token.comma].intercalate parts ++ last :: ·) := by
    cases each with
    | nil => exact ends
    | cons head others =>
      have later := scans_later others _ (ended_newline ((indent level).toList ++ closing :: rest))
      rw [intercalate_cons, intercalate_cons, List.append_assoc,
        head _ (ended_separated _ (ended_newline _)), later, ends]
      simp only [Option.map_map]
      congr 1
      funext more
      simp
  rw [List.cons_append, scan_punctuation opens solid, List.cons_append, scan_space newline,
    List.append_assoc, List.cons_append, List.append_assoc, List.singleton_append, content]
  simp only [Option.map_map]
  congr 1
  funext more
  simp

end

theorem scans_scalar {value : Json} (writable : Writable value) (flat : value.depth = 0) :
    Scans (scalarText value).toList (tokens value) := by
  cases writable with
  | null => exact fun rest _ => scan_next (by decide) rfl
  | @bool value =>
    cases value with
    | false => exact fun rest _ => scan_next (by decide) rfl
    | true => exact fun rest _ => scan_next (by decide) rfl
  | int whole => exact scans_int whole
  | string => exact fun rest _ => scan_quote _ rest
  | array | object => exact absurd flat (Nat.succ_ne_zero _)

theorem scans_item (level : Nat) (scans : Scans cs ts) : Scans ((indent level).toList ++ cs) ts := by
  intro rest ended
  rw [List.append_assoc, scan_indent, scans rest ended]

theorem scans_field (level : Nat) (key : String) (scans : Scans cs ts) :
    Scans ((indent level ++ quote key ++ ": ").toList ++ cs) (.string (some key) :: .colon :: ts) := by
  intro rest ended
  have colon (more : List Char) : Token.scan (": ".toList ++ more) =
      (Token.scan more).map (.colon :: ·) := by
    change Token.scan (':' :: ' ' :: more) = _
    rw [scan_punctuation (show Token.punctuation? ':' = some .colon from rfl) (by decide),
      scan_space (by decide)]
  rw [String.toList_append, String.toList_append, List.append_assoc, List.append_assoc,
    List.append_assoc, scan_indent, scan_quote, colon, scans rest ended]
  simp only [Option.map_map]
  rfl

theorem scans_items {items : List Json} (level : Nat)
    (each : ∀ item ∈ items, Scans (indented level item).toList (tokens item)) :
    List.Forall₂ Scans ((indentedItems level items).map String.toList) (itemTokens items) := by
  induction items with
  | nil => exact .nil
  | cons item rest ih =>
    have head := scans_item level (each item List.mem_cons_self)
    rw [indentedItems, List.map_cons, String.toList_append]
    exact .cons head (ih fun item member => each item (List.mem_cons_of_mem _ member))

theorem scans_fields {fields : List (String × Json)} (level : Nat)
    (each : ∀ field ∈ fields, Scans (indented level field.2).toList (tokens field.2)) :
    List.Forall₂ Scans ((indentedFields level fields).map String.toList) (fieldTokens fields) := by
  induction fields with
  | nil => exact .nil
  | cons field rest ih =>
    have head := scans_field level field.1 (each field List.mem_cons_self)
    rw [indentedFields, List.map_cons, String.toList_append]
    exact .cons head (ih fun field member => each field (List.mem_cons_of_mem _ member))

/-- An indented text is scanned to the tokens of its value, at every level. -/
theorem scans_indented {value : Json} (writable : Writable value) (level : Nat) :
    Scans (indented level value).toList (tokens value) := by
  induction writable generalizing level with
  | null => exact scans_scalar .null rfl
  | bool => exact scans_scalar .bool rfl
  | int whole => exact scans_scalar (.int whole) rfl
  | string => exact scans_scalar .string rfl
  | @array items inner ih =>
    cases items with
    | nil =>
      have layout : (indented level (.array [])).toList = ['[', ']'] := by simp [indented, scalarText]
      have pair : tokens (.array []) = [.openArray, .closeArray] := by simp [tokens, itemTokens]
      rw [layout, pair]
      exact scans_brackets rfl (by decide) rfl (by decide)
    | cons item rest =>
      have each := scans_items (level + 1) fun item member => ih item member (level + 1)
      have layout : (indented level (.array (item :: rest))).toList = '[' :: '\n' ::
          ([',', '\n'].intercalate ((indentedItems (level + 1) (item :: rest)).map String.toList) ++
            '\n' :: ((indent level).toList ++ [']'])) := by
        simp [indented]
      rw [layout]
      exact scans_bracketed rfl (by decide) rfl (by decide) level each
  | @object fields inner ih =>
    cases fields with
    | nil =>
      have layout : (indented level (.object [])).toList = ['\x7b', '\x7d'] := by
        simp [indented, scalarText]
      have pair : tokens (.object []) = [.openObject, .closeObject] := by simp [tokens, fieldTokens]
      rw [layout, pair]
      exact scans_brackets rfl (by decide) rfl (by decide)
    | cons field rest =>
      have each := scans_fields (level + 1) fun field member => ih field member (level + 1)
      have layout : (indented level (.object (field :: rest))).toList = '\x7b' :: '\n' ::
          ([',', '\n'].intercalate ((indentedFields (level + 1) (field :: rest)).map String.toList) ++
            '\n' :: ((indent level).toList ++ ['\x7d'])) := by
        simp [indented]
      rw [layout]
      exact scans_bracketed rfl (by decide) rfl (by decide) level each

theorem scan_bodyText {value : Json} (writable : Writable value) :
    Token.scan (bodyText value).toList = some (tokens value) := by
  have scans := scans_indented writable 0 [] fun _ => (nomatch ·)
  rw [List.append_nil] at scans
  rw [bodyText, scans, Token.scan, Option.map_some, List.append_nil]

end

mutual
/-- The value with the fields of every object put in one after another. -/
def joined : Json → Json
  | .array items => .array (joinedItems items)
  | .object fields => ofFields (joinedFields fields)
  | value => value

def joinedItems : List Json → List Json
  | [] => []
  | item :: rest => joined item :: joinedItems rest

def joinedFields : List (String × Json) → List (String × Json)
  | [] => []
  | (key, value) :: rest => (key, joined value) :: joinedFields rest
end

namespace Reader

theorem run_step {r : Reader} {token : Token} (next : Reader) (stepped : r.step token = some next)
    (room : next.stack.length ≤ maxDepth) (rest : List Token) :
    r.run (token :: rest) = next.run rest := by
  rw [run, stepped, Option.bind_some, if_pos room]

/-- Where a value is wanted, the tokens of this one are read to it. -/
def Reads (value : Json) : Prop :=
  ∀ (stack : List Frame) (want : Want), want = .value ∨ want = .valueOrClose →
    stack.length + value.depth ≤ maxDepth → ∀ rest,
      run ⟨stack, want⟩ (tokens value ++ rest) = run ⟨stack, .after value.joined⟩ rest

theorem reads_scalar {value : Json} {token : Token} (single : tokens value = [token])
    (begins : ∀ stack, beginValue stack token = some ⟨stack, .after value.joined⟩)
    (opens : token ≠ .closeArray) : Reads value := by
  intro stack want wanted room rest
  have stepped : step ⟨stack, want⟩ token = some ⟨stack, .after value.joined⟩ := by
    rcases wanted with rfl | rfl
    · exact begins stack
    · rw [← begins stack]
      cases token with
      | closeArray => contradiction
      | openObject | closeObject | openArray | comma | colon | string | scalar => rfl
  rw [single]
  exact run_step _ stepped (by simp only; omega) rest

variable {stack : List Frame} (room : stack.length + 1 ≤ maxDepth)
include room

theorem run_laterItems {items : List Json} (each : ∀ item ∈ items, Reads item)
    (nested : stack.length + 1 + depthItems items ≤ maxDepth) (done : List Json) (value : Json)
    (rest : List Token) :
    run ⟨.array done :: stack, .after value⟩
        ((itemTokens items).flatMap ([Token.comma] ++ ·) ++ .closeArray :: rest) =
      run ⟨stack, .after (.array ((value :: done).reverse ++ joinedItems items))⟩ rest := by
  induction items generalizing done value with
  | nil =>
    rw [joinedItems, List.append_nil]
    exact run_step ⟨stack, _⟩ rfl (Nat.le_of_succ_le room) rest
  | cons item more ih =>
    have within : stack.length + 1 + item.depth ≤ maxDepth ∧
        stack.length + 1 + depthItems more ≤ maxDepth := by
      simp only [depthItems] at nested
      omega
    have next := each item List.mem_cons_self (.array (value :: done) :: stack) .value (.inl rfl)
      within.1
    have later := ih (fun item member => each item (List.mem_cons_of_mem _ member)) within.2
      (value :: done) item.joined
    have comma (rest : List Token) : run ⟨.array done :: stack, .after value⟩ (.comma :: rest) =
        run ⟨.array (value :: done) :: stack, .value⟩ rest :=
      run_step ⟨.array (value :: done) :: stack, .value⟩ rfl room rest
    rw [itemTokens, List.flatMap_cons, List.append_assoc, List.append_assoc, List.singleton_append,
      comma, next, later, joinedItems]
    simp

theorem run_laterFields {fields : List (String × Json)} (each : ∀ field ∈ fields, Reads field.2)
    (nested : stack.length + 1 + depthFields fields ≤ maxDepth) (done : List (String × Json))
    (key : String) (value : Json) (rest : List Token) :
    run ⟨.member done key :: stack, .after value⟩
        ((fieldTokens fields).flatMap ([Token.comma] ++ ·) ++ .closeObject :: rest) =
      run ⟨stack, .after (.object ((joinedFields fields).foldl
        (fun done (key, value) => insert done key value) (insert done key value)))⟩ rest := by
  induction fields generalizing done key value with
  | nil => exact run_step ⟨stack, _⟩ rfl (Nat.le_of_succ_le room) rest
  | cons field more ih =>
    obtain ⟨name, content⟩ := field
    have within : stack.length + 1 + content.depth ≤ maxDepth ∧
        stack.length + 1 + depthFields more ≤ maxDepth := by
      simp only [depthFields] at nested
      omega
    have next := each (name, content) List.mem_cons_self
      (.member (insert done key value) name :: stack) .value (.inl rfl) within.1
    have later := ih (fun field member => each field (List.mem_cons_of_mem _ member)) within.2
      (insert done key value) name content.joined
    have comma (rest : List Token) :
        run ⟨.member done key :: stack, .after value⟩ (.comma :: .string (some name) :: .colon :: rest) =
          run ⟨.member (insert done key value) name :: stack, .value⟩ rest := by
      rw [run_step ⟨.object (insert done key value) :: stack, .key⟩ rfl room,
        run_step ⟨.member (insert done key value) name :: stack, .colon⟩ rfl room]
      exact run_step ⟨.member (insert done key value) name :: stack, .value⟩ rfl room rest
    rw [fieldTokens, List.flatMap_cons, List.append_assoc, List.append_assoc, List.singleton_append,
      List.cons_append, List.cons_append, comma, next, later]
    rfl

omit room

theorem reads_of_writable {value : Json} (writable : Writable value) : Reads value := by
  induction writable with
  | null => exact reads_scalar rfl (fun _ => rfl) Token.noConfusion
  | bool => exact reads_scalar rfl (fun _ => rfl) Token.noConfusion
  | int => exact reads_scalar rfl (fun _ => rfl) Token.noConfusion
  | string => exact reads_scalar rfl (fun _ => rfl) Token.noConfusion
  | @array items inner ih =>
    intro stack want wanted nested rest
    simp only [depth] at nested
    have room : stack.length + 1 ≤ maxDepth := by omega
    have opened (more : List Token) : run ⟨stack, want⟩ (.openArray :: more) =
        run ⟨.array [] :: stack, .valueOrClose⟩ more := by
      rcases wanted with rfl | rfl <;> exact run_step ⟨.array [] :: stack, .valueOrClose⟩ rfl room more
    rw [tokens, List.cons_append, opened, List.append_assoc, List.singleton_append]
    cases items with
    | nil => exact run_step ⟨stack, .after (.array [])⟩ rfl (Nat.le_of_succ_le room) rest
    | cons item more =>
      simp only [depthItems] at nested
      have first := ih item List.mem_cons_self (.array [] :: stack) .valueOrClose (.inr rfl)
        (by simp only [List.length_cons]; omega)
      have others := run_laterItems room (fun item member => ih item (List.mem_cons_of_mem _ member))
        (by omega) [] item.joined rest
      rw [itemTokens, intercalate_cons, List.append_assoc, first, others]
      rfl
  | @object fields inner ih =>
    intro stack want wanted nested rest
    simp only [depth] at nested
    have room : stack.length + 1 ≤ maxDepth := by omega
    have opened (more : List Token) : run ⟨stack, want⟩ (.openObject :: more) =
        run ⟨.object [] :: stack, .keyOrClose⟩ more := by
      rcases wanted with rfl | rfl <;> exact run_step ⟨.object [] :: stack, .keyOrClose⟩ rfl room more
    rw [tokens, List.cons_append, opened, List.append_assoc, List.singleton_append]
    cases fields with
    | nil => exact run_step ⟨stack, .after (.object [])⟩ rfl (Nat.le_of_succ_le room) rest
    | cons field more =>
      obtain ⟨key, value⟩ := field
      simp only [depthFields] at nested
      have named (more : List Token) :
          run ⟨.object [] :: stack, .keyOrClose⟩ (.string (some key) :: .colon :: more) =
            run ⟨.member [] key :: stack, .value⟩ more := by
        rw [run_step ⟨.member [] key :: stack, .colon⟩ rfl room]
        exact run_step ⟨.member [] key :: stack, .value⟩ rfl room more
      have first := ih (key, value) List.mem_cons_self (.member [] key :: stack) .value (.inl rfl)
        (by simp only [List.length_cons]; omega)
      have others := run_laterFields room (fun field member => ih field (List.mem_cons_of_mem _ member))
        (by omega) [] key value.joined rest
      rw [fieldTokens, intercalate_cons, List.append_assoc, List.cons_append, List.cons_append, named,
        first, others]
      rfl

end Reader

/-- The text of a body is read back to its value, with the fields of one key joined. -/
theorem read?_bodyText {value : Json} (writable : Writable value)
    (shallow : value.depth ≤ Reader.maxDepth) : read? (bodyText value) = some value.joined := by
  have reads := Reader.reads_of_writable writable [] .value (.inl rfl) (by simpa using shallow) []
  rw [List.append_nil] at reads
  rw [read?, scan_bodyText writable]
  change (Reader.start.run value.tokens).bind _ = _
  rw [Reader.start, reads]
  rfl

end LoadPlan.Json
