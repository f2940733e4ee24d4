import LoadPlan.BaseUrl
import LoadPlan.Proofs.Pointer.Walk
import Mathlib.Data.List.DropRight

/-! The parts of base URLs. A URL in plain form is taken apart into what it was made of, whatever white
space stands around it. And whatever the text is, its parts can be put together again: a path begins with
a slash and ends with none, a port is a number that a port can have, and a host has no slash. -/
namespace LoadPlan

namespace Text
variable {drop : Char → Bool} {before cs after : List Char}

theorem dropTrailing_eq_rdropWhile : dropTrailing drop cs = cs.rdropWhile drop := rfl

theorem dropTrailing_append (last : ∀ c ∈ cs.getLast?, drop c = false) (all : ∀ c ∈ after, drop c) :
    dropTrailing drop (cs ++ after) = cs := by
  have front : ∀ c ∈ cs.reverse.head?, drop c = false := by simpa using last
  have none : cs.reverse.dropWhile drop = cs.reverse := by
    cases shown : cs.reverse with
    | nil => rfl
    | cons c rest => exact List.dropWhile_cons_of_neg (by simp [front c (by simp [shown])])
  rw [dropTrailing, List.reverse_append,
    List.dropWhile_append_of_pos fun c member => all c (List.mem_reverse.mp member), none,
    List.reverse_reverse]

theorem trim_surrounded {before text after : String} (front : allBlank before) (back : allBlank after)
    (shown : ∀ c ∈ text.toList, isBlank c = false) : trim (before ++ text ++ after) = text := by
  have front := List.all_eq_true.mp front
  have back := List.all_eq_true.mp back
  have last : ∀ c ∈ text.toList.getLast?, isBlank c = false :=
    fun c member => shown c (List.mem_of_mem_getLast? member)
  rw [trim, String.toList_append, String.toList_append, List.append_assoc,
    List.dropWhile_append_of_pos front]
  cases characters : text.toList with
  | nil =>
    have none : after.toList.dropWhile isBlank = [] := List.dropWhile_eq_nil_iff.mpr back
    rw [List.nil_append, none]
    exact (String.toList_eq_nil_iff.mp characters).symm
  | cons c rest =>
    have first : ¬ isBlank c := by simp [shown c (by simp [characters])]
    rw [List.cons_append, List.dropWhile_cons_of_neg first, ← List.cons_append, ← characters,
      dropTrailing_append last back, String.ofList_toList]

/-- Words of a class end where the class does. -/
theorem span_append {within : Char → Bool} (inside : ∀ c ∈ cs, within c)
    (outside : ∀ c ∈ after.head?, within c = false) :
    (cs ++ after).takeWhile within = cs ∧ (cs ++ after).dropWhile within = after := by
  rw [List.takeWhile_append_of_pos inside, List.dropWhile_append_of_pos inside]
  cases after with
  | nil => simp
  | cons c rest => simp [outside c rfl]

end Text

namespace BaseUrl

inductive Scheme where
  | http
  | https
  deriving DecidableEq, Repr

def Scheme.name : Scheme → String
  | http => "http"
  | https => "https"

/-- Letters, digits, points and hyphens. -/
def isHostChar (c : Char) : Bool := c.isAlphanum || c == '.' || c == '-'

/-- Letters, digits, and marks that stand for themselves in paths. -/
def isPlainPathChar (c : Char) : Bool := c.isAlphanum || ['-', '.', '_', '~', '/'].contains c

/-- A base URL in plain form: no user, query or fragment, and no character that needs an escape. -/
structure Plain where
  scheme : Scheme
  host : String
  port : Option UInt16
  path : String
  host_nonempty : host ≠ ""
  host_chars : host.toList.all isHostChar
  path_rooted : path = "" ∨ path.toList.head? = some '/'
  path_chars : path.toList.all isPlainPathChar

namespace Plain

def portText (url : Plain) : String := (url.port.map fun n => toString n.toNat).getD ""

def authority (url : Plain) : List Char :=
  url.host.toList ++ (url.port.map fun n => ':' :: Nat.toDigits 10 n.toNat).getD []

/-- A URL as it is written. -/
def text (url : Plain) : String :=
  url.scheme.name ++ "://" ++ url.host ++ (url.port.map fun n => ":" ++ toString n.toNat).getD "" ++
    url.path

theorem toList_text (url : Plain) : url.text.toList =
    url.scheme.name.toList ++ ':' :: '/' :: '/' :: (url.authority ++ url.path.toList) := by
  obtain ⟨scheme, host, port, path⟩ := url
  cases port <;> simp [text, authority]

end Plain

/-- Parts that fit together: a path that can be put before other paths, a port in plain decimal, and a
host without a path. -/
structure Decomposed (url : BaseUrl) : Prop where
  path_rooted : url.path = "" ∨ url.path.toList.head? = some '/'
  path_open : url.path.toList.getLast? ≠ some '/'
  port : url.port = "" ∨ ∃ n ≤ 65535, url.port = toString n
  host : '/' ∉ url.host.toList

section
variable {c : Char}

theorem bounds_of_isAlphanum (letter : c.isAlphanum) :
    (65 ≤ c.toNat ∧ c.toNat ≤ 90 ∨ 97 ≤ c.toNat ∧ c.toNat ≤ 122) ∨ 48 ≤ c.toNat ∧ c.toNat ≤ 57 := by
  delta Char.isAlphanum Char.isAlpha Char.isUpper Char.isLower Char.isDigit at letter
  simp only [Bool.or_eq_true, Bool.and_eq_true, decide_eq_true_eq, ge_iff_le,
    UInt32.le_iff_toNat_le] at letter
  exact letter

/-- Characters of plain URLs. -/
def isUrlChar (c : Char) : Bool := isPlainPathChar c || c == ':'

theorem isUrlChar_cases (plain : isUrlChar c) :
    c.isAlphanum ∨ c ∈ ['-', '.', '_', '~', '/', ':'] := by
  simp only [isUrlChar, isPlainPathChar, Bool.or_eq_true, List.contains_iff_mem, beq_iff_eq] at plain
  simp only [List.mem_cons, List.not_mem_nil, or_false] at plain ⊢
  tauto

theorem not_isBlank_of_isUrlChar (plain : isUrlChar c) : Text.isBlank c = false := by
  rcases isUrlChar_cases plain with letter | mark
  · have bounds := bounds_of_isAlphanum letter
    have others : c.toNat ∉ [0x20, 0x85, 0xa0, 0x1680, 0x2028, 0x2029, 0x202f, 0x205f, 0x3000] := by
      simp only [List.mem_cons, List.not_mem_nil, or_false]
      omega
    rw [Text.isBlank, List.contains_eq_mem, decide_eq_false others, Bool.or_false]
    simp only [Bool.or_eq_false_iff, Bool.and_eq_false_iff, decide_eq_false_iff_not]
    omega
  · have marks : ['-', '.', '_', '~', '/', ':'].all (!Text.isBlank ·) := by decide
    simpa using List.all_eq_true.mp marks c mark

theorem isPathChar_of_plain (plain : isPlainPathChar c) : isPathChar c = true := by
  simp only [isPlainPathChar, Bool.or_eq_true, List.contains_iff_mem] at plain
  rcases plain with letter | mark
  · have bounds := bounds_of_isAlphanum letter
    simp only [isPathChar, Bool.or_eq_true, Bool.and_eq_true, beq_iff_eq, decide_eq_true_eq]
    omega
  · have marks : ['-', '.', '_', '~', '/'].all isPathChar := by decide
    exact List.all_eq_true.mp marks c mark

theorem ne_of_plain {d : Char} (plain : isPlainPathChar c) (other : isPlainPathChar d = false) :
    c ≠ d := by
  rintro rfl
  exact absurd (plain.symm.trans other) (by decide)

theorem ne_of_isHostChar {d : Char} (host : isHostChar c) (other : isHostChar d = false) : c ≠ d := by
  rintro rfl
  exact absurd (host.symm.trans other) (by decide)

theorem isUrlChar_of_isHostChar (host : isHostChar c) : isUrlChar c := by
  simp only [isHostChar, isUrlChar, isPlainPathChar, Bool.or_eq_true, beq_iff_eq] at host ⊢
  rcases host with (letter | rfl) | rfl
  · exact .inl (.inl letter)
  · decide
  · decide

theorem isHostChar_of_isDigit (digit : c.isDigit) : isHostChar c := by
  simp [isHostChar, Char.isAlphanum, digit]

theorem step?_host (s : AuthorityState) (host : isHostChar c) : s.step? c = some s := by
  have known : isAuthorityChar c := by
    simp only [isHostChar, Bool.or_eq_true, beq_iff_eq] at host
    rcases host with (letter | rfl) | rfl
    · simp [isAuthorityChar, letter]
    · decide
    · decide
  have other (d : Char) (mark : isHostChar d = false) : (c == d) = false :=
    beq_eq_false_iff_ne.mpr (ne_of_isHostChar host mark)
  simp [AuthorityState.step?, known, other ':' (by decide), other '[' (by decide),
    other ']' (by decide), other '@' (by decide), other '%' (by decide)]

theorem run?_host (s : AuthorityState) {cs : List Char} (host : ∀ c ∈ cs, isHostChar c)
    (rest : List Char) : s.run? (cs ++ rest) = s.run? rest := by
  induction cs with
  | nil => rfl
  | cons c cs ih =>
    obtain ⟨first, others⟩ := List.forall_mem_cons.mp host
    rw [List.cons_append, AuthorityState.run?, step?_host s first, Option.bind_some, ih others]

end

namespace Plain
variable (url : Plain)

theorem host_all : ∀ c ∈ url.host.toList, isHostChar c := List.all_eq_true.mp url.host_chars

theorem path_all : ∀ c ∈ url.path.toList, isPlainPathChar c := List.all_eq_true.mp url.path_chars

theorem digits_host (n : Nat) : ∀ c ∈ Nat.toDigits 10 n, isHostChar c := fun _ member =>
  isHostChar_of_isDigit (Nat.isDigit_of_mem_toDigits (by decide) (by decide) member)

theorem authority_cases : url.port = none ∧ url.authority = url.host.toList ∨
    ∃ n, url.port = some n ∧ url.authority = url.host.toList ++ ':' :: Nat.toDigits 10 n.toNat := by
  cases shown : url.port with
  | none => exact .inl ⟨rfl, by simp [authority, shown]⟩
  | some n => exact .inr ⟨n, rfl, by simp [authority, shown]⟩

theorem authority_mem (member : c ∈ url.authority) : isHostChar c ∨ c = ':' := by
  rcases url.authority_cases with ⟨-, same⟩ | ⟨n, -, same⟩
  · exact .inl (url.host_all c (same ▸ member))
  · rw [same] at member
    rcases List.mem_append.mp member with host | port
    · exact .inl (url.host_all c host)
    rcases List.mem_cons.mp port with mark | digit
    · exact .inr mark
    · exact .inl (digits_host _ c digit)

theorem authority_ne {d : Char} (mark : isHostChar d = false) (other : d ≠ ':') : d ∉ url.authority := by
  intro member
  rcases url.authority_mem member with host | colon
  · exact absurd (host.symm.trans mark) (by decide)
  · exact other colon

theorem isAuthority_authority : isAuthority url.authority := by
  have nonempty : url.authority.isEmpty = false := by
    simp [authority, url.host_nonempty]
  have noUser : '@' ∉ url.authority := url.authority_ne (by decide) (by decide)
  have last : url.authority.getLast? ≠ some '@' := fun user =>
    noUser (List.mem_of_mem_getLast? user)
  have read : ∃ colons ≤ 1, AuthorityState.run? ⟨0, false, false, false⟩ url.authority =
      some ⟨colons, false, false, false⟩ := by
    rcases url.authority_cases with ⟨-, same⟩ | ⟨n, -, same⟩
    · refine ⟨0, by decide, ?_⟩
      rw [same, ← List.append_nil url.host.toList, run?_host _ url.host_all]
      rfl
    · refine ⟨1, by decide, ?_⟩
      rw [same, run?_host _ url.host_all, AuthorityState.run?, ← List.append_nil (Nat.toDigits _ _)]
      exact run?_host ⟨1, false, false, false⟩ (digits_host _) []
  obtain ⟨colons, few, read⟩ := read
  simp [isAuthority, read, nonempty, last, few]

theorem afterLast_none {mark : Char} {cs : List Char} (none : mark ∉ cs) : afterLast mark cs = cs := by
  have all : ∀ c ∈ cs.reverse, (c != mark) = true := by
    intro c member
    exact bne_iff_ne.mpr fun same => none (same ▸ List.mem_reverse.mp member)
  rw [afterLast, List.takeWhile_eq_self_iff.mpr all, List.reverse_reverse]

theorem afterLast_append {mark : Char} {before cs : List Char} (none : mark ∉ cs) :
    afterLast mark (before ++ mark :: cs) = cs := by
  have all : ∀ c ∈ cs.reverse, (c != mark) = true := by
    intro c member
    exact bne_iff_ne.mpr fun same => none (same ▸ List.mem_reverse.mp member)
  have stops : ∀ c ∈ (mark :: before.reverse).head?, (c != mark) = false := by simp
  have split : (before ++ mark :: cs).reverse = cs.reverse ++ mark :: before.reverse := by simp
  rw [afterLast, split, (Text.span_append all stops).1, List.reverse_reverse]

theorem hostOf_authority : hostOf url.authority = url.host.toList := by
  have whole : afterLast '@' url.authority = url.authority :=
    afterLast_none (url.authority_ne (by decide) (by decide))
  have unbracketed : (url.authority.head? == some '[') = false := by
    rw [beq_eq_false_iff_ne]
    have noBracket : '[' ∉ url.authority := url.authority_ne (by decide) (by decide)
    exact fun bracket => noBracket (List.mem_of_head? bracket)
  have inside : ∀ c ∈ url.host.toList, (c != ':') = true := fun c member =>
    bne_iff_ne.mpr (ne_of_isHostChar (url.host_all c member) (by decide))
  rw [hostOf, whole]
  simp only [unbracketed, Bool.false_eq_true, if_false]
  rcases url.authority_cases with ⟨-, same⟩ | ⟨n, -, same⟩
  · rw [same]
    exact List.takeWhile_eq_self_iff.mpr inside
  · rw [same]
    exact (Text.span_append inside (by simp)).1

theorem portOf_authority : portOf url.authority = url.portText := by
  have uncoloned : ':' ∉ url.host.toList := fun member =>
    absurd (url.host_all _ member) (by decide)
  rcases url.authority_cases with ⟨none, same⟩ | ⟨n, given, same⟩
  · simp [portOf, portText, none, same, uncoloned]
  · have digits : ':' ∉ Nat.toDigits 10 n.toNat := fun member =>
      absurd (digits_host _ _ member) (by decide)
    have fits : n.toNat < UInt16.size := n.toNat_lt
    simp [portOf, portText, given, same, afterLast_append digits, Text.unsigned?_toDigits, fits]

theorem scheme?_text (rest : List Char) :
    scheme? (url.scheme.name.toList ++ ':' :: '/' :: '/' :: rest) = some (url.scheme.name, rest) := by
  cases url.scheme <;> rfl

theorem path?_path : path? url.path.toList = some url.path.toList := by
  have inside : ∀ c ∈ url.path.toList, (c != '?' && c != '#') = true := by
    intro c member
    have plain := url.path_all c member
    rw [Bool.and_eq_true, bne_iff_ne, bne_iff_ne]
    exact ⟨ne_of_plain plain (by decide), ne_of_plain plain (by decide)⟩
  have front := List.takeWhile_eq_self_iff.mpr inside
  have back := List.dropWhile_eq_nil_iff.mpr inside
  have known : url.path.toList.all isPathChar :=
    List.all_eq_true.mpr fun c member => isPathChar_of_plain (url.path_all c member)
  simp [path?, front, back, known]

theorem split_authority :
    (url.authority ++ url.path.toList).takeWhile (!isAuthorityEnd ·) = url.authority ∧
      (url.authority ++ url.path.toList).dropWhile (!isAuthorityEnd ·) = url.path.toList := by
  refine Text.span_append ?_ ?_
  · intro c member
    have other (d : Char) (mark : isHostChar d = false) (uncolon : d ≠ ':') : (c == d) = false :=
      beq_eq_false_iff_ne.mpr fun same => url.authority_ne mark uncolon (same ▸ member)
    simp [isAuthorityEnd, other '/' (by decide) (by decide), other '?' (by decide) (by decide),
      other '#' (by decide) (by decide)]
  · intro c first
    rcases url.path_rooted with empty | rooted
    · rw [empty] at first
      cases first
    · cases rooted.symm.trans first
      rfl

theorem text_shown : ∀ c ∈ url.text.toList, Text.isBlank c = false := by
  intro c member
  apply not_isBlank_of_isUrlChar
  have schemes (scheme : Scheme) : scheme.name.toList.all isUrlChar := by
    cases scheme <;> decide
  rw [url.toList_text] at member
  simp only [List.mem_append, List.mem_cons] at member
  rcases member with scheme | rfl | rfl | rfl | authority | path
  · exact List.all_eq_true.mp (schemes _) c scheme
  · decide
  · decide
  · decide
  · rcases url.authority_mem authority with host | rfl
    · exact isUrlChar_of_isHostChar host
    · decide
  · simp [isUrlChar, url.path_all c path]

/-- A URL in plain form is taken apart as it was made. -/
theorem ofAbsolute?_text (short : url.text.utf8ByteSize ≤ maxLength) :
    ofAbsolute? url.text = some
      { protocol := url.scheme.name
        host := url.host
        port := url.portText
        path := String.ofList (Text.dropTrailing (· == '/') url.path.toList) } := by
  have fits : ¬ maxLength < url.text.utf8ByteSize := Nat.not_lt.mpr short
  obtain ⟨front, back⟩ := url.split_authority
  simp [ofAbsolute?, fits, url.toList_text, url.scheme?_text, front, back,
    url.isAuthority_authority, url.path?_path, url.hostOf_authority, url.portOf_authority]

end Plain

section
variable {c : Char} {cs cs' : List Char}

theorem path?_rooted (ends : ∀ c ∈ cs.head?, isAuthorityEnd c) (found : path? cs = some cs') :
    cs' = [] ∨ cs'.head? = some '/' := by
  unfold path? at found
  obtain ⟨-, same⟩ := Option.ite_none_right_eq_some.mp found
  cases same
  cases cs with
  | nil => exact .inl rfl
  | cons c rest =>
    have first := ends c rfl
    simp only [isAuthorityEnd, Bool.or_eq_true, beq_iff_eq] at first
    rcases first with (rfl | rfl) | rfl
    · exact .inr rfl
    · exact .inl rfl
    · exact .inl rfl

theorem dropTrailing_rooted (rooted : cs = [] ∨ cs.head? = some '/') :
    Text.dropTrailing (· == '/') cs = [] ∨
      (Text.dropTrailing (· == '/') cs).head? = some '/' := by
  obtain ⟨dropped, whole⟩ := List.rdropWhile_prefix (· == '/') cs
  rw [← Text.dropTrailing_eq_rdropWhile] at whole
  cases kept : Text.dropTrailing (· == '/') cs with
  | nil => exact .inl rfl
  | cons c rest =>
    rw [kept] at whole
    rcases rooted with rfl | rooted
    · cases whole
    · rw [← whole] at rooted
      exact .inr rooted

theorem dropTrailing_open (cs : List Char) :
    (Text.dropTrailing (· == '/') cs).getLast? ≠ some '/' := by
  intro slash
  rw [Text.dropTrailing_eq_rdropWhile] at slash
  have nonempty : cs.rdropWhile (· == '/') ≠ [] := by
    intro none
    rw [none] at slash
    cases slash
  have last := List.rdropWhile_last_not _ cs nonempty
  rw [List.getLast?_eq_some_getLast nonempty] at slash
  rw [Option.some.inj slash] at last
  exact last rfl

theorem portOf_decimal (authority : List Char) :
    portOf authority = "" ∨ ∃ n ≤ 65535, portOf authority = toString n := by
  unfold portOf
  split
  · cases read : Text.unsigned? UInt16.size (afterLast ':' authority) with
    | none => exact .inl rfl
    | some n =>
      obtain ⟨-, below⟩ := Option.filter_eq_some_iff.mp read
      have below : n < 65536 := of_decide_eq_true below
      exact .inr ⟨n, by omega, rfl⟩
  · exact .inl rfl

theorem mem_hostOf {authority : List Char} (member : c ∈ hostOf authority) :
    c ∈ authority ∨ c = ']' := by
  have within (c : Char) (member : c ∈ afterLast '@' authority) : c ∈ authority :=
    List.mem_reverse.mp ((List.takeWhile_prefix _).subset (List.mem_reverse.mp member))
  simp only [hostOf] at member
  split at member
  · rcases List.mem_append.mp member with inside | last
    · exact .inl (within c ((List.takeWhile_prefix _).subset inside))
    · exact .inr (List.mem_singleton.mp last)
  · exact .inl (within c ((List.takeWhile_prefix _).subset member))

theorem ofAbsolute?_decomposed {text : String} (parsed : ofAbsolute? text = some url) :
    Decomposed url := by
  simp only [ofAbsolute?, Option.bind_eq_bind, Option.bind_none, Option.ite_none_left_eq_some,
    Option.bind_eq_some_iff, Option.some.injEq] at parsed
  obtain ⟨-, ⟨scheme, rest⟩, -, -, path, found, rfl⟩ := parsed
  have ends : ∀ c ∈ (rest.dropWhile (!isAuthorityEnd ·)).head?, isAuthorityEnd c := by
    intro c first
    have stops := List.head?_dropWhile_not (!isAuthorityEnd ·) rest
    rw [first] at stops
    simpa using stops
  refine ⟨?_, ?_, portOf_decimal _, ?_⟩
  · rw [String.toList_ofList]
    refine (dropTrailing_rooted (path?_rooted ends found)).imp_left fun none => ?_
    exact congrArg String.ofList none
  · rw [String.toList_ofList]
    exact dropTrailing_open path
  · rw [String.toList_ofList]
    intro slash
    rcases mem_hostOf slash with inside | bracket
    · exact absurd (List.mem_takeWhile_imp inside) (by decide)
    · exact absurd bracket (by decide)

theorem ofHost_decomposed (text : String) : Decomposed (ofHost text) := by
  refine ⟨.inl rfl, by simp [ofHost], .inl rfl, ?_⟩
  intro slash
  rw [ofHost, String.toList_ofList] at slash
  exact absurd (List.mem_takeWhile_imp slash) (by decide)

theorem parse_decomposed (text : String) : Decomposed (parse text) := by
  unfold parse
  cases parsed : ofAbsolute? (Text.trim text) with
  | none => exact ofHost_decomposed _
  | some url => exact ofAbsolute?_decomposed parsed

end

/-- Base URLs are taken apart without loss. One in plain form gives its scheme, host and port as they are
written, and its path without the slashes at its end, whatever white space stands around it; and of
every text the parts fit together. -/
theorem parse_parts :
    (∀ (url : Plain) (before after : String), Text.allBlank before → Text.allBlank after →
      url.text.utf8ByteSize ≤ 65534 →
      ∃ path slashes, url.path.toList = path.toList ++ List.replicate slashes '/' ∧
        path.toList.getLast? ≠ some '/' ∧
        parse (before ++ url.text ++ after) = ⟨url.scheme.name, url.host, url.portText, path⟩) ∧
    ∀ text, Decomposed (parse text) := by
  refine ⟨fun url before after front back short => ?_, parse_decomposed⟩
  have parsed : parse (before ++ url.text ++ after) = ⟨url.scheme.name, url.host, url.portText,
      String.ofList (Text.dropTrailing (· == '/') url.path.toList)⟩ := by
    rw [parse, Text.trim_surrounded front back url.text_shown, url.ofAbsolute?_text short]
    rfl
  have slashes : url.path.toList.rtakeWhile (· == '/') =
      List.replicate (url.path.toList.rtakeWhile (· == '/')).length '/' := by
    refine List.eq_replicate_iff.mpr ⟨rfl, fun c member => ?_⟩
    simpa using List.mem_rtakeWhile_imp member
  refine ⟨_, (url.path.toList.rtakeWhile (· == '/')).length, ?_, ?_, parsed⟩
  · rw [String.toList_ofList, ← slashes]
    exact List.rdropWhile_append_rtakeWhile.symm
  · rw [String.toList_ofList]
    exact dropTrailing_open _

/-- A URL with all parts, and two slashes at its end. -/
def Plain.versioned : Plain where
  scheme := .http
  host := "api-2.example.com"
  port := some 8080
  path := "/v1.0//"
  host_nonempty := by decide
  host_chars := by decide
  path_rooted := .inr rfl
  path_chars := by decide

theorem versioned_parts :
    Text.allBlank " \t" ∧ Text.allBlank "\u3000" ∧ Plain.versioned.text.utf8ByteSize ≤ 65534 ∧
      " \t" ++ Plain.versioned.text ++ "\u3000" = " \thttp://api-2.example.com:8080/v1.0//\u3000" ∧
      parse (" \t" ++ Plain.versioned.text ++ "\u3000") =
        ⟨"http", "api-2.example.com", "8080", "/v1.0"⟩ := by
  have front : Text.allBlank " \t" := by decide
  have back : Text.allBlank "\u3000" := by decide
  have short : Plain.versioned.text.utf8ByteSize ≤ 65534 := by decide
  obtain ⟨path, slashes, whole, last, parsed⟩ := parse_parts.1 .versioned _ _ front back short
  have dropped : Text.dropTrailing (· == '/') Plain.versioned.path.toList = path.toList := by
    rw [whole]
    refine Text.dropTrailing_append (fun c member => ?_) fun c member => ?_
    · exact beq_eq_false_iff_ne.mpr fun slash => last (slash ▸ member)
    · exact beq_iff_eq.mpr (List.eq_of_mem_replicate member)
  have kept : path = "/v1.0" := by
    rw [← String.toList_inj, ← dropped]
    decide
  refine ⟨front, back, short, by decide, ?_⟩
  rw [parsed, kept]
  rfl

/-- What has a port but no scheme is a host as a whole. -/
example : parse "localhost:9000" = ⟨"https", "localhost:9000", "", ""⟩ := by decide

end BaseUrl
end LoadPlan
