/-! Strings in JSON texts, as characters between two quotes with escapes for some of them. -/
namespace LoadPlan.Json

def hexValue? (c : Char) : Option Nat :=
  if c.isDigit then some (c.toNat - '0'.toNat)
  else if 'a' ≤ c && c ≤ 'f' then some (c.toNat - 'a'.toNat + 10)
  else if 'A' ≤ c && c ≤ 'F' then some (c.toNat - 'A'.toNat + 10)
  else none

/-- Four hexadecimal digits, and what follows them. -/
def hex4? : List Char → Option (Nat × List Char)
  | a :: b :: c :: d :: rest => do
    let a ← hexValue? a
    let b ← hexValue? b
    let c ← hexValue? c
    let d ← hexValue? d
    some (((a * 16 + b) * 16 + c) * 16 + d, rest)
  | _ => none

/-- The second half of a character beyond U+FFFF. -/
def lowSurrogate? : List Char → Option (Nat × List Char)
  | '\\' :: 'u' :: rest => (hex4? rest).filter fun (low, _) => 0xdc00 ≤ low && low < 0xe000
  | _ => none

/-- The character of a `\u` escape; beyond U+FFFF it is written as two surrogates. A surrogate on
its own has the form of an escape, but is no character. -/
def unicodeEscape? (cs : List Char) : Option (Option Char × List Char) := do
  let (unit, rest) ← hex4? cs
  if unit < 0xd800 || 0xe000 ≤ unit then some (some (Char.ofNat unit), rest)
  else match if unit < 0xdc00 then lowSurrogate? rest else none with
    | some (low, rest) =>
      some (some (Char.ofNat (0x10000 + (unit - 0xd800) * 0x400 + (low - 0xdc00))), rest)
    | none => some (none, rest)

/-- What a backslash and the text after it stand for. -/
def escape? : List Char → Option (Option Char × List Char)
  | '"' :: rest => some (some '"', rest)
  | '\\' :: rest => some (some '\\', rest)
  | '/' :: rest => some (some '/', rest)
  | 'b' :: rest => some (some '\x08', rest)
  | 'f' :: rest => some (some '\x0c', rest)
  | 'n' :: rest => some (some '\n', rest)
  | 'r' :: rest => some (some '\r', rest)
  | 't' :: rest => some (some '\t', rest)
  | 'u' :: rest => unicodeEscape? rest
  | _ => none

private theorem hex4?_length {cs rest : List Char} (h : hex4? cs = some (n, rest)) :
    rest.length < cs.length := by
  unfold hex4? at h
  split at h
  · simp only [Option.bind_eq_bind, Option.bind_eq_some_iff, Option.some.injEq, Prod.mk.injEq] at h
    obtain ⟨_, _, _, _, _, _, _, _, _, rfl⟩ := h
    simp only [List.length_cons]
    omega
  · simp at h

private theorem lowSurrogate?_length {cs rest : List Char}
    (h : lowSurrogate? cs = some (n, rest)) : rest.length < cs.length := by
  unfold lowSurrogate? at h
  split at h
  · have := hex4?_length (Option.filter_eq_some_iff.1 h).1
    simp only [List.length_cons]
    omega
  · simp at h

private theorem unicodeEscape?_length {cs rest : List Char}
    (h : unicodeEscape? cs = some (c, rest)) : rest.length < cs.length := by
  simp only [unicodeEscape?, Option.bind_eq_bind, Option.bind_eq_some_iff] at h
  obtain ⟨⟨unit, tail⟩, hfirst, h⟩ := h
  have hlen := hex4?_length hfirst
  dsimp only at h
  split at h
  · simp_all
  · split at h
    · rename_i hlow
      split at hlow
      · have := lowSurrogate?_length hlow
        simp only [Option.some.injEq, Prod.mk.injEq] at h
        rw [← h.2]
        omega
      · simp at hlow
    · simp_all

theorem escape?_length {cs rest : List Char} (h : escape? cs = some (c, rest)) :
    rest.length < cs.length := by
  unfold escape? at h
  split at h
  case h_9 =>
    have := unicodeEscape?_length h
    simp only [List.length_cons]
    omega
  all_goals simp_all

/-- A character before a content; without either there is none. -/
def prepend (c : Option Char) (content : Option (List Char)) : Option (List Char) :=
  c.bind fun c => content.map (c :: ·)

/-- The content of a string after its opening quote, and what follows its closing one. A string
with an escape that is no character has no content. -/
def scanString (cs : List Char) : Option (Option (List Char) × List Char) :=
  match cs with
  | [] => none
  | c :: rest =>
    if c = '"' then some (some [], rest)
    else if c = '\\' then
      match _h : escape? rest with
      | some (d, after) => (scanString after).map fun (content, rest) => (prepend d content, rest)
      | none => none
    else if c.toNat < 0x20 then none
    else (scanString rest).map fun (content, rest) => (prepend c content, rest)
  termination_by cs.length
  decreasing_by
    · have := escape?_length _h
      simp only [List.length_cons]
      omega
    · simp

theorem scanString_length {cs rest : List Char} {content : Option (List Char)}
    (h : scanString cs = some (content, rest)) :
    rest.length < cs.length := by
  fun_induction scanString cs generalizing content rest with
  | case1 => simp at h
  | case2 => simp_all
  | case3 =>
    rename_i ih
    obtain ⟨⟨_, _⟩, hs, heq⟩ := Option.map_eq_some_iff.1 h
    have := ih hs
    have := escape?_length ‹_›
    simp only [Prod.mk.injEq] at heq
    simp only [List.length_cons, ← heq.2]
    omega
  | case4 => simp at h
  | case5 => simp at h
  | case6 =>
    rename_i ih
    obtain ⟨⟨_, _⟩, hs, heq⟩ := Option.map_eq_some_iff.1 h
    have := ih hs
    simp only [Prod.mk.injEq] at heq
    simp only [List.length_cons, ← heq.2]
    omega

end LoadPlan.Json
