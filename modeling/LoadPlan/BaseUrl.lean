import LoadPlan.Text.Blank
import LoadPlan.Text.Digits

/-! Base URLs in parts. An absolute URL has a scheme, an authority and a path; of a text that is
none, what stands before the first slash is taken for the host. -/
namespace LoadPlan

structure BaseUrl where
  protocol : String
  host : String
  port : String
  /-- Without slashes at its end; empty for the root. -/
  path : String
  deriving Repr, DecidableEq

namespace BaseUrl

/-- Longer texts are no URLs, counted in bytes. -/
def maxLength : Nat := 65534

def maxSchemeLength : Nat := 64

def isSchemeChar (c : Char) : Bool := c.isAlphanum || ['+', '-', '.', '~'].contains c

def isAuthorityEnd (c : Char) : Bool := c == '/' || c == '?' || c == '#'

def isAuthorityChar (c : Char) : Bool :=
  c.isAlphanum ||
    ['!', '$', '&', '\'', '(', ')', '*', '+', ',', '-', '.', ':', ';', '=', '@', '[', ']', '_', '~',
      '%'].contains c

def isPathChar (c : Char) : Bool :=
  let n := c.toNat
  n == 0x21 || n == 0x22 || (0x24 ≤ n && n ≤ 0x3b) || n == 0x3d || (0x40 ≤ n && n ≤ 0x5f) ||
    (0x61 ≤ n && n ≤ 0x7e) || 0x80 ≤ n

def isQueryChar (c : Char) : Bool :=
  let n := c.toNat
  n == 0x21 || (0x24 ≤ n && n ≤ 0x3b) || n == 0x3d || (0x3f ≤ n && n ≤ 0x7e) || 0x80 ≤ n

def dropWord (word : List Char) (cs : List Char) : Option (List Char) :=
  if (cs.take word.length).map Char.toLower == word then some (cs.drop word.length) else none

/-- The scheme of a URL and what follows its two slashes. -/
def scheme? (cs : List Char) : Option (String × List Char) :=
  match dropWord "http://".toList cs, dropWord "https://".toList cs with
  | some rest, _ => some ("http", rest)
  | none, some rest => some ("https", rest)
  | none, none =>
    match cs.dropWhile isSchemeChar with
    | ':' :: '/' :: '/' :: rest =>
      let scheme := cs.takeWhile isSchemeChar
      if maxSchemeLength < scheme.length then none else some (String.ofList scheme, rest)
    | _ => none

/-- Colons counted, brackets seen and a percent sign pending while an authority is read. -/
structure AuthorityState where
  colons : Nat
  opened : Bool
  closed : Bool
  percent : Bool

/-- Colons within brackets or before an at sign do not count; brackets come as one pair. -/
def AuthorityState.step? (s : AuthorityState) (c : Char) : Option AuthorityState :=
  if !isAuthorityChar c then none
  else if c == ':' then if 8 ≤ s.colons then none else some { s with colons := s.colons + 1 }
  else if c == '[' then if s.percent || s.opened then none else some { s with opened := true }
  else if c == ']' then
    if !s.opened || s.closed then none
    else some { s with closed := true, colons := 0, percent := false }
  else if c == '@' then some { s with colons := 0, percent := false }
  else if c == '%' then some { s with percent := true }
  else some s

def AuthorityState.run? (s : AuthorityState) : List Char → Option AuthorityState
  | [] => some s
  | c :: rest => (s.step? c).bind fun next => next.run? rest

def isAuthority (cs : List Char) : Bool :=
  match AuthorityState.run? ⟨0, false, false, false⟩ cs with
  | some s =>
    !cs.isEmpty && s.opened == s.closed && s.colons ≤ 1 && cs.getLast? != some '@' && !s.percent
  | none => false

/-- The path of what follows an authority, when that and the query are well formed. -/
def path? (cs : List Char) : Option (List Char) :=
  let path := cs.takeWhile fun c => c != '?' && c != '#'
  let query := match cs.dropWhile fun c => c != '?' && c != '#' with
    | '?' :: rest => rest.takeWhile (· != '#')
    | _ => []
  if path.all isPathChar && query.all isQueryChar then some path else none

/-- What follows the last occurrence of a character, or the whole text. -/
def afterLast (mark : Char) (cs : List Char) : List Char :=
  (cs.reverse.takeWhile (· != mark)).reverse

def hostOf (authority : List Char) : List Char :=
  let rest := afterLast '@' authority
  if rest.head? == some '[' then rest.takeWhile (· != ']') ++ [']'] else rest.takeWhile (· != ':')

/-- The port of an authority, without the zeros before it. -/
def portOf (authority : List Char) : String :=
  if authority.contains ':' then
    ((Text.unsigned? UInt16.size (afterLast ':' authority)).map toString).getD ""
  else ""

/-- The parts of an absolute URL. -/
def ofAbsolute? (text : String) : Option BaseUrl := do
  if maxLength < text.utf8ByteSize then none
  let (scheme, rest) ← scheme? text.toList
  let authority := rest.takeWhile (!isAuthorityEnd ·)
  if !isAuthority authority then none
  let path ← path? (rest.dropWhile (!isAuthorityEnd ·))
  some
    { protocol := scheme
      host := String.ofList (hostOf authority)
      port := portOf authority
      path := String.ofList (Text.dropTrailing (· == '/') path) }

/-- What follows the first colon with two slashes. -/
def afterMark? : List Char → Option (List Char)
  | ':' :: '/' :: '/' :: rest => some rest
  | _ :: rest => afterMark? rest
  | [] => none

def ofHost (text : String) : BaseUrl :=
  { protocol := "https"
    host := String.ofList (((afterMark? text.toList).getD text.toList).takeWhile (· != '/'))
    port := ""
    path := "" }

/-- The parts of a base URL without the white space around it. -/
def parse (text : String) : BaseUrl :=
  (ofAbsolute? (Text.trim text)).getD (ofHost (Text.trim text))

end BaseUrl
end LoadPlan
