import LoadPlan.Proofs.Yaml.Shown
import Mathlib.Data.List.Chain

/-! Strings of JSON texts as double-quoted scalars. The YAML scanner reads the same content, as long
as there is no break in it that is folded. -/
namespace LoadPlan.Yaml
open Json (scanString escape? prepend)

/-- The two Unicode separators, which break lines in YAML. -/
def isSeparator (c : Char) : Bool := c == '\u2028' || c == '\u2029'

/-- Characters that can stand next to each other without a blank being folded into a break. -/
def Apart (a b : Char) : Prop := ¬ (a = ' ' ∧ isSeparator b) ∧ ¬ (isSeparator a ∧ b = ' ')

instance : DecidableRel Apart := fun a b =>
  inferInstanceAs (Decidable (¬ (a = ' ' ∧ isSeparator b) ∧ ¬ (isSeparator a ∧ b = ' ')))

/-- Texts whose strings the folding of line breaks leaves as they are. -/
structure Unfolded (cs : List Char) : Prop where
  lines : '\u0085' ∉ cs
  apart : cs.IsChain Apart

theorem Unfolded.suffix {cs after : List Char} (unfolded : Unfolded cs) (ends : after <:+ cs) :
    Unfolded after :=
  ⟨fun inside => unfolded.lines (ends.subset inside), unfolded.apart.suffix ends⟩

theorem Unfolded.tail {cs : List Char} (unfolded : Unfolded (c :: cs)) : Unfolded cs :=
  unfolded.suffix (List.suffix_cons c cs)

/-- What a gap holds after a character: nothing, blanks, or separators. -/
inductive Pending : Gap → Char → List Char → Prop
  | none : Pending (.blanks []) last []
  | blanks : kept ≠ [] → Pending (.blanks kept) ' ' kept
  | breaks : isSeparator first → isSeparator last →
      Pending (.breaks (some first) more) last (first :: more)

namespace Pending
variable {gap : Gap} {last : Char} {held : List Char}

theorem text (pending : Pending gap last held) : gap.text = held := by
  cases pending with
  | none | blanks => rfl
  | @breaks first last more begun =>
    have unlike : first ≠ '\n' := by
      rintro rfl
      cases begun
    rw [Gap.text]
    · rfl
    all_goals
      intros
      simp_all

theorem add (pending : Pending gap last held) (apart : held ≠ [] → Apart last c)
    (gapped : isGap c = true) (visible : ¬ c.toNat < 0x20) : Pending (gap.add c) c (held ++ [c]) := by
  have kinds : c = ' ' ∨ isSeparator c = true := by
    simp only [isGap, isSpaceOrTab, isBreak, Bool.or_eq_true, beq_iff_eq] at gapped
    rcases gapped with (rfl | rfl) | (rfl | rfl) | rfl
    · exact .inl rfl
    · exact absurd (by decide) visible
    · exact absurd (by decide) visible
    · exact .inr rfl
    · exact .inr rfl
  rcases kinds with rfl | separates
  · cases pending with
    | none => exact .blanks (List.cons_ne_nil _ _)
    | blanks => exact .blanks (by simp)
    | breaks _ before => exact absurd ⟨before, rfl⟩ (apart (List.cons_ne_nil _ _)).2
  · have breaks : isBreak c = true := by
      simp only [isSeparator, Bool.or_eq_true] at separates
      simp only [isBreak, Bool.or_assoc, Bool.or_eq_true]
      exact .inr separates
    cases pending with
    | none =>
      rw [Gap.add, if_pos breaks]
      exact .breaks separates separates
    | blanks some => exact absurd ⟨rfl, separates⟩ (apart some).1
    | breaks begun _ =>
      rw [Gap.add, if_pos breaks]
      exact .breaks begun separates

end Pending

section
variable {f : Folded} {cells : List Cell} {cs after : List Char} {out : String × List Cell}

theorem not_atDocumentMark {cell : Cell} (dash : cell.char ≠ '-') (dot : cell.char ≠ '.')
    (rest : List Cell) : Cell.atDocumentMark (cell :: rest) = false := by
  unfold Cell.atDocumentMark Cell.atRow
  split <;> simp_all

theorem hex_cons (shows : Shows cells (c :: cs)) (digit : Json.hexValue? c = some d) :
    ∃ cell rest, cells = cell :: rest ∧ Json.hexValue? cell.char = some d ∧ Shows rest cs := by
  obtain ⟨cell, rest, same, rfl, later⟩ :=
    shows.cons (by rintro rfl; cases digit) (by rintro rfl; cases digit)
  exact ⟨cell, rest, same, digit, later⟩

theorem scanDouble_digit (digit : Json.hexValue? cell.char = some d) :
    scanDouble f (.digits (left + 2) value) (cell :: rest) =
      scanDouble f (.digits (left + 1) (value * 16 + d)) rest := by
  rw [scanDouble, digit]
  dsimp only
  rw [if_neg (by omega)]
  rfl

theorem scanDouble_lastDigit (digit : Json.hexValue? cell.char = some d)
    (scanned : scanDouble f (.digits 1 value) (cell :: rest) = some out) :
    (value * 16 + d).isValidChar ∧
      scanDouble (f.push (Char.ofNat (value * 16 + d))) .text rest = some out := by
  rw [scanDouble, digit] at scanned
  dsimp only at scanned
  rw [if_pos (Nat.le_refl 1), codePoint?] at scanned
  split at scanned
  · rename_i found
    split at found
    · rename_i valid
      cases found
      exact ⟨valid, scanned⟩
    · cases found
  · cases scanned

/-- The four digits of a numbered escape. -/
theorem scanDouble_hex4 (found : Json.hex4? cs = some (unit, after)) (shows : Shows cells cs)
    (scanned : scanDouble f (.digits 4 0) cells = some out) :
    ∃ rest, Shows rest after ∧ unit.isValidChar ∧
      scanDouble (f.push (Char.ofNat unit)) .text rest = some out := by
  unfold Json.hex4? at found
  split at found
  · obtain ⟨a, first, found⟩ := Option.bind_eq_some_iff.mp found
    obtain ⟨b, second, found⟩ := Option.bind_eq_some_iff.mp found
    obtain ⟨c, third, found⟩ := Option.bind_eq_some_iff.mp found
    obtain ⟨d, fourth, found⟩ := Option.bind_eq_some_iff.mp found
    cases found
    obtain ⟨_, _, rfl, first, shows⟩ := hex_cons shows first
    obtain ⟨_, _, rfl, second, shows⟩ := hex_cons shows second
    obtain ⟨_, _, rfl, third, shows⟩ := hex_cons shows third
    obtain ⟨_, rest, rfl, fourth, shows⟩ := hex_cons shows fourth
    rw [scanDouble_digit first, scanDouble_digit second, scanDouble_digit third] at scanned
    simp only [Nat.zero_mul, Nat.zero_add] at scanned
    exact ⟨rest, shows, scanDouble_lastDigit fourth scanned⟩
  · cases found

theorem scanDouble_escape (found : escape? cs = some (some d, after)) (shows : Shows cells cs)
    (scanned : scanDouble f .escape cells = some out) :
    ∃ rest, Shows rest after ∧ scanDouble (f.push d) .text rest = some out := by
  have letter {c named : Char} {cs : List Char} (shows : Shows cells (c :: cs))
      (unix : c ≠ '\r') (unlike : c ≠ '\u0085') (solid : isBreak c = false)
      (none : escapeDigits? c = none) (escapes : namedEscape? c = some named) :
      ∃ rest, Shows rest cs ∧ scanDouble (f.push named) .text rest = some out := by
    obtain ⟨cell, rest, rfl, rfl, later⟩ := shows.cons unix unlike
    rw [scanDouble] at scanned
    simp only [solid, none, escapes] at scanned
    exact ⟨rest, later, scanned⟩
  unfold escape? at found
  split at found
  case h_9 tail =>
    obtain ⟨cell, rest, rfl, named, later⟩ := shows.cons (by decide) (by decide)
    have digits : scanDouble f (.digits 4 0) rest = some out := by
      rw [scanDouble, named] at scanned
      exact scanned
    obtain ⟨⟨unit, middle⟩, four, found⟩ := Option.bind_eq_some_iff.mp found
    obtain ⟨rest, shows, valid, scanned⟩ := scanDouble_hex4 four later digits
    dsimp only at found
    split at found
    · cases found
      exact ⟨rest, shows, scanned⟩
    · rename_i surrogate
      simp only [Nat.isValidChar, Bool.or_eq_true, decide_eq_true_eq] at surrogate valid
      omega
  case h_10 => cases found
  all_goals
    cases found
    exact letter shows (by decide) (by decide) rfl rfl rfl

theorem hex4?_suffix (found : Json.hex4? cs = some (unit, after)) : after <:+ cs := by
  unfold Json.hex4? at found
  split at found
  · rename_i a b c d rest
    obtain ⟨_, -, found⟩ := Option.bind_eq_some_iff.mp found
    obtain ⟨_, -, found⟩ := Option.bind_eq_some_iff.mp found
    obtain ⟨_, -, found⟩ := Option.bind_eq_some_iff.mp found
    obtain ⟨_, -, found⟩ := Option.bind_eq_some_iff.mp found
    cases found
    exact List.suffix_append [a, b, c, d] _
  · cases found

theorem unicodeEscape?_suffix (found : Json.unicodeEscape? cs = some (d, after)) :
    after <:+ cs := by
  obtain ⟨⟨unit, middle⟩, four, found⟩ := Option.bind_eq_some_iff.mp found
  have first := hex4?_suffix four
  dsimp only at found
  split at found
  · cases found
    exact first
  · split at found
    · rename_i low rest second
      cases found
      split at second
      · unfold Json.lowSurrogate? at second
        split at second
        · rename_i tail
          have later := hex4?_suffix (Option.filter_eq_some_iff.mp second).1
          exact (later.trans (List.suffix_append ['\\', 'u'] tail)).trans first
        · cases second
      · cases second
    · cases found
      exact first

theorem escape?_suffix (found : escape? cs = some (d, after)) : after <:+ cs := by
  unfold escape? at found
  split at found
  case h_9 tail => exact (unicodeEscape?_suffix found).trans (List.suffix_cons ..)
  case h_10 => cases found
  all_goals
    cases found
    exact List.suffix_cons ..

theorem scanString_suffix (read : scanString cs = some (content, after)) : after <:+ cs := by
  fun_induction scanString cs generalizing content after with
  | case1 => cases read
  | case2 tail =>
    cases read
    exact List.suffix_cons ..
  | case3 tail d middle found _ ih =>
    obtain ⟨⟨text, rest⟩, scanned, same⟩ := Option.map_eq_some_iff.mp read
    cases same
    exact ((ih scanned).trans (escape?_suffix found)).trans (List.suffix_cons ..)
  | case4 => cases read
  | case5 => cases read
  | case6 c tail _ _ _ ih =>
    obtain ⟨⟨text, rest⟩, scanned, same⟩ := Option.map_eq_some_iff.mp read
    cases same
    exact (ih scanned).trans (List.suffix_cons ..)

theorem prepend_eq_some (joined : prepend d content = some text) :
    ∃ c tail, d = some c ∧ content = some tail ∧ text = c :: tail := by
  obtain ⟨c, first, joined⟩ := Option.bind_eq_some_iff.mp joined
  obtain ⟨tail, later, rfl⟩ := Option.map_eq_some_iff.mp joined
  exact ⟨c, tail, first, later, rfl⟩

theorem done_settle (f : Folded) : f.settle.done = f.gap.text.reverse ++ f.done := rfl

theorem settle_gap (f : Folded) : f.settle.gap.text = [] := rfl

theorem done_push (f : Folded) (c : Char) :
    (f.push c).done = c :: (f.gap.text.reverse ++ f.done) := rfl

/-- A string that a JSON text has next is read by the YAML scanner, if at all, with its content. -/
theorem scanDouble_shows (read : scanString cs = some (some content, after))
    (shows : Shows cells cs) (unfolded : Unfolded cs) (pending : Pending f.gap last held)
    (next : held ≠ [] → ∀ c ∈ cs.head?, Apart last c)
    (scanned : scanDouble f .text cells = some (text, rest)) :
    text = String.ofList (f.done.reverse ++ held ++ content) ∧ Shows rest after := by
  fun_induction scanString cs generalizing cells f last held content after with
  | case1 => cases read
  | case2 tail =>
    cases read
    obtain ⟨cell, others, rfl, quote, later⟩ := shows.cons (by decide) (by decide)
    rw [scanDouble, not_atDocumentMark (by simp [quote]) (by simp [quote]), quote] at scanned
    cases scanned
    refine ⟨?_, later⟩
    rw [Folded.text, done_settle, pending.text]
    simp
  | case3 tail d middle found _ ih =>
    obtain ⟨⟨tailText, after⟩, inner, same⟩ := Option.map_eq_some_iff.mp read
    obtain ⟨joined, rfl⟩ := Prod.mk.inj same
    obtain ⟨c, ending, rfl, rfl, rfl⟩ := prepend_eq_some joined
    obtain ⟨cell, others, rfl, backslash, later⟩ := shows.cons (by decide) (by decide)
    rw [scanDouble, not_atDocumentMark (by simp [backslash]) (by simp [backslash]),
      backslash] at scanned
    obtain ⟨rest, shows, scanned⟩ := scanDouble_escape found later scanned
    have onward : Unfolded middle :=
      unfolded.suffix ((escape?_suffix found).trans (List.suffix_cons ..))
    obtain ⟨rfl, ends⟩ := ih inner shows onward (.none : Pending _ ' ' _) (absurd rfl) scanned
    refine ⟨?_, ends⟩
    rw [done_push, settle_gap, done_settle, pending.text]
    simp
  | case4 => cases read
  | case5 => cases read
  | case6 c tail quote escape visible ih =>
    obtain ⟨⟨tailText, after⟩, inner, same⟩ := Option.map_eq_some_iff.mp read
    obtain ⟨joined, rfl⟩ := Prod.mk.inj same
    obtain ⟨_, ending, ⟨⟩, rfl, rfl⟩ := prepend_eq_some joined
    have unix : c ≠ '\r' := by
      rintro rfl
      exact visible (by decide)
    have unlike : c ≠ '\u0085' := by
      rintro rfl
      exact unfolded.lines List.mem_cons_self
    obtain ⟨cell, others, rfl, rfl, later⟩ := shows.cons unix unlike
    obtain ⟨apart, -⟩ := List.isChain_cons.mp unfolded.apart
    rw [scanDouble] at scanned
    split at scanned
    · cases scanned
    · split at scanned
      · rename_i gapped
        have grown := pending.add (fun some => next some _ rfl) gapped visible
        obtain ⟨rfl, ends⟩ := ih inner later unfolded.tail grown (fun _ => apart) scanned
        exact ⟨by simp [Folded.pass], ends⟩
      · rw [if_neg (by simpa using quote), if_neg (by simpa using escape)] at scanned
        obtain ⟨rfl, ends⟩ := ih inner later unfolded.tail (.none : Pending _ ' ' _) (absurd rfl) scanned
        refine ⟨?_, ends⟩
        rw [done_push, pending.text]
        simp

end
end LoadPlan.Yaml
