import LoadPlan.Proofs.Xml.Reader

/-! Escaped values. Undoing the entities gives back all characters that a document can have, and what
is escaped has neither a mark that ends it nor a character that is not allowed. -/
namespace LoadPlan.Xml

/-- What becomes of a character that is escaped. -/
inductive Escapes : Char → List Char → Prop
  | dropped (forbidden : isAllowed c = false) : Escapes c []
  | entity (known : (name, c) ∈ entities) : Escapes c ('&' :: name ++ [';'])
  | plain (allowed : isAllowed c) (entity : c ≠ '&') (start : c ≠ '<') (quote : c ≠ '"') :
      Escapes c [c]

theorem escapeChar_escapes (c : Char) : Escapes c (escapeChar c) := by
  have allowed := isAllowed_eq c
  unfold escapeChar
  cases forbidden : isForbidden c with
  | true => exact .dropped (by rw [allowed, forbidden]; rfl)
  | false =>
    simp only [Bool.false_eq_true, if_false]
    split
    · exact .entity (show (['a', 'm', 'p'], '&') ∈ entities by decide)
    · exact .entity (show (['l', 't'], '<') ∈ entities by decide)
    · exact .entity (show (['g', 't'], '>') ∈ entities by decide)
    · exact .entity (show (['q', 'u', 'o', 't'], '"') ∈ entities by decide)
    · exact .entity (show (['a', 'p', 'o', 's'], '\'') ∈ entities by decide)
    · rename_i entity start _ quote _
      exact .plain (by rw [allowed, forbidden]; rfl) entity start quote

theorem entities_sound : ∀ entry ∈ entities, ';' ∉ entry.1 ∧ isAllowed entry.2 ∧
    entities.lookup entry.1 = some entry.2 ∧
      entry.1.all fun d => isAllowed d && d != '<' && d != '"' := by
  decide

/-- The names of entities end where their semicolons stand. -/
theorem unescapeFrom?_name {name : List Char} (within : ';' ∉ name) (pending rest : List Char) :
    unescapeFrom? (some pending) (name ++ ';' :: rest) =
      (entities.lookup (pending ++ name)).bind fun mark => (unescape? rest).map (mark :: ·) := by
  induction name generalizing pending with
  | nil => simp [unescapeFrom?, unescape?]
  | cons c name ih =>
    obtain ⟨other, within⟩ := not_or.mp (mt List.mem_cons.mpr within)
    have goes : (c == ';') = false := beq_eq_false_iff_ne.mpr (Ne.symm other)
    rw [List.cons_append, unescapeFrom?, goes, if_neg Bool.false_ne_true, ih within,
      List.append_assoc]
    rfl

theorem unescape?_escapeChar (c : Char) (rest : List Char) :
    unescape? (escapeChar c ++ rest) = (unescape? rest).map ([c].filter isAllowed ++ ·) := by
  have escapes := escapeChar_escapes c
  generalize escapeChar c = cs at escapes
  cases escapes with
  | dropped forbidden => simp [forbidden]
  | @entity name _ known =>
    obtain ⟨within, allowed, found, -⟩ := entities_sound _ known
    have named := unescapeFrom?_name within [] rest
    rw [List.nil_append, found] at named
    simpa [unescape?, unescapeFrom?, allowed] using named
  | plain allowed entity =>
    have unmarked : (c == '&') = false := beq_eq_false_iff_ne.mpr entity
    simp [unescape?, unescapeFrom?, unmarked, allowed]

/-- Escaping loses nothing but what is not allowed. -/
theorem unescape?_escape (value : String) :
    unescape? (escape value).toList = some (value.toList.filter isAllowed) := by
  rw [escape, String.toList_ofList]
  induction value.toList with
  | nil => rfl
  | cons c rest ih =>
    rw [List.flatMap_cons, unescape?_escapeChar, ih]
    exact congrArg some (List.filter_append [c] rest).symm

/-- Escaped values have no marks in them, and only what is allowed. -/
theorem mem_escape {value : String} (member : c ∈ (escape value).toList) :
    isAllowed c ∧ c ≠ '<' ∧ c ≠ '"' := by
  rw [escape, String.toList_ofList, List.mem_flatMap] at member
  obtain ⟨source, -, member⟩ := member
  have escapes := escapeChar_escapes source
  generalize escapeChar source = cs at escapes member
  cases escapes with
  | dropped => contradiction
  | @entity name _ known =>
    obtain ⟨-, -, -, safe⟩ := entities_sound _ known
    rcases List.mem_cons.mp member with rfl | member
    · decide
    rcases List.mem_append.mp member with named | last
    · have harmless := List.all_eq_true.mp safe c named
      simpa [and_assoc] using harmless
    · cases List.mem_singleton.mp last
      decide
  | plain allowed entity start quote =>
    cases List.mem_singleton.mp member
    exact ⟨allowed, start, quote⟩

theorem allowed_escape (value : String) : Allowed (escape value) :=
  allowed_iff.mpr fun _ member => (mem_escape member).1

end LoadPlan.Xml
