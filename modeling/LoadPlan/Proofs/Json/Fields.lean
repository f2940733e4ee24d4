import LoadPlan.Json.Value
import Mathlib.Data.List.Nodup

/-! Fields of objects. A field that is put in changes what its key gives and nothing else, and adds no
second field of one key. -/
namespace LoadPlan.Json
variable {fields rest : List (String × Json)} {key other : String} {value : Json}

theorem lookup_field :
    List.lookup other ((key, value) :: rest) =
      if other = key then some value else rest.lookup other := by
  by_cases same : other = key
  · rw [if_pos same, same, List.lookup_cons_self]
  · rw [if_neg same, List.lookup_cons, beq_eq_false_iff_ne.mpr same]

theorem lookup_eq_none : fields.lookup key = none ↔ key ∉ fields.map Prod.fst := by
  rw [List.lookup_eq_none_iff, List.mem_map]
  constructor
  · rintro others ⟨field, member, same⟩
    exact absurd same.symm (bne_iff_ne.mp (others field member))
  · intro missing field member
    exact bne_iff_ne.mpr fun same => missing ⟨field, member, same.symm⟩

theorem lookup_insert :
    (insert fields key value).lookup other =
      if other = key then some value else fields.lookup other := by
  induction fields with
  | nil => exact lookup_field
  | cons field rest ih =>
    obtain ⟨name, first⟩ := field
    by_cases known : name = key
    · subst known
      simp only [insert, beq_self_eq_true, if_true, lookup_field]
      split <;> rfl
    · rw [insert, if_neg (by simpa using known), lookup_field, lookup_field, ih]
      by_cases here : other = name
      · rw [if_pos here, if_pos here, if_neg (here ▸ known)]
      · rw [if_neg here, if_neg here]

theorem mem_insert {field : String × Json} (member : field ∈ insert fields key value) :
    field = (key, value) ∨ field ∈ fields := by
  induction fields with
  | nil => exact .inl (List.mem_singleton.mp member)
  | cons first rest ih =>
    obtain ⟨name, content⟩ := first
    rw [insert] at member
    split at member
    · rename_i known
      cases eq_of_beq known
      rcases List.mem_cons.mp member with rfl | later
      · exact .inl rfl
      · exact .inr (List.mem_cons_of_mem _ later)
    · rcases List.mem_cons.mp member with rfl | later
      · exact .inr List.mem_cons_self
      · exact (ih later).imp_right (List.mem_cons_of_mem _)

theorem nodup_insert (distinct : (fields.map Prod.fst).Nodup) :
    ((insert fields key value).map Prod.fst).Nodup := by
  induction fields with
  | nil => exact List.nodup_singleton key
  | cons first rest ih =>
    obtain ⟨name, content⟩ := first
    obtain ⟨new, others⟩ := List.nodup_cons.mp distinct
    rw [insert]
    split
    · exact List.nodup_cons.mpr ⟨new, others⟩
    · rename_i unlike
      refine List.nodup_cons.mpr ⟨fun known => ?_, ih others⟩
      obtain ⟨field, member, same⟩ := List.mem_map.mp known
      rcases mem_insert member with rfl | earlier
      · exact unlike (beq_iff_eq.mpr same.symm)
      · exact new (List.mem_map.mpr ⟨field, earlier, same⟩)

/-- A field with a new key goes last. -/
theorem insert_new (new : key ∉ fields.map Prod.fst) :
    insert fields key value = fields ++ [(key, value)] := by
  induction fields with
  | nil => rfl
  | cons first rest ih =>
    obtain ⟨other, later⟩ := not_or.mp (mt List.mem_cons.mpr new)
    rw [insert, if_neg (by simpa using Ne.symm other), ih later]
    rfl

theorem foldl_insert (distinct : ((fields ++ rest).map Prod.fst).Nodup) :
    rest.foldl (fun done (key, value) => insert done key value) fields = fields ++ rest := by
  induction rest generalizing fields with
  | nil => exact (List.append_nil fields).symm
  | cons field rest ih =>
    obtain ⟨key, value⟩ := field
    have new : key ∉ fields.map Prod.fst := by
      rw [List.map_append, List.map_cons, List.nodup_append] at distinct
      exact fun known => distinct.2.2 key known key List.mem_cons_self rfl
    have joined := @ih (fields ++ [(key, value)]) (by simpa using distinct)
    rw [List.append_assoc, List.singleton_append] at joined
    simpa only [List.foldl_cons, insert_new new] using joined

theorem mem_keys_insert :
    other ∈ (insert fields key value).map Prod.fst ↔ other ∈ fields.map Prod.fst ∨ other = key := by
  induction fields with
  | nil => simp [insert]
  | cons first rest ih =>
    obtain ⟨name, content⟩ := first
    rw [insert]
    split
    · rename_i known
      rw [eq_of_beq known, List.map_cons, List.map_cons, List.mem_cons]
      tauto
    · rw [List.map_cons, List.mem_cons, ih, List.map_cons, List.mem_cons, or_assoc]

theorem mem_keys_foldl_insert :
    other ∈ (rest.foldl (fun done (key, value) => insert done key value) fields).map Prod.fst ↔
      other ∈ fields.map Prod.fst ∨ other ∈ rest.map Prod.fst := by
  induction rest generalizing fields with
  | nil => simp
  | cons field rest ih => rw [List.foldl_cons, ih, mem_keys_insert, List.map_cons, List.mem_cons,
      or_assoc]

/-- Fields under keys that are wanted stay as they are when another is put in. -/
theorem filter_insert {wanted : String → Bool} (unwanted : wanted key = false) :
    (insert fields key value).filter (fun field => wanted field.1) =
      fields.filter fun field => wanted field.1 := by
  induction fields with
  | nil => simp [insert, unwanted]
  | cons first rest ih =>
    obtain ⟨name, content⟩ := first
    rw [insert]
    split
    · rename_i known
      rw [List.filter_cons_of_neg (by simp [eq_of_beq known, unwanted]),
        List.filter_cons_of_neg (by simp [eq_of_beq known, unwanted])]
    · rw [List.filter_cons, List.filter_cons, ih]

/-- Fields under keys of which there is one each come through, in their order. -/
theorem filter_foldl_insert {wanted : String → Bool}
    (single : ∀ name, wanted name → ((fields ++ rest).filter (·.1 == name)).length ≤ 1) :
    (rest.foldl (fun done (key, value) => insert done key value) fields).filter
        (fun field => wanted field.1) =
      (fields ++ rest).filter fun field => wanted field.1 := by
  induction rest generalizing fields with
  | nil => rw [List.foldl_nil, List.append_nil]
  | cons field rest ih =>
    obtain ⟨key, value⟩ := field
    by_cases asked : wanted key = true
    · have new : key ∉ fields.map Prod.fst := by
        intro known
        obtain ⟨earlier, member, same⟩ := List.mem_map.mp known
        have here : earlier ∈ fields.filter (·.1 == key) :=
          List.mem_filter.mpr ⟨member, beq_iff_eq.mpr same⟩
        have once := single key asked
        rw [List.filter_append, List.filter_cons_of_pos (by simp), List.length_append] at once
        have before := List.length_pos_of_mem here
        simp only [List.length_cons] at once
        omega
      have joined := @ih (fields ++ [(key, value)]) (by simpa using single)
      rw [List.append_assoc, List.singleton_append] at joined
      simpa only [List.foldl_cons, insert_new new] using joined
    · have unwanted : wanted key = false := Bool.not_eq_true _ ▸ asked
      have kept : ∀ name, wanted name → ((insert fields key value ++ rest).filter
          (·.1 == name)).length ≤ 1 := by
        intro name named
        have other : (key == name) = false := by
          refine beq_eq_false_iff_ne.mpr ?_
          rintro rfl
          exact asked named
        have once := single name named
        rw [List.filter_append, List.filter_cons_of_neg (by simpa using other)] at once
        rw [List.filter_append, @filter_insert fields key value (· == name) other]
        exact once
      have joined := ih kept
      rw [List.filter_append, filter_insert unwanted] at joined
      rw [List.filter_append, List.filter_cons_of_neg (by simpa using unwanted)]
      exact joined

/-- Fields of different keys are an object as they are. -/
theorem ofFields_eq (distinct : (fields.map Prod.fst).Nodup) : ofFields fields = .object fields := by
  rw [ofFields, foldl_insert (by simpa using distinct), List.nil_append]

end LoadPlan.Json
