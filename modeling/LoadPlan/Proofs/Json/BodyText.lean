import LoadPlan.Proofs.Json.Carried

/-! Body texts as JSON. The commas, line ends and brackets of a body text are read as they are meant,
whatever its strings and keys hold, so that the text has all of the value in it. -/
namespace LoadPlan.Json

/-- A value of whole numbers is read back from its text: the same kinds of values, items and fields in
the same order, and every string and key as it was. So no two such values have one text. -/
theorem bodyText_reads_back {value : Json} (sound : Sound value) (floatFree : FloatFree value)
    (shallow : value.depth ≤ 127) :
    read? (bodyText value) = some value ∧
      ∀ other, Sound other → FloatFree other → other.depth ≤ 127 →
        bodyText other = bodyText value → other = value := by
  have back {value : Json} (sound : Sound value) (floatFree : FloatFree value)
      (shallow : value.depth ≤ 127) : read? (bodyText value) = some value := by
    rw [read?_bodyText (sound.writable floatFree) shallow, sound.joined_eq]
  refine ⟨back sound floatFree shallow, fun other sound' floatFree' shallow' same => ?_⟩
  have read := back sound' floatFree' shallow'
  rw [same, back sound floatFree shallow] at read
  exact (Option.some.inj read).symm

/-- Numbers at both ends, empty brackets, and a key and a string of marks that JSON gives a meaning. -/
def crowdedValue : Json := .object
  [("\"\\,\n", .array [.int (-9223372036854775808), .int 18446744073709551615, .array [], .object []]),
    ("", .string "\x00\x7d]\ufffe")]

theorem crowded_reads_back : Sound crowdedValue ∧ FloatFree crowdedValue ∧ crowdedValue.depth ≤ 127 ∧
    read? (bodyText crowdedValue) = some crowdedValue := by
  have numbers : Sound (.array [.int (-9223372036854775808), .int 18446744073709551615, .array [],
      .object []]) :=
    .array (List.forall_mem_cons.mpr ⟨.int (by decide), List.forall_mem_cons.mpr ⟨.int (by decide),
      List.forall_mem_cons.mpr ⟨.array (List.forall_mem_nil _), List.forall_mem_singleton.mpr
        (.object List.nodup_nil (List.forall_mem_nil _))⟩⟩⟩)
  have sound : Sound crowdedValue :=
    .object (by decide) (List.forall_mem_cons.mpr ⟨numbers, List.forall_mem_singleton.mpr .string⟩)
  have whole : FloatFree (.array [.int (-9223372036854775808), .int 18446744073709551615, .array [],
      .object []]) :=
    .array (List.forall_mem_cons.mpr ⟨.int, List.forall_mem_cons.mpr ⟨.int, List.forall_mem_cons.mpr
      ⟨.array (List.forall_mem_nil _), List.forall_mem_singleton.mpr
        (.object (List.forall_mem_nil _))⟩⟩⟩)
  have floatFree : FloatFree crowdedValue :=
    .object (List.forall_mem_cons.mpr ⟨whole, List.forall_mem_singleton.mpr .string⟩)
  exact ⟨sound, floatFree, by decide, (bodyText_reads_back sound floatFree (by decide)).1⟩

end LoadPlan.Json
