import LoadPlan.Proofs.Json.Depth
import LoadPlan.Proofs.Json.Fields
import LoadPlan.Proofs.Json.RoundTrip

/-! Values as readers make them: whole numbers fit into 64 bits, and no object has two fields of one
key. All that is inside of such a value is of the kind again. -/
namespace LoadPlan.Json

inductive Sound : Json → Prop
  | null : Sound .null
  | bool : Sound (.bool value)
  | int (whole : Whole n) : Sound (.int n)
  | float : Sound (.float value)
  | string : Sound (.string text)
  | array (inner : ∀ item ∈ items, Sound item) : Sound (.array items)
  | object (distinct : (fields.map Prod.fst).Nodup) (inner : ∀ field ∈ fields, Sound field.2) :
      Sound (.object fields)

namespace Sound

theorem item {items : List Json} {item : Json} (sound : Sound (.array items))
    (member : item ∈ items) : Sound item := by
  cases sound with
  | array inner => exact inner item member

theorem keys {fields : List (String × Json)} (sound : Sound (.object fields)) :
    (fields.map Prod.fst).Nodup := by
  cases sound with
  | object distinct _ => exact distinct

theorem field {fields : List (String × Json)} {key : String} {value : Json}
    (sound : Sound (.object fields)) (member : (key, value) ∈ fields) : Sound value := by
  cases sound with
  | object _ inner => exact inner (key, value) member

theorem get? {node value : Json} {key : String} (sound : Sound node)
    (found : node.get? key = some value) : Sound value := by
  cases node with
  | object fields => exact sound.field (Reference.mem_of_lookup found)
  | null | bool | int | float | string | array => contradiction

theorem child? {node child : Json} {segment : String} (sound : Sound node)
    (found : Pointer.child? node segment = some child) : Sound child := by
  cases node with
  | object fields => exact sound.field (Reference.mem_of_lookup found)
  | array items =>
    obtain ⟨i, _, at_i⟩ := Option.bind_eq_some_iff.mp found
    exact sound.item (List.mem_of_getElem? at_i)
  | null | bool | int | float | string => contradiction

theorem walk? {node last : Json} {segments : List String} (sound : Sound node)
    (found : Pointer.walk? node segments = some last) : Sound last := by
  induction segments generalizing node with
  | nil =>
    cases found
    exact sound
  | cons segment rest ih =>
    obtain ⟨child, first, onward⟩ := Option.bind_eq_some_iff.mp found
    exact ih (sound.child? first) onward

theorem lookup? {root node : Json} {pointer : String} (sound : Sound root)
    (found : Pointer.lookup? root pointer = some node) : Sound node := by
  obtain ⟨segments, _, walked⟩ := Option.bind_eq_some_iff.mp found
  exact sound.walk? walked

theorem first? {node first : Json} (sound : Sound node) (found : node.first? = some first) :
    Sound first := by
  obtain ⟨items, listed, head⟩ := Option.bind_eq_some_iff.mp found
  cases node with
  | array =>
    cases listed
    exact sound.item (List.mem_of_mem_head? head)
  | null | bool | int | float | string | object => contradiction

theorem insert {fields : List (String × Json)} {key : String} {value : Json}
    (sound : Sound (.object fields)) (new : Sound value) :
    Sound (.object (insert fields key value)) := by
  refine .object (nodup_insert sound.keys) fun field member => ?_
  rcases mem_insert member with rfl | earlier
  · exact new
  · exact sound.field earlier

theorem ofFields {fields : List (String × Json)} (inner : ∀ field ∈ fields, Sound field.2) :
    Sound (ofFields fields) := by
  have onward (done : List (String × Json)) (before : Sound (.object done)) :
      Sound (.object (fields.foldl (fun done field => Json.insert done field.1 field.2) done)) := by
    induction fields generalizing done with
    | nil => exact before
    | cons field rest ih =>
      exact ih (fun field member => inner field (List.mem_cons_of_mem _ member)) _
        (before.insert (inner field List.mem_cons_self))
  exact onward [] (.object List.nodup_nil (List.forall_mem_nil _))

theorem joinedItems_eq {items : List Json} (each : ∀ item ∈ items, item.joined = item) :
    joinedItems items = items := by
  induction items with
  | nil => rfl
  | cons item rest ih =>
    rw [joinedItems, each item List.mem_cons_self,
      ih fun item member => each item (List.mem_cons_of_mem _ member)]

theorem joinedFields_eq {fields : List (String × Json)}
    (each : ∀ field ∈ fields, field.2.joined = field.2) : joinedFields fields = fields := by
  induction fields with
  | nil => rfl
  | cons field rest ih =>
    rw [joinedFields, each field List.mem_cons_self,
      ih fun field member => each field (List.mem_cons_of_mem _ member)]

/-- No fields are joined in a value whose keys differ. -/
theorem joined_eq {value : Json} (sound : Sound value) : value.joined = value := by
  induction sound with
  | null | bool | int | float | string => rfl
  | array inner ih => rw [joined, joinedItems_eq ih]
  | object distinct inner ih => rw [joined, joinedFields_eq ih, ofFields_eq distinct]

end Sound

theorem Numeral.toJson?_sound {n : Numeral} (valued : n.toJson? = some value) : Sound value := by
  simp only [toJson?] at valued
  split at valued
  · rename_i small
    simp only [Bool.and_eq_true, decide_eq_true_eq] at small
    cases valued
    refine .int ⟨?_, ?_⟩ <;> omega
  · split at valued
    · rename_i negative
      simp only [Bool.and_eq_true, decide_eq_true_eq] at negative
      cases valued
      refine .int ⟨?_, ?_⟩ <;> omega
    · obtain ⟨x, -, rfl⟩ := Option.map_eq_some_iff.mp valued
      exact .float

theorem scanNumber_sound (scanned : scanNumber cs = some (some value, rest)) : Sound value := by
  unfold scanNumber at scanned
  split at scanned <;>
  · obtain ⟨⟨n, after⟩, -, same⟩ := Option.map_eq_some_iff.mp scanned
    exact Numeral.toJson?_sound (Prod.mk.inj same).1

namespace Token

theorem word?_sound (word : word? cs = some (some value, rest)) : Sound value := by
  unfold word? at word
  split at word <;> cases word
  · exact .null
  · exact .bool
  · exact .bool

theorem next?_sound (next : next? cs = some (.scalar (some value), rest)) : Sound value := by
  unfold next? at next
  split at next
  · contradiction
  · rename_i c after
    split at next
    · rename_i token mark
      cases next
      unfold punctuation? at mark
      split at mark <;> cases mark
    · split at next
      · obtain ⟨_, -, same⟩ := Option.map_eq_some_iff.mp next
        cases (Prod.mk.inj same).1
      · obtain ⟨⟨found, after⟩, scanned, same⟩ := Option.map_eq_some_iff.mp next
        cases same
        rcases Option.or_eq_some_iff.mp scanned with word | ⟨-, number⟩
        · exact word?_sound word
        · exact scanNumber_sound number

/-- Scalars that are scanned are sound. -/
theorem scan_sound {tokens : List Token} (scanned : scan cs = some tokens)
    (member : scalar (some value) ∈ tokens) : Sound value := by
  fun_induction scan cs generalizing tokens with
  | case1 => cases scanned; contradiction
  | case2 c rest space ih => exact ih scanned member
  | case3 c rest solid token after next ih =>
    obtain ⟨later, others, rfl⟩ := Option.map_eq_some_iff.mp scanned
    rcases List.mem_cons.mp member with rfl | member
    · exact next?_sound next
    · exact ih others member
  | case4 => contradiction

end Token

/-- An unfinished array or object of sound values. -/
def Frame.Sound : Frame → Prop
  | .array items => Json.Sound (.array items)
  | .object fields => Json.Sound (.object fields)
  | .member fields _ => Json.Sound (.object fields)

namespace Reader

structure Sound (r : Reader) : Prop where
  stack : ∀ frame ∈ r.stack, frame.Sound
  value : ∀ value, r.want = .after value → value.Sound

variable {stack : List Frame} {token : Token} {next : Reader}

theorem beginValue_sound (before : ∀ frame ∈ stack, frame.Sound)
    (scalar : ∀ value, token = .scalar (some value) → value.Sound)
    (stepped : beginValue stack token = some next) : next.Sound := by
  unfold beginValue at stepped
  split at stepped <;> cases stepped
  · exact ⟨before, fun _ same => by cases same; exact .string⟩
  · exact ⟨before, fun _ same => by cases same; exact scalar _ rfl⟩
  · refine ⟨List.forall_mem_cons.mpr ⟨.array (List.forall_mem_nil _), before⟩, fun _ => (nomatch ·)⟩
  · refine ⟨List.forall_mem_cons.mpr ⟨.object List.nodup_nil (List.forall_mem_nil _), before⟩,
      fun _ => (nomatch ·)⟩

theorem key?_sound (before : ∀ frame ∈ stack, frame.Sound)
    (stepped : key? stack token = some next) : next.Sound := by
  unfold key? at stepped
  split at stepped <;> cases stepped
  obtain ⟨first, others⟩ := List.forall_mem_cons.mp before
  exact ⟨List.forall_mem_cons.mpr ⟨first, others⟩, fun _ => (nomatch ·)⟩

theorem afterValue_sound {value : Json} (before : ∀ frame ∈ stack, frame.Sound)
    (sound : value.Sound) (stepped : afterValue stack value token = some next) : next.Sound := by
  have pushed {items : List Json} (inner : Json.Sound (.array items)) :
      Json.Sound (.array (value :: items)) :=
    .array (List.forall_mem_cons.mpr ⟨sound, fun _ member => inner.item member⟩)
  unfold afterValue at stepped
  split at stepped
  · split at stepped <;> cases stepped
    · obtain ⟨first, others⟩ := List.forall_mem_cons.mp before
      exact ⟨List.forall_mem_cons.mpr ⟨pushed first, others⟩, fun _ => (nomatch ·)⟩
    · obtain ⟨first, others⟩ := List.forall_mem_cons.mp before
      exact ⟨List.forall_mem_cons.mpr ⟨Json.Sound.insert first sound, others⟩, fun _ => (nomatch ·)⟩
  · split at stepped <;> cases stepped
    obtain ⟨first, others⟩ := List.forall_mem_cons.mp before
    refine ⟨others, fun _ same => ?_⟩
    cases same
    exact .array fun item member => (pushed first).item (List.mem_reverse.mp member)
  · split at stepped <;> cases stepped
    obtain ⟨first, others⟩ := List.forall_mem_cons.mp before
    refine ⟨others, fun _ same => ?_⟩
    cases same
    exact Json.Sound.insert first sound
  · contradiction

theorem step_sound {r : Reader} (sound : r.Sound)
    (scalar : ∀ value, token = .scalar (some value) → value.Sound)
    (stepped : r.step token = some next) : next.Sound := by
  obtain ⟨stack, want⟩ := r
  obtain ⟨before, value⟩ := sound
  cases want with
  | value => exact beginValue_sound before scalar stepped
  | valueOrClose =>
    simp only [step] at stepped
    split at stepped
    · cases stepped
      obtain ⟨first, others⟩ := List.forall_mem_cons.mp before
      refine ⟨others, fun _ same => ?_⟩
      cases same
      exact .array fun item member => Json.Sound.item first (List.mem_reverse.mp member)
    · exact beginValue_sound before scalar stepped
  | key => exact key?_sound before stepped
  | keyOrClose =>
    simp only [step] at stepped
    split at stepped
    · cases stepped
      obtain ⟨first, others⟩ := List.forall_mem_cons.mp before
      refine ⟨others, fun _ same => ?_⟩
      cases same
      exact first
    · exact key?_sound before stepped
  | colon =>
    simp only [step] at stepped
    split at stepped <;> cases stepped
    exact ⟨before, fun _ => (nomatch ·)⟩
  | after last => exact afterValue_sound before (value last rfl) stepped

theorem run_sound {r last : Reader} {tokens : List Token} (sound : r.Sound)
    (scalars : ∀ value, .scalar (some value) ∈ tokens → value.Sound)
    (ran : r.run tokens = some last) : last.Sound := by
  induction tokens generalizing r with
  | nil =>
    cases ran
    exact sound
  | cons token rest ih =>
    obtain ⟨next, stepped, ran⟩ := Option.bind_eq_some_iff.mp ran
    split at ran
    · have stepSound := step_sound sound
        (fun value same => scalars value (same ▸ List.mem_cons_self)) stepped
      exact ih stepSound (fun value member => scalars value (List.mem_cons_of_mem _ member)) ran
    · contradiction

end Reader

/-- What is read is sound. -/
theorem read?_sound (read : read? text = some value) : Sound value := by
  obtain ⟨tokens, scanned, read⟩ := Option.bind_eq_some_iff.mp read
  obtain ⟨reader, ran, read⟩ := Option.bind_eq_some_iff.mp read
  have start : Reader.start.Sound := ⟨fun _ => (nomatch ·), fun _ => (nomatch ·)⟩
  have sound := Reader.run_sound start (fun _ member => Token.scan_sound scanned member) ran
  unfold Reader.result? at read
  split at read <;> cases read
  rename_i wanted
  exact sound.value value wanted

end LoadPlan.Json
