import LoadPlan.Proofs.Pointer.Location
import LoadPlan.Proofs.Reference.Chain
import LoadPlan.Proofs.Sample.Cycle

/-! What is expanded on the way to a call of synthesis. No pointer is followed twice on the way, so as
long as pointers have their usual spelling no place of the document is expanded inside of itself; but a
pointer in another spelling is not known again, and its place is expanded once more. -/
namespace LoadPlan

namespace Reference.Trail
variable {root start node : Json} {path via : List String}

theorem nodup_append (trail : Trail root path start via node) (before : path.Nodup) :
    (path ++ via).Nodup :=
  List.nodup_append.mpr ⟨before, trail.nodup, fun _ seen _ followed same =>
    trail.outside _ followed (same ▸ seen)⟩

/-- The chain is given up at a marker whose pointer is on the path or was followed to it. -/
theorem follow_eq_cycle (trail : Trail root path start via node)
    (marker : pointer? node = some pointer) (seen : pointer ∈ path ++ via) :
    follow root path start = .ok (.cycle pointer) := by
  rw [follow, trail.chase_eq, chase_marker marker, if_pos (by simpa using seen)]

end Reference.Trail

open Pointer (Canonical SameTarget)
open Reference (Trail follow pointer?)

theorem Operation.bodySchema_nodup {found : BodySchema}
    (read : bodySchema root node = .ok found) : found.via.Nodup := by
  obtain ⟨resolution, ends, rfl⟩ := Result.map_ok read
  cases resolution with
  | literal schema via => exact (Reference.follow_literal ends).1.nodup
  | cycle pointer => exact List.nodup_singleton pointer

namespace Sample

/-- The calls that synthesis begins with: for the body of an operation, or for a node by itself. -/
inductive Begins (d : Document) : Frame → Prop where
  | body (extracted : d.operations = .ok ops) (member : op ∈ ops) (bodied : op.body = some schema) :
      Begins d (.ofBody schema c)
  | node : Begins d ⟨[], property, node, c⟩

theorem Begins.nodup {d : Document} {frame : Frame} (begins : Begins d frame) :
    frame.path.Nodup := by
  cases begins with
  | body extracted member bodied =>
    obtain ⟨node, read⟩ := Document.body_read extracted member bodied
    exact Operation.bodySchema_nodup read
  | node => exact List.nodup_nil

theorem Calls.nodup {chance : Chance} {root : Json} {frame called : Frame}
    (calls : Calls chance root frame called) (before : frame.path.Nodup) : called.path.Nodup := by
  obtain ⟨literal, via, trail, -, -, path⟩ := calls.part
  rw [path]
  exact trail.nodup_append before

theorem nodup_of_calls {chance : Chance} {root : Json} {frame called : Frame}
    (calls : Relation.ReflTransGen (Calls chance root) frame called) (before : frame.path.Nodup) :
    called.path.Nodup := by
  induction calls with
  | refl => exact before
  | tail _ last ih => exact last.nodup ih

theorem Frame.sample_cycle {chance : Chance} {root : Json} {frame : Frame}
    (ends : follow root frame.path frame.node = .ok (.cycle pointer)) :
    frame.sample chance root = (.ok .null, frame.counters) := by
  rw [Frame.sample, sample_follow, ends]
  rfl

/-- What is visited is visited once. The pointers that are followed on the way to a call and in it are
all different; two of them in the usual spelling lead to different places. And a marker that its chain
comes to becomes null if its pointer was followed before, or its place was led to and both pointers
have that spelling. -/
theorem followed_once {d : Document} {start frame : Frame} (chance : Chance) (begins : Begins d start)
    (calls : Relation.ReflTransGen (Calls chance d.root) start frame) :
    (∀ literal via, follow d.root frame.path frame.node = .ok (.literal literal via) →
      (frame.path ++ via).Pairwise fun visited pointer => visited ≠ pointer ∧
        (Canonical d.root visited → Canonical d.root pointer →
          ¬ SameTarget d.root visited pointer)) ∧
    ∀ via marker pointer visited, Trail d.root frame.path frame.node via marker →
      pointer? marker = some pointer → visited ∈ frame.path ++ via →
      (pointer = visited ∨ Canonical d.root visited ∧ Canonical d.root pointer ∧
        SameTarget d.root visited pointer) →
      frame.sample chance d.root = (.ok .null, frame.counters) := by
  constructor
  · intro literal via ends
    obtain ⟨trail, -⟩ := Reference.follow_literal ends
    have different := trail.nodup_append (nodup_of_calls calls begins.nodup)
    refine different.imp fun other => ⟨other, fun canonical canonical' same => ?_⟩
    exact other (same.eq canonical canonical')
  · intro via marker pointer visited trail marked seen known
    have same : visited = pointer := by
      rcases known with known | ⟨canonical, canonical', same⟩
      · exact known.symm
      · exact same.eq canonical canonical'
    exact Frame.sample_cycle (trail.follow_eq_cycle marked (same ▸ seen))

/-- A marker of the first list, by an index with a zero in front. -/
def respelledMarker : Json := .object [("$ref", .string "#/lists/00")]

/-- The schema of lists of the same kind. -/
def shelfSchema : Json := .object [("type", .string "array"), ("items", respelledMarker)]

def shelfPaths : List (String × Json) := putPaths "/lists" (.object [("$ref", .string "#/lists/0")])

def shelfDocument : Document where
  fields := [("swagger", .string "2.0"), ("paths", .object shelfPaths), ("lists", .array [shelfSchema])]
  paths := shelfPaths
  versioned := .inr rfl
  paths_eq := rfl

def shelfBody : BodySchema := ⟨shelfSchema, ["#/lists/0"]⟩

def shelfOperation : Operation := ⟨"/lists", .put, none, none, [], some shelfBody⟩

theorem location_shelf {pointer : String} (known : pointer = "#/lists/0" ∨ pointer = "#/lists/00") :
    Pointer.location? shelfDocument.root pointer = some [.field "lists", .item 0] := by
  unfold Pointer.location? Pointer.segments?
  rcases known with rfl | rfl
  · rw [show String.toList "#/lists/0" = _ from String.toList_ofList]
    with_unfolding_all rfl
  · rw [show String.toList "#/lists/00" = _ from String.toList_ofList]
    with_unfolding_all rfl

theorem lookup_shelf {pointer : String} (known : pointer = "#/lists/0" ∨ pointer = "#/lists/00") :
    Pointer.lookup? shelfDocument.root pointer = some shelfSchema := by
  rw [Pointer.lookup?_eq_at?, location_shelf known]
  rfl

theorem shelf_sameTarget : SameTarget shelfDocument.root "#/lists/0" "#/lists/00" :=
  ⟨_, location_shelf (.inl rfl), location_shelf (.inr rfl)⟩

theorem shelf_canonical : Canonical shelfDocument.root "#/lists/0" := by
  have walks : Pointer.Walks shelfDocument.root ["lists", toString 0] shelfSchema :=
    .enter (.field rfl) (.enter (.item rfl (by decide)) .here)
  have written : Pointer.ofSegments ["lists", toString 0] = "#/lists/0" := by decide
  exact written ▸ walks.canonical

theorem operations_shelfDocument : shelfDocument.operations = .ok [shelfOperation] := by
  refine operations_putPaths (show shelfDocument.paths = putPaths "/lists" _ from rfl) ?_
  rw [Operation.bodySchema, Reference.follow_hop rfl List.not_mem_nil (lookup_shelf (.inl rfl)) rfl]
  rfl

theorem follow_respelledMarker : follow shelfDocument.root ["#/lists/0"] respelledMarker =
    .ok (.literal shelfSchema ["#/lists/00"]) :=
  Reference.follow_hop rfl (by decide) (lookup_shelf (.inr rfl)) rfl

theorem shelf_calls (chance : Chance) (c : Counters) :
    Calls chance shelfDocument.root (.ofBody shelfBody c)
        ⟨["#/lists/0"], none, respelledMarker, { c with nextId := 1 }⟩ ∧
      Calls chance shelfDocument.root
        ⟨["#/lists/0"], none, respelledMarker, { c with nextId := 1 }⟩
        ⟨["#/lists/0", "#/lists/00"], none, respelledMarker, { c with nextId := 1 }⟩ :=
  ⟨.items (Reference.follow_plain rfl) rfl, .items follow_respelledMarker rfl⟩

theorem shelf_followed_once :
    Begins shelfDocument (.ofBody shelfBody .start) ∧
      Relation.ReflTransGen (Calls ⟨2024, fun _ => 0⟩ shelfDocument.root) (.ofBody shelfBody .start)
        ⟨["#/lists/0"], none, respelledMarker, .start⟩ ∧
      follow shelfDocument.root ["#/lists/0"] respelledMarker =
        .ok (.literal shelfSchema ["#/lists/00"]) ∧
      Canonical shelfDocument.root "#/lists/0" ∧ ¬ Canonical shelfDocument.root "#/lists/00" ∧
      Frame.sample ⟨2024, fun _ => 0⟩ shelfDocument.root
        ⟨["#/lists/0", "#/lists/00"], none, respelledMarker, .start⟩ = (.ok .null, .start) := by
  obtain ⟨first, second⟩ := shelf_calls ⟨2024, fun _ => 0⟩ .start
  have begins : Begins shelfDocument (.ofBody shelfBody .start) :=
    .body operations_shelfDocument List.mem_cons_self rfl
  have apart := (followed_once _ begins (.single first)).1 _ _ follow_respelledMarker
  have null := (followed_once _ begins ((Relation.ReflTransGen.single first).tail second)).2
  refine ⟨begins, .single first, follow_respelledMarker, shelf_canonical, fun canonical => ?_,
    null [] respelledMarker "#/lists/00" "#/lists/00" .start rfl (by decide) (.inl rfl)⟩
  exact (List.pairwise_pair.mp apart).2 shelf_canonical canonical shelf_sameTarget

/-- A list that is being expanded is expanded again by its other pointer, so that null stands one list
further in. -/
theorem respelled_target_expanded :
    ∃ frame literal via, shelfDocument.operations = .ok [shelfOperation] ∧
      Relation.ReflTransGen (Calls ⟨2024, fun _ => 0⟩ shelfDocument.root) (.ofBody shelfBody .start)
        frame ∧
      follow shelfDocument.root frame.path frame.node = .ok (.literal literal via) ∧
      ¬ (frame.path ++ via).Pairwise (fun visited pointer =>
        ¬ SameTarget shelfDocument.root visited pointer) ∧
      (sampleBody ⟨2024, fun _ => 0⟩ shelfDocument.root shelfBody .start).1 =
        .ok (.array [.array [.null]]) := by
  have visited : Sample.sample ⟨2024, fun _ => 0⟩ shelfDocument.root ["#/lists/0", "#/lists/00"] none
      respelledMarker .start = (.ok .null, .start) := by
    rw [sample_follow, Reference.follow_seen rfl (by decide)]
    rfl
  have again : Sample.sample ⟨2024, fun _ => 0⟩ shelfDocument.root ["#/lists/0"] none respelledMarker
      .start = (.ok (.array [.null]), .start) := by
    rw [sample_follow, follow_respelledMarker]
    change (Sample.sample _ _ ["#/lists/0", "#/lists/00"] _ respelledMarker _).map _ = _
    rw [visited]
    rfl
  refine ⟨_, _, _, operations_shelfDocument, .single (shelf_calls _ _).1, follow_respelledMarker,
    fun apart => List.pairwise_pair.mp apart shelf_sameTarget, ?_⟩
  rw [sampleBody, sample_literal _ rfl]
  change ((Sample.sample _ _ ["#/lists/0"] _ respelledMarker _).map _).1 = _
  rw [show ({ Counters.start with nextId := 1 } : Counters) = .start from rfl, again]
  rfl

end Sample
end LoadPlan
