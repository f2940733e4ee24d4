import LoadPlan.Proofs.Document.Declaration
import LoadPlan.Proofs.Json.Equality
import LoadPlan.Proofs.Yaml.Entries

/-! Documents in YAML. What is written in their mappings is kept, and operations come in the order
that it has in the document. -/
namespace LoadPlan.Document

/-- A document read as YAML keeps the entries written in each mapping of its text, and its operations
come in the order of its objects. Two things come between a text and that order: a merge key, whose
place the last entry of its mapping takes, and entries whose different keys have one text. -/
theorem keeps_written {d : Document} (accepted : Encoding.yaml.read? text = some d.root) :
    (∃ root value, Yaml.Node.read? text = some root ∧
      Yaml.Node.Denotes root.anchorTable root value ∧ Yaml.Value.Keeps value d.root) ∧
    ∀ ops, d.operations = .ok ops →
      List.Forall₂ (Declaration.Describes d.root) d.declarations ops :=
  ⟨Yaml.readJson?_keeps accepted, fun _ => operations_describes⟩

def mergedText : String :=
  "swagger: '2.0'\nbase: &base \x7bget: \x7b\x7d\x7d\npaths:\n  /notes:\n    <<: *base\n" ++
  "    put: \x7b\x7d\n    post: \x7b\x7d\n"

def mergedItem : Json := .object [("post", .object []), ("put", .object []), ("get", .object [])]

def mergedDocument : Document where
  fields := [("swagger", .string "2.0"), ("base", .object [("get", .object [])]),
    ("paths", .object [("/notes", mergedItem)])]
  paths := [("/notes", mergedItem)]
  versioned := .inr rfl
  paths_eq := rfl

theorem read_mergedText : Encoding.yaml.read? mergedText = some mergedDocument.root := by
  decide +kernel

theorem merged_keeps_written :
    Encoding.yaml.read? mergedText = some mergedDocument.root ∧
    (∃ root value, Yaml.Node.read? mergedText = some root ∧
      Yaml.Node.Denotes root.anchorTable root value ∧
      Yaml.Value.Keeps value mergedDocument.root) ∧
    ∀ ops, mergedDocument.operations = .ok ops →
      List.Forall₂ (Declaration.Describes mergedDocument.root) mergedDocument.declarations ops :=
  ⟨read_mergedText, keeps_written read_mergedText⟩

/-- After a merge key, `put` and `post` change places, and the operations with them; of two entries
whose keys are a number and a text, one is lost to the other. -/
theorem written_entries_moved_and_lost :
    (Encoding.yaml.read? mergedText = some mergedDocument.root ∧
      mergedDocument.operations.map (List.map Operation.method) = .ok [.post, .put, .get]) ∧
    Encoding.yaml.read? "1: first\n'1': second\n" = some (.object [("1", .string "second")]) := by
  refine ⟨⟨read_mergedText, ?_⟩, ?_⟩ <;> decide +kernel

end LoadPlan.Document
