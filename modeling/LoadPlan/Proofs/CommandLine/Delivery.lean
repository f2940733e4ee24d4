import Mathlib
import LoadPlan.Proofs.CommandLine.Listing
import LoadPlan.Proofs.CommandLine.Options
import LoadPlan.Proofs.Compile.Failure

/-! What compile commands leave behind. Each stage of a command can fail by itself; if any does, nothing
is printed as a plan and no file changes, and if none does, the whole plan goes to the one place that was
asked for. -/
namespace LoadPlan
open Sample (Chance)

/-- The files around a command and what is in them. A path leads to a file, as `a` and `./a` do to one, or
to none for a reason. A file has a content or a reason why it cannot be read, such as that there is no such
file yet, and it can be opened for writing or cannot for a reason. -/
structure Disk where
  leadsTo : String → Except String String
  content : String → Except String String
  opened : String → Except String Unit

namespace Disk

def files (disk : Disk) : Files where
  read path := disk.leadsTo path >>= disk.content
  write path := disk.leadsTo path >>= disk.opened

/-- A file is created, or gets a new content in place of its own. -/
def put (disk : Disk) (file text : String) : Disk :=
  { disk with content := Function.update disk.content file (.ok text) }

/-- The disk after a command: what its outcome says is written, is in the file by now. -/
def after (disk : Disk) (outcome : Outcome) : Disk :=
  match outcome.written with
  | none => disk
  | some (path, text) =>
    match disk.leadsTo path with
    | .ok file => disk.put file text
    | .error _ => disk

/-- The file that a path leads to has this text now, and no other file is created or changed. -/
structure OnlyWritten (disk later : Disk) (path text : String) : Prop where
  leadsTo : later.leadsTo = disk.leadsTo
  opened : later.opened = disk.opened
  read : later.files.read path = .ok text
  others : ∀ file, disk.leadsTo path ≠ .ok file → later.content file = disk.content file

theorem after_unwritten {disk : Disk} {outcome : Outcome} (unwritten : outcome.written = none) :
    disk.after outcome = disk := by
  rw [after, unwritten]

theorem after_onlyWritten {disk : Disk} {outcome : Outcome}
    (writable : disk.files.write path = .ok ()) (written : outcome.written = some (path, text)) :
    disk.OnlyWritten (disk.after outcome) path text := by
  obtain ⟨file, leads, -⟩ := Result.bind_ok writable
  have changed : disk.after outcome = disk.put file text := by
    simp only [after, written, leads]
  rw [changed]
  refine ⟨rfl, rfl, ?_, fun other elsewhere => ?_⟩
  · have content : (disk.put file text).content file = .ok text := Function.update_self ..
    change (disk.leadsTo path >>= (disk.put file text).content) = _
    rw [leads]
    exact content
  · refine Function.update_of_ne ?_ _ _
    rintro rfl
    exact elsewhere leads

def orMissing : Option α → Except String α
  | some value => .ok value
  | none => .error Files.noSuchFile

/-- A folder of files by their names. -/
def ofFolder (folder : List (String × String)) : Disk where
  leadsTo path := orMissing (Files.localName? path)
  content name := orMissing (folder.lookup name)
  opened _ := .ok ()

theorem files_ofFolder (folder : List (String × String)) :
    (ofFolder folder).files = Files.ofList folder := by
  unfold files ofFolder Files.ofList
  congr 1
  · funext path
    cases named : Files.localName? path with
    | none => simp only [named]; rfl
    | some name =>
      simp only [named, Option.bind_some]
      change orMissing (folder.lookup name) = _
      cases folder.lookup name <;> rfl
  · funext path
    cases named : Files.localName? path <;> (simp only [named]; rfl)

end Disk

namespace CompileOptions
variable {files : Files} {chance : Chance} {o : CompileOptions} {plan : String}

/-- Some stage of a command fails. Each is told by itself, as several may fail in one command. -/
inductive StageFails (files : Files) (chance : Chance) (o : CompileOptions) : Prop where
  | settingsUnreadable (given : o.settingsFile = some path) (unread : files.read path = .error reason)
  | settingsMalformed (given : o.settingsFile = some path) (found : files.read path = .ok text)
      (malformed : Settings.Layer.read? text = none)
  | zeroCount (set : o.effective files = .ok s) (zero : s.count count = 0)
  | specUnreadable (unread : files.read o.spec = .error reason)
  | document (found : files.read o.spec = .ok text)
      (malformed : Document.read text (Encoding.ofPath? o.spec) = .error e)
  | reference (found : files.read o.spec = .ok text)
      (read : Document.read text (Encoding.ofPath? o.spec) = .ok d) (fails : d.Fails chance e)
  | outputUnwritable (given : o.output = some path) (unwritable : files.write path = .error reason)

/-- The text of the test plan for all operations of the document, which all stages but the last make. -/
inductive Makes (files : Files) (chance : Chance) (o : CompileOptions) : String → Prop where
  | made (set : o.effective files = .ok s) (positive : ∀ count, s.count count ≠ 0)
      (found : files.read o.spec = .ok text)
      (read : Document.read text (Encoding.ofPath? o.spec) = .ok d)
      (planned : d.requests chance = .ok requests) :
      Makes files chance o (Plan.testPlan (s.withDeclaredUrl d) requests).document

theorem effective_error (failed : o.effective files = .error cause) :
    o.StageFails files chance := by
  unfold effective Settings.Layer.ofFile at failed
  split at failed
  · contradiction
  · rename_i path given
    split at failed
    · exact .settingsUnreadable given ‹_›
    · rename_i text found
      split at failed
      · contradiction
      · exact .settingsMalformed given found ‹_›

theorem effective_ok (set : o.effective files = .ok s) (given : o.settingsFile = some path) :
    ∃ text layer, files.read path = .ok text ∧ Settings.Layer.read? text = some layer := by
  obtain ⟨layer, layered, -⟩ := Result.map_ok set
  rw [given, Settings.Layer.ofFile] at layered
  split at layered
  · contradiction
  · rename_i text found
    split at layered
    · exact ⟨text, _, found, ‹_›⟩
    · contradiction

theorem Makes.withOutput (makes : o.Makes files chance plan) (output : Option String) :
    Makes files chance { o with output } plan := by
  cases makes with
  | made set positive found read planned => exact .made set positive found read planned

/-- Where a plan is made no stage fails, but it may be that the output cannot be written. -/
theorem Makes.not_stageFails (makes : o.Makes files chance plan)
    (writable : ∀ path, o.output = some path → files.write path = .ok ()) :
    ¬ o.StageFails files chance := by
  obtain ⟨set, positive, found, read, planned⟩ := makes
  intro fails
  cases fails with
  | settingsUnreadable given unread =>
    obtain ⟨text, layer, found, -⟩ := effective_ok set given
    cases found.symm.trans unread
  | settingsMalformed given found malformed =>
    obtain ⟨text, layer, found', read⟩ := effective_ok set given
    cases found.symm.trans found'
    cases read.symm.trans malformed
  | zeroCount set' zero =>
    cases set.symm.trans set'
    exact positive _ zero
  | specUnreadable unread => cases found.symm.trans unread
  | document found' malformed =>
    cases found.symm.trans found'
    cases read.symm.trans malformed
  | reference found' read' fails =>
    cases found.symm.trans found'
    cases read.symm.trans read'
    cases planned.symm.trans (Document.requests_eq_error.mpr fails)
  | outputUnwritable given unwritable => cases (writable _ given).symm.trans unwritable

end CompileOptions

namespace Outcome
variable {files : Files} {chance : Chance} {o : CompileOptions} {plan : String}

theorem compilation_makes (makes : o.Makes files chance plan) :
    compilation files chance o =
      deliver files ("✓ Loaded spec file: " ++ o.spec ++ "\n") plan o.output := by
  obtain ⟨set, positive, found, read, planned⟩ := makes
  have compiled := compile_eq_ok.mpr ⟨positive, _, _, read, planned, rfl⟩
  simp only [compilation, set, found, compiled]

/-- Either the whole plan is made, or a stage before the output fails and with it the command. -/
theorem makes_or_fails (files : Files) (chance : Chance) (o : CompileOptions) :
    (∃ plan, o.Makes files chance plan) ∨
      o.StageFails files chance ∧
        ∃ notes failure, compilation files chance o = failed "" notes failure := by
  unfold compilation
  cases set : o.effective files with
  | error cause => exact .inr ⟨CompileOptions.effective_error set, _, _, rfl⟩
  | ok s =>
    cases found : files.read o.spec with
    | error reason => exact .inr ⟨.specUnreadable found, _, _, rfl⟩
    | ok text =>
      cases compiled : compile text (Encoding.ofPath? o.spec) s chance with
      | ok plan =>
        obtain ⟨positive, d, requests, read, requested, rfl⟩ := compile_eq_ok.mp compiled
        exact .inl ⟨_, .made set positive found read requested⟩
      | error cause =>
        refine .inr ⟨?_, _, _, by simp only [compiled]; rfl⟩
        rcases compile_stopped compiled with ⟨count, zero⟩ | ⟨e, malformed⟩ | ⟨d, e, read, fails⟩
        · exact .zeroCount set zero
        · exact .document found malformed
        · exact .reference found read fails

/-- A command ends in an error, with an empty output and all files as they were. -/
structure Aborts (disk : Disk) (outcome : Outcome) : Prop where
  exitCode : outcome.exitCode ≠ 0
  stdout : outcome.stdout = ""
  unchanged : disk.after outcome = disk

/-- A command ends well, with a text as its output and all files as they were. -/
structure Prints (disk : Disk) (text : String) (outcome : Outcome) : Prop where
  exitCode : outcome.exitCode = 0
  stdout : outcome.stdout = text
  unchanged : disk.after outcome = disk

/-- A command ends well, with an empty output and a text in the one file that it writes. -/
structure Saves (disk : Disk) (path text : String) (outcome : Outcome) : Prop where
  exitCode : outcome.exitCode = 0
  stdout : outcome.stdout = ""
  written : disk.OnlyWritten (disk.after outcome) path text

variable {disk : Disk}

theorem failed_aborts (disk : Disk) (notes : String) (cause : Failure) :
    (failed "" notes cause).Aborts disk :=
  ⟨Nat.one_ne_zero, rfl, Disk.after_unwritten rfl⟩

theorem compilation_aborts (fails : o.StageFails disk.files chance) :
    (compilation disk.files chance o).Aborts disk := by
  rcases makes_or_fails disk.files chance o with ⟨plan, makes⟩ | ⟨-, notes, cause, ends⟩
  · -- all stages were passed but the last, so the output is named and cannot be written
    cases named : o.output with
    | none =>
      have unasked : ∀ path, o.output = some path → disk.files.write path = .ok () := by
        simp [named]
      exact absurd fails (makes.not_stageFails unasked)
    | some path =>
      rw [compilation_makes makes, named, deliver]
      cases opened : disk.files.write path with
      | error reason => exact failed_aborts disk _ _
      | ok done =>
        have writable : ∀ other, o.output = some other → disk.files.write other = .ok () := by
          simp [named, opened]
        exact absurd fails (makes.not_stageFails writable)
  · rw [ends]
    exact failed_aborts disk notes cause

theorem compilation_prints (makes : o.Makes disk.files chance plan) (unnamed : o.output = none) :
    (compilation disk.files chance o).Prints disk plan := by
  rw [compilation_makes makes, unnamed]
  exact ⟨rfl, rfl, Disk.after_unwritten rfl⟩

theorem compilation_saves (makes : o.Makes disk.files chance plan) (named : o.output = some path)
    (writable : disk.files.write path = .ok ()) :
    (compilation disk.files chance o).Saves disk path plan := by
  rw [compilation_makes makes, named, deliver, writable]
  exact ⟨rfl, rfl, Disk.after_onlyWritten writable rfl⟩

theorem ofArguments_compile {arguments : List String}
    (given : Command.parse? arguments = some (.compile o)) :
    ofArguments files chance arguments = compilation files chance o := by
  rw [ofArguments, given]
  rfl

end Outcome

/-- A folder with the lists in it. -/
def listDisk : Disk := .ofFolder [("a", listText)]

/-- The lists are compiled into a file beside them. -/
def listOptions : CompileOptions := ⟨"a", some "./b", none, .empty⟩

theorem read_listDisk : listDisk.files.read "a" = .ok listText := by
  have named : Files.localName? "a" = some "a" := by cbv
  rw [listDisk, Disk.files_ofFolder, Files.ofList]
  simp only [named, Option.bind_some]
  rfl

theorem write_listDisk : listDisk.files.write "./b" = .ok () := by
  have named : Files.localName? "./b" = some "b" := by cbv
  rw [listDisk, Disk.files_ofFolder, Files.ofList]
  simp only [named]
  rfl

theorem listOptions_makes :
    ∃ plan, listOptions.Makes listDisk.files ⟨2024, fun _ => 0⟩ plan := by
  obtain ⟨plan, compiled⟩ :=
    compile_exists_ok Settings.default_positive read_listText listDocument_sound
  obtain ⟨positive, d, requests, read, requested, -⟩ := compile_eq_ok.mp compiled
  rw [← Outcome.ofPath?_letter] at read
  exact ⟨_, .made rfl positive read_listDisk read requested⟩

end LoadPlan
