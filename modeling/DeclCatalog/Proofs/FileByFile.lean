import DeclCatalog.Project
import DeclCatalog.Proofs.CatalogLaws
import DeclCatalog.Proofs.Subtree

/-!
# A run is the sum of its files

A run adds file after file to an outcome, and may end at a file that runs out of time. What one file
adds does not depend on the files before it, so an outcome is a sum over files, and the order of
adding shows only in the order of the lists.

- `Outcome.ofFile`, `Outcome.ofFiles`: what one file adds, and what files add together.
- `Extractor.firstTimeout?`: the timeout that ends a run.
- `extractFrom_eq`: **the run lemma**: a run that is not ended adds the sum of its files.
- `Disk.readText_eq_ok_iff`, `unitAt?`: the files that can be read, by the bytes on the disk.
- `readUnits_eq`: the files that are read, and the number of the others.
- `extract_is_sum_of_files`: what this says of a run as a whole.
-/

namespace DeclCatalog

/-! ## Outcomes -/

/-- Whether a file ran out of time. -/
def FileOutput.timedOut (file : FileOutput) : Bool :=
  file.timeout.isSome

namespace Outcome

@[simp] theorem combine_empty (o : Outcome) : o.combine empty = o := by
  simp [combine, empty]

@[simp] theorem empty_combine (o : Outcome) : empty.combine o = o := by
  simp [combine, empty]

theorem combine_assoc (a b c : Outcome) : (a.combine b).combine c = a.combine (b.combine c) := by
  simp [combine, Catalog.merge_assoc, Nat.add_assoc]

/-- What one file adds. A file that ran out of time adds what was said of it, and no record. -/
def ofFile (file : FileOutput) : Outcome :=
  if file.timedOut then
    { catalog := Catalog.empty
      diagnostics := file.diagnostics
      filesProcessed := 0
      filesFailed := 1 }
  else
    { catalog := Catalog.empty.extend file.records
      diagnostics := file.diagnostics
      filesProcessed := 1
      filesFailed := 0 }

theorem addProcessed_eq_combine (o : Outcome) {file : FileOutput} (h : file.timeout = none) :
    o.addProcessed file = o.combine (ofFile file) := by
  have hnot : file.timedOut = false := by rw [FileOutput.timedOut, h, Option.isSome_none]
  simp [addProcessed, combine, ofFile, hnot, Catalog.extend_eq_merge o.catalog]

theorem addFailed_eq_combine (o : Outcome) {file : FileOutput} {timeout : Timeout}
    (h : file.timeout = some timeout) : o.addFailed file = o.combine (ofFile file) := by
  have htimedOut : file.timedOut = true := by rw [FileOutput.timedOut, h, Option.isSome_some]
  simp [addFailed, combine, ofFile, htimedOut]

/-- What files add together. -/
def ofFiles (files : List FileOutput) : Outcome :=
  files.foldr (fun file o => (ofFile file).combine o) empty

@[simp] theorem ofFiles_cons (file : FileOutput) (files : List FileOutput) :
    ofFiles (file :: files) = (ofFile file).combine (ofFiles files) := rfl

theorem ofFiles_append (files others : List FileOutput) :
    ofFiles (files ++ others) = (ofFiles files).combine (ofFiles others) := by
  induction files with
  | nil => exact (empty_combine _).symm
  | cons file files ih => rw [List.cons_append, ofFiles_cons, ofFiles_cons, ih, combine_assoc]

/-! Each part of a sum over files is a sum, or a list made of the lists of the files. -/

theorem diagnostics_ofFiles (files : List FileOutput) :
    (ofFiles files).diagnostics = files.flatMap FileOutput.diagnostics := by
  induction files with
  | nil => rfl
  | cons file files ih =>
    have hfile : (ofFile file).diagnostics = file.diagnostics := by
      unfold ofFile
      split <;> rfl
    rw [ofFiles_cons, combine, List.flatMap_cons, ih, hfile]

theorem filesFailed_ofFiles (files : List FileOutput) :
    (ofFiles files).filesFailed = files.countP FileOutput.timedOut := by
  induction files with
  | nil => rfl
  | cons file files ih =>
    have hfile : (ofFile file).filesFailed = if file.timedOut then 1 else 0 := by
      unfold ofFile
      split <;> rfl
    show (ofFile file).filesFailed + (ofFiles files).filesFailed = _
    rw [ih, hfile, List.countP_cons, Nat.add_comm]

theorem filesProcessed_add_filesFailed_ofFiles (files : List FileOutput) :
    (ofFiles files).filesProcessed + (ofFiles files).filesFailed = files.length := by
  induction files with
  | nil => rfl
  | cons file files ih =>
    have hone : (ofFile file).filesProcessed + (ofFile file).filesFailed = 1 := by
      unfold ofFile
      split <;> rfl
    rw [ofFiles_cons, List.length_cons, ← ih]
    show (_ + _) + (_ + _) = _
    omega

/-- The records of a category are those of the files that were in time, file after file. -/
theorem records_ofFiles (files : List FileOutput) (category : Category) :
    (ofFiles files).catalog.records category =
      (files.filter fun file => !file.timedOut).flatMap fun file =>
        file.records.filter fun r => r.category = category := by
  induction files with
  | nil => exact Catalog.records_empty category
  | cons file files ih =>
    rw [ofFiles_cons, combine, Catalog.records_merge, ih]
    unfold ofFile
    by_cases htimedOut : file.timedOut
    · rw [if_pos htimedOut, List.filter_cons_of_neg (by simp [htimedOut]), Catalog.records_empty,
        List.nil_append]
    · rw [if_neg htimedOut, List.filter_cons_of_pos (by simp [htimedOut]), List.flatMap_cons,
        Catalog.records_extend, Catalog.records_empty, List.nil_append]

end Outcome

/-! ## Runs -/

/-- The timeout that ends a run: that of the first file that runs out of time, if that ends a run at
all. -/
def Extractor.firstTimeout? (e : Extractor) (units : List TimedUnit) : Option Timeout :=
  if e.failOnTimeout then units.findSome? fun u => (u.output e.config).timeout else none

theorem Extractor.firstTimeout?_cons_of_none {e : Extractor} {u : TimedUnit}
    (h : (u.output e.config).timeout = none) (rest : List TimedUnit) :
    e.firstTimeout? (u :: rest) = e.firstTimeout? rest := by
  unfold Extractor.firstTimeout?
  rw [List.findSome?_cons, h]

/-- The run lemma: what a run adds to the outcome it starts from. -/
theorem extractFrom_eq (e : Extractor) (o : Outcome) (units : List TimedUnit) :
    extractFrom e o units =
      match e.firstTimeout? units with
      | some timeout => .error (.timeout timeout)
      | none => .ok (o.combine (Outcome.ofFiles (units.map fun u => u.output e.config))) := by
  -- the outcome so far is carried along, so the statement is about any of them
  induction units generalizing o with
  | nil =>
    have hnone : e.firstTimeout? [] = none := by
      unfold Extractor.firstTimeout?
      split <;> rfl
    rw [extractFrom, hnone]
    show _ = Except.ok (o.combine Outcome.empty)
    rw [Outcome.combine_empty]
  | cons u rest ih =>
    rw [extractFrom, List.map_cons, Outcome.ofFiles_cons]
    cases htimeout : (u.output e.config).timeout with
    | none =>
      rw [Extractor.firstTimeout?_cons_of_none htimeout, ← Outcome.combine_assoc,
        ← Outcome.addProcessed_eq_combine o htimeout]
      exact ih _
    | some timeout =>
      by_cases hfail : e.failOnTimeout
      · have hfirst : e.firstTimeout? (u :: rest) = some timeout := by
          rw [Extractor.firstTimeout?, if_pos hfail, List.findSome?_cons, htimeout]
        simp only [hfail, hfirst, if_true]
      · -- no file can end the run, neither this one nor a later one
        have hfirst : e.firstTimeout? (u :: rest) = e.firstTimeout? rest := by
          rw [Extractor.firstTimeout?, Extractor.firstTimeout?, if_neg hfail, if_neg hfail]
        rw [hfirst, ← Outcome.combine_assoc, ← Outcome.addFailed_eq_combine o htimeout]
        dsimp only
        rw [if_neg hfail]
        exact ih _

theorem extractUnder_eq (e : Extractor) (units : List TimedUnit) :
    extractUnder e units =
      match e.firstTimeout? units with
      | some timeout => .error (.timeout timeout)
      | none => .ok (Outcome.ofFiles (units.map fun u => u.output e.config)) := by
  rw [extractUnder, extractFrom_eq]
  simp only [Outcome.empty_combine]

/-- The outcome of a run that ends with one is the sum of its files. -/
theorem eq_ofFiles_of_extractUnder {e : Extractor} {units : List TimedUnit} {o : Outcome}
    (h : extractUnder e units = .ok o) :
    o = Outcome.ofFiles (units.map fun u => u.output e.config) := by
  rw [extractUnder_eq] at h
  split at h
  · cases h
  · exact (Except.ok.inj h).symm

/-! ## Files on a disk -/

/-- A file can be read when its path leads to the bytes of a text. -/
theorem Disk.readText_eq_ok_iff {disk : Disk} {path : Path} {text : String} :
    disk.readText path = .ok text ↔ disk.find path = .ok (.file text.toUTF8) := by
  have hdecode : ∀ content : ByteArray,
      String.fromUTF8? content = some text ↔ content = text.toUTF8 := by
    intro content
    have hpath := @Path.text?_eq_some_iff ⟨content⟩ text
    rwa [Path.ofText, Path.mk.injEq] at hpath
  unfold Disk.readText
  cases hfind : disk.find path with
  | error cause => simp
  | ok entry =>
    cases entry with
    | directory => simp
    | file content =>
      simp only [Except.ok.injEq, DiskEntry.file.injEq, ← hdecode]
      cases String.fromUTF8? content <;> simp

/-- The file at a path under its deadline, when there is a text to read. -/
def unitAt? (disk : Disk) (parse : String → Node) (file : Path × Deadline) : Option TimedUnit :=
  match disk.readText file.1 with
  | .ok text =>
    some {
      unit := { source := { path := file.1, bytes := text.toUTF8 }, tree := parse text }
      expired := file.2 }
  | .error _ => none

theorem path_of_unitAt?_eq_some {disk : Disk} {parse : String → Node} {file : Path × Deadline}
    {u : TimedUnit} (h : unitAt? disk parse file = some u) : u.unit.source.path = file.1 := by
  unfold unitAt? at h
  split at h
  · obtain rfl := Option.some.inj h
    rfl
  · cases h

theorem readUnits_eq (disk : Disk) (parse : String → Node) (paths : List (Path × Deadline)) :
    readUnits disk parse paths = (paths.filterMap (unitAt? disk parse),
      paths.countP fun file => !(disk.readText file.1).isOk) := by
  induction paths with
  | nil => rfl
  | cons file rest ih =>
    obtain ⟨path, expired⟩ := file
    rw [readUnits, ih, readUnit?]
    cases hread : disk.readText path with
    | error cause =>
      have hunit : unitAt? disk parse (path, expired) = none := by
        rw [unitAt?, hread]
      rw [List.filterMap_cons_none hunit, List.countP_cons_of_pos (by rw [hread]; rfl)]
    | ok text =>
      have hunit : unitAt? disk parse (path, expired) =
          some { unit := { source := Source.ofText path text, tree := parse text }, expired } := by
        rw [unitAt?, hread]
        rfl
      rw [List.filterMap_cons_some hunit,
        List.countP_cons_of_neg (by simp [hread, Except.isOk, Except.toBool])]

theorem extractFilesUnder_eq (e : Extractor) (disk : Disk) (parse : String → Node)
    (paths : List (Path × Deadline)) :
    extractFilesUnder e disk parse paths =
      (extractUnder e (paths.filterMap (unitAt? disk parse))).map fun o =>
        { o with filesFailed :=
            o.filesFailed + paths.countP fun file => !(disk.readText file.1).isOk } := by
  rw [extractFilesUnder, readUnits_eq]
  dsimp only
  cases extractUnder e (paths.filterMap (unitAt? disk parse)) <;> rfl

/-- Behind the outcome of a run over files on a disk is a run over those that can be read. -/
theorem exists_run_of_extractFilesUnder {e : Extractor} {disk : Disk} {parse : String → Node}
    {paths : List (Path × Deadline)} {o : Outcome}
    (h : extractFilesUnder e disk parse paths = .ok o) :
    ∃ run, extractUnder e (paths.filterMap (unitAt? disk parse)) = .ok run ∧
      o = { run with filesFailed :=
        run.filesFailed + paths.countP fun file => !(disk.readText file.1).isOk } := by
  rw [extractFilesUnder_eq] at h
  cases hrun : extractUnder e (paths.filterMap (unitAt? disk parse)) with
  | error cause =>
    rw [hrun] at h
    cases h
  | ok run =>
    rw [hrun] at h
    exact ⟨run, rfl, (Except.ok.inj h).symm⟩

/-- A path gives a file exactly when it can be read. -/
theorem isSome_unitAt? (disk : Disk) (parse : String → Node) (file : Path × Deadline) :
    (unitAt? disk parse file).isSome = (disk.readText file.1).isOk := by
  unfold unitAt?
  cases disk.readText file.1 <;> rfl

/-- A run over files on a disk counts every path once. -/
theorem filesProcessed_add_filesFailed_extractFilesUnder {e : Extractor} {disk : Disk}
    {parse : String → Node} {paths : List (Path × Deadline)} {o : Outcome}
    (h : extractFilesUnder e disk parse paths = .ok o) :
    o.filesProcessed + o.filesFailed = paths.length := by
  obtain ⟨run, hrun, rfl⟩ := exists_run_of_extractFilesUnder h
  have hcount := Outcome.filesProcessed_add_filesFailed_ofFiles
    ((paths.filterMap (unitAt? disk parse)).map fun u => u.output e.config)
  rw [← eq_ofFiles_of_extractUnder hrun, List.length_map, List.length_filterMap_eq_countP] at hcount
  simp only [isSome_unitAt?] at hcount
  -- every path is either among those that can be read or among the others
  have hpaths : paths.length = paths.countP (fun file => (disk.readText file.1).isOk) +
      paths.countP (fun file => !(disk.readText file.1).isOk) := by
    rw [List.length_eq_countP_add_countP fun file : Path × Deadline =>
      (disk.readText file.1).isOk]
    simp only [Bool.not_eq_true, Bool.decide_eq_false]
  show run.filesProcessed + (run.filesFailed + _) = paths.length
  omega

/-! ## The whole -/

/-- A file that runs out of time gives no records. -/
theorem records_output_of_timeout {u : TimedUnit} {config : Config} {timeout : Timeout}
    (h : (u.output config).timeout = some timeout) : (u.output config).records = [] := by
  unfold TimedUnit.output classifyUnder at h ⊢
  dsimp only at h ⊢
  split at h
  · cases h
  · rfl

/-- **A run is the sum of its files.** Without `failOnTimeout` a run always has an outcome. It
counts every file once, holds the records of each category of the files that were in time, one file
after the other, and the run over two lists of files is the run over the first together with that
over the second; a file that is out of time adds nothing but what was said of it. With
`failOnTimeout` a run fails exactly when some file is out of time, with the first such timeout, and
is otherwise the same. A file on a disk can be read when its path leads to the bytes of a text. A
run over files on a disk is the run over those that can be read, each with its path, its bytes and
the tree of its text, where the others are counted as failed. -/
theorem extract_is_sum_of_files (config : Config) :
    let lenient : Extractor := { config, failOnTimeout := false }
    let strict : Extractor := { config, failOnTimeout := true }
    (∀ us : List TimedUnit, ∃ o, extractUnder lenient us = .ok o ∧
      o.filesProcessed + o.filesFailed = us.length ∧
      o.filesFailed = us.countP (fun u => (u.output config).timedOut) ∧
      o.diagnostics = us.flatMap (fun u => (u.output config).diagnostics) ∧
      ∀ category, o.catalog.records category =
        (us.filter fun u => !(u.output config).timedOut).flatMap fun u =>
          (u.output config).records.filter fun r => r.category = category) ∧
    (∀ us vs : List TimedUnit, ∃ o p, extractUnder lenient us = .ok o ∧
      extractUnder lenient vs = .ok p ∧ extractUnder lenient (us ++ vs) = .ok (o.combine p)) ∧
    (∀ u timeout, (u.output config).timeout = some timeout →
      (u.output config).records = [] ∧
      extractUnder lenient [u] = .ok { Outcome.empty with
        diagnostics := (u.output config).diagnostics
        filesFailed := 1 }) ∧
    (∀ us : List TimedUnit, extractUnder strict us =
      match us.findSome? (fun u => (u.output config).timeout) with
      | some timeout => .error (.timeout timeout)
      | none => extractUnder lenient us) ∧
    (∀ (disk : Disk) (path : Path) (text : String),
      disk.readText path = .ok text ↔ disk.find path = .ok (.file text.toUTF8)) ∧
    ∀ (e : Extractor) (disk : Disk) (parse : String → Node) (paths : List (Path × Deadline)),
      extractFilesUnder e disk parse paths =
        (extractUnder e (paths.filterMap (unitAt? disk parse))).map (fun o =>
          { o with filesFailed :=
              o.filesFailed + paths.countP fun file => !(disk.readText file.1).isOk }) ∧
      ∀ o, extractFilesUnder e disk parse paths = .ok o →
        o.filesProcessed + o.filesFailed = paths.length := by
  intro lenient strict
  have hlenient : ∀ us, extractUnder lenient us =
      .ok (Outcome.ofFiles (us.map fun u => u.output config)) := extractUnder_eq lenient
  refine ⟨fun us => ⟨_, hlenient us, ?_, ?_, ?_, fun category => ?_⟩,
    fun us vs => ⟨_, _, hlenient us, hlenient vs, ?_⟩, fun u timeout htimeout => ⟨?_, ?_⟩,
    fun us => ?_, fun disk path text => Disk.readText_eq_ok_iff,
    fun e disk parse paths => ⟨extractFilesUnder_eq e disk parse paths, fun o => ?_⟩⟩
  · rw [Outcome.filesProcessed_add_filesFailed_ofFiles, List.length_map]
  · rw [Outcome.filesFailed_ofFiles, List.countP_map]
    rfl
  · rw [Outcome.diagnostics_ofFiles, List.flatMap_map]
  · rw [Outcome.records_ofFiles, List.filter_map, List.flatMap_map]
    rfl
  · rw [hlenient, List.map_append, Outcome.ofFiles_append]
  · exact records_output_of_timeout htimeout
  · have htimedOut : (u.output config).timedOut = true := by
      rw [FileOutput.timedOut, htimeout, Option.isSome_some]
    rw [hlenient, List.map_singleton, Outcome.ofFiles_cons, Outcome.ofFile, if_pos htimedOut]
    exact congrArg Except.ok (Outcome.combine_empty _)
  · rw [extractUnder_eq, hlenient]
    rfl
  · exact filesProcessed_add_filesFailed_extractFilesUnder

/-- A disk with the file `a.ts`, which holds `enum E {}`, and the file `b.ts`, which holds no text.
-/
def twoFiles : Disk :=
  ((Disk.empty [Path.nameOf "work"]).put "a.ts" (.file "enum E \x7b\x7d".toUTF8)).put "b.ts"
    (.file ⟨#[0xE9]⟩)

/-- The tree of `enum E {}`. -/
def emptyEnumFile : Node :=
  .named "program" none 0 9 [
    .named "enum_declaration" none 0 9 [
      .token "enum" 0 4, .named "identifier" (some "name") 5 6 [],
      .named "enum_body" (some "body") 7 9 [.token "\x7b" 7 8, .token "\x7d" 8 9]]]

/-- A run over a file with a text, one without a text, and one that is not there. -/
def threePathsRun : Except RunError Outcome :=
  extractFilesUnder { config := Config.standard, failOnTimeout := false } twoFiles
    (fun _ => emptyEnumFile) [("a.ts", .never), ("b.ts", .never), ("c.ts", .never)]

/-- The file with a text gives its enum, and the other two are counted as failed. -/
theorem extract_is_sum_of_files_threePaths :
    ∃ o, threePathsRun = .ok o ∧ o.filesProcessed = 1 ∧ o.filesFailed = 2 ∧
      o.catalog.enums.map (fun r => (r.identifier, r.filepath)) = [("E", .ofText "a.ts")] ∧
      o.catalog.identifiers .sourceFiles = ["a.ts"] := by
  have hresult : threePathsRun.toOption.map (fun o => (o.filesProcessed,
      o.catalog.enums.map (fun r => (r.identifier, r.filepath)),
      o.catalog.identifiers .sourceFiles)) =
        some (1, [("E", .ofText "a.ts")], ["a.ts"]) := by
    decide +kernel
  cases hrun : threePathsRun with
  | error cause =>
    rw [hrun] at hresult
    cases hresult
  | ok o =>
    rw [hrun] at hresult
    simp only [Except.toOption, Option.map_some, Option.some.injEq, Prod.mk.injEq] at hresult
    obtain ⟨hprocessed, henums, hsources⟩ := hresult
    have hfiles := (extract_is_sum_of_files Config.standard).2.2.2.2.2
    have hcount : o.filesProcessed + o.filesFailed = 3 := (hfiles _ _ _ _).2 o hrun
    exact ⟨o, rfl, hprocessed, by omega, henums, hsources⟩

end DeclCatalog
