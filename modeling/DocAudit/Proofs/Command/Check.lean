/-
  DocAudit.Proofs.Command.Check
  ─────────────────────────────
  **FILES FAIL ON THEIR OWN, AND WHAT THE EXIT CODE TELLS.**

  A run over several files is put together from runs over single files
  (`ofResults_append`): a file that cannot be checked takes nothing away from the others
  and adds nothing to them.  The exit code tells findings and failures apart, findings
  first:

                       some finding    no finding
      some failure          1              2
      no failure            1              0

  To let findings pass means to put 0 in place of 1.  So a failure is told by the exit
  code unless findings that are let pass hide it (`run_isolates_failures`).
-/
import DocAudit.Command.Run
import DocAudit.Files.Tree
import DocAudit.Proofs.Path.Order

namespace DocAudit

/-! ## §1. Outcomes. -/

/-- A total is positive if one of its parts is. -/
theorem FileReport.total_pos_iff {f : FileReport → Nat} {reports : List FileReport} :
    0 < total f reports ↔ ∃ r ∈ reports, 0 < f r := by
  induction reports with
  | nil => simp [total]
  | cons r rest ih =>
    have hsum : 0 < total f (r :: rest) ↔ 0 < f r ∨ 0 < total f rest := by
      show 0 < f r + total f rest ↔ _
      omega
    rw [hsum, ih]
    simp

namespace CheckOutcome

/-- Something is found on a function that is not ignored. -/
def SomeFinding (ignore : IgnoreList) (results : List FileResult) : Prop :=
  ∃ r, .ok r ∈ results ∧ ∃ f ∈ r.findings, ignore.contains f.signature.name = false

/-- A file could not be checked. -/
def SomeFailure (results : List FileResult) : Prop := ∃ e, .error e ∈ results

variable {ignore : IgnoreList} {results : List FileResult}

/-- **Reports are those of the files that could be checked**, without what is ignored. -/
theorem reports_eq (ignore : IgnoreList) (results : List FileResult) :
    (ofResults ignore results).reports
      = results.filterMap fun r => r.toOption.map (·.ignoring ignore) := by
  refine congrArg (results.filterMap ·) (funext fun r => ?_)
  cases r <;> rfl

/-- **Failures are the other files.** -/
theorem failures_eq (ignore : IgnoreList) (results : List FileResult) :
    (ofResults ignore results).failures = (results.filter (·.toOption.isNone)).length := by
  have hfailed : failed = fun r => r.toOption.isNone := by
    funext r
    cases r <;> rfl
  show results.countP failed = _
  rw [hfailed, List.countP_eq_length_filter]

/-- A run in two parts is two runs. -/
theorem ofResults_append (ignore : IgnoreList) (rs qs : List FileResult) :
    ofResults ignore (rs ++ qs)
      = ⟨(ofResults ignore rs).reports ++ (ofResults ignore qs).reports,
          (ofResults ignore rs).failures + (ofResults ignore qs).failures⟩ := by
  unfold ofResults
  rw [List.filterMap_append, List.countP_append]

/-- **Reports are those of the single files**, in the order of the files. -/
theorem reports_eq_flatMap (ignore : IgnoreList) (rs : List FileResult) :
    (ofResults ignore rs).reports = rs.flatMap fun r => (ofResults ignore [r]).reports := by
  induction rs with
  | nil => rfl
  | cons r rest ih =>
    rw [← List.singleton_append, ofResults_append, List.flatMap_append, ih]
    simp

/-- What is left of a report's findings. -/
theorem findings_ignoring_pos_iff {r : FileReport} :
    0 < (r.ignoring ignore).findings.length
      ↔ ∃ f ∈ r.findings, ignore.contains f.signature.name = false := by
  rw [List.length_pos_iff_exists_mem]
  simp [FileReport.ignoring]

/-- Findings are counted if there are any that are not ignored. -/
theorem findings_pos_iff :
    0 < (ofResults ignore results).findings ↔ SomeFinding ignore results := by
  unfold findings
  rw [FileReport.total_pos_iff]
  constructor
  · rintro ⟨r, hr, hpos⟩
    obtain ⟨result, hresult, hreport⟩ := List.mem_filterMap.1 hr
    cases result with
    | error e => cases hreport
    | ok q =>
      cases hreport
      exact ⟨q, hresult, findings_ignoring_pos_iff.1 hpos⟩
  · rintro ⟨r, hr, hfinding⟩
    exact ⟨r.ignoring ignore, List.mem_filterMap.2 ⟨_, hr, rfl⟩,
      findings_ignoring_pos_iff.2 hfinding⟩

theorem failures_pos_iff (ignore : IgnoreList) :
    0 < (ofResults ignore results).failures ↔ SomeFailure results := by
  show 0 < results.countP failed ↔ _
  rw [List.countP_pos_iff]
  constructor
  · rintro ⟨result, hresult, hfailed⟩
    cases result with
    | error e => exact ⟨e, hresult⟩
    | ok r => cases hfailed
  · rintro ⟨e, he⟩
    exact ⟨.error e, he, rfl⟩

end CheckOutcome

/-! ## §2. Exit codes. -/

section ExitCode

variable {findings failures : Nat} {warnOnly : Bool}

/-- **Findings come before failures**, also where they are let pass. -/
theorem exitCode_eq (findings failures : Nat) (warnOnly : Bool) :
    exitCode findings failures warnOnly
      = if 0 < findings then (if warnOnly = true then 0 else 1)
        else if 0 < failures then 2 else 0 := by
  unfold exitCode
  rcases Nat.eq_zero_or_pos findings with hnone | hsome
  · simp [hnone]
  · have hne : findings ≠ 0 := by omega
    cases warnOnly <;> simp [hsome, hne]

theorem exitCode_eq_one_iff :
    exitCode findings failures warnOnly = 1 ↔ warnOnly = false ∧ 0 < findings := by
  rw [exitCode_eq]
  split <;> split <;> simp_all

theorem exitCode_eq_two_iff :
    exitCode findings failures warnOnly = 2 ↔ 0 < failures ∧ ¬0 < findings := by
  rw [exitCode_eq]
  split <;> split <;> simp_all

theorem exitCode_eq_zero_iff :
    exitCode findings failures warnOnly = 0
      ↔ (¬0 < failures ∧ ¬0 < findings) ∨ (warnOnly = true ∧ 0 < findings) := by
  rw [exitCode_eq]
  split <;> split <;> simp_all

end ExitCode

/-! ## §3. Files of a tree. -/

namespace Command

open Files CommandLine

/-- **Files are read one by one**, and reading changes nothing. -/
theorem run_mapM_checkFile (t : Tree) (files : List Text) :
    (files.mapM (checkFile Tree.disk)).run t
      = (files.map fun path => FileReport.ofFile path (t.read path), t) := by
  induction files with
  | nil => rfl
  | cons path rest ih =>
    have hfirst : (checkFile Tree.disk path).run t = (FileReport.ofFile path (t.read path), t) := rfl
    rw [List.mapM_cons, StateT.run_bind, hfirst]
    show (do let (rs, t') ← (rest.mapM (checkFile Tree.disk)).run t
             pure (FileReport.ofFile path (t.read path) :: rs, t') : Id _) = _
    rw [ih]
    rfl

/-- **A check that prints its result** ends with the exit code of its run. -/
theorem exit_check {s : Setting} {a : CheckArgs} {t t' : Tree} {ignore : IgnoreList}
    {files : List Text}
    (hprepare : (prepareCheck Tree.disk s a).run.run t = (.ok (ignore, files), t'))
    (hout : a.output = none) :
    let run := CheckOutcome.ofResults ignore
      (files.map fun path => FileReport.ofFile path (t'.read path))
    ((check Tree.disk s a).run t).1.exit = exitCode run.findings run.failures a.warnOnly := by
  unfold check
  rw [StateT.run_bind, hprepare]
  show ((((files.mapM (checkFile Tree.disk)) >>= _) : StateM Tree Outcome).run t').1.exit = _
  -- the tree on which the result is delivered is the one that was read
  rw [StateT.run_bind, run_mapM_checkFile]
  unfold deliver
  rw [hout]
  rfl

/-- **A RUN KEEPS ITS FILES APART.**  Whatever checking each file yields, its reports are
those of the files that could be checked, in their order and without what is ignored, and
the other files are counted.  Exit code 1 says that something is found, and 2 that a file
could not be checked and nothing is found.  Exit code 0 says that all is well, or that
something is found and let pass, in which case it hides every failure.  On a tree what a
file yields is what reading it yields, and the exit code is that of the command. -/
theorem run_isolates_failures (ignore : IgnoreList) (files : List Text) (warnOnly : Bool) :
    (∀ result : Text → FileResult,
      let results := files.map result
      let run := CheckOutcome.ofResults ignore results
      let exit := exitCode run.findings run.failures warnOnly
      run.reports
          = files.flatMap (fun path => (CheckOutcome.ofResults ignore [result path]).reports)
        ∧ run.reports
          = files.filterMap (fun path => (result path).toOption.map (·.ignoring ignore))
        ∧ run.failures = (files.filter fun path => (result path).toOption.isNone).length
        ∧ (exit = 1 ↔ warnOnly = false ∧ CheckOutcome.SomeFinding ignore results)
        ∧ (exit = 2
            ↔ CheckOutcome.SomeFailure results ∧ ¬CheckOutcome.SomeFinding ignore results)
        ∧ (exit = 0
            ↔ (¬CheckOutcome.SomeFailure results ∧ ¬CheckOutcome.SomeFinding ignore results)
              ∨ (warnOnly = true ∧ CheckOutcome.SomeFinding ignore results)))
      ∧ ∀ t : Tree,
        let results := files.map fun path => FileReport.ofFile path (t.read path)
        (files.mapM (checkFile Tree.disk)).run t = (results, t)
          ∧ ∀ (s : Setting) (a : CheckArgs) (before : Tree),
            (prepareCheck Tree.disk s a).run.run before = (.ok (ignore, files), t) →
            a.output = none → a.warnOnly = warnOnly →
            let run := CheckOutcome.ofResults ignore results
            ((check Tree.disk s a).run before).1.exit
              = exitCode run.findings run.failures warnOnly := by
  constructor
  · intro result results run exit
    refine ⟨?_, ?_, ?_, ?_, ?_, ?_⟩
    · show (CheckOutcome.ofResults ignore (files.map result)).reports = _
      rw [CheckOutcome.reports_eq_flatMap, List.flatMap_map]
    · show (CheckOutcome.ofResults ignore (files.map result)).reports = _
      rw [CheckOutcome.reports_eq, List.filterMap_map]
      rfl
    · show (CheckOutcome.ofResults ignore (files.map result)).failures = _
      rw [CheckOutcome.failures_eq, List.filter_map, List.length_map]
      rfl
    · rw [← CheckOutcome.findings_pos_iff]
      exact exitCode_eq_one_iff
    · rw [← CheckOutcome.findings_pos_iff, ← CheckOutcome.failures_pos_iff ignore]
      exact exitCode_eq_two_iff
    · rw [← CheckOutcome.findings_pos_iff, ← CheckOutcome.failures_pos_iff ignore]
      exact exitCode_eq_zero_iff
  · intro t
    refine ⟨run_mapM_checkFile t files, ?_⟩
    rintro s a before hprepare hout rfl
    exact exit_check hprepare hout

/-- A file that is not UTF-8, and one that declares a function without a comment. -/
def pantry : Tree :=
  { nodes :=
      [(["a.c".toList], .file [0xff]),
        (["b.c".toList], .file (Text.utf8 "int boil(int minutes);\n".toList))]
    home := [] }

/-- A check of both files, without a configuration. -/
def pantryCheck (warnOnly : Bool) : CheckArgs :=
  { paths := ["a.c".toList, "b.c".toList], warnOnly }

theorem prepareCheck_pantry (warnOnly : Bool) :
    (prepareCheck Tree.disk { globals := { noConfig := true } } (pantryCheck warnOnly)).run.run
        pantry
      = (.ok ({}, (pantryCheck warnOnly).paths), pantry) := by
  have hsorted : Path.sorted ["a.c".toList, "b.c".toList] = ["a.c".toList, "b.c".toList] :=
    Path.sorted_of_pairwise (by decide +kernel)
  calc _ = (.ok ({}, Path.sorted ["a.c".toList, "b.c".toList]), pantry) := by rfl
    _ = _ := by
      rw [hsorted]
      rfl

/-- One file fails, and the finding in the other one is told. -/
theorem run_isolates_failures_pantry :
    let s : Setting := { globals := { noConfig := true } }
    let a := pantryCheck false
    (prepareCheck Tree.disk s a).run.run pantry = (.ok ({}, a.paths), pantry)
      ∧ a.output = none ∧ a.warnOnly = false
      ∧ ((check Tree.disk s a).run pantry).1.exit = 1 := by
  intro s a
  refine ⟨prepareCheck_pantry false, rfl, rfl, ?_⟩
  have happly := (run_isolates_failures {} a.paths false).2 pantry
  rw [happly.2 s a pantry (prepareCheck_pantry false) rfl rfl]
  decide +kernel

/-- **A failure that is hidden**: the finding in the other file is let pass. -/
theorem failure_hidden_by_finding :
    let s : Setting := { globals := { noConfig := true } }
    let a := pantryCheck true
    let results := a.paths.map fun path => FileReport.ofFile path (pantry.read path)
    (prepareCheck Tree.disk s a).run.run pantry = (.ok ({}, a.paths), pantry)
      ∧ (CheckOutcome.ofResults {} results).failures = 1
      ∧ ((check Tree.disk s a).run pantry).1.exit = 0 := by
  intro s a results
  refine ⟨prepareCheck_pantry true, by decide +kernel, ?_⟩
  rw [exit_check (prepareCheck_pantry true) rfl]
  decide +kernel

end Command

end DocAudit
