import UnderscoreLint.Lint.Run
import UnderscoreLint.Proofs.LintOutcome

/-!
# Linting file by file

What becomes of a file does not depend on the other files of a run. `LintsTo host s path ds` says
that the tree of a file can be loaded and linted with the findings `ds`, and
`Refused host s path e` that it cannot, for the reason `e`; each file is one or the other
(`lintsTo_or_refused`). Both are said of loading and linting alone, from whatever is in the log.

A run over files returns the findings of its files in order if none is refused. Otherwise it ends
with the reason of the first one that is, and what comes after it is not looked at. The settings are
found before the first file is read, so a configuration that is none is all that is reported.
-/

namespace UnderscoreLint

open UnderscoreLint.Action

/-- The tree of a file is loaded, and linting it gives these findings. -/
def LintsTo (host : Host) (s : Settings) (path : String) (ds : List Diagnostic) : Prop :=
  ∃ tree, (∀ log, ((loadTree host path).runFrom log).1 = .ok tree) ∧
    ∀ log, ((lintTree s tree).runFrom log).1 = .ok ds

/-- A file cannot be linted: its tree cannot be loaded, the rules cannot be made, or the walk over
its tree fails. -/
inductive Refused (host : Host) (s : Settings) (path : String) : RunError → Prop where
  | load {e : RunError} (hload : ∀ log, ((loadTree host path).runFrom log).1 = .error e) :
      Refused host s path e
  | rules {tree : Value} {e : RuleError}
      (hload : ∀ log, ((loadTree host path).runFrom log).1 = .ok tree)
      (hlint : ∀ log, ((lintTree s tree).runFrom log).1 = .error (.rules e)) :
      Refused host s path (.lint (.invalidRules e))
  | walk {tree : Value} {e : WalkError}
      (hload : ∀ log, ((loadTree host path).runFrom log).1 = .ok tree)
      (hlint : ∀ log, ((lintTree s tree).runFrom log).1 = .error (.walk e)) :
      Refused host s path (.walk e)

theorem fst_runFrom_loadTree (host : Host) (path : String) (log : Log) :
    ((loadTree host path).runFrom log).1 = readTree host path := by
  unfold loadTree
  cases readTree host path with
  | error e => rfl
  | ok tree =>
      simp only
      split <;> rfl

theorem fst_runFrom_lintTree (s : Settings) (tree : Value) (log log' : Log) :
    ((lintTree s tree).runFrom log).1 = ((lintTree s tree).runFrom log').1 := by
  rw [runFrom_lintTree, runFrom_lintTree]

section Host

variable {host : Host} {s : Settings}

theorem lintsTo_or_refused (host : Host) (s : Settings) (path : String) :
    (∃ ds, LintsTo host s path ds) ∨ ∃ e, Refused host s path e := by
  cases hread : readTree host path with
  | error e => exact .inr ⟨e, .load fun log => (fst_runFrom_loadTree ..).trans hread⟩
  | ok tree =>
      have hload : ∀ log, ((loadTree host path).runFrom log).1 = .ok tree :=
        fun log => (fst_runFrom_loadTree ..).trans hread
      rcases hlint : ((lintTree s tree).runFrom #[]).1 with (e | e) | ds
      · exact .inr ⟨_, .rules hload fun log => (fst_runFrom_lintTree ..).trans hlint⟩
      · exact .inr ⟨_, .walk hload fun log => (fst_runFrom_lintTree ..).trans hlint⟩
      · exact .inl ⟨ds, tree, hload, fun log => (fst_runFrom_lintTree ..).trans hlint⟩

theorem LintsTo.fst_runFrom_lintFile {path : String} {ds : List Diagnostic}
    (h : LintsTo host s path ds) (log : Log) :
    ((lintFile host s path).runFrom log).1 = .ok (ds.map (Finding.mk path)) := by
  obtain ⟨tree, hload, hlint⟩ := h
  refine fst_runFrom_bind_of_ok (hload log) fun log => ?_
  refine fst_runFrom_bind_of_ok (a := ds) ?_ fun log => rfl
  rw [fst_runFrom_adapt, hlint]
  rfl

theorem Refused.fst_runFrom_lintFile {path : String} {e : RunError} (h : Refused host s path e)
    (log : Log) : ((lintFile host s path).runFrom log).1 = .error e := by
  cases h with
  | load hload => exact fst_runFrom_bind_of_error (hload log)
  | rules hload hlint | walk hload hlint =>
      refine fst_runFrom_bind_of_ok (hload log) fun log => fst_runFrom_bind_of_error ?_
      rw [fst_runFrom_adapt, hlint]
      rfl

/-- The files up to the first one that is refused. -/
theorem forall_lintsTo_or_first_refused (host : Host) (s : Settings) (paths : List String) :
    (∀ path ∈ paths, ∃ ds, LintsTo host s path ds) ∨
      ∃ before path after e, paths = before ++ path :: after ∧
        (∀ p ∈ before, ∃ ds, LintsTo host s p ds) ∧ Refused host s path e := by
  induction paths with
  | nil => exact .inl (by simp)
  | cons path paths ih =>
      rcases lintsTo_or_refused host s path with hpath | ⟨e, hpath⟩
      · rcases ih with hpaths | ⟨before, p, after, e, rfl, hbefore, hp⟩
        · exact .inl (List.forall_mem_cons.2 ⟨hpath, hpaths⟩)
        · exact .inr ⟨path :: before, p, after, e, rfl, List.forall_mem_cons.2 ⟨hpath, hbefore⟩, hp⟩
      · exact .inr ⟨[], path, paths, e, rfl, by simp, hpath⟩

/-- A run over files none of which is refused gives the findings of each, in order. -/
theorem fst_runFrom_lintFiles_of_lintsTo {found : String → List Diagnostic} {paths : List String}
    (h : ∀ path ∈ paths, LintsTo host s path (found path)) (log : Log) :
    ((lintFiles host s paths).runFrom log).1 =
      .ok (paths.flatMap fun path => (found path).map (Finding.mk path)) := by
  induction paths generalizing log with
  | nil => rfl
  | cons path paths ih =>
      obtain ⟨hpath, hpaths⟩ := List.forall_mem_cons.1 h
      refine fst_runFrom_bind_of_ok (hpath.fst_runFrom_lintFile log) fun log => ?_
      exact fst_runFrom_bind_of_ok (ih hpaths log) fun log => rfl

/-- A run over files ends with the first one that is refused, whatever comes after it. -/
theorem fst_runFrom_lintFiles_of_refused {before after : List String} {path : String}
    {e : RunError} (hbefore : ∀ p ∈ before, ∃ ds, LintsTo host s p ds)
    (hpath : Refused host s path e) (log : Log) :
    ((lintFiles host s (before ++ path :: after)).runFrom log).1 = .error e := by
  induction before generalizing log with
  | nil => exact fst_runFrom_bind_of_error (hpath.fst_runFrom_lintFile log)
  | cons p before ih =>
      obtain ⟨⟨ds, hp⟩, hbefore⟩ := List.forall_mem_cons.1 hbefore
      refine fst_runFrom_bind_of_ok (hp.fst_runFrom_lintFile log) fun log => ?_
      exact fst_runFrom_bind_of_error (ih hbefore log)

variable {source : SettingsSource} {ids : List Text} {overrides : List (Text × Text)}

theorem runFrom_lint_of_error {e : RunError} (hsource : source.resolve host = .error e)
    (paths : List String) (clock : Clock) (log : Log) :
    (lint host source paths clock).runFrom log = (.error e, log) := by
  unfold lint
  rw [hsource]
  rfl

theorem resolve_file_of_error {config : String} {e : ConfigError}
    (h : Config.load host config = .error (.error e)) :
    SettingsSource.resolve host (.file config) = .error (.lint (.invalidConfig e)) := by
  simp only [SettingsSource.resolve, h, RunError.ofConfig]

/-- Once there are settings that list the rules to run, a run is a run over its files. -/
theorem fst_runFrom_lint (hsource : source.resolve host = .ok ⟨some ids, overrides⟩)
    (paths : List String) (clock : Clock) (log : Log) :
    ((lint host source paths clock).runFrom log).1 =
      ((lintFiles host ⟨some ids, overrides⟩ paths).runFrom log).1.map fun findings =>
        { findings, rulesEvaluated := ids.length, filesScanned := paths.length
          elapsed := clock.elapsed } := by
  unfold lint
  rw [hsource]
  cases hrun : ((lintFiles host ⟨some ids, overrides⟩ paths).runFrom log).1 with
  | error e => exact fst_runFrom_bind_of_error hrun
  | ok findings => exact fst_runFrom_bind_of_ok hrun fun log => rfl

theorem lint_eq_ok_iff (hsource : source.resolve host = .ok ⟨some ids, overrides⟩)
    {paths : List String} {clock : Clock} {log : Log} {report : Report} :
    ((lint host source paths clock).runFrom log).1 = .ok report ↔
      ∃ found : String → List Diagnostic,
        (∀ path ∈ paths, LintsTo host ⟨some ids, overrides⟩ path (found path)) ∧
        report = {
          findings := paths.flatMap fun path => (found path).map (Finding.mk path)
          rulesEvaluated := ids.length
          filesScanned := paths.length
          elapsed := clock.elapsed } := by
  rw [fst_runFrom_lint hsource]
  constructor
  · intro h
    rcases forall_lintsTo_or_first_refused host ⟨some ids, overrides⟩ paths with
      hpaths | ⟨before, path, after, e, rfl, hbefore, hpath⟩
    · choose! found hfound using hpaths
      rw [fst_runFrom_lintFiles_of_lintsTo hfound] at h
      cases h
      exact ⟨found, hfound, rfl⟩
    · rw [fst_runFrom_lintFiles_of_refused hbefore hpath] at h
      cases h
  · rintro ⟨found, hfound, rfl⟩
    rw [fst_runFrom_lintFiles_of_lintsTo hfound]
    rfl

theorem lint_eq_error_iff (hsource : source.resolve host = .ok ⟨some ids, overrides⟩)
    {paths : List String} {clock : Clock} {log : Log} {e : RunError} :
    ((lint host source paths clock).runFrom log).1 = .error e ↔
      ∃ before path after, paths = before ++ path :: after ∧
        (∀ p ∈ before, ∃ ds, LintsTo host ⟨some ids, overrides⟩ p ds) ∧
        Refused host ⟨some ids, overrides⟩ path e := by
  rw [fst_runFrom_lint hsource]
  constructor
  · intro h
    rcases forall_lintsTo_or_first_refused host ⟨some ids, overrides⟩ paths with
      hpaths | ⟨before, path, after, e', rfl, hbefore, hpath⟩
    · choose! found hfound using hpaths
      rw [fst_runFrom_lintFiles_of_lintsTo hfound] at h
      cases h
    · rw [fst_runFrom_lintFiles_of_refused hbefore hpath] at h
      cases h
      exact ⟨before, path, after, rfl, hbefore, hpath⟩
  · rintro ⟨before, path, after, rfl, hbefore, hpath⟩
    rw [fst_runFrom_lintFiles_of_refused hbefore hpath]
    rfl

end Host

/-- A run with settings that list the rules, as those of every configuration do, returns exactly if
each of its files can be loaded and linted. The report then has the findings of the files in order,
each with its path, and so the findings of a run over two lists of files are those of the two runs.
Otherwise the run ends with the reason for which the first file is refused. A configuration that is
none is reported whatever the files are, and nothing else is done. -/
theorem lint_file_by_file (host : Host) (source : SettingsSource) (paths : List String)
    (clock : Clock) (log : Log) :
    (∀ config e, source = .file config → Config.load host config = .error (.error e) →
        (lint host source paths clock).runFrom log = (.error (.lint (.invalidConfig e)), log) ∧
          (LintError.invalidConfig e).message = "Invalid configuration: " ++ e.message) ∧
      ∀ ids overrides, source.resolve host = .ok ⟨some ids, overrides⟩ →
        let s : Settings := ⟨some ids, overrides⟩
        let outcome := fun paths => ((lint host source paths clock).runFrom log).1
        ((∃ report, outcome paths = .ok report) ↔ ∀ path ∈ paths, ∃ ds, LintsTo host s path ds) ∧
        (∀ report, outcome paths = .ok report →
          (∃ found : String → List Diagnostic, (∀ path ∈ paths, LintsTo host s path (found path)) ∧
            report.findings = paths.flatMap fun path => (found path).map (Finding.mk path)) ∧
          report.filesScanned = paths.length ∧ report.rulesEvaluated = ids.length) ∧
        (∀ others report, outcome (paths ++ others) = .ok report →
          ∃ first second, outcome paths = .ok first ∧ outcome others = .ok second ∧
            report.findings = first.findings ++ second.findings) ∧
        (∀ e, outcome paths = .error e ↔
          ∃ before path after, paths = before ++ path :: after ∧
            (∀ p ∈ before, ∃ ds, LintsTo host s p ds) ∧ Refused host s path e) ∧
        ∀ e, (LintError.invalidRules e).message = "Invalid configuration: " ++ e.message := by
  constructor
  · intro config e hconfig hload
    subst hconfig
    exact ⟨runFrom_lint_of_error (resolve_file_of_error hload) paths clock log, rfl⟩
  · intro ids overrides hsource s outcome
    refine ⟨⟨?_, ?_⟩, ?_, ?_, fun e => lint_eq_error_iff hsource, fun e => rfl⟩
    · rintro ⟨report, hreport⟩ path hpath
      obtain ⟨found, hfound, -⟩ := (lint_eq_ok_iff hsource).1 hreport
      exact ⟨found path, hfound path hpath⟩
    · intro hpaths
      choose! found hfound using hpaths
      exact ⟨_, (lint_eq_ok_iff hsource).2 ⟨found, hfound, rfl⟩⟩
    · intro report hreport
      obtain ⟨found, hfound, rfl⟩ := (lint_eq_ok_iff hsource).1 hreport
      exact ⟨⟨found, hfound, rfl⟩, rfl, rfl⟩
    · intro others report hreport
      obtain ⟨found, hfound, rfl⟩ := (lint_eq_ok_iff hsource).1 hreport
      obtain ⟨hpaths, hothers⟩ := List.forall_mem_append.1 hfound
      refine ⟨_, _, (lint_eq_ok_iff hsource).2 ⟨found, hpaths, rfl⟩,
        (lint_eq_ok_iff hsource).2 ⟨found, hothers, rfl⟩, ?_⟩
      exact List.flatMap_append

/-- An event whose parameter is misnamed, and a file that holds a list. -/
def eventAndList : Host where
  status path :=
    if path = "event.json" then
      .file "\x7b\"type\":\"EventDefinition\",\"parameters\":[\x7b\"name\":\"x\"\x7d]\x7d".toUTF8
    else if path = "list.json" then .file "[]".toUTF8
    else .missing

/-- The event twice, and the event before a file that is refused and one that is not there. -/
theorem lint_file_by_file_eventAndList :
    let outcome := fun paths => ((lint eventAndList .none paths {}).runFrom #[]).1
    (∃ report first second, outcome ["event.json", "event.json"] = .ok report ∧
      outcome ["event.json"] = .ok first ∧ outcome ["event.json"] = .ok second ∧
      report.findings = first.findings ++ second.findings ∧
      first.findings.map (fun f => (f.path, f.diagnostic.message)) =
        ([("event.json", "'x' should end with _")] : List (Text × Text)) ∧
      report.filesScanned = 2 ∧ report.rulesEvaluated = 4) ∧
    outcome ["event.json", "list.json", "nowhere.json"] =
      .error (.lint (.notATree "list.json")) := by
  intro outcome
  have hlaw := fun paths => (lint_file_by_file eventAndList .none paths {} #[]).2
    (Config.mk []).enabled (Config.mk []).overrides rfl
  have hfirst : (outcome ["event.json"]).toOption.map
      (fun r => r.findings.map fun f => (f.path, f.diagnostic.message)) =
        some ([("event.json", "'x' should end with _")] : List (Text × Text)) := by
    decide +kernel
  obtain ⟨first, hfirst, hmessages⟩ := exists_ok_of_toOption hfirst
  have hevent := (hlaw ["event.json"]).1.1 ⟨first, hfirst⟩
  constructor
  · obtain ⟨report, hreport⟩ := (hlaw ["event.json", "event.json"]).1.2
      fun path hpath => hevent path (by simpa using hpath)
    obtain ⟨-, hfiles, hrules⟩ := (hlaw _).2.1 report hreport
    obtain ⟨first', second, hfirst', hsecond, hfindings⟩ :=
      (hlaw ["event.json"]).2.2.1 ["event.json"] report hreport
    cases hfirst.symm.trans hfirst'
    exact ⟨report, first, second, hreport, hfirst, hsecond, hfindings, hmessages, hfiles, hrules⟩
  · refine ((hlaw _).2.2.2.1 _).2 ⟨["event.json"], "list.json", ["nowhere.json"], rfl, hevent, ?_⟩
    have hread : readTree eventAndList "list.json" = .error (.lint (.notATree "list.json")) := rfl
    exact .load fun log => (fst_runFrom_loadTree ..).trans hread

end UnderscoreLint
