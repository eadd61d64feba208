import UnderscoreLint.Proofs.RuleIndependence
import UnderscoreLint.Proofs.Siblings

/-!
# Configured severities

A configuration is looked at twice: for the rules that are on, and for the severities to record.
Both come from the same entries, and `Config.lookup_overrides` says that they fit together: for a
rule that is on, the severity to record is the one in its entry, if it has an entry.

The severities are only read when a finding is recorded. So two configurations that switch off the
same rules have the same places looked at by the same rules, and what is found differs in its
severity at most. Entries for ids that no rule has are never read.
-/

namespace UnderscoreLint

/-- Everything about a finding but its severity. -/
def Diagnostic.ungraded (d : Diagnostic) : Text × Text × Location × Node :=
  (d.ruleId, d.message, d.location, d.node)

namespace Config

theorem lookup_overrides (c : Config) {id : Text} (h : c.rules.lookup id ≠ some off) :
    c.overrides.lookup id = c.rules.lookup id := by
  obtain ⟨rules⟩ := c
  unfold overrides
  simp only at h ⊢
  induction rules with
  | nil => rfl
  | cons r rules ih =>
      obtain ⟨other, setting⟩ := r
      rw [List.lookup_cons] at h ⊢
      by_cases hid : id = other
      · have hon : setting ≠ off := by simpa [hid] using h
        simp [hid, hon]
      · have hskip : (id == other) = false := beq_eq_false_iff_ne.2 hid
        rw [hskip] at h ⊢
        rw [List.filter_cons, ← ih h]
        split
        · rw [List.lookup_cons, hskip]
        · rfl

theorem mem_enabled {c : Config} {id : Text} :
    id ∈ c.enabled ↔ id ∈ Convention.ids ∧ c.rules.lookup id ≠ some off := by
  simp [enabled]

/-- The configurations switch off the same rules, of those that there are. -/
def SameOff (c c' : Config) : Prop :=
  ∀ id ∈ Convention.ids, c.rules.lookup id = some off ↔ c'.rules.lookup id = some off

theorem SameOff.enabled_eq {c c' : Config} (h : c.SameOff c') : c.enabled = c'.enabled := by
  unfold enabled
  refine List.filter_congr fun id hid => ?_
  rw [Bool.eq_iff_iff]
  simpa using not_congr (h id hid)

/-- A finding is recorded at the severity in the entry of its rule, and that entry is not off. -/
theorem severity_of_mem_found {c : Config} {tree : Value} {d : Diagnostic}
    (h : d ∈ found (c.settings.answers tree)) :
    d.severity = (c.rules.lookup d.ruleId).getD Severity.error ∧
      c.rules.lookup d.ruleId ≠ some off := by
  rw [Settings.found_answers, List.mem_flatMap] at h
  obtain ⟨p, -, h⟩ := h
  obtain ⟨convention, hconvention, h⟩ := List.mem_flatMap.1 h
  have hon : c.rules.lookup convention.id ≠ some off :=
    (mem_enabled.1 (Convention.mem_among.1 hconvention)).2
  obtain ⟨remark, -, rfl⟩ := List.mem_map.1 h
  refine ⟨?_, hon⟩
  change (c.overrides.lookup convention.id).getD Severity.error = _
  rw [c.lookup_overrides hon]
  rfl

end Config

/-- Which severities are recorded shows in nothing else of an answer. -/
theorem Place.forall₂_answersOf_ungraded (overrides overrides' : List (Text × Text))
    (cs : List Convention) (p : Place) :
    List.Forall₂ (Option.Rel (List.Forall₂ fun d d' => d.ungraded = d'.ungraded))
      (p.answersOf overrides cs) (p.answersOf overrides' cs) := by
  unfold Place.answersOf
  rw [List.forall₂_map_left_iff, List.forall₂_map_right_iff, List.forall₂_same]
  intro c _
  cases p.remarks? c with
  | none => exact .none
  | some remarks =>
      refine .some ?_
      rw [List.forall₂_map_left_iff, List.forall₂_map_right_iff]
      exact List.forall₂_same.2 fun _ _ => rfl

theorem Config.SameOff.forall₂_answers {c c' : Config} (h : c.SameOff c') (tree : Value) :
    List.Forall₂ (Option.Rel (List.Forall₂ fun d d' => d.ungraded = d'.ungraded))
      (c.settings.answers tree) (c'.settings.answers tree) := by
  have hconventions : c.settings.conventions = c'.settings.conventions := by
    unfold Settings.conventions Config.settings
    rw [h.enabled_eq]
  unfold Settings.answers
  rw [hconventions]
  refine List.rel_flatMap (List.forall₂_same.2 fun _ _ => rfl) ?_
  rintro p _ rfl
  exact p.forall₂_answersOf_ungraded _ _ _

/-- Each finding of linting a mapping has the severity that the configuration has for its rule, or
is an error if there is no entry for its rule; the entry is never off. With another configuration
that switches off the same rules, linting fails for the same reason, or the findings are the same in
everything but their severity. -/
theorem lintTree_severities (c : Config) (entries : List (Text × Value)) (log : Log) :
    (∀ ds, ((lintTree c.settings (.map entries)).runFrom log).1 = .ok ds → ∀ d ∈ ds,
        d.severity = (c.rules.lookup d.ruleId).getD Severity.error ∧
          c.rules.lookup d.ruleId ≠ some Config.off) ∧
      ∀ c', c.SameOff c' → ∀ log',
        Alike (fun ds ds' => ds.map Diagnostic.ungraded = ds'.map Diagnostic.ungraded)
          ((lintTree c.settings (.map entries)).runFrom log).1
          ((lintTree c'.settings (.map entries)).runFrom log').1 := by
  constructor
  · intro ds hds d hd
    rw [eq_found_of_lintTree rfl hds] at hd
    exact Config.severity_of_mem_found hd
  · intro c' hoff log'
    have hanswers := hoff.forall₂_answers (.map entries)
    rw [c.runFrom_lintTree rfl, c'.runFrom_lintTree rfl,
      ← verdict_of_shuffled (.of_forall₂ hanswers)]
    cases verdict (c.settings.answers (.map entries)) with
    | error e => exact .error _
    | ok => exact .ok (forall₂_map_eq_iff.1 (forall₂_found hanswers))

/-- Warnings for parameters, no local variables, and an entry for a rule that is not there, -/
def lenient : Config := ⟨[
  ("func-param-name-trailing-underscore", "warn"), ("no-such-rule", "off"),
  ("scoped-vars-leading-underscore", "off")]⟩

/-- and a severity that nobody checked for members of libraries. -/
def unchecked : Config := ⟨[
  ("scoped-vars-leading-underscore", "off"), ("private-vars-leading-underscore-lib", "grave")]⟩

theorem lintTree_severities_lenient_unchecked :
    lenient.SameOff unchecked ∧
    ∃ ds ds', ((lintTree lenient.settings (.map libraryWithParameter)).runFrom #[]).1 = .ok ds ∧
      ((lintTree unchecked.settings (.map libraryWithParameter)).runFrom #[]).1 = .ok ds' ∧
      ds.map Diagnostic.severity = (["error", "warn"] : List Text) ∧
      ds'.map Diagnostic.severity = (["grave", "error"] : List Text) ∧
      (∀ d ∈ ds, d.severity = (lenient.rules.lookup d.ruleId).getD Severity.error) ∧
      ds.map Diagnostic.ungraded = ds'.map Diagnostic.ungraded := by
  have hoff : lenient.SameOff unchecked := by
    unfold Config.SameOff
    decide
  have hgrades :
      ((lintTree lenient.settings (.map libraryWithParameter)).runFrom #[]).1.toOption.map
        (List.map Diagnostic.severity) = some (["error", "warn"] : List Text) := by
    decide +kernel
  have hgrades' :
      ((lintTree unchecked.settings (.map libraryWithParameter)).runFrom #[]).1.toOption.map
        (List.map Diagnostic.severity) = some (["grave", "error"] : List Text) := by
    decide +kernel
  obtain ⟨ds, hds, hgrades⟩ := exists_ok_of_toOption hgrades
  obtain ⟨ds', hds', hgrades'⟩ := exists_ok_of_toOption hgrades'
  obtain ⟨hseverity, hsame⟩ := lintTree_severities lenient libraryWithParameter #[]
  have halike := hsame unchecked hoff #[]
  rw [hds, hds'] at halike
  cases halike with
  | ok hungraded =>
      refine ⟨hoff, ds, ds', hds, hds', hgrades, hgrades', ?_, hungraded⟩
      exact fun d hd => (hseverity ds hds d hd).1

end UnderscoreLint
