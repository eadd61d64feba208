import UnderscoreLint.Proofs.FileByFile
import UnderscoreLint.Proofs.Loading
import UnderscoreLint.Proofs.Severities

/-!
# Runs with checked settings

A severity is any text, and what a configuration sets is recorded as it is. But a configuration that
comes from a document was checked: each of its entries is one of the valid settings
(`Config.Checked.mem_validSettings`), and since a rule that is off finds nothing, every finding of a
run with such a configuration is an error or a warning (`severity_of_lint`).
-/

namespace UnderscoreLint

/-- The default configuration, and those that a document was found to be. -/
inductive Config.Checked : Config → Prop where
  | default : Checked {}
  | parsed {α : Type} [Outlined α] {room : Nat} {d : α} {name : Text} {c : Config}
      (h : Config.parse room d name = .ok c) : Checked c

/-- Sources of settings that nobody made up: the default, a file, or a configuration that was
checked. -/
inductive SettingsSource.Checked : SettingsSource → Prop where
  | none : Checked .none
  | file (path : String) : Checked (.file path)
  | given {c : Config} (h : c.Checked) : Checked (.given c.settings)

theorem exists_of_bind_ok {ε α β : Type} {x : Except ε α} {f : α → Except ε β} {b : β}
    (h : x >>= f = .ok b) : ∃ a, x = .ok a ∧ f a = .ok b := by
  cases x with
  | error e => cases h
  | ok a => exact ⟨a, rfl, h⟩

theorem error_of_bind_error {ε α β : Type} {x : Except ε α} {f : α → Except ε β} {e : ε}
    (h : x >>= f = .error e) : x = .error e ∨ ∃ a, x = .ok a ∧ f a = .error e := by
  cases x with
  | error e' =>
      cases h
      exact .inl rfl
  | ok a => exact .inr ⟨a, rfl, h⟩

namespace Config

section Documents

variable {α : Type} [Outlined α] {room : Nat} {name : Text}

theorem mem_validSettings_of_parseSetting {id setting : Text} {d : α}
    (h : parseSetting room name id d = .ok setting) : setting ∈ validSettings := by
  unfold parseSetting at h
  split at h
  · cases h
    decide
  · obtain ⟨text, -, h⟩ := exists_of_bind_ok h
    split at h
    · rename_i hvalid
      cases h
      exact List.contains_iff_mem.1 hvalid
    · cases h

theorem mem_validSettings_of_parseRule {entry : Atom × α} {r : Text × Text}
    (h : parseRule room name entry = .ok r) : r.2 ∈ validSettings := by
  obtain ⟨id, -, h⟩ := exists_of_bind_ok h
  split at h
  · obtain ⟨setting, hsetting, h⟩ := exists_of_bind_ok h
    cases h
    exact mem_validSettings_of_parseSetting hsetting
  · cases h

theorem mem_validSettings_of_parseRules {d : Option α} {rules : List (Text × Text)}
    (h : parseRules room name d = .ok rules) : ∀ r ∈ rules, r.2 ∈ validSettings := by
  unfold parseRules at h
  split at h
  · cases h
    simp
  · cases h
    simp
  · intro r hr
    obtain ⟨entry, -, hentry⟩ := Rule.exists_of_mem_mapM h hr
    exact mem_validSettings_of_parseRule hentry
  · cases h

end Documents

/-- The entries of a configuration that was checked are valid settings. -/
theorem Checked.mem_validSettings {c : Config} (h : c.Checked) :
    ∀ r ∈ c.rules, r.2 ∈ validSettings := by
  cases h with
  | default => simp
  | parsed h =>
      unfold parse at h
      split at h
      · cases h
        simp
      · obtain ⟨-, -, h⟩ := exists_of_bind_ok h
        obtain ⟨rules, hrules, h⟩ := exists_of_bind_ok h
        cases h
        exact mem_validSettings_of_parseRules hrules
      · cases h

theorem Checked.of_load {host : Host} {path : String} {c : Config}
    (h : Config.load host path = .ok c) : c.Checked := by
  generalize hr : Except.ok c = r at h
  cases load_eq_iff.1 h with
  | document => exact .parsed hr.symm
  | nullInPath | absent | empty =>
      cases hr
      exact .default
  | unseen | unread | malformed | unloadable => cases hr

/-- A rule that is on reports its findings as errors or as warnings. -/
theorem Checked.severity {c : Config} (h : c.Checked) {id : Text}
    (hon : c.rules.lookup id ≠ some off) :
    (c.rules.lookup id).getD Severity.error ∈ [Severity.error, Severity.warn] := by
  cases hid : c.rules.lookup id with
  | none => decide
  | some setting =>
      obtain ⟨before, after, hrules, -⟩ := List.lookup_eq_some_iff.1 hid
      have hvalid : setting ∈ validSettings := h.mem_validSettings (id, setting) (by simp [hrules])
      have hoff : setting ≠ off := fun hsetting => hon (hid.trans (congrArg some hsetting))
      simpa [validSettings, hoff] using hvalid

end Config

theorem SettingsSource.Checked.exists_config {source : SettingsSource} (h : source.Checked)
    {host : Host} {s : Settings} (hs : source.resolve host = .ok s) :
    ∃ c : Config, c.Checked ∧ s = c.settings := by
  cases h with
  | none =>
      cases hs
      exact ⟨{}, .default, rfl⟩
  | given hc =>
      cases hs
      exact ⟨_, hc, rfl⟩
  | file path =>
      unfold resolve at hs
      dsimp only at hs
      split at hs
      · rename_i c hload
        cases hs
        exact ⟨c, .of_load hload, rfl⟩
      · cases hs

theorem LintsTo.severity {host : Host} {c : Config} (hc : c.Checked) {path : String}
    {ds : List Diagnostic} (h : LintsTo host c.settings path ds) :
    ∀ d ∈ ds, d.severity ∈ [Severity.error, Severity.warn] := by
  obtain ⟨tree, hload, hlint⟩ := h
  have hread : readTree host path = .ok tree := (fst_runFrom_loadTree ..).symm.trans (hload #[])
  intro d hd
  rw [eq_found_of_lintTree (isMap_of_readTree hread) (hlint #[])] at hd
  obtain ⟨hseverity, hon⟩ := Config.severity_of_mem_found hd
  rw [hseverity]
  exact hc.severity hon

/-- Every finding of a run with checked settings is an error or a warning. -/
theorem severity_of_lint {host : Host} {source : SettingsSource} (hsource : source.Checked)
    {paths : List String} {clock : Clock} {log : Log} {report : Report}
    (h : ((lint host source paths clock).runFrom log).1 = .ok report) :
    ∀ f ∈ report.findings, f.diagnostic.severity ∈ [Severity.error, Severity.warn] := by
  cases hs : source.resolve host with
  | error e =>
      rw [runFrom_lint_of_error hs] at h
      cases h
  | ok s =>
      obtain ⟨c, hc, rfl⟩ := hsource.exists_config hs
      obtain ⟨found, hfound, rfl⟩ := (lint_eq_ok_iff hs).1 h
      intro f hf
      obtain ⟨path, hpath, hf⟩ := List.mem_flatMap.1 hf
      obtain ⟨d, hd, rfl⟩ := List.mem_map.1 hf
      exact (hfound path hpath).severity hc d hd

end UnderscoreLint
