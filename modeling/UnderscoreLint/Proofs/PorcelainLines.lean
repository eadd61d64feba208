import UnderscoreLint.Proofs.CheckedSettings
import UnderscoreLint.Proofs.PorcelainReading
import UnderscoreLint.Proofs.UniqueFindings

/-!
# The lines of the report for scripts

A message quotes the name that it is about, and the report for scripts shows the message as it is.
So a finding takes one line of the report, and one more for each line feed in the name of its node.
In front of the message nothing has a line feed, as long as the paths have none: the ids of the
rules and the severities of checked settings are known, and coordinates are shown by numerals and
words. The first line of a finding therefore starts with the id of its rule, and a script that takes
each line for a finding is right exactly if no name has a line feed.
-/

namespace UnderscoreLint

namespace Text

/-- Texts that are joined are divided apart. -/
theorem splitOn_intercalate_eq_flatMap (sep : Letter) {texts : List (List Letter)}
    (h : texts ≠ []) :
    ([sep].intercalate texts).splitOn sep = texts.flatMap (·.splitOn sep) := by
  induction texts with
  | nil => exact absurd rfl h
  | cons text texts ih =>
      cases texts with
      | nil => simp
      | cons next texts =>
          have hjoin : [sep].intercalate (text :: next :: texts) =
              text ++ sep :: [sep].intercalate (next :: texts) := by
            simp [List.intercalate_cons_cons]
          rw [hjoin, List.splitOn,
            List.splitOnP_append_cons (p := fun c => c == sep) _ _ (beq_self_eq_true sep),
            List.flatMap_cons, ← ih (List.cons_ne_nil next texts)]
          rfl

theorem length_splitOn (sep : Letter) (text : List Letter) :
    (text.splitOn sep).length = text.count sep + 1 := by
  induction text with
  | nil => rfl
  | cons c text ih =>
      rw [List.splitOn_cons_eq_if_modifyHead, List.count_cons]
      split
      · rw [List.length_cons, ih]
      · rw [List.length_modifyHead, ih]

/-- The first part starts with what stands before the first separator. -/
theorem exists_splitOn_append {sep : Letter} {front : List Letter} (h : sep ∉ front)
    (text : List Letter) : ∃ first more, (front ++ text).splitOn sep = first :: more ∧
      front <+: first := by
  induction front with
  | nil =>
      obtain ⟨first, more, hsplit⟩ := List.exists_cons_of_ne_nil (List.splitOn_ne_nil sep text)
      exact ⟨first, more, hsplit, List.nil_prefix⟩
  | cons c front ih =>
      rw [List.mem_cons, not_or] at h
      obtain ⟨first, more, hsplit, hfirst⟩ := ih h.2
      refine ⟨c :: first, more, ?_, (List.prefix_cons_inj c).2 hfirst⟩
      rw [List.cons_append, List.splitOn_cons_eq_if_modifyHead, if_neg (by simpa using Ne.symm h.1),
        hsplit, List.modifyHead_cons]

end Text

section Parts

variable {α β : Type} {f : α → List β} {as : List α}

theorem length_le_length_flatMap (h : ∀ a ∈ as, f a ≠ []) :
    as.length ≤ (as.flatMap f).length := by
  induction as with
  | nil => exact Nat.zero_le _
  | cons a as ih =>
      obtain ⟨ha, has⟩ := List.forall_mem_cons.1 h
      have hpart := List.length_pos_of_ne_nil ha
      have hparts := ih has
      rw [List.flatMap_cons, List.length_append, List.length_cons]
      omega

/-- Parts that are not empty answer the elements one by one exactly if each is a single answer. -/
theorem forall₂_flatMap_iff {R : α → β → Prop} (h : ∀ a ∈ as, ∃ b bs, f a = b :: bs ∧ R a b) :
    List.Forall₂ R as (as.flatMap f) ↔ ∀ a ∈ as, (f a).length = 1 := by
  induction as with
  | nil => simp
  | cons a as ih =>
      obtain ⟨⟨b, bs, hparts, hb⟩, has⟩ := List.forall_mem_cons.1 h
      have hle := length_le_length_flatMap fun a ha => by
        obtain ⟨b, bs, hb, -⟩ := has a ha
        exact hb ▸ List.cons_ne_nil b bs
      rw [List.forall_mem_cons, ← ih has, List.flatMap_cons, hparts]
      constructor
      · intro hall
        -- what is left of the lines is not shorter than what is left of the findings
        have hlength := hall.length_eq
        simp only [List.length_cons, List.length_append] at hlength
        obtain rfl : bs = [] := List.eq_nil_of_length_eq_zero (by omega)
        exact ⟨rfl, (List.forall₂_cons.1 hall).2⟩
      · rintro ⟨hlength, hall⟩
        obtain rfl : bs = [] := List.eq_nil_of_length_eq_zero (Nat.succ.inj hlength)
        exact .cons hb hall

end Parts

/-! ### What messages quote -/

/-- The remark quotes the name of its node, with words on the same line behind it. -/
def Remark.Quotes (r : Remark) : Prop :=
  ∃ (name : Text) (tail : String), r.node.name? = some name ∧
    r.message = "'" ++ name ++ (tail : Text) ∧ '\n' ∉ tail.toList

namespace Remark

variable {n : Node} {name : Text}

theorem quotes_start (h : n.name? = some name) (should : Bool) : (start should n name).Quotes := by
  cases should
  · exact ⟨name, "' should not start with _", h, rfl, by decide⟩
  · exact ⟨name, "' should start with _", h, rfl, by decide⟩

theorem quotes_finish (h : n.name? = some name) (should : Bool) :
    (finish should n name).Quotes := by
  cases should
  · exact ⟨name, "' should not end with _", h, rfl, by decide⟩
  · exact ⟨name, "' should end with _", h, rfl, by decide⟩

theorem quotes_two {r r' : Remark} (hr : r.Quotes) (hr' : r'.Quotes) (a b : Bool) :
    ∀ x ∈ (if a then [] else [r]) ++ (if b then [r'] else []), x.Quotes := by
  cases a <;> cases b <;> simp [hr, hr']

theorem quotes_ofParameter (n : Node) : ∀ r ∈ ofParameter n, r.Quotes := by
  rw [ofParameter]
  cases hname : n.name? with
  | none => simp
  | some name => exact quotes_two (quotes_finish hname true) (quotes_start hname false) _ _

theorem quotes_ofLocal (n : Node) : ∀ r ∈ ofLocal n, r.Quotes := by
  rw [ofLocal]
  cases hname : n.name? with
  | none => simp
  | some name => exact quotes_two (quotes_start hname true) (quotes_finish hname false) _ _

theorem quotes_of_ofMember? {rs : List Remark} (h : ofMember? n = some rs) :
    ∀ r ∈ rs, r.Quotes := by
  rw [ofMember?] at h
  cases hname : n.name? with
  | none =>
      rw [hname] at h
      cases h
      simp
  | some name =>
      rw [hname] at h
      obtain ⟨hidden, -, rfl⟩ := Option.map_eq_some_iff.1 h
      split
      · simp
      · exact List.forall_mem_singleton.2 (quotes_start hname hidden)

end Remark

theorem Convention.quotes_of_remarks? {c : Convention} {s : Surroundings} {n : Node}
    {rs : List Remark} (h : c.remarks? s n = some rs) : ∀ r ∈ rs, r.Quotes := by
  have hsilent : rs = [] → ∀ r ∈ rs, r.Quotes := by
    rintro rfl
    simp
  cases c with
  | libraryMembers =>
      simp only [remarks?] at h
      split at h
      · exact Remark.quotes_of_ofMember? h
      · exact hsilent (Option.some.inj h).symm
  | parameters | returnParameters =>
      simp only [remarks?, Option.some.injEq] at h
      split at h
      · rw [← h]
        exact List.forall_mem_flatMap.2 fun m _ => Remark.quotes_ofParameter m
      · exact hsilent h.symm
  | localVariables =>
      simp only [remarks?, Option.some.injEq] at h
      split at h
      · rw [← h]
        exact List.forall_mem_flatMap.2 fun m _ =>
          List.forall_mem_flatMap.2 fun v _ => Remark.quotes_ofLocal v
      · exact hsilent h.symm

theorem LintsTo.quotes {host : Host} {s : Settings} {path : String} {ds : List Diagnostic}
    (h : LintsTo host s path ds) :
    ∀ d ∈ ds, d.ruleId ∈ Convention.ids ∧ (Remark.mk d.node d.message).Quotes := by
  obtain ⟨tree, hload, hlint⟩ := h
  have hread : readTree host path = .ok tree := (fst_runFrom_loadTree ..).symm.trans (hload #[])
  intro d hd
  rw [eq_found_of_lintTree (isMap_of_readTree hread) (hlint #[]), Settings.found_answers] at hd
  obtain ⟨p, -, hd⟩ := List.mem_flatMap.1 hd
  obtain ⟨c, -, hd⟩ := List.mem_flatMap.1 hd
  refine ⟨Place.ruleId_of_mem_findingsOf hd ▸ List.mem_map_of_mem c.mem_all, ?_⟩
  obtain ⟨r, hr, rfl⟩ := List.mem_map.1 hd
  cases hrs : p.remarks? c with
  | none =>
      rw [hrs] at hr
      cases hr
  | some rs =>
      rw [hrs] at hr
      exact Convention.quotes_of_remarks? hrs r hr

theorem quotes_of_lint {host : Host} {source : SettingsSource} (hsource : source.Checked)
    {paths : List String} {clock : Clock} {log : Log} {report : Report}
    (h : ((lint host source paths clock).runFrom log).1 = .ok report) :
    ∀ f ∈ report.findings, (∃ path ∈ paths, f.path = (path : Text)) ∧
      f.diagnostic.ruleId ∈ Convention.ids ∧
      (Remark.mk f.diagnostic.node f.diagnostic.message).Quotes := by
  cases hs : source.resolve host with
  | error e =>
      rw [runFrom_lint_of_error hs] at h
      cases h
  | ok s =>
      obtain ⟨c, -, rfl⟩ := hsource.exists_config hs
      obtain ⟨found, hfound, rfl⟩ := (lint_eq_ok_iff hs).1 h
      intro f hf
      obtain ⟨path, hpath, hf⟩ := List.mem_flatMap.1 hf
      obtain ⟨d, hd, rfl⟩ := List.mem_map.1 hf
      exact ⟨⟨path, hpath, rfl⟩, (hfound path hpath).quotes d hd⟩

/-! ### Lines -/

namespace Report

/-- The lines of the report for scripts that a finding takes. -/
def porcelainLines (f : Finding) : List Text :=
  ((porcelainLine f).letters.splitOn (.char '\n')).map Text.mk

/-- The report for scripts has one line for each finding, which starts with the id of its rule. -/
def IsLineByLine (r : Report) : Prop :=
  List.Forall₂ (fun f line => f.diagnostic.ruleId.letters <+: line.letters) r.findings
    (Porcelain.lines r.porcelain)

theorem lines_porcelain_eq_flatMap (r : Report) :
    Porcelain.lines r.porcelain = r.findings.flatMap porcelainLines := by
  unfold Porcelain.lines
  by_cases hnone : r.findings = []
  · rw [if_pos (r.porcelain_eq_empty_iff.2 hnone), hnone, List.flatMap_nil]
  · rw [if_neg (mt r.porcelain_eq_empty_iff.1 hnone), letters_porcelain,
      Text.splitOn_intercalate_eq_flatMap (.char '\n') (by simpa using hnone), List.flatMap_map]
    exact List.map_flatMap.trans rfl

/-- If nothing in front of the message has a line feed, the lines of a finding are as many as those
of its message, and the first one starts with the rule. -/
theorem exists_porcelainLines {f : Finding} (hrule : .char '\n' ∉ f.diagnostic.ruleId.letters)
    (hseverity : .char '\n' ∉ f.diagnostic.severity.letters) (hpath : .char '\n' ∉ f.path.letters) :
    ∃ first more, porcelainLines f = first :: more ∧
      f.diagnostic.ruleId.letters <+: first.letters ∧
      more.length = f.diagnostic.message.letters.count (.char '\n') := by
  have hcount : (porcelainLine f).letters.count (.char '\n') =
      f.diagnostic.message.letters.count (.char '\n') := by
    have hline := (Porcelain.not_mem_porcelainCoordinate f.diagnostic.location.line).2
    have hcolumn := (Porcelain.not_mem_porcelainCoordinate f.diagnostic.location.column).2
    simp [porcelainLine, List.count_eq_zero_of_not_mem, hrule, hseverity, hpath, hline, hcolumn]
  have hfront : ∃ rest, (porcelainLine f).letters = f.diagnostic.ruleId.letters ++ rest := by
    simp [porcelainLine]
  obtain ⟨rest, hrest⟩ := hfront
  obtain ⟨first, more, hsplit, hfirst⟩ := Text.exists_splitOn_append hrule rest
  rw [← hrest] at hsplit
  refine ⟨⟨first⟩, more.map Text.mk, by rw [porcelainLines, hsplit, List.map_cons], hfirst, ?_⟩
  have hlength := Text.length_splitOn (.char '\n') (porcelainLine f).letters
  rw [hsplit, hcount, List.length_cons] at hlength
  rw [List.length_map]
  exact Nat.succ.inj hlength

end Report

/-- Every finding of a run with checked settings is about a name. It takes a line of the report for
scripts that starts with the id of its rule, and one more line for each line feed in that name. So
the report has one line for each finding exactly if none of the names has a line feed. -/
theorem lint_porcelain_lines {host : Host} {source : SettingsSource} (hsource : source.Checked)
    {paths : List String} (hpaths : ∀ path ∈ paths, '\n' ∉ path.toList) {clock : Clock} {log : Log}
    {report : Report} (h : ((lint host source paths clock).runFrom log).1 = .ok report) :
    Porcelain.lines report.porcelain = report.findings.flatMap Report.porcelainLines ∧
      (∀ f ∈ report.findings, ∃ name first more, f.diagnostic.node.name? = some name ∧
        Report.porcelainLines f = first :: more ∧
        f.diagnostic.ruleId.letters <+: first.letters ∧
        more.length = name.letters.count (.char '\n')) ∧
      (report.IsLineByLine ↔
        ∀ f ∈ report.findings, ∀ name, f.diagnostic.node.name? = some name →
          .char '\n' ∉ name.letters) := by
  have hlines : ∀ f ∈ report.findings, ∃ name first more, f.diagnostic.node.name? = some name ∧
      Report.porcelainLines f = first :: more ∧ f.diagnostic.ruleId.letters <+: first.letters ∧
      more.length = name.letters.count (.char '\n') := by
    intro f hf
    obtain ⟨⟨path, hmem, hpath⟩, hrule, name, tail, hname, hmessage, htail⟩ :=
      quotes_of_lint hsource h f hf
    have hplain : ∀ text ∈ Convention.ids ++ [Severity.error, Severity.warn],
        .char '\n' ∉ text.letters := by decide
    have hfeed : .char '\n' ∉ f.path.letters := by
      rw [hpath]
      simpa using hpaths path hmem
    have hcount : f.diagnostic.message.letters.count (.char '\n') =
        name.letters.count (.char '\n') := by
      change f.diagnostic.message = _ at hmessage
      simp [hmessage, List.count_eq_zero_of_not_mem, htail]
    obtain ⟨first, more, hsplit, hfirst, hmore⟩ := Report.exists_porcelainLines
      (hplain _ (List.mem_append_left _ hrule))
      (hplain _ (List.mem_append_right _ (severity_of_lint hsource h f hf))) hfeed
    exact ⟨name, first, more, hname, hsplit, hfirst, hmore.trans hcount⟩
  refine ⟨report.lines_porcelain_eq_flatMap, hlines, ?_⟩
  rw [Report.IsLineByLine, report.lines_porcelain_eq_flatMap, forall₂_flatMap_iff]
  · refine forall₂_congr fun f hf => ?_
    obtain ⟨name, first, more, hname, hsplit, -, hmore⟩ := hlines f hf
    rw [hsplit, List.length_cons, hmore, hname]
    simp [List.count_eq_zero]
  · intro f hf
    obtain ⟨name, first, more, -, hsplit, hfirst, -⟩ := hlines f hf
    exact ⟨first, more, hsplit, hfirst⟩

/-- A function whose parameter has a line feed in its name. -/
def brokenName : Host where
  status path :=
    if path = "T.json" then
      .file ("\x7b\"type\":\"FunctionDefinition\"," ++
        "\"parameters\":[\x7b\"name\":\"a\\nb\"\x7d]\x7d").toUTF8
    else .missing

theorem exists_report_brokenName :
    ∃ report, ((lint brokenName .none ["T.json"] {}).runFrom #[]).1 = .ok report ∧
      (report.findings.map fun f => f.diagnostic.node.name?) = [some ("a\nb" : Text)] ∧
      Porcelain.lines report.porcelain =
        [("func-param-name-trailing-underscore:error:T.json:::'a" : Text),
          ("b' should end with _" : Text)] := by
  have hrun : ((lint brokenName .none ["T.json"] {}).runFrom #[]).1.toOption.map (fun report =>
      (report.findings.map fun f => f.diagnostic.node.name?,
        Porcelain.lines report.porcelain)) = some ([some ("a\nb" : Text)],
      [("func-param-name-trailing-underscore:error:T.json:::'a" : Text),
        ("b' should end with _" : Text)]) := by
    decide +kernel
  obtain ⟨report, hreport, hfacts⟩ := exists_ok_of_toOption hrun
  exact ⟨report, hreport, Prod.ext_iff.1 hfacts⟩

theorem lint_porcelain_lines_brokenName :
    (∀ path ∈ ["T.json"], '\n' ∉ path.toList) ∧
    ∃ report, ((lint brokenName .none ["T.json"] {}).runFrom #[]).1 = .ok report ∧
      report.findings.flatMap Report.porcelainLines =
        [("func-param-name-trailing-underscore:error:T.json:::'a" : Text),
          ("b' should end with _" : Text)] ∧
      ∃ f ∈ report.findings, ∃ first more, Report.porcelainLines f = first :: more ∧
        f.diagnostic.ruleId.letters <+: first.letters ∧ more.length = 1 := by
  have hpaths : ∀ path ∈ ["T.json"], '\n' ∉ path.toList := by decide
  obtain ⟨report, hreport, hnames, htexts⟩ := exists_report_brokenName
  obtain ⟨hlines, hfindings, -⟩ := lint_porcelain_lines .none hpaths hreport
  refine ⟨hpaths, report, hreport, by rw [← hlines, htexts], ?_⟩
  obtain ⟨f, hf, hname⟩ := List.mem_map.1 (hnames ▸ List.mem_cons_self)
  obtain ⟨name, first, more, hname', hsplit, hfirst, hmore⟩ := hfindings f hf
  obtain rfl : name = "a\nb" := Option.some.inj (hname'.symm.trans hname)
  exact ⟨f, hf, first, more, hsplit, hfirst, hmore⟩

/-- One finding takes two lines. -/
theorem not_isLineByLine_brokenName :
    ∃ report, ((lint brokenName .none ["T.json"] {}).runFrom #[]).1 = .ok report ∧
      report.findings.length = 1 ∧ (Porcelain.lines report.porcelain).length = 2 ∧
      ¬ report.IsLineByLine := by
  obtain ⟨report, hreport, hnames, htexts⟩ := exists_report_brokenName
  have hfindings : report.findings.length = 1 := by simpa using congrArg List.length hnames
  have hlines : (Porcelain.lines report.porcelain).length = 2 := by
    simpa using congrArg List.length htexts
  refine ⟨report, hreport, hfindings, hlines, fun h => ?_⟩
  have hlength := h.length_eq
  rw [hfindings, hlines] at hlength
  cases hlength

end UnderscoreLint
