import UnderscoreLint.Proofs.EnrolledRun

/-!
# Rules do not interfere

`Place.findings overrides wanted p` is what the wanted rules find on entering the node of the place
`p`: rule after rule in the order of the registry, each by its own remarks. A run that is
completed returns the findings of all places in the order of entering (`lintTree_eq_ok_iff`), and
what is found at a place is reported by its entry and by no other event.

The order and the repetitions of the wanted ids do not show in the findings, and the findings of
fewer rules are those of more rules without the findings of the others
(`Place.filter_findings`). So switching a rule off removes what it found and changes nothing else.
-/

namespace UnderscoreLint

open UnderscoreLint.Action

namespace Place

/-- What one rule finds at a place. -/
def findingsOf (overrides : List (Text × Text)) (p : Place) (c : Convention) :
    List Diagnostic :=
  ((p.remarks? c).getD []).map (Remark.diagnostic overrides c.id)

/-- What the wanted rules find at a place, in the order of the registry. -/
def findings (overrides : List (Text × Text)) (wanted : List Text) (p : Place) :
    List Diagnostic :=
  (Convention.among wanted).flatMap (p.findingsOf overrides)

theorem ruleId_of_mem_findingsOf {overrides : List (Text × Text)} {p : Place}
    {c : Convention} {d : Diagnostic} (h : d ∈ p.findingsOf overrides c) : d.ruleId = c.id := by
  obtain ⟨m, -, rfl⟩ := List.mem_map.1 h
  rfl

theorem filter_findingsOf (overrides : List (Text × Text)) (wanted : List Text) (p : Place)
    (c : Convention) :
    ((p.findingsOf overrides c).filter fun d => wanted.contains d.ruleId) =
      if wanted.contains c.id then p.findingsOf overrides c else [] := by
  split
  · rename_i hc
    refine List.filter_eq_self.2 fun d hd => ?_
    rw [ruleId_of_mem_findingsOf hd, hc]
  · rename_i hc
    refine List.filter_eq_nil_iff.2 fun d hd => ?_
    rw [ruleId_of_mem_findingsOf hd]
    exact hc

theorem findings_eq_flatMap (overrides : List (Text × Text)) (wanted : List Text)
    (p : Place) :
    p.findings overrides wanted = Convention.all.flatMap fun c =>
      if wanted.contains c.id then p.findingsOf overrides c else [] := by
  rw [findings, Convention.among]
  induction Convention.all with
  | nil => rfl
  | cons c cs ih =>
      rw [List.flatMap_cons, ← ih]
      split
      · rename_i hc
        rw [List.filter_cons_of_pos (a := c) hc, List.flatMap_cons]
      · rename_i hc
        rw [List.filter_cons_of_neg (a := c) hc, List.nil_append]

/-- The findings of fewer rules are those of more rules without the findings of the others. -/
theorem filter_findings (overrides : List (Text × Text)) {wanted fewer : List Text}
    (hfewer : ∀ id ∈ fewer, id ∈ wanted) (p : Place) :
    ((p.findings overrides wanted).filter fun d => fewer.contains d.ruleId) =
      p.findings overrides fewer := by
  rw [findings_eq_flatMap, findings_eq_flatMap, List.filter_flatMap]
  refine List.flatMap_congr fun c _ => ?_
  by_cases hc : c.id ∈ wanted
  · rw [if_pos (List.contains_iff_mem.2 hc), filter_findingsOf]
  · have hc' : c.id ∉ fewer := fun h => hc (hfewer c.id h)
    rw [if_neg (mt List.contains_iff_mem.1 hc), if_neg (mt List.contains_iff_mem.1 hc')]
    rfl

/-- At a place the rules speak in the order of the registry. -/
theorem pairwise_findings (overrides : List (Text × Text)) (wanted : List Text)
    (p : Place) :
    (p.findings overrides wanted).Pairwise fun d d' =>
      Convention.ids.idxOf d.ruleId ≤ Convention.ids.idxOf d'.ruleId := by
  have hall : Convention.all.Pairwise fun c c' =>
      Convention.ids.idxOf c.id ≤ Convention.ids.idxOf c'.id := by
    decide
  rw [findings, Convention.among, List.pairwise_flatMap]
  constructor
  · intro c _
    refine List.pairwise_of_forall_mem_list fun d hd d' hd' => ?_
    rw [ruleId_of_mem_findingsOf hd, ruleId_of_mem_findingsOf hd']
  · refine (hall.filter _).imp fun h d hd d' hd' => ?_
    rw [ruleId_of_mem_findingsOf hd, ruleId_of_mem_findingsOf hd']
    exact h

theorem verdict_answersOf_eq_ok_iff (overrides : List (Text × Text)) {wanted : List Text}
    {ps : List Place} :
    verdict (ps.flatMap (answersOf overrides (Convention.among wanted))) = .ok () ↔
      ∀ p ∈ ps, ∀ c : Convention, c.id ∈ wanted → (p.remarks? c).isSome := by
  rw [verdict_eq_ok_iff, List.forall_mem_flatMap]
  simp only [answersOf, List.forall_mem_map, Option.isSome_map, Convention.mem_among]

/-- If every wanted rule has an answer at every place, the findings are reported place after
place. -/
theorem reported_answersOf {overrides : List (Text × Text)} {wanted : List Text}
    {ps : List Place}
    (h : verdict (ps.flatMap (answersOf overrides (Convention.among wanted))) = .ok ()) :
    reported (ps.flatMap (answersOf overrides (Convention.among wanted))) =
      ps.flatMap (findings overrides wanted) := by
  rw [reported_of_ok h, List.flatMap_assoc]
  refine List.flatMap_congr fun p _ => ?_
  rw [answersOf, List.flatMap_map, findings]
  refine List.flatMap_congr fun c _ => ?_
  rw [findingsOf]
  cases p.remarks? c <;> rfl

end Place

theorem exists_runFrom_each_logLine {β : Type} (text : β → Text) (bs : List β) (log : Log) :
    ∃ log', (each (fun b => (logLine .debug registrySource (text b) : Logged TreeError Unit))
      bs).runFrom log = (.ok (), log') := by
  induction bs generalizing log with
  | nil => exact ⟨log, rfl⟩
  | cons b bs ih =>
      obtain ⟨log', hlog'⟩ := ih (log.push ⟨.debug, registrySource, text b⟩)
      refine ⟨log', ?_⟩
      rw [each_cons, logLine, runFrom_bind_of_ok _ (runFrom_modify _ log), hlog']

/-- The outcome of linting a tree does not depend on the log. -/
theorem runFrom_lintTree (s : Settings) (tree : Value) (log : Log) :
    ((lintTree s tree).runFrom log).1 =
      match Rule.create (some { overrides := s.overrides }) s.enabled [] with
      | .error e => .error (.rules e)
      | .ok rules =>
        ((analyse rules s.overrides tree).1.mapError TreeError.walk).map fun _ =>
          (analyse rules s.overrides tree).2.reporter.diagnostics.toList := by
  unfold lintTree
  cases Rule.create (some { overrides := s.overrides }) s.enabled [] with
  | error e => rfl
  | ok rules =>
      obtain ⟨log', hlog'⟩ := exists_runFrom_each_logLine
        (fun r : Rule => "Registered rule " ++ r.id) rules log
      simp only
      rw [runFrom_bind_of_ok _ hlog']
      rcases analyse rules s.overrides tree with ⟨e | visited, a⟩ <;> rfl

/-- Linting a mapping is completed exactly if the wanted ids are known and each wanted rule has an
answer at every place. It returns what is found, place after place. -/
theorem lintTree_eq_ok_iff {overrides : List (Text × Text)} {entries : List (Text × Value)}
    {wanted : List Text} {log : Log} {found : List Diagnostic} :
    ((lintTree ⟨some wanted, overrides⟩ (.map entries)).runFrom log).1 = .ok found ↔
      (∀ id ∈ wanted, id ∈ Convention.ids) ∧
      (∀ p ∈ (Place.top ⟨[], .map entries⟩).preorder,
        ∀ c : Convention, c.id ∈ wanted → (p.remarks? c).isSome) ∧
      found = (Place.top ⟨[], .map entries⟩).preorder.flatMap
        (Place.findings overrides wanted) := by
  rw [runFrom_lintTree]
  cases hcreate : Rule.create (some { overrides }) (some wanted) [] with
  | error e =>
      have hunknown : ¬ ∀ id ∈ wanted, id ∈ Convention.ids := by
        intro hknown
        rw [(Rule.create_eq_ok_iff ..).2 ⟨hknown, rfl⟩] at hcreate
        cases hcreate
      simp [hunknown]
  | ok rules =>
      obtain ⟨hknown, rfl⟩ := (Rule.create_eq_ok_iff ..).1 hcreate
      obtain ⟨houtcome, hdiagnostics⟩ := analyse_map_rule (Convention.among wanted)
        (fun c => (Value.lookup c.id []).getD .null) overrides entries
      simp only at houtcome hdiagnostics ⊢
      rw [houtcome, hdiagnostics, ← Place.verdict_answersOf_eq_ok_iff overrides]
      cases hverdict : verdict _ with
      | error e => simp [Except.map, Except.mapError]
      | ok =>
          rw [Place.reported_answersOf hverdict]
          constructor
          · intro h
            cases h
            exact ⟨hknown, rfl, rfl⟩
          · rintro ⟨-, -, rfl⟩
            rfl

/-- While every question has an answer, an entry reports what the nodes above make of it, and an
exit reports nothing. -/
theorem Table.Enrols.diagnostics_dispatch {t : Table Handler} {es : List Enrolment}
    (ht : t.Enrols es) {root : Node} {a : Analysis} {before after : List (Phase × Place)}
    {phase : Phase} {p : Place} (hscript : (Place.top root).script = before ++ (phase, p) :: after)
    (hok : verdict ((Place.top root).preorder.flatMap (Place.answers a.reporter.overrides
      (fun serial => (a.scopesOf serial).surroundings) es)) = .ok ()) :
    let b := ((t.fire Handler.call (Place.events before)).runFrom a).2
    ((t.dispatch Handler.call phase p.node).runFrom b).2.reporter.diagnostics.toList =
      b.reporter.diagnostics.toList ++ if phase = .enter then
        reported (p.answers a.reporter.overrides
          (fun serial => (a.scopesOf serial).surroundings) es) else [] := by
  intro b
  have hnested := (Place.top root).nested_script
  rw [hscript] at hnested
  obtain ⟨mid, hbefore, hevent⟩ := hnested.exists_of_append
  have hperforms := ht.performs_of_nested a.scopesOf hbefore (a := a) fun _ => rfl
  have hscopes : ∀ serial,
      b.scopesOf serial = (a.scopesOf serial).opened (multiplicity es serial) mid := by
    refine hperforms.scopes (hperforms.outcome.trans ?_)
    rw [← Place.flatMap_script, hscript, List.flatMap_append] at hok
    refine verdict_eq_ok_iff.2 fun answer hanswer => ?_
    exact verdict_eq_ok_iff.1 hok answer (List.mem_append_left _ hanswer)
  cases hevent with
  | enter _ =>
      rw [(ht.performs_enter p hscopes).diagnostics, hperforms.overrides, if_pos rfl]
  | exit _ =>
      rw [(ht.performs_exit p hscopes).diagnostics, if_neg Phase.noConfusion]
      rfl

/-- On a table of the wanted rules an entry reports the findings of its place. -/
theorem diagnostics_dispatch_among {overrides : List (Text × Text)} {wanted : List Text}
    (given : Convention → Value) {root : Node} {before after : List (Phase × Place)}
    {phase : Phase} {p : Place} (hscript : (Place.top root).script = before ++ (phase, p) :: after)
    (hanswered : ∀ q ∈ (Place.top root).preorder,
      ∀ c : Convention, c.id ∈ wanted → (q.remarks? c).isSome) :
    let table : Table Handler :=
      Table.empty.register 0 ((Convention.among wanted).map fun c => c.rule (given c))
    let a := ((table.fire Handler.call (Place.events before)).runFrom
      { reporter := { overrides } }).2
    ((table.dispatch Handler.call phase p.node).runFrom a).2.reporter.diagnostics.toList =
      a.reporter.diagnostics.toList ++
        if phase = .enter then p.findings overrides wanted else [] := by
  intro table a
  have ht : table.Enrols ((Convention.among wanted).map fun c => ⟨0, c⟩) :=
    Table.enrols_empty.register_map 0 given (Convention.among wanted)
  have hfresh : Place.answers overrides (fun _ => LibraryScopes.surroundings .fresh)
      ((Convention.among wanted).map fun c => ⟨0, c⟩) =
      Place.answersOf overrides (Convention.among wanted) :=
    funext fun q => q.answers_fresh overrides 0 (Convention.among wanted)
  have hok := (Place.verdict_answersOf_eq_ok_iff overrides).2 hanswered
  rw [← hfresh] at hok
  refine (ht.diagnostics_dispatch (a := { reporter := { overrides } }) hscript hok).trans ?_
  cases phase with
  | exit => rfl
  | enter =>
      have hp : p ∈ (Place.top root).preorder := by
        refine Place.mem_preorder_of_mem_script ?_
        rw [hscript]
        exact List.mem_append_right _ List.mem_cons_self
      have hasked : ∀ q ∈ [p], ∀ c : Convention, c.id ∈ wanted → (q.remarks? c).isSome := by
        intro q hq
        rw [List.mem_singleton.1 hq]
        exact hanswered p hp
      have hreported :=
        Place.reported_answersOf ((Place.verdict_answersOf_eq_ok_iff overrides).2 hasked)
      rw [List.flatMap_singleton, List.flatMap_singleton, ← hfresh] at hreported
      rw [if_pos rfl, if_pos rfl, ← hreported]
      rfl

/-- If linting a mapping with the wanted rules returns some findings, then linting it with fewer
rules returns these findings without those of the other rules. The findings come place after place
in the order of entering, at each place in the order of the registry. Whenever the walk comes to an
event, an entry appends the findings of its place to the report and an exit appends nothing. -/
theorem lintTree_filter_of_subset {overrides : List (Text × Text)}
    {entries : List (Text × Value)} {wanted fewer : List Text} {log : Log}
    {found : List Diagnostic} (hfewer : ∀ id ∈ fewer, id ∈ wanted)
    (h : ((lintTree ⟨some wanted, overrides⟩ (.map entries)).runFrom log).1 = .ok found) :
    let top := Place.top ⟨[], .map entries⟩
    (∀ log', ((lintTree ⟨some fewer, overrides⟩ (.map entries)).runFrom log').1 =
        .ok (found.filter fun d => fewer.contains d.ruleId)) ∧
      found = top.preorder.flatMap (Place.findings overrides wanted) ∧
      (∀ p, (Place.findings overrides wanted p).Pairwise fun d d' =>
        Convention.ids.idxOf d.ruleId ≤ Convention.ids.idxOf d'.ruleId) ∧
      ∃ rules, Rule.create (some { overrides }) (some wanted) [] = .ok rules ∧
        ∀ before phase p after, top.script = before ++ (phase, p) :: after →
          let table : Table Handler := Table.empty.register 0 rules
          let a := ((table.fire Handler.call (Place.events before)).runFrom
            { reporter := { overrides } }).2
          ((table.dispatch Handler.call phase p.node).runFrom a).2.reporter.diagnostics.toList =
            a.reporter.diagnostics.toList ++
              if phase = .enter then p.findings overrides wanted else [] := by
  intro top
  obtain ⟨hknown, hanswered, hfound⟩ := lintTree_eq_ok_iff.1 h
  refine ⟨?_, hfound, fun p => p.pairwise_findings overrides wanted, _,
    (Rule.create_eq_ok_iff ..).2 ⟨hknown, rfl⟩, ?_⟩
  · intro log'
    refine lintTree_eq_ok_iff.2 ⟨?_, ?_, ?_⟩
    · exact fun id hid => hknown id (hfewer id hid)
    · exact fun p hp c hc => hanswered p hp c (hfewer c.id hc)
    · rw [hfound, List.filter_flatMap]
      exact List.flatMap_congr fun p _ => p.filter_findings overrides hfewer
  · intro before phase p after hscript
    exact diagnostics_dispatch_among _ hscript hanswered

/-- A library with a function that two rules have something to say about. -/
def libraryWithParameter : List (Text × Value) := [
  ("type", .text "ContractDefinition"), ("kind", .text "library"),
  ("subNodes", .list [.map [
    ("type", .text "FunctionDefinition"), ("name", .text "f"), ("visibility", .text "internal"),
    ("parameters", .list [.map [("type", .text "VariableDeclaration"), ("name", .text "x_")],
      .map [("type", .text "Parameter"), ("name", .text "y")]])]])]

/-- Three rules, one of them wanted twice, and the library rule alone. -/
theorem lintTree_filter_of_subset_libraryWithParameter :
    let wanted : List Text := ["scoped-vars-leading-underscore",
      "private-vars-leading-underscore-lib", "func-param-name-trailing-underscore",
      "private-vars-leading-underscore-lib"]
    let fewer : List Text := ["private-vars-leading-underscore-lib"]
    ∃ found,
      ((lintTree ⟨some wanted, []⟩ (.map libraryWithParameter)).runFrom #[]).1 = .ok found ∧
      found.map Diagnostic.message =
        (["'f' should start with _", "'y' should end with _"] : List Text) ∧
      ((lintTree ⟨some fewer, []⟩ (.map libraryWithParameter)).runFrom #[]).1 =
        .ok (found.filter fun d => fewer.contains d.ruleId) := by
  intro wanted fewer
  let run := (lintTree ⟨some wanted, []⟩ (.map libraryWithParameter)).runFrom #[]
  have hmessages : run.1.toOption.map (List.map Diagnostic.message) =
      some (["'f' should start with _", "'y' should end with _"] : List Text) := by
    decide +kernel
  cases hfound : run.1 with
  | error e =>
      rw [hfound] at hmessages
      cases hmessages
  | ok found =>
      rw [hfound] at hmessages
      have hfewer : ∀ id ∈ fewer, id ∈ wanted := by decide
      refine ⟨found, rfl, Option.some.inj hmessages, ?_⟩
      exact (lintTree_filter_of_subset hfewer hfound).1 #[]

end UnderscoreLint
