import UnderscoreLint.Proofs.Address
import UnderscoreLint.Proofs.Resemblance

/-!
# What the conventions for parameters and for local variables mean

Both conventions about parameters and the one about local variables judge a node by its name alone,
and they look at the nodes that some lists below an entered node hold. What comes of a run with one
of them is said here by these lists and by the two ends of the names: `Node.listed` reads a list as
it stands in the document, with all of its items, and `Node.diagnosticsOf` says something about the
name of a node, if it has one. Items that are absent or that are no nodes have no name, and so
nothing is said about them.

None of these conventions looks at its surroundings and each of them has an answer everywhere, so a
run with one of them never fails (`Convention.reports_of_remarks`).
-/

namespace UnderscoreLint

namespace Marker

theorem leads_iff (name : Text) : leads name = true ↔ [.char '_'] <+: name.letters := by
  unfold leads
  rw [beq_iff_eq, List.head?_eq_some_iff]
  exact exists_congr fun _ => eq_comm

theorem trails_iff (name : Text) : trails name = true ↔ [.char '_'] <:+ name.letters := by
  unfold trails
  rw [beq_iff_eq, List.getLast?_eq_some_iff]
  exact exists_congr fun _ => eq_comm

end Marker

namespace Node

/-- The items of the list under an attribute, all of them; there are none if it is no list. -/
def listed (n : Node) (name : Text) : List Node :=
  ((n.attr? name).map items).getD []

/-- The variables that are declared by the statements of a node's own body. -/
def bodyVariables (n : Node) : List Node :=
  (((n.attr? "body").map fun body => body.listed "statements").getD []).flatMap fun s =>
    if s.isKind "VariableDeclarationStatement" then s.listed "variables" else []

/-- What a rule reports about the name of a node, if the node has one. -/
def diagnosticsOf (overrides : List (Text × Text)) (ruleId : Text)
    (messages : Text → List Text) (n : Node) : List Diagnostic :=
  ((n.name?.map messages).getD []).map fun message => {
    severity := (overrides.lookup ruleId).getD "error"
    ruleId
    message
    location := n.location
    node := n }

theorem flatMap_members {α : Type} {f : Node → List α}
    (hf : ∀ m : Node, m.hasAttributes = false → f m = []) (n : Node) (name : Text) :
    (n.members name).flatMap f = (n.listed name).flatMap f := by
  unfold members listed
  cases n.attr? name with
  | none => rfl
  | some l =>
      refine flatMap_filter_of_nil l.items fun m hm => hf m ?_
      obtain ⟨address, v⟩ := m
      cases v with
      | scalar s => rfl
      | _ => cases hm

theorem address_of_mem_listed {m n : Node} {name : Text} (h : m ∈ n.listed name) :
    ∃ k, m.address = n.address ++ [.key name, .index k] := by
  unfold listed at h
  cases hl : n.attr? name with
  | none => simp [hl] at h
  | some l =>
      rw [hl] at h
      obtain ⟨-, k, -, -, hm⟩ := mem_items h
      refine ⟨k, ?_⟩
      rw [hm, (exists_of_attr? hl).2, List.append_assoc]
      rfl

theorem address_of_mem_bodyVariables {v n : Node} (h : v ∈ n.bodyVariables) :
    ∃ i k, v.address = n.address ++
      [.key "body", .key "statements", .index i, .key "variables", .index k] := by
  obtain ⟨s, hs, hv⟩ := List.mem_flatMap.1 h
  cases hbody : n.attr? "body" with
  | none => simp [hbody] at hs
  | some body =>
      rw [hbody] at hs
      split at hv
      · obtain ⟨i, hi⟩ := address_of_mem_listed hs
        obtain ⟨k, hk⟩ := address_of_mem_listed hv
        refine ⟨i, k, ?_⟩
        rw [hk, hi, (exists_of_attr? hbody).2, List.append_assoc, List.append_assoc]
        rfl
      · cases hv

end Node

/-- What is said of the name of a parameter: it ends with the marker and does not start with it. -/
def parameterMessages (name : Text) : List Text :=
  (if [.char '_'] <:+ name.letters then [] else ["'" ++ name ++ "' should end with _"]) ++
    (if [.char '_'] <+: name.letters then ["'" ++ name ++ "' should not start with _"] else [])

/-- What is said of the name of a local variable: it starts with the marker and does not end with
it. -/
def localMessages (name : Text) : List Text :=
  (if [.char '_'] <+: name.letters then [] else ["'" ++ name ++ "' should start with _"]) ++
    (if [.char '_'] <:+ name.letters then ["'" ++ name ++ "' should not end with _"] else [])

theorem parameterMessages_eq_nil_iff (name : Text) :
    parameterMessages name = [] ↔
      [.char '_'] <:+ name.letters ∧ ¬ [.char '_'] <+: name.letters := by
  unfold parameterMessages
  by_cases htrails : [.char '_'] <:+ name.letters <;>
    by_cases hleads : [.char '_'] <+: name.letters <;> simp [htrails, hleads]

namespace Remark

variable (overrides : List (Text × Text)) (ruleId : Text)

theorem map_ofParameter (n : Node) :
    (ofParameter n).map (diagnostic overrides ruleId) =
      n.diagnosticsOf overrides ruleId parameterMessages := by
  unfold ofParameter Node.diagnosticsOf
  cases n.name? with
  | none => rfl
  | some name =>
      simp only [Option.map_some, Option.getD_some, parameterMessages, ← Marker.leads_iff,
        ← Marker.trails_iff]
      cases Marker.trails name <;> cases Marker.leads name <;> rfl

theorem map_ofLocal (n : Node) :
    (ofLocal n).map (diagnostic overrides ruleId) =
      n.diagnosticsOf overrides ruleId localMessages := by
  unfold ofLocal Node.diagnosticsOf
  cases n.name? with
  | none => rfl
  | some name =>
      simp only [Option.map_some, Option.getD_some, localMessages, ← Marker.leads_iff,
        ← Marker.trails_iff]
      cases Marker.trails name <;> cases Marker.leads name <;> rfl

theorem diagnosticsOf_of_not_hasAttributes (messages : Text → List Text) {n : Node}
    (h : n.hasAttributes = false) : n.diagnosticsOf overrides ruleId messages = [] := by
  rw [Node.diagnosticsOf, Node.name?_of_not_hasAttributes h]
  rfl

theorem map_ofParameters (attr : Text) (n : Node) :
    (ofParameters attr n).map (diagnostic overrides ruleId) =
      (n.listed attr).flatMap (Node.diagnosticsOf overrides ruleId parameterMessages) := by
  rw [ofParameters, List.map_flatMap]
  simp only [map_ofParameter]
  apply Node.flatMap_members
  intro m hm
  exact diagnosticsOf_of_not_hasAttributes overrides ruleId _ hm

theorem map_ofBody (n : Node) :
    (ofBody n).map (diagnostic overrides ruleId) =
      n.bodyVariables.flatMap (Node.diagnosticsOf overrides ruleId localMessages) := by
  -- What is said of one statement, which is nothing unless it declares variables.
  let said (s : Node) : List Diagnostic :=
    (if s.isKind "VariableDeclarationStatement" then s.listed "variables" else []).flatMap
      (Node.diagnosticsOf overrides ruleId localMessages)
  have hstatement : ∀ s : Node, s.isKind "VariableDeclarationStatement" = true →
      ((s.members "variables").flatMap ofLocal).map (diagnostic overrides ruleId) = said s := by
    intro s hs
    simp only [said, hs, if_true, List.map_flatMap, map_ofLocal]
    apply Node.flatMap_members
    intro m hm
    exact diagnosticsOf_of_not_hasAttributes overrides ruleId _ hm
  have hsilent : ∀ s : Node, s.isKind "VariableDeclarationStatement" = false → said s = [] := by
    intro s hs
    simp [said, hs]
  have hbody : (ofBody n).map (diagnostic overrides ruleId) = n.bodyStatements.flatMap said := by
    rw [ofBody, List.map_flatMap, ← flatMap_filter_of_nil n.bodyStatements hsilent]
    apply List.flatMap_congr
    intro s hs
    exact hstatement s (List.mem_filter.1 hs).2
  rw [hbody, Node.bodyVariables, List.flatMap_assoc, Node.bodyStatements]
  cases n.attr? "body" with
  | none => rfl
  | some body =>
      apply Node.flatMap_members
      intro s hs
      apply hsilent
      rw [Node.isKind, Node.kind?, Node.textAttr?_of_not_hasAttributes hs]
      rfl

end Remark

namespace Convention

/-- A rule alone, on any mapping: it can be made, it never fails, and it reports what it has to tell
about the nodes of some kinds, one after the other in the order of entering. -/
def Reports (c : Convention) (kinds : List Text)
    (tells : List (Text × Text) → Node → List Diagnostic) : Prop :=
  ∀ (reporter : Reporter) (settings : List (Text × Value)) (overrides : List (Text × Text))
    (entries : List (Text × Value)),
    ∃ rules, Rule.create (some reporter) (some [c.id]) settings = .ok rules ∧
      let root : Node := ⟨[], .map entries⟩
      let run := analyse rules overrides (.map entries)
      run.1 = .ok (Node.entries root.script) ∧
        run.2.reporter.diagnostics.toList =
          ((Place.top root).preorder.filter fun p => kinds.any p.node.isKind).flatMap fun p =>
            tells overrides p.node

theorem among_id (c : Convention) : among [c.id] = [c] := by
  cases c <;> rfl

/-- A convention that has remarks about nodes of some kinds, whatever their surroundings, reports
these remarks. -/
theorem reports_of_remarks {c : Convention} {kinds : List Text} (remarks : Node → List Remark)
    {tells : List (Text × Text) → Node → List Diagnostic}
    (hremarks : ∀ s n, c.remarks? s n = some (if kinds.any n.isKind then remarks n else []))
    (htells : ∀ overrides n,
      (remarks n).map (Remark.diagnostic overrides c.id) = tells overrides n) :
    c.Reports kinds tells := by
  intro reporter settings overrides entries
  have hid : ∀ id ∈ [c.id], id ∈ ids := by
    intro id hid
    rw [List.mem_singleton.1 hid]
    exact List.mem_map_of_mem c.mem_all
  have hcreate := (Rule.create_eq_ok_iff reporter [c.id] settings _).2 ⟨hid, rfl⟩
  rw [among_id] at hcreate
  refine ⟨_, hcreate, ?_⟩
  intro root run
  let told (p : Place) : List Diagnostic :=
    if kinds.any p.node.isKind then tells overrides p.node else []
  have hanswers : (Place.top root).preorder.flatMap (Place.answersOf overrides [c]) =
      (Place.top root).preorder.map fun p => some (told p) := by
    rw [List.map_eq_flatMap]
    apply List.flatMap_congr
    intro p _
    rw [Place.answersOf, List.map_singleton, Place.remarks?, hremarks, Option.map_some]
    simp only [told, ← htells]
    split <;> rfl
  have hverdict : verdict ((Place.top root).preorder.map fun p => some (told p)) = .ok () := by
    rw [verdict_eq_ok_iff]
    simp
  have hfilter : (Place.top root).preorder.flatMap told =
      ((Place.top root).preorder.filter fun p => kinds.any p.node.isKind).flatMap fun p =>
        tells overrides p.node := by
    have hsilent : ∀ p : Place, kinds.any p.node.isKind = false → told p = [] :=
      fun p hp => if_neg (Bool.eq_false_iff.1 hp)
    rw [← flatMap_filter_of_nil _ hsilent]
    apply List.flatMap_congr
    intro p hp
    exact if_pos (List.mem_filter.1 hp).2
  obtain ⟨houtcome, hdiagnostics⟩ : run.1 = _ ∧ run.2.reporter.diagnostics.toList = _ :=
    analyse_map_rule [c] _ overrides entries
  rw [hanswers] at houtcome hdiagnostics
  constructor
  · rw [houtcome, hverdict]
    rfl
  · rw [hdiagnostics, reported_of_ok hverdict, List.flatMap_map, ← hfilter]
    rfl

end Convention

/-- The rules for parameters and for return parameters, each alone on a mapping. They never fail.
For each node of their kinds, in the order of entering, and for each item of the list that they are
about, they report that its name should end with the marker if it does not, and then that it should
not start with the marker if it does. So nothing is reported of an item exactly if it has no name,
or a name that ends with the marker and does not start with it. -/
theorem analyse_parameters :
    (Convention.parameters.Reports
      ["FunctionDefinition", "ModifierDefinition", "CustomErrorDefinition", "EventDefinition"]
      fun overrides n => (n.listed "parameters").flatMap
        (Node.diagnosticsOf overrides "func-param-name-trailing-underscore" parameterMessages)) ∧
    (Convention.returnParameters.Reports ["FunctionDefinition"]
      fun overrides n => (n.listed "returnParameters").flatMap
        (Node.diagnosticsOf overrides "func-return-param-name-trailing-underscore"
          parameterMessages)) ∧
    ∀ (overrides : List (Text × Text)) (ruleId : Text) (p : Node),
      p.diagnosticsOf overrides ruleId parameterMessages = [] ↔
        ∀ name ∈ p.name?, [.char '_'] <:+ name.letters ∧ ¬ [.char '_'] <+: name.letters := by
  refine ⟨?_, ?_, ?_⟩
  · apply Convention.reports_of_remarks (Remark.ofParameters "parameters") (fun _ _ => rfl)
    intro overrides n
    exact Remark.map_ofParameters overrides _ "parameters" n
  · apply Convention.reports_of_remarks (Remark.ofParameters "returnParameters")
    · intro s n
      simp [Convention.remarks?]
    · intro overrides n
      exact Remark.map_ofParameters overrides _ "returnParameters" n
  · intro overrides ruleId p
    unfold Node.diagnosticsOf
    cases p.name? with
    | none => simp
    | some name => simp [parameterMessages_eq_nil_iff]

/-- The rule for local variables alone, on a mapping. It never fails. For each loop and each
function, in the order of entering, for each statement of its own body that declares variables and
for each variable of the statement, it reports that the name should start with the marker if it does
not, and then that it should not end with the marker if it does. Declarations that stand elsewhere
are not reported. -/
theorem analyse_localVariables (reporter : Reporter) (settings : List (Text × Value))
    (overrides : List (Text × Text)) (entries : List (Text × Value)) :
    ∃ rules,
      Rule.create (some reporter) (some [Convention.localVariables.id]) settings = .ok rules ∧
      let root : Node := ⟨[], .map entries⟩
      let run := analyse rules overrides (.map entries)
      let bodies := (Place.top root).preorder.filter fun p =>
        ([("ForStatement" : Text), "WhileStatement", "DoWhileStatement",
          "FunctionDefinition"]).any p.node.isKind
      run.1 = .ok (Node.entries root.script) ∧
        run.2.reporter.diagnostics.toList = bodies.flatMap (fun p =>
          p.node.bodyVariables.flatMap
            (Node.diagnosticsOf overrides "scoped-vars-leading-underscore" localMessages)) ∧
        ∀ d ∈ run.2.reporter.diagnostics.toList, ∃ p ∈ bodies, ∃ i k,
          d.node.address = p.node.address ++
            [.key "body", .key "statements", .index i, .key "variables", .index k] := by
  have hreports : Convention.localVariables.Reports
      ["ForStatement", "WhileStatement", "DoWhileStatement", "FunctionDefinition"] _ :=
    Convention.reports_of_remarks Remark.ofBody (fun _ _ => rfl) fun overrides n =>
      Remark.map_ofBody overrides _ n
  obtain ⟨rules, hcreate, hok, hdiagnostics⟩ := hreports reporter settings overrides entries
  refine ⟨rules, hcreate, hok, hdiagnostics, ?_⟩
  intro d hd
  rw [hdiagnostics] at hd
  obtain ⟨p, hp, hd⟩ := List.mem_flatMap.1 hd
  obtain ⟨v, hv, hd⟩ := List.mem_flatMap.1 hd
  obtain ⟨message, -, rfl⟩ := List.mem_map.1 hd
  exact ⟨p, hp, Node.address_of_mem_bodyVariables hv⟩

end UnderscoreLint
