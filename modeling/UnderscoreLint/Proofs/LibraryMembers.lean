import UnderscoreLint.Proofs.EnrolledRun

/-!
# What the library convention means

The library convention keeps two scopes while a tree is walked. What comes of it can be said
without them: `Place.isMember` picks the nodes that are checked, by the nodes above them, and
`Node.isMisnamed` says which of these are reported. The diagnostics of a run with this convention
alone are one for each misnamed member in the order of entering. A member whose visibility is a
list or a mapping cannot be checked; the first such member ends the run.
-/

namespace UnderscoreLint

namespace Node

/-- Whether the visibility of a node can be looked up: it is absent or a scalar. -/
def hasScalarVisibility (n : Node) : Bool :=
  match n.value.attr? "visibility" with
  | none | some (.scalar _) => true
  | some _ => false

def isHidden (n : Node) : Bool :=
  (n.textAttr? "visibility").any (["private", "internal", "default"] : List Text).contains

/-- Whether a node is named and its name starts with the marker exactly if it is not hidden. -/
def isMisnamed (n : Node) : Bool :=
  n.name?.any fun name => Marker.leads name == !n.isHidden

/-- The diagnostic for a misnamed member, recorded at the severity that is set for the rule. -/
def memberDiagnostic (overrides : List (Text × Text)) (n : Node) : Diagnostic where
  severity := (overrides.lookup ("private-vars-leading-underscore-lib" : Text)).getD "error"
  ruleId := "private-vars-leading-underscore-lib"
  message := "'" ++ n.name?.getD "" ++
    (if n.isHidden then "' should start with _" else "' should not start with _")
  location := n.location
  node := n

theorem isHidden?_visibility (n : Node) :
    Remark.isHidden? (n.value.attr? "visibility") =
      if n.hasScalarVisibility then some n.isHidden else none := by
  unfold hasScalarVisibility isHidden textAttr?
  rcases n.value.attr? "visibility" with _ | (_ | _ | _ | _) | _ | _ | _ <;> rfl

end Node

/-- Whether the node of a place is a named member of a library: a function, or a variable that is
not declared by a statement, with a library somewhere above. -/
def Place.isMember (p : Place) : Bool :=
  (p.node.isKind "FunctionDefinition" ||
      p.node.isKind "VariableDeclaration" && !p.above.any Node.isDeclaration) &&
    p.above.any Node.isLibrary && p.node.name?.isSome

/-- What the library convention says of a named node that it checks. -/
theorem Node.map_ofMember? (overrides : List (Text × Text)) {n : Node} {name : Text}
    (hname : n.name? = some name) :
    ((Remark.ofMember? n).map fun remarks =>
        remarks.map (Remark.diagnostic overrides Convention.libraryMembers.id)) =
      if n.hasScalarVisibility then
        some (if n.isMisnamed then [n.memberDiagnostic overrides] else [])
      else none := by
  rw [Remark.ofMember?, hname, isHidden?_visibility, isMisnamed, memberDiagnostic, hname]
  cases n.hasScalarVisibility with
  | false => rfl
  | true => cases hleads : Marker.leads name <;> cases n.isHidden <;> simp [hleads] <;> rfl

namespace Place

theorem answersOf_libraryMembers (overrides : List (Text × Text)) (p : Place) :
    p.answersOf overrides [.libraryMembers] =
      [if p.isMember then
        if p.node.hasScalarVisibility then
          some (if p.node.isMisnamed then [p.node.memberDiagnostic overrides] else [])
        else none
      else some []] := by
  rw [answersOf, List.map_singleton, remarks?, Convention.remarks?, isMember]
  cases hname : p.node.name? with
  | none =>
      have hsilent : Remark.ofMember? p.node = some [] := by
        rw [Remark.ofMember?, hname]
      rw [hsilent]
      simp
  | some name =>
      rw [Option.isSome_some, Bool.and_true, Bool.and_comm]
      split
      · rw [Node.map_ofMember? overrides hname]
      · rfl

/-- Asked about places one after the other, the library convention reports the misnamed members
before the first one that it cannot check. -/
theorem reported_libraryMembers (overrides : List (Text × Text)) (ps : List Place) :
    reported (ps.flatMap (answersOf overrides [.libraryMembers])) =
      (((ps.filter isMember).takeWhile fun p => p.node.hasScalarVisibility).filter
        fun p => p.node.isMisnamed).map fun p => p.node.memberDiagnostic overrides := by
  induction ps with
  | nil => rfl
  | cons p ps ih =>
      rw [List.flatMap_cons, answersOf_libraryMembers, List.singleton_append]
      cases hmember : p.isMember with
      | false =>
          rw [List.filter_cons_of_neg (by simp [hmember]), ← ih]
          rfl
      | true =>
          rw [List.filter_cons_of_pos hmember]
          cases hscalar : p.node.hasScalarVisibility with
          | false =>
              rw [List.takeWhile_cons_of_neg (a := p) (by simp [hscalar])]
              rfl
          | true =>
              rw [List.takeWhile_cons_of_pos (a := p) hscalar]
              cases hmisnamed : p.node.isMisnamed with
              | false =>
                  rw [List.filter_cons_of_neg (a := p) (by simp [hmisnamed]), ← ih]
                  rfl
              | true =>
                  rw [List.filter_cons_of_pos (a := p) hmisnamed, List.map_cons, ← ih]
                  rfl

/-- It has an answer everywhere exactly if it can check every member. -/
theorem verdict_libraryMembers (overrides : List (Text × Text)) (ps : List Place) :
    verdict (ps.flatMap (answersOf overrides [.libraryMembers])) =
      if (ps.filter isMember).all fun p => p.node.hasScalarVisibility then .ok ()
      else .error .visibility := by
  have hanswer : ∀ p : Place, (p.answersOf overrides [.libraryMembers]).all Option.isSome =
      (!p.isMember || p.node.hasScalarVisibility) := by
    intro p
    rw [answersOf_libraryMembers]
    cases p.isMember <;> cases p.node.hasScalarVisibility <;> rfl
  rw [verdict, List.all_flatMap, List.all_filter]
  simp only [hanswer]

end Place

/-- The rule of the library convention alone, on a mapping. It reports one diagnostic for each
misnamed member in the order of entering. It fails exactly if the visibility of some member is
neither absent nor a scalar; then it reports the misnamed members before the first such member. -/
theorem analyse_libraryMembers (reporter : Reporter) (settings : List (Text × Value))
    (overrides : List (Text × Text)) (entries : List (Text × Value)) :
    ∃ rules,
      Rule.create (some reporter) (some [Convention.libraryMembers.id]) settings = .ok rules ∧
      let root : Node := ⟨[], .map entries⟩
      let run := analyse rules overrides (.map entries)
      let members := (Place.top root).preorder.filter Place.isMember
      run.2.reporter.diagnostics.toList =
          ((members.takeWhile fun p => p.node.hasScalarVisibility).filter
            fun p => p.node.isMisnamed).map (fun p => p.node.memberDiagnostic overrides) ∧
        (run.1 = .error .visibility ↔ ∃ p ∈ members, p.node.hasScalarVisibility = false) ∧
        (run.1 = .ok (Node.entries root.script) ∨ run.1 = .error .visibility) := by
  refine ⟨_, (Rule.create_eq_ok_iff ..).2 ⟨by decide, rfl⟩, ?_⟩
  intro root run members
  obtain ⟨houtcome, hdiagnostics⟩ : run.1 = _ ∧ run.2.reporter.diagnostics.toList = _ :=
    analyse_map_rule [.libraryMembers] _ overrides entries
  rw [Place.verdict_libraryMembers] at houtcome
  rw [Place.reported_libraryMembers] at hdiagnostics
  refine ⟨hdiagnostics, ?_⟩
  cases hall : members.all fun p => p.node.hasScalarVisibility with
  | true =>
      have hok : run.1 = .ok (Node.entries root.script) := by
        rw [houtcome, hall]
        rfl
      refine ⟨?_, .inl hok⟩
      simpa [hok] using List.all_eq_true.1 hall
  | false =>
      have herror : run.1 = .error .visibility := by
        rw [houtcome, hall]
        rfl
      refine ⟨?_, .inr herror⟩
      simpa [herror] using List.all_eq_false.1 hall

end UnderscoreLint
