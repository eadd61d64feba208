import Mathlib.Data.List.TakeWhile
import UnderscoreLint.Proofs.Enrolment
import UnderscoreLint.Proofs.Place

/-!
# What the conventions say, by the surroundings of a node

`Convention.remarks? c s n` is what the convention `c` has to say on entering the node `n` in the
surroundings `s`. It speaks of no scopes and of no handlers: the surroundings are two facts about
the nodes above `n`, and `Surroundings.within` reads them off these nodes. Only the library
convention looks at its surroundings, and only it may have no answer.

The answers that are asked for in a run are a list. The run reports what stands before the first
question without an answer (`reported`), and it fails if there is such a question (`verdict`).
-/

namespace UnderscoreLint

namespace Node

def isKind (n : Node) (kind : Text) : Bool :=
  n.kind? == some kind

def isLibrary (n : Node) : Bool :=
  n.isKind "ContractDefinition" && n.textAttr? "kind" == some ("library" : Text)

def isDeclaration (n : Node) : Bool :=
  n.isKind "VariableDeclarationStatement"

end Node

/-- Whether one is in a library, and whether one is in a declaration of local variables. -/
structure Surroundings where
  inLibrary : Bool
  inDeclaration : Bool
  deriving DecidableEq

/-- The surroundings of what is below nodes that have themselves the surroundings `s`. -/
def Surroundings.within (s : Surroundings) (above : List Node) : Surroundings :=
  ⟨above.any Node.isLibrary || s.inLibrary, above.any Node.isDeclaration || s.inDeclaration⟩

theorem Surroundings.within_cons (s : Surroundings) (n : Node) (above : List Node) :
    s.within (n :: above) =
      ⟨n.isLibrary || (s.within above).inLibrary,
        n.isDeclaration || (s.within above).inDeclaration⟩ := by
  simp [within, Bool.or_assoc]

/-- What the scopes of the library convention say about the surroundings. -/
def LibraryScopes.surroundings (s : LibraryScopes) : Surroundings :=
  ⟨s.library.inside, s.localDeclaration.inside⟩

/-- What a convention has to say on entering a node in some surroundings, if it has an answer. -/
def Convention.remarks? (c : Convention) (s : Surroundings) (n : Node) : Option (List Remark) :=
  match c with
  | libraryMembers =>
    if s.inLibrary && (n.isKind "FunctionDefinition" ||
        n.isKind "VariableDeclaration" && !s.inDeclaration) then Remark.ofMember? n
    else some []
  | parameters =>
    some (if parameterKinds.any n.isKind then Remark.ofParameters "parameters" n else [])
  | returnParameters =>
    some (if n.isKind "FunctionDefinition" then Remark.ofParameters "returnParameters" n else [])
  | localVariables =>
    some (if (loopKinds ++ [("FunctionDefinition" : Text)]).any n.isKind then Remark.ofBody n
      else [])

theorem Convention.remarks?_of_ne {c : Convention} (h : c ≠ .libraryMembers)
    (s s' : Surroundings) (n : Node) : c.remarks? s n = c.remarks? s' n := by
  cases c with
  | libraryMembers => exact absurd rfl h
  | _ => rfl

theorem Convention.remarks?_of_track (c : Convention) (s : Surroundings) {n : Node} {track : Track}
    (h : Track.of? n = some track) : c.remarks? s n = some [] := by
  have hkind := Track.kind?_of_eq_some h
  cases c <;> cases track <;>
    simp [remarks?, Node.isKind, hkind, Track.kind, parameterKinds, loopKinds]

theorem Convention.remarks?_of_kind_none (c : Convention) (s : Surroundings) {n : Node}
    (h : n.kind? = none) : c.remarks? s n = some [] := by
  cases c <;> simp [remarks?, Node.isKind, h]

/-- What a rule answers when it is asked about a node: its findings, or nothing. -/
abbrev Answer := Option (List Diagnostic)

/-- The diagnostic that a remark of a rule is recorded as. -/
def Remark.diagnostic (overrides : List (Text × Text)) (ruleId : Text) (m : Remark) :
    Diagnostic :=
  ({ overrides } : Reporter).diagnostic Severity.error m.node ruleId m.message

/-- The answer of an enrolment on entering a node. -/
def Enrolment.answer (overrides : List (Text × Text)) (s : Surroundings) (n : Node)
    (e : Enrolment) : Answer :=
  (e.convention.remarks? s n).map fun remarks =>
    remarks.map (Remark.diagnostic overrides e.convention.id)

/-- The answers of enrolments on entering the node of a place, in order. `base` gives for each
registration the surroundings outside of all nodes. -/
def Place.answers (overrides : List (Text × Text)) (base : Nat → Surroundings)
    (es : List Enrolment) (p : Place) : List Answer :=
  es.map fun e => e.answer overrides ((base e.serial).within p.above) p.node

theorem Place.answers_of_silent (overrides : List (Text × Text)) (base : Nat → Surroundings)
    (es : List Enrolment) {p : Place}
    (h : ∀ (c : Convention) (s : Surroundings), c.remarks? s p.node = some []) :
    p.answers overrides base es = es.map fun _ => some [] := by
  refine List.map_congr_left fun e _ => ?_
  rw [Enrolment.answer, h]
  rfl

/-- What a convention has to say on entering the node of a place, by the nodes above alone. -/
def Place.remarks? (p : Place) (c : Convention) : Option (List Remark) :=
  c.remarks? ⟨p.above.any Node.isLibrary, p.above.any Node.isDeclaration⟩ p.node

/-- The answers of conventions at a place, by the nodes above alone. -/
def Place.answersOf (overrides : List (Text × Text)) (cs : List Convention) (p : Place) :
    List Answer :=
  cs.map fun c => (p.remarks? c).map fun remarks => remarks.map (Remark.diagnostic overrides c.id)

/-- From outside of all scopes, what is above a place decides. -/
theorem Place.answers_fresh (overrides : List (Text × Text)) (serial : Nat)
    (cs : List Convention) (p : Place) :
    p.answers overrides (fun _ => LibraryScopes.surroundings .fresh)
        (cs.map fun c => ⟨serial, c⟩) = p.answersOf overrides cs := by
  have houtside : (LibraryScopes.surroundings .fresh).within p.above =
      ⟨p.above.any Node.isLibrary, p.above.any Node.isDeclaration⟩ := by
    simp [Surroundings.within, LibraryScopes.surroundings, LibraryScopes.fresh, Scope.inside]
  rw [answers, List.map_map, houtside]
  rfl

/-- The findings before the first question without an answer. -/
def reported (answers : List Answer) : List Diagnostic :=
  (answers.takeWhile Option.isSome).flatMap fun a => a.getD []

/-- A run fails if there is a question without an answer. -/
def verdict (answers : List Answer) : Except WalkError Unit :=
  if answers.all Option.isSome then .ok () else .error .visibility

theorem verdict_eq_ok_iff {answers : List Answer} :
    verdict answers = .ok () ↔ ∀ a ∈ answers, a.isSome := by
  rw [← List.all_eq_true, verdict]
  split <;> simp_all

theorem verdict_eq_error {answers : List Answer} {e : WalkError} (h : verdict answers = .error e) :
    e = .visibility := by
  unfold verdict at h
  split at h <;> cases h
  rfl

theorem verdict_append_of_ok {answers others : List Answer} (h : verdict answers = .ok ()) :
    verdict (answers ++ others) = verdict others := by
  have hall : answers.all Option.isSome = true := List.all_eq_true.2 (verdict_eq_ok_iff.1 h)
  rw [verdict, List.all_append, hall, Bool.true_and, verdict]

theorem verdict_append_of_error {answers : List Answer} {e : WalkError} (others : List Answer)
    (h : verdict answers = .error e) : verdict (answers ++ others) = .error e := by
  unfold verdict at h ⊢
  rw [List.all_append]
  cases hall : answers.all Option.isSome with
  | true =>
      rw [hall] at h
      cases h
  | false =>
      rw [hall] at h
      exact h

theorem reported_append_of_ok {answers others : List Answer} (h : verdict answers = .ok ()) :
    reported (answers ++ others) = reported answers ++ reported others := by
  have hall := verdict_eq_ok_iff.1 h
  rw [reported, List.takeWhile_append_of_pos hall, List.flatMap_append, reported, reported,
    List.takeWhile_eq_self_iff.2 hall]

theorem reported_append_of_error {answers : List Answer} {e : WalkError} (others : List Answer)
    (h : verdict answers = .error e) : reported (answers ++ others) = reported answers := by
  unfold reported
  rw [List.takeWhile_append, if_neg]
  intro hlength
  have hself : answers.takeWhile Option.isSome = answers :=
    (List.takeWhile_prefix Option.isSome).eq_of_length hlength
  rw [verdict_eq_ok_iff.2 (List.takeWhile_eq_self_iff.1 hself)] at h
  cases h

theorem reported_of_ok {answers : List Answer} (h : verdict answers = .ok ()) :
    reported answers = answers.flatMap fun a => a.getD [] := by
  rw [reported, List.takeWhile_eq_self_iff.2 (verdict_eq_ok_iff.1 h)]

end UnderscoreLint
