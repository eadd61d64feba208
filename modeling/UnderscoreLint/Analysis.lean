import UnderscoreLint.Rule.Basic
import UnderscoreLint.Rule.Remark
import UnderscoreLint.Scope
import UnderscoreLint.Walk

/-!
# Analyses

An analysis runs the handlers of rules over trees. Its state is the reporter and, for
each registration of rules, the two scopes of the library convention: the contracts one
is in, and the local declarations one is in. Registrations are numbered, and a handler
carries the number of its own, so rules that were registered twice do not meddle with
each other's scopes.
-/

namespace UnderscoreLint

/-- The scopes that the library convention keeps. -/
structure LibraryScopes where
  library : Scope
  localDeclaration : Scope
  deriving DecidableEq, Repr

/-- The scopes before anything was entered. -/
def LibraryScopes.fresh : LibraryScopes :=
  { library := { label := Convention.libraryMembers.id ++ " library scope" }
    localDeclaration := { label := Convention.libraryMembers.id ++ " local declaration scope" } }

/-- A handler: the rule it reports for, the registration it belongs to, and what it does. -/
structure Handler where
  ruleId : Text
  serial : Nat
  check : Check
  deriving DecidableEq, Repr

/-- The handlers of a rule under a registration number, by event. -/
def Rule.handlers (r : Rule) (serial : Nat) : List (Event × Handler) :=
  r.subscriptions.map fun s => (s.1, ⟨r.id, serial, s.2⟩)

/-- Registers the handlers of rules, rule by rule. -/
def Table.register (t : Table Handler) (serial : Nat) (rules : List Rule) : Table Handler :=
  t.onAll (rules.flatMap fun r => r.handlers serial)

/-- The events a rule listens to, sorted. -/
def Rule.events (r : Rule) : List Event :=
  (Table.empty.register 0 [r]).events

/-- Why an analysis of a tree fails. -/
inductive WalkError where
  /-- A node is left that is not the innermost open one. -/
  | scope (e : ScopeError)
  /-- A visibility is no scalar and cannot be looked up. -/
  | visibility
  /-- The tree to walk is no mapping. -/
  | notAMapping
  deriving DecidableEq, Repr

/-- The state of an analysis. -/
structure Analysis where
  reporter : Reporter := {}
  scopes : List (Nat × LibraryScopes) := []

namespace Analysis

/-- The scopes of a registration; they are fresh until something was entered. -/
def scopesOf (a : Analysis) (serial : Nat) : LibraryScopes :=
  (a.scopes.lookup serial).getD .fresh

/-- Replaces the scopes under a number in a list of numbered scopes. -/
def putScopes (serial : Nat) (s : LibraryScopes) :
    List (Nat × LibraryScopes) → List (Nat × LibraryScopes)
  | [] => [(serial, s)]
  | e :: rest => if e.1 = serial then (serial, s) :: rest else e :: putScopes serial s rest

/-- Replaces the scopes of a registration. -/
def setScopes (a : Analysis) (serial : Nat) (s : LibraryScopes) : Analysis :=
  { a with scopes := putScopes serial s a.scopes }

/-- Reports remarks as errors of a rule, in order. -/
def report (ruleId : Text) (a : Analysis) (remarks : List Remark) : Analysis :=
  { a with
    reporter :=
      remarks.foldl (fun r m => r.report Severity.error m.node ruleId m.message) a.reporter }

theorem lookup_putScopes (serial other : Nat) (s : LibraryScopes)
    (l : List (Nat × LibraryScopes)) :
    (putScopes serial s l).lookup other = if other = serial then some s else l.lookup other := by
  induction l with
  | nil =>
    by_cases h : other = serial
    · simp [putScopes, h]
    · simp [putScopes, List.lookup_cons, h, beq_eq_false_iff_ne.2 h]
  | cons e rest ih =>
    obtain ⟨k, x⟩ := e
    by_cases hk : k = serial
    · by_cases h : other = serial
      · simp [putScopes, hk, h]
      · simp [putScopes, List.lookup_cons, hk, h, beq_eq_false_iff_ne.2 h]
    · by_cases h : other = k
      · simp [putScopes, hk, h]
      · simp only [putScopes, if_neg hk, List.lookup_cons, beq_eq_false_iff_ne.2 h, ih]

/-- Setting the scopes of a registration sets those and no others. -/
@[simp] theorem scopesOf_setScopes (a : Analysis) (serial other : Nat) (s : LibraryScopes) :
    (a.setScopes serial s).scopesOf other = if other = serial then s else a.scopesOf other := by
  simp only [scopesOf, setScopes, lookup_putScopes]
  split <;> rfl

end Analysis

namespace Handler

open Analysis

/-- The kind of contract whose members the library convention is about. -/
def isLibrary (n : Node) : Bool :=
  n.textAttr? "kind" == some ("library" : Text)

/-- Checks a member, provided that one is in a library. -/
def checkMember (h : Handler) (n : Node) : Action Analysis WalkError Unit := do
  let a ← get
  if (a.scopesOf h.serial).library.inside then
    match Remark.ofMember? n with
    | some remarks => modify fun a => a.report h.ruleId remarks
    | none => throw .visibility

/-- Replaces one of the scopes by what an exit gives, or fails as the exit does. -/
def close (h : Handler) (result : Except ScopeError Scope)
    (put : LibraryScopes → Scope → LibraryScopes) : Action Analysis WalkError Unit :=
  match result with
  | .ok s => modify fun a => a.setScopes h.serial (put (a.scopesOf h.serial) s)
  | .error e => throw (.scope e)

/-- What a handler does at a node. -/
def call (h : Handler) (n : Node) : Action Analysis WalkError Unit :=
  match h.check with
  | .enterContract =>
    modify fun a =>
      let s := a.scopesOf h.serial
      a.setScopes h.serial { s with library := s.library.enter n (isLibrary n) }
  | .leaveContract => do
    let a ← get
    h.close ((a.scopesOf h.serial).library.exit n) fun s library => { s with library }
  | .enterDeclaration =>
    modify fun a =>
      let s := a.scopesOf h.serial
      a.setScopes h.serial { s with localDeclaration := s.localDeclaration.enter n true }
  | .leaveDeclaration => do
    let a ← get
    h.close ((a.scopesOf h.serial).localDeclaration.exit n) fun s localDeclaration =>
      { s with localDeclaration }
  | .member => h.checkMember n
  | .variableMember => do
    let a ← get
    if (a.scopesOf h.serial).localDeclaration.inside then pure () else h.checkMember n
  | .parameters listed => modify fun a => a.report h.ruleId (Remark.ofParameters listed n)
  | .body => modify fun a => a.report h.ruleId (Remark.ofBody n)

end Handler

/-- Walks a tree that may turn out to be no mapping. Such a root is entered, if it has a
kind, and then refused. -/
def Table.walkTree {η σ : Type} (t : Table η) (call : η → Node → Action σ WalkError Unit)
    (root : Node) : Action σ WalkError Nat :=
  if root.value.isMap then t.walk call root
  else do
    t.dispatch call .enter root
    throw .notAMapping

end UnderscoreLint
