import UnderscoreLint.Proofs.Resemblance

/-!
# Mappings and records

A record can be asked for its attributes like a mapping, and the rules ask for nothing else.
`Value.Recast v w` says that `w` is `v` with records in the place of mappings, at any depth: what
takes the place of a mapping has the same attributes, up to such replacements again.

Two runs are compared call by call. `Action.Matches S x y` says that `x` and `y` end alike when they
start in states that `S` relates, and leave such states again, also where they fail. Handlers do so
at nodes of which one is recast (`Handler.matches_call`), for states with the same scopes that tell
the same (`Analysis.Alike`). Hence a sequence of events has the same trace
(`Table.trace_eq_of_recast`). This holds of dispatched events only: a walk goes into mappings and
never into records.
-/

namespace UnderscoreLint

namespace Value

/-- The second value is the first with records in the place of mappings, at any depth. The
attributes of a record have no order. -/
inductive Recast : Value → Value → Prop where
  | scalar (s : Scalar) : Recast (.scalar s) (.scalar s)
  | list {items items' : List Value} (h : List.Forall₂ Recast items items') :
      Recast (.list items) (.list items')
  | map {entries entries' : List (Text × Value)}
      (h : ∀ name, Option.Rel Recast (lookup name entries) (lookup name entries')) :
      Recast (.map entries) (.map entries')
  | record {entries entries' : List (Text × Value)}
      (h : ∀ name, Option.Rel Recast (lookup name entries) (lookup name entries')) :
      Recast (.record entries) (.record entries')
  /-- A mapping becomes a record. -/
  | replace {entries entries' : List (Text × Value)}
      (h : ∀ name, Option.Rel Recast (lookup name entries) (lookup name entries')) :
      Recast (.map entries) (.record entries')

namespace Recast

variable {v w : Value}

theorem scalar? (h : v.Recast w) : v.scalar? = w.scalar? := by
  cases h <;> rfl

theorem attr? (h : v.Recast w) (name : Text) :
    Option.Rel Recast (v.attr? name) (w.attr? name) := by
  cases h with
  | scalar _ | list _ => exact .none
  | map h | record h | replace h => exact h name

end Recast

end Value

namespace Node

/-- The second node is the first one recast. It is the same node, so it keeps its address. -/
structure Recast (n m : Node) : Prop where
  address : n.address = m.address
  value : n.value.Recast m.value

theorem forall₂_number_of_recast (address : Address) {vs ws : List Value}
    (h : List.Forall₂ Value.Recast vs ws) (i : Nat) :
    List.Forall₂ Recast (number address i vs) (number address i ws) := by
  induction h generalizing i with
  | nil => exact .nil
  | cons hvw _ ih => exact .cons ⟨rfl, hvw⟩ (ih (i + 1))

namespace Recast

variable {n m : Node}

theorem hasAttributes (h : n.Recast m) : n.hasAttributes = m.hasAttributes := by
  obtain ⟨address, v⟩ := n
  obtain ⟨address', w⟩ := m
  obtain ⟨-, hvalue⟩ := h
  dsimp only at hvalue
  cases hvalue <;> rfl

theorem attr? (h : n.Recast m) (name : Text) :
    Option.Rel Recast (n.attr? name) (m.attr? name) := by
  have hvalue := h.value.attr? name
  unfold Node.attr?
  rw [h.address]
  generalize n.value.attr? name = a, m.value.attr? name = b at hvalue
  cases hvalue with
  | none => exact .none
  | some h => exact .some ⟨rfl, h⟩

theorem items (h : n.Recast m) : List.Forall₂ Recast n.items m.items := by
  obtain ⟨address, v⟩ := n
  obtain ⟨address', w⟩ := m
  obtain ⟨rfl, hvalue⟩ := h
  dsimp only at hvalue
  cases hvalue with
  | list h => exact forall₂_number_of_recast address h 0
  | scalar _ | map _ | record _ | replace _ => exact .nil

theorem location (h : n.Recast m) : n.location = m.location :=
  location_congr (fun h => h.scalar?) (fun h => h.attr?) h.value

end Recast

theorem resemblance_recast : Resemblance Recast where
  scalar h := h.value.scalar?
  attr h name _ := h.attr? name
  items h := forall₂_filter (fun _ _ h => h.hasAttributes) h.items

end Node

/-- What a finding tells, and the kind of the node it is about. -/
def Diagnostic.told (d : Diagnostic) :
    (Text × Text × Text × Option Coordinate × Option Coordinate) × Option Text :=
  (d.content, d.node.kind?)

theorem Remark.told_diagnostic {r r' : Remark} (h : Resembles Node.Recast r r')
    (overrides : List (Text × Text)) (ruleId : Text) :
    (r.diagnostic overrides ruleId).told = (r'.diagnostic overrides ruleId).told := by
  have hcontent : Diagnostic.Resembles Node.Recast (r.diagnostic overrides ruleId)
      (r'.diagnostic overrides ruleId) := ⟨overrides, ruleId, r, r', h, rfl, rfl⟩
  exact Prod.ext (hcontent.content_eq_of_location Node.Recast.location)
    (Node.resemblance_recast.kind? h.2)

/-- Analyses with the same scopes that go on alike and tell the same. -/
structure Analysis.Alike (a b : Analysis) : Prop where
  scopes : a.scopes = b.scopes
  overrides : a.reporter.overrides = b.reporter.overrides
  told : a.reporter.diagnostics.toList.map Diagnostic.told =
    b.reporter.diagnostics.toList.map Diagnostic.told

namespace Analysis.Alike

variable {a b : Analysis}

theorem scopesOf (h : a.Alike b) (serial : Nat) : a.scopesOf serial = b.scopesOf serial := by
  rw [Analysis.scopesOf, h.scopes, Analysis.scopesOf]

theorem setScopes (h : a.Alike b) (serial : Nat) (s : LibraryScopes) :
    (a.setScopes serial s).Alike (b.setScopes serial s) :=
  ⟨congrArg (putScopes serial s) h.scopes, h.overrides, h.told⟩

theorem report (h : a.Alike b) (ruleId : Text) {remarks remarks' : List Remark}
    (hremarks : List.Forall₂ (Remark.Resembles Node.Recast) remarks remarks') :
    (a.report ruleId remarks).Alike (b.report ruleId remarks') := by
  obtain ⟨hoverrides, hdiagnostics⟩ := a.reporter_report ruleId remarks
  obtain ⟨hoverrides', hdiagnostics'⟩ := b.reporter_report ruleId remarks'
  refine ⟨h.scopes, ?_, ?_⟩
  · rw [hoverrides, hoverrides', h.overrides]
  · rw [hdiagnostics, hdiagnostics', List.map_append, List.map_append, h.told, h.overrides,
      List.map_map, List.map_map]
    refine congrArg _ (forall₂_map_eq_iff.1 ?_)
    exact hremarks.imp fun _ _ hr => Remark.told_diagnostic hr _ _

end Analysis.Alike

namespace Action

variable {σ ε : Type} {S : σ → σ → Prop}

/-- From related states the two actions end alike, and they leave related states. -/
def Matches (S : σ → σ → Prop) (x y : Action σ ε Unit) : Prop :=
  ∀ s s', S s s' → (x.runFrom s).1 = (y.runFrom s').1 ∧ S (x.runFrom s).2 (y.runFrom s').2

theorem matches_pure : Matches S (pure () : Action σ ε Unit) (pure ()) := by
  intro s s' h
  exact ⟨rfl, h⟩

theorem matches_throw (e : ε) : Matches S (throw e : Action σ ε Unit) (throw e) := by
  intro s s' h
  exact ⟨rfl, h⟩

theorem matches_modify {f g : σ → σ} (h : ∀ s s', S s s' → S (f s) (g s')) :
    Matches S (modify f : Action σ ε Unit) (modify g) := by
  intro s s' hs
  exact ⟨rfl, h s s' hs⟩

theorem matches_get {f g : σ → Action σ ε Unit} (h : ∀ s s', S s s' → Matches S (f s) (g s')) :
    Matches S (get >>= f) (get >>= g) := by
  intro s s' hs
  exact h s s' hs s s' hs

theorem Matches.bind {x x' y y' : Action σ ε Unit} (hx : Matches S x x') (hy : Matches S y y') :
    Matches S (do x; y) (do x'; y') := by
  intro s s' hs
  obtain ⟨houtcome, hmid⟩ := hx s s' hs
  rcases hrun : x.runFrom s with ⟨outcome, mid⟩
  rcases hrun' : x'.runFrom s' with ⟨outcome', mid'⟩
  rw [hrun, hrun'] at houtcome hmid
  cases houtcome
  cases outcome with
  | error e =>
      rw [runFrom_bind_of_error _ hrun, runFrom_bind_of_error _ hrun']
      exact ⟨rfl, hmid⟩
  | ok =>
      rw [runFrom_bind_of_ok _ hrun, runFrom_bind_of_ok _ hrun']
      exact hy mid mid' hmid

theorem matches_each {β : Type} {f g : β → Action σ ε Unit} (h : ∀ b, Matches S (f b) (g b))
    (bs : List β) : Matches S (each f bs) (each g bs) := by
  induction bs with
  | nil => exact matches_pure
  | cons b bs ih => exact (h b).bind ih

end Action

open UnderscoreLint.Action

theorem Scope.enter_congr {n m : Node} (h : n.Recast m) (s : Scope) (qualifies : Bool) :
    s.enter n qualifies = s.enter m qualifies := by
  unfold enter
  rw [h.address]

/-- An exit looks at the address and the kind of a node only. -/
theorem Scope.exit_congr {n m : Node} (h : n.Recast m) (s : Scope) : s.exit n = s.exit m := by
  unfold exit
  rw [h.address, Node.resemblance_recast.kind? h]

namespace Handler

variable {n m : Node}

theorem isLibrary_congr (h : n.Recast m) : isLibrary n = isLibrary m := by
  rw [isLibrary, Node.resemblance_recast.textAttr? h _ rfl, isLibrary]

theorem matches_report (h : Handler) {remarks remarks' : List Remark}
    (hremarks : List.Forall₂ (Remark.Resembles Node.Recast) remarks remarks') :
    Matches Analysis.Alike (modify fun a => a.report h.ruleId remarks : Action _ WalkError _)
      (modify fun a => a.report h.ruleId remarks') :=
  matches_modify fun _ _ ha => ha.report h.ruleId hremarks

theorem matches_close (h : Handler) (result : Except ScopeError Scope)
    (put : LibraryScopes → Scope → LibraryScopes) :
    Matches Analysis.Alike (h.close result put) (h.close result put) := by
  cases result with
  | error e => exact matches_throw _
  | ok s =>
      refine matches_modify fun a b ha => ?_
      rw [ha.scopesOf]
      exact ha.setScopes _ _

theorem matches_checkMember (h : Handler) (hn : n.Recast m) :
    Matches Analysis.Alike (h.checkMember n) (h.checkMember m) := by
  refine matches_get fun a b ha => ?_
  rw [ha.scopesOf]
  split
  · have hremarks := Node.resemblance_recast.ofMember? hn
    generalize Remark.ofMember? n = r, Remark.ofMember? m = r' at hremarks
    cases hremarks with
    | none => exact matches_throw _
    | some hremarks => exact h.matches_report hremarks
  · exact matches_pure

/-- A handler does the same at a node that is recast. -/
theorem matches_call (h : Handler) (hn : n.Recast m) :
    Matches Analysis.Alike (h.call n) (h.call m) := by
  unfold call
  cases h.check with
  | enterContract =>
      refine matches_modify fun a b ha => ?_
      dsimp only
      rw [ha.scopesOf, isLibrary_congr hn, Scope.enter_congr hn]
      exact ha.setScopes _ _
  | enterDeclaration =>
      refine matches_modify fun a b ha => ?_
      dsimp only
      rw [ha.scopesOf, Scope.enter_congr hn]
      exact ha.setScopes _ _
  | leaveContract | leaveDeclaration =>
      refine matches_get fun a b ha => ?_
      rw [ha.scopesOf, Scope.exit_congr hn]
      exact h.matches_close _ _
  | member => exact h.matches_checkMember hn
  | variableMember =>
      refine matches_get fun a b ha => ?_
      rw [ha.scopesOf]
      split
      · exact matches_pure
      · exact h.matches_checkMember hn
  | parameters listed =>
      exact h.matches_report (Node.resemblance_recast.ofParameters (hn.attr? listed))
  | body => exact h.matches_report (Node.resemblance_recast.ofBody hn)

end Handler

/-- What can be seen of an analysis: for each registration whether one is inside of its two scopes
and how many nodes are open there, and what the findings tell. -/
structure View where
  library : Nat → Bool × Nat
  localDeclaration : Nat → Bool × Nat
  findings : List
    ((Text × Text × Text × Option Coordinate × Option Coordinate) × Option Text)

def Analysis.view (a : Analysis) : View where
  library serial := ((a.scopesOf serial).library.inside, (a.scopesOf serial).library.depth)
  localDeclaration serial :=
    ((a.scopesOf serial).localDeclaration.inside, (a.scopesOf serial).localDeclaration.depth)
  findings := a.reporter.diagnostics.toList.map Diagnostic.told

theorem Analysis.Alike.view_eq {a b : Analysis} (h : a.Alike b) : a.view = b.view := by
  unfold view
  rw [h.told, funext h.scopesOf]

namespace Table

/-- What is seen while events are dispatched one after the other: how each one ends and what it
leaves. An event that fails does not keep the next one from being dispatched. -/
def trace (t : Table Handler) :
    List (Phase × Node) → Analysis → List (Except WalkError Unit × View)
  | [], _ => []
  | (phase, n) :: events, a =>
    let r := (t.dispatch Handler.call phase n).runFrom a
    (r.1, r.2.view) :: t.trace events r.2

theorem matches_dispatch (t : Table Handler) (phase : Phase) {n m : Node} (h : n.Recast m) :
    Matches Analysis.Alike (t.dispatch Handler.call phase n)
      (t.dispatch Handler.call phase m) := by
  unfold dispatch
  rw [Node.resemblance_recast.kind? h]
  split
  · exact matches_each (fun handler => handler.matches_call h) _
  · exact matches_pure

theorem trace_eq_of_alike (t : Table Handler) {events events' : List (Phase × Node)}
    (h : List.Forall₂ (fun e e' => e.1 = e'.1 ∧ e.2.Recast e'.2) events events')
    {a b : Analysis} (hab : a.Alike b) : t.trace events a = t.trace events' b := by
  -- The two analyses drift apart in the nodes of their findings, but they stay alike.
  induction h generalizing a b with
  | nil => rfl
  | @cons e e' _ _ he _ ih =>
      obtain ⟨phase, n⟩ := e
      obtain ⟨phase', m⟩ := e'
      obtain ⟨rfl, hn⟩ := he
      obtain ⟨houtcome, hnext⟩ := t.matches_dispatch phase hn a b hab
      exact congrArg₂ List.cons (Prod.ext houtcome hnext.view_eq) (ih hnext)

/-- Replacing mappings by records in the nodes of a sequence of events changes nothing of what is
seen: the same events fail for the same reasons, and each one leaves the same scopes and the same
findings. -/
theorem trace_eq_of_recast (t : Table Handler) {events events' : List (Phase × Node)}
    (h : List.Forall₂ (fun e e' => e.1 = e'.1 ∧ e.2.Recast e'.2) events events') (a : Analysis) :
    t.trace events a = t.trace events' a :=
  t.trace_eq_of_alike h ⟨rfl, rfl, rfl⟩

/-- A hidden function of a library with a parameter. Every other node is made by `form`. -/
def hiddenFunction (form : List (Text × Value) → Value) : Value :=
  form [("type", .text "FunctionDefinition"), ("name", .text "f"), ("visibility", .text "private"),
    ("parameters", .list [.map [("name", .text "x"),
      ("loc", form [("start", .map [("line", .scalar (.int 3))])])]])]

/-- The library is entered once and left twice. -/
def leftTwice (form : List (Text × Value) → Value) : List (Phase × Node) :=
  let library : Node :=
    ⟨[], form [("type", .text "ContractDefinition"), ("kind", .text "library")]⟩
  [(.enter, library), (.enter, ⟨[.key "subNodes", .index 0], hiddenFunction form⟩),
    (.exit, library), (.exit, library)]

theorem recast_leftTwice : List.Forall₂ (fun e e' => e.1 = e'.1 ∧ e.2.Recast e'.2)
    (leftTwice .map) (leftTwice .record) := by
  have hentry (name : Text) {v w : Value} (h : v.Recast w) :
      (fun e e' : Text × Value => e.1 = e'.1 ∧ e.2.Recast e'.2) (name, v) (name, w) := ⟨rfl, h⟩
  have htext (name s : Text) := hentry name (.scalar (.text s))
  have hlibrary := Value.Recast.replace (Value.rel_lookup
    (.cons (htext "type" "ContractDefinition") (.cons (htext "kind" "library") .nil)))
  have hstart := Value.Recast.map (Value.rel_lookup
    (.cons (hentry "line" (.scalar (.int 3))) .nil))
  have hloc := Value.Recast.replace (Value.rel_lookup (.cons (hentry "start" hstart) .nil))
  have hparameter := Value.Recast.map (Value.rel_lookup
    (.cons (htext "name" "x") (.cons (hentry "loc" hloc) .nil)))
  have hparameters := hentry "parameters" (.list (.cons hparameter .nil))
  have hfunction : (hiddenFunction .map).Recast (hiddenFunction .record) :=
    .replace (Value.rel_lookup
      (.cons (htext ..) (.cons (htext ..) (.cons (htext ..) (.cons hparameters .nil)))))
  exact .cons ⟨rfl, rfl, hlibrary⟩ (.cons ⟨rfl, rfl, hfunction⟩
    (.cons ⟨rfl, rfl, hlibrary⟩ (.cons ⟨rfl, rfl, hlibrary⟩ .nil)))

theorem trace_eq_of_recast_leftTwice :
    let t := empty.register 0 (Convention.all.map fun c => c.rule .null)
    t.trace (leftTwice .map) {} = t.trace (leftTwice .record) {} ∧
    (t.trace (leftTwice .record) {}).map
        (fun r => (r.1.toBool, r.2.library 0, r.2.findings.map fun f => f.1.2.2.1)) =
      [(true, (true, 1), ([] : List Text)),
        (true, (true, 1), ["'f' should start with _", "'x' should end with _"]),
        (true, (false, 0), ["'f' should start with _", "'x' should end with _"]),
        (false, (false, 0), ["'f' should start with _", "'x' should end with _"])] :=
  ⟨trace_eq_of_recast _ recast_leftTwice {}, by decide +kernel⟩

end Table

end UnderscoreLint
