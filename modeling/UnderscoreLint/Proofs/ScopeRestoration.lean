import UnderscoreLint.Proofs.EnrolledRun

/-!
# Walks give the scopes back

Whatever rules are registered on a table, and whatever the scopes of their registrations hold
when a walk starts, no exit of the walk fails, and a walk that is completed leaves every scope as
it was. Therefore walks on one table do not influence each other: a walk reports the same
whether other trees were walked before it or not.
-/

namespace UnderscoreLint

open UnderscoreLint.Action

namespace Table

variable {t : Table Handler} {es : List Enrolment}

/-- A walk that fails does so for want of an answer. -/
theorem Enrols.eq_visibility_of_error (ht : t.Enrols es) {root : Node} {a : Analysis}
    {e : WalkError} (h : ((t.walk Handler.call root).runFrom a).1 = .error e) :
    e = .visibility := by
  have houtcome := (ht.performs_script root a).outcome
  rw [runFrom_walk] at h
  cases hfire : ((t.fire Handler.call root.script).runFrom a).1 with
  | ok =>
      rw [hfire] at h
      cases h
  | error e' =>
      rw [hfire] at h houtcome
      cases h
      exact verdict_eq_error houtcome.symm

theorem Enrols.scopesOf_of_ok (ht : t.Enrols es) {root : Node} {a a' : Analysis} {count : Nat}
    (h : (t.walk Handler.call root).runFrom a = (.ok count, a')) :
    a'.reporter.overrides = a.reporter.overrides ∧
      ∀ serial, a'.scopesOf serial = a.scopesOf serial := by
  have hperforms := ht.performs_script root a
  rw [runFrom_walk] at h
  cases hfire : ((t.fire Handler.call root.script).runFrom a).1 with
  | ok =>
      have ha' : ((t.fire Handler.call root.script).runFrom a).2 = a' := congrArg Prod.snd h
      have hscopes := hperforms.scopes hfire
      have hoverrides := hperforms.overrides
      rw [ha'] at hscopes hoverrides
      exact ⟨hoverrides, hscopes⟩
  | error e =>
      rw [hfire] at h
      cases h

/-- From states with the same scopes and severities a walk has the same outcome and appends the
same diagnostics. -/
theorem Enrols.walk_congr (ht : t.Enrols es) (root : Node) {a b : Analysis}
    (hoverrides : a.reporter.overrides = b.reporter.overrides)
    (hscopes : ∀ serial, a.scopesOf serial = b.scopesOf serial) :
    ((t.walk Handler.call root).runFrom a).1 = ((t.walk Handler.call root).runFrom b).1 ∧
      ∃ found,
        ((t.walk Handler.call root).runFrom a).2.reporter.diagnostics.toList =
          a.reporter.diagnostics.toList ++ found ∧
        ((t.walk Handler.call root).runFrom b).2.reporter.diagnostics.toList =
          b.reporter.diagnostics.toList ++ found := by
  have ha := ht.performs_script root a
  have hb := ht.performs_script root b
  rw [hoverrides, funext hscopes] at ha
  rw [runFrom_walk, runFrom_walk, ha.outcome, hb.outcome]
  exact ⟨rfl, _, ha.diagnostics, hb.diagnostics⟩

theorem isMap_of_walkTree_ok {root : Node} {a a' : Analysis} {count : Nat}
    (h : (t.walkTree Handler.call root).runFrom a = (.ok count, a')) : root.value.isMap = true := by
  by_contra hroot
  rw [walkTree, if_neg hroot] at h
  obtain ⟨⟨⟩, mid, -, hthrow⟩ := exists_of_runFrom_bind_ok h
  cases hthrow

/-- Walks that are all completed leave the scopes and the severities as they were. -/
theorem Enrols.scopesOf_of_mapM_ok (ht : t.Enrols es) {trees : List Node}
    {a a' : Analysis} {counts : List Nat}
    (h : (trees.mapM (t.walkTree Handler.call)).runFrom a = (.ok counts, a')) :
    a'.reporter.overrides = a.reporter.overrides ∧
      ∀ serial, a'.scopesOf serial = a.scopesOf serial := by
  induction trees generalizing a counts with
  | nil =>
      rw [List.mapM_nil, runFrom_pure] at h
      cases h
      exact ⟨rfl, fun _ => rfl⟩
  | cons tree trees ih =>
      rw [List.mapM_cons] at h
      obtain ⟨count, b, htree, h⟩ := exists_of_runFrom_bind_ok h
      obtain ⟨counts', b', htrees, h⟩ := exists_of_runFrom_bind_ok h
      cases h
      rw [walkTree_of_isMap t (isMap_of_walkTree_ok htree)] at htree
      obtain ⟨hoverrides, hscopes⟩ := ht.scopesOf_of_ok htree
      obtain ⟨hoverrides', hscopes'⟩ := ih htrees
      exact ⟨hoverrides'.trans hoverrides, fun serial => (hscopes' serial).trans (hscopes serial)⟩

/-- On a table that any rules were registered on, from whatever the scopes hold, a walk over a
mapping never fails at an exit, and one that is completed leaves the scopes of every registration
as they were. After any completed walks from fresh scopes the next walk has the outcome that it
has alone, and it appends to the report what it reports alone. -/
theorem Registered.walkTree_restores_scopes (ht : t.Registered) {root : Node}
    (hroot : root.value.isMap = true) :
    (∀ a e, ((t.walkTree Handler.call root).runFrom a).1 ≠ .error (.scope e)) ∧
      (∀ a a' count, (t.walkTree Handler.call root).runFrom a = (.ok count, a') →
        ∀ serial, a'.scopesOf serial = a.scopesOf serial) ∧
      ∀ (overrides : List (Text × Text)) (trees : List Node) (counts : List Nat) (a : Analysis),
        (trees.mapM (t.walkTree Handler.call)).runFrom { reporter := { overrides } } =
          (.ok counts, a) →
        let alone := (t.walkTree Handler.call root).runFrom { reporter := { overrides } }
        let next := (t.walkTree Handler.call root).runFrom a
        next.1 = alone.1 ∧
          next.2.reporter.diagnostics.toList =
            a.reporter.diagnostics.toList ++ alone.2.reporter.diagnostics.toList := by
  obtain ⟨es, hes⟩ := ht.exists_enrols
  rw [walkTree_of_isMap t hroot]
  refine ⟨?_, ?_, ?_⟩
  · intro a e h
    cases hes.eq_visibility_of_error h
  · intro a a' count h
    exact (hes.scopesOf_of_ok h).2
  · intro overrides trees counts a h
    obtain ⟨hoverrides, hscopes⟩ := hes.scopesOf_of_mapM_ok h
    obtain ⟨houtcome, found, hnext, halone⟩ := hes.walk_congr root hoverrides hscopes
    refine ⟨houtcome, ?_⟩
    rw [hnext, halone]
    rfl

/-- A library with one function. -/
def smallLibrary : Node := ⟨[], .map [
  ("type", .text "ContractDefinition"), ("kind", .text "library"),
  ("subNodes", .list [.map [("type", .text "FunctionDefinition"), ("name", .text "f")]])]⟩

/-- All rules registered twice under one number, and the library rule under another one. -/
def registeredTwice : Table Handler :=
  let rules := Convention.all.map fun c => c.rule .null
  ((empty.register 0 rules).register 0 rules).register 1 [Convention.libraryMembers.rule .null]

/-- The small library, walked from scopes in which a node with its own address is open. -/
theorem walkTree_restores_scopes_smallLibrary :
    let a : Analysis := { scopes := [(0, ⟨⟨"library", [⟨[], false⟩]⟩, ⟨"declaration", []⟩⟩)] }
    let run := (registeredTwice.walkTree Handler.call smallLibrary).runFrom a
    run.1 = .ok 2 ∧ ∀ serial, run.2.scopesOf serial = a.scopesOf serial := by
  have hmade : ∀ c : Convention, (c.rule .null).Made := by
    intro c
    refine ⟨some {}, none, [], Convention.all.map fun c => c.rule .null, rfl, ?_⟩
    exact List.mem_map_of_mem c.mem_all
  have hall : ∀ r ∈ Convention.all.map fun c => c.rule .null, r.Made := by
    intro r hr
    obtain ⟨c, -, rfl⟩ := List.mem_map.1 hr
    exact hmade c
  have ht : registeredTwice.Registered := by
    refine ((Registered.empty.register 0 hall).register 0 hall).register 1 ?_
    intro r hr
    rw [List.mem_singleton.1 hr]
    exact hmade .libraryMembers
  have hrun : ((registeredTwice.walkTree Handler.call smallLibrary).runFrom
      { scopes := [(0, ⟨⟨"library", [⟨[], false⟩]⟩, ⟨"declaration", []⟩⟩)] }).1 = .ok 2 := by
    decide +kernel
  exact ⟨hrun, (ht.walkTree_restores_scopes rfl).2.1 _ _ 2 (Prod.ext hrun rfl)⟩

end Table

end UnderscoreLint
