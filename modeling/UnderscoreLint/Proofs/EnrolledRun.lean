import UnderscoreLint.Lint.Tree
import UnderscoreLint.Proofs.Surroundings

/-!
# Runs of enrolled rules

The handlers of a table work on scopes; `Convention.remarks?` works on the nodes above. This
module shows that the two agree whenever events are nested, from any scopes at the start.

`Performs x a answers after` says what the run of the action `x` from the analysis `a` does: it
asks questions with these answers, so that it reports and fails as `reported` and `verdict` say,
and unless it fails it leaves the scopes `after`. Such descriptions compose (`Performs.bind`).

While nodes are open, each scope has on top of its old frames one frame for each open node of its
track and each enrolment of the library convention (`LibraryScopes.opened`). One event keeps this
(`performs_enter`, `performs_exit`), and so do nested events (`performs_of_nested`). A walk leaves
no node open, so it gives the scopes back as they were (`performs_script`).
-/

namespace UnderscoreLint

open UnderscoreLint.Action

namespace Analysis

theorem reporter_report (ruleId : Text) (a : Analysis) (remarks : List Remark) :
    (a.report ruleId remarks).reporter.overrides = a.reporter.overrides ∧
      (a.report ruleId remarks).reporter.diagnostics.toList =
        a.reporter.diagnostics.toList ++
          remarks.map (Remark.diagnostic a.reporter.overrides ruleId) := by
  induction remarks generalizing a with
  | nil => exact ⟨rfl, (List.append_nil _).symm⟩
  | cons m remarks ih =>
      obtain ⟨hoverrides, hdiagnostics⟩ := ih (a.report ruleId [m])
      refine ⟨hoverrides, hdiagnostics.trans ?_⟩
      have hm : (a.report ruleId [m]).reporter.diagnostics.toList =
          a.reporter.diagnostics.toList ++ [m.diagnostic a.reporter.overrides ruleId] :=
        Reporter.toList_diagnostics_report ..
      rw [hm, List.append_assoc]
      rfl

end Analysis

/-- What the run of an action from an analysis does. -/
structure Performs (x : Action Analysis WalkError Unit) (a : Analysis) (answers : List Answer)
    (after : Nat → LibraryScopes) : Prop where
  outcome : (x.runFrom a).1 = verdict answers
  overrides : (x.runFrom a).2.reporter.overrides = a.reporter.overrides
  diagnostics : (x.runFrom a).2.reporter.diagnostics.toList =
    a.reporter.diagnostics.toList ++ reported answers
  scopes : (x.runFrom a).1 = .ok () → ∀ serial, (x.runFrom a).2.scopesOf serial = after serial

namespace Performs

theorem of_ok {x : Action Analysis WalkError Unit} {a b : Analysis} {answers : List Answer}
    {after : Nat → LibraryScopes} (hx : x.runFrom a = (.ok (), b))
    (hanswers : verdict answers = .ok ())
    (hoverrides : b.reporter.overrides = a.reporter.overrides)
    (hdiagnostics : b.reporter.diagnostics.toList =
      a.reporter.diagnostics.toList ++ reported answers)
    (hscopes : ∀ serial, b.scopesOf serial = after serial) : Performs x a answers after := by
  constructor
  · rw [hx, hanswers]
  · rw [hx, hoverrides]
  · rw [hx, hdiagnostics]
  · intro _
    rw [hx]
    exact hscopes

theorem pure (a : Analysis) : Performs (pure ()) a [] a.scopesOf :=
  of_ok rfl rfl rfl (List.append_nil _).symm fun _ => rfl

theorem pure_some_nil (a : Analysis) : Performs (Pure.pure ()) a [some []] a.scopesOf :=
  of_ok rfl rfl rfl (List.append_nil _).symm fun _ => rfl

theorem pure_map_some_nil (a : Analysis) (es : List Enrolment) :
    Performs (Pure.pure ()) a (es.map fun _ => some []) a.scopesOf := by
  have hsilent : reported (es.map fun _ => some []) = [] := by
    simp [reported]
  refine of_ok rfl (verdict_eq_ok_iff.2 ?_) rfl ?_ fun _ => rfl
  · simp
  · rw [hsilent, List.append_nil]

theorem of_runFrom_eq {x y : Action Analysis WalkError Unit} {a : Analysis} {answers : List Answer}
    {after : Nat → LibraryScopes} (hrun : x.runFrom a = y.runFrom a)
    (hy : Performs y a answers after) : Performs x a answers after := by
  obtain ⟨houtcome, hoverrides, hdiagnostics, hscopes⟩ := hy
  rw [← hrun] at houtcome hoverrides hdiagnostics hscopes
  exact ⟨houtcome, hoverrides, hdiagnostics, hscopes⟩

theorem of_after_eq {x : Action Analysis WalkError Unit} {a : Analysis} {answers : List Answer}
    {after after' : Nat → LibraryScopes} (hafter : ∀ serial, after serial = after' serial)
    (hx : Performs x a answers after) : Performs x a answers after' :=
  funext hafter ▸ hx

/-- One action after the other asks the questions of both, and the second one is only described
from what the first one leaves. -/
theorem bind {x y : Action Analysis WalkError Unit} {a : Analysis} {answers others : List Answer}
    {mid after : Nat → LibraryScopes} (hx : Performs x a answers mid)
    (hy : ∀ b : Analysis, b.reporter.overrides = a.reporter.overrides →
      (∀ serial, b.scopesOf serial = mid serial) → Performs y b others after) :
    Performs (do x; y) a (answers ++ others) after := by
  obtain ⟨houtcome, hoverrides, hdiagnostics, hscopes⟩ := hx
  rcases hrun : x.runFrom a with ⟨e | ⟨⟩, b⟩
  · rw [hrun] at houtcome hoverrides hdiagnostics
    have hbind := runFrom_bind_of_error (fun _ => y) hrun
    constructor
    · rw [hbind, verdict_append_of_error others houtcome.symm]
    · rw [hbind, hoverrides]
    · rw [hbind, hdiagnostics, reported_append_of_error others houtcome.symm]
    · rw [hbind]
      intro h
      cases h
  · rw [hrun] at houtcome hoverrides hdiagnostics hscopes
    have hbind := runFrom_bind_of_ok (fun _ => y) hrun
    obtain ⟨houtcome', hoverrides', hdiagnostics', hscopes'⟩ := hy b hoverrides (hscopes rfl)
    constructor
    · rw [hbind, houtcome', verdict_append_of_ok houtcome.symm]
    · rw [hbind, hoverrides', hoverrides]
    · rw [hbind, hdiagnostics', hdiagnostics, reported_append_of_ok houtcome.symm,
        List.append_assoc]
    · rw [hbind]
      exact hscopes'

theorem report (ruleId : Text) (remarks : List Remark) (a : Analysis) :
    Performs (modify fun a => a.report ruleId remarks) a
      [some (remarks.map (Remark.diagnostic a.reporter.overrides ruleId))] a.scopesOf := by
  obtain ⟨hoverrides, hdiagnostics⟩ := a.reporter_report ruleId remarks
  refine of_ok (runFrom_modify _ a) rfl hoverrides ?_ fun _ => rfl
  rw [hdiagnostics]
  simp [reported]

theorem throw (a : Analysis) (after : Nat → LibraryScopes) :
    Performs (throw .visibility) a [none] after := by
  refine ⟨rfl, rfl, (List.append_nil _).symm, ?_⟩
  intro h
  cases h

end Performs

namespace Track

def get : Track → LibraryScopes → Scope
  | contract, s => s.library
  | declaration, s => s.localDeclaration

def setFrames : Track → List Frame → LibraryScopes → LibraryScopes
  | contract, frames, s => { s with library := { s.library with frames } }
  | declaration, frames, s => { s with localDeclaration := { s.localDeclaration with frames } }

def qualifies : Track → Node → Bool
  | contract, n => Handler.isLibrary n
  | declaration, _ => true

/-- The scopes after a node of a track was entered `k` times. -/
def push (track : Track) (k : Nat) (n : Node) (s : LibraryScopes) : LibraryScopes :=
  track.setFrames (List.replicate k ⟨n.address, track.qualifies n⟩ ++ (track.get s).frames) s

theorem push_zero (track : Track) (n : Node) (s : LibraryScopes) : track.push 0 n s = s := by
  cases track <;> rfl

theorem push_push (track : Track) (j k : Nat) (n : Node) (s : LibraryScopes) :
    track.push j n (track.push k n s) = track.push (j + k) n s := by
  cases track <;> simp [push, setFrames, get, ← List.append_assoc]

/-- Entering a node of a track as often as the library convention is enrolled, if it is, makes
its surroundings those of what is below it. -/
theorem surroundings_push {track : Track} {n : Node} (h : of? n = some track) {k : Nat}
    (hk : 0 < k) (s : LibraryScopes) :
    (track.push k n s).surroundings =
      ⟨n.isLibrary || s.surroundings.inLibrary,
        n.isDeclaration || s.surroundings.inDeclaration⟩ := by
  obtain ⟨k, rfl⟩ := Nat.exists_eq_succ_of_ne_zero (Nat.ne_of_gt hk)
  have hkind := kind?_of_eq_some h
  cases track <;>
    simp [push, setFrames, get, qualifies, LibraryScopes.surroundings, Scope.inside, kind,
      Node.isLibrary, Node.isDeclaration, Node.isKind, hkind, Handler.isLibrary]

theorem runFrom_call_enter (track : Track) (ruleId : Text) (serial : Nat) (n : Node)
    (a : Analysis) :
    (Handler.call ⟨ruleId, serial, track.check .enter⟩ n).runFrom a =
      (.ok (), a.setScopes serial (track.push 1 n (a.scopesOf serial))) := by
  cases track <;> rfl

/-- A node that was entered once more than `k` times can be left. -/
theorem runFrom_call_exit (track : Track) (ruleId : Text) {serial k : Nat} {n : Node}
    {a : Analysis} {s : LibraryScopes} (h : a.scopesOf serial = track.push (k + 1) n s) :
    (Handler.call ⟨ruleId, serial, track.check .exit⟩ n).runFrom a =
      (.ok (), a.setScopes serial (track.push k n s)) := by
  cases track <;>
    simp [Handler.call, check, h, push, setFrames, get, Scope.exit, List.replicate_succ,
      Handler.close]

end Track

/-- The number of times that the library convention is enrolled under a number. -/
def multiplicity (es : List Enrolment) (serial : Nat) : Nat :=
  es.count ⟨serial, .libraryMembers⟩

theorem multiplicity_cons (e : Enrolment) (es : List Enrolment) (serial : Nat) :
    multiplicity (e :: es) serial = multiplicity es serial + multiplicity [e] serial := by
  simp [multiplicity, List.count_cons]

theorem multiplicity_pos {e : Enrolment} {es : List Enrolment} (he : e ∈ es)
    (hconvention : e.convention = .libraryMembers) : 0 < multiplicity es e.serial := by
  obtain ⟨serial, convention⟩ := e
  cases hconvention
  exact List.count_pos_iff.2 he

/-- The calls of the handlers that enrolments have for an event, at a node. -/
def callsAt (es : List Enrolment) (event : Event) (n : Node) : Action Analysis WalkError Unit :=
  each (fun h => h.call n) (es.flatMap fun e => e.handlers event)

theorem callsAt_cons (e : Enrolment) (es : List Enrolment) (event : Event) (n : Node) :
    callsAt (e :: es) event n = (do callsAt [e] event n; callsAt es event n) := by
  simp [callsAt, each_append]

theorem performs_open_singleton (e : Enrolment) (track : Track) (n : Node) (a : Analysis) :
    Performs (callsAt [e] ⟨track.kind, .enter⟩ n) a [some []]
      fun serial => track.push (multiplicity [e] serial) n (a.scopesOf serial) := by
  rw [callsAt, List.flatMap_singleton, e.handlers_track]
  obtain ⟨serial, convention⟩ := e
  by_cases h : convention = .libraryMembers
  · subst h
    rw [if_pos rfl, each_singleton]
    refine .of_ok (track.runFrom_call_enter _ serial n a) rfl rfl (List.append_nil _).symm ?_
    intro other
    rw [Analysis.scopesOf_setScopes]
    by_cases hother : other = serial
    · simp [hother, multiplicity]
    · simp [hother, Ne.symm hother, multiplicity, track.push_zero]
  · rw [if_neg h, each_nil]
    refine .of_after_eq ?_ (.pure_some_nil a)
    intro other
    simp [multiplicity, h, track.push_zero]

/-- Entering a node of a track opens it in the scopes of the library convention, once for each
enrolment, and reports nothing. -/
theorem performs_open (es : List Enrolment) (track : Track) (n : Node) (a : Analysis) :
    Performs (callsAt es ⟨track.kind, .enter⟩ n) a (es.map fun _ => some [])
      fun serial => track.push (multiplicity es serial) n (a.scopesOf serial) := by
  induction es generalizing a with
  | nil => exact .of_after_eq (fun _ => (track.push_zero n _).symm) (.pure a)
  | cons e es ih =>
      rw [callsAt_cons]
      refine (performs_open_singleton e track n a).bind fun b _ hscopes => ?_
      refine .of_after_eq ?_ (ih b)
      intro serial
      rw [hscopes, track.push_push, multiplicity_cons e es]

theorem performs_close_singleton (e : Enrolment) (es : List Enrolment) (track : Track) (n : Node)
    {base : Nat → LibraryScopes} {a : Analysis}
    (h : ∀ serial, a.scopesOf serial = track.push (multiplicity (e :: es) serial) n (base serial)) :
    Performs (callsAt [e] ⟨track.kind, .exit⟩ n) a []
      fun serial => track.push (multiplicity es serial) n (base serial) := by
  rw [callsAt, List.flatMap_singleton, e.handlers_track]
  obtain ⟨serial, convention⟩ := e
  by_cases hc : convention = .libraryMembers
  · subst hc
    have hserial : a.scopesOf serial = track.push (multiplicity es serial + 1) n (base serial) := by
      rw [h, multiplicity_cons]
      simp [multiplicity]
    rw [if_pos rfl, each_singleton]
    refine .of_ok (track.runFrom_call_exit _ hserial) rfl rfl (List.append_nil _).symm ?_
    intro other
    rw [Analysis.scopesOf_setScopes]
    by_cases hother : other = serial
    · rw [if_pos hother, hother]
    · rw [if_neg hother, h, multiplicity_cons]
      simp [multiplicity, Ne.symm hother]
  · rw [if_neg hc, each_nil]
    refine .of_after_eq ?_ (.pure a)
    intro other
    rw [h, multiplicity_cons]
    simp [multiplicity, hc]

/-- Leaving a node of a track that is open once for each enrolment closes it. -/
theorem performs_close (es : List Enrolment) (track : Track) (n : Node)
    {base : Nat → LibraryScopes} {a : Analysis}
    (h : ∀ serial, a.scopesOf serial = track.push (multiplicity es serial) n (base serial)) :
    Performs (callsAt es ⟨track.kind, .exit⟩ n) a [] base := by
  induction es generalizing a with
  | nil =>
      refine .of_after_eq ?_ (.pure a)
      intro serial
      rw [h]
      exact track.push_zero n _
  | cons e es ih =>
      rw [callsAt_cons]
      exact (performs_close_singleton e es track n h).bind fun b _ hscopes => ih hscopes

theorem any_isKind_iff {n : Node} {kind : Text} (h : n.kind? = some kind)
    (kinds : List Text) : kinds.any n.isKind = true ↔ kind ∈ kinds := by
  simp [Node.isKind, h]

theorem performs_checkMember (h : Handler) (n : Node) (a : Analysis) :
    Performs (h.checkMember n) a
      [(if (a.scopesOf h.serial).library.inside then Remark.ofMember? n else some []).map
        fun remarks => remarks.map (Remark.diagnostic a.reporter.overrides h.ruleId)]
      a.scopesOf := by
  refine .of_runFrom_eq (runFrom_get_bind _ a) ?_
  cases (a.scopesOf h.serial).library.inside with
  | false => exact .pure_some_nil a
  | true =>
      cases hm : Remark.ofMember? n with
      | none => simpa [hm] using Performs.throw a a.scopesOf
      | some remarks => simpa [hm] using Performs.report h.ruleId remarks a

/-- A convention that always does the same on entering nodes of some kinds answers there, and
has nothing to say elsewhere. -/
theorem performs_ask_of_subscriptions (c : Convention) (kinds : List Text) {check : Check}
    (hc : c.subscriptions = kinds.map fun k => (⟨k, .enter⟩, check)) (hkinds : kinds.Nodup)
    {remarks : Node → List Remark}
    (hcall : ∀ serial n, Handler.call ⟨c.id, serial, check⟩ n =
      modify fun a => a.report c.id (remarks n))
    (serial : Nat) {n : Node} {kind : Text} (hkind : n.kind? = some kind) (a : Analysis) :
    Performs (callsAt [⟨serial, c⟩] ⟨kind, .enter⟩ n) a
      [some ((if kinds.any n.isKind then remarks n else []).map
        (Remark.diagnostic a.reporter.overrides c.id))] a.scopesOf := by
  rw [callsAt, List.flatMap_singleton, Enrolment.handlers_enter_of_subscriptions hc hkinds]
  by_cases h : kind ∈ kinds
  · rw [if_pos h, if_pos ((any_isKind_iff hkind kinds).2 h), each_singleton, hcall]
    exact .report c.id (remarks n) a
  · rw [if_neg h, if_neg (mt (any_isKind_iff hkind kinds).1 h), each_nil]
    exact .pure_some_nil a

/-- The library convention checks functions, and variables outside of declarations. -/
theorem performs_ask_libraryMembers (serial : Nat) {n : Node} {kind : Text}
    (hkind : n.kind? = some kind) (h : ∀ track : Track, kind ≠ track.kind) (a : Analysis) :
    Performs (callsAt [⟨serial, .libraryMembers⟩] ⟨kind, .enter⟩ n) a
      [(Enrolment.mk serial .libraryMembers).answer a.reporter.overrides
        (a.scopesOf serial).surroundings n] a.scopesOf := by
  rw [callsAt, List.flatMap_singleton, Enrolment.handlers_enter_libraryMembers serial h,
    Enrolment.answer]
  by_cases hf : kind = "FunctionDefinition"
  · have hremarks : Convention.libraryMembers.remarks? (a.scopesOf serial).surroundings n =
        if (a.scopesOf serial).library.inside then Remark.ofMember? n else some [] := by
      simp [Convention.remarks?, Node.isKind, hkind, hf, LibraryScopes.surroundings]
    rw [if_pos hf, each_singleton, hremarks]
    exact performs_checkMember ⟨Convention.libraryMembers.id, serial, .member⟩ n a
  · rw [if_neg hf]
    by_cases hv : kind = "VariableDeclaration"
    · have hremarks : Convention.libraryMembers.remarks? (a.scopesOf serial).surroundings n =
          if (a.scopesOf serial).localDeclaration.inside then some []
          else if (a.scopesOf serial).library.inside then Remark.ofMember? n else some [] := by
        cases hd : (a.scopesOf serial).localDeclaration.inside <;>
          simp [Convention.remarks?, Node.isKind, hkind, hv, LibraryScopes.surroundings, hd]
      rw [if_pos hv, each_singleton, hremarks]
      refine .of_runFrom_eq (runFrom_get_bind _ a) ?_
      by_cases hd : (a.scopesOf serial).localDeclaration.inside
      · rw [if_pos hd, if_pos hd]
        exact .pure_some_nil a
      · rw [if_neg hd, if_neg hd]
        exact performs_checkMember ⟨Convention.libraryMembers.id, serial, .variableMember⟩ n a
    · have hremarks : Convention.libraryMembers.remarks? (a.scopesOf serial).surroundings n =
          some [] := by
        simp [Convention.remarks?, Node.isKind, hkind, hf, hv]
      rw [if_neg hv, each_nil, hremarks]
      exact .pure_some_nil a

theorem performs_ask_singleton (e : Enrolment) {n : Node} {kind : Text}
    (hkind : n.kind? = some kind) (h : ∀ track : Track, kind ≠ track.kind) (a : Analysis) :
    Performs (callsAt [e] ⟨kind, .enter⟩ n) a
      [e.answer a.reporter.overrides (a.scopesOf e.serial).surroundings n] a.scopesOf := by
  obtain ⟨serial, convention⟩ := e
  cases convention with
  | libraryMembers => exact performs_ask_libraryMembers serial hkind h a
  | parameters =>
      exact performs_ask_of_subscriptions .parameters Convention.parameterKinds
        rfl (by decide) (fun _ _ => rfl) serial hkind a
  | returnParameters =>
      have hask := performs_ask_of_subscriptions .returnParameters ["FunctionDefinition"]
        rfl (by decide) (fun _ _ => rfl) serial hkind a
      rw [List.any_cons, List.any_nil, Bool.or_false] at hask
      exact hask
  | localVariables =>
      exact performs_ask_of_subscriptions .localVariables
        (Convention.loopKinds ++ [("FunctionDefinition" : Text)])
        rfl (by decide) (fun _ _ => rfl) serial hkind a

/-- Entering a node off the tracks asks the enrolled conventions, in order, and leaves the scopes
alone. -/
theorem performs_ask (es : List Enrolment) {n : Node} {kind : Text}
    (hkind : n.kind? = some kind) (h : ∀ track : Track, kind ≠ track.kind) (a : Analysis) :
    Performs (callsAt es ⟨kind, .enter⟩ n) a
      (es.map fun e => e.answer a.reporter.overrides (a.scopesOf e.serial).surroundings n)
      a.scopesOf := by
  induction es generalizing a with
  | nil => exact .pure a
  | cons e es ih =>
      rw [callsAt_cons]
      refine (performs_ask_singleton e hkind h a).bind fun b hoverrides hscopes => ?_
      have hb := ih b
      rw [hoverrides, funext hscopes] at hb
      exact hb

namespace LibraryScopes

/-- The scopes while nodes are open, each of which was entered `k` times. -/
def opened (k : Nat) (s : LibraryScopes) : List Node → LibraryScopes
  | [] => s
  | n :: above =>
    match Track.of? n with
    | some track => track.push k n (opened k s above)
    | none => opened k s above

theorem opened_cons_of_track {n : Node} {track : Track} (h : Track.of? n = some track) (k : Nat)
    (s : LibraryScopes) (above : List Node) :
    s.opened k (n :: above) = track.push k n (s.opened k above) := by
  rw [opened, h]

theorem opened_cons_of_none {n : Node} (h : Track.of? n = none) (k : Nat) (s : LibraryScopes)
    (above : List Node) : s.opened k (n :: above) = s.opened k above := by
  rw [opened, h]

/-- The flags of the scopes say what the open nodes say. -/
theorem surroundings_opened {k : Nat} (hk : 0 < k) (s : LibraryScopes) (above : List Node) :
    (s.opened k above).surroundings = s.surroundings.within above := by
  induction above with
  | nil => rfl
  | cons n above ih =>
      rw [Surroundings.within_cons, ← ih]
      cases h : Track.of? n with
      | some track => rw [opened_cons_of_track h, Track.surroundings_push h hk]
      | none =>
          have hcontract : n.isKind "ContractDefinition" = false :=
            Track.kind?_ne_of_eq_none h .contract
          have hlibrary : n.isLibrary = false := by
            rw [Node.isLibrary, hcontract, Bool.false_and]
          have hdeclaration : n.isDeclaration = false :=
            Track.kind?_ne_of_eq_none h .declaration
          rw [opened_cons_of_none h, hlibrary, hdeclaration, Bool.false_or, Bool.false_or]

end LibraryScopes

namespace Table

variable {t : Table Handler} {es : List Enrolment} {base : Nat → LibraryScopes} {a : Analysis}

theorem Enrols.dispatch_of_kind (ht : t.Enrols es) {n : Node} {kind : Text}
    (hkind : n.kind? = some kind) (phase : Phase) :
    t.dispatch Handler.call phase n = callsAt es ⟨kind, phase⟩ n := by
  rw [dispatch, hkind, callsAt, ← ht]

theorem dispatch_of_kind_none {n : Node} (hkind : n.kind? = none) (phase : Phase) :
    t.dispatch Handler.call phase n = pure () := by
  rw [dispatch, hkind]

/-- While the nodes above a place are open, an enrolment answers by the nodes above. -/
theorem answer_opened {above : List Node}
    (ha : ∀ serial, a.scopesOf serial = (base serial).opened (multiplicity es serial) above)
    {e : Enrolment} (he : e ∈ es) (overrides : List (Text × Text)) (n : Node) :
    e.answer overrides (a.scopesOf e.serial).surroundings n =
      e.answer overrides ((base e.serial).surroundings.within above) n := by
  by_cases h : e.convention = .libraryMembers
  · rw [ha, LibraryScopes.surroundings_opened (multiplicity_pos he h)]
  · rw [Enrolment.answer, Convention.remarks?_of_ne h, Enrolment.answer]

/-- Entering the node of a place asks what the nodes above make of it, and opens it. -/
theorem Enrols.performs_enter (ht : t.Enrols es) (p : Place)
    (ha : ∀ serial, a.scopesOf serial = (base serial).opened (multiplicity es serial) p.above) :
    Performs (t.dispatch Handler.call .enter p.node) a
      (p.answers a.reporter.overrides (fun serial => (base serial).surroundings) es)
      fun serial => (base serial).opened (multiplicity es serial) (p.node :: p.above) := by
  cases htrack : Track.of? p.node with
  | some track =>
      rw [Place.answers_of_silent _ _ es fun c s => c.remarks?_of_track s htrack,
        ht.dispatch_of_kind (Track.kind?_of_eq_some htrack)]
      refine .of_after_eq ?_ (performs_open es track p.node a)
      intro serial
      rw [ha, LibraryScopes.opened_cons_of_track htrack]
  | none =>
      have hafter : ∀ serial, a.scopesOf serial =
          (base serial).opened (multiplicity es serial) (p.node :: p.above) := by
        intro serial
        rw [ha, LibraryScopes.opened_cons_of_none htrack]
      refine .of_after_eq hafter ?_
      cases hkind : p.node.kind? with
      | none =>
          rw [Place.answers_of_silent _ _ es fun c s => c.remarks?_of_kind_none s hkind,
            dispatch_of_kind_none hkind]
          exact .pure_map_some_nil a es
      | some kind =>
          have hanswers : p.answers a.reporter.overrides (fun serial => (base serial).surroundings)
              es = es.map fun e =>
                e.answer a.reporter.overrides (a.scopesOf e.serial).surroundings p.node :=
            List.map_congr_left fun e he => (answer_opened ha he _ p.node).symm
          rw [hanswers, ht.dispatch_of_kind hkind]
          exact performs_ask es hkind (Track.ne_kind_of_eq_none htrack hkind) a

/-- Leaving the node of a place closes it and asks nothing. -/
theorem Enrols.performs_exit (ht : t.Enrols es) (p : Place)
    (ha : ∀ serial,
      a.scopesOf serial = (base serial).opened (multiplicity es serial) (p.node :: p.above)) :
    Performs (t.dispatch Handler.call .exit p.node) a []
      fun serial => (base serial).opened (multiplicity es serial) p.above := by
  cases htrack : Track.of? p.node with
  | some track =>
      rw [ht.dispatch_of_kind (Track.kind?_of_eq_some htrack)]
      refine performs_close es track p.node fun serial => ?_
      rw [ha, LibraryScopes.opened_cons_of_track htrack]
  | none =>
      have hnothing : t.dispatch Handler.call .exit p.node = pure () := by
        cases hkind : p.node.kind? with
        | none => exact dispatch_of_kind_none hkind .exit
        | some kind =>
            have hnil : (es.flatMap fun e => e.handlers ⟨kind, .exit⟩) = [] :=
              List.flatMap_eq_nil_iff.2 fun e _ =>
                e.handlers_exit_of_ne (Track.ne_kind_of_eq_none htrack hkind)
            rw [ht.dispatch_of_kind hkind, callsAt, hnil, each_nil]
      rw [hnothing]
      refine .of_after_eq ?_ (.pure a)
      intro serial
      rw [ha, LibraryScopes.opened_cons_of_none htrack]

/-- Nested events ask at each entry what the nodes above make of it, in order, and the scopes
follow the open nodes. -/
theorem Enrols.performs_of_nested (ht : t.Enrols es) (base : Nat → LibraryScopes)
    {first last : List Node} {os : List (Phase × Place)} (h : Nested first os last) {a : Analysis}
    (ha : ∀ serial, a.scopesOf serial = (base serial).opened (multiplicity es serial) first) :
    Performs (t.fire Handler.call (Place.events os)) a
      (os.flatMap fun o => if o.1 = .enter then
        o.2.answers a.reporter.overrides (fun serial => (base serial).surroundings) es else [])
      fun serial => (base serial).opened (multiplicity es serial) last := by
  induction h generalizing a with
  | nil above => exact .of_after_eq ha (.pure a)
  | @enter p os last _ ih =>
      refine (ht.performs_enter p ha).bind fun b hoverrides hscopes => ?_
      rw [← hoverrides]
      exact ih hscopes
  | @exit p os last _ ih =>
      refine (ht.performs_exit p ha).bind fun b hoverrides hscopes => ?_
      rw [← hoverrides]
      exact ih hscopes

/-- A walk asks at every place below the root, in the order of entering, and gives back the
scopes as they were. -/
theorem Enrols.performs_script (ht : t.Enrols es) (root : Node) (a : Analysis) :
    Performs (t.fire Handler.call root.script) a
      ((Place.top root).preorder.flatMap
        (Place.answers a.reporter.overrides (fun serial => (a.scopesOf serial).surroundings) es))
      a.scopesOf := by
  have h := ht.performs_of_nested a.scopesOf (Place.top root).nested_script (a := a) fun _ => rfl
  rw [Place.events_script, Place.flatMap_script] at h
  exact h

theorem walkTree_of_isMap (t : Table Handler) {root : Node} (h : root.value.isMap = true) :
    t.walkTree Handler.call root = t.walk Handler.call root := by
  rw [walkTree, if_pos h]

end Table

/-- An analysis of a mapping fires the script of its tree from an empty report. -/
theorem analyse_map (rules : List Rule) (overrides : List (Text × Text))
    (entries : List (Text × Value)) :
    let root : Node := ⟨[], .map entries⟩
    let run := ((Table.empty.register 0 rules).fire Handler.call root.script).runFrom
      { reporter := { overrides } }
    analyse rules overrides (.map entries) =
      (run.1.map fun _ => Node.entries root.script, run.2) := by
  intro root run
  rw [analyse, Table.walkTree_of_isMap _ rfl, Table.runFrom_walk]

/-- With the rules of conventions it asks each of them at every place. -/
theorem analyse_map_rule (cs : List Convention) (given : Convention → Value)
    (overrides : List (Text × Text)) (entries : List (Text × Value)) :
    let root : Node := ⟨[], .map entries⟩
    let run := analyse (cs.map fun c => c.rule (given c)) overrides (.map entries)
    let answers := (Place.top root).preorder.flatMap (Place.answersOf overrides cs)
    run.1 = (verdict answers).map (fun _ => Node.entries root.script) ∧
      run.2.reporter.diagnostics.toList = reported answers := by
  intro root run answers
  have ht := Table.enrols_empty.register_map 0 given cs
  have hperforms := ht.performs_script root { reporter := { overrides } }
  have hanswers : answers = (Place.top root).preorder.flatMap
      (Place.answers overrides (fun _ => LibraryScopes.surroundings .fresh) _) :=
    List.flatMap_congr fun p _ => (p.answers_fresh overrides 0 cs).symm
  have hrun := analyse_map (cs.map fun c => c.rule (given c)) overrides entries
  rw [hanswers]
  constructor
  · change (analyse _ overrides (.map entries)).1 = _
    rw [hrun, hperforms.outcome]
    rfl
  · change (analyse _ overrides (.map entries)).2.reporter.diagnostics.toList = _
    rw [hrun, hperforms.diagnostics]
    rfl

end UnderscoreLint
