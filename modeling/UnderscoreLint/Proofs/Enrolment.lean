import UnderscoreLint.Analysis

/-!
# Enrolled conventions

An enrolment is a convention under a registration number: a rule as far as a table is concerned.
`Table.Enrols t es` says that the table holds, for every event, the handlers of the enrolments
`es` in their order, so an enrolment that is listed twice has its handlers called twice. Every
table that rules were registered on enrols conventions (`Table.Registered.exists_enrols`), because
the rules that can be made are those of the four conventions (`Rule.Made.exists_rule`).

The library convention is the only one that listens to exits. It does so for the two kinds of
nodes it opens scopes for, which are called its tracks.
-/

namespace UnderscoreLint

/-- A convention under a registration number. -/
structure Enrolment where
  serial : Nat
  convention : Convention
  deriving DecidableEq

/-- The two kinds of nodes that the library convention opens a scope for. -/
inductive Track where
  | contract
  | declaration
  deriving DecidableEq

namespace Track

def kind : Track → Text
  | contract => "ContractDefinition"
  | declaration => "VariableDeclarationStatement"

/-- What is done about a node of a track. -/
def check : Track → Phase → Check
  | contract, .enter => .enterContract
  | contract, .exit => .leaveContract
  | declaration, .enter => .enterDeclaration
  | declaration, .exit => .leaveDeclaration

/-- The track of a node, if it is on one. -/
def of? (n : Node) : Option Track :=
  if n.kind? = some contract.kind then some contract
  else if n.kind? = some declaration.kind then some declaration
  else none

theorem kind?_of_eq_some {n : Node} {track : Track} (h : of? n = some track) :
    n.kind? = some track.kind := by
  unfold of? at h
  split at h
  · cases h
    assumption
  · split at h
    · cases h
      assumption
    · cases h

theorem kind?_ne_of_eq_none {n : Node} (h : of? n = none) (track : Track) :
    (n.kind? == some track.kind) = false := by
  rw [beq_eq_false_iff_ne]
  intro hkind
  unfold of? at h
  rw [hkind] at h
  cases track <;> cases h

theorem ne_kind_of_eq_none {n : Node} {kind : Text} (h : of? n = none)
    (hkind : n.kind? = some kind) (track : Track) : kind ≠ track.kind := by
  rintro rfl
  have hne := kind?_ne_of_eq_none h track
  rw [hkind, beq_self_eq_true] at hne
  cases hne

end Track

namespace Enrolment

/-- The handlers of an enrolment for an event. -/
def handlers (e : Enrolment) (event : Event) : List Handler :=
  (e.convention.subscriptions.filter fun s => s.1 = event).map fun s =>
    ⟨e.convention.id, e.serial, s.2⟩

/-- Only the library convention does something about the nodes of the tracks. -/
theorem handlers_track (e : Enrolment) (track : Track) (phase : Phase) :
    e.handlers ⟨track.kind, phase⟩ =
      if e.convention = .libraryMembers then
        [⟨Convention.libraryMembers.id, e.serial, track.check phase⟩]
      else [] := by
  obtain ⟨serial, convention⟩ := e
  cases convention <;> cases track <;> cases phase <;> rfl

theorem exists_track_of_mem_subscriptions {c : Convention} {s : Event × Check}
    (h : s ∈ c.subscriptions) (hphase : s.1.phase = .exit) :
    ∃ track : Track, s.1.kind = track.kind := by
  have hs : ∀ s ∈ c.subscriptions, s.1.phase = .exit →
      s.1.kind = Track.contract.kind ∨ s.1.kind = Track.declaration.kind := by
    cases c <;> decide
  rcases hs s h hphase with hkind | hkind
  · exact ⟨.contract, hkind⟩
  · exact ⟨.declaration, hkind⟩

theorem handlers_exit_of_ne (e : Enrolment) {kind : Text}
    (h : ∀ track : Track, kind ≠ track.kind) : e.handlers ⟨kind, .exit⟩ = [] := by
  have hnone : (e.convention.subscriptions.filter fun s => s.1 = ⟨kind, .exit⟩) = [] := by
    rw [List.filter_eq_nil_iff]
    intro s hs heq
    have hs' : s.1 = ⟨kind, .exit⟩ := of_decide_eq_true heq
    obtain ⟨track, htrack⟩ := exists_track_of_mem_subscriptions hs (by rw [hs'])
    rw [hs'] at htrack
    exact h track htrack
  rw [handlers, hnone, List.map_nil]

/-- On entering a node off the tracks the library convention checks functions and variables. -/
theorem handlers_enter_libraryMembers (serial : Nat) {kind : Text}
    (h : ∀ track : Track, kind ≠ track.kind) :
    (mk serial .libraryMembers).handlers ⟨kind, .enter⟩ =
      if kind = "FunctionDefinition" then
        [⟨Convention.libraryMembers.id, serial, .member⟩]
      else if kind = "VariableDeclaration" then
        [⟨Convention.libraryMembers.id, serial, .variableMember⟩]
      else [] := by
  have hc : "ContractDefinition" ≠ kind := (h .contract).symm
  have hd : "VariableDeclarationStatement" ≠ kind := (h .declaration).symm
  by_cases hf : kind = "FunctionDefinition"
  · subst hf
    rfl
  · by_cases hv : kind = "VariableDeclaration"
    · subst hv
      rfl
    · simp [handlers, Convention.subscriptions, hc, hd, hf, hv, Ne.symm hf, Ne.symm hv]

/-- A convention that does the same on entering nodes of some kinds has one handler for each of
these kinds. -/
theorem handlers_enter_of_subscriptions {c : Convention} {kinds : List Text} {check : Check}
    (hc : c.subscriptions = kinds.map fun k => (⟨k, .enter⟩, check)) (hkinds : kinds.Nodup)
    (serial : Nat) (kind : Text) :
    (mk serial c).handlers ⟨kind, .enter⟩ =
      if kind ∈ kinds then [⟨c.id, serial, check⟩] else [] := by
  rw [handlers, hc]
  clear hc
  induction kinds with
  | nil => rfl
  | cons k kinds ih =>
      obtain ⟨hk, hkinds⟩ := List.nodup_cons.1 hkinds
      rw [List.map_cons, List.filter_cons]
      by_cases hkind : k = kind
      · subst hkind
        have hrest := ih hkinds
        rw [if_neg hk] at hrest
        simp [hrest]
      · simp [hkind, Ne.symm hkind, ih hkinds]

end Enrolment

namespace Table

variable {η : Type}

theorem handlers_onAll (t : Table η) (subscriptions : List (Event × η)) (event : Event) :
    (t.onAll subscriptions).handlers event =
      t.handlers event ++ (subscriptions.filter fun s => s.1 = event).map fun s => s.2 := by
  induction subscriptions generalizing t with
  | nil => simp [onAll]
  | cons s rest ih =>
      change ((t.on s.1 s.2).onAll rest).handlers event = _
      rw [ih, handlers_on, List.filter_cons]
      by_cases hs : s.1 = event
      · simp [hs]
      · simp [hs, Ne.symm hs]

/-- A table holds the handlers of some enrolments, in their order, and no others. -/
def Enrols (t : Table Handler) (es : List Enrolment) : Prop :=
  ∀ event, t.handlers event = es.flatMap fun e => e.handlers event

theorem enrols_empty : (empty : Table Handler).Enrols [] := fun _ => rfl

/-- Registering a rule of a convention enrols the convention once more. -/
theorem Enrols.register_rule {t : Table Handler} {es : List Enrolment} (h : t.Enrols es)
    (serial : Nat) {r : Rule} {c : Convention} (hid : r.id = c.id)
    (hsubscriptions : r.subscriptions = c.subscriptions) :
    (t.register serial [r]).Enrols (es ++ [⟨serial, c⟩]) := by
  intro event
  rw [register, handlers_onAll, h event, List.flatMap_append, List.flatMap_singleton,
    List.flatMap_singleton, Rule.handlers, hid, hsubscriptions, Enrolment.handlers]
  congr 1
  rw [List.filter_map, List.map_map]
  rfl

theorem register_cons (t : Table Handler) (serial : Nat) (r : Rule) (rules : List Rule) :
    t.register serial (r :: rules) = (t.register serial [r]).register serial rules := by
  simp [register, onAll]

end Table

namespace Convention

/-- The rule of a convention with the settings it is given. -/
def rule (c : Convention) (settings : Value) : Rule :=
  ⟨c.title, c.id, settings, c.subscriptions⟩

theorem isBlank_id (c : Convention) : Text.isBlank c.id = false := by
  cases c <;> decide

/-- The conventions whose ids are in a list, in the order of the registry. -/
def among (ids : List Text) : List Convention :=
  all.filter fun c => ids.contains c.id

theorem mem_among {c : Convention} {ids : List Text} : c ∈ among ids ↔ c.id ∈ ids := by
  simp [among, c.mem_all]

end Convention

namespace Rule

theorem ofConvention_some (reporter : Reporter) (settings : Value) (c : Convention) :
    ofConvention (some reporter) settings c = .ok (c.rule settings) := by
  simp [ofConvention, make, Value.text, Value.text?, c.isBlank_id, Convention.rule]

theorem eq_rule_of_ofConvention {reporter : Option Reporter} {settings : Value} {c : Convention}
    {r : Rule} (h : ofConvention reporter settings c = .ok r) : r = c.rule settings := by
  cases reporter with
  | some reporter =>
      rw [ofConvention_some] at h
      cases h
      rfl
  | none =>
      simp [ofConvention, make, Value.text, Value.text?, c.isBlank_id] at h

theorem exists_of_mem_mapM {ε α β : Type} {f : α → Except ε β} {as : List α} {bs : List β}
    (h : as.mapM f = .ok bs) {b : β} (hb : b ∈ bs) : ∃ a ∈ as, f a = .ok b := by
  induction as generalizing bs with
  | nil =>
      cases h
      cases hb
  | cons a as ih =>
      rw [List.mapM_cons] at h
      cases ha : f a with
      | error e =>
          rw [ha] at h
          cases h
      | ok b' =>
          cases has : as.mapM f with
          | error e =>
              rw [ha, has] at h
              cases h
          | ok bs' =>
              rw [ha, has] at h
              cases h
              rcases List.mem_cons.1 hb with rfl | hb
              · exact ⟨a, List.mem_cons_self, ha⟩
              · obtain ⟨a', ha', hfa⟩ := ih has hb
                exact ⟨a', List.mem_cons_of_mem a ha', hfa⟩

/-- A rule is made if it is among the rules of some request that is granted. -/
def Made (r : Rule) : Prop :=
  ∃ reporter wanted settings made, create reporter wanted settings = .ok made ∧ r ∈ made

/-- The rules that can be made are those of the conventions. -/
theorem Made.exists_rule {r : Rule} (h : r.Made) : ∃ c given, r = Convention.rule c given := by
  obtain ⟨reporter, wanted, settings, made, hmade, hr⟩ := h
  unfold create at hmade
  simp only at hmade
  split at hmade
  · cases hmade
  · obtain ⟨c, -, hc⟩ := exists_of_mem_mapM hmade hr
    exact ⟨c, _, eq_rule_of_ofConvention hc⟩

theorem insertSorted_ne_nil (s : Text) (ts : List Text) : insertSorted s ts ≠ [] := by
  cases ts with
  | nil => simp [insertSorted]
  | cons t rest =>
      unfold insertSorted
      split
      · simp
      · split <;> simp

theorem unknown_eq_nil_iff (wanted : List Text) :
    unknown wanted = [] ↔ ∀ id ∈ wanted, id ∈ Convention.ids := by
  have hfilter : unknown wanted = [] ↔
      (wanted.filter fun id => !Convention.ids.contains id) = [] := by
    unfold unknown
    cases wanted.filter fun id => !Convention.ids.contains id with
    | nil => simp
    | cons id rest => simp [insertSorted_ne_nil]
  rw [hfilter, List.filter_eq_nil_iff]
  simp

/-- Rules are made exactly if all wanted ids are known. They are the rules of the wanted
conventions, each once, in the order of the registry. -/
theorem create_eq_ok_iff (reporter : Reporter) (wanted : List Text)
    (settings : List (Text × Value)) (rules : List Rule) :
    create (some reporter) (some wanted) settings = .ok rules ↔
      (∀ id ∈ wanted, id ∈ Convention.ids) ∧
        rules = (Convention.among wanted).map fun c =>
          c.rule ((Value.lookup c.id settings).getD .null) := by
  have hmade : ((Convention.among wanted).mapM fun c =>
        ofConvention (some reporter) ((Value.lookup c.id settings).getD .null) c) =
      .ok ((Convention.among wanted).map fun c =>
        c.rule ((Value.lookup c.id settings).getD .null)) := by
    simp only [ofConvention_some]
    exact List.mapM_pure
  rw [← unknown_eq_nil_iff]
  rw [Convention.among] at hmade ⊢
  simp only [create, Option.getD_some, hmade]
  by_cases h : unknown wanted = []
  · simp [h, eq_comm]
  · simp [h]

end Rule

namespace Table

theorem Enrols.register_map {t : Table Handler} {es : List Enrolment} (h : t.Enrols es)
    (serial : Nat) (given : Convention → Value) (cs : List Convention) :
    (t.register serial (cs.map fun c => c.rule (given c))).Enrols
      (es ++ cs.map fun c => ⟨serial, c⟩) := by
  induction cs generalizing t es with
  | nil => simpa [register, onAll] using h
  | cons c cs ih =>
      have hc := h.register_rule serial (r := c.rule (given c)) (c := c) rfl rfl
      have hcs := ih hc
      rw [List.append_assoc] at hcs
      rw [List.map_cons, register_cons]
      exact hcs

theorem Enrols.exists_register {t : Table Handler} {es : List Enrolment} (h : t.Enrols es)
    (serial : Nat) {rules : List Rule}
    (hrules : ∀ r ∈ rules, ∃ c given, r = Convention.rule c given) :
    ∃ es', (t.register serial rules).Enrols es' := by
  induction rules generalizing t es with
  | nil => exact ⟨es, by simpa [register, onAll] using h⟩
  | cons r rules ih =>
      obtain ⟨c, given, rfl⟩ := hrules r List.mem_cons_self
      have hr := h.register_rule serial (r := c.rule given) (c := c) rfl rfl
      rw [register_cons]
      exact ih hr fun r' hr' => hrules r' (List.mem_cons_of_mem _ hr')

/-- The tables that rules can be registered on: any rules that can be made, in any order and any
number of times. Rules that were made together have one number. -/
inductive Registered : Table Handler → Prop where
  | empty : Registered empty
  | register {t : Table Handler} (h : Registered t) (serial : Nat) {rules : List Rule}
      (hmade : ∀ r ∈ rules, r.Made) : Registered (t.register serial rules)

theorem Registered.exists_enrols {t : Table Handler} (h : t.Registered) : ∃ es, t.Enrols es := by
  induction h with
  | empty => exact ⟨[], enrols_empty⟩
  | register _ serial hmade ih =>
      obtain ⟨es, hes⟩ := ih
      exact hes.exists_register serial fun r hr => (hmade r hr).exists_rule

end Table

end UnderscoreLint
