import Mathlib.Data.List.Forall2
import Mathlib.Data.List.Perm.Basic
import UnderscoreLint.Proofs.LintOutcome

/-!
# Trees that resemble each other

A resemblance is a relation between nodes that no convention can look behind: related nodes are the
same scalar, have related nodes under each attribute that is not a source position, and have items
that are related as far as they have attributes. What a convention says of two related nodes in the
same surroundings is the same, about related nodes (`Resemblance.remarks?`).

If related nodes have related children, one after the other, then so have their trees in the order
of entering (`Resemblance.forall₂_preorder`), and the findings in the two trees are related one by
one. If the children are only related up to their order, then so are the trees and the findings
(`Resemblance.shuffled_preorder`). `Shuffled R` is that relation between lists.
-/

namespace UnderscoreLint

/-- The scalar that a value is. -/
def Value.scalar? : Value → Option Scalar
  | .scalar s => some s
  | _ => none

theorem Value.text?_congr {v w : Value} (h : v.scalar? = w.scalar?) : v.text? = w.text? := by
  cases v <;> cases w <;> simp_all [scalar?, text?]

theorem Remark.isHidden?_congr {v w : Value} (h : v.scalar? = w.scalar?) :
    isHidden? (some v) = isHidden? (some w) := by
  cases v <;> cases w <;> simp_all [Value.scalar?, isHidden?]

theorem Coordinate.ofValue?_congr {v w : Value} (h : v.scalar? = w.scalar?) :
    ofValue? v = ofValue? w := by
  cases v <;> cases w <;> simp_all [Value.scalar?, ofValue?]

theorem bind_congr_of_rel {α β γ : Type} {R : α → β → Prop} {a : Option α} {b : Option β}
    {f : α → Option γ} {g : β → Option γ} (h : Option.Rel R a b)
    (hfg : ∀ {x y}, R x y → f x = g y) : a.bind f = b.bind g := by
  cases h with
  | none => rfl
  | some h => exact hfg h

theorem rel_bind {α β γ δ : Type} {R : α → β → Prop} {S : γ → δ → Prop} {a : Option α}
    {b : Option β} {f : α → Option γ} {g : β → Option δ} (h : Option.Rel R a b)
    (hfg : ∀ {x y}, R x y → Option.Rel S (f x) (g y)) :
    Option.Rel S (a.bind f) (b.bind g) := by
  cases h with
  | none => exact .none
  | some h => exact hfg h

theorem forall₂_filter {α β : Type} {R : α → β → Prop} {p : α → Bool} {q : β → Bool}
    (hpq : ∀ a b, R a b → p a = q b) {as : List α} {bs : List β} (h : List.Forall₂ R as bs) :
    List.Forall₂ R (as.filter p) (bs.filter q) := by
  refine List.rel_filter (fun a b hab => ?_) h
  change p a = true ↔ q b = true
  rw [hpq a b hab]

theorem forall₂_map_eq_iff {α β γ : Type} {f : α → γ} {g : β → γ} {as : List α} {bs : List β} :
    List.Forall₂ (fun a b => f a = g b) as bs ↔ as.map f = bs.map g := by
  rw [← List.forall₂_eq_eq_eq, List.forall₂_map_left_iff, List.forall₂_map_right_iff]

/-- The members that a test refuses do not matter if they give nothing. -/
theorem flatMap_filter_of_nil {α β : Type} {test : α → Bool} {f : α → List β} (as : List α)
    (h : ∀ a, test a = false → f a = []) : (as.filter test).flatMap f = as.flatMap f := by
  induction as with
  | nil => rfl
  | cons a as ih =>
      rw [List.flatMap_cons, ← ih]
      cases ha : test a with
      | true => rw [List.filter_cons_of_pos ha, List.flatMap_cons]
      | false => rw [List.filter_cons_of_neg (by simp [ha]), h a ha, List.nil_append]

namespace Value

variable {R : Value → Value → Prop} {entries entries' : List (Text × Value)}

theorem forall₂_entries (names : entries.map (·.1) = entries'.map (·.1))
    (values : List.Forall₂ R (entries.map (·.2)) (entries'.map (·.2))) :
    List.Forall₂ (fun e e' => e.1 = e'.1 ∧ R e.2 e'.2) entries entries' := by
  induction entries generalizing entries' with
  | nil =>
      rw [List.map_nil, eq_comm, List.map_eq_nil_iff] at names
      rw [names]
      exact .nil
  | cons e entries ih =>
      cases entries' with
      | nil => cases names
      | cons e' entries' =>
          rw [List.map_cons, List.map_cons, List.cons.injEq] at names
          rw [List.map_cons, List.map_cons, List.forall₂_cons] at values
          exact .cons ⟨names.1, values.1⟩ (ih names.2 values.2)

/-- Entries with the same names and related values, one after the other, have related values under
each name. -/
theorem rel_lookup (h : List.Forall₂ (fun e e' => e.1 = e'.1 ∧ R e.2 e'.2) entries entries')
    (name : Text) : Option.Rel R (lookup name entries) (lookup name entries') := by
  induction h with
  | nil => exact .none
  | @cons e e' _ _ he _ ih =>
      by_cases hname : e.1 = name
      · have hname' : e'.1 = name := he.1 ▸ hname
        simpa [lookup, hname, hname'] using he.2
      · have hname' : e'.1 ≠ name := he.1 ▸ hname
        simpa [lookup, hname, hname'] using ih

end Value

namespace Node

/-- Whether a node has attributes: it is a mapping or a record. -/
def hasAttributes (n : Node) : Bool :=
  match n.value with
  | .map _ | .record _ => true
  | _ => false

theorem textAttr?_of_not_hasAttributes {n : Node} (h : n.hasAttributes = false) (name : Text) :
    n.textAttr? name = none := by
  obtain ⟨address, v⟩ := n
  cases v with
  | scalar _ | list _ => rfl
  | map _ | record _ => cases h

theorem name?_of_not_hasAttributes {n : Node} (h : n.hasAttributes = false) : n.name? = none := by
  rw [name?, textAttr?_of_not_hasAttributes h, Option.filter_none]

theorem textAttr?_eq_bind (n : Node) (name : Text) :
    n.textAttr? name = (n.attr? name).bind fun m => m.value.text? := by
  rw [textAttr?, ← attr?_value, Option.bind_map]
  rfl

/-- Where a node starts is read from attributes alone. -/
theorem location_congr {R : Value → Value → Prop}
    (hscalar : ∀ {v w}, R v w → v.scalar? = w.scalar?)
    (hattr : ∀ {v w}, R v w → ∀ name, Option.Rel R (v.attr? name) (w.attr? name)) {n m : Node}
    (h : R n.value m.value) : n.location = m.location := by
  have hcoordinate : ∀ name,
      (((n.value.attr? "loc").bind (·.attr? "start")).bind (·.attr? name)).bind
          Coordinate.ofValue? =
        (((m.value.attr? "loc").bind (·.attr? "start")).bind (·.attr? name)).bind
          Coordinate.ofValue? := by
    intro name
    have hstart := rel_bind (hattr h "loc") fun h => hattr h "start"
    have hvalue := rel_bind hstart fun h => hattr h name
    exact bind_congr_of_rel hvalue fun h => Coordinate.ofValue?_congr (hscalar h)
  exact congrArg₂ Location.mk (hcoordinate "line") (hcoordinate "column")

theorem filter_members (n : Node) (name : Text) :
    (n.members name).filter hasAttributes =
      match n.attr? name with
      | some l => l.items.filter hasAttributes
      | none => [] := by
  unfold members
  cases n.attr? name with
  | none => rfl
  | some l =>
      rw [List.filter_filter]
      refine List.filter_congr fun m _ => ?_
      obtain ⟨address, v⟩ := m
      cases v <;> rfl

end Node

/-- A relation between nodes that no convention looks behind. -/
structure Resemblance (R : Node → Node → Prop) : Prop where
  scalar {n m : Node} : R n m → n.value.scalar? = m.value.scalar?
  attr {n m : Node} : R n m → ∀ name, Node.isPositionKey name = false →
    Option.Rel R (n.attr? name) (m.attr? name)
  items {n m : Node} : R n m →
    List.Forall₂ R (n.items.filter Node.hasAttributes) (m.items.filter Node.hasAttributes)

/-- Remarks with the same words about related nodes. -/
def Remark.Resembles (R : Node → Node → Prop) (r r' : Remark) : Prop :=
  r.message = r'.message ∧ R r.node r'.node

/-- The two remarks that can be made about one name, as far as they are made. -/
theorem Remark.forall₂_two {R : Node → Node → Prop} {r r' s s' : Remark} (hr : Resembles R r r')
    (hs : Resembles R s s') (a b : Bool) :
    List.Forall₂ (Resembles R) ((if a then [] else [r]) ++ (if b then [s] else []))
      ((if a then [] else [r']) ++ (if b then [s'] else [])) := by
  cases a <;> cases b <;> simp [hr, hs]

/-- Diagnostics recorded for such remarks of one rule. -/
def Diagnostic.Resembles (R : Node → Node → Prop) (d d' : Diagnostic) : Prop :=
  ∃ overrides ruleId r r', Remark.Resembles R r r' ∧
    d = Remark.diagnostic overrides ruleId r ∧ d' = Remark.diagnostic overrides ruleId r'

/-- What a finding tells: everything but the node. -/
def Diagnostic.content (d : Diagnostic) :
    Text × Text × Text × Option Coordinate × Option Coordinate :=
  (d.severity, d.ruleId, d.message, d.location.line, d.location.column)

theorem Diagnostic.Resembles.content_eq_of_location {R : Node → Node → Prop}
    (hlocation : ∀ {n m}, R n m → n.location = m.location) {d d' : Diagnostic}
    (h : Resembles R d d') : d.content = d'.content := by
  obtain ⟨overrides, ruleId, r, r', ⟨hmessage, hnode⟩, rfl, rfl⟩ := h
  simp only [content, Remark.diagnostic, Reporter.diagnostic, hmessage, hlocation hnode]

namespace Resemblance

variable {R : Node → Node → Prop} (hR : Resemblance R) {n m : Node}

include hR

theorem textAttr? (h : R n m) (name : Text) (hname : Node.isPositionKey name = false) :
    n.textAttr? name = m.textAttr? name := by
  rw [Node.textAttr?_eq_bind, Node.textAttr?_eq_bind]
  exact bind_congr_of_rel (hR.attr h name hname) fun h => Value.text?_congr (hR.scalar h)

theorem kind? (h : R n m) : n.kind? = m.kind? :=
  hR.textAttr? h _ rfl

theorem name? (h : R n m) : n.name? = m.name? := by
  rw [Node.name?, hR.textAttr? h _ rfl, Node.name?]

theorem isKind (h : R n m) (kind : Text) : n.isKind kind = m.isKind kind := by
  rw [Node.isKind, hR.kind? h, Node.isKind]

theorem isLibrary (h : R n m) : n.isLibrary = m.isLibrary := by
  rw [Node.isLibrary, hR.isKind h, hR.textAttr? h _ rfl, Node.isLibrary]

theorem isDeclaration (h : R n m) : n.isDeclaration = m.isDeclaration :=
  hR.isKind h _

theorem isHidden? (h : R n m) :
    Remark.isHidden? (n.value.attr? "visibility") =
      Remark.isHidden? (m.value.attr? "visibility") := by
  have hrel := hR.attr h "visibility" rfl
  rw [← Node.attr?_value, ← Node.attr?_value]
  generalize n.attr? "visibility" = a, m.attr? "visibility" = b at hrel
  cases hrel with
  | none => rfl
  | some h => exact Remark.isHidden?_congr (hR.scalar h)

theorem members {name : Text} (h : Option.Rel R (n.attr? name) (m.attr? name)) :
    List.Forall₂ R ((n.members name).filter Node.hasAttributes)
      ((m.members name).filter Node.hasAttributes) := by
  rw [Node.filter_members, Node.filter_members]
  generalize n.attr? name = a, m.attr? name = b at h
  cases h with
  | none => exact .nil
  | some h => exact hR.items h

theorem bodyStatements (h : R n m) :
    List.Forall₂ R (n.bodyStatements.filter Node.isDeclaration)
      (m.bodyStatements.filter Node.isDeclaration) := by
  -- A declaration has a kind, so it is among the statements that have attributes.
  have hfilter : ∀ ns : List Node, ns.filter Node.isDeclaration =
      (ns.filter Node.hasAttributes).filter Node.isDeclaration := by
    intro ns
    rw [List.filter_filter]
    refine List.filter_congr fun s _ => ?_
    cases hs : s.hasAttributes with
    | true => rw [Bool.and_true]
    | false =>
        rw [Bool.and_false, Node.isDeclaration, Node.isKind, Node.kind?,
          Node.textAttr?_of_not_hasAttributes hs]
        rfl
  rw [hfilter n.bodyStatements, hfilter m.bodyStatements]
  refine forall₂_filter (fun _ _ hs => hR.isDeclaration hs) ?_
  have hrel := hR.attr h "body" rfl
  unfold Node.bodyStatements
  generalize n.attr? "body" = a, m.attr? "body" = b at hrel
  cases hrel with
  | none => exact .nil
  | some h => exact hR.members (hR.attr h "statements" rfl)

/-- Remarks about the members of related nodes are related if those about related nodes are. -/
theorem flatMap_members {f : Node → List Remark}
    (hf : ∀ {n m}, R n m → List.Forall₂ (Remark.Resembles R) (f n) (f m))
    (hnil : ∀ n : Node, n.name? = none → f n = []) {name : Text}
    (h : Option.Rel R (n.attr? name) (m.attr? name)) :
    List.Forall₂ (Remark.Resembles R) ((n.members name).flatMap f)
      ((m.members name).flatMap f) := by
  have hnil' : ∀ n : Node, n.hasAttributes = false → f n = [] :=
    fun n hn => hnil n (Node.name?_of_not_hasAttributes hn)
  rw [← flatMap_filter_of_nil (n.members name) hnil',
    ← flatMap_filter_of_nil (m.members name) hnil']
  exact List.rel_flatMap (hR.members h) fun _ _ h => hf h

theorem ofParameter (h : R n m) :
    List.Forall₂ (Remark.Resembles R) (Remark.ofParameter n) (Remark.ofParameter m) := by
  rw [Remark.ofParameter, Remark.ofParameter, ← hR.name? h]
  cases n.name? with
  | none => exact .nil
  | some name =>
      refine Remark.forall₂_two ?_ ?_ _ _
      · exact ⟨rfl, h⟩
      · exact ⟨rfl, h⟩

theorem ofLocal (h : R n m) :
    List.Forall₂ (Remark.Resembles R) (Remark.ofLocal n) (Remark.ofLocal m) := by
  rw [Remark.ofLocal, Remark.ofLocal, ← hR.name? h]
  cases n.name? with
  | none => exact .nil
  | some name =>
      refine Remark.forall₂_two ?_ ?_ _ _
      · exact ⟨rfl, h⟩
      · exact ⟨rfl, h⟩

theorem ofParameters {listed : Text} (h : Option.Rel R (n.attr? listed) (m.attr? listed)) :
    List.Forall₂ (Remark.Resembles R) (Remark.ofParameters listed n)
      (Remark.ofParameters listed m) := by
  refine hR.flatMap_members hR.ofParameter ?_ h
  intro n hn
  rw [Remark.ofParameter, hn]

theorem ofBody (h : R n m) :
    List.Forall₂ (Remark.Resembles R) (Remark.ofBody n) (Remark.ofBody m) := by
  refine List.rel_flatMap (hR.bodyStatements h) fun s s' hs => ?_
  refine hR.flatMap_members hR.ofLocal ?_ (hR.attr hs _ rfl)
  intro n hn
  rw [Remark.ofLocal, hn]

theorem ofMember? (h : R n m) :
    Option.Rel (List.Forall₂ (Remark.Resembles R)) (Remark.ofMember? n) (Remark.ofMember? m) := by
  rw [Remark.ofMember?, Remark.ofMember?, ← hR.name? h, ← hR.isHidden? h]
  cases n.name? with
  | none => exact .some .nil
  | some name =>
      cases Remark.isHidden? (n.value.attr? "visibility") with
      | none => exact .none
      | some hidden =>
          refine .some ?_
          dsimp only
          split
          · exact .nil
          · exact .cons ⟨rfl, h⟩ .nil

/-- Conventions say the same of related nodes. -/
theorem remarks? (h : R n m) (c : Convention) (s : Surroundings) :
    Option.Rel (List.Forall₂ (Remark.Resembles R)) (c.remarks? s n) (c.remarks? s m) := by
  have hkinds : n.isKind = m.isKind := funext fun kind => hR.isKind h kind
  cases c with
  | libraryMembers =>
      simp only [Convention.remarks?, hkinds]
      split
      · exact hR.ofMember? h
      · exact .some .nil
  | parameters | returnParameters =>
      simp only [Convention.remarks?, hkinds]
      split
      · exact .some (hR.ofParameters (hR.attr h _ rfl))
      · exact .some .nil
  | localVariables =>
      simp only [Convention.remarks?, hkinds]
      split
      · exact .some (hR.ofBody h)
      · exact .some .nil

end Resemblance

namespace Place

/-- What the nodes above a place say about its surroundings. -/
def surroundings (p : Place) : Surroundings :=
  ⟨p.above.any Node.isLibrary, p.above.any Node.isDeclaration⟩

/-- Places with related nodes, in the same surroundings if a convention looks at them. -/
structure Resembles (R : Node → Node → Prop) (cs : List Convention) (p q : Place) : Prop where
  node : R p.node q.node
  surroundings : .libraryMembers ∈ cs → p.surroundings = q.surroundings

theorem Resembles.child {R : Node → Node → Prop} (hR : Resemblance R) {cs : List Convention}
    {p q : Place} (h : Resembles R cs p q) {n m : Node} (hnm : R n m) :
    Resembles R cs ⟨n, p.node :: p.above⟩ ⟨m, q.node :: q.above⟩ := by
  refine ⟨hnm, fun hcs => ?_⟩
  have hsurroundings := h.surroundings hcs
  simp only [Place.surroundings, Surroundings.mk.injEq, List.any_cons] at hsurroundings ⊢
  rw [hsurroundings.1, hsurroundings.2, hR.isLibrary h.node, hR.isDeclaration h.node]
  exact ⟨rfl, rfl⟩

theorem Resembles.answersOf {R : Node → Node → Prop} (hR : Resemblance R) {cs : List Convention}
    {p q : Place} (h : Resembles R cs p q) (overrides : List (Text × Text)) :
    List.Forall₂ (Option.Rel (List.Forall₂ (Diagnostic.Resembles R)))
      (p.answersOf overrides cs) (q.answersOf overrides cs) := by
  unfold Place.answersOf
  rw [List.forall₂_map_left_iff, List.forall₂_map_right_iff, List.forall₂_same]
  intro c hc
  have hremarks : Option.Rel (List.Forall₂ (Remark.Resembles R)) (p.remarks? c)
      (q.remarks? c) := by
    have hsame : p.remarks? c = c.remarks? q.surroundings p.node := by
      by_cases hlibrary : c = .libraryMembers
      · rw [← h.surroundings (hlibrary ▸ hc)]
        rfl
      · exact Convention.remarks?_of_ne hlibrary ..
    rw [hsame]
    exact hR.remarks? h.node c q.surroundings
  generalize p.remarks? c = a, q.remarks? c = b at hremarks
  cases hremarks with
  | none => exact .none
  | some hremarks =>
      refine .some ?_
      rw [List.forall₂_map_left_iff, List.forall₂_map_right_iff]
      exact hremarks.imp fun r r' hr => ⟨overrides, c.id, r, r', hr, rfl, rfl⟩

end Place

/-- Lists that are related member by member once the first is put into another order. -/
def Shuffled {α β : Type} (R : α → β → Prop) (as : List α) (bs : List β) : Prop :=
  ∃ mid, as.Perm mid ∧ List.Forall₂ R mid bs

namespace Shuffled

variable {α β γ δ : Type} {R : α → β → Prop} {S : γ → δ → Prop}

theorem of_forall₂ {as : List α} {bs : List β} (h : List.Forall₂ R as bs) : Shuffled R as bs :=
  ⟨as, .refl as, h⟩

theorem append {as as' : List α} {bs bs' : List β} (h : Shuffled R as bs)
    (h' : Shuffled R as' bs') : Shuffled R (as ++ as') (bs ++ bs') := by
  obtain ⟨mid, hperm, hmid⟩ := h
  obtain ⟨mid', hperm', hmid'⟩ := h'
  exact ⟨mid ++ mid', hperm.append hperm', List.rel_append hmid hmid'⟩

theorem and_left {P : α → Prop} {as : List α} {bs : List β} (hP : ∀ a ∈ as, P a)
    (h : Shuffled R as bs) : Shuffled (fun a b => P a ∧ R a b) as bs := by
  obtain ⟨mid, hperm, hmid⟩ := h
  exact ⟨mid, hperm, (List.forall₂_and_left _ _).2 ⟨fun a ha => hP a (hperm.mem_iff.2 ha), hmid⟩⟩

theorem flatMap {f : α → List γ} {g : β → List δ} {as : List α} {bs : List β}
    (h : Shuffled R as bs) (hfg : ∀ {a b}, R a b → Shuffled S (f a) (g b)) :
    Shuffled S (as.flatMap f) (bs.flatMap g) := by
  obtain ⟨mid, hperm, hmid⟩ := h
  have hmid' : Shuffled S (mid.flatMap f) (bs.flatMap g) := by
    clear hperm
    induction hmid with
    | nil => exact of_forall₂ .nil
    | cons hab _ ih =>
        rw [List.flatMap_cons, List.flatMap_cons]
        exact append (hfg hab) ih
  obtain ⟨last, hperm', hlast⟩ := hmid'
  exact ⟨last, (hperm.flatMap_right f).trans hperm', hlast⟩

end Shuffled

namespace Resemblance

variable {R : Node → Node → Prop} (hR : Resemblance R) {cs : List Convention}

include hR

/-- If related nodes have related children in the same order, so have their trees. -/
theorem forall₂_preorder (hchildren : ∀ {n m}, R n m → List.Forall₂ R n.children m.children)
    {p q : Place} (h : Place.Resembles R cs p q) :
    List.Forall₂ (Place.Resembles R cs) p.preorder q.preorder := by
  induction p using Place.below_induction generalizing q with
  | step p ih =>
      have hbelow : List.Forall₂ (Place.Resembles R cs) p.below q.below := by
        rw [Place.below, Place.below, List.forall₂_map_left_iff, List.forall₂_map_right_iff]
        exact (hchildren h.node).imp fun n m hnm => h.child hR hnm
      rw [Place.preorder_eq, Place.preorder_eq]
      refine .cons h (List.rel_flatMap ((List.forall₂_and_left _ _).2 ⟨ih, hbelow⟩) ?_)
      exact fun b b' hb => hb.1 hb.2

/-- If they have related children in some order, so have their trees. -/
theorem shuffled_preorder (hchildren : ∀ {n m}, R n m → Shuffled R n.children m.children)
    {p q : Place} (h : Place.Resembles R cs p q) :
    Shuffled (Place.Resembles R cs) p.preorder q.preorder := by
  induction p using Place.below_induction generalizing q with
  | step p ih =>
      have hbelow : Shuffled (Place.Resembles R cs) p.below q.below := by
        obtain ⟨mid, hperm, hmid⟩ := hchildren h.node
        refine ⟨mid.map fun c => ⟨c, p.node :: p.above⟩, hperm.map _, ?_⟩
        rw [Place.below, List.forall₂_map_left_iff, List.forall₂_map_right_iff]
        exact hmid.imp fun n m hnm => h.child hR hnm
      rw [Place.preorder_eq, Place.preorder_eq, ← List.singleton_append,
        ← List.singleton_append (l := q.below.flatMap _)]
      refine .append (.of_forall₂ (.cons h .nil)) ((hbelow.and_left ih).flatMap ?_)
      exact fun hb => hb.1 hb.2

/-- Then both trees are visited at as many places, -/
theorem visited (hchildren : ∀ {n m}, R n m → List.Forall₂ R n.children m.children)
    {p q : Place} (h : Place.Resembles R cs p q) : p.visited = q.visited := by
  have hpreorder := hR.forall₂_preorder hchildren h
  unfold Place.visited
  generalize p.preorder = ps, q.preorder = qs at hpreorder
  induction hpreorder with
  | nil => rfl
  | cons hpq _ ih => rw [List.countP_cons, List.countP_cons, ih, hR.kind? hpq.node]

/-- and the answers are related one by one. -/
theorem forall₂_answers (hchildren : ∀ {n m}, R n m → List.Forall₂ R n.children m.children)
    (overrides : List (Text × Text)) {p q : Place} (h : Place.Resembles R cs p q) :
    List.Forall₂ (Option.Rel (List.Forall₂ (Diagnostic.Resembles R)))
      (p.preorder.flatMap (Place.answersOf overrides cs))
      (q.preorder.flatMap (Place.answersOf overrides cs)) :=
  List.rel_flatMap (hR.forall₂_preorder hchildren h) fun _ _ h => h.answersOf hR overrides

theorem shuffled_answers (hchildren : ∀ {n m}, R n m → Shuffled R n.children m.children)
    (overrides : List (Text × Text)) {p q : Place} (h : Place.Resembles R cs p q) :
    Shuffled (Option.Rel (List.Forall₂ (Diagnostic.Resembles R)))
      (p.preorder.flatMap (Place.answersOf overrides cs))
      (q.preorder.flatMap (Place.answersOf overrides cs)) :=
  (hR.shuffled_preorder hchildren h).flatMap fun h => .of_forall₂ (h.answersOf hR overrides)

end Resemblance

section Answers

variable {S : Diagnostic → Diagnostic → Prop} {answers answers' : List Answer}

/-- Related answers are missing alike. -/
theorem verdict_of_shuffled (h : Shuffled (Option.Rel (List.Forall₂ S)) answers answers') :
    verdict answers = verdict answers' := by
  obtain ⟨mid, hperm, hmid⟩ := h
  have hall : mid.all Option.isSome = answers'.all Option.isSome := by
    clear hperm
    induction hmid with
    | nil => rfl
    | cons hab _ ih =>
        rw [List.all_cons, List.all_cons, ih]
        cases hab <;> rfl
  rw [verdict, hperm.all_eq, hall, verdict]

theorem forall₂_getD {a b : Answer} (h : Option.Rel (List.Forall₂ S) a b) :
    List.Forall₂ S (a.getD []) (b.getD []) := by
  cases h with
  | none => exact .nil
  | some h => exact h

theorem forall₂_found (h : List.Forall₂ (Option.Rel (List.Forall₂ S)) answers answers') :
    List.Forall₂ S (found answers) (found answers') :=
  List.rel_flatMap h fun _ _ h => forall₂_getD h

theorem shuffled_found (h : Shuffled (Option.Rel (List.Forall₂ S)) answers answers') :
    Shuffled S (found answers) (found answers') :=
  h.flatMap fun h => .of_forall₂ (forall₂_getD h)

end Answers

end UnderscoreLint
