import UnderscoreLint.Proofs.Resemblance

/-!
# Gaps in lists

A list of a tree may have gaps: items that are no nodes, such as the absent items of a tuple.
`Value.Gapped v w` says that `w` is `v` with gaps put into its lists, any number of them, at any
depth and at any place. A gap is a scalar or a list; what is in such a list does not matter.

Gaps shift the positions of the items behind them, so nodes that differ by gaps only are at
different addresses. Nothing but the address tells them apart: the walk takes the mappings out of a
list, the conventions take the items that have a name or a kind, and a gap is neither. So this is a
resemblance with the same children in the same order.
-/

namespace UnderscoreLint

namespace Value

def isGap : Value → Bool
  | .scalar _ | .list _ => true
  | .map _ | .record _ => false

/-- The second list is the first with gaps put in. -/
inductive WithGaps : List Value → List Value → Prop where
  | nil : WithGaps [] []
  | keep (v : Value) {vs ws : List Value} (h : WithGaps vs ws) : WithGaps (v :: vs) (v :: ws)
  | gap {v : Value} {vs ws : List Value} (hv : v.isGap = true) (h : WithGaps vs ws) :
      WithGaps vs (v :: ws)

/-- The second value is the first with gaps put into its lists, at any depth. -/
inductive Gapped : Value → Value → Prop where
  | scalar (s : Scalar) : Gapped (.scalar s) (.scalar s)
  | list {items kept items' : List Value} (same : List.Forall₂ Gapped items kept)
      (gaps : WithGaps kept items') : Gapped (.list items) (.list items')
  | map {entries entries' : List (Text × Value)}
      (names : entries.map (·.1) = entries'.map (·.1))
      (values : List.Forall₂ Gapped (entries.map (·.2)) (entries'.map (·.2))) :
      Gapped (.map entries) (.map entries')
  | record {entries entries' : List (Text × Value)}
      (names : entries.map (·.1) = entries'.map (·.1))
      (values : List.Forall₂ Gapped (entries.map (·.2)) (entries'.map (·.2))) :
      Gapped (.record entries) (.record entries')

theorem WithGaps.filter_eq {vs ws : List Value} (h : WithGaps vs ws) {test : Value → Bool}
    (htest : ∀ v, v.isGap = true → test v = false) : vs.filter test = ws.filter test := by
  induction h with
  | nil => rfl
  | keep v _ ih => simp [List.filter_cons, ih]
  | gap hv _ ih => simp [htest _ hv, ih]

theorem WithGaps.refl (vs : List Value) : WithGaps vs vs := by
  induction vs with
  | nil => exact .nil
  | cons v vs ih => exact .keep v ih

namespace Gapped

variable {v w : Value}

mutual

theorem refl : (v : Value) → v.Gapped v
  | .scalar s => .scalar s
  | .list items => .list (forall₂_items_refl items) (.refl items)
  | .map entries => .map rfl (forall₂_values_refl entries)
  | .record entries => .record rfl (forall₂_values_refl entries)

theorem forall₂_items_refl : (items : List Value) → List.Forall₂ Gapped items items
  | [] => .nil
  | v :: items => .cons (refl v) (forall₂_items_refl items)

theorem forall₂_values_refl : (entries : List (Text × Value)) →
    List.Forall₂ Gapped (entries.map (·.2)) (entries.map (·.2))
  | [] => .nil
  | (_, v) :: entries => .cons (refl v) (forall₂_values_refl entries)

end

theorem scalar? (h : v.Gapped w) : v.scalar? = w.scalar? := by
  cases h <;> rfl

theorem isMap (h : v.Gapped w) : v.isMap = w.isMap := by
  cases h <;> rfl

theorem isGap (h : v.Gapped w) : v.isGap = w.isGap := by
  cases h <;> rfl

theorem attr? (h : v.Gapped w) (name : Text) :
    Option.Rel Gapped (v.attr? name) (w.attr? name) := by
  cases h with
  | scalar _ | list _ _ => exact .none
  | map names values | record names values => exact rel_lookup (forall₂_entries names values) name

/-- What a test that refuses gaps leaves of the items is the same on both sides. -/
theorem forall₂_filter_items {items items' : List Value}
    (h : (Value.list items).Gapped (.list items')) {test : Value → Bool}
    (hgap : ∀ v, v.isGap = true → test v = false)
    (htest : ∀ v w, v.Gapped w → test v = test w) :
    List.Forall₂ Gapped (items.filter test) (items'.filter test) := by
  cases h with
  | list same gaps =>
      rw [← gaps.filter_eq hgap]
      exact forall₂_filter htest same

end Gapped

end Value

namespace Node

/-- Nodes that are the same up to gaps, at whatever addresses. -/
def Gapped (n m : Node) : Prop :=
  n.value.Gapped m.value

theorem hasAttributes_eq (n : Node) : n.hasAttributes = !n.value.isGap := by
  obtain ⟨address, v⟩ := n
  cases v <;> rfl

theorem map_value_filter_number (address : Address) (i : Nat) (vs : List Value)
    (test : Value → Bool) :
    ((number address i vs).filter fun n => test n.value).map value = vs.filter test := by
  have hfilter := List.filter_map (f := value) (p := test) (l := number address i vs)
  rw [map_value_number] at hfilter
  exact hfilter.symm

theorem forall₂_filter_number {items items' : List Value}
    (h : (Value.list items).Gapped (.list items')) (a b : Address) (test : Value → Bool)
    (hgap : ∀ v, v.isGap = true → test v = false)
    (htest : ∀ v w, v.Gapped w → test v = test w) :
    List.Forall₂ Gapped ((number a 0 items).filter fun n => test n.value)
      ((number b 0 items').filter fun n => test n.value) := by
  have hvalues := h.forall₂_filter_items hgap htest
  rw [← map_value_filter_number a 0 items, ← map_value_filter_number b 0 items',
    List.forall₂_map_left_iff, List.forall₂_map_right_iff] at hvalues
  exact hvalues

namespace Gapped

variable {n m : Node}

theorem attr? (h : n.Gapped m) (name : Text) :
    Option.Rel Gapped (n.attr? name) (m.attr? name) := by
  have hvalue := Value.Gapped.attr? h name
  unfold Node.attr?
  generalize n.value.attr? name = a, m.value.attr? name = b at hvalue
  cases hvalue with
  | none => exact .none
  | some h => exact .some h

theorem items (h : n.Gapped m) :
    List.Forall₂ Gapped (n.items.filter hasAttributes) (m.items.filter hasAttributes) := by
  obtain ⟨a, v⟩ := n
  obtain ⟨b, w⟩ := m
  rw [funext hasAttributes_eq]
  have hlists : v.Gapped w := h
  cases hlists with
  | list same gaps =>
      refine forall₂_filter_number (.list same gaps) a b (fun v => !v.isGap) ?_ ?_
      · simp
      · intro v w h
        rw [h.isGap]
  | _ => exact .nil

theorem forall₂_childrenAt (a b : Address) (name : Text) {v w : Value} (h : v.Gapped w) :
    List.Forall₂ Gapped (childrenAt a (name, v)) (childrenAt b (name, w)) := by
  unfold childrenAt
  split
  · exact .nil
  · cases h with
    | scalar _ | record _ _ => exact .nil
    | map names values => exact .cons (Value.Gapped.map names values) .nil
    | list same gaps =>
        refine forall₂_filter_number (.list same gaps) _ _ Value.isMap ?_ ?_
        · intro v hv
          cases v <;> simp_all [Value.isGap, Value.isMap]
        · intro v w h
          exact h.isMap

/-- The children are the same in the same order. -/
theorem forall₂_children (h : n.Gapped m) : List.Forall₂ Gapped n.children m.children := by
  obtain ⟨a, v⟩ := n
  obtain ⟨b, w⟩ := m
  have hvalues : v.Gapped w := h
  cases hvalues with
  | map names values =>
      refine List.rel_flatMap (Value.forall₂_entries names values) ?_
      rintro ⟨name, v⟩ ⟨_, w⟩ ⟨rfl, hvw⟩
      exact forall₂_childrenAt a b name hvw
  | _ => exact .nil

theorem location (h : n.Gapped m) : n.location = m.location :=
  location_congr (fun h => h.scalar?) (fun h => h.attr?) h

end Gapped

theorem resemblance_gapped : Resemblance Gapped where
  scalar h := Value.Gapped.scalar? h
  attr h name _ := h.attr? name
  items h := h.items

end Node

/-- Putting gaps into the lists of a mapping changes nothing: linting it fails for the same reason
as before, or it returns the same findings in the same order. The same number of nodes is
visited. -/
theorem lintTree_eq_of_gapped (s : Settings) {entries entries' : List (Text × Value)}
    (h : (Value.map entries).Gapped (.map entries')) (log log' : Log) :
    Alike (fun ds ds' => ds.map Diagnostic.content = ds'.map Diagnostic.content)
        ((lintTree s (.map entries)).runFrom log).1
        ((lintTree s (.map entries')).runFrom log').1 ∧
      ∀ rules, Rule.create (some { overrides := s.overrides }) s.enabled [] = .ok rules →
        (analyse rules s.overrides (.map entries)).1 =
          (analyse rules s.overrides (.map entries')).1 := by
  have htop : Place.Resembles Node.Gapped s.conventions (Place.top ⟨[], .map entries⟩)
      (Place.top ⟨[], .map entries'⟩) := ⟨h, fun _ => rfl⟩
  have hanswers := Node.resemblance_gapped.forall₂_answers
    (fun h => h.forall₂_children) s.overrides htop
  have hverdict := verdict_of_shuffled (.of_forall₂ hanswers)
  constructor
  · refine alike_lintTree s rfl rfl hverdict ?_ log log'
    rw [← forall₂_map_eq_iff]
    exact (forall₂_found hanswers).imp fun _ _ hd =>
      hd.content_eq_of_location Node.Gapped.location
  · intro rules hrules
    rw [(Settings.analyse_of_create hrules rfl).1, (Settings.analyse_of_create hrules rfl).1]
    have hvisited := Node.resemblance_gapped.visited (fun h => h.forall₂_children) htop
    rw [hvisited]
    exact congrArg _ hverdict

/-- A function with a parameter and a local variable, in lists that are made by `wrap`. -/
def functionInLists (wrap : Value → Value) : List (Text × Value) := [
  ("type", .text "FunctionDefinition"), ("name", .text "f"),
  ("parameters", wrap (.map [("name", .text "x")])),
  ("body", .map [("statements", wrap (.map [
    ("type", .text "VariableDeclarationStatement"),
    ("variables", wrap (.map [("type", .text "VariableDeclaration"), ("name", .text "i"),
      ("loc", .map [("start", .map [("line", .scalar (.int 3))])])]))]))])]

/-- A list with one item between gaps. The second gap has nodes in it, but it is a list. -/
def betweenGaps (v : Value) : Value :=
  .list [.null, v, .list [.map [("type", .text "FunctionDefinition"), ("name", .text "g"),
    ("parameters", .list [.map [("name", .text "y")]])]]]

theorem gapped_functionInLists :
    (Value.map (functionInLists fun v => .list [v])).Gapped
      (.map (functionInLists betweenGaps)) := by
  have hwrap : ∀ {v w : Value}, v.Gapped w → (Value.list [v]).Gapped (betweenGaps w) := by
    intro v w h
    exact .list (.cons h .nil) (.gap rfl (.keep w (.gap rfl .nil)))
  refine .map rfl (.cons (.refl _) (.cons (.refl _) (.cons (hwrap (.refl _)) (.cons ?_ .nil))))
  refine .map rfl (.cons (hwrap ?_) .nil)
  exact .map rfl (.cons (.refl _) (.cons (hwrap (.refl _)) .nil))

theorem lintTree_eq_of_gapped_functionInLists :
    let s : Settings := ⟨none, []⟩
    let entries := functionInLists fun v => .list [v]
    let entries' := functionInLists betweenGaps
    (Value.map entries).Gapped (.map entries') ∧
    ∃ ds ds', ((lintTree s (.map entries)).runFrom #[]).1 = .ok ds ∧
      ((lintTree s (.map entries')).runFrom #[]).1 = .ok ds' ∧
      ds.map (fun d => (d.message, d.location.line)) =
        ([("'x' should end with _", none), ("'i' should start with _", some (.int 3))] :
          List (Text × Option Coordinate)) ∧
      ds.map Diagnostic.content = ds'.map Diagnostic.content := by
  intro s entries entries'
  have hfound : ((lintTree s (.map entries)).runFrom #[]).1.toOption.map
      (List.map fun d => (d.message, d.location.line)) =
        some ([("'x' should end with _", none), ("'i' should start with _", some (.int 3))] :
          List (Text × Option Coordinate)) := by
    decide +kernel
  obtain ⟨ds, hds, hfound⟩ := exists_ok_of_toOption hfound
  have halike := (lintTree_eq_of_gapped s gapped_functionInLists #[] #[]).1
  rw [hds] at halike
  cases hds' : ((lintTree s (.map entries')).runFrom #[]).1 with
  | error e =>
      rw [hds'] at halike
      cases halike
  | ok ds' =>
      rw [hds'] at halike
      cases halike with
      | ok hcontent => exact ⟨gapped_functionInLists, ds, ds', hds, rfl, hfound, hcontent⟩

end UnderscoreLint
