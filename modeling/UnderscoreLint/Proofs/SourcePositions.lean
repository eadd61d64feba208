import UnderscoreLint.Proofs.Resemblance

/-!
# Source positions

`Value.withoutPositions` takes the source positions out of a value, at any depth and whatever is
recorded there. It commutes with everything that a convention reads from a node and with going to
the children, so two nodes that are equal without their source positions resemble each other. Trees
of this kind are walked alike and the same is found in them. Source positions are only ever read to
say where a finding is.
-/

namespace UnderscoreLint

theorem rel_of_map_eq {α β : Type} {f : α → β} {a b : Option α} (h : a.map f = b.map f) :
    Option.Rel (fun x y => f x = f y) a b := by
  cases a with
  | none =>
      rw [Option.map_none, eq_comm, Option.map_eq_none_iff] at h
      rw [h]
      exact .none
  | some x =>
      rw [Option.map_some, eq_comm, Option.map_eq_some_iff] at h
      obtain ⟨y, rfl, hy⟩ := h
      exact .some hy.symm

namespace Value

mutual

/-- The value without the source positions in it. -/
def withoutPositions : Value → Value
  | .scalar s => .scalar s
  | .list items => .list (itemsWithoutPositions items)
  | .map entries => .map (entriesWithoutPositions entries)
  | .record entries => .record (entriesWithoutPositions entries)

/-- The items of a list without the source positions in them. -/
def itemsWithoutPositions : List Value → List Value
  | [] => []
  | v :: rest => v.withoutPositions :: itemsWithoutPositions rest

/-- The entries that are no source positions, without the source positions in them. -/
def entriesWithoutPositions : List (Text × Value) → List (Text × Value)
  | [] => []
  | (name, v) :: rest =>
    if Node.isPositionKey name then entriesWithoutPositions rest
    else (name, v.withoutPositions) :: entriesWithoutPositions rest

end

theorem itemsWithoutPositions_eq_map (items : List Value) :
    itemsWithoutPositions items = items.map withoutPositions := by
  induction items with
  | nil => rfl
  | cons v rest ih => rw [itemsWithoutPositions, ih, List.map_cons]

theorem lookup_entriesWithoutPositions (entries : List (Text × Value)) {name : Text}
    (hname : Node.isPositionKey name = false) :
    lookup name (entriesWithoutPositions entries) =
      (lookup name entries).map withoutPositions := by
  induction entries with
  | nil => rfl
  | cons e rest ih =>
      obtain ⟨other, v⟩ := e
      rw [entriesWithoutPositions]
      by_cases hother : other = name
      · simp [hother, hname, lookup]
      · have hrest : lookup name ((other, v) :: rest) = lookup name rest := by
          simp [lookup, hother]
        rw [hrest, ← ih]
        split
        · rfl
        · simp [lookup, hother]

theorem attr?_withoutPositions (v : Value) {name : Text}
    (hname : Node.isPositionKey name = false) :
    v.withoutPositions.attr? name = (v.attr? name).map withoutPositions := by
  cases v with
  | scalar _ | list _ => rfl
  | map entries | record entries => exact lookup_entriesWithoutPositions entries hname

theorem scalar?_withoutPositions (v : Value) : v.withoutPositions.scalar? = v.scalar? := by
  cases v <;> rfl

theorem isMap_withoutPositions (v : Value) : v.withoutPositions.isMap = v.isMap := by
  cases v <;> rfl

end Value

namespace Node

/-- The node without the source positions in it. -/
def withoutPositions (n : Node) : Node :=
  ⟨n.address, n.value.withoutPositions⟩

theorem attr?_withoutPositions (n : Node) {name : Text} (hname : isPositionKey name = false) :
    n.withoutPositions.attr? name = (n.attr? name).map withoutPositions := by
  rw [attr?, withoutPositions, Value.attr?_withoutPositions _ hname, attr?, Option.map_map,
    Option.map_map]
  rfl

theorem number_withoutPositions (address : Address) (i : Nat) (vs : List Value) :
    number address i (vs.map Value.withoutPositions) =
      (number address i vs).map withoutPositions := by
  induction vs generalizing i with
  | nil => rfl
  | cons v vs ih => rw [List.map_cons, number, ih, number, List.map_cons, withoutPositions]

theorem items_withoutPositions (n : Node) :
    n.withoutPositions.items = n.items.map withoutPositions := by
  obtain ⟨address, v⟩ := n
  cases v with
  | list vs =>
      change number address 0 (Value.itemsWithoutPositions vs) = _
      rw [Value.itemsWithoutPositions_eq_map, number_withoutPositions]
      rfl
  | _ => rfl

theorem hasAttributes_withoutPositions (n : Node) :
    n.withoutPositions.hasAttributes = n.hasAttributes := by
  obtain ⟨address, v⟩ := n
  cases v <;> rfl

theorem childrenAt_withoutPositions (address : Address) (name : Text) (v : Value) :
    childrenAt address (name, v.withoutPositions) =
      (childrenAt address (name, v)).map withoutPositions := by
  unfold childrenAt
  split
  · rfl
  · cases v with
    | list vs =>
        have hitems := items_withoutPositions ⟨address ++ [.key name], .list vs⟩
        change List.filter _ (items (withoutPositions ⟨address ++ [.key name], .list vs⟩)) = _
        rw [hitems, List.filter_map]
        refine congrArg (List.map withoutPositions) (List.filter_congr fun m _ => ?_)
        exact m.value.isMap_withoutPositions
    | _ => rfl

/-- The children of a node without source positions are its children without theirs. -/
theorem children_withoutPositions (n : Node) :
    n.withoutPositions.children = n.children.map withoutPositions := by
  obtain ⟨address, v⟩ := n
  cases v with
  | map entries =>
      change (Value.entriesWithoutPositions entries).flatMap (childrenAt address) =
        (entries.flatMap (childrenAt address)).map withoutPositions
      induction entries with
      | nil => rfl
      | cons e rest ih =>
          obtain ⟨name, v⟩ := e
          rw [Value.entriesWithoutPositions, List.flatMap_cons, List.map_append, ← ih,
            ← childrenAt_withoutPositions]
          split
          · -- A source position has no children, so it can be taken out or not.
            rename_i hname
            rw [childrenAt, if_pos hname, List.nil_append]
          · rw [List.flatMap_cons]
  | _ => rfl

theorem resemblance_withoutPositions :
    Resemblance fun n m => n.withoutPositions = m.withoutPositions where
  scalar {n m} h := by
    rw [← Value.scalar?_withoutPositions, ← m.value.scalar?_withoutPositions]
    exact congrArg (fun n => n.value.scalar?) h
  attr {n m} h name hname := by
    refine rel_of_map_eq ?_
    rw [← attr?_withoutPositions n hname, h, attr?_withoutPositions m hname]
  items {n m} h := by
    refine forall₂_filter (fun n m h => ?_) (forall₂_map_eq_iff.2 ?_)
    · rw [← n.hasAttributes_withoutPositions, h, m.hasAttributes_withoutPositions]
    · rw [← items_withoutPositions, h, items_withoutPositions]

theorem forall₂_children_withoutPositions {n m : Node}
    (h : n.withoutPositions = m.withoutPositions) :
    List.Forall₂ (fun n m => n.withoutPositions = m.withoutPositions) n.children m.children := by
  rw [forall₂_map_eq_iff, ← children_withoutPositions, h, children_withoutPositions]

end Node

/-- Findings that agree in everything but where they are in the source. -/
structure Diagnostic.Agrees (d d' : Diagnostic) : Prop where
  severity : d.severity = d'.severity
  ruleId : d.ruleId = d'.ruleId
  message : d.message = d'.message
  kind : d.node.kind? = d'.node.kind?
  address : d.node.address = d'.node.address

theorem Diagnostic.Resembles.agrees {d d' : Diagnostic}
    (h : Resembles (fun n m => n.withoutPositions = m.withoutPositions) d d') : d.Agrees d' := by
  obtain ⟨overrides, ruleId, r, r', ⟨hmessage, hnode⟩, rfl, rfl⟩ := h
  exact {
    severity := rfl
    ruleId := rfl
    message := hmessage
    kind := Node.resemblance_withoutPositions.kind? hnode
    address := (Node.mk.inj hnode).1 }

/-- Two mappings that are equal without their source positions are linted alike: linting them fails
for the same reason, or the findings agree one by one. The same number of nodes is visited. -/
theorem lintTree_agrees_of_withoutPositions (s : Settings)
    {entries entries' : List (Text × Value)}
    (h : (Value.map entries).withoutPositions = (Value.map entries').withoutPositions)
    (log log' : Log) :
    Alike (List.Forall₂ Diagnostic.Agrees) ((lintTree s (.map entries)).runFrom log).1
        ((lintTree s (.map entries')).runFrom log').1 ∧
      ∀ rules, Rule.create (some { overrides := s.overrides }) s.enabled [] = .ok rules →
        (analyse rules s.overrides (.map entries)).1 =
          (analyse rules s.overrides (.map entries')).1 := by
  have htop : Place.Resembles (fun n m => n.withoutPositions = m.withoutPositions) s.conventions
      (Place.top ⟨[], .map entries⟩) (Place.top ⟨[], .map entries'⟩) :=
    ⟨congrArg (Node.mk []) h, fun _ => rfl⟩
  have hanswers := Node.resemblance_withoutPositions.forall₂_answers
    Node.forall₂_children_withoutPositions s.overrides htop
  have hverdict := verdict_of_shuffled (.of_forall₂ hanswers)
  constructor
  · refine alike_lintTree s rfl rfl hverdict ?_ log log'
    exact (forall₂_found hanswers).imp fun _ _ hd => hd.agrees
  · intro rules hrules
    rw [(Settings.analyse_of_create hrules rfl).1, (Settings.analyse_of_create hrules rfl).1]
    have hvisited := Node.resemblance_withoutPositions.visited
      Node.forall₂_children_withoutPositions htop
    rw [hvisited]
    exact congrArg _ hverdict

/-- A function whose source positions look like parts of the tree, -/
def positionsLikeNodes : List (Text × Value) := [
  ("type", .text "FunctionDefinition"), ("name", .text "f"),
  ("range", .list [.map [("type", .text "EventDefinition"),
    ("parameters", .list [.map [("name", .text "y")]])]]),
  ("parameters", .list [.map [("type", .text "VariableDeclaration"), ("name", .text "x"),
    ("loc", .map [("type", .text "FunctionDefinition"),
      ("parameters", .list [.map [("name", .text "z")]]),
      ("start", .map [("line", .scalar (.int 3))])])]])]

/-- and the same function with other source positions. -/
def positionsAbsent : List (Text × Value) := [
  ("loc", .text "unknown"), ("type", .text "FunctionDefinition"), ("name", .text "f"),
  ("parameters", .list [.map [("type", .text "VariableDeclaration"), ("name", .text "x")]])]

theorem lintTree_agrees_of_withoutPositions_absent :
    let s : Settings := ⟨none, []⟩
    (Value.map positionsLikeNodes).withoutPositions = (Value.map positionsAbsent).withoutPositions ∧
    ∃ ds ds', ((lintTree s (.map positionsLikeNodes)).runFrom #[]).1 = .ok ds ∧
      ((lintTree s (.map positionsAbsent)).runFrom #[]).1 = .ok ds' ∧
      ds.map (fun d => (d.message, d.location.line)) =
        [(("'x' should end with _" : Text), some (.int 3))] ∧
      ds'.map (fun d => (d.message, d.location.line)) =
        [(("'x' should end with _" : Text), none)] ∧
      List.Forall₂ Diagnostic.Agrees ds ds' := by
  intro s
  have hequal : (Value.map positionsLikeNodes).withoutPositions =
      (Value.map positionsAbsent).withoutPositions := by
    rfl
  have hline : ((lintTree s (.map positionsLikeNodes)).runFrom #[]).1.toOption.map
      (List.map fun d => (d.message, d.location.line)) =
        some [(("'x' should end with _" : Text), some (.int 3))] := by
    decide +kernel
  have hline' : ((lintTree s (.map positionsAbsent)).runFrom #[]).1.toOption.map
      (List.map fun d => (d.message, d.location.line)) =
        some [(("'x' should end with _" : Text), none)] := by
    decide +kernel
  obtain ⟨ds, hds, hline⟩ := exists_ok_of_toOption hline
  obtain ⟨ds', hds', hline'⟩ := exists_ok_of_toOption hline'
  have halike := (lintTree_agrees_of_withoutPositions s hequal #[] #[]).1
  rw [hds, hds'] at halike
  cases halike with
  | ok hagrees => exact ⟨hequal, ds, ds', hds, hds', hline, hline', hagrees⟩

end UnderscoreLint
