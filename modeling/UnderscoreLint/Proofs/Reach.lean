import UnderscoreLint.Lint.Tree
import UnderscoreLint.Proofs.Address

/-!
# What a walk reaches

From a mapping a walk goes on to the mappings under its names, and to those among the items of a
list under one of its names. So the addresses it follows are made of names, each with at most one
position behind it, and none of the names is one of a source position: `Address.Followed`. Every
mapping at such an address is entered (`Place.exists_of_followed`), and nothing else is
(`Place.followed_of_mem_preorder`). Since no two places of a walk have the same address, a mapping
that is entered is entered once.

What is left out on purpose is what stands in a source position. What is left out beside that is
whatever stands in a list that is itself an item of a list. A node in there is missed.
-/

namespace UnderscoreLint

/-- Where keys are distinct, the members with the key of a member are this member alone. -/
theorem filter_key_eq_singleton {α κ : Type} [DecidableEq κ] {key : α → κ} {as : List α} {a : α}
    (h : (as.map key).Nodup) (ha : a ∈ as) : as.filter (fun b => key b = key a) = [a] := by
  induction as with
  | nil => cases ha
  | cons b as ih =>
      rw [List.map_cons, List.nodup_cons] at h
      rcases List.mem_cons.1 ha with rfl | ha
      · have hrest : as.filter (fun b => key b = key a) = [] := by
          rw [List.filter_eq_nil_iff]
          intro b hb hkey
          exact h.1 (of_decide_eq_true hkey ▸ List.mem_map_of_mem hb)
        rw [List.filter_cons_of_pos (by simp), hrest]
      · have hne : key b ≠ key a := fun hkey => h.1 (hkey ▸ List.mem_map_of_mem ha)
        rw [List.filter_cons_of_neg (by simpa using hne), ih h.2 ha]

/-- Whether a step leads into a source position. -/
def Step.isPosition : Step → Bool
  | .key name => Node.isPositionKey name
  | .index _ => false

namespace Address

/-- Whether an address leads into a source position, at any of its steps. -/
def isInPosition (a : Address) : Bool :=
  a.any Step.isPosition

/-- Whether an address leads into a list that is an item of a list. -/
def isInNestedList : Address → Bool
  | .index _ :: .index _ :: _ => true
  | _ :: rest => isInNestedList rest
  | [] => false

/-- The addresses that a walk follows from a mapping. -/
inductive Followed : Address → Prop where
  | nil : Followed []
  | key {name : Text} {rest : Address} (hname : Node.isPositionKey name = false)
      (h : Followed rest) : Followed (.key name :: rest)
  | item {name : Text} {rest : Address} (hname : Node.isPositionKey name = false) (i : Nat)
      (h : Followed rest) : Followed (.key name :: .index i :: rest)

namespace Followed

variable {a b : Address}

theorem append (ha : Followed a) (hb : Followed b) : Followed (a ++ b) := by
  induction ha with
  | nil => exact hb
  | key hname _ ih => exact .key hname ih
  | item hname i _ ih => exact .item hname i ih

theorem isInPosition (h : Followed a) : a.isInPosition = false := by
  induction h with
  | nil => rfl
  | key hname _ ih | item hname _ _ ih =>
      simpa [Address.isInPosition, Step.isPosition, hname] using ih

theorem isInNestedList (h : Followed a) : a.isInNestedList = false := by
  induction h with
  | nil => rfl
  | key _ _ ih => exact ih
  | item _ _ h ih =>
      cases h with
      | nil => rfl
      | key _ _ | item _ _ _ => exact ih

end Followed

/-- An address that starts with a name and leads neither into a source position nor into a list in a
list is followed. -/
theorem followed_of_isInNestedList : ∀ {a : Address}, (∀ i rest, a ≠ .index i :: rest) →
    a.isInPosition = false → a.isInNestedList = false → a.Followed
  | [], _, _, _ => .nil
  | .index i :: rest, hstart, _, _ => absurd rfl (hstart i rest)
  | [.key name], _, hposition, _ => by
      exact .key (by simpa [isInPosition, Step.isPosition] using hposition) .nil
  | .key name :: .key other :: rest, _, hposition, hnested => by
      simp only [isInPosition, List.any_cons, Bool.or_eq_false_iff] at hposition
      refine .key hposition.1 (followed_of_isInNestedList ?_ ?_ hnested)
      · simp
      · simpa [isInPosition] using hposition.2
  | .key name :: .index i :: rest, _, hposition, hnested => by
      simp only [isInPosition, List.any_cons, Bool.or_eq_false_iff] at hposition
      refine .item hposition.1 i (followed_of_isInNestedList ?_ ?_ ?_)
      · rintro j rest' rfl
        cases hnested
      · exact hposition.2.2
      · cases rest with
        | nil => rfl
        | cons step rest =>
            cases step with
            | key _ => exact hnested
            | index _ => cases hnested

end Address

namespace Value

theorem RecordFree.of_item {items : List Value} {v : Value} {i : Nat}
    (h : (Value.list items).RecordFree) (hi : items[i]? = some v) : v.RecordFree :=
  recordFree_list_iff.1 h v (List.mem_of_getElem? hi)

/-- Where there are no records, what lies on a followed address on the way to a mapping is a mapping
itself. -/
theorem isMap_of_followed {v w : Value} {a : Address} (ha : a.Followed) (hv : v.RecordFree)
    (hat : v.at? a = some w) (hw : w.isMap = true) : v.isMap = true := by
  cases ha with
  | nil =>
      cases hat
      exact hw
  | key _ _ | item _ _ _ =>
      obtain ⟨u, hu, -⟩ := Option.bind_eq_some_iff.1 hat
      exact hv.isMap_of_attr? hu

end Value

namespace Node

/-- The nodes that a walk enters, in order. -/
def entered (root : Node) : List Node :=
  root.script.flatMap fun o => if o.1 = .enter then [o.2] else []

theorem mem_number_of_getElem? {vs : List Value} {k : Nat} {v : Value} (h : vs[k]? = some v)
    (address : Address) (i : Nat) :
    (⟨address ++ [.index (i + k)], v⟩ : Node) ∈ number address i vs := by
  induction vs generalizing i k with
  | nil => cases h
  | cons w vs ih =>
      cases k with
      | zero =>
          cases h
          exact List.mem_cons_self
      | succ k =>
          have hrest := ih h (i + 1)
          rw [Nat.add_assoc, Nat.add_comm 1 k] at hrest
          exact List.mem_cons_of_mem _ hrest

/-- The addresses of children are those that a walk follows. -/
theorem followed_of_mem_children {c n : Node} (h : c ∈ n.children) :
    ∃ way : Address, way.Followed ∧ c.address = n.address ++ way := by
  obtain ⟨address, v⟩ := n
  cases v with
  | map entries =>
      obtain ⟨e, -, hc⟩ := List.mem_flatMap.1 h
      obtain ⟨hname, -, rfl | hc⟩ := mem_childrenAt_iff.1 hc
      · exact ⟨[.key e.1], .key hname .nil, rfl⟩
      · obtain ⟨-, i, -, -, haddress⟩ := mem_items hc
        refine ⟨[.key e.1, .index i], .item hname i .nil, ?_⟩
        rw [haddress, List.append_assoc]
        rfl
  | _ => cases h

end Node

namespace Place

theorem entered_eq_map (p : Place) : p.node.entered = p.preorder.map Place.node := by
  rw [Node.entered, ← events_script, events, List.flatMap_map, List.map_eq_flatMap]
  exact flatMap_script (fun q => [q.node]) p

/-- Whatever is entered stands at an address that is followed. -/
theorem followed_of_mem_preorder {p q : Place} (h : q ∈ p.preorder) :
    ∃ way : Address, way.Followed ∧ q.node.address = p.node.address ++ way := by
  refine forall_preorder
    (P := fun n => ∃ way : Address, way.Followed ∧ n.address = p.node.address ++ way) ?_
    ⟨[], .nil, (List.append_nil _).symm⟩ q h
  rintro n ⟨way, hway, hn⟩ c hc
  obtain ⟨way', hway', hc⟩ := Node.followed_of_mem_children hc
  exact ⟨way ++ way', hway.append hway', by rw [hc, hn, List.append_assoc]⟩

theorem mem_preorder_of_child {p q : Place} {c : Node} (hc : c ∈ p.node.children)
    (h : q ∈ (mk c (p.node :: p.above)).preorder) : q ∈ p.preorder := by
  rw [preorder_eq]
  exact List.mem_cons_of_mem p (List.mem_flatMap.2 ⟨_, List.mem_map_of_mem hc, h⟩)

/-- A mapping at an address that is followed is entered. -/
theorem exists_of_followed {a : Address} (ha : a.Followed) {p : Place} {w : Value}
    (hfree : p.node.value.RecordFree) (hat : p.node.value.at? a = some w) (hw : w.isMap = true) :
    ∃ q ∈ p.preorder, q.node = ⟨p.node.address ++ a, w⟩ := by
  -- Along the way from the top: one or two steps lead to a child, and the rest starts there.
  induction ha generalizing p with
  | nil =>
      cases hat
      exact ⟨p, p.mem_preorder_self, by rw [List.append_nil]⟩
  | @key name rest hname hrest ih =>
      obtain ⟨u, hu, hrestat⟩ := Option.bind_eq_some_iff.1 hat
      have hufree := hfree.of_attr? hu
      have humap := Value.isMap_of_followed hrest hufree hrestat hw
      have hattr : p.node.attr? name = some ⟨p.node.address ++ [.key name], u⟩ :=
        Option.map_eq_some_iff.2 ⟨u, hu, rfl⟩
      have hchild := Node.mem_children_of_attr? (hfree.isMap_of_attr? hu) hname hattr humap
        (.inl rfl)
      obtain ⟨q, hq, hnode⟩ := ih (p := ⟨⟨_, u⟩, p.node :: p.above⟩) hufree hrestat
      refine ⟨q, mem_preorder_of_child hchild hq, ?_⟩
      rw [hnode, List.append_assoc, List.singleton_append]
  | @item name rest hname i hrest ih =>
      obtain ⟨l, hl, hitemat⟩ := Option.bind_eq_some_iff.1 hat
      obtain ⟨u, hu, hrestat⟩ := Option.bind_eq_some_iff.1 hitemat
      cases l with
      | list items =>
          have hufree := (hfree.of_attr? hl).of_item hu
          have humap := Value.isMap_of_followed hrest hufree hrestat hw
          have hattr : p.node.attr? name = some ⟨p.node.address ++ [.key name], .list items⟩ :=
            Option.map_eq_some_iff.2 ⟨_, hl, rfl⟩
          have hitem := Node.mem_number_of_getElem? hu (p.node.address ++ [.key name]) 0
          have hchild := Node.mem_children_of_attr? (hfree.isMap_of_attr? hl) hname hattr humap
            (.inr hitem)
          obtain ⟨q, hq, hnode⟩ := ih (p := ⟨⟨_, u⟩, p.node :: p.above⟩) hufree hrestat
          refine ⟨q, mem_preorder_of_child hchild hq, ?_⟩
          rw [hnode, Nat.zero_add, List.append_assoc, List.append_assoc]
          rfl
      | _ => cases hu

end Place

namespace Node

variable {entries : List (Text × Value)}

/-- A node that is entered is a mapping, and it stands where its address leads. -/
theorem of_mem_entered (hwf : (Value.map entries).WellFormed) {n : Node}
    (h : n ∈ (mk [] (.map entries)).entered) :
    n.IsAt (.map entries) ∧ n.value.isMap = true ∧ n.address.Followed := by
  let top := Place.top ⟨[], .map entries⟩
  have hentered : (mk [] (.map entries)).entered = top.preorder.map Place.node :=
    top.entered_eq_map
  rw [hentered] at h
  obtain ⟨q, hq, rfl⟩ := List.mem_map.1 h
  refine ⟨?_, ?_, ?_⟩
  · have htop : top.node.IsAt (.map entries) := rfl
    exact Place.forall_preorder_of_isPart (fun hpart hn => hpart.isAt hn) hwf htop q hq
  · exact Place.forall_preorder (P := fun n => n.value.isMap = true)
      (fun _ _ _ hc => isMap_of_mem_children hc) rfl q hq
  · obtain ⟨way, hway, haddress⟩ := Place.followed_of_mem_preorder hq
    rw [haddress]
    exact hway

/-- A mapping is entered once if its address is followed, and otherwise not at all. -/
theorem filter_entered (hwf : (Value.map entries).WellFormed)
    (hfree : (Value.map entries).RecordFree) {a : Address} {v : Value}
    (hat : (Value.map entries).at? a = some v) (hv : v.isMap = true) :
    (mk [] (.map entries)).entered.filter (fun n => n.address = a) =
      if a.isInPosition || a.isInNestedList then [] else [⟨a, v⟩] := by
  let top := Place.top ⟨[], .map entries⟩
  split
  · rename_i hmissed
    rw [List.filter_eq_nil_iff]
    intro n hn haddress
    have hfollowed := (of_mem_entered hwf hn).2.2
    rw [of_decide_eq_true haddress] at hfollowed
    rw [hfollowed.isInPosition, hfollowed.isInNestedList] at hmissed
    cases hmissed
  · rename_i hreached
    rw [Bool.or_eq_true, not_or, Bool.not_eq_true, Bool.not_eq_true] at hreached
    have hstart : ∀ i rest, a ≠ .index i :: rest := by
      rintro i rest rfl
      cases hat
    have hfollowed := Address.followed_of_isInNestedList hstart hreached.1 hreached.2
    obtain ⟨q, hq, hnode⟩ := Place.exists_of_followed hfollowed (p := top) hfree hat hv
    have hdistinct := Place.nodup_addresses (p := top) hwf
    have hentered : (mk [] (.map entries)).entered = top.preorder.map Place.node :=
      top.entered_eq_map
    have hmem : (mk a v) ∈ top.preorder.map Place.node := hnode ▸ List.mem_map_of_mem hq
    rw [hentered]
    exact filter_key_eq_singleton (by rwa [List.map_map]) hmem

end Node

/-- A mapping with a kind that occurs in a tree, outside of source positions. -/
structure Value.HasNode (tree : Value) (n : Node) : Prop where
  isAt : n.IsAt tree
  isMap : n.value.isMap = true
  kind : n.kind?.isSome = true
  outside : n.address.isInPosition = false

/-- Whatever handlers a table has, a walk over a JSON mapping dispatches the events of the script,
one after the other until a handler fails. Among these a node outside of source positions is entered
exactly once, unless it stands in a list that is an item of a list, and then it is not entered at
all. So the walk misses none exactly if no node stands in such a list. -/
theorem Table.walk_enters_once_iff {η σ ε : Type} (t : Table η)
    (call : η → Node → Action σ ε Unit) {entries : List (Text × Value)}
    (hwf : (Value.map entries).WellFormed) (hfree : (Value.map entries).RecordFree) :
    let root : Node := ⟨[], .map entries⟩
    t.walk call root =
        (do
          Action.each (fun o => t.dispatch call o.1 o.2) root.script
          pure (Node.entries root.script)) ∧
      (∀ n, root.value.HasNode n →
        (root.entered.filter fun m => m.address = n.address) =
          if n.address.isInNestedList then [] else [n]) ∧
      ((∀ n, root.value.HasNode n → (root.entered.filter fun m => m.address = n.address) = [n]) ↔
        ∀ n, root.value.HasNode n → n.address.isInNestedList = false) := by
  intro root
  have hentered : ∀ n, root.value.HasNode n →
      (root.entered.filter fun m => m.address = n.address) =
        if n.address.isInNestedList then [] else [n] := by
    intro n hn
    have hfilter := Node.filter_entered hwf hfree hn.isAt hn.isMap
    rwa [hn.outside, Bool.false_or] at hfilter
  refine ⟨t.walk_eq_fire call root, hentered, ?_⟩
  refine forall_congr' fun n => forall_congr' fun hn => ?_
  rw [hentered n hn]
  cases n.address.isInNestedList <;> simp

/-- A function whose parameter has no marker. -/
def unmarkedFunction (name : Text) : Value :=
  .map [("type", .text "FunctionDefinition"), ("name", .text name),
    ("parameters", .list [.map [("name", .text "x")]])]

/-- Two functions, one in a list and one in a list of that list. -/
def functionsInLists : List (Text × Value) := [
  ("type", .text "SourceUnit"), ("loc", unmarkedFunction "position"),
  ("children", .list [unmarkedFunction "f", .list [unmarkedFunction "g"]])]

def functionInList : Node := ⟨[.key "children", .index 0], unmarkedFunction "f"⟩

def functionInNestedList : Node := ⟨[.key "children", .index 1, .index 0], unmarkedFunction "g"⟩

/-- The first function is entered once, and the second one is missed. -/
theorem walk_enters_once_iff_functionsInLists :
    let root : Node := ⟨[], .map functionsInLists⟩
    (Value.map functionsInLists).WellFormed ∧ (Value.map functionsInLists).RecordFree ∧
    root.value.HasNode functionInList ∧ root.value.HasNode functionInNestedList ∧
    (root.entered.filter fun m => m.address = functionInList.address) = [functionInList] ∧
    (root.entered.filter fun m => m.address = functionInNestedList.address) = [] := by
  intro root
  have hwf : (Value.map functionsInLists).WellFormed := by
    simp [functionsInLists, unmarkedFunction, Value.text]
  have hfree : (Value.map functionsInLists).RecordFree := by
    simp [functionsInLists, unmarkedFunction, Value.text]
  have hf : root.value.HasNode functionInList := ⟨rfl, rfl, rfl, rfl⟩
  have hg : root.value.HasNode functionInNestedList := ⟨rfl, rfl, rfl, rfl⟩
  obtain ⟨-, hentered, -⟩ :=
    (Table.empty : Table Handler).walk_enters_once_iff Handler.call hwf hfree
  exact ⟨hwf, hfree, hf, hg, hentered _ hf, hentered _ hg⟩

/-- So not every node is entered, and nothing is said about the parameter of the second function. -/
theorem misses_functionInNestedList :
    let root : Node := ⟨[], .map functionsInLists⟩
    (¬ ∀ n, root.value.HasNode n →
      (root.entered.filter fun m => m.address = n.address) = [n]) ∧
    ((lintTree ⟨none, []⟩ (.map functionsInLists)).runFrom #[]).1.toOption.map
      (List.map fun d => d.node.address) =
        some [functionInList.address ++ [.key "parameters", .index 0]] := by
  intro root
  have hmissed : (root.entered.filter fun m => m.address = functionInNestedList.address).length =
      0 := by
    decide +kernel
  constructor
  · intro h
    have hentered := h functionInNestedList ⟨rfl, rfl, rfl, rfl⟩
    rw [hentered] at hmissed
    cases hmissed
  · decide +kernel

end UnderscoreLint
