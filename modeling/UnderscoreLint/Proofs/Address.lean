import Mathlib.Data.List.Nodup
import UnderscoreLint.Proofs.Place

/-!
# Addresses in a tree

`Value.at?` follows an address from a value down to one of its parts, and `Node.IsAt` says that a
node stands where its address leads. This passes from a node to its parts, which are the nodes
under its attributes and the items of a list.

Where no name occurs twice in a mapping, a child is the node under an attribute or one of its
items, so a walk only meets nodes that stand at their addresses, and no two places of a walk have
the same address (`Place.nodup_addresses`). The reason is that no child lies on the way to another
(`Node.pairwise_children`).
-/

namespace UnderscoreLint

namespace Value

/-- The part of a value that an address leads to. -/
def at? (v : Value) : Address → Option Value
  | [] => some v
  | .key name :: rest => (v.attr? name).bind fun w => w.at? rest
  | .index i :: rest => (v.items?.bind fun items => items[i]?).bind fun w => w.at? rest

theorem at?_append (v : Value) (a b : Address) :
    v.at? (a ++ b) = (v.at? a).bind fun w => w.at? b := by
  induction a generalizing v with
  | nil => rfl
  | cons step a ih =>
      cases step with
      | key name =>
          simp only [List.cons_append, at?]
          cases v.attr? name with
          | none => rfl
          | some w => exact ih w
      | index i =>
          simp only [List.cons_append, at?]
          cases v.items?.bind fun items => items[i]? with
          | none => rfl
          | some w => exact ih w

theorem mem_of_lookup {name : Text} {v : Value} {entries : List (Text × Value)}
    (h : lookup name entries = some v) : (name, v) ∈ entries := by
  obtain ⟨e, he, rfl⟩ := Option.map_eq_some_iff.1 h
  have hname : e.1 = name := by simpa using List.find?_some he
  rw [← hname]
  exact List.mem_of_find?_eq_some he

/-- Where names are distinct, every entry is found under its name. -/
theorem lookup_of_mem {name : Text} {v : Value} {entries : List (Text × Value)}
    (hdistinct : (entries.map (·.1)).Nodup) (h : (name, v) ∈ entries) :
    lookup name entries = some v := by
  induction entries with
  | nil => cases h
  | cons e rest ih =>
      rw [List.map_cons, List.nodup_cons] at hdistinct
      rcases List.mem_cons.1 h with rfl | h
      · simp [lookup]
      · have hne : e.1 ≠ name := by
          intro hname
          rw [hname] at hdistinct
          exact hdistinct.1 (List.mem_map.2 ⟨_, h, rfl⟩)
        have hrest := ih hdistinct.2 h
        simpa [lookup, hne] using hrest

/-- Nothing in the value is a record. -/
inductive RecordFree : Value → Prop where
  | scalar (s : Scalar) : RecordFree (.scalar s)
  | list {items : List Value} (h : ∀ v ∈ items, RecordFree v) : RecordFree (.list items)
  | map {entries : List (Text × Value)} (h : ∀ e ∈ entries, RecordFree e.2) :
      RecordFree (.map entries)

@[simp] theorem wellFormed_scalar (s : Scalar) : (Value.scalar s).WellFormed :=
  .scalar s

@[simp] theorem wellFormed_list_iff {items : List Value} :
    (Value.list items).WellFormed ↔ ∀ v ∈ items, v.WellFormed := by
  constructor
  · intro h
    cases h with
    | list h => exact h
  · exact .list

@[simp] theorem wellFormed_map_iff {entries : List (Text × Value)} :
    (Value.map entries).WellFormed ↔
      (entries.map (·.1)).Nodup ∧ ∀ e ∈ entries, e.2.WellFormed := by
  constructor
  · intro h
    cases h with
    | map hdistinct h => exact ⟨hdistinct, h⟩
  · rintro ⟨hdistinct, h⟩
    exact .map hdistinct h

@[simp] theorem wellFormed_record_iff {entries : List (Text × Value)} :
    (Value.record entries).WellFormed ↔
      (entries.map (·.1)).Nodup ∧ ∀ e ∈ entries, e.2.WellFormed := by
  constructor
  · intro h
    cases h with
    | record hdistinct h => exact ⟨hdistinct, h⟩
  · rintro ⟨hdistinct, h⟩
    exact .record hdistinct h

@[simp] theorem recordFree_scalar (s : Scalar) : (Value.scalar s).RecordFree :=
  .scalar s

@[simp] theorem recordFree_list_iff {items : List Value} :
    (Value.list items).RecordFree ↔ ∀ v ∈ items, v.RecordFree := by
  constructor
  · intro h
    cases h with
    | list h => exact h
  · exact .list

@[simp] theorem recordFree_map_iff {entries : List (Text × Value)} :
    (Value.map entries).RecordFree ↔ ∀ e ∈ entries, e.2.RecordFree := by
  constructor
  · intro h
    cases h with
    | map h => exact h
  · exact .map

theorem WellFormed.of_attr? {v w : Value} {name : Text} (h : v.WellFormed)
    (hattr : v.attr? name = some w) : w.WellFormed := by
  cases h with
  | scalar _ | list _ => cases hattr
  | map _ hentries | record _ hentries => exact hentries _ (mem_of_lookup hattr)

theorem RecordFree.of_attr? {v w : Value} {name : Text} (h : v.RecordFree)
    (hattr : v.attr? name = some w) : w.RecordFree := by
  cases h with
  | scalar _ | list _ => cases hattr
  | map hentries => exact hentries _ (mem_of_lookup hattr)

theorem RecordFree.isMap_of_attr? {v w : Value} {name : Text} (h : v.RecordFree)
    (hattr : v.attr? name = some w) : v.isMap = true := by
  cases h with
  | scalar _ | list _ => cases hattr
  | map _ => rfl

end Value

namespace Node

theorem mem_number {m : Node} {address : Address} {i : Nat} {vs : List Value}
    (h : m ∈ number address i vs) :
    ∃ k, vs[k]? = some m.value ∧ m.address = address ++ [.index (i + k)] := by
  induction vs generalizing i with
  | nil => cases h
  | cons v vs ih =>
      rcases List.mem_cons.1 h with rfl | h
      · exact ⟨0, rfl, rfl⟩
      · obtain ⟨k, hk, haddress⟩ := ih h
        refine ⟨k + 1, hk, ?_⟩
        rw [haddress, Nat.add_assoc, Nat.add_comm 1 k]

theorem mem_items {m n : Node} (h : m ∈ n.items) :
    ∃ vs k, n.value = .list vs ∧ vs[k]? = some m.value ∧ m.address = n.address ++ [.index k] := by
  unfold items at h
  split at h
  · rename_i vs hvs
    obtain ⟨k, hk, haddress⟩ := mem_number h
    rw [Nat.zero_add] at haddress
    exact ⟨vs, k, hvs, hk, haddress⟩
  · cases h

theorem mem_members {m n : Node} {name : Text} (h : m ∈ n.members name) :
    ∃ l, n.attr? name = some l ∧ m ∈ l.items := by
  unfold members at h
  split at h
  · rename_i l hl
    exact ⟨l, hl, (List.mem_filter.1 h).1⟩
  · cases h

/-- The node `m` is a part of `n`: it is under an attribute, or an item. -/
def IsPart (m n : Node) : Prop :=
  (∃ name, n.attr? name = some m) ∨ m ∈ n.items

theorem isPart_of_attr? {m n : Node} {name : Text} (h : n.attr? name = some m) : m.IsPart n :=
  .inl ⟨name, h⟩

theorem exists_of_attr? {m n : Node} {name : Text} (h : n.attr? name = some m) :
    n.value.attr? name = some m.value ∧ m.address = n.address ++ [.key name] := by
  obtain ⟨v, hv, rfl⟩ := Option.map_eq_some_iff.1 h
  exact ⟨hv, rfl⟩

/-- The node stands where its address leads. -/
def IsAt (n : Node) (root : Value) : Prop :=
  root.at? n.address = some n.value

theorem IsPart.isAt {m n : Node} (h : m.IsPart n) {root : Value} (hn : n.IsAt root) :
    m.IsAt root := by
  unfold IsAt at hn ⊢
  rcases h with ⟨name, h⟩ | h
  · obtain ⟨hvalue, haddress⟩ := exists_of_attr? h
    rw [haddress, Value.at?_append, hn, Option.bind_some, Value.at?, hvalue]
    rfl
  · obtain ⟨vs, k, hvs, hk, haddress⟩ := mem_items h
    rw [haddress, Value.at?_append, hn, Option.bind_some, Value.at?, hvs, Value.items?,
      Option.bind_some, hk]
    rfl

theorem IsPart.wellFormed {m n : Node} (h : m.IsPart n) (hn : n.value.WellFormed) :
    m.value.WellFormed := by
  rcases h with ⟨name, h⟩ | h
  · exact hn.of_attr? (exists_of_attr? h).1
  · obtain ⟨vs, k, hvs, hk, -⟩ := mem_items h
    rw [hvs, Value.wellFormed_list_iff] at hn
    exact hn _ (List.mem_of_getElem? hk)

theorem IsPart.recordFree {m n : Node} (h : m.IsPart n) (hn : n.value.RecordFree) :
    m.value.RecordFree := by
  rcases h with ⟨name, h⟩ | h
  · exact hn.of_attr? (exists_of_attr? h).1
  · obtain ⟨vs, k, hvs, hk, -⟩ := mem_items h
    rw [hvs, Value.recordFree_list_iff] at hn
    exact hn _ (List.mem_of_getElem? hk)

theorem mem_childrenAt_iff {c : Node} {address : Address} {e : Text × Value} :
    c ∈ childrenAt address e ↔
      isPositionKey e.1 = false ∧ c.value.isMap = true ∧
        (c = ⟨address ++ [.key e.1], e.2⟩ ∨ c ∈ items ⟨address ++ [.key e.1], e.2⟩) := by
  obtain ⟨name, v⟩ := e
  unfold childrenAt
  cases hname : isPositionKey name with
  | true => simp
  | false =>
      cases v with
      | map entries => simp +contextual [items, Value.isMap]
      | list vs =>
          constructor
          · intro h
            obtain ⟨h, hmap⟩ := List.mem_filter.1 h
            exact ⟨rfl, hmap, .inr h⟩
          · rintro ⟨-, hmap, rfl | h⟩
            · cases hmap
            · exact List.mem_filter.2 ⟨h, hmap⟩
      | scalar _ | record _ =>
          constructor
          · intro h
            cases h
          · rintro ⟨-, hmap, rfl | h⟩
            · cases hmap
            · cases h

/-- A mapping under an attribute, or among its items, is a child. -/
theorem mem_children_of_attr? {c m n : Node} {name : Text} (hn : n.value.isMap = true)
    (hname : isPositionKey name = false) (hattr : n.attr? name = some m)
    (hc : c.value.isMap = true) (h : c = m ∨ c ∈ m.items) : c ∈ n.children := by
  obtain ⟨address, v⟩ := n
  obtain ⟨hvalue, haddress⟩ := exists_of_attr? hattr
  obtain ⟨maddress, w⟩ := m
  cases haddress
  cases v with
  | map entries =>
      refine List.mem_flatMap.2 ⟨(name, w), Value.mem_of_lookup hvalue, ?_⟩
      exact mem_childrenAt_iff.2 ⟨hname, hc, h⟩
  | _ => cases hn

/-- Where names are distinct, a child is the node under an attribute or one of its items. -/
theorem exists_attr?_of_mem_children {c n : Node} (hn : n.value.WellFormed)
    (hc : c ∈ n.children) : ∃ name m, n.attr? name = some m ∧ (c = m ∨ c ∈ m.items) := by
  obtain ⟨address, v⟩ := n
  cases v with
  | map entries =>
      obtain ⟨e, he, hc⟩ := List.mem_flatMap.1 hc
      obtain ⟨-, -, hc⟩ := mem_childrenAt_iff.1 hc
      have hvalue := Value.lookup_of_mem (Value.wellFormed_map_iff.1 hn).1 he
      exact ⟨e.1, _, Option.map_eq_some_iff.2 ⟨e.2, hvalue, rfl⟩, hc⟩
  | _ => cases hc

/-- What passes to the parts of a node passes to its children. -/
theorem of_mem_children {P : Node → Prop} (hP : ∀ {m n : Node}, m.IsPart n → P n → P m)
    {c n : Node} (hwf : n.value.WellFormed) (hn : P n) (hc : c ∈ n.children) : P c := by
  obtain ⟨name, m, hattr, rfl | hc⟩ := exists_attr?_of_mem_children hwf hc
  · exact hP (isPart_of_attr? hattr) hn
  · exact hP (.inr hc) (hP (isPart_of_attr? hattr) hn)

theorem of_mem_members {P : Node → Prop} (hP : ∀ {m n : Node}, m.IsPart n → P n → P m)
    {m n : Node} {name : Text} (hn : P n) (h : m ∈ n.members name) : P m := by
  obtain ⟨l, hl, hm⟩ := mem_members h
  exact hP (.inr hm) (hP (isPart_of_attr? hl) hn)

/-- Neither of two nodes is on the way to the other, nor are they at the same address. -/
def Apart (m n : Node) : Prop :=
  ∀ way way', m.address ++ way ≠ n.address ++ way'

theorem pairwise_number (address : Address) (i : Nat) (vs : List Value) :
    (number address i vs).Pairwise Apart := by
  induction vs generalizing i with
  | nil => exact .nil
  | cons v vs ih =>
      refine .cons ?_ (ih (i + 1))
      intro m hm way way' heq
      obtain ⟨k, -, haddress⟩ := mem_number hm
      simp only [haddress, List.append_assoc, List.append_cancel_left_eq, List.singleton_append,
        List.cons.injEq, Step.index.injEq] at heq
      omega

theorem pairwise_childrenAt (address : Address) (e : Text × Value) :
    (childrenAt address e).Pairwise Apart := by
  unfold childrenAt
  split
  · exact .nil
  · split
    · exact List.pairwise_singleton ..
    · exact (pairwise_number ..).filter _
    · exact .nil

theorem address_of_mem_childrenAt {c : Node} {address : Address} {e : Text × Value}
    (h : c ∈ childrenAt address e) : ∃ way, c.address = address ++ .key e.1 :: way := by
  obtain ⟨-, -, rfl | h⟩ := mem_childrenAt_iff.1 h
  · exact ⟨[], rfl⟩
  · obtain ⟨-, k, -, -, haddress⟩ := mem_items h
    exact ⟨[.index k], by simp [haddress]⟩

/-- Where names are distinct, no child is on the way to another. -/
theorem pairwise_children {n : Node} (h : n.value.WellFormed) : n.children.Pairwise Apart := by
  obtain ⟨address, v⟩ := n
  cases h with
  | map hdistinct _ =>
      refine List.pairwise_flatMap.2 ⟨fun e _ => pairwise_childrenAt address e, ?_⟩
      refine (List.pairwise_map.1 hdistinct).imp fun hne c hc d hd way way' heq => hne ?_
      obtain ⟨wayc, hc⟩ := address_of_mem_childrenAt hc
      obtain ⟨wayd, hd⟩ := address_of_mem_childrenAt hd
      simp only [hc, hd, List.append_assoc, List.append_cancel_left_eq, List.cons_append,
        List.cons.injEq, Step.key.injEq] at heq
      exact heq.1
  | _ => exact .nil

theorem isMap_of_mem_children {c n : Node} (h : c ∈ n.children) : c.value.isMap = true := by
  obtain ⟨address, v⟩ := n
  cases v with
  | map entries =>
      obtain ⟨e, -, hc⟩ := List.mem_flatMap.1 h
      exact (mem_childrenAt_iff.1 hc).2.1
  | _ => cases h

theorem address_of_mem_children {c n : Node} (h : c ∈ n.children) :
    ∃ step way, c.address = n.address ++ step :: way := by
  obtain ⟨address, v⟩ := n
  cases v with
  | map entries =>
      obtain ⟨e, -, hc⟩ := List.mem_flatMap.1 h
      obtain ⟨way, hway⟩ := address_of_mem_childrenAt hc
      exact ⟨_, way, hway⟩
  | _ => cases h

end Node

namespace Place

theorem mem_preorder_self (p : Place) : p ∈ p.preorder := by
  rw [preorder_eq]
  exact List.mem_cons_self

theorem forall_preorder {P : Node → Prop} (hP : ∀ n, P n → ∀ c ∈ n.children, P c) {p : Place}
    (hp : P p.node) : ∀ q ∈ p.preorder, P q.node := by
  induction p using below_induction with
  | step p ih =>
      intro q hq
      rw [preorder_eq] at hq
      rcases List.mem_cons.1 hq with rfl | hq
      · exact hp
      · obtain ⟨b, hb, hq⟩ := List.mem_flatMap.1 hq
        obtain ⟨c, hc, rfl⟩ := List.mem_map.1 hb
        exact ih _ hb (hP _ hp c hc) q hq

/-- What passes from a node to its parts holds at every place below. -/
theorem forall_preorder_of_isPart {P : Node → Prop}
    (hP : ∀ {m n : Node}, m.IsPart n → P n → P m) {p : Place} (hwf : p.node.value.WellFormed)
    (hp : P p.node) : ∀ q ∈ p.preorder, P q.node := by
  intro q hq
  refine (forall_preorder (P := fun n => n.value.WellFormed ∧ P n) ?_ ⟨hwf, hp⟩ q hq).2
  rintro n ⟨hwf, hn⟩ c hc
  exact ⟨Node.of_mem_children Node.IsPart.wellFormed hwf hwf hc, Node.of_mem_children hP hwf hn hc⟩

/-- A child of a place that a walk enters is entered too. -/
theorem exists_of_mem_children {p q : Place} (hq : q ∈ p.preorder) {c : Node}
    (hc : c ∈ q.node.children) : ∃ r ∈ p.preorder, r.node = c := by
  induction p using below_induction with
  | step p ih =>
      rw [preorder_eq] at hq ⊢
      rcases List.mem_cons.1 hq with rfl | hq
      · refine ⟨⟨c, q.node :: q.above⟩, List.mem_cons_of_mem _ ?_, rfl⟩
        exact List.mem_flatMap.2 ⟨_, List.mem_map_of_mem hc, mem_preorder_self _⟩
      · obtain ⟨b, hb, hq⟩ := List.mem_flatMap.1 hq
        obtain ⟨r, hr, hrc⟩ := ih b hb hq
        exact ⟨r, List.mem_cons_of_mem _ (List.mem_flatMap.2 ⟨b, hb, hr⟩), hrc⟩

theorem enter_mem_script {p q : Place} (h : q ∈ p.preorder) :
    (.enter, q.node) ∈ p.node.script := by
  have hentries := flatMap_script (fun q => [q]) p
  rw [List.flatMap_singleton'] at hentries
  rw [← hentries] at h
  obtain ⟨⟨phase, r⟩, hr, hq⟩ := List.mem_flatMap.1 h
  rw [← events_script]
  cases phase with
  | enter =>
      rw [if_pos rfl, List.mem_singleton] at hq
      subst hq
      exact List.mem_map_of_mem hr
  | exit =>
      rw [if_neg Phase.noConfusion] at hq
      cases hq

theorem exists_address_of_mem_preorder {p q : Place} (h : q ∈ p.preorder) :
    ∃ way, q.node.address = p.node.address ++ way := by
  refine forall_preorder (P := fun n => ∃ way, n.address = p.node.address ++ way) ?_
    ⟨[], (List.append_nil _).symm⟩ q h
  rintro n ⟨way, hway⟩ c hc
  obtain ⟨step, way', hc⟩ := Node.address_of_mem_children hc
  exact ⟨way ++ step :: way', by rw [hc, hway, List.append_assoc]⟩

/-- Where names are distinct, the places at and below a place have distinct addresses. -/
theorem nodup_addresses {p : Place} (h : p.node.value.WellFormed) :
    (p.preorder.map fun q => q.node.address).Nodup := by
  induction p using below_induction with
  | step p ih =>
      rw [preorder_eq, List.map_cons, List.nodup_cons, List.map_flatMap]
      constructor
      · intro hmem
        obtain ⟨b, hb, hmem⟩ := List.mem_flatMap.1 hmem
        obtain ⟨q, hq, hqp⟩ := List.mem_map.1 hmem
        obtain ⟨c, hc, rfl⟩ := List.mem_map.1 hb
        obtain ⟨step, way, hcp⟩ := Node.address_of_mem_children hc
        obtain ⟨way', hqc⟩ := exists_address_of_mem_preorder hq
        rw [hqc, hcp, List.append_assoc, List.append_right_eq_self] at hqp
        cases hqp
      · refine List.nodup_flatMap.2 ⟨?_, ?_⟩
        · intro b hb
          obtain ⟨c, hc, rfl⟩ := List.mem_map.1 hb
          exact ih _ hb (Node.of_mem_children Node.IsPart.wellFormed h h hc)
        · rw [below, List.pairwise_map]
          refine (Node.pairwise_children h).imp fun hapart a hac had => ?_
          obtain ⟨q, hq, rfl⟩ := List.mem_map.1 hac
          obtain ⟨r, hr, hrq⟩ := List.mem_map.1 had
          obtain ⟨way, hway⟩ := exists_address_of_mem_preorder hq
          obtain ⟨way', hway'⟩ := exists_address_of_mem_preorder hr
          rw [hway, hway'] at hrq
          exact hapart way way' hrq.symm

end Place

end UnderscoreLint
