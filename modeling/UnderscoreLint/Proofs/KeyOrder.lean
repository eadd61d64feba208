import UnderscoreLint.Proofs.Address
import UnderscoreLint.Proofs.Resemblance

/-!
# The order of entries

`Value.Reordered v w` says that `w` is `v` with the entries of mappings put into another order, at
any depth; lists keep their order. If no name occurs twice in a mapping of `v`, the same is found
under each attribute, up to the order of entries again. So this is a resemblance, and the children
of two such nodes correspond to each other in some order (`Node.Twins.shuffled_children`).

Reordering entries therefore changes the order of the report and nothing else. In particular the
location of a finding is read from entries, and is the same.
-/

namespace UnderscoreLint

namespace Value

/-- The second value is the first with entries put into another order, at any depth. -/
inductive Reordered : Value → Value → Prop where
  | scalar (s : Scalar) : Reordered (.scalar s) (.scalar s)
  | list {items items' : List Value} (h : List.Forall₂ Reordered items items') :
      Reordered (.list items) (.list items')
  | map {entries mid entries' : List (Text × Value)} (order : entries.Perm mid)
      (names : mid.map (·.1) = entries'.map (·.1))
      (values : List.Forall₂ Reordered (mid.map (·.2)) (entries'.map (·.2))) :
      Reordered (.map entries) (.map entries')
  | record {entries mid entries' : List (Text × Value)} (order : entries.Perm mid)
      (names : mid.map (·.1) = entries'.map (·.1))
      (values : List.Forall₂ Reordered (mid.map (·.2)) (entries'.map (·.2))) :
      Reordered (.record entries) (.record entries')

/-- A value with distinct names, and the same value with its entries in another order. -/
def Twins (v w : Value) : Prop :=
  v.WellFormed ∧ v.Reordered w

/-- Entries with the same name and such values. -/
def TwinEntries (e e' : Text × Value) : Prop :=
  e.1 = e'.1 ∧ e.2.Twins e'.2

theorem shuffled_twinEntries {entries mid entries' : List (Text × Value)}
    (hwf : ∀ e ∈ entries, e.2.WellFormed) (order : entries.Perm mid)
    (names : mid.map (·.1) = entries'.map (·.1))
    (values : List.Forall₂ Reordered (mid.map (·.2)) (entries'.map (·.2))) :
    Shuffled TwinEntries entries entries' := by
  have hmid : ∀ e ∈ mid, e.2.WellFormed := fun e he => hwf e (order.mem_iff.2 he)
  have hentries := (List.forall₂_and_left _ _).2 ⟨hmid, forall₂_entries names values⟩
  exact ⟨mid, order, hentries.imp fun _ _ ⟨hwf, hname, hvalue⟩ => ⟨hname, hwf, hvalue⟩⟩

theorem lookup_eq_of_perm {entries mid : List (Text × Value)}
    (hdistinct : (entries.map (·.1)).Nodup) (h : entries.Perm mid) (name : Text) :
    lookup name entries = lookup name mid := by
  have hdistinct' : (mid.map (·.1)).Nodup := (h.map _).nodup_iff.1 hdistinct
  refine Option.ext fun v => ⟨fun hv => ?_, fun hv => ?_⟩
  · exact lookup_of_mem hdistinct' (h.mem_iff.1 (mem_of_lookup hv))
  · exact lookup_of_mem hdistinct (h.mem_iff.2 (mem_of_lookup hv))

theorem rel_lookup_of_shuffled {entries entries' : List (Text × Value)}
    (hdistinct : (entries.map (·.1)).Nodup) (h : Shuffled TwinEntries entries entries')
    (name : Text) : Option.Rel Twins (lookup name entries) (lookup name entries') := by
  obtain ⟨mid, hperm, hmid⟩ := h
  -- Distinct names are only needed to change the order; then names are compared one by one.
  rw [lookup_eq_of_perm hdistinct hperm]
  exact rel_lookup hmid name

namespace Twins

variable {v w : Value}

theorem scalar? (h : v.Twins w) : v.scalar? = w.scalar? := by
  cases h.2 <;> rfl

theorem isMap (h : v.Twins w) : v.isMap = w.isMap := by
  cases h.2 <;> rfl

/-- The same is found under each attribute. -/
theorem attr? (h : v.Twins w) (name : Text) :
    Option.Rel Twins (v.attr? name) (w.attr? name) := by
  obtain ⟨hwf, hreordered⟩ := h
  cases hreordered with
  | scalar _ | list _ => exact .none
  | map order names values =>
      obtain ⟨hdistinct, hwf⟩ := wellFormed_map_iff.1 hwf
      exact rel_lookup_of_shuffled hdistinct (shuffled_twinEntries hwf order names values) name
  | record order names values =>
      obtain ⟨hdistinct, hwf⟩ := wellFormed_record_iff.1 hwf
      exact rel_lookup_of_shuffled hdistinct (shuffled_twinEntries hwf order names values) name

end Twins

end Value

namespace Node

/-- Nodes at the same address that are the same up to the order of entries. -/
structure Twins (n m : Node) : Prop where
  address : n.address = m.address
  value : n.value.Twins m.value

theorem forall₂_number {vs ws : List Value} (h : List.Forall₂ Value.Twins vs ws)
    (address : Address) (i : Nat) :
    List.Forall₂ Twins (number address i vs) (number address i ws) := by
  induction h generalizing i with
  | nil => exact .nil
  | cons hvw _ ih => exact .cons ⟨rfl, hvw⟩ (ih (i + 1))

namespace Twins

variable {n m : Node}

theorem attr? (h : n.Twins m) (name : Text) :
    Option.Rel Twins (n.attr? name) (m.attr? name) := by
  have hvalue := h.value.attr? name
  unfold Node.attr?
  rw [h.address]
  generalize n.value.attr? name = a, m.value.attr? name = b at hvalue
  cases hvalue with
  | none => exact .none
  | some h => exact .some ⟨rfl, h⟩

theorem items (h : n.Twins m) : List.Forall₂ Twins n.items m.items := by
  obtain ⟨address, v⟩ := n
  obtain ⟨_, w⟩ := m
  obtain ⟨rfl, hwf, hreordered⟩ := h
  cases hreordered with
  | list hitems =>
      have htwins := (List.forall₂_and_left _ _).2 ⟨Value.wellFormed_list_iff.1 hwf, hitems⟩
      exact forall₂_number htwins address 0
  | _ => exact .nil

theorem hasAttributes (h : n.Twins m) : n.hasAttributes = m.hasAttributes := by
  obtain ⟨address, v⟩ := n
  obtain ⟨_, w⟩ := m
  obtain ⟨rfl, -, hreordered⟩ := h
  cases hreordered <;> rfl

theorem forall₂_childrenAt (address : Address) {e e' : Text × Value}
    (h : Value.TwinEntries e e') :
    List.Forall₂ Twins (childrenAt address e) (childrenAt address e') := by
  obtain ⟨name, v⟩ := e
  obtain ⟨_, w⟩ := e'
  obtain ⟨rfl, htwins⟩ := h
  have hnodes : Twins ⟨address ++ [.key name], v⟩ ⟨address ++ [.key name], w⟩ := ⟨rfl, htwins⟩
  unfold childrenAt
  split
  · exact .nil
  · cases htwins.2 with
    | scalar _ | record _ _ _ => exact .nil
    | map _ _ _ => exact .cons hnodes .nil
    | list _ => exact forall₂_filter (fun _ _ h => h.value.isMap) hnodes.items

/-- The children correspond to each other in some order. -/
theorem shuffled_children (h : n.Twins m) : Shuffled Twins n.children m.children := by
  obtain ⟨address, v⟩ := n
  obtain ⟨_, w⟩ := m
  obtain ⟨rfl, hwf, hreordered⟩ := h
  cases hreordered with
  | map order names values =>
      have hentries := Value.shuffled_twinEntries (Value.wellFormed_map_iff.1 hwf).2 order names
        values
      exact hentries.flatMap fun he => .of_forall₂ (forall₂_childrenAt address he)
  | _ => exact .of_forall₂ .nil

theorem location (h : n.Twins m) : n.location = m.location :=
  location_congr (fun h => h.scalar?) (fun h => h.attr?) h.value

end Twins

theorem resemblance_twins : Resemblance Twins where
  scalar h := h.value.scalar?
  attr h name _ := h.attr? name
  items h := forall₂_filter (fun _ _ h => h.hasAttributes) h.items

end Node

theorem Diagnostic.Resembles.content_eq {d d' : Diagnostic} (h : Resembles Node.Twins d d') :
    d.content = d'.content :=
  h.content_eq_of_location Node.Twins.location

/-- Reordering the entries of a mapping reorders the findings. Linting fails for the same reason as
before, or it returns the same findings in some order. -/
theorem lintTree_perm_of_reordered (s : Settings) {entries entries' : List (Text × Value)}
    (hwf : (Value.map entries).WellFormed) (h : (Value.map entries).Reordered (.map entries'))
    (log log' : Log) :
    Alike (fun ds ds' => (ds.map Diagnostic.content).Perm (ds'.map Diagnostic.content))
      ((lintTree s (.map entries)).runFrom log).1
      ((lintTree s (.map entries')).runFrom log').1 := by
  have htop : Place.Resembles Node.Twins s.conventions (Place.top ⟨[], .map entries⟩)
      (Place.top ⟨[], .map entries'⟩) := ⟨⟨rfl, hwf, h⟩, fun _ => rfl⟩
  have hanswers := Node.resemblance_twins.shuffled_answers
    (fun h => Node.Twins.shuffled_children h) s.overrides htop
  obtain ⟨mid, hperm, hmid⟩ := shuffled_found hanswers
  refine alike_lintTree s rfl rfl (verdict_of_shuffled hanswers) ?_ log log'
  have hcontent : mid.map Diagnostic.content =
      (found (s.answers (.map entries'))).map Diagnostic.content :=
    forall₂_map_eq_iff.1 (hmid.imp fun _ _ hd => hd.content_eq)
  rw [← hcontent]
  exact hperm.map _

/-- A library whose two functions are entries of their own, -/
def twoEntries : List (Text × Value) := [
  ("type", .text "ContractDefinition"), ("kind", .text "library"),
  ("first", .map [("type", .text "FunctionDefinition"), ("name", .text "f"),
    ("visibility", .text "internal"),
    ("loc", .map [("start", .map [("line", .scalar (.int 3)), ("column", .scalar (.int 4))])])]),
  ("second", .map [("type", .text "FunctionDefinition"), ("name", .text "_g")])]

/-- and the same library with the entries of every mapping in the reverse order. -/
def twoEntriesReversed : List (Text × Value) := [
  ("second", .map [("name", .text "_g"), ("type", .text "FunctionDefinition")]),
  ("first", .map [
    ("loc", .map [("start", .map [("column", .scalar (.int 4)), ("line", .scalar (.int 3))])]),
    ("visibility", .text "internal"), ("name", .text "f"),
    ("type", .text "FunctionDefinition")]),
  ("kind", .text "library"), ("type", .text "ContractDefinition")]

theorem reordered_twoEntries :
    (Value.map twoEntries).Reordered (.map twoEntriesReversed) := by
  have hrev : ∀ {entries entries' : List (Text × Value)},
      entries.reverse.map (·.1) = entries'.map (·.1) →
      List.Forall₂ Value.Reordered (entries.reverse.map (·.2)) (entries'.map (·.2)) →
      (Value.map entries).Reordered (.map entries') :=
    .map (List.reverse_perm _).symm
  refine hrev rfl (.cons (hrev rfl ?_) (.cons (hrev rfl ?_) ?_))
  · exact .cons (.scalar _) (.cons (.scalar _) .nil)
  · refine .cons (hrev rfl (.cons (hrev rfl ?_) .nil)) ?_
    · exact .cons (.scalar _) (.cons (.scalar _) .nil)
    · exact .cons (.scalar _) (.cons (.scalar _) (.cons (.scalar _) .nil))
  · exact .cons (.scalar _) (.cons (.scalar _) .nil)

theorem lintTree_perm_of_reordered_twoEntries :
    let s : Settings := ⟨none, []⟩
    (Value.map twoEntries).WellFormed ∧
    (Value.map twoEntries).Reordered (.map twoEntriesReversed) ∧
    ∃ ds ds', ((lintTree s (.map twoEntries)).runFrom #[]).1 = .ok ds ∧
      ((lintTree s (.map twoEntriesReversed)).runFrom #[]).1 = .ok ds' ∧
      ds.map Diagnostic.message =
        (["'f' should start with _", "'_g' should not start with _"] : List Text) ∧
      ds'.map Diagnostic.message =
        (["'_g' should not start with _", "'f' should start with _"] : List Text) ∧
      (ds.map Diagnostic.content).Perm (ds'.map Diagnostic.content) := by
  intro s
  have hwf : (Value.map twoEntries).WellFormed := by
    simp [twoEntries, Value.text]
  have hmessages : ((lintTree s (.map twoEntries)).runFrom #[]).1.toOption.map
      (List.map Diagnostic.message) =
        some (["'f' should start with _", "'_g' should not start with _"] : List Text) := by
    decide +kernel
  have hmessages' : ((lintTree s (.map twoEntriesReversed)).runFrom #[]).1.toOption.map
      (List.map Diagnostic.message) =
        some (["'_g' should not start with _", "'f' should start with _"] : List Text) := by
    decide +kernel
  obtain ⟨ds, hds, hmessages⟩ := exists_ok_of_toOption hmessages
  obtain ⟨ds', hds', hmessages'⟩ := exists_ok_of_toOption hmessages'
  have halike := lintTree_perm_of_reordered s hwf reordered_twoEntries #[] #[]
  rw [hds, hds'] at halike
  cases halike with
  | ok hperm =>
      exact ⟨hwf, reordered_twoEntries, ds, ds', hds, hds', hmessages, hmessages', hperm⟩

end UnderscoreLint
