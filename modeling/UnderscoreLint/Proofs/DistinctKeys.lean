import UnderscoreLint.Proofs.CheckedSettings

/-!
# The keys of loaded documents

No two keys of a mapping are equal. A document of any form may break this, but one that was loaded
does not (`Yaml.hasDistinctKeys_of_load`): a mapping is built up with `Key.put`, which leaves a key
that coincides with the new one in its place, and only what was built up so is kept as a part.
-/

namespace UnderscoreLint

/-- Entries of which no two have equal keys. -/
def AreDistinct {α : Type} (entries : List (Atom × α)) : Prop :=
  entries.Pairwise fun e e' => e.1.same e'.1 = false

section Documents

variable {α : Type} [Outlined α]

/-- The parts of a document that mappings lead to. -/
inductive IsWithin (d : α) : α → Prop where
  | self : IsWithin d d
  | entry {p : α} {entries : List (Atom × α)} {e : Atom × α} (hp : IsWithin d p)
      (h : outline p = .map entries) (he : e ∈ entries) : IsWithin d e.2

/-- A document none of whose mappings has two equal keys. -/
def HasDistinctKeys (d : α) : Prop :=
  ∀ p entries, IsWithin d p → outline p = .map entries → AreDistinct entries

theorem IsWithin.of_lookup {d p v : α} {entries : List (Atom × α)} {name : Text}
    (hp : IsWithin d p) (h : outline p = .map entries)
    (hv : Outline.lookup name entries = some v) : IsWithin d v := by
  obtain ⟨e, he, rfl⟩ := Option.map_eq_some_iff.1 hv
  exact .entry hp h (List.mem_of_find?_eq_some he)

end Documents

namespace Yaml

/-- A part that is a mapping has distinct keys. -/
def Part.HasDistinctKeys : Part → Prop
  | .map entries => AreDistinct entries
  | _ => True

/-- All that has been loaded so far has distinct keys. -/
def Loading.HasDistinctKeys (s : Loading) : Prop :=
  ∀ p, some p ∈ s.parts → p.HasDistinctKeys

/-- Keys of which no two coincide. -/
def Key.AreApart {α : Type} (entries : List (Key × α)) : Prop :=
  entries.Pairwise fun e e' => e.1.same e'.1 = false

theorem Key.mem_put {α : Type} {key : Key} {v : α} {entries : List (Key × α)} {e : Key × α}
    (h : e ∈ key.put v entries) : e.1 = key ∨ ∃ e' ∈ entries, e.1 = e'.1 := by
  induction entries with
  | nil =>
      cases List.mem_singleton.1 h
      exact .inl rfl
  | cons x rest ih =>
      unfold put at h
      split at h
      · rcases List.mem_cons.1 h with rfl | h
        · exact .inr ⟨x, List.mem_cons_self, rfl⟩
        · exact .inr ⟨e, List.mem_cons_of_mem x h, rfl⟩
      · rcases List.mem_cons.1 h with rfl | h
        · exact .inr ⟨e, List.mem_cons_self, rfl⟩
        · rcases ih h with hkey | ⟨e', he', hkey⟩
          · exact .inl hkey
          · exact .inr ⟨e', List.mem_cons_of_mem x he', hkey⟩

theorem Key.AreApart.put {α : Type} {entries : List (Key × α)} (h : AreApart entries) (key : Key)
    (v : α) : AreApart (key.put v entries) := by
  induction entries with
  | nil => exact List.pairwise_singleton ..
  | cons x rest ih =>
      obtain ⟨hx, hrest⟩ := List.pairwise_cons.1 h
      unfold Key.put
      split
      -- The key that was there stays, and only its value is replaced.
      · exact List.pairwise_cons.2 ⟨hx, hrest⟩
      · rename_i hnew
        refine List.pairwise_cons.2 ⟨fun e he => ?_, ih hrest⟩
        rcases Key.mem_put he with hkey | ⟨e', he', hkey⟩
        · rw [hkey]
          exact Bool.not_eq_true _ ▸ hnew
        · rw [hkey]
          exact hx e' he'

theorem Key.AreApart.areDistinct {α : Type} {entries : List (Key × α)} (h : AreApart entries) :
    AreDistinct (entries.map fun e => (e.1.atom, e.2)) := by
  refine List.pairwise_map.2 (h.imp fun {e e'} hsame => ?_)
  simp only [Key.same, Bool.or_eq_false_iff] at hsame
  exact hsame.1.2

namespace Load

/-- A step of loading that leaves only parts with distinct keys where there were no others, and
gives what satisfies `P`. -/
def Keeps {α : Type} (m : Load α) (P : α → Prop) : Prop :=
  ∀ s a s', s.HasDistinctKeys → m s = .ok (a, s') → s'.HasDistinctKeys ∧ P a

section Steps

variable {α β : Type} {P : α → Prop} {Q : β → Prop} {m : Load α} {f : α → Load β}

theorem Keeps.bind (hm : Keeps m P) (hf : ∀ a, P a → Keeps (f a) Q) : Keeps (m >>= f) Q := by
  intro s b s' hs h
  change (m s >>= fun r => f r.1 r.2) = _ at h
  cases hr : m s with
  | error e =>
      rw [hr] at h
      cases h
  | ok r =>
      rw [hr] at h
      obtain ⟨hs₁, ha⟩ := hm s r.1 r.2 hs hr
      exact hf r.1 ha r.2 b s' hs₁ h

theorem keeps_pure {a : α} (ha : P a) : Keeps (pure a) P := by
  intro s a' s' hs h
  cases h
  exact ⟨hs, ha⟩

theorem keeps_get : Keeps get Loading.HasDistinctKeys := by
  intro s a s' hs h
  cases h
  exact ⟨hs, hs⟩

theorem keeps_set {s : Loading} (hs : s.HasDistinctKeys) : Keeps (set s) fun _ => True := by
  intro s₀ a s' _ h
  cases h
  exact ⟨hs, trivial⟩

theorem keeps_refuse : Keeps (refuse (α := α)) P := by
  intro s a s' _ h
  cases h

theorem keeps_lift (x : Except Error α) : Keeps (liftM x) fun _ => True := by
  intro s a s' hs h
  cases x with
  | error e => cases h
  | ok a' =>
      cases h
      exact ⟨hs, trivial⟩

end Steps

theorem keeps_keep (id : NodeId) {p : Part} (hp : p.HasDistinctKeys) :
    Keeps (keep id p) fun _ => True := by
  intro s a s' hs h
  cases h
  refine ⟨fun q hq => ?_, trivial⟩
  rcases Array.mem_or_eq_of_mem_setIfInBounds hq with hq | hq
  · exact hs q hq
  · cases hq
    exact hp

theorem keeps_forM {α : Type} {f : α → Load Unit} (hf : ∀ a, Keeps (f a) fun _ => True)
    (as : List α) : Keeps (as.forM f) fun _ => True := by
  induction as with
  | nil => exact keeps_pure trivial
  | cons a as ih => exact (hf a).bind fun _ _ => ih

theorem keeps_mapM {α β : Type} {f : α → Load β} (hf : ∀ a, Keeps (f a) fun _ => True)
    (as : List α) : Keeps (as.mapM f) fun _ => True := by
  induction as with
  | nil => exact keeps_pure trivial
  | cons a as ih =>
      rw [List.mapM_cons]
      exact (hf a).bind fun _ _ => ih.bind fun _ _ => keeps_pure trivial

theorem keeps_foldlM {α β : Type} {f : β → α → Load β} {P : β → Prop}
    (hf : ∀ b a, P b → Keeps (f b a) P) (as : List α) {b : β} (hb : P b) :
    Keeps (as.foldlM f b) P := by
  induction as generalizing b with
  | nil => exact keeps_pure hb
  | cons a as ih =>
      rw [List.foldlM_cons]
      exact (hf b a hb).bind fun _ => ih

theorem keeps_visit (id : NodeId) : Keeps (visit id) fun _ => True := by
  have hlater {p : Part} (hp : p.HasDistinctKeys) : Keeps (do
      keep id p
      modify fun s => { s with waiting := id :: s.waiting }) fun _ => True := by
    refine (keeps_keep id hp).bind fun _ _ s a s' hs h => ?_
    cases h
    exact ⟨hs, trivial⟩
  unfold visit
  refine keeps_get.bind fun s _ => ?_
  dsimp only
  split
  · split
    · exact hlater trivial
    · exact hlater trivial
    · exact hlater trivial
    · exact hlater List.Pairwise.nil
    · exact (keeps_lift _).bind fun _ _ => keeps_keep id trivial
  · exact keeps_pure trivial

theorem keeps_keyOf (id : NodeId) : Keeps (keyOf id) fun _ => True := by
  unfold keyOf
  refine keeps_get.bind fun s _ => ?_
  split
  · dsimp only
    split
    · refine (keeps_lift _).bind fun _ _ => ?_
      exact (keeps_pure (P := fun _ => True) trivial).bind fun _ _ => keeps_pure trivial
    · exact (keeps_pure (P := fun _ => True) trivial).bind fun _ _ => keeps_pure trivial
  · exact keeps_refuse

theorem keeps_itemsOf (id : NodeId) : Keeps (itemsOf id) fun _ => True := by
  unfold itemsOf
  refine keeps_get.bind fun s _ => ?_
  split
  · exact keeps_pure trivial
  · exact keeps_refuse

theorem keeps_pair (id : NodeId) : Keeps (pair id) fun _ => True := by
  unfold pair
  refine keeps_get.bind fun s _ => ?_
  split
  · exact (keeps_visit _).bind fun _ _ => (keeps_visit _).bind fun _ _ => keeps_pure trivial
  · exact keeps_refuse

theorem keeps_entries (id : NodeId) : Keeps (entries id) Key.AreApart := by
  unfold entries
  refine keeps_get.bind fun s hs => ?_
  split
  · refine (keeps_lift _).bind fun r _ => ?_
    refine (keeps_set (s := { s with nodes := r.2 }) hs).bind fun _ _ => ?_
    refine keeps_foldlM (fun done e hdone => ?_) _ List.Pairwise.nil
    refine (keeps_visit e.1).bind fun _ _ => (keeps_keyOf e.1).bind fun k _ => ?_
    exact (keeps_visit e.2).bind fun _ _ => keeps_pure (hdone.put k e.2)
  · exact keeps_refuse

theorem keeps_list (id : NodeId) : Keeps (list id) Part.HasDistinctKeys := by
  refine (keeps_itemsOf id).bind fun items _ => ?_
  exact (keeps_forM keeps_visit items).bind fun _ _ => keeps_pure trivial

theorem keeps_pairs (id : NodeId) : Keeps (pairs id) Part.HasDistinctKeys := by
  refine (keeps_itemsOf id).bind fun items _ => ?_
  exact (keeps_mapM keeps_pair items).bind fun _ _ => keeps_pure trivial

theorem keeps_members (id : NodeId) : Keeps (members id) Part.HasDistinctKeys :=
  (keeps_entries id).bind fun _ _ => keeps_pure trivial

theorem keeps_mapping (id : NodeId) : Keeps (mapping id) Part.HasDistinctKeys :=
  (keeps_entries id).bind fun _ hentries => keeps_pure hentries.areDistinct

theorem keeps_collection (id : NodeId) : Keeps (collection id) fun _ => True := by
  unfold collection
  refine keeps_get.bind fun s _ => ?_
  dsimp only
  split
  · exact (keeps_list id).bind fun _ hp => keeps_keep id hp
  · exact (keeps_pairs id).bind fun _ hp => keeps_keep id hp
  · exact (keeps_members id).bind fun _ hp => keeps_keep id hp
  · exact (keeps_mapping id).bind fun _ hp => keeps_keep id hp

theorem keeps_collections (fuel : Nat) : Keeps (collections fuel) fun _ => True := by
  induction fuel with
  | zero => exact keeps_pure trivial
  | succ fuel ih =>
      unfold collections
      refine keeps_get.bind fun s hs => ?_
      split
      · refine (keeps_set (s := { s with waiting := [] }) hs).bind fun _ _ => ?_
        exact (keeps_forM keeps_collection _).bind fun _ _ => ih
      · exact keeps_pure trivial

end Load

theorem Loaded.eq_of_outline {d : Loaded} {entries : List (Atom × Loaded)}
    (h : outline d = .map entries) :
    ∃ es, d.parts.part d.root = .map es ∧ entries = es.map fun e => (e.1, ⟨d.parts, e.2⟩) := by
  change d.outline = .map entries at h
  unfold Loaded.outline at h
  split at h
  · cases h
  · cases h
  · cases h
  · cases h
  · rename_i es hpart
    cases h
    exact ⟨es, hpart, rfl⟩

theorem Loaded.parts_of_isWithin {d p : Loaded} (h : IsWithin d p) : p.parts = d.parts := by
  induction h with
  | self => rfl
  | entry _ hentries he ih =>
      obtain ⟨es, -, rfl⟩ := Loaded.eq_of_outline hentries
      obtain ⟨e', -, rfl⟩ := List.mem_map.1 he
      exact ih

theorem Loaded.hasDistinctKeys {d : Loaded} (h : ∀ p ∈ d.parts, p.HasDistinctKeys) :
    UnderscoreLint.HasDistinctKeys d := by
  intro p entries hp hentries
  obtain ⟨es, hpart, rfl⟩ := eq_of_outline hentries
  rw [parts_of_isWithin hp] at hpart
  have hes : (Part.map es).HasDistinctKeys := by
    unfold Parts.part at hpart
    by_cases hin : p.root < d.parts.size
    · rw [← hpart, Array.getD, dif_pos hin]
      exact h _ (Array.getElem_mem hin)
    · rw [Array.getD, dif_neg hin] at hpart
      cases hpart
  exact List.pairwise_map.2 hes

/-- The keys of a document that was loaded are distinct. -/
theorem hasDistinctKeys_of_load {limits : Limits} {content : ByteArray} {d : Loaded}
    (h : load limits content = .ok (some d)) : UnderscoreLint.HasDistinctKeys d := by
  unfold load at h
  obtain ⟨found, -, h⟩ := exists_of_bind_ok h
  cases found with
  | none => cases h
  | some doc =>
      obtain ⟨d', hd', h⟩ := exists_of_bind_ok h
      cases h
      obtain ⟨r, hr, h⟩ := exists_of_bind_ok hd'
      cases h
      have hstart : ({ limits, nodes := doc.nodes, parts := .replicate doc.nodes.size none } :
          Loading).HasDistinctKeys := by
        intro p hp
        simp at hp
      have hload : Load.Keeps (do
          Load.visit doc.root
          Load.collections doc.nodes.size) fun _ => True :=
        (Load.keeps_visit _).bind fun _ _ => Load.keeps_collections _
      have hkept := (hload _ r.1 r.2 hstart hr).1
      refine Loaded.hasDistinctKeys fun p hp => ?_
      obtain ⟨q, hq, rfl⟩ := Array.mem_map.1 hp
      cases q with
      | none => trivial
      | some p => exact hkept p hq

end Yaml

end UnderscoreLint
