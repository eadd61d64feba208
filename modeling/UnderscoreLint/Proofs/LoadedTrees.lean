import UnderscoreLint.Proofs.CheckedSettings
import UnderscoreLint.Proofs.Loading
import UnderscoreLint.Proofs.UniqueFindings

/-!
# The trees of files

Whatever JSON text a value is read from, no name occurs twice in a mapping of it, because a name
that comes again takes the place of the first, and there are no records in it. What is known of
such values is known of every tree that is loaded from a file (`isPlain_of_readTree`). So a run with
checked settings reports nothing twice, unless a file is given twice (`nodup_of_lint`).

The three functions of the reader call one another, each with less fuel. The invariant of the
functions for lists and mappings is about the items and entries that were read before.
-/

namespace UnderscoreLint

namespace Value

/-- Names are distinct, and there are no records. -/
structure IsPlain (v : Value) : Prop where
  wellFormed : v.WellFormed
  recordFree : v.RecordFree

theorem isPlain_scalar (s : Scalar) : (Value.scalar s).IsPlain :=
  ⟨.scalar s, .scalar s⟩

theorem isPlain_list {items : List Value} (h : ∀ v ∈ items, v.IsPlain) :
    (Value.list items).IsPlain :=
  ⟨.list fun v hv => (h v hv).wellFormed, .list fun v hv => (h v hv).recordFree⟩

theorem isPlain_map {entries : List (Text × Value)} (hdistinct : (entries.map (·.1)).Nodup)
    (h : ∀ e ∈ entries, e.2.IsPlain) : (Value.map entries).IsPlain :=
  ⟨.map hdistinct fun e he => (h e he).wellFormed, .map fun e he => (h e he).recordFree⟩

theorem mem_insert {name : Text} {v : Value} {entries : List (Text × Value)} {e : Text × Value}
    (h : e ∈ insert name v entries) : e = (name, v) ∨ e ∈ entries := by
  induction entries with
  | nil => exact .inl (List.mem_singleton.1 h)
  | cons x rest ih =>
      rw [insert] at h
      split at h
      · exact (List.mem_cons.1 h).imp_right (List.mem_cons_of_mem x)
      · rcases List.mem_cons.1 h with rfl | h
        · exact .inr List.mem_cons_self
        · exact (ih h).imp_right (List.mem_cons_of_mem x)

theorem nodup_insert {entries : List (Text × Value)} (h : (entries.map (·.1)).Nodup)
    (name : Text) (v : Value) : ((insert name v entries).map (·.1)).Nodup := by
  rw [map_fst_insert]
  split
  · exact h
  · rename_i hnew
    exact List.nodup_append.2 ⟨h, List.nodup_singleton name, fun a ha b hb hab =>
      hnew (List.mem_singleton.1 hb ▸ hab ▸ ha)⟩

/-- An entry of a mapping of plain values that is put into it leaves it one. -/
theorem IsPlain.insert {entries : List (Text × Value)} (h : (Value.map entries).IsPlain)
    (name : Text) {v : Value} (hv : v.IsPlain) : (Value.map (insert name v entries)).IsPlain := by
  obtain ⟨hdistinct, hwf⟩ := wellFormed_map_iff.1 h.wellFormed
  have hfree := recordFree_map_iff.1 h.recordFree
  refine isPlain_map (nodup_insert hdistinct name v) fun e he => ?_
  rcases mem_insert he with rfl | he
  · exact hv
  · exact ⟨hwf e he, hfree e he⟩

end Value

namespace Json

variable {fuel room : Nat} {cs rest : List Char} {v : Value}

theorem isPlain_of_readScalar (h : readScalar cs = .ok (v, rest)) : v.IsPlain := by
  unfold readScalar at h
  split at h
  · cases h
    exact Value.isPlain_scalar _
  · split at h
    · obtain ⟨s, -, h⟩ := exists_of_bind_ok h
      cases h
      exact Value.isPlain_scalar _
    · cases h

theorem exists_of_inside {α : Type} {read : Nat → Reading α} {a : α}
    (h : inside room read = .ok a) : ∃ room', read room' = .ok a := by
  cases room with
  | zero => cases h
  | succ room => exact ⟨room, h⟩

/-- What is known of the values that the reader gives with some fuel. -/
structure ReadsPlain (fuel : Nat) : Prop where
  value : ∀ {room cs v rest}, readValue fuel room cs = .ok (v, rest) → v.IsPlain
  items : ∀ {room cs items v rest}, (∀ w ∈ items, w.IsPlain) →
    readItems fuel room cs items = .ok (v, rest) → v.IsPlain
  entries : ∀ {room cs entries v rest}, (Value.map entries).IsPlain →
    readEntries fuel room cs entries = .ok (v, rest) → v.IsPlain

namespace ReadsPlain

theorem readValue_succ (h : ReadsPlain fuel)
    (hread : readValue (fuel + 1) room cs = .ok (v, rest)) : v.IsPlain := by
  unfold readValue at hread
  split at hread
  · cases ‹fuel + 1 = 0›
  · obtain ⟨s, -, hread⟩ := exists_of_bind_ok hread
    cases hread
    exact Value.isPlain_scalar _
  · obtain ⟨room', hread⟩ := exists_of_inside hread
    split at hread
    · cases hread
      exact Value.isPlain_list (by simp)
    · cases ‹fuel + 1 = _›
      exact h.items (by simp) hread
  · obtain ⟨room', hread⟩ := exists_of_inside hread
    split at hread
    · cases hread
      exact Value.isPlain_map (by simp) (by simp)
    · cases ‹fuel + 1 = _›
      exact h.entries (Value.isPlain_map (by simp) (by simp)) hread
  · exact isPlain_of_readScalar hread

theorem readItems_succ (h : ReadsPlain fuel) {items : List Value} (hitems : ∀ w ∈ items, w.IsPlain)
    (hread : readItems (fuel + 1) room cs items = .ok (v, rest)) : v.IsPlain := by
  rw [readItems] at hread
  obtain ⟨⟨w, rest'⟩, hw, hread⟩ := exists_of_bind_ok hread
  have hcons : ∀ x ∈ w :: items, x.IsPlain := List.forall_mem_cons.2 ⟨h.value hw, hitems⟩
  dsimp only at hread
  split at hread
  · cases hread
    exact Value.isPlain_list fun x hx => hcons x (List.mem_reverse.1 hx)
  · exact h.items hcons hread
  · cases hread

theorem readEntries_succ (h : ReadsPlain fuel) {entries : List (Text × Value)}
    (hentries : (Value.map entries).IsPlain)
    (hread : readEntries (fuel + 1) room cs entries = .ok (v, rest)) : v.IsPlain := by
  rw [readEntries] at hread
  obtain ⟨⟨name, rest'⟩, -, hread⟩ := exists_of_bind_ok hread
  obtain ⟨⟨w, rest''⟩, hw, hread⟩ := exists_of_bind_ok hread
  have hinsert := hentries.insert name (h.value hw)
  dsimp only at hread
  split at hread
  · cases hread
    exact hinsert
  · exact h.entries hinsert hread
  · cases hread

end ReadsPlain

theorem readsPlain (fuel : Nat) : ReadsPlain fuel := by
  induction fuel with
  | zero =>
      refine ⟨fun h => ?_, fun _ h => ?_, fun _ h => ?_⟩
      · rw [readValue] at h
        cases h
      · rw [readItems] at h
        cases h
      · rw [readEntries] at h
        cases h
  | succ fuel ih => exact ⟨ih.readValue_succ, ih.readItems_succ, ih.readEntries_succ⟩

/-- A value that is read from a JSON text has distinct names and no records. -/
theorem isPlain_of_read (h : read room cs = .ok v) : v.IsPlain := by
  unfold read at h
  split at h
  · rename_i v' hdocument
    cases h
    unfold readDocument at hdocument
    split at hdocument
    · cases hdocument
    · obtain ⟨⟨w, rest⟩, hw, hdocument⟩ := exists_of_bind_ok hdocument
      dsimp only at hdocument
      split at hdocument
      · cases hdocument
        exact (readsPlain _).value hw
      · cases hdocument
  · cases h
  · cases h
  · cases h

end Json

/-- The tree of a file has distinct names and no records. -/
theorem isPlain_of_readTree {host : Host} {path : String} {tree : Value}
    (h : readTree host path = .ok tree) : tree.IsPlain := by
  cases readTree_eq_iff.1 h with
  | tree htext hjson hv => exact Json.isPlain_of_read hjson

/-- The findings of a file differ in rule, address or message. -/
theorem LintsTo.nodup {host : Host} {s : Settings} {path : String} {ds : List Diagnostic}
    (h : LintsTo host s path ds) : (ds.map Diagnostic.identity).Nodup := by
  obtain ⟨tree, hload, hlint⟩ := h
  have hread : readTree host path = .ok tree := (fst_runFrom_loadTree ..).symm.trans (hload #[])
  have hwf : (Place.top ⟨[], tree⟩).node.value.WellFormed := (isPlain_of_readTree hread).wellFormed
  rw [eq_found_of_lintTree (isMap_of_readTree hread) (hlint #[]), Settings.found_answers]
  exact Place.nodup_findings s.overrides (List.Nodup.filter _ (by decide)) hwf

/-- The findings of a run differ in path, rule, address or message. -/
theorem nodup_of_lint {host : Host} {source : SettingsSource} (hsource : source.Checked)
    {paths : List String} (hpaths : paths.Nodup) {clock : Clock} {log : Log} {report : Report}
    (h : ((lint host source paths clock).runFrom log).1 = .ok report) :
    (report.findings.map fun f => (f.path, f.diagnostic.identity)).Nodup := by
  cases hs : source.resolve host with
  | error e =>
      rw [runFrom_lint_of_error hs] at h
      cases h
  | ok s =>
      obtain ⟨c, -, rfl⟩ := hsource.exists_config hs
      obtain ⟨found, hfound, rfl⟩ := (lint_eq_ok_iff hs).1 h
      rw [List.map_flatMap]
      refine nodup_flatMap_of_origin Text.ofString (fun k => k.1) ?_ ?_ ?_
      · exact hpaths.map fun _ _ => Text.ofString_inj.1
      · intro path hpath
        refine List.Nodup.of_map Prod.snd ?_
        rw [List.map_map, List.map_map]
        exact (hfound path hpath).nodup
      · intro path _ k hk
        obtain ⟨f, hf, rfl⟩ := List.mem_map.1 hk
        obtain ⟨d, -, rfl⟩ := List.mem_map.1 hf
        rfl

end UnderscoreLint
