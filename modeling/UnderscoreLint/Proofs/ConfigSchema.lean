import Mathlib.Data.List.Forall2
import UnderscoreLint.Proofs.CheckedSettings
import UnderscoreLint.Proofs.DistinctKeys
import UnderscoreLint.Proofs.ShownWords

/-!
# The schema of configurations

`Config.IsDocument d c` says what a configuration looks like in a document and which one it is. It
speaks of the parts of the document only, not of how they are checked or shown: a document is
absent, or a mapping with a version that is one and with rules, which are absent or a mapping from
ids to settings. A document is accepted exactly if it is that of a configuration, and it is accepted
as this configuration (`Config.parse_eq_ok_iff`).

`Config.EntryFault` lists what may be wrong with an entry of the rules. Of several wrong entries the
first one is told (`Config.parse_of_entryFault`).
-/

namespace UnderscoreLint

theorem mapM_eq_ok_iff {ε α β : Type} {f : α → Except ε β} {as : List α} {bs : List β} :
    as.mapM f = .ok bs ↔ List.Forall₂ (fun a b => f a = .ok b) as bs := by
  induction as generalizing bs with
  | nil =>
      rw [List.mapM_nil, List.forall₂_nil_left_iff]
      constructor
      · intro h
        cases h
        rfl
      · rintro rfl
        rfl
  | cons a as ih =>
      rw [List.mapM_cons]
      constructor
      · intro h
        obtain ⟨b, ha, h⟩ := exists_of_bind_ok h
        obtain ⟨bs', has, h⟩ := exists_of_bind_ok h
        cases h
        exact .cons ha (ih.1 has)
      · intro h
        cases h with
        | cons ha has =>
            rw [ha, ih.2 has]
            rfl

/-- Going through a list fails at the first member that is refused. -/
theorem mapM_eq_error_iff {ε α β : Type} {f : α → Except ε β} {as : List α} {e : ε} :
    as.mapM f = .error e ↔ ∃ before a after, as = before ++ a :: after ∧
      (∀ b ∈ before, ∃ c, f b = .ok c) ∧ f a = .error e := by
  constructor
  · intro h
    induction as with
    | nil => cases h
    | cons a as ih =>
        rw [List.mapM_cons] at h
        rcases error_of_bind_error h with ha | ⟨c, ha, h⟩
        · exact ⟨[], a, as, rfl, by simp, ha⟩
        · rcases error_of_bind_error h with has | ⟨cs, -, h⟩
          · obtain ⟨before, a', after, rfl, hbefore, ha'⟩ := ih has
            refine ⟨a :: before, a', after, rfl, ?_, ha'⟩
            exact List.forall_mem_cons.2 ⟨⟨c, ha⟩, hbefore⟩
          · cases h
  · rintro ⟨before, a, after, rfl, hbefore, ha⟩
    induction before with
    | nil =>
        rw [List.nil_append, List.mapM_cons, ha]
        rfl
    | cons b before ih =>
        obtain ⟨⟨c, hc⟩, hrest⟩ := List.forall_mem_cons.1 hbefore
        rw [List.cons_append, List.mapM_cons, hc, ih hrest]
        rfl

/-- Documents that are an atom when they are written out exactly if they look like it. -/
class LawfulOutlined (α : Type) [Outlined α] : Prop where
  datum_eq_atom_iff (d : α) (a : Atom) : Outlined.datum d = .atom a ↔ outline d = .atom a

instance : LawfulOutlined Datum where
  datum_eq_atom_iff d a := by
    change d = .atom a ↔ d.outline = .atom a
    cases d <;> simp [Datum.outline]

instance : LawfulOutlined Yaml.Loaded where
  datum_eq_atom_iff d a := by
    change d.parts.datumFrom (d.parts.size + 1) [] d.root = .atom a ↔ d.outline = .atom a
    unfold Yaml.Parts.datumFrom Yaml.Loaded.outline
    cases d.parts.part d.root <;> simp

/-- The number one, in any of the forms that are equal to it. -/
inductive Atom.IsOne : Atom → Prop where
  | int : IsOne (.scalar (.int 1))
  | bool : IsOne (.scalar (.bool true))
  | float {x : Float} (h : Scalar.floatIsInt x 1 = true) : IsOne (.scalar (.float x))

theorem Atom.isOne_iff_same {a : Atom} :
    a.IsOne ↔ a.same (.scalar (.int Config.version)) = true := by
  constructor
  · intro h
    cases h with
    | int | bool => rfl
    | float h => exact h
  · intro h
    cases a with
    | bytes _ | date _ | time _ => cases h
    | scalar s =>
        cases s with
        | null | text _ => cases h
        | bool b =>
            cases b with
            | false => cases h
            | true => exact .bool
        | int n =>
            have hn : n = 1 := by simpa [same, Scalar.same, Config.version] using h
            subst hn
            exact .int
        | float x => exact .float h

namespace Config

variable {α : Type} [Outlined α]

/-- A part of a document gives a setting: it is one of the words, or the boolean that a bare `off`
is loaded as. -/
inductive IsSetting (d : α) : Text → Prop where
  | off (h : outline d = .atom (.scalar (.bool false))) : IsSetting d Config.off
  | word {s : Text} (hs : s ∈ validSettings) (h : outline d = .atom (.text s)) : IsSetting d s

/-- An entry gives a setting to the rule that is its key. -/
structure IsEntry (e : Atom × α) (r : Text × Text) : Prop where
  key : e.1 = .text r.1
  mem_ids : r.1 ∈ Convention.ids
  setting : IsSetting e.2 r.2

/-- What a document may have for its rules, and the settings of these rules in order. -/
inductive IsRules : Option α → List (Text × Text) → Prop where
  | absent : IsRules none []
  | null {d : α} (h : outline d = .atom (.scalar .null)) : IsRules (some d) []
  | map {d : α} {entries : List (Atom × α)} {rules : List (Text × Text)}
      (h : outline d = .map entries) (hentries : List.Forall₂ IsEntry entries rules) :
      IsRules (some d) rules

/-- The entries of a document have a version, and it is one. -/
def HasVersion (entries : List (Atom × α)) : Prop :=
  ∃ v a, Outline.lookup "version" entries = some v ∧ outline v = .atom a ∧ a.IsOne

/-- The documents of a configuration. -/
inductive IsDocument (d : α) : Config → Prop where
  | absent (h : outline d = .atom (.scalar .null)) : IsDocument d {}
  | map {entries : List (Atom × α)} {rules : List (Text × Text)}
      (h : outline d = .map entries) (hversion : HasVersion entries)
      (hrules : IsRules (Outline.lookup "rules" entries) rules) : IsDocument d { rules }

/-- What may be wrong with an entry of the rules. -/
inductive EntryFault (room : Nat) (source : Text) (e : Atom × α) : ConfigFault → Prop where
  | longKey (hlong : e.1.isLong = true) : EntryFault room source e (.unshown .longInteger)
  | unknownRule (hkey : ∀ id ∈ Convention.ids, e.1 ≠ .text id) (hlong : e.1.isLong = false) :
      EntryFault room source e (.error (.unknownRule source e.1.shown))
  | unshownSetting {id : Text} {h : Hindrance} (hid : id ∈ Convention.ids)
      (hkey : e.1 = .text id) (hsetting : ∀ s, ¬ IsSetting e.2 s)
      (hshown : (Outlined.datum e.2).hindrance? room = some h) :
      EntryFault room source e (.unshown h)
  | invalidSetting {id : Text} (hid : id ∈ Convention.ids) (hkey : e.1 = .text id)
      (hsetting : ∀ s, ¬ IsSetting e.2 s)
      (hshown : (Outlined.datum e.2).hindrance? room = none) :
      EntryFault room source e (.error (.invalidSetting source id (Outlined.datum e.2).shown))

section Settings

variable [LawfulOutlined α] {room : Nat} {source id s : Text} {d : α}

theorem parseSetting_of_isSetting (h : IsSetting d s) : parseSetting room source id d = .ok s := by
  unfold parseSetting
  cases h with
  | off h => rw [h]
  | word hs h =>
      have hdatum : Outlined.datum d = .text s := (LawfulOutlined.datum_eq_atom_iff d _).2 h
      have hvalid : validSettings.contains s = true := List.contains_iff_mem.2 hs
      rw [h, hdatum]
      change (if validSettings.contains s = true then Except.ok s else _) = Except.ok s
      rw [if_pos hvalid]

/-- What is no setting is not shown like one either. -/
theorem shown_not_mem_of_not_isSetting (h : ∀ s, ¬ IsSetting d s) :
    (Outlined.datum d).shown ∉ validSettings := by
  intro hmem
  obtain ⟨s, -, hs⟩ := Datum.shown_mem_words_iff.1 (List.mem_append_right Convention.ids hmem)
  rw [hs] at hmem
  exact h s (.word hmem ((LawfulOutlined.datum_eq_atom_iff d _).1 hs))

theorem parseSetting_of_not_isSetting (h : ∀ s, ¬ IsSetting d s) :
    parseSetting room source id d = .error (match (Outlined.datum d).hindrance? room with
      | none => .error (.invalidSetting source id (Outlined.datum d).shown)
      | some h => .unshown h) := by
  have hshown : validSettings.contains (Outlined.datum d).shown = false := by
    simpa using shown_not_mem_of_not_isSetting h
  unfold parseSetting textOf
  split
  · rename_i hoff
    exact absurd (.off hoff) (h _)
  · cases (Outlined.datum d).hindrance? room with
    | some h => rfl
    | none =>
        change (if validSettings.contains _ = true then _ else _) = _
        rw [hshown]
        rfl

end Settings

section Entries

variable {room : Nat} {source : Text} {e : Atom × α} {r : Text × Text} {f : ConfigFault}

/-- What is no id is not shown like one either. -/
theorem shown_not_mem_ids {a : Atom} (h : ∀ id ∈ Convention.ids, a ≠ .text id) :
    a.shown ∉ Convention.ids := by
  intro hmem
  obtain ⟨s, -, hs⟩ := (Datum.shown_mem_words_iff (d := .atom a)).1
    (List.mem_append_left validSettings hmem)
  cases hs
  exact h s hmem rfl

theorem parseRule_of_mem_ids {id : Text} (hid : id ∈ Convention.ids) (hkey : e.1 = .text id) :
    parseRule room source e = (parseSetting room source id e.2).map (id, ·) := by
  have hknown : Convention.ids.contains id = true := List.contains_iff_mem.2 hid
  have htext : textOf room (.atom e.1) = .ok id := by
    rw [hkey]
    rfl
  unfold parseRule
  rw [htext]
  change (if Convention.ids.contains id = true then _ else _) = _
  rw [if_pos hknown]
  cases parseSetting room source id e.2 <;> rfl

/-- An entry is right or has a fault. -/
theorem isEntry_or_entryFault (room : Nat) (source : Text) (e : Atom × α) :
    (∃ r, IsEntry e r) ∨ ∃ f, EntryFault room source e f := by
  by_cases hkey : ∃ id ∈ Convention.ids, e.1 = .text id
  · obtain ⟨id, hid, hkey⟩ := hkey
    by_cases hsetting : ∃ s, IsSetting e.2 s
    · obtain ⟨s, hs⟩ := hsetting
      exact .inl ⟨(id, s), hkey, hid, hs⟩
    · refine .inr ?_
      cases hshown : (Outlined.datum e.2).hindrance? room with
      | some h => exact ⟨_, .unshownSetting hid hkey (not_exists.1 hsetting) hshown⟩
      | none => exact ⟨_, .invalidSetting hid hkey (not_exists.1 hsetting) hshown⟩
  · refine .inr ?_
    cases hlong : e.1.isLong with
    | true => exact ⟨_, .longKey hlong⟩
    | false => exact ⟨_, .unknownRule (fun id hid h => hkey ⟨id, hid, h⟩) hlong⟩

variable [LawfulOutlined α]

theorem parseRule_of_isEntry (h : IsEntry e r) : parseRule room source e = .ok r := by
  rw [parseRule_of_mem_ids h.mem_ids h.key, parseSetting_of_isSetting h.setting]
  rfl

theorem parseRule_of_entryFault (h : EntryFault room source e f) :
    parseRule room source e = .error f := by
  cases h with
  | longKey hlong =>
      have htext : textOf room (.atom e.1) = .error (.unshown .longInteger) := by
        simp [textOf, Datum.hindrance?, Atom.hindrance?, hlong]
      unfold parseRule
      rw [htext]
      rfl
  | unknownRule hkey hlong =>
      have htext : textOf room (.atom e.1) = .ok e.1.shown := by
        simp [textOf, Datum.hindrance?, Atom.hindrance?, hlong, Datum.shown]
      have hunknown : Convention.ids.contains e.1.shown = false := by
        simpa using shown_not_mem_ids hkey
      unfold parseRule
      rw [htext]
      change (if Convention.ids.contains e.1.shown = true then _ else _) = _
      rw [hunknown]
      rfl
  | unshownSetting hid hkey hsetting hshown | invalidSetting hid hkey hsetting hshown =>
      rw [parseRule_of_mem_ids hid hkey, parseSetting_of_not_isSetting hsetting, hshown]
      rfl

theorem parseRule_eq_ok_iff : parseRule room source e = .ok r ↔ IsEntry e r := by
  refine ⟨fun h => ?_, parseRule_of_isEntry⟩
  rcases isEntry_or_entryFault room source e with ⟨r', hr'⟩ | ⟨f, hf⟩
  · cases (parseRule_of_isEntry hr').symm.trans h
    exact hr'
  · cases (parseRule_of_entryFault hf).symm.trans h

theorem parseRule_eq_error_iff :
    parseRule room source e = .error f ↔ EntryFault room source e f := by
  refine ⟨fun h => ?_, parseRule_of_entryFault⟩
  rcases isEntry_or_entryFault room source e with ⟨r', hr'⟩ | ⟨f', hf'⟩
  · cases (parseRule_of_isEntry hr').symm.trans h
  · cases (parseRule_of_entryFault hf').symm.trans h
    exact hf'

end Entries

section Documents

variable {room : Nat} {source : Text} {d : α}

theorem parse_of_map {entries : List (Atom × α)} (hd : outline d = .map entries) :
    parse room d source = do
      checkVersion room source (Outline.lookup "version" entries)
      let rules ← parseRules room source (Outline.lookup "rules" entries)
      return { rules } := by
  unfold parse
  rw [hd]

theorem checkVersion_of_atom {v : α} {a : Atom} (hv : outline v = .atom a)
    (hnull : a ≠ .scalar .null) :
    checkVersion room source (some v) =
      if a.same (.scalar (.int version)) then .ok ()
      else .error (versionFault room source (.atom a)) := by
  unfold checkVersion
  rw [Option.map_some, hv]
  cases a with
  | bytes _ | date _ | time _ => rfl
  | scalar s =>
      cases s with
      | null => exact absurd rfl hnull
      | bool _ | int _ | float _ | text _ => rfl

theorem checkVersion_of_atom_eq_ok_iff {v : α} {a : Atom} (hv : outline v = .atom a) :
    checkVersion room source (some v) = .ok () ↔ a.IsOne := by
  rw [Atom.isOne_iff_same]
  by_cases hnull : a = .scalar .null
  · subst hnull
    rw [checkVersion, Option.map_some, hv]
    exact iff_of_false nofun nofun
  · rw [checkVersion_of_atom hv hnull]
    split <;> simp_all

theorem checkVersion_eq_ok_iff {entries : List (Atom × α)} :
    checkVersion room source (Outline.lookup "version" entries) = .ok () ↔ HasVersion entries := by
  constructor
  · intro h
    cases hversion : Outline.lookup "version" entries with
    | none =>
        rw [hversion] at h
        cases h
    | some v =>
        rw [hversion] at h
        cases hv : outline v with
        | atom a => exact ⟨v, a, hversion, hv, (checkVersion_of_atom_eq_ok_iff hv).1 h⟩
        | list | set | map =>
            rw [checkVersion, Option.map_some, hv] at h
            cases h
  · rintro ⟨v, a, hversion, hv, ha⟩
    rw [hversion]
    exact (checkVersion_of_atom_eq_ok_iff hv).2 ha

variable [LawfulOutlined α]

theorem parseRules_eq_ok_iff {rules : Option α} {rs : List (Text × Text)} :
    parseRules room source rules = .ok rs ↔ IsRules rules rs := by
  constructor
  · intro h
    unfold parseRules at h
    split at h
    · rename_i hrules
      cases h
      rw [Option.map_eq_none_iff.1 hrules]
      exact .absent
    · rename_i hrules
      cases h
      obtain ⟨d, rfl, hd⟩ := Option.map_eq_some_iff.1 hrules
      exact .null hd
    · rename_i hrules
      obtain ⟨d, rfl, hd⟩ := Option.map_eq_some_iff.1 hrules
      exact .map hd ((mapM_eq_ok_iff.1 h).imp fun _ _ => parseRule_eq_ok_iff.1)
    · cases h
  · intro h
    unfold parseRules
    cases h with
    | absent => rfl
    | null h => rw [Option.map_some, h]
    | map h hentries =>
        rw [Option.map_some, h]
        exact mapM_eq_ok_iff.2 (hentries.imp fun _ _ => parseRule_of_isEntry)

theorem parseRules_of_entryFault {rules : α} {before after : List (Atom × α)} {e : Atom × α}
    {f : ConfigFault} (hrules : outline rules = .map (before ++ e :: after))
    (hbefore : ∀ b ∈ before, ∃ r, IsEntry b r) (he : EntryFault room source e f) :
    parseRules room source (some rules) = .error f := by
  unfold parseRules
  rw [Option.map_some, hrules]
  refine mapM_eq_error_iff.2 ⟨before, e, after, rfl, ?_, parseRule_of_entryFault he⟩
  intro b hb
  obtain ⟨r, hr⟩ := hbefore b hb
  exact ⟨r, parseRule_of_isEntry hr⟩

/-- A document is accepted as a configuration exactly if it is one of its documents. -/
theorem parse_eq_ok_iff {c : Config} : parse room d source = .ok c ↔ IsDocument d c := by
  constructor
  · intro h
    unfold parse at h
    split at h
    · rename_i hd
      cases h
      exact .absent hd
    · rename_i entries hd
      obtain ⟨⟨⟩, hversion, h⟩ := exists_of_bind_ok h
      obtain ⟨rules, hrules, h⟩ := exists_of_bind_ok h
      cases h
      exact .map hd (checkVersion_eq_ok_iff.1 hversion) (parseRules_eq_ok_iff.1 hrules)
    · cases h
  · intro h
    cases h with
    | absent h =>
        unfold parse
        rw [h]
    | map h hversion hrules =>
        rw [parse_of_map h, checkVersion_eq_ok_iff.2 hversion, parseRules_eq_ok_iff.2 hrules]
        rfl

/-- Of the entries that are wrong the first one is told. -/
theorem parse_of_entryFault {entries before after : List (Atom × α)} {rules : α} {e : Atom × α}
    {f : ConfigFault} (hd : outline d = .map entries) (hversion : HasVersion entries)
    (hlookup : Outline.lookup "rules" entries = some rules)
    (hrules : outline rules = .map (before ++ e :: after))
    (hbefore : ∀ b ∈ before, ∃ r, IsEntry b r) (he : EntryFault room source e f) :
    parse room d source = .error f := by
  rw [parse_of_map hd, checkVersion_eq_ok_iff.2 hversion, hlookup,
    parseRules_of_entryFault hrules hbefore he]
  rfl

end Documents

/-- The document that is written for a configuration. -/
def document (c : Config) : Datum :=
  .map [(.text "version", .scalar (.int version)),
    (.text "rules", .map (c.rules.map fun r => (.text r.1, .text r.2)))]

theorem isDocument_document {c : Config}
    (h : ∀ r ∈ c.rules, r.1 ∈ Convention.ids ∧ r.2 ∈ validSettings) :
    IsDocument c.document c := by
  have hentries : List.Forall₂ IsEntry
      (c.rules.map fun r => (Atom.text r.1, Datum.text r.2)) c.rules := by
    rw [List.forall₂_map_left_iff, List.forall₂_same]
    intro r hr
    exact ⟨rfl, (h r hr).1, .word (h r hr).2 rfl⟩
  exact .map rfl ⟨_, _, rfl, rfl, .int⟩ (.map rfl hentries)

section Keys

variable {d : α} {c : Config} {rs : List (Text × Text)}

theorem IsSetting.mem_validSettings {s : Text} (h : IsSetting d s) : s ∈ validSettings := by
  cases h with
  | off => decide
  | word hs => exact hs

theorem of_mem_of_isEntry {entries : List (Atom × α)} (h : List.Forall₂ IsEntry entries rs) :
    ∀ r ∈ rs, r.1 ∈ Convention.ids ∧ r.2 ∈ validSettings := by
  induction h with
  | nil => simp
  | cons he _ ih => exact List.forall_mem_cons.2 ⟨⟨he.mem_ids, he.setting.mem_validSettings⟩, ih⟩

theorem IsRules.of_mem {rules : Option α} (h : IsRules rules rs) :
    ∀ r ∈ rs, r.1 ∈ Convention.ids ∧ r.2 ∈ validSettings := by
  cases h with
  | absent | null => simp
  | map _ hentries => exact of_mem_of_isEntry hentries

theorem IsDocument.of_mem (h : IsDocument d c) :
    ∀ r ∈ c.rules, r.1 ∈ Convention.ids ∧ r.2 ∈ validSettings := by
  cases h with
  | absent => simp
  | map _ _ hrules => exact hrules.of_mem

theorem nodup_of_areDistinct {entries : List (Atom × α)} (hdistinct : AreDistinct entries)
    (h : List.Forall₂ IsEntry entries rs) : (rs.map (·.1)).Nodup := by
  -- The keys of the entries are the ids as texts, and distinct texts are distinct ids.
  have hkeys : entries.map (·.1) = (rs.map (·.1)).map Atom.text := by
    induction h with
    | nil => rfl
    | cons he _ ih =>
        rw [List.map_cons, he.key, ih hdistinct.of_cons]
        rfl
  have hpairwise : (entries.map (·.1)).Pairwise fun a b => a.same b = false :=
    List.pairwise_map.2 hdistinct
  rw [hkeys, List.pairwise_map] at hpairwise
  refine hpairwise.imp fun {id id'} hsame hid => ?_
  subst hid
  simp [Atom.text, Atom.same, Scalar.same] at hsame

theorem IsDocument.nodup_ids (h : IsDocument d c) (hd : HasDistinctKeys d) :
    (c.rules.map (·.1)).Nodup := by
  cases h with
  | absent => exact List.nodup_nil
  | @map entries rs hmap _ hrules =>
      generalize hlookup : Outline.lookup "rules" entries = rules at hrules
      cases hrules with
      | absent | null => exact List.nodup_nil
      | map h hentries =>
          have hdistinct := hd _ _ (IsWithin.self.of_lookup hmap hlookup) h
          exact nodup_of_areDistinct hdistinct hentries

end Keys

/-- Where ids are distinct, the setting of an id is that of its entry. -/
theorem lookup_eq_some_iff_mem {rs : List (Text × Text)} (hrs : (rs.map (·.1)).Nodup)
    {id s : Text} : rs.lookup id = some s ↔ (id, s) ∈ rs := by
  rw [List.lookup_eq_some_iff]
  constructor
  · rintro ⟨before, after, rfl, -⟩
    simp
  · intro h
    obtain ⟨before, after, rfl⟩ := List.append_of_mem h
    refine ⟨before, after, rfl, fun r hr => ?_⟩
    rw [List.map_append, List.map_cons, List.nodup_middle, List.nodup_cons] at hrs
    have hid : id ∉ before.map (·.1) := fun hmem => hrs.1 (List.mem_append_left _ hmem)
    exact bne_iff_ne.2 fun heq => hid (List.mem_map.2 ⟨r, hr, heq.symm⟩)

section Distinct

variable {c : Config} (hrules : (c.rules.map (·.1)).Nodup)
include hrules

theorem enabled_eq_filter :
    c.enabled = Convention.ids.filter fun id => (id, off) ∉ c.rules := by
  refine List.filter_congr fun id _ => ?_
  rw [Bool.eq_iff_iff, bne_iff_ne, decide_eq_true_iff]
  exact not_congr (lookup_eq_some_iff_mem hrules)

/-- An entry that is not off has a severity, and its rule is enabled. -/
theorem of_mem_overrides (hmem : ∀ r ∈ c.rules, r.1 ∈ Convention.ids ∧ r.2 ∈ validSettings) :
    ∀ r ∈ c.overrides, r.2 ∈ [Severity.error, Severity.warn] ∧ r.1 ∈ c.enabled := by
  intro r hr
  obtain ⟨hr, hoff⟩ := List.mem_filter.1 hr
  have hoff : r.2 ≠ off := bne_iff_ne.1 hoff
  obtain ⟨hid, hsetting⟩ := hmem r hr
  refine ⟨by simpa [validSettings, hoff] using hsetting, ?_⟩
  refine List.mem_filter.2 ⟨hid, bne_iff_ne.2 fun hlookup => hoff ?_⟩
  exact Option.some.inj (((lookup_eq_some_iff_mem hrules).2 hr).symm.trans hlookup)

end Distinct

/-- A document is accepted exactly if it is that of a configuration. If it is not because of its
rules, the first wrong entry is told. What is written for the configuration is accepted as the same
one again. Where keys are distinct, as they are in a document that was loaded, a rule is either off
or enabled. -/
theorem parse_meets_schema {α : Type} [Outlined α] [LawfulOutlined α] (room : Nat) (d : α)
    (source : Text) :
    (∀ c, parse room d source = .ok c ↔ IsDocument d c) ∧
    (∀ entries rules before e after, outline d = .map entries → HasVersion entries →
      Outline.lookup "rules" entries = some rules → outline rules = .map (before ++ e :: after) →
      (∀ b ∈ before, ∃ r, IsEntry b r) → (∀ r, ¬ IsEntry e r) →
      ∃ f, EntryFault room source e f ∧ parse room d source = .error f) ∧
    ∀ c, parse room d source = .ok c →
      (∀ room' source', parse room' c.document source' = .ok c) ∧
      (HasDistinctKeys d →
        c.enabled = Convention.ids.filter (fun id => (id, off) ∉ c.rules) ∧
        c.overrides = c.rules.filter (fun r => r.2 ≠ off) ∧
        ∀ r ∈ c.overrides, r.2 ∈ [Severity.error, Severity.warn] ∧ r.1 ∈ c.enabled) := by
  refine ⟨fun c => parse_eq_ok_iff, ?_, fun c hc => ?_⟩
  · intro entries rules before e after hd hversion hlookup hrules hbefore he
    obtain ⟨r, hr⟩ | ⟨f, hf⟩ := isEntry_or_entryFault room source e
    · exact absurd hr (he r)
    · exact ⟨f, hf, parse_of_entryFault hd hversion hlookup hrules hbefore hf⟩
  · have hdocument : IsDocument d c := parse_eq_ok_iff.1 hc
    refine ⟨fun _ _ => parse_eq_ok_iff.2 (isDocument_document hdocument.of_mem), fun hkeys => ?_⟩
    have hrules := hdocument.nodup_ids hkeys
    refine ⟨enabled_eq_filter hrules, ?_, of_mem_overrides hrules hdocument.of_mem⟩
    refine List.filter_congr fun r _ => ?_
    rw [Bool.eq_iff_iff, bne_iff_ne, decide_eq_true_iff]

/-- A bare `off` is a boolean, and so is this version. -/
def shorthand : String :=
  "version: true\nrules:\n  func-param-name-trailing-underscore: off\n" ++
    "  scoped-vars-leading-underscore: warn\n"

def shorthandConfig : Config where
  rules := [(Convention.parameters.id, off), (Convention.localVariables.id, Severity.warn)]

/-- The second entry is for no rule, and the third one has no setting. -/
def twoFaults : Datum :=
  .map [(.text "version", .scalar (.int 1)), (.text "rules", .map [
    (.text Convention.parameters.id, .scalar (.bool false)), (.text "no-rule", .text "warn"),
    (.text Convention.localVariables.id, .scalar (.int 2))])]

theorem exists_loaded_shorthand :
    ∃ d, Yaml.load .usual shorthand.toUTF8 = .ok (some d) ∧ parse 0 d "" = .ok shorthandConfig := by
  have h : (Yaml.load .usual shorthand.toUTF8).toOption.map
      (Option.map fun d => (parse 0 d "").toOption) = some (some (some shorthandConfig)) := by
    decide +kernel
  obtain ⟨loaded, hload, hloaded⟩ := exists_ok_of_toOption h
  obtain ⟨d, rfl, hd⟩ := Option.map_eq_some_iff.1 hloaded
  refine ⟨d, hload, ?_⟩
  cases hparse : parse 0 d "" with
  | error e =>
      rw [hparse] at hd
      cases hd
  | ok c =>
      rw [hparse] at hd
      cases hd
      rfl

theorem parse_meets_schema_shorthand :
    (∃ d, Yaml.load .usual shorthand.toUTF8 = .ok (some d) ∧ IsDocument d shorthandConfig ∧
      (∀ room source, parse room shorthandConfig.document source = .ok shorthandConfig) ∧
      shorthandConfig.enabled =
        Convention.ids.filter (fun id => (id, off) ∉ shorthandConfig.rules)) ∧
    ∃ f, EntryFault 0 "twice.yml" (Atom.text "no-rule", Datum.text "warn") f ∧
      parse 0 twoFaults "twice.yml" = .error f := by
  constructor
  · obtain ⟨d, hload, hparse⟩ := exists_loaded_shorthand
    obtain ⟨hschema, -, haccepted⟩ := parse_meets_schema 0 d ""
    obtain ⟨hdocument, hkeys⟩ := haccepted shorthandConfig hparse
    have henabled := (hkeys (Yaml.hasDistinctKeys_of_load hload)).1
    exact ⟨d, hload, (hschema shorthandConfig).1 hparse, hdocument, henabled⟩
  · refine (parse_meets_schema 0 twoFaults "twice.yml").2.1 _ _
      [(.text Convention.parameters.id, .scalar (.bool false))] _ _
      rfl ⟨_, _, rfl, rfl, .int⟩ rfl rfl ?_ ?_
    · exact List.forall_mem_singleton.2 ⟨(_, off), rfl, by decide, .off rfl⟩
    · intro r hr
      have hkey : "no-rule" = r.1 := by simpa [Atom.text] using hr.key
      have hunknown : ("no-rule" : Text) ∉ Convention.ids := by decide
      exact hunknown (hkey ▸ hr.mem_ids)

end Config

end UnderscoreLint
