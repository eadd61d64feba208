import UnderscoreLint.Proofs.ConfigSchema

/-!
# Refused documents

A document that is no configuration should be refused with an error that says what is wrong with it.
`Config.Untold` lists the documents for which this fails: a version that cannot be compared, and
what would have to be told but cannot be shown. These are all
(`Config.parse_accepts_or_refuses_iff`).

A datum can be shown exactly if it goes no deeper than there is room for and none of its integers
is too long (`Datum.hindrance?_eq_none_iff`). So a document of which this is known
(`Config.IsTellable`) is never on the list.
-/

namespace UnderscoreLint

namespace Datum

mutual

/-- How many collections are around the innermost part of a datum. -/
def depth : Datum → Nat
  | .atom a => a.depth
  | .list items => itemsDepth items
  | .pair first second => max first.depth second.depth + 1
  | .set members => membersDepth members
  | .map entries => entriesDepth entries
  | .listAgain | .mapAgain => 0

def itemsDepth : List Datum → Nat
  | [] => 0
  | d :: rest => max (d.depth + 1) (itemsDepth rest)

/-- The members of a set are shown as the list of them. -/
def membersDepth : List Atom → Nat
  | [] => 0
  | a :: rest => max (a.depth + 2) (membersDepth rest)

def entriesDepth : List (Atom × Datum) → Nat
  | [] => 0
  | (key, d) :: rest => max (max key.depth d.depth + 1) (entriesDepth rest)

end

mutual

/-- The atoms in a datum, from left to right. -/
def atoms : Datum → List Atom
  | .atom a => [a]
  | .list items => itemsAtoms items
  | .pair first second => first.atoms ++ second.atoms
  | .set members => members
  | .map entries => entriesAtoms entries
  | .listAgain | .mapAgain => []

def itemsAtoms : List Datum → List Atom
  | [] => []
  | d :: rest => d.atoms ++ itemsAtoms rest

def entriesAtoms : List (Atom × Datum) → List Atom
  | [] => []
  | (key, d) :: rest => key :: d.atoms ++ entriesAtoms rest

end

/-- The depth of a datum that is shown on its own: an atom is then written out at once. -/
def height : Datum → Nat
  | .atom _ => 0
  | d => d.depth

theorem inside_eq_none_iff {room : Nat} {hindrance : Nat → Option Hindrance} :
    inside room hindrance = none ↔ 0 < room ∧ hindrance (room - 1) = none := by
  cases room <;> simp [inside]

end Datum

theorem Atom.literalHindrance?_eq_none_iff {room : Nat} {a : Atom} :
    a.literalHindrance? room = none ↔ a.depth ≤ room ∧ a.isLong = false := by
  unfold literalHindrance? hindrance?
  split
  · simp
    omega
  · split <;> simp_all

namespace Datum

theorem membersHindrance?_eq_none_iff (room : Nat) (members : List Atom) :
    membersHindrance? room members = none ↔
      membersDepth members ≤ room ∧ ∀ a ∈ members, a.isLong = false := by
  induction members with
  | nil => simp [membersHindrance?, membersDepth]
  | cons a rest ih =>
      simp only [membersHindrance?, membersDepth, Option.or_eq_none_iff, inside_eq_none_iff,
        Atom.literalHindrance?_eq_none_iff, ih, List.forall_mem_cons]
      grind

mutual

theorem literalHindrance?_eq_none_iff (room : Nat) : ∀ d : Datum,
    d.literalHindrance? room = none ↔ d.depth ≤ room ∧ ∀ a ∈ d.atoms, a.isLong = false
  | .atom a => by
      simpa [literalHindrance?, depth, atoms] using Atom.literalHindrance?_eq_none_iff
  | .list items => itemsHindrance?_eq_none_iff room items
  | .pair first second => by
      have hfirst := literalHindrance?_eq_none_iff (room - 1) first
      have hsecond := literalHindrance?_eq_none_iff (room - 1) second
      simp only [literalHindrance?, Option.or_eq_none_iff, inside_eq_none_iff, hfirst, hsecond,
        depth, atoms, List.forall_mem_append]
      grind
  | .set members => membersHindrance?_eq_none_iff room members
  | .map entries => entriesHindrance?_eq_none_iff room entries
  | .listAgain | .mapAgain => by simp [literalHindrance?, depth, atoms]

theorem itemsHindrance?_eq_none_iff (room : Nat) : ∀ items : List Datum,
    itemsHindrance? room items = none ↔
      itemsDepth items ≤ room ∧ ∀ a ∈ itemsAtoms items, a.isLong = false
  | [] => by simp [itemsHindrance?, itemsDepth, itemsAtoms]
  | d :: rest => by
      have hd := literalHindrance?_eq_none_iff (room - 1) d
      have hrest := itemsHindrance?_eq_none_iff room rest
      simp only [itemsHindrance?, Option.or_eq_none_iff, inside_eq_none_iff, hd, hrest, itemsDepth,
        itemsAtoms, List.forall_mem_append]
      grind

theorem entriesHindrance?_eq_none_iff (room : Nat) : ∀ entries : List (Atom × Datum),
    entriesHindrance? room entries = none ↔
      entriesDepth entries ≤ room ∧ ∀ a ∈ entriesAtoms entries, a.isLong = false
  | [] => by simp [entriesHindrance?, entriesDepth, entriesAtoms]
  | (key, d) :: rest => by
      have hd := literalHindrance?_eq_none_iff (room - 1) d
      have hrest := entriesHindrance?_eq_none_iff room rest
      simp only [entriesHindrance?, Option.or_eq_none_iff, inside_eq_none_iff,
        Atom.literalHindrance?_eq_none_iff, hd, hrest, entriesDepth, entriesAtoms,
        List.cons_append, List.forall_mem_cons, List.forall_mem_append]
      grind

end

/-- A datum can be shown if it goes no deeper than there is room for, and none of its integers is
too long. -/
theorem hindrance?_eq_none_iff (room : Nat) (d : Datum) :
    d.hindrance? room = none ↔ d.height ≤ room ∧ ∀ a ∈ d.atoms, a.isLong = false := by
  cases d with
  | atom a => simp [hindrance?, Atom.hindrance?, height, atoms]
  | _ => exact literalHindrance?_eq_none_iff room _

end Datum

/-- What a version is told as, if it can be compared at all. Lists and mappings cannot. -/
def Outline.comparable? {α : Type} : Outline α → Option Datum
  | .atom a => some (.atom a)
  | .set members => some (.set members)
  | .list | .map _ => none

theorem Atom.IsOne.isLong {a : Atom} (h : a.IsOne) : a.isLong = false := by
  cases h with
  | int => decide +kernel
  | bool | float => rfl

namespace Config

variable {α : Type} [Outlined α]

/-- What is wrong with a document without being told. -/
inductive Untold (room : Nat) (source : Text) (d : α) : ConfigFault → Prop where
  | version {entries : List (Atom × α)} {v : α} (hd : outline d = .map entries)
      (hversion : Outline.lookup "version" entries = some v)
      (hkind : (outline v).comparable? = none) : Untold room source d .version
  | unshownVersion {entries : List (Atom × α)} {v : α} {t : Datum} {h : Hindrance}
      (hd : outline d = .map entries) (hversion : Outline.lookup "version" entries = some v)
      (hkind : (outline v).comparable? = some t) (hshown : t.hindrance? room = some h) :
      Untold room source d (.unshown h)
  /-- The first entry that is wrong cannot be told. -/
  | unshownEntry {entries before after : List (Atom × α)} {rules : α} {e : Atom × α}
      {h : Hindrance} (hd : outline d = .map entries) (hversion : HasVersion entries)
      (hlookup : Outline.lookup "rules" entries = some rules)
      (hrules : outline rules = .map (before ++ e :: after))
      (hbefore : ∀ b ∈ before, ∃ r, IsEntry b r) (he : EntryFault room source e (.unshown h)) :
      Untold room source d (.unshown h)

/-- The version of a document can be compared, and whatever may have to be told of the version and
of the rules goes no deeper than there is room for and has no long integers. -/
structure IsTellable (room : Nat) (d : α) : Prop where
  version : ∀ entries v, outline d = .map entries → Outline.lookup "version" entries = some v →
    ∃ t, (outline v).comparable? = some t ∧ t.height ≤ room ∧ ∀ a ∈ t.atoms, a.isLong = false
  rules : ∀ entries rules es, outline d = .map entries →
    Outline.lookup "rules" entries = some rules → outline rules = .map es →
    ∀ e ∈ es, e.1.isLong = false ∧ (Outlined.datum e.2).height ≤ room ∧
      ∀ a ∈ (Outlined.datum e.2).atoms, a.isLong = false

section Faults

variable {room : Nat} {source : Text} {d : α} {f : ConfigFault}

theorem checkVersion_of_comparable?_eq_none {v : α} (h : (outline v).comparable? = none) :
    checkVersion room source (some v) = .error .version := by
  unfold checkVersion
  rw [Option.map_some]
  cases hv : outline v with
  | list | map => rfl
  | atom a | set members =>
      rw [hv] at h
      cases h

theorem versionFault_of_hindrance? {t : Datum} {h : Hindrance} (ht : t.hindrance? room = some h) :
    versionFault room source t = .unshown h := by
  rw [versionFault, ht]

theorem checkVersion_of_hindrance? {v : α} {t : Datum} {h : Hindrance}
    (hv : (outline v).comparable? = some t) (ht : t.hindrance? room = some h) :
    checkVersion room source (some v) = .error (.unshown h) := by
  cases houtline : outline v with
  | list | map =>
      rw [houtline] at hv
      cases hv
  | set members =>
      rw [houtline] at hv
      cases hv
      rw [checkVersion, Option.map_some, houtline]
      exact congrArg _ (versionFault_of_hindrance? ht)
  | atom a =>
      rw [houtline] at hv
      cases hv
      have hlong : a.isLong = true := by
        by_contra hlong
        simp [Datum.hindrance?, Atom.hindrance?, hlong] at ht
      have hone : a.same (.scalar (.int version)) = false := by
        by_contra hone
        rw [Bool.not_eq_false, ← Atom.isOne_iff_same] at hone
        rw [hone.isLong] at hlong
        cases hlong
      have hnull : a ≠ .scalar .null := by
        rintro rfl
        cases hlong
      rw [checkVersion_of_atom houtline hnull, hone, versionFault_of_hindrance? ht]
      rfl

/-- A version that is refused without being told why cannot be compared or cannot be shown. -/
theorem of_checkVersion_eq_error {v : Option α} (h : checkVersion room source v = .error f)
    (hf : ∀ e, f ≠ .error e) :
    ∃ v', v = some v' ∧
      (f = .version ∧ (outline v').comparable? = none ∨
        ∃ t k, f = .unshown k ∧ (outline v').comparable? = some t ∧
          t.hindrance? room = some k) := by
  have hfault : ∀ t, f = versionFault room source t → ∃ k, f = .unshown k ∧
      t.hindrance? room = some k := by
    rintro t rfl
    cases ht : t.hindrance? room with
    | none =>
        rw [versionFault, ht] at hf
        exact absurd rfl (hf _)
    | some k => exact ⟨k, versionFault_of_hindrance? ht, rfl⟩
  cases v with
  | none =>
      cases h
      exact absurd rfl (hf _)
  | some v =>
      refine ⟨v, rfl, ?_⟩
      cases hv : outline v with
      | list | map =>
          rw [checkVersion, Option.map_some, hv] at h
          cases h
          exact .inl ⟨rfl, rfl⟩
      | set members =>
          rw [checkVersion, Option.map_some, hv] at h
          cases h
          obtain ⟨k, hk, ht⟩ := hfault _ rfl
          exact .inr ⟨_, k, hk, rfl, ht⟩
      | atom a =>
          by_cases hnull : a = .scalar .null
          · subst hnull
            rw [checkVersion, Option.map_some, hv] at h
            cases h
            exact absurd rfl (hf _)
          · rw [checkVersion_of_atom hv hnull] at h
            split at h
            · cases h
            · cases h
              obtain ⟨k, hk, ht⟩ := hfault _ rfl
              exact .inr ⟨_, k, hk, rfl, ht⟩

theorem IsTellable.not_untold (h : IsTellable room d) : ¬ Untold room source d f := by
  have hshowable : ∀ {t : Datum} {k : Hindrance}, t.height ≤ room →
      (∀ a ∈ t.atoms, a.isLong = false) → t.hindrance? room ≠ some k := by
    intro t k hheight hlong hshown
    rw [(t.hindrance?_eq_none_iff room).2 ⟨hheight, hlong⟩] at hshown
    cases hshown
  intro huntold
  cases huntold with
  | version hd hversion hkind =>
      obtain ⟨t, ht, -⟩ := h.version _ _ hd hversion
      cases hkind.symm.trans ht
  | unshownVersion hd hversion hkind hshown =>
      obtain ⟨t, ht, hheight, hlong⟩ := h.version _ _ hd hversion
      cases hkind.symm.trans ht
      exact hshowable hheight hlong hshown
  | unshownEntry hd hversion hlookup hrules hbefore he =>
      obtain ⟨hkey, hheight, hlong⟩ :=
        h.rules _ _ _ hd hlookup hrules _ (List.mem_append_right _ List.mem_cons_self)
      cases he with
      | longKey hlong' => cases hkey.symm.trans hlong'
      | unshownSetting _ _ _ hshown => exact hshowable hheight hlong hshown

theorem exists_entryFault_of_parseRules [LawfulOutlined α] {rules : Option α}
    (h : parseRules room source rules = .error f) (hf : ∀ e, f ≠ .error e) :
    ∃ r before e after, rules = some r ∧ outline r = .map (before ++ e :: after) ∧
      (∀ b ∈ before, ∃ r, IsEntry b r) ∧ EntryFault room source e f := by
  unfold parseRules at h
  split at h
  · cases h
  · cases h
  · rename_i hrules
    obtain ⟨r, rfl, hr⟩ := Option.map_eq_some_iff.1 hrules
    obtain ⟨before, e, after, rfl, hbefore, he⟩ := mapM_eq_error_iff.1 h
    refine ⟨r, before, e, after, rfl, hr, fun b hb => ?_, parseRule_eq_error_iff.1 he⟩
    obtain ⟨c, hc⟩ := hbefore b hb
    exact ⟨c, parseRule_eq_ok_iff.1 hc⟩
  · cases h
    exact absurd rfl (hf _)

variable [LawfulOutlined α]

theorem Untold.parse_eq (h : Untold room source d f) : parse room d source = .error f := by
  cases h with
  | version hd hversion hkind =>
      rw [parse_of_map hd, hversion, checkVersion_of_comparable?_eq_none hkind]
      rfl
  | unshownVersion hd hversion hkind hshown =>
      rw [parse_of_map hd, hversion, checkVersion_of_hindrance? hkind hshown]
      rfl
  | unshownEntry hd hversion hlookup hrules hbefore he =>
      exact parse_of_entryFault hd hversion hlookup hrules hbefore he

/-- The documents that are refused without being told why are those of the list. -/
theorem parse_untold_iff :
    parse room d source = .error f ∧ (∀ e, f ≠ .error e) ↔ Untold room source d f := by
  constructor
  · rintro ⟨hparse, huntold⟩
    unfold parse at hparse
    split at hparse
    · cases hparse
    · rename_i entries hd
      rcases error_of_bind_error hparse with hversion | ⟨⟨⟩, hversion, hparse⟩
      · obtain ⟨v, hv, ⟨rfl, hkind⟩ | ⟨t, k, rfl, hkind, ht⟩⟩ :=
          of_checkVersion_eq_error hversion huntold
        · exact .version hd hv hkind
        · exact .unshownVersion hd hv hkind ht
      · rcases error_of_bind_error hparse with hrules | ⟨rules, -, hparse⟩
        · obtain ⟨r, before, e, after, hlookup, hr, hbefore, he⟩ :=
            exists_entryFault_of_parseRules hrules huntold
          have hversion := checkVersion_eq_ok_iff.1 hversion
          cases he with
          | longKey hlong =>
              exact .unshownEntry hd hversion hlookup hr hbefore (.longKey hlong)
          | unshownSetting hid hkey hsetting hshown =>
              exact .unshownEntry hd hversion hlookup hr hbefore
                (.unshownSetting hid hkey hsetting hshown)
          | unknownRule | invalidSetting => exact absurd rfl (huntold _)
        · cases hparse
    · cases hparse
      exact absurd rfl (huntold _)
  · intro h
    refine ⟨h.parse_eq, ?_⟩
    cases h <;> nofun

end Faults

/-- A document is accepted, or refused with an error that says why, unless it is one of those that
are listed, and then it is refused with what the list says. A document whose version can be
compared, and which goes no deeper than there is room for and has no long integers where it may have
to be told, is not one of them. -/
theorem parse_accepts_or_refuses_iff [LawfulOutlined α] (room : Nat) (d : α) (source : Text) :
    (((∃ c, parse room d source = .ok c) ∨ ∃ e, parse room d source = .error (.error e)) ↔
        ∀ f, ¬ Untold room source d f) ∧
      (∀ f, Untold room source d f → parse room d source = .error f) ∧
      (IsTellable room d → ∀ f, ¬ Untold room source d f) := by
  refine ⟨⟨?_, ?_⟩, fun f hf => hf.parse_eq, fun h f => h.not_untold⟩
  · rintro (⟨c, h⟩ | ⟨e, h⟩) f hf
    · cases h.symm.trans hf.parse_eq
    · obtain ⟨hparse, huntold⟩ := parse_untold_iff.2 hf
      cases h.symm.trans hparse
      exact huntold e rfl
  · intro h
    cases hparse : parse room d source with
    | ok c => exact .inl ⟨c, rfl⟩
    | error f =>
        cases f with
        | error e => exact .inr ⟨e, rfl⟩
        | version | unshown | document | file =>
            exact absurd (parse_untold_iff.1 ⟨hparse, nofun⟩) (h _)

/-- A document for a list of versions. -/
def versions : Datum :=
  .map [(.text "version", .list [.scalar (.int 1)])]

/-- A list in a list, `n` times over. -/
def nested : Nat → Datum
  | 0 => .list []
  | n + 1 => .list [nested n]

/-- The setting is a list in a list, `n` times over. -/
def nestedSetting (n : Nat) : Datum :=
  .map [(.text "version", .scalar (.int 1)),
    (.text "rules", .map [(.text Convention.parameters.id, nested n)])]

theorem depth_nested (n : Nat) : (nested n).depth = n := by
  induction n with
  | zero => rfl
  | succ n ih => simp [nested, Datum.depth, Datum.itemsDepth, ih]

theorem atoms_nested (n : Nat) : (nested n).atoms = [] := by
  induction n with
  | zero => rfl
  | succ n ih => simp [nested, Datum.atoms, Datum.itemsAtoms, ih]

theorem literalHindrance?_nested {room n : Nat} (h : room < n) :
    (nested n).literalHindrance? room = some .tooDeep := by
  induction n generalizing room with
  | zero => exact absurd h (Nat.not_lt_zero _)
  | succ n ih =>
      cases room with
      | zero => rfl
      | succ room =>
          simp [nested, Datum.literalHindrance?, Datum.itemsHindrance?, Datum.inside,
            ih (Nat.lt_of_succ_lt_succ h)]

theorem isTellable_nestedSetting (n : Nat) : IsTellable n (nestedSetting n) where
  version := by
    rintro entries v hd hversion
    cases hd
    cases hversion
    exact ⟨_, rfl, Nat.zero_le _, by decide +kernel⟩
  rules := by
    rintro entries rules es hd hrules hes
    cases hd
    cases hrules
    cases hes
    refine List.forall_mem_singleton.2 ⟨rfl, ?_, ?_⟩
    · cases n with
      | zero => exact Nat.le_refl 0
      | succ n => exact (depth_nested (n + 1)).le
    · change ∀ a ∈ (nested n).atoms, _
      simp [atoms_nested]

/-- A thousand lists inside of one another are told if there is room for a thousand. With less room
they are refused without a word, and so is a list of versions with any. -/
theorem parse_accepts_or_refuses_iff_nestedSetting :
    (∀ f, ¬ Untold 1000 "deep.yml" (nestedSetting 1000) f) ∧
      parse 999 (nestedSetting 1000) "deep.yml" = .error (.unshown .tooDeep) ∧
      parse 1000 versions "deep.yml" = .error .version := by
  refine ⟨?_, ?_, ?_⟩
  · exact (parse_accepts_or_refuses_iff 1000 (nestedSetting 1000) "deep.yml").2.2
      (isTellable_nestedSetting 1000)
  · have hentry : EntryFault 999 "deep.yml" (Atom.text Convention.parameters.id, nested 1000)
        (.unshown .tooDeep) := by
      refine .unshownSetting (by decide) rfl ?_ (literalHindrance?_nested (by decide))
      intro s hs
      cases hs with
      | off h => cases h
      | word _ h => cases h
    have hrules : outline (Datum.map [(Atom.text Convention.parameters.id, nested 1000)]) =
        .map ([] ++ (Atom.text Convention.parameters.id, nested 1000) :: []) := rfl
    refine (parse_accepts_or_refuses_iff 999 (nestedSetting 1000) "deep.yml").2.1 _ ?_
    exact .unshownEntry rfl ⟨_, _, rfl, rfl, .int⟩ rfl hrules (List.forall_mem_nil _) hentry
  · exact (parse_accepts_or_refuses_iff 1000 versions "deep.yml").2.1 _ (.version rfl rfl rfl)

/-- A list of versions is neither accepted nor refused with an error that says why. -/
theorem parse_versions :
    ¬ ((∃ c, parse 1000 versions ".solnaming.yml" = .ok c) ∨
      ∃ e, parse 1000 versions ".solnaming.yml" = .error (.error e)) := by
  have hversion : parse 1000 versions ".solnaming.yml" = .error .version := rfl
  rw [hversion]
  rintro (⟨c, h⟩ | ⟨e, h⟩) <;> cases h

end Config

end UnderscoreLint
