import UnderscoreLint.Lint.Run

/-!
# What loading comes to

A tree is loaded in three steps: the file is read, its bytes are decoded, and its text is read as
JSON. Each step has its own ways to fail, and what comes of all three is listed once, in `ReadsTo`.
`LoadsTo` is the same list for configurations. No later proof has to open `readTree` or
`Config.load`: both are known by their lists (`readTree_eq_iff`, `Config.load_eq_iff`).
-/

namespace UnderscoreLint

/-- A file can be read, and what is in it is a text. -/
def HasText (host : Host) (path : String) (cs : List Char) : Prop :=
  Path.hasNull path = false ∧
    ∃ content, host.read path = .ok content ∧ decodeText? content = some cs

/-- Whether a value is a mapping with a kind, as trees are. -/
def Value.isTree (v : Value) : Bool :=
  v.isMap && ((v.attr? "type").bind Value.text?).isSome

/-- What comes of reading the tree of a file. -/
inductive ReadsTo (host : Host) (path : String) : Except RunError Value → Prop where
  | nullInPath (hnull : Path.hasNull path = true) : ReadsTo host path (.error .nullInPath)
  | unreadable {e : FileError} (hnull : Path.hasNull path = false)
      (hfile : host.read path = .error e) :
      ReadsTo host path (.error (.lint (.unreadable path e)))
  | undecodable {content : ByteArray} (hnull : Path.hasNull path = false)
      (hfile : host.read path = .ok content) (htext : decodeText? content = none) :
      ReadsTo host path (.error .undecodable)
  | malformed {cs : List Char} {complaint : Json.Complaint} {position : Text.Position}
      (htext : HasText host path cs)
      (hjson : Json.read host.limits.json cs = .error (.malformed complaint position)) :
      ReadsTo host path (.error (.lint (.invalidJson path complaint position)))
  | longInteger {cs : List Char} (htext : HasText host path cs)
      (hjson : Json.read host.limits.json cs = .error .longInteger) :
      ReadsTo host path (.error .longInteger)
  | tooDeep {cs : List Char} (htext : HasText host path cs)
      (hjson : Json.read host.limits.json cs = .error .tooDeep) :
      ReadsTo host path (.error .tooDeep)
  | notATree {cs : List Char} {v : Value} (htext : HasText host path cs)
      (hjson : Json.read host.limits.json cs = .ok v) (hv : v.isTree = false) :
      ReadsTo host path (.error (.lint (.notATree path)))
  | tree {cs : List Char} {v : Value} (htext : HasText host path cs)
      (hjson : Json.read host.limits.json cs = .ok v) (hv : v.isTree = true) :
      ReadsTo host path (.ok v)

/-- What comes of loading a configuration. -/
inductive LoadsTo (host : Host) (path : String) : Except ConfigFault Config → Prop where
  | nullInPath (hnull : Path.hasNull path = true) : LoadsTo host path (.ok {})
  | absent (hnull : Path.hasNull path = false)
      (hfile : (host.status path).isFile = .ok false) : LoadsTo host path (.ok {})
  | unseen {e : FileError} (hnull : Path.hasNull path = false)
      (hfile : (host.status path).isFile = .error e) : LoadsTo host path (.error (.file e))
  | unread {e : FileError} (hnull : Path.hasNull path = false)
      (hfile : (host.status path).isFile = .ok true) (hread : host.read path = .error e) :
      LoadsTo host path (.error (.file e))
  | empty {content : ByteArray} (hnull : Path.hasNull path = false)
      (hfile : host.status path = .file content)
      (hyaml : Yaml.load host.limits content = .ok none) : LoadsTo host path (.ok {})
  | document {content : ByteArray} {d : Yaml.Loaded} (hnull : Path.hasNull path = false)
      (hfile : host.status path = .file content)
      (hyaml : Yaml.load host.limits content = .ok (some d)) :
      LoadsTo host path (Config.parse host.limits.shown d (Path.lastName path))
  | malformed {content : ByteArray} (hnull : Path.hasNull path = false)
      (hfile : host.status path = .file content)
      (hyaml : Yaml.load host.limits content = .error .malformed) :
      LoadsTo host path (.error (.error
        (.invalidDocument (Path.lastName path) (host.complaint path content))))
  | unloadable {content : ByteArray} {e : Yaml.Error} (hnull : Path.hasNull path = false)
      (hfile : host.status path = .file content) (hyaml : Yaml.load host.limits content = .error e)
      (he : e ≠ .malformed) : LoadsTo host path (.error (.document e))

section Host

variable {host : Host} {path : String}

theorem readsTo_readTree (host : Host) (path : String) :
    ReadsTo host path (readTree host path) := by
  unfold readTree
  split
  · rename_i hnull
    exact .nullInPath hnull
  · rename_i hnull
    rw [Bool.not_eq_true] at hnull
    split
    · rename_i hfile
      exact .unreadable hnull hfile
    · rename_i content hfile
      split
      · rename_i htext
        exact .undecodable hnull hfile htext
      · rename_i cs htext
        have htext : HasText host path cs := ⟨hnull, content, hfile, htext⟩
        split
        · rename_i hjson
          exact .malformed htext hjson
        · rename_i hjson
          exact .longInteger htext hjson
        · rename_i hjson
          exact .tooDeep htext hjson
        · rename_i v hjson
          split
          · rename_i hv
            exact .tree htext hjson hv
          · rename_i hv
            exact .notATree htext hjson (Bool.not_eq_true _ ▸ hv)

theorem ReadsTo.readTree_eq {r : Except RunError Value} (h : ReadsTo host path r) :
    readTree host path = r := by
  cases h with
  | nullInPath hnull => simp [readTree, hnull]
  | unreadable hnull hfile => simp [readTree, hnull, hfile]
  | undecodable hnull hfile htext => simp [readTree, hnull, hfile, htext]
  | malformed htext hjson =>
      obtain ⟨hnull, content, hfile, htext⟩ := htext
      simp [readTree, hnull, hfile, htext, hjson]
  | longInteger htext hjson | tooDeep htext hjson =>
      obtain ⟨hnull, content, hfile, htext⟩ := htext
      simp [readTree, hnull, hfile, htext, hjson]
  | notATree htext hjson hv | tree htext hjson hv =>
      obtain ⟨hnull, content, hfile, htext⟩ := htext
      unfold Value.isTree at hv
      simp only [readTree, hnull, hfile, htext, hjson, hv, Bool.false_eq_true, if_false, if_true]

theorem readTree_eq_iff {r : Except RunError Value} :
    readTree host path = r ↔ ReadsTo host path r :=
  ⟨fun h => h ▸ readsTo_readTree host path, ReadsTo.readTree_eq⟩

theorem isMap_of_readTree {tree : Value} (h : readTree host path = .ok tree) :
    tree.isMap = true := by
  cases readTree_eq_iff.1 h with
  | tree htext hjson hv => exact (Bool.and_eq_true_iff.1 hv).1

theorem status_eq_file_iff {content : ByteArray} :
    host.read path = .ok content ↔ host.status path = .file content := by
  unfold Files.read
  cases host.status path <;> simp [FileStatus.content]

theorem loadsTo_load (host : Host) (path : String) :
    LoadsTo host path (Config.load host path) := by
  unfold Config.load
  split
  · rename_i hnull
    exact .nullInPath hnull
  · rename_i hnull
    rw [Bool.not_eq_true] at hnull
    split
    · rename_i hfile
      exact .unseen hnull hfile
    · rename_i hfile
      exact .absent hnull hfile
    · rename_i hfile
      split
      · rename_i hread
        exact .unread hnull hfile hread
      · rename_i content hread
        have hstatus := status_eq_file_iff.1 hread
        dsimp only
        split
        · rename_i hyaml
          exact .empty hnull hstatus hyaml
        · rename_i d hyaml
          exact .document hnull hstatus hyaml
        · rename_i hyaml
          exact .malformed hnull hstatus hyaml
        · rename_i e he hyaml
          exact .unloadable hnull hstatus hyaml fun h => he h

/-- A configuration in a file that can be read. -/
theorem Config.load_of_file {content : ByteArray} (hnull : Path.hasNull path = false)
    (hfile : host.status path = .file content) :
    Config.load host path =
      match Yaml.load host.limits content with
      | .ok none => Config.parse host.limits.shown Datum.null (Path.lastName path)
      | .ok (some d) => Config.parse host.limits.shown d (Path.lastName path)
      | .error .malformed => .error (.error
          (.invalidDocument (Path.lastName path) (host.complaint path content)))
      | .error e => .error (.document e) := by
  simp only [Config.load, hnull, status_eq_file_iff.2 hfile]
  rw [hfile]
  rfl

theorem LoadsTo.load_eq {r : Except ConfigFault Config} (h : LoadsTo host path r) :
    Config.load host path = r := by
  cases h with
  | nullInPath hnull => simp [Config.load, hnull]
  | absent hnull hfile | unseen hnull hfile => simp [Config.load, hnull, hfile]
  | unread hnull hfile hread => simp [Config.load, hnull, hfile, hread]
  | empty hnull hfile hyaml =>
      rw [Config.load_of_file hnull hfile, hyaml]
      rfl
  | document hnull hfile hyaml | malformed hnull hfile hyaml =>
      rw [Config.load_of_file hnull hfile, hyaml]
  | unloadable hnull hfile hyaml he =>
      rw [Config.load_of_file hnull hfile, hyaml]
      simp

theorem Config.load_eq_iff {r : Except ConfigFault Config} :
    Config.load host path = r ↔ LoadsTo host path r :=
  ⟨fun h => h ▸ loadsTo_load host path, LoadsTo.load_eq⟩

end Host

end UnderscoreLint
