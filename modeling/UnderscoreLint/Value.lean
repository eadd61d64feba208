import UnderscoreLint.Scalar

/-!
# Values

A syntax tree arrives as a value: scalars, lists, and mappings from names to
values whose entries keep the order of the document. Beside mappings there are
records, which have named attributes too but are not mappings: they can be asked
for an attribute, and they are never walked into.

A value is plain data. That no name occurs twice in a mapping is the predicate
`Value.WellFormed`; `Value.insert` keeps it, and the reader of JSON builds mappings
by `insert` only.
-/

namespace UnderscoreLint

/-- A value of a syntax tree. -/
inductive Value where
  | scalar (s : Scalar)
  | list (items : List Value)
  | map (entries : List (Text × Value))
  | record (entries : List (Text × Value))
  deriving Inhabited

namespace Value

/-- The absent value. -/
def null : Value := .scalar .null

/-- A text. -/
def text (t : Text) : Value := .scalar (.text t)

/-- Whether a value is absent. -/
def isNull : Value → Bool
  | .scalar .null => true
  | _ => false

/-- Whether a value is a mapping, which is what a walk goes into. -/
def isMap : Value → Bool
  | .map _ => true
  | _ => false

/-- The text of a value that is one. -/
def text? : Value → Option Text
  | .scalar (.text t) => some t
  | _ => none

/-- The items of a list. -/
def items? : Value → Option (List Value)
  | .list items => some items
  | _ => none

/-- The value under `name` in a list of entries: that of the first entry so named. -/
def lookup (name : Text) (entries : List (Text × Value)) : Option Value :=
  (entries.find? fun e => e.1 == name).map (·.2)

/-- The attribute `name` of a mapping or record; nothing else has attributes. -/
def attr? (v : Value) (name : Text) : Option Value :=
  match v with
  | .map entries | .record entries => lookup name entries
  | _ => none

/-- Puts `v` under `name`. A name that is there keeps its place and takes the new
value; a new one goes to the end. -/
def insert (name : Text) (v : Value) : List (Text × Value) → List (Text × Value)
  | [] => [(name, v)]
  | e :: rest => if e.1 = name then (name, v) :: rest else e :: insert name v rest

/-- No name occurs twice in any mapping or record of the value. -/
inductive WellFormed : Value → Prop where
  | scalar (s : Scalar) : WellFormed (.scalar s)
  | list {items : List Value} (h : ∀ v ∈ items, WellFormed v) : WellFormed (.list items)
  | map {entries : List (Text × Value)} (distinct : (entries.map (·.1)).Nodup)
      (h : ∀ e ∈ entries, WellFormed e.2) : WellFormed (.map entries)
  | record {entries : List (Text × Value)} (distinct : (entries.map (·.1)).Nodup)
      (h : ∀ e ∈ entries, WellFormed e.2) : WellFormed (.record entries)

@[simp] theorem attr?_map (entries : List (Text × Value)) (name : Text) :
    (Value.map entries).attr? name = lookup name entries := rfl

@[simp] theorem attr?_record (entries : List (Text × Value)) (name : Text) :
    (Value.record entries).attr? name = lookup name entries := rfl

@[simp] theorem attr?_list (items : List Value) (name : Text) :
    (Value.list items).attr? name = none := rfl

@[simp] theorem attr?_scalar (s : Scalar) (name : Text) :
    (Value.scalar s).attr? name = none := rfl

/-- The names after inserting: the old ones in place, and a new one at the end. -/
theorem map_fst_insert (name : Text) (v : Value) (entries : List (Text × Value)) :
    (insert name v entries).map (·.1) =
      if name ∈ entries.map (·.1) then entries.map (·.1) else entries.map (·.1) ++ [name] := by
  induction entries with
  | nil => simp [insert]
  | cons e rest ih =>
    by_cases he : e.1 = name
    · simp [insert, he]
    · simp only [insert, if_neg he, List.map_cons, ih, List.mem_cons, Ne.symm he, false_or]
      split <;> simp

end Value

end UnderscoreLint
