import UnderscoreLint.Proofs.Address
import UnderscoreLint.Proofs.JsonNumbers
import UnderscoreLint.Proofs.JsonStrings
import UnderscoreLint.Report.Document

/-!
# Reading documents back

A value that is written as a JSON text is found again by the reader, whatever its depth. `readBack`
says what it is read as: the same value, except that a record was written like a mapping, and that
a double is whatever its numeral is read as. Some things can go wrong with other values: of two
entries with the same name only one is found again (`Value.WellFormed`), two halves of a pair that
stand next to each other are taken for a character, an integer that is too long is refused, and so
is a list or a mapping that there is no room for (`Value.Writable`).

`Reads room v` says that the text of `v` is read as `readBack v` at any depth and before anything
that does not go on with a number, given more fuel than the text has characters. A list is read if
its items are, and a mapping if the values of its entries are; one item or entry is one step of the
reader. From this the whole document follows by induction on the value.
-/

namespace UnderscoreLint

/-- A text is found again as it is, and an integer has no numeral that is too long. -/
def Scalar.IsWritable : Scalar → Prop
  | .text t => t.IsJoined
  | .int n => Decimal.isWritable n = true
  | _ => True

/-- All that is in the value can be read again, and `room` is enough for the lists and mappings that
are inside of one another. -/
inductive Value.Writable : Nat → Value → Prop where
  | scalar {room : Nat} {s : Scalar} (h : s.IsWritable) : Writable room (.scalar s)
  | list {room : Nat} {items : List Value} (h : ∀ v ∈ items, Writable room v) :
      Writable (room + 1) (.list items)
  | map {room : Nat} {entries : List (Text × Value)} (hnames : ∀ e ∈ entries, e.1.IsJoined)
      (h : ∀ e ∈ entries, Writable room e.2) : Writable (room + 1) (.map entries)
  | record {room : Nat} {entries : List (Text × Value)} (hnames : ∀ e ∈ entries, e.1.IsJoined)
      (h : ∀ e ∈ entries, Writable room e.2) : Writable (room + 1) (.record entries)

theorem Value.insert_of_not_mem {name : Text} {entries : List (Text × Value)}
    (h : name ∉ entries.map (·.1)) (v : Value) :
    insert name v entries = entries ++ [(name, v)] := by
  induction entries with
  | nil => rfl
  | cons e rest ih =>
      rw [List.map_cons, List.mem_cons, not_or] at h
      rw [insert, if_neg (Ne.symm h.1), ih h.2, List.cons_append]

namespace Json

/-- The double that the numeral of a double is read as. -/
def readBackDouble (x : Float) : Float :=
  match readScalar (Decimal.FloatFormat.json.write x) with
  | .ok (.scalar (.float y), _) => y
  | _ => x

def readBackScalar : Scalar → Scalar
  | .float x => .float (readBackDouble x)
  | s => s

mutual

/-- What the text of a value is read as. -/
def readBack : Value → Value
  | .scalar s => .scalar (readBackScalar s)
  | .list items => .list (readBackItems items)
  | .map entries | .record entries => .map (readBackEntries entries)

def readBackItems : List Value → List Value
  | [] => []
  | v :: rest => readBack v :: readBackItems rest

def readBackEntries : List (Text × Value) → List (Text × Value)
  | [] => []
  | (name, v) :: rest => (name, readBack v) :: readBackEntries rest

end

theorem readBackItems_eq_map (items : List Value) : readBackItems items = items.map readBack := by
  induction items with
  | nil => rfl
  | cons v rest ih => rw [readBackItems, ih, List.map_cons]

theorem readBackEntries_eq_map (entries : List (Text × Value)) :
    readBackEntries entries = entries.map fun e => (e.1, readBack e.2) := by
  induction entries with
  | nil => rfl
  | cons e rest ih => rw [readBackEntries, ih, List.map_cons]

/-! ### Where a value starts -/

/-- Characters that neither a word nor a number starts with. -/
def foreign : List Char := ['"', '[', '\x7b', ']', ' ', '\t', '\n', '\r', '\ufeff']

theorem exists_readScalar_cons_error {c : Char} (h : c ∈ foreign) (cs : List Char) :
    ∃ e, readScalar (c :: cs) = .error e := by
  simp only [foreign, List.mem_cons, List.not_mem_nil, or_false] at h
  rcases h with rfl | rfl | rfl | rfl | rfl | rfl | rfl | rfl | rfl <;> exact ⟨_, rfl⟩

theorem ne_cons_of_readScalar {cs : List Char} {r : Value × List Char} (h : readScalar cs = .ok r)
    {c : Char} (hc : c ∈ foreign) (rest : List Char) : cs ≠ c :: rest := by
  rintro rfl
  obtain ⟨e, he⟩ := exists_readScalar_cons_error hc rest
  rw [he] at h
  cases h

theorem readValue_of_readScalar {cs : List Char} {r : Value × List Char}
    (h : readScalar cs = .ok r) (fuel room : Nat) : readValue (fuel + 1) room cs = .ok r := by
  rw [readValue, h]
  · exact ne_cons_of_readScalar h (by decide)
  · exact ne_cons_of_readScalar h (by decide)
  · exact ne_cons_of_readScalar h (by decide)

/-- A text that is read starts with neither space nor the end of a list. -/
theorem exists_cons_of_readValue {fuel room : Nat} {cs : List Char}
    {r : Value × List Char} (h : readValue fuel room cs = .ok r) :
    ∃ c rest, cs = c :: rest ∧ isSpace c = false ∧ c ≠ ']' ∧ c ≠ '\ufeff' := by
  cases fuel with
  | zero => cases h
  | succ fuel =>
      cases cs with
      | nil => cases h
      | cons c rest =>
          have hne : ∀ d ∈ [']', ' ', '\t', '\n', '\r', '\ufeff'], c ≠ d := by
            -- such a character is left to the reader of words and numbers, which refuses it
            rintro d hd rfl
            obtain ⟨e, he⟩ := exists_readScalar_cons_error
              (List.mem_cons_of_mem _ (List.mem_cons_of_mem _ (List.mem_cons_of_mem _ hd))) rest
            rw [readValue, he] at h
            · cases h
            all_goals
              intro cs' hcs
              cases hcs
              exact absurd hd (by decide)
          simp only [List.forall_mem_cons] at hne
          refine ⟨c, rest, rfl, ?_, hne.1, ?_⟩
          · simp [isSpace, hne]
          · exact hne.2.2.2.2.2.1

/-! ### Space -/

theorem skipSpace_newLine (depth : Nat) (cs : List Char) :
    skipSpace (newLine depth ++ cs) = skipSpace cs := by
  apply List.dropWhile_append_of_pos
  intro c hc
  rcases List.mem_cons.1 hc with rfl | hc
  · rfl
  · rw [List.eq_of_mem_replicate hc]
    rfl

theorem skipSpace_cons {c : Char} (h : isSpace c = false) (cs : List Char) :
    skipSpace (c :: cs) = c :: cs :=
  List.dropWhile_cons_of_neg (by simp [h])

theorem skipSpace_newLine_cons (depth : Nat) {c : Char} (h : isSpace c = false)
    (cs : List Char) : skipSpace (newLine depth ++ c :: cs) = c :: cs := by
  rw [skipSpace_newLine, skipSpace_cons h]

theorem skipSpace_of_readValue {fuel room : Nat} {cs : List Char}
    {r : Value × List Char} (h : readValue fuel room cs = .ok r) : skipSpace cs = cs := by
  obtain ⟨c, rest, rfl, hc, -⟩ := exists_cons_of_readValue h
  exact skipSpace_cons hc rest

theorem delimited_newLine (depth : Nat) (cs : List Char) : Delimited (newLine depth ++ cs) := by
  intro c hc
  cases hc
  decide

theorem delimited_cons_comma (cs : List Char) : Delimited (',' :: cs) := by
  intro c hc
  cases hc
  decide

/-! ### Lists -/

/-- The text of the value is read, at any depth and before anything that does not go on with a
number, given more fuel than it has characters. -/
def Reads (room : Nat) (v : Value) : Prop :=
  ∀ depth fuel rest, (writeValue depth v).length < fuel → Delimited rest →
    readValue fuel room (writeValue depth v ++ rest) = .ok (readBack v, rest)

theorem Reads.skipSpace {room : Nat} {v : Value} (h : Reads room v) (depth : Nat) {rest : List Char}
    (hrest : Delimited rest) :
    skipSpace (writeValue depth v ++ rest) = writeValue depth v ++ rest :=
  skipSpace_of_readValue (h depth _ rest (Nat.lt_succ_self _) hrest)

section

variable {v : Value} {room fuel depth : Nat} (h : Reads room v)
  (hfuel : (writeValue depth v).length < fuel)

include h hfuel

theorem readItems_close (outer : Nat) (rest : List Char) (items : List Value) :
    readItems (fuel + 1) room (writeValue depth v ++ (newLine outer ++ ']' :: rest)) items =
      .ok (.list (items.reverse ++ [readBack v]), rest) := by
  have hskip : skipSpace (newLine outer ++ ']' :: rest) = ']' :: rest :=
    skipSpace_newLine_cons outer (by decide) rest
  rw [readItems, h depth fuel _ hfuel (delimited_newLine outer _)]
  simp [hskip, bind, Except.bind, pure, Except.pure]

theorem readItems_comma {next : List Char} (hnext : skipSpace next = next) (items : List Value) :
    readItems (fuel + 1) room (writeValue depth v ++ ',' :: (newLine depth ++ next)) items =
      readItems fuel room next (readBack v :: items) := by
  have hskip : skipSpace (',' :: (newLine depth ++ next)) = ',' :: (newLine depth ++ next) :=
    skipSpace_cons (by decide) _
  rw [readItems, h depth fuel _ hfuel (delimited_cons_comma _)]
  simp [hskip, skipSpace_newLine, hnext, bind, Except.bind]

end

theorem delimited_writeItems (depth outer : Nat) (vs : List Value) (rest : List Char) :
    Delimited (writeItems depth vs ++ (newLine outer ++ rest)) := by
  cases vs with
  | nil => exact delimited_newLine outer rest
  | cons w ws => exact delimited_cons_comma _

/-- One step of the reader for each item. -/
theorem readItems_write {room depth : Nat} {v : Value} {vs : List Value}
    (hreads : ∀ w ∈ v :: vs, Reads room w) (outer : Nat) (rest : List Char) {fuel : Nat}
    (hfuel : (writeValue depth v).length + (writeItems depth vs).length + 1 < fuel)
    (items : List Value) :
    readItems fuel room
      (writeValue depth v ++ (writeItems depth vs ++ (newLine outer ++ ']' :: rest))) items =
        .ok (.list (items.reverse ++ (v :: vs).map readBack), rest) := by
  induction vs generalizing v fuel items with
  | nil =>
      obtain ⟨fuel, rfl⟩ := Nat.exists_eq_add_one_of_ne_zero (Nat.ne_zero_of_lt hfuel)
      exact readItems_close (hreads v List.mem_cons_self) (by omega) outer rest items
  | cons w ws ih =>
      obtain ⟨fuel, rfl⟩ := Nat.exists_eq_add_one_of_ne_zero (Nat.ne_zero_of_lt hfuel)
      obtain ⟨hv, hws⟩ := List.forall_mem_cons.1 hreads
      simp only [writeItems, List.length_append, List.length_cons] at hfuel
      have hnext := (hws w List.mem_cons_self).skipSpace depth
        (delimited_writeItems depth outer ws (']' :: rest))
      simp only [writeItems, List.append_assoc, List.cons_append]
      rw [readItems_comma hv (by omega) hnext, ih hws (by omega)]
      simp

/-! ### Mappings -/

/-- The text of an entry. -/
def writeEntry (depth : Nat) (e : Text × Value) : List Char :=
  writeString e.1 ++ ':' :: ' ' :: writeValue depth e.2

theorem readName_write {name : Text} (hjoined : name.IsJoined) {cs : List Char}
    (hcs : skipSpace cs = cs) :
    readName (writeString name ++ (':' :: ' ' :: cs)) = .ok (name, cs) := by
  have hname : readString (name.letters.flatMap writeLetter ++ '"' :: ':' :: ' ' :: cs) =
      .ok (name, ':' :: ' ' :: cs) := readString_flatMap_writeLetter hjoined _
  have hskip : skipSpace (' ' :: cs) = cs := hcs
  simp [readName, writeString, hname, skipSpace_cons (c := ':') (by decide), hskip, bind,
    Except.bind, pure, Except.pure]

theorem skipSpace_writeEntry (depth : Nat) (e : Text × Value) (cs : List Char) :
    skipSpace (writeEntry depth e ++ cs) = writeEntry depth e ++ cs :=
  skipSpace_cons (by decide) _

section

variable {e : Text × Value} {room fuel depth : Nat} (hname : e.1.IsJoined) (h : Reads room e.2)
  (hfuel : (writeEntry depth e).length < fuel)

include hname h in
theorem readName_writeEntry {rest : List Char} (hrest : Delimited rest) :
    readName (writeEntry depth e ++ rest) = .ok (e.1, writeValue depth e.2 ++ rest) := by
  rw [← readName_write hname (h.skipSpace depth hrest), writeEntry, List.append_assoc]
  rfl

include hfuel in
theorem length_writeValue_lt : (writeValue depth e.2).length < fuel := by
  simp only [writeEntry, List.length_append, List.length_cons] at hfuel
  omega

include hname h hfuel

theorem readEntries_close (outer : Nat) (rest : List Char) (entries : List (Text × Value)) :
    readEntries (fuel + 1) room (writeEntry depth e ++ (newLine outer ++ '\x7d' :: rest)) entries =
      .ok (.map (Value.insert e.1 (readBack e.2) entries), rest) := by
  have hskip : skipSpace (newLine outer ++ '\x7d' :: rest) = '\x7d' :: rest :=
    skipSpace_newLine_cons outer (by decide) rest
  have hrest := delimited_newLine outer ('\x7d' :: rest)
  have hvalue := h depth fuel _ (length_writeValue_lt hfuel) hrest
  rw [readEntries, readName_writeEntry hname h hrest]
  simp [hvalue, hskip, bind, Except.bind, pure, Except.pure]

theorem readEntries_comma {next : List Char} (hnext : skipSpace next = next)
    (entries : List (Text × Value)) :
    readEntries (fuel + 1) room (writeEntry depth e ++ ',' :: (newLine depth ++ next)) entries =
      readEntries fuel room next (Value.insert e.1 (readBack e.2) entries) := by
  have hskip : skipSpace (',' :: (newLine depth ++ next)) = ',' :: (newLine depth ++ next) :=
    skipSpace_cons (by decide) _
  have hrest := delimited_cons_comma (newLine depth ++ next)
  have hvalue := h depth fuel _ (length_writeValue_lt hfuel) hrest
  rw [readEntries, readName_writeEntry hname h hrest]
  simp [hvalue, hskip, skipSpace_newLine, hnext, bind, Except.bind]

end

theorem not_mem_of_nodup {e : Text × Value} {entries es : List (Text × Value)}
    (h : ((entries ++ e :: es).map (·.1)).Nodup) : e.1 ∉ entries.map (·.1) := by
  rw [List.map_append, List.map_cons] at h
  exact fun hmem => (List.nodup_append.1 h).2.2 _ hmem _ List.mem_cons_self rfl

theorem writeEntries_cons (depth : Nat) (e : Text × Value) (es : List (Text × Value)) :
    writeEntries depth (e :: es) =
      ',' :: (newLine depth ++ (writeEntry depth e ++ writeEntries depth es)) := by
  simp [writeEntries, writeEntry]

/-- One step of the reader for each entry; no name is there before its own entry is read. -/
theorem readEntries_write {room depth : Nat} {e : Text × Value} {es : List (Text × Value)}
    (hnames : ∀ x ∈ e :: es, x.1.IsJoined) (hreads : ∀ x ∈ e :: es, Reads room x.2)
    (outer : Nat) (rest : List Char) {fuel : Nat}
    (hfuel : (writeEntry depth e).length + (writeEntries depth es).length + 1 < fuel)
    {entries : List (Text × Value)} (hdistinct : ((entries ++ e :: es).map (·.1)).Nodup) :
    readEntries fuel room (writeEntry depth e ++
      (writeEntries depth es ++ (newLine outer ++ '\x7d' :: rest))) entries =
        .ok (.map (entries ++ (e :: es).map fun x => (x.1, readBack x.2)), rest) := by
  induction es generalizing e fuel entries with
  | nil =>
      obtain ⟨fuel, rfl⟩ := Nat.exists_eq_add_one_of_ne_zero (Nat.ne_zero_of_lt hfuel)
      rw [writeEntries, List.nil_append,
        readEntries_close (hnames e List.mem_cons_self) (hreads e List.mem_cons_self) (by omega),
        Value.insert_of_not_mem (not_mem_of_nodup hdistinct)]
      rfl
  | cons x es ih =>
      obtain ⟨fuel, rfl⟩ := Nat.exists_eq_add_one_of_ne_zero (Nat.ne_zero_of_lt hfuel)
      rw [writeEntries_cons] at hfuel ⊢
      simp only [List.length_append, List.length_cons] at hfuel
      have hnext : ((entries ++ [(e.1, readBack e.2)] ++ x :: es).map (·.1)).Nodup := by
        simpa using hdistinct
      simp only [List.append_assoc, List.cons_append]
      rw [readEntries_comma (hnames e List.mem_cons_self) (hreads e List.mem_cons_self) (by omega)
          (skipSpace_writeEntry depth x _),
        Value.insert_of_not_mem (not_mem_of_nodup hdistinct),
        ih (fun y hy => hnames y (List.mem_cons_of_mem _ hy))
          (fun y hy => hreads y (List.mem_cons_of_mem _ hy)) (by omega) hnext]
      simp

/-! ### Values -/

theorem readScalar_float (x : Float) {rest : List Char} (hrest : Delimited rest) :
    readScalar (Decimal.FloatFormat.json.write x ++ rest) =
      .ok (.scalar (.float (readBackDouble x)), rest) := by
  obtain ⟨y, hy⟩ := isDouble_write x
  have halone : readScalar (Decimal.FloatFormat.json.write x) = .ok (.scalar (.float y), []) := by
    simpa using hy [] (by simp [Delimited])
  rw [hy rest hrest, readBackDouble, halone]

theorem readValue_writeString {t : Text} (h : t.IsJoined) (fuel room : Nat) (rest : List Char) :
    readValue (fuel + 1) room (writeString t ++ rest) = .ok (.text t, rest) := by
  have hstring : readString (t.letters.flatMap writeLetter ++ '"' :: rest) = .ok (t, rest) :=
    readString_flatMap_writeLetter h rest
  simp [writeString, readValue, hstring, bind, Except.bind, pure, Except.pure]

theorem reads_scalar {room : Nat} {s : Scalar} (h : s.IsWritable) : Reads room (.scalar s) := by
  intro depth fuel rest hfuel hrest
  obtain ⟨fuel, rfl⟩ := Nat.exists_eq_add_one_of_ne_zero (Nat.ne_zero_of_lt hfuel)
  rw [writeValue]
  cases s with
  | null => exact readValue_of_readScalar (by rfl) fuel room
  | bool b => cases b <;> exact readValue_of_readScalar (by rfl) fuel room
  | int n => exact readValue_of_readScalar (readScalar_ofInt h hrest) fuel room
  | float x => exact readValue_of_readScalar (readScalar_float x hrest) fuel room
  | text t => exact readValue_writeString h fuel room rest

theorem readValue_items {cs tail : List Char} {c : Char} (h : skipSpace cs = c :: tail)
    (hc : c ≠ ']') (fuel room : Nat) :
    readValue (fuel + 1) (room + 1) ('[' :: cs) = readItems fuel room (c :: tail) [] := by
  rw [readValue, inside, h]
  split
  · exact absurd (List.cons.inj ‹_›).1 hc
  · rfl

theorem readValue_entries {cs tail : List Char} {c : Char} (h : skipSpace cs = c :: tail)
    (hc : c ≠ '\x7d') (fuel room : Nat) :
    readValue (fuel + 1) (room + 1) ('\x7b' :: cs) = readEntries fuel room (c :: tail) [] := by
  rw [readValue, inside, h]
  split
  · exact absurd (List.cons.inj ‹_›).1 hc
  · rfl

theorem reads_list {room : Nat} {items : List Value} (h : ∀ v ∈ items, Reads room v) :
    Reads (room + 1) (.list items) := by
  intro depth fuel rest hfuel _
  obtain ⟨fuel, rfl⟩ := Nat.exists_eq_add_one_of_ne_zero (Nat.ne_zero_of_lt hfuel)
  cases items with
  | nil => rfl
  | cons v vs =>
      simp only [writeValue, List.length_append, List.length_cons] at hfuel
      have hlength : (writeValue (depth + 1) v).length + (writeItems (depth + 1) vs).length + 1 <
          fuel := by omega
      have hitems := readItems_write h depth rest hlength []
      -- the first item starts with a character of its own, so the list is not taken for empty
      have hvalue := h v List.mem_cons_self (depth + 1) _ _ (Nat.lt_succ_self _)
        (delimited_writeItems (depth + 1) depth vs (']' :: rest))
      obtain ⟨c, tail, hcons, hspace, hc, -⟩ := exists_cons_of_readValue hvalue
      have hskip : skipSpace (newLine (depth + 1) ++ (writeValue (depth + 1) v ++
          (writeItems (depth + 1) vs ++ (newLine depth ++ ']' :: rest)))) = c :: tail := by
        rw [hcons, skipSpace_newLine_cons (depth + 1) hspace]
      rw [hcons] at hitems
      simp only [writeValue, List.append_assoc, List.cons_append, List.nil_append]
      rw [readValue_items hskip hc, hitems, readBack, readBackItems_eq_map]
      rfl

theorem writeMap_cons_append (depth : Nat) (e : Text × Value) (es : List (Text × Value))
    (rest : List Char) :
    writeMap depth (e :: es) ++ rest =
      '\x7b' :: (newLine (depth + 1) ++ (writeEntry (depth + 1) e ++
        (writeEntries (depth + 1) es ++ (newLine depth ++ '\x7d' :: rest)))) := by
  simp [writeMap, writeEntry]

theorem readValue_writeMap {room : Nat} {entries : List (Text × Value)}
    (hnames : ∀ e ∈ entries, e.1.IsJoined) (h : ∀ e ∈ entries, Reads room e.2)
    (hdistinct : (entries.map (·.1)).Nodup) {depth fuel : Nat} (rest : List Char)
    (hfuel : (writeMap depth entries).length < fuel) :
    readValue fuel (room + 1) (writeMap depth entries ++ rest) =
      .ok (.map (entries.map fun e => (e.1, readBack e.2)), rest) := by
  obtain ⟨fuel, rfl⟩ := Nat.exists_eq_add_one_of_ne_zero (Nat.ne_zero_of_lt hfuel)
  cases entries with
  | nil => rfl
  | cons e es =>
      rw [← List.append_nil (writeMap depth _), writeMap_cons_append] at hfuel
      simp only [List.length_append, List.length_cons] at hfuel
      have hlength : (writeEntry (depth + 1) e).length + (writeEntries (depth + 1) es).length + 1 <
          fuel := by omega
      have hskip : ∀ cs, skipSpace (newLine (depth + 1) ++ (writeEntry (depth + 1) e ++ cs)) =
          writeEntry (depth + 1) e ++ cs := by
        intro cs
        rw [skipSpace_newLine, skipSpace_writeEntry]
      rw [writeMap_cons_append, readValue_entries (hskip _) (by decide)]
      exact readEntries_write hnames h depth rest hlength hdistinct

/-- Every value is read back from its text. -/
theorem reads {v : Value} (hv : v.WellFormed) {room : Nat} (hw : v.Writable room) :
    Reads room v := by
  induction hv generalizing room with
  | scalar s =>
      cases hw with
      | scalar h => exact reads_scalar h
  | list _ ih =>
      cases hw with
      | list h => exact reads_list fun v hv => ih v hv (h v hv)
  | map hdistinct _ ih | record hdistinct _ ih =>
      cases hw
      rename_i hnames h
      intro depth fuel rest hfuel _
      rw [readBack, readBackEntries_eq_map]
      exact readValue_writeMap hnames (fun e he => ih e he (h e he)) hdistinct rest hfuel

theorem read_write {v : Value} (hv : v.WellFormed) {room : Nat} (hw : v.Writable room) :
    read room (write v).toList = .ok (readBack v) := by
  have hvalue : readValue (2 * (writeValue 0 v).length + 2) room (writeValue 0 v) =
      .ok (readBack v, []) := by
    simpa using reads hv hw 0 (2 * (writeValue 0 v).length + 2) [] (by omega) (by simp [Delimited])
  obtain ⟨c, rest, hcons, -, -, hmark⟩ := exists_cons_of_readValue hvalue
  have hhead : (writeValue 0 v).head? ≠ some '\ufeff' := by
    rw [hcons]
    simpa using hmark
  have hdocument : readDocument room (writeValue 0 v) = .ok (readBack v) := by
    rw [readDocument, if_neg hhead, skipSpace_of_readValue hvalue, hvalue]
    rfl
  rw [read, write, String.toList_ofList, hdocument]

end Json

/-! ### Reports -/

namespace Report

/-- The texts of the report are found again as they are, and none of its numbers has a numeral that
is too long. -/
structure IsWritable (r : Report) : Prop where
  path : ∀ f ∈ r.findings, f.path.IsJoined
  severity : ∀ f ∈ r.findings, f.diagnostic.severity.IsJoined
  ruleId : ∀ f ∈ r.findings, f.diagnostic.ruleId.IsJoined
  message : ∀ f ∈ r.findings, f.diagnostic.message.IsJoined
  line : ∀ f ∈ r.findings, ∀ n, f.diagnostic.location.line = some (.int n) →
    Decimal.isWritable n = true
  column : ∀ f ∈ r.findings, ∀ n, f.diagnostic.location.column = some (.int n) →
    Decimal.isWritable n = true
  rulesEvaluated : Decimal.isWritable r.rulesEvaluated = true
  filesScanned : Decimal.isWritable r.filesScanned = true
  errors : Decimal.isWritable r.errors.length = true
  warnings : Decimal.isWritable r.warnings.length = true

theorem wellFormed_value (r : Report) : r.value.WellFormed := by
  have hfinding : ∀ f, (findingValue f).WellFormed := by
    intro f
    simp [findingValue, Value.text, coordinateValue]
  simp [value, summaryValue, count, hfinding]

theorem writable_coordinateValue {room : Nat} {c : Option Coordinate}
    (h : ∀ n, c = some (.int n) → Decimal.isWritable n = true) :
    (coordinateValue c).Writable room := by
  refine .scalar ?_
  rcases c with _ | (m | b)
  · trivial
  · exact h m rfl
  · trivial

theorem writable_count {room : Nat} {n : Int} (h : Decimal.isWritable n = true) :
    (count n).Writable room :=
  .scalar h

/-- Entries under names that are strings can be read again if their values can. -/
theorem writable_map {room : Nat} (entries : List (String × Value))
    (h : ∀ e ∈ entries, e.2.Writable room) :
    (Value.map (entries.map fun e => ((e.1 : Text), e.2))).Writable (room + 1) :=
  .map (List.forall_mem_map.2 fun e _ => Text.isJoined_ofString e.1) (List.forall_mem_map.2 h)

/-- A finding is a mapping in a list in a mapping, and nothing goes deeper. -/
theorem IsWritable.value {r : Report} (h : r.IsWritable) (room : Nat) :
    r.value.Writable (room + 3) := by
  have hfinding : ∀ f ∈ r.findings, (findingValue f).Writable (room + 1) := by
    intro f hf
    refine writable_map [("file_path", .text f.path), ("line", _), ("column", _),
      ("severity", _), ("rule_id", _), ("message", _)] ?_
    simp only [List.forall_mem_cons]
    exact ⟨.scalar (h.path f hf), writable_coordinateValue (h.line f hf),
      writable_coordinateValue (h.column f hf), .scalar (h.severity f hf),
      .scalar (h.ruleId f hf), .scalar (h.message f hf), List.forall_mem_nil _⟩
  have hsummary : r.summaryValue.Writable (room + 2) := by
    refine writable_map [("rules_evaluated", _), ("files_scanned", _), ("errors_count", _),
      ("warnings_count", _), ("elapsed_ms", _)] ?_
    simp only [List.forall_mem_cons]
    exact ⟨writable_count h.rulesEvaluated, writable_count h.filesScanned,
      writable_count h.errors, writable_count h.warnings, .scalar trivial, List.forall_mem_nil _⟩
  refine writable_map [("findings", _), ("summary", _)] ?_
  simp only [List.forall_mem_cons]
  exact ⟨.list (List.forall_mem_map.2 hfinding), hsummary, List.forall_mem_nil _⟩

theorem readBack_coordinateValue (c : Option Coordinate) :
    Json.readBack (coordinateValue c) = .scalar (c.elim .null Coordinate.toScalar) := by
  rcases c with _ | (m | b) <;> rfl

/-- What the reader of syntax trees finds in the JSON text of a report: the findings in order, each
with its six fields and no others, and the numbers of the summary. Nothing is lost of any text, and
a coordinate that is a truth value is found as one. The reader needs room for no more than three
lists and objects inside of one another. -/
theorem read_json {r : Report} (h : r.IsWritable) {room : Nat} (hroom : 3 ≤ room) :
    ∃ elapsed : Float, Json.read room r.json.toList = .ok (.map [
      ("findings", .list (r.findings.map fun f => .map [
        ("file_path", .text f.path),
        ("line", .scalar (f.diagnostic.location.line.elim .null Coordinate.toScalar)),
        ("column", .scalar (f.diagnostic.location.column.elim .null Coordinate.toScalar)),
        ("severity", .text f.diagnostic.severity),
        ("rule_id", .text f.diagnostic.ruleId),
        ("message", .text f.diagnostic.message)])),
      ("summary", .map [
        ("rules_evaluated", .scalar (.int r.rulesEvaluated)),
        ("files_scanned", .scalar (.int r.filesScanned)),
        ("errors_count", .scalar (.int r.errors.length)),
        ("warnings_count", .scalar (.int r.warnings.length)),
        ("elapsed_ms", .scalar (.float elapsed))])]) := by
  refine ⟨Json.readBackDouble r.elapsed, ?_⟩
  obtain ⟨room, rfl⟩ := Nat.exists_eq_add_of_le' hroom
  rw [json, Json.read_write r.wellFormed_value (h.value room)]
  simp [Report.value, summaryValue, findingValue, count, Value.text, Json.readBack,
    Json.readBackItems_eq_map, Json.readBackEntries, Json.readBackScalar,
    readBack_coordinateValue]

/-- A report with quotes, backslashes, controls and characters of one and two code units in its
texts, and with a negative coordinate, a boolean one and none. -/
def awkward : Report where
  findings := [
    ⟨"C:\\\"a\"/é.json",
      ⟨"warn", "π", "'𝕏\n\x01'", ⟨some (.int (-3)), some (.bool true)⟩, ⟨[], .null⟩⟩⟩,
    ⟨"", ⟨"error", "", "\t", ⟨none, none⟩, ⟨[], .null⟩⟩⟩]
  rulesEvaluated := 4
  filesScanned := 1
  elapsed := 1.5

theorem read_json_awkward :
    ∃ elapsed : Float, Json.read 3 awkward.json.toList = .ok (.map [
      ("findings", .list [
        .map [("file_path", .text "C:\\\"a\"/é.json"), ("line", .scalar (.int (-3))),
          ("column", .scalar (.bool true)), ("severity", .text "warn"), ("rule_id", .text "π"),
          ("message", .text "'𝕏\n\x01'")],
        .map [("file_path", .text ""), ("line", .null), ("column", .null),
          ("severity", .text "error"), ("rule_id", .text ""), ("message", .text "\t")]]),
      ("summary", .map [("rules_evaluated", .scalar (.int 4)), ("files_scanned", .scalar (.int 1)),
        ("errors_count", .scalar (.int 1)), ("warnings_count", .scalar (.int 1)),
        ("elapsed_ms", .scalar (.float elapsed))])]) := by
  have hline : Decimal.isWritable (-3) = true := by decide +kernel
  have h : awkward.IsWritable := {
    path := by simp [awkward, Text.isJoined_ofString]
    severity := by simp [awkward, Text.isJoined_ofString]
    ruleId := by simp [awkward, Text.isJoined_ofString]
    message := by simp [awkward, Text.isJoined_ofString]
    line := by simp [awkward, hline]
    column := by simp [awkward]
    rulesEvaluated := by decide +kernel
    filesScanned := by decide +kernel
    errors := by decide +kernel
    warnings := by decide +kernel }
  exact read_json h (Nat.le_refl 3)

end Report

end UnderscoreLint
