import Mathlib.Data.List.TakeWhile
import UnderscoreLint.Event

/-!
# The names of events

A kind is any text and is written into the name of an event as it is, so not every event can be told
from its name. `Event.IsPlain` singles out the kinds for which it can: those that are not empty and
have no colon. The first colon of a name then ends the kind, and a text is either without a kind, or
a plain kind, or a plain kind with a colon and some suffix behind it (`Event.exists_cut`).

`Event.Reads` lists what comes of reading a text, along these three cases. Reading a text and naming
an event undo each other on plain kinds and on no others (`Event.parse_eq_ok_iff`).
-/

namespace UnderscoreLint

namespace Event

/-- A kind that names can be told from: it is not empty and has no colon. -/
def IsPlain (kind : Text) : Prop :=
  kind ≠ "" ∧ .char ':' ∉ kind.letters

/-- A text is a plain kind, alone or with `:exit` behind it. -/
def IsName (text : Text) : Prop :=
  ∃ kind, IsPlain kind ∧ (text = kind ∨ text = kind ++ ":exit")

/-- What comes of reading a text. -/
inductive Reads : Text → Except EventError Event → Prop where
  | event {e : Event} (hkind : IsPlain e.kind) : Reads e.name (.ok e)
  | missingKind {text : Text} (h : text = "" ∨ ∃ rest, text = ":" ++ rest) :
      Reads text (.error (.missingKind text))
  | unknownSuffix {kind suffix : Text} (hkind : IsPlain kind) (hsuffix : suffix ≠ "exit") :
      Reads (kind ++ ":" ++ suffix) (.error (.unknownSuffix (kind ++ ":" ++ suffix)))

theorem IsPlain.forall_ne {kind : Text} (h : IsPlain kind) :
    ∀ l ∈ kind.letters, decide (l ≠ .char ':') = true :=
  fun _ hl => decide_eq_true (ne_of_mem_of_not_mem hl h.2)

theorem IsPlain.letters_ne_nil {kind : Text} (h : IsPlain kind) : kind.letters ≠ [] :=
  fun hnil => h.1 (Text.ext hnil)

/-- The first colon of a text ends its kind. -/
theorem exists_cut (text : Text) :
    (text = "" ∨ ∃ rest, text = ":" ++ rest) ∨ IsPlain text ∨
      ∃ kind suffix, IsPlain kind ∧ text = kind ++ ":" ++ suffix := by
  -- The part in front of the first colon has none, but it may be empty.
  by_cases hcolon : .char ':' ∈ text.letters
  · obtain ⟨front, back, htext, hfront⟩ := List.eq_append_cons_of_mem hcolon
    have hcut : text = ⟨front⟩ ++ ":" ++ ⟨back⟩ := by
      ext1
      rw [htext]
      simp
    by_cases hempty : front = []
    · refine .inl (.inr ⟨⟨back⟩, ?_⟩)
      rw [hcut, hempty]
      rfl
    · refine .inr (.inr ⟨⟨front⟩, ⟨back⟩, ⟨fun h => hempty ?_, hfront⟩, hcut⟩)
      exact congrArg Text.letters h
  · by_cases hempty : text = ""
    · exact .inl (.inl hempty)
    · exact .inr (.inl ⟨hempty, hcolon⟩)

theorem parse_of_missing {text : Text} (h : text = "" ∨ ∃ rest, text = ":" ++ rest) :
    parse text = .error (.missingKind text) := by
  have hkind : text.letters.takeWhile (· ≠ .char ':') = [] := by
    obtain rfl | ⟨rest, rfl⟩ := h
    · rfl
    · simp
  simp only [parse, hkind, ↓reduceIte]

theorem parse_of_isPlain {kind : Text} (h : IsPlain kind) : parse kind = .ok ⟨kind, .enter⟩ := by
  have hfront : kind.letters.takeWhile (· ≠ .char ':') = kind.letters :=
    List.takeWhile_eq_self_iff.2 h.forall_ne
  have hback : kind.letters.dropWhile (· ≠ .char ':') = [] :=
    List.dropWhile_eq_nil_iff.2 h.forall_ne
  simp only [parse, hfront, hback, if_neg h.letters_ne_nil]

theorem parse_append {kind : Text} (h : IsPlain kind) (suffix : Text) :
    parse (kind ++ ":" ++ suffix) =
      if suffix = "exit" then .ok ⟨kind, .exit⟩
      else .error (.unknownSuffix (kind ++ ":" ++ suffix)) := by
  have htext : (kind ++ ":" ++ suffix).letters =
      kind.letters ++ .char ':' :: suffix.letters := by simp
  have hfront : (kind.letters ++ .char ':' :: suffix.letters).takeWhile (· ≠ .char ':') =
      kind.letters := by
    rw [List.takeWhile_append_of_pos h.forall_ne]
    simp
  have hback : (kind.letters ++ .char ':' :: suffix.letters).dropWhile (· ≠ .char ':') =
      .char ':' :: suffix.letters := by
    rw [List.dropWhile_append_of_pos h.forall_ne]
    simp
  simp only [parse, htext, hfront, hback, if_neg h.letters_ne_nil]

theorem Reads.parse_eq {text : Text} {r : Except EventError Event} (h : Reads text r) :
    parse text = r := by
  cases h with
  | @event e hkind =>
      obtain ⟨kind, _ | _⟩ := e
      · exact parse_of_isPlain hkind
      · have happend := parse_append hkind "exit"
        rw [if_pos rfl, Text.append_assoc] at happend
        exact happend
  | missingKind h => exact parse_of_missing h
  | unknownSuffix hkind hsuffix => rw [parse_append hkind, if_neg hsuffix]

theorem reads_parse (text : Text) : Reads text (parse text) := by
  obtain h | h | ⟨kind, suffix, hkind, rfl⟩ := exists_cut text
  · rw [parse_of_missing h]
    exact .missingKind h
  · rw [parse_of_isPlain h]
    exact .event (e := ⟨text, .enter⟩) h
  · rw [parse_append hkind]
    split
    · rename_i hsuffix
      rw [hsuffix, Text.append_assoc]
      exact .event (e := ⟨kind, .exit⟩) hkind
    · rename_i hsuffix
      exact .unknownSuffix hkind hsuffix

theorem parse_eq_iff {text : Text} {r : Except EventError Event} :
    parse text = r ↔ Reads text r :=
  ⟨fun h => h ▸ reads_parse text, Reads.parse_eq⟩

/-- A text is read as an event exactly if it is the name of this event and the kind is plain. -/
theorem parse_eq_ok_iff {text : Text} {e : Event} :
    parse text = .ok e ↔ IsPlain e.kind ∧ e.name = text := by
  rw [parse_eq_iff]
  constructor
  · intro h
    cases h with
    | event hkind => exact ⟨hkind, rfl⟩
  · rintro ⟨hkind, rfl⟩
    exact .event hkind

theorem isName_iff {text : Text} : IsName text ↔ ∃ e, parse text = .ok e := by
  constructor
  · rintro ⟨kind, hkind, rfl | rfl⟩
    · exact ⟨⟨text, .enter⟩, parse_eq_ok_iff.2 ⟨hkind, rfl⟩⟩
    · exact ⟨⟨kind, .exit⟩, parse_eq_ok_iff.2 ⟨hkind, rfl⟩⟩
  · rintro ⟨⟨kind, phase⟩, h⟩
    obtain ⟨hkind, rfl⟩ := parse_eq_ok_iff.1 h
    cases phase with
    | enter => exact ⟨kind, hkind, .inl rfl⟩
    | exit => exact ⟨kind, hkind, .inr rfl⟩

theorem not_isName_iff {text : Text} : ¬ IsName text ↔ ∃ error, parse text = .error error := by
  rw [isName_iff]
  cases parse text <;> simp

theorem parse_refuses_iff {text : Text} : ¬ IsName text ↔
    parse text = .error (.missingKind text) ∨ parse text = .error (.unknownSuffix text) := by
  rw [not_isName_iff]
  constructor
  · rintro ⟨error, herror⟩
    have hreads := parse_eq_iff.1 herror
    cases hreads with
    | missingKind _ => exact .inl herror
    | unknownSuffix _ _ => exact .inr herror
  · rintro (h | h)
    · exact ⟨_, h⟩
    · exact ⟨_, h⟩

/-- A text is read exactly if it is a plain kind, alone or with `:exit` behind it. Any other text is
refused, as having no kind or an unknown suffix. What is read has the text for its name. An event is
read back from its name exactly if its kind is plain. -/
theorem parse_inverts_name :
    (∀ text, (∃ e, parse text = .ok e) ↔ IsName text) ∧
    (∀ text, ¬ IsName text ↔
      parse text = .error (.missingKind text) ∨ parse text = .error (.unknownSuffix text)) ∧
    (∀ text e, parse text = .ok e → e.name = text) ∧
    ∀ e : Event, parse e.name = .ok e ↔ IsPlain e.kind := by
  refine ⟨fun _ => isName_iff.symm, fun _ => parse_refuses_iff, fun text e h => ?_, fun e => ?_⟩
  · exact (parse_eq_ok_iff.1 h).2
  · rw [parse_eq_ok_iff, and_iff_left rfl]

/-- An exit is told from its name. An entry into a kind that is this name is taken for the exit, and
the exit from such a kind has a name that is refused. -/
theorem parse_inverts_name_contractExit :
    let exit : Event := ⟨"ContractDefinition", .exit⟩
    let misread : Event := ⟨"ContractDefinition:exit", .enter⟩
    parse "ContractDefinition:exit" = .ok exit ∧ exit.name = "ContractDefinition:exit" ∧
    parse misread.name ≠ .ok misread ∧ ¬ IsName "ContractDefinition:exit:exit" := by
  intro exit misread
  obtain ⟨-, hrefused, hname, hback⟩ := parse_inverts_name
  have hread : parse "ContractDefinition:exit" = .ok exit := rfl
  refine ⟨hread, hname _ _ hread, fun h => ?_, (hrefused _).2 (.inr rfl)⟩
  have hplain : IsPlain misread.kind := (hback misread).1 h
  exact hplain.2 (by decide)

end Event

end UnderscoreLint
