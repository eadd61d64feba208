import UnderscoreLint.Datum
import UnderscoreLint.Reporter
import UnderscoreLint.Rule.Convention
import UnderscoreLint.Text.Blank

/-!
# Rules

A rule has an id, a title to be shown by, the settings it was given, and the events it
listens to. The id must not be blank, and a rule is only made where there is a reporter
to report to.

`Rule.create` makes the rules of a run: one for each wanted convention, in the order of
the registry whatever the order in which they were asked for. An id that names no
convention is refused before any rule is made.
-/

namespace UnderscoreLint

/-- A rule: its title and id, the settings it was given, and what it does at which event. -/
structure Rule where
  title : String
  id : Text
  settings : Value
  subscriptions : List (Event × Check) := []

/-- Why rules cannot be made. -/
inductive RuleError where
  /-- The id is no text, or blank. -/
  | blankId (title : String) (given : Value)
  /-- There is no reporter for the rule of that id. -/
  | noReporter (id : Text)
  /-- Rules were asked for by ids that name none; the ids are sorted and distinct. -/
  | unknownIds (ids : List Text)

/-- The words of a rule error. -/
def RuleError.message : RuleError → Text
  | .blankId title given =>
    title ++ ": rule id must be a non-empty string, got " ++ given.toDatum.literal
  | .noReporter id => "Rule '" ++ id ++ "': a reporter is required"
  | .unknownIds ids => "Unknown rule id(s): " ++ Text.intercalate ", " ids

namespace Rule

/-- Makes a rule. The id is looked at before the reporter. -/
def make (title : String) (id : Value) (reporter : Option Reporter) (settings : Value)
    (subscriptions : List (Event × Check)) : Except RuleError Rule :=
  match id.text? with
  | none => .error (.blankId title id)
  | some name =>
    if Text.isBlank name then .error (.blankId title id)
    else if reporter.isNone then .error (.noReporter name)
    else .ok ⟨title, name, settings, subscriptions⟩

/-- The rule as it is shown. -/
def literal (r : Rule) : String :=
  r.title ++ "(rule_id=" ++ Text.quoted r.id ++ ")"

/-- Makes the rule for a convention. -/
def ofConvention (reporter : Option Reporter) (settings : Value) (c : Convention) :
    Except RuleError Rule :=
  make c.title (.text c.id) reporter settings c.subscriptions

/-- Adds a text to a sorted list unless it is there. -/
def insertSorted (s : Text) : List Text → List Text
  | [] => [s]
  | t :: rest =>
    if s = t then t :: rest
    else if s < t then s :: t :: rest
    else t :: insertSorted s rest

/-- The ids among `wanted` that name no convention, sorted, each once. -/
def unknown (wanted : List Text) : List Text :=
  (wanted.filter fun id => !Convention.ids.contains id).foldr insertSorted []

/-- Makes the wanted rules, all of them if nothing is said, in the order of the registry.
`settings` holds what single rules are given. -/
def create (reporter : Option Reporter) (wanted : Option (List Text))
    (settings : List (Text × Value)) : Except RuleError (List Rule) :=
  let wanted := wanted.getD Convention.ids
  let missing := unknown wanted
  if missing ≠ [] then .error (.unknownIds missing)
  else
    (Convention.all.filter fun c => wanted.contains c.id).mapM fun c =>
      ofConvention reporter ((Value.lookup c.id settings).getD .null) c

end Rule

end UnderscoreLint
