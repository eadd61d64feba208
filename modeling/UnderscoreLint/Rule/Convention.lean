import UnderscoreLint.Event

/-!
# The naming conventions

The four conventions that there are rules for, in the order in which they are always
run, with the id a configuration calls them by and the events they listen to.
-/

namespace UnderscoreLint

/-- A naming convention. -/
inductive Convention where
  /-- Members of a library start with the marker exactly if they are hidden. -/
  | libraryMembers
  /-- Parameters end with the marker. -/
  | parameters
  /-- Return parameters end with the marker. -/
  | returnParameters
  /-- Local variables of loops and functions start with the marker. -/
  | localVariables
  deriving DecidableEq, Repr, Inhabited

/-- What a handler of a convention does when its event fires. -/
inductive Check where
  | enterContract
  | leaveContract
  | enterDeclaration
  | leaveDeclaration
  | member
  | variableMember
  | parameters (listed : Text)
  | body
  deriving DecidableEq, Repr

namespace Convention

/-- The conventions in the order of the registry. -/
def all : List Convention :=
  [libraryMembers, parameters, returnParameters, localVariables]

/-- The id of a convention in configurations and reports. -/
def id : Convention → Text
  | libraryMembers => "private-vars-leading-underscore-lib"
  | parameters => "func-param-name-trailing-underscore"
  | returnParameters => "func-return-param-name-trailing-underscore"
  | localVariables => "scoped-vars-leading-underscore"

/-- The name a rule for the convention goes by when it is shown. -/
def title : Convention → String
  | libraryMembers => "PrivateVarsLeadingUnderscoreLib"
  | parameters => "FuncParamNameTrailingUnderscore"
  | returnParameters => "FuncReturnParamNameTrailingUnderscore"
  | localVariables => "ScopedVarsLeadingUnderscore"

/-- The ids of all conventions. -/
def ids : List Text :=
  all.map id

/-- The convention with that id. -/
def ofId? (text : Text) : Option Convention :=
  all.find? fun c => c.id == text

/-- The kinds of nodes that are loops. -/
def loopKinds : List Text := ["ForStatement", "WhileStatement", "DoWhileStatement"]

/-- The kinds of nodes that have parameters. -/
def parameterKinds : List Text :=
  ["FunctionDefinition", "ModifierDefinition", "CustomErrorDefinition", "EventDefinition"]

/-- The events a convention listens to, with what it does about each, in the order of
registration. -/
def subscriptions : Convention → List (Event × Check)
  | libraryMembers => [
      (⟨"ContractDefinition", .enter⟩, .enterContract),
      (⟨"ContractDefinition", .exit⟩, .leaveContract),
      (⟨"VariableDeclarationStatement", .enter⟩, .enterDeclaration),
      (⟨"VariableDeclarationStatement", .exit⟩, .leaveDeclaration),
      (⟨"FunctionDefinition", .enter⟩, .member),
      (⟨"VariableDeclaration", .enter⟩, .variableMember)]
  | parameters => parameterKinds.map fun kind => (⟨kind, .enter⟩, .parameters "parameters")
  | returnParameters => [(⟨"FunctionDefinition", .enter⟩, .parameters "returnParameters")]
  | localVariables =>
    (loopKinds ++ [("FunctionDefinition" : Text)]).map fun kind => (⟨kind, .enter⟩, .body)

theorem mem_all (c : Convention) : c ∈ all := by
  cases c <;> decide

theorem id_injective {a b : Convention} (h : a.id = b.id) : a = b := by
  revert h
  cases a <;> cases b <;> decide

end Convention

end UnderscoreLint
