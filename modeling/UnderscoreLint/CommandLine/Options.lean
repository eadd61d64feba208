/-!
# Options on a command line

An argument that starts with a dash is an option. A long one starts with two dashes and may
carry its value behind an equals sign; short ones may share one dash. Two dashes alone end
the options. Options and other arguments may be mixed, or options have to come first.

`scan` goes through the arguments and collects the options it meets, in order, each with its
value if it takes one. A value is taken as it is, even if it looks like an option.
-/

namespace UnderscoreLint.CommandLine

/-- An option that a command knows. -/
structure OptionSpec where
  /-- The name with its dashes. -/
  long : String
  /-- The letter that stands for it behind one dash. -/
  short : Option Char := none
  takesValue : Bool := false
  deriving DecidableEq, Repr

/-- An option that was given. -/
structure GivenOption where
  long : String
  value : String := ""
  deriving DecidableEq, Repr

/-- What is wrong with an option. -/
inductive OptionError where
  | unknown (name : String)
  | needsValue (name : String)
  | takesNoValue (name : String)
  deriving DecidableEq, Repr

/-- Whether an argument is an option, or a run of them. -/
def isOption (arg : String) : Bool :=
  match arg.toList with
  | '-' :: _ :: _ => true
  | _ => false

/-- Whether an argument starts with two dashes. -/
def isLong (arg : String) : Bool :=
  match arg.toList with
  | '-' :: '-' :: _ => true
  | _ => false

/-- The part before the first equals sign, and the part behind it if there is one. -/
def splitValue (arg : String) : String × Option String :=
  let cs := arg.toList
  (String.ofList (cs.takeWhile (· ≠ '=')),
    match cs.dropWhile (· ≠ '=') with
    | [] => none
    | _ :: value => some (String.ofList value))

/-- The options that share one dash. None of them takes a value. -/
def shortOptions (specs : List OptionSpec) : List Char → Except OptionError (List GivenOption)
  | [] => .ok []
  | c :: rest =>
    match specs.find? fun s => s.short == some c with
    | some s => do
      let others ← shortOptions specs rest
      return ⟨s.long, ""⟩ :: others
    | none => .error (.unknown (String.ofList ['-', c]))

/-- Collects options, and the arguments that are none. If `mixed` does not hold, the first
argument that is no option ends the options. -/
def scan (specs : List OptionSpec) (mixed : Bool) :
    List String → Except OptionError (List GivenOption × List String)
  | [] => .ok ([], [])
  | arg :: args =>
    if arg = "--" then .ok ([], args)
    else if isOption arg then
      let (name, attached) := splitValue arg
      match specs.find? fun s => s.long == name with
      | some s =>
        if s.takesValue then
          match attached, args with
          | some value, args => do
            let (given, rest) ← scan specs mixed args
            return (⟨name, value⟩ :: given, rest)
          | none, value :: args => do
            let (given, rest) ← scan specs mixed args
            return (⟨name, value⟩ :: given, rest)
          | none, [] => .error (.needsValue name)
        else if attached.isSome then .error (.takesNoValue name)
        else do
          let (given, rest) ← scan specs mixed args
          return (⟨name, ""⟩ :: given, rest)
      | none =>
        if isLong arg then .error (.unknown name)
        else do
          let short ← shortOptions specs arg.toList.tail
          let (given, rest) ← scan specs mixed args
          return (short ++ given, rest)
    else if mixed then do
      let (given, rest) ← scan specs mixed args
      return (given, arg :: rest)
    else .ok ([], arg :: args)

/-- Whether an option was given. -/
def isGiven (given : List GivenOption) (long : String) : Bool :=
  given.any fun g => g.long == long

/-- The last value given to an option. -/
def lastValue? (given : List GivenOption) (long : String) : Option String :=
  ((given.filter fun g => g.long == long).getLast?).map (·.value)

/-- The names of the options that were given, in the order of their first mention. -/
def givenNames (given : List GivenOption) : List String :=
  given.foldl (fun names g => if names.contains g.long then names else names ++ [g.long]) []

end UnderscoreLint.CommandLine
