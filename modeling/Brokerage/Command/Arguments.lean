namespace Brokerage

/-- How often an option is given and whether it takes a value. -/
inductive OptionArity where
  /-- No value, at most once. -/
  | flag
  /-- One value, at most once. -/
  | single
  /-- One value each time. -/
  | many
deriving DecidableEq

/-- An option of a command. -/
structure OptionRule where
  name : String
  letter : Option Char := none
  arity : OptionArity
  /-- Whether a value of its own argument may begin with a hyphen. -/
  hyphenValues : Bool := false
  /-- Which values it takes. -/
  accepts : String → Bool := fun _ => true

/-- What a command takes. -/
structure ArgumentRules where
  options : List OptionRule
  positionals : Nat := 0
  subcommands : List String := []
  /-- Whether the version can be asked for. -/
  versioned : Bool := false

/-- Why reading arguments ends early. -/
inductive Interruption where
  | usage
  | help
  | version
deriving DecidableEq

/-- The arguments of a command: options and flags in the order given, a flag
    with an empty value, positional arguments, and the subcommand, which ends
    them, with what follows it. -/
structure Arguments where
  options : List (String × String) := []
  positionals : List String := []
  subcommand : Option (String × List String) := none
deriving DecidableEq

namespace Arguments

/-- The values of an option in the order given. -/
def values (a : Arguments) (name : String) : List String :=
  (a.options.filter fun o => o.1 = name).map Prod.snd

/-- The value of an option that is given at most once. -/
def value? (a : Arguments) (name : String) : Option String :=
  (a.values name).head?

/-- A flag is given. -/
def isSet (a : Arguments) (name : String) : Bool :=
  !(a.values name).isEmpty

/-- The arguments with an option's value added, if the option takes it and may
    be given again. -/
def addValue (rule : OptionRule) (value : String) (a : Arguments) : Except Interruption Arguments :=
  if (rule.arity ≠ .many ∧ a.isSet rule.name) ∨ ¬rule.accepts value then .error .usage
  else .ok { a with options := a.options ++ [(rule.name, value)] }

/-- The arguments with a positional one added, if one more is taken. -/
def addPositional (rules : ArgumentRules) (value : String) (a : Arguments) : Except Interruption Arguments :=
  if a.positionals.length < rules.positionals then .ok { a with positionals := a.positionals ++ [value] }
  else .error .usage

/-- An argument taken for a value after an option: anything for some options,
    else nothing that begins with a hyphen but the hyphen itself. -/
def isValue (rule : OptionRule) (argument : String) : Bool :=
  rule.hyphenValues || argument = "-" || !argument.startsWith "-"

/-- An argument in its parts. -/
inductive Shape where
  | separator
  /-- Two hyphens and a name, with what follows an equals sign. -/
  | long (name : String) (value : Option String)
  /-- A hyphen and letters. -/
  | short (letters : List Char)
  | plain
deriving DecidableEq

/-- The parts of an argument. A lone hyphen is plain. -/
def shape (argument : String) : Shape :=
  match argument.toList with
  | ['-', '-'] => .separator
  | '-' :: '-' :: cs =>
    match cs.dropWhile (· ≠ '=') with
    | _ :: value => .long (String.ofList (cs.takeWhile (· ≠ '='))) (some (String.ofList value))
    | [] => .long (String.ofList cs) none
  | '-' :: c :: cs => .short (c :: cs)
  | _ => .plain

/-- What the first of an argument's letters asks for: an option with the value
    that follows the letter, with an equals sign in between or not. Only help
    and version come without a value. -/
def readLetters (rules : ArgumentRules) : List Char → Except Interruption (OptionRule × Option String)
  | [] => .error .usage
  | c :: cs =>
    match rules.options.find? (·.letter = some c) with
    | some rule =>
      match cs with
      | [] => .ok (rule, none)
      | '=' :: value => .ok (rule, some (String.ofList value))
      | value => .ok (rule, some (String.ofList value))
    | none =>
      if c = 'h' then .error .help
      else if c = 'V' ∧ rules.versioned then .error .version
      else .error .usage

/-- The option that an argument names, with the value it brings along. -/
def readName (rules : ArgumentRules) (name : String) (value : Option String) :
    Except Interruption (OptionRule × Option String) :=
  match rules.options.find? (·.name = name) with
  | some rule => .ok (rule, value)
  | none =>
    if value.isSome then .error .usage
    else if name = "help" then .error .help
    else if name = "version" ∧ rules.versioned then .error .version
    else .error .usage

/-- Reads arguments on from those in `a`. After a separator all are
    positional. -/
def readFrom (rules : ArgumentRules) (separated : Bool) (a : Arguments) :
    List String → Except Interruption Arguments
  | [] => .ok a
  | argument :: rest =>
    if separated then do
      readFrom rules separated (← a.addPositional rules argument) rest
    else if rules.subcommands.contains argument then .ok { a with subcommand := some (argument, rest) }
    else
      let option? : Option (Except Interruption (OptionRule × Option String)) :=
        match shape argument with
        | .long name value => some (readName rules name value)
        | .short letters => some (readLetters rules letters)
        | .separator | .plain => none
      match option? with
      | none =>
        if argument = "--" then readFrom rules true a rest
        else do
          readFrom rules separated (← a.addPositional rules argument) rest
      | some (.error interruption) => .error interruption
      | some (.ok (rule, attached)) =>
        match rule.arity, attached with
        | .flag, some _ => .error .usage
        | .flag, none => do
          readFrom rules separated (← a.addValue rule "") rest
        | _, some value => do
          readFrom rules separated (← a.addValue rule value) rest
        | _, none =>
          match rest with
          | value :: rest =>
            if isValue rule value then do
              readFrom rules separated (← a.addValue rule value) rest
            else .error .usage
          | [] => .error .usage

/-- Reads all arguments of a command. -/
def read (rules : ArgumentRules) (arguments : List String) : Except Interruption Arguments :=
  readFrom rules false {} arguments

end Arguments

end Brokerage
