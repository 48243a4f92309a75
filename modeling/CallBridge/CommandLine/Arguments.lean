/-!
# Command line arguments

Long options begin with two dashes; their value follows as the next argument or
after an equals sign.  Short options are single letters after one dash and may be
joined; a value follows its letter at once, perhaps after an equals sign, or as the
next argument.  Only `-v` may be given more than once, and there are no
abbreviations and no arguments besides the options.  Arguments are read from left
to right, and the first fault counts.

`Request.parse` reads a whole argument list.
-/

namespace CallBridge.CommandLine

/-- Options that take a value. -/
inductive ValueOption where
  | registry
  | header
  | outfile
  | dispatchHeader
  | apiPrefix
  | config
  deriving DecidableEq, Repr

/-- Options without a value. -/
inductive Flag where
  | preresolve
  | staticWrappers
  | noDebugCount
  | noPrelude
  | quiet
  deriving DecidableEq, Repr

/-- An option by its name. -/
inductive OptionName where
  | value (option : ValueOption)
  | flag (flag : Flag)
  | verbose
  | version
  | help
  deriving DecidableEq, Repr

/-- The option with a long name. -/
def OptionName.ofLong? (name : String) : Option OptionName :=
  if name = "registry" then some (.value .registry)
  else if name = "header" then some (.value .header)
  else if name = "outfile" then some (.value .outfile)
  else if name = "dispatchheader" then some (.value .dispatchHeader)
  else if name = "prefix" then some (.value .apiPrefix)
  else if name = "config" then some (.value .config)
  else if name = "preresolve" then some (.flag .preresolve)
  else if name = "staticwrappers" then some (.flag .staticWrappers)
  else if name = "nodbgcount" then some (.flag .noDebugCount)
  else if name = "no-prelude" then some (.flag .noPrelude)
  else if name = "quiet" then some (.flag .quiet)
  else if name = "verbose" then some .verbose
  else if name = "version" then some .version
  else if name = "help" then some .help
  else none

/-- The option with a short name. -/
def OptionName.ofShort? (letter : Char) : Option OptionName :=
  if letter = 'o' then some (.value .outfile)
  else if letter = 'q' then some (.flag .quiet)
  else if letter = 'v' then some .verbose
  else if letter = 'V' then some .version
  else if letter = 'h' then some .help
  else none

/-- Why arguments are refused. -/
inductive UsageFault where
  | unknownOption (argument : String)
  | unexpectedArgument (argument : String)
  | repeatedOption
  | missingValue
  | emptyValue
  | unwantedValue (argument : String)
  /-- Neither or both of the options that name the source are given. -/
  | sourceCount
  deriving DecidableEq, Repr

/-- The options that have been given. -/
structure Given where
  values : List (ValueOption × String) := []
  flags : List Flag := []
  verbose : Nat := 0
  deriving DecidableEq, Repr

namespace Given

/-- The value of an option. -/
def value? (g : Given) (option : ValueOption) : Option String :=
  (g.values.find? (·.1 == option)).map Prod.snd

/-- Whether a flag is given. -/
def has (g : Given) (flag : Flag) : Bool :=
  g.flags.contains flag

/-- Adds an option with its value.  Only the API name may be empty. -/
def addValue (g : Given) (option : ValueOption) (value : String) : Except UsageFault Given :=
  if (g.value? option).isSome then .error .repeatedOption
  else if value.isEmpty && option != .apiPrefix then .error .emptyValue
  else .ok { g with values := g.values ++ [(option, value)] }

/-- Adds a flag. -/
def addFlag (g : Given) (flag : Flag) : Except UsageFault Given :=
  if g.has flag then .error .repeatedOption else .ok { g with flags := g.flags ++ [flag] }

end Given

/-- What arguments ask for. -/
inductive Request where
  | generate (given : Given)
  | version
  | help
  deriving DecidableEq, Repr

/-- The outcome of one argument: the options so far and the option that the next
argument is the value of, if there is one, or a request that ends the reading. -/
inductive Progress where
  | more (given : Given) (awaiting : Option ValueOption)
  | finished (request : Request)
  deriving DecidableEq, Repr

/-- Reads a long option: its name, and its value if one is attached. -/
def longOption (g : Given) (argument : String) (name : String) (attached : Option String) :
    Except UsageFault Progress :=
  match OptionName.ofLong? name, attached with
  | none, _ => .error (.unknownOption argument)
  | some (.value option), some value => (g.addValue option value).map (.more · none)
  | some (.value option), none => .ok (.more g (some option))
  | some _, some _ => .error (.unwantedValue argument)
  | some (.flag flag), none => (g.addFlag flag).map (.more · none)
  | some .verbose, none => .ok (.more { g with verbose := g.verbose + 1 } none)
  | some .version, none => .ok (.finished .version)
  | some .help, none => .ok (.finished .help)

/-- Reads joined short options. -/
def shortOptions (g : Given) (argument : String) : List Char → Except UsageFault Progress
  | [] => .ok (.more g none)
  | letter :: rest =>
    match OptionName.ofShort? letter with
    | none => .error (.unknownOption argument)
    | some (.value option) =>
      if rest.isEmpty then .ok (.more g (some option))
      else
        let value := if rest.head? = some '=' then rest.tail else rest
        (g.addValue option (String.ofList value)).map (.more · none)
    | some (.flag flag) =>
      match g.addFlag flag with
      | .ok g => shortOptions g argument rest
      | .error fault => .error fault
    | some .verbose => shortOptions { g with verbose := g.verbose + 1 } argument rest
    | some .version => .ok (.finished .version)
    | some .help => .ok (.finished .help)

/-- Reads an option. -/
def readOption (g : Given) (argument : String) : Except UsageFault Progress :=
  match argument.toList with
  | '-' :: '-' :: cs =>
    let name := String.ofList (cs.takeWhile (· != '='))
    let attached :=
      match cs.dropWhile (· != '=') with
      | [] => none
      | _ :: value => some (String.ofList value)
    longOption g argument name attached
  | '-' :: cs => shortOptions g argument cs
  | _ => .error (.unexpectedArgument argument)

/-- Whether an argument is an option, rather than a value or the mark that ends the
options. -/
def isOption (argument : String) : Bool :=
  match argument.toList with
  | ['-', '-'] => false
  | '-' :: _ :: _ => true
  | _ => false

/-- The request of options that are complete.  Exactly one source has to be
named. -/
def Given.request (g : Given) : Except UsageFault Request :=
  if (g.value? .registry).isSome == (g.value? .header).isSome then .error .sourceCount
  else .ok (.generate g)

/-- Reads arguments, after the options so far and with an option that may await its
value. -/
def parseFrom (g : Given) (awaiting : Option ValueOption) :
    List String → Except UsageFault Request
  | [] => if awaiting.isSome then .error .missingValue else g.request
  | argument :: rest =>
    if isOption argument || argument == "--" then
      if awaiting.isSome then .error .missingValue
      else if argument = "--" then
        match rest with
        | [] => g.request
        | extra :: _ => .error (.unexpectedArgument extra)
      else
        match readOption g argument with
        | .error fault => .error fault
        | .ok (.finished request) => .ok request
        | .ok (.more g awaiting) => parseFrom g awaiting rest
    else
      match awaiting with
      | none => .error (.unexpectedArgument argument)
      | some option =>
        match g.addValue option argument with
        | .error fault => .error fault
        | .ok g => parseFrom g none rest

/-- Reads an argument list. -/
def Request.parse (arguments : List String) : Except UsageFault Request :=
  parseFrom {} none arguments

end CallBridge.CommandLine
