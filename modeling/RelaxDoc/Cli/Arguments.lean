/-! The arguments of the command line. They are taken one after the other; help and version
win as soon as they are met, and so does the first misuse. -/
namespace RelaxDoc.Cli

/-- An option that takes a value. -/
inductive ValueOption where
  | output
  | format
  | diagram
  deriving DecidableEq, Repr

/-- An option that is given or not. -/
inductive Flag where
  | pretty
  | timing
  | validate
  deriving DecidableEq, Repr

/-- What the arguments taken so far say. -/
structure Options where
  verbosity : Nat := 0
  values : List (ValueOption × String) := []
  flags : List Flag := []
  input : Option String := none
  deriving DecidableEq, Repr

/-- What an option stands for. -/
inductive Meaning where
  | value (option : ValueOption)
  | flag (flag : Flag)
  | verbose
  | help
  | version
  deriving DecidableEq, Repr

/-- The meaning of a long option. -/
def long? (name : String) : Option Meaning :=
  [("verbose", Meaning.verbose), ("output", .value .output), ("format", .value .format),
   ("pretty", .flag .pretty), ("timing", .flag .timing), ("validate", .flag .validate),
   ("diagram", .value .diagram), ("help", .help), ("version", .version)].lookup name

/-- The meaning of a short option. -/
def short? (letter : Char) : Option Meaning :=
  [('v', Meaning.verbose), ('o', .value .output), ('f', .value .format), ('h', .help),
   ('V', .version)].lookup letter

/-- What a command line asks for. -/
inductive Request where
  | help
  | version
  | misuse
  | convert (options : Options) (input : String)
  deriving DecidableEq, Repr

/-- A reason to stop taking arguments. -/
inductive Stop where
  | help
  | version
  | misuse
  deriving DecidableEq, Repr

namespace Options

/-- The value that an option was given. -/
def value? (options : Options) (option : ValueOption) : Option String :=
  options.values.lookup option

/-- Takes a value. No option may be given twice, and an output path may not be empty. -/
def takeValue (options : Options) (option : ValueOption) (value : String) :
    Except Stop Options :=
  if (options.value? option).isSome || (option = .output && value = "") then .error .misuse
  else .ok { options with values := options.values ++ [(option, value)] }

/-- Takes an option without a value. None but the verbose one may be given twice. -/
def takeBare (options : Options) : Meaning → Except Stop Options
  | .verbose => .ok { options with verbosity := options.verbosity + 1 }
  | .flag flag =>
    if options.flags.contains flag then .error .misuse
    else .ok { options with flags := options.flags ++ [flag] }
  | .help => .error .help
  | .version => .error .version
  | .value _ => .error .misuse

/-- Takes the input. There may be only one. -/
def takeInput (options : Options) (input : String) : Except Stop Options :=
  if options.input.isSome then .error .misuse else .ok { options with input := some input }

/-- Takes joined short options, up to one that takes a value: the rest is its value, or
else the option waits for one. -/
def takeShort (options : Options) : List Char → Except Stop (Options × Option ValueOption)
  | [] => .ok (options, none)
  | letter :: rest =>
    match short? letter with
    | none => .error .misuse
    | some (.value option) =>
      match rest with
      | [] => .ok (options, some option)
      | '=' :: value => do return (← options.takeValue option (String.ofList value), none)
      | value => do return (← options.takeValue option (String.ofList value), none)
    | some meaning => do (← options.takeBare meaning).takeShort rest

/-- Takes a long option, with a value behind an equals sign or waiting for one. -/
def takeLong (options : Options) (text : List Char) :
    Except Stop (Options × Option ValueOption) :=
  let name := String.ofList (text.takeWhile (· != '='))
  match long? name, text.dropWhile (· != '=') with
  | none, _ => .error .misuse
  | some (.value option), [] => .ok (options, some option)
  | some (.value option), _ :: value => do
    return (← options.takeValue option (String.ofList value), none)
  | some meaning, [] => do return (← options.takeBare meaning, none)
  | some _, _ :: _ => .error .misuse

/-- Takes arguments when no option may follow. -/
def takeInputs (options : Options) : List String → Except Stop Options
  | [] => .ok options
  | argument :: rest => do (← options.takeInput argument).takeInputs rest

/-- Takes arguments; `waiting` is an option whose value comes next. -/
def take (options : Options) (waiting : Option ValueOption) :
    List String → Except Stop Options
  | [] => if waiting.isSome then .error .misuse else .ok options
  | argument :: rest =>
    match waiting, argument.toList with
    | some _, '-' :: _ :: _ => .error .misuse
    | some option, _ => do (← options.takeValue option argument).take none rest
    | none, ['-', '-'] => options.takeInputs rest
    | none, '-' :: '-' :: text => do
      let (options, waiting) ← options.takeLong text
      options.take waiting rest
    | none, '-' :: letter :: letters => do
      let (options, waiting) ← options.takeShort (letter :: letters)
      options.take waiting rest
    | none, _ => do (← options.takeInput argument).take none rest

end Options

/-- What a command line asks for. -/
def Request.ofArguments (arguments : List String) : Request :=
  match ({} : Options).take none arguments with
  | .error .help => .help
  | .error .version => .version
  | .error .misuse => .misuse
  | .ok options =>
    match options.input with
    | some input => .convert options input
    | none => .misuse

end RelaxDoc.Cli
