import LivePage.Text.Cut

/-!
# Command line options

Options come in any order, each at most once.  Long names stand behind two
hyphens and take a value behind an equals sign or as the next argument; short
names stand behind one, with the value right behind, after an equals sign or as
the next argument.  The first thing that is wrong decides the error.
-/

namespace LivePage

/-- What a command line asks for. -/
structure Options where
  page : String := "page.json"
  dryRun : Bool := false
  baseUrl : Option String := none
  logLevel : Option String := none
  printSchema : Bool := false
deriving DecidableEq, Repr, Inhabited

/-- An option that takes a value. -/
inductive ValueOption where
  | page
  | baseUrl
  | logLevel
deriving DecidableEq, Repr

/-- An option without a value. -/
inductive Flag where
  | dryRun
  | printSchema
  | help
  | version
deriving DecidableEq, Repr

namespace ValueOption

/-- The option with its value, as messages show it. -/
def usage : ValueOption → String
  | page => "--page <PAGE>"
  | baseUrl => "--base-url <BASE_URL>"
  | logLevel => "--log-level <LOG_LEVEL>"

end ValueOption

namespace Flag

/-- The flag as messages show it. -/
def usage : Flag → String
  | dryRun => "--dry-run"
  | printSchema => "--print-schema"
  | help => "--help"
  | version => "--version"

end Flag

/-- What is wrong with a command line. -/
inductive UsageError where
  | unexpectedArgument (text : String)
  | missingValue (option : ValueOption)
  | repeatedOption (usage : String)
  | unexpectedValue (value : String) (flag : Flag)
deriving DecidableEq, Repr

namespace UsageError

def message : UsageError → String
  | unexpectedArgument text => "unexpected argument '" ++ text ++ "' found"
  | missingValue option => "a value is required for '" ++ option.usage ++ "' but none was supplied"
  | repeatedOption usage => "the argument '" ++ usage ++ "' cannot be used multiple times"
  | unexpectedValue value flag =>
      "unexpected value '" ++ value ++ "' for '" ++ flag.usage ++ "' found; no more were expected"

end UsageError

/-- What a command line comes to. -/
inductive Invocation where
  | run (options : Options)
  | help
  | version
  | refused (error : UsageError)
deriving DecidableEq, Repr

namespace Invocation

def long? : String → Option (ValueOption ⊕ Flag)
  | "page" => some (.inl .page)
  | "base-url" => some (.inl .baseUrl)
  | "log-level" => some (.inl .logLevel)
  | "dry-run" => some (.inr .dryRun)
  | "print-schema" => some (.inr .printSchema)
  | "help" => some (.inr .help)
  | "version" => some (.inr .version)
  | _ => none

def short? : Char → Option (ValueOption ⊕ Flag)
  | 'p' => some (.inl .page)
  | 'h' => some (.inr .help)
  | 'V' => some (.inr .version)
  | _ => none

/-- What is read so far: the options, which of them were given, and the option
that was named last, with its value where that has come.  Such an option counts
only when it is settled. -/
structure Reading where
  options : Options := {}
  given : List String := []
  unsettled : Option (ValueOption × Option String) := none

namespace Reading

/-- Notes that an option is given, if it was not given before. -/
def give (state : Reading) (usage : String) : Except Invocation Reading :=
  if state.given.contains usage then .error (.refused (.repeatedOption usage))
  else .ok { state with given := usage :: state.given }

/-- Takes the value of an option; the page is never empty. -/
def set (state : Reading) (option : ValueOption) (value : String) : Except Invocation Reading := do
  let state ← state.give option.usage
  match option with
  | .page =>
      if value = "" then .error (.refused (.missingValue .page))
      else .ok { state with options := { state.options with page := value } }
  | .baseUrl => .ok { state with options := { state.options with baseUrl := some value } }
  | .logLevel => .ok { state with options := { state.options with logLevel := some value } }

def raise (state : Reading) (flag : Flag) : Except Invocation Reading :=
  match flag with
  | .help => .error .help
  | .version => .error .version
  | .dryRun => do
      let state ← state.give flag.usage
      .ok { state with options := { state.options with dryRun := true } }
  | .printSchema => do
      let state ← state.give flag.usage
      .ok { state with options := { state.options with printSchema := true } }

/-- Takes the option that was named last. -/
def settle (state : Reading) : Except Invocation Reading :=
  match state.unsettled with
  | none => .ok state
  | some (option, none) => .error (.refused (.missingValue option))
  | some (option, some value) => { state with unsettled := none }.set option value

/-- Names an option whose value comes next. -/
def await (state : Reading) (option : ValueOption) : Except Invocation Reading := do
  return { ← state.settle with unsettled := some (option, none) }

/-- Reads a long name with its value, if one is attached.  A name that is not
known, and a value that is not taken, are refused before the option in front is
looked at. -/
def readLong (state : Reading) (name : String) (value : Option String) :
    Except Invocation Reading :=
  match long? name, value with
  | none, _ => .error (.refused (.unexpectedArgument ("--" ++ name)))
  | some (.inl option), some value => do (← state.settle).set option value
  | some (.inl option), none => state.await option
  | some (.inr flag), some value => .error (.refused (.unexpectedValue value flag))
  | some (.inr flag), none => do (← state.settle).raise flag

/-- Reads short names that share one hyphen. -/
def readShort (state : Reading) : List Char → Except Invocation Reading
  | [] => .ok state
  | c :: rest =>
      match short? c with
      | none => .error (.refused (.unexpectedArgument (String.ofList ['-', c])))
      | some (.inr flag) => do readShort (← (← state.settle).raise flag) rest
      | some (.inl option) =>
          match rest with
          | [] => state.await option
          | '=' :: value => do (← state.settle).set option (String.ofList value)
          | value => do (← state.settle).set option (String.ofList value)

/-- Reads one argument; one without a hyphen is the value of the option in
front. -/
def read (state : Reading) (argument : String) : Except Invocation Reading :=
  match argument.toList with
  | '-' :: '-' :: rest =>
      match Text.cutAt '=' rest with
      | some (name, value) => state.readLong (String.ofList name) (some (String.ofList value))
      | none => state.readLong (String.ofList rest) none
  | '-' :: c :: rest => state.readShort (c :: rest)
  | _ =>
      match state.unsettled with
      | some (option, none) => .ok { state with unsettled := some (option, some argument) }
      | _ => .error (.refused (.unexpectedArgument argument))

/-- Reads the arguments from left to right.  Two hyphens alone end the options,
and there is nothing else to give. -/
def readAll (state : Reading) : List String → Except Invocation Reading
  | [] => state.settle
  | argument :: rest =>
      if argument = "--" then
        match rest with
        | [] => state.settle
        | extra :: _ => .error (.refused (.unexpectedArgument extra))
      else
        match state.read argument with
        | .error invocation => .error invocation
        | .ok state => readAll state rest

end Reading

/-- What a command line comes to. -/
def ofArguments (arguments : List String) : Invocation :=
  match ({} : Reading).readAll arguments with
  | .ok state => .run state.options
  | .error invocation => invocation

end Invocation

end LivePage
