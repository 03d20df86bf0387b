import Tokenizer.Command.Init
import Tokenizer.Command.Lex

/-!
The command line: options, a command with options of its own, and what the
environment adds to them.

An option has a long name, a letter, or both. Letters may be bundled, and the
rest of a bundle is the value of the first option in it that takes one. The
options of the whole program may stand before the command or after it; after it
they count more.
-/

namespace Tokenizer

/-- The name of the program. -/
def programName : String := "ratt"

def programVersion : String := "0.1.0"

/-- The commands by name. -/
inductive CommandName where
  | lex
  | check
  | init
  deriving DecidableEq, Repr

namespace CommandName

def all : List CommandName := [.lex, .check, .init]

def text : CommandName → String
  | .lex => "lex"
  | .check => "check"
  | .init => "init"

def ofText? (text : String) : Option CommandName :=
  all.find? fun name => name.text == text

end CommandName

/-- The options. -/
inductive Parameter where
  | verbose
  | config
  | noColor
  | help
  | version
  | output
  | truncate
  | summary
  | format
  | path
  | force
  deriving DecidableEq, Repr

namespace Parameter

def all : List Parameter :=
  [.verbose, .config, .noColor, .help, .version, .output, .truncate, .summary, .format, .path,
    .force]

def longName : Parameter → String
  | .verbose => "verbose"
  | .config => "config"
  | .noColor => "no-color"
  | .help => "help"
  | .version => "version"
  | .output => "output"
  | .truncate => "truncate"
  | .summary => "summary"
  | .format => "format"
  | .path => "path"
  | .force => "force"

def letter? : Parameter → Option Char
  | .verbose => some 'v'
  | .config => some 'c'
  | .noColor => none
  | .help => some 'h'
  | .version => some 'V'
  | .output => some 'o'
  | .truncate => none
  | .summary => none
  | .format => some 'F'
  | .path => some 'p'
  | .force => some 'f'

/-- Whether the option comes with a value. -/
def takesValue : Parameter → Bool
  | .config | .output | .format | .path => true
  | _ => false

/-- Whether the value is a path. A path is not empty. -/
def isPath : Parameter → Bool
  | .config | .output | .path => true
  | _ => false

/-- Whether the option is known at a level: before the command, or after it. -/
def isKnown (level : Option CommandName) : Parameter → Bool
  | .verbose | .config | .noColor | .help | .version => true
  | .output | .truncate | .summary | .format => level == some .lex
  | .path | .force => level == some .init

/-- The option of a long name at a level. -/
def ofLongName? (level : Option CommandName) (name : String) : Option Parameter :=
  all.find? fun parameter => parameter.isKnown level && parameter.longName == name

/-- The option of a letter at a level. -/
def ofLetter? (level : Option CommandName) (letter : Char) : Option Parameter :=
  all.find? fun parameter => parameter.isKnown level && parameter.letter? == some letter

end Parameter

/-- What was given at one level. -/
structure Given where
  /-- The options with their values; a flag has none. -/
  options : List (Parameter × Option String) := []
  positionals : List String := []

namespace Given

def has (parameter : Parameter) (given : Given) : Bool :=
  given.options.any fun option => option.1 == parameter

def value? (parameter : Parameter) (given : Given) : Option String :=
  (given.options.lookup parameter).join

end Given

/-- Why the command line is not carried out. -/
inductive Refusal where
  /-- It is not understood. -/
  | usage
  /-- It asks for help. -/
  | help
  /-- It asks for the version, of the program or of a command. -/
  | version (level : Option CommandName)
  deriving DecidableEq, Repr

/-- Whether another positional argument is possible at a level. -/
def acceptsPositional (level : Option CommandName) (given : Given) : Bool :=
  match level with
  | some .lex => given.positionals.isEmpty
  | some .check => true
  | some .init => false
  | none => false

namespace Given

/-- Take an option without a value. A flag may be given once. -/
def addFlag (level : Option CommandName) (parameter : Parameter) (given : Given) :
    Except Refusal Given :=
  match parameter with
  | .help => .error .help
  | .version => .error (.version level)
  | _ =>
      if given.has parameter then .error .usage
      else .ok { given with options := given.options ++ [(parameter, none)] }

/-- Take an option with a value. An option may be given once. -/
def addValue (parameter : Parameter) (value : String) (given : Given) : Except Refusal Given :=
  if given.has parameter || (parameter.isPath && value == "") then .error .usage
  else .ok { given with options := given.options ++ [(parameter, some value)] }

/-- Take a positional argument, which is a path. -/
def addPositional (level : Option CommandName) (value : String) (given : Given) :
    Except Refusal Given :=
  if acceptsPositional level given && value != "" then
    .ok { given with positionals := given.positionals ++ [value] }
  else .error .usage

end Given

/-- The text before the first equals sign and the text after it. -/
def splitAtEquals (text : List Char) : List Char × Option (List Char) :=
  let name := text.takeWhile (· != '=')
  (name, (text.drop name.length).tail?)

/-- Take a long option. The option whose value is still to come is returned
with what was given. -/
def addLong (level : Option CommandName) (text : List Char) (given : Given) :
    Except Refusal (Given × Option Parameter) :=
  let (name, value) := splitAtEquals text
  match Parameter.ofLongName? level (String.ofList name), value with
  | none, _ => .error .usage
  | some parameter, some value =>
      if parameter.takesValue then do
        return (← given.addValue parameter (String.ofList value), none)
      else .error .usage
  | some parameter, none =>
      if parameter.takesValue then .ok (given, some parameter)
      else do return (← given.addFlag level parameter, none)

/-- Take a bundle of letters. -/
def addLetters (level : Option CommandName) : List Char → Given →
    Except Refusal (Given × Option Parameter)
  | [], given => .ok (given, none)
  | letter :: rest, given =>
      match Parameter.ofLetter? level letter with
      | none => .error .usage
      | some parameter =>
          if parameter.takesValue then
            match rest with
            | [] => .ok (given, some parameter)
            | '=' :: value => do
                return (← given.addValue parameter (String.ofList value), none)
            | value => do
                return (← given.addValue parameter (String.ofList value), none)
          else do addLetters level rest (← given.addFlag level parameter)

/-- The forms of an argument. -/
inductive Argument where
  /-- From here on there are positional arguments only. -/
  | separator
  | long (text : List Char)
  | letters (text : List Char)
  | plain

/-- A lone hyphen is a plain argument. -/
def Argument.ofString (argument : String) : Argument :=
  match argument.toList with
  | ['-', '-'] => .separator
  | '-' :: '-' :: text => .long text
  | ['-'] => .plain
  | '-' :: text => .letters text
  | _ => .plain

/-- The name under which help is asked for. -/
def helpName : String := "help"

/-- Whether there is help on a topic: on the whole program, on a command or on
help itself. Commands have no topics of their own. -/
def isHelpTopic : List String → Bool
  | [] => true
  | [topic] => topic == helpName || (CommandName.ofText? topic).isSome
  | _ => false

/-- An option that has been named but not yet taken in, because its value
stands in an argument of its own. -/
inductive Pending where
  | named (parameter : Parameter)
  | valued (parameter : Parameter) (value : String)

/-- Take in the option that is pending, if there is one. It needs its value. -/
def Given.settle (given : Given) : Option Pending → Except Refusal Given
  | none => .ok given
  | some (.named _) => .error .usage
  | some (.valued parameter value) => given.addValue parameter value

/-- What was given at a level: when a command follows, the last option before
it may still be pending. -/
structure Taken where
  given : Given
  pending : Option Pending := none
  /-- The command and the arguments that remain for it. -/
  command : Option (CommandName × List String) := none

/-- Take the arguments of a level in turn. Before the command the first plain
argument has to be its name. A pending option is taken in before the next
option or positional argument of its level, or at the end; the arguments of a
command come before that. -/
def takeArguments (level : Option CommandName) :
    List String → Given → Option Pending → Bool → Except Refusal Taken
  | [], given, pending, _ => do return { given := ← given.settle pending }
  | argument :: rest, given, pending, true => do
      let given ← given.settle pending
      takeArguments level rest (← given.addPositional level argument) none true
  | argument :: rest, given, some (.named parameter), false =>
      match Argument.ofString argument with
      | .plain => takeArguments level rest given (some (.valued parameter argument)) false
      | _ => .error .usage
  | argument :: rest, given, pending, false =>
      match Argument.ofString argument with
      | .separator => takeArguments level rest given pending true
      | .long text => do
          let (given, named) ← addLong level text (← given.settle pending)
          takeArguments level rest given (named.map .named) false
      | .letters text => do
          let (given, named) ← addLetters level text (← given.settle pending)
          takeArguments level rest given (named.map .named) false
      | .plain =>
          match level with
          | none =>
              match CommandName.ofText? argument with
              | some name => .ok { given, pending, command := some (name, rest) }
              | none =>
                  .error (if argument == helpName && isHelpTopic rest then .help else .usage)
          | some _ => do
              let given ← given.settle pending
              takeArguments level rest (← given.addPositional level argument) none false

/-- What the environment says about the options of the whole program. -/
structure Environment where
  verbose : Option String := none
  config : Option String := none
  noColor : Option String := none
  directories : Config.Directories := {}

/-- A flag in the environment. -/
def flagOfText? : String → Option Bool
  | "true" => some true
  | "false" => some false
  | _ => none

/-- A command to be carried out. -/
inductive Command where
  | lex (request : LexRequest)
  | check (inputs : List String)
  | init (request : InitRequest)

/-- A command line that is understood. -/
structure Invocation where
  verbose : Bool
  config : Option String
  noColor : Bool
  command : Command

/-- A flag of the whole program. The environment is consulted, and has to be
right, unless the flag was given both before and after the command. -/
def globalFlag (parameter : Parameter) (setting : Option String) (before after : Given) :
    Except Refusal Bool :=
  if before.has parameter && after.has parameter then .ok true
  else
    match setting with
    | none => .ok (before.has parameter || after.has parameter)
    | some text =>
        match flagOfText? text with
        | none => .error .usage
        | some value => .ok (before.has parameter || after.has parameter || value)

/-- The path of the configuration. What stands after the command counts most,
and the environment least. -/
def globalPath (parameter : Parameter) (setting : Option String) (before after : Given) :
    Except Refusal (Option String) :=
  let given := (after.value? parameter).or (before.value? parameter)
  if before.has parameter && after.has parameter then .ok given
  else if setting == some "" then .error .usage
  else .ok (given.or setting)

/-- The command with what was given for it. -/
def commandOf (name : CommandName) (given : Given) : Except Refusal Command :=
  match name, given.positionals with
  | .lex, [input] =>
      .ok (.lex
        { input
          output := given.value? .output
          truncate := given.has .truncate
          summary := given.has .summary
          format := given.value? .format })
  | .lex, _ => .error .usage
  | .check, [] => .error .usage
  | .check, inputs => .ok (.check inputs)
  | .init, _ => .ok (.init { directory := given.value? .path, force := given.has .force })

/-- Understand a command line. -/
def parseCommandLine (environment : Environment) (arguments : List String) :
    Except Refusal Invocation := do
  let taken ← takeArguments none arguments {} none false
  match taken.command with
  | none => .error .usage
  | some (name, rest) =>
      let after := (← takeArguments (some name) rest {} none false).given
      let command ← commandOf name after
      let before ← taken.given.settle taken.pending
      let verbose ← globalFlag .verbose environment.verbose before after
      let config ← globalPath .config environment.config before after
      let noColor ← globalFlag .noColor environment.noColor before after
      return { verbose, config, noColor, command }

end Tokenizer
