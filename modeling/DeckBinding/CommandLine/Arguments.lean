import DeckBinding.Text.Digit
import DeckBinding.Text.Quoted

set_option autoImplicit false

namespace DeckBinding.CommandLine

open DeckBinding.Text

inductive Flag where
  | help
  | config
  | template
  | data
  | output
  | inspect
  | planOnly
deriving DecidableEq

namespace Flag

def all : List Flag := [.help, .config, .template, .data, .output, .inspect, .planOnly]

def name : Flag → String
  | .help => "--help"
  | .config => "--config"
  | .template => "--template"
  | .data => "--data"
  | .output => "--output"
  | .inspect => "--inspect"
  | .planOnly => "--plan-only"

/-- The name of an option in messages: all its spellings. -/
def label : Flag → String
  | .help => "-h/--help"
  | flag => flag.name

def takesValue : Flag → Bool
  | .config | .template | .data | .output => true
  | _ => false

end Flag

inductive ArgumentError where
  | ambiguous (argument : String)
  | noValue (flag : Flag)
  | unexpectedValue (flag : Flag) (value : String)
  | notAllowedWith (flag other : Flag)
  | unrecognized (arguments : List String)
deriving DecidableEq

def ArgumentError.message : ArgumentError → String
  | .ambiguous argument =>
    s!"ambiguous option: {argument} could match " ++ ", ".intercalate (Flag.all.map Flag.name)
  | .noValue flag => s!"argument {flag.label}: expected one argument"
  | .unexpectedValue flag value =>
    s!"argument {flag.label}: ignored explicit argument {quotedString value}"
  | .notAllowedWith flag other => s!"argument {flag.label}: not allowed with argument {other.label}"
  | .unrecognized arguments => "unrecognized arguments: " ++ " ".intercalate arguments

/-- What an argument is by its form: an option, perhaps with a value behind an equals sign; the
short option of help with more behind it; something that only looks like an option; the mark that
ends the options; or a value. -/
inductive Argument where
  | option (flag : Flag) (value : Option String)
  | shortHelp (behind : List Char)
  | unknown
  | mark
  | value
deriving DecidableEq

def cutAtEquals : List Char → List Char × Option (List Char)
  | [] => ([], none)
  | '=' :: rest => ([], some rest)
  | c :: rest => let (front, behind) := cutAtEquals rest; (c :: front, behind)

/-- Whether a text is a number below zero, with or without a point; a line end can follow it. -/
def isNegativeNumber (cs : List Char) : Bool :=
  let body := if cs.getLast? == some '\n' then cs.dropLast else cs
  match body with
  | '-' :: rest =>
    let behind := rest.dropWhile isDecimalDigit
    match behind with
    | [] => !rest.isEmpty
    | '.' :: fraction => !fraction.isEmpty && fraction.all isDecimalDigit
    | _ => false
  | _ => false

/-- What an argument that looks like an option is, when it names none. -/
def unnamed (cs : List Char) : Argument :=
  if isNegativeNumber cs || cs.contains ' ' then .value else .unknown

/-- Reads an argument in front of the mark that ends the options. -/
def readArgument (text : String) : Except ArgumentError Argument :=
  match text.toList with
  | ['-', '-'] => .ok .mark
  | '-' :: '-' :: _ =>
    let (front, behind) := cutAtEquals text.toList
    let value := behind.map String.ofList
    match Flag.all.find? fun flag => flag.name.toList == front with
    | some flag => .ok (.option flag value)
    | none =>
      match Flag.all.filter fun flag => front.isPrefixOf flag.name.toList with
      | [] => .ok (unnamed text.toList)
      | [flag] => .ok (.option flag value)
      | _ => .error (.ambiguous text)
  | '-' :: 'h' :: behind => .ok (.shortHelp behind)
  | '-' :: c :: rest => .ok (unnamed ('-' :: c :: rest))
  | _ => .ok .value

/-- Reads the arguments by their form. Behind the mark that ends the options all are values. -/
def readArguments : List String → Except ArgumentError (List (String × Argument))
  | [] => .ok []
  | text :: rest => do
    match ← readArgument text with
    | .mark => .ok ((text, .mark) :: rest.map fun text => (text, .value))
    | argument =>
      let others ← readArguments rest
      .ok ((text, argument) :: others)

/-- The value of an option: a text, or nothing where the mark that ends the options stands in its
place. -/
inductive Given where
  | text (value : String)
  | nothing
deriving DecidableEq

namespace Given

def ofText (value : String) : Given :=
  if value == "--" then .nothing else .text value

/-- A value as text; nothing is written as an empty list. -/
def shown : Given → String
  | .text value => value
  | .nothing => "[]"

end Given

/-- What the arguments ask for; a path is none where its option is not given. -/
structure Request where
  config : Given
  template : Option String
  data : Option String
  output : Option String
  inspects : Bool
  plansOnly : Bool

def Request.default : Request where
  config := .text "config.yaml"
  template := none
  data := none
  output := none
  inspects := false
  plansOnly := false

namespace Request

def setValue (request : Request) (flag : Flag) (value : Given) : Request :=
  match flag with
  | .config => { request with config := value }
  | .template => { request with template := some value.shown }
  | .data => { request with data := some value.shown }
  | .output => { request with output := some value.shown }
  | _ => request

/-- Turns on an option without a value. The two that only look exclude each other. -/
def turnOn (request : Request) (flag : Flag) : Except ArgumentError Request :=
  match flag with
  | .inspect =>
    if request.plansOnly then .error (.notAllowedWith .inspect .planOnly)
    else .ok { request with inspects := true }
  | .planOnly =>
    if request.inspects then .error (.notAllowedWith .planOnly .inspect)
    else .ok { request with plansOnly := true }
  | _ => .ok request

end Request

inductive Asked where
  | run (request : Request)
  | help

/-- Whether help is asked for by the value of its short option: each further letter of it is that
option again, and what follows them is refused. -/
def readHelpLetters (value : List Char) : Except ArgumentError Asked :=
  let rest := value.dropWhile (· == 'h')
  if rest.isEmpty && !value.isEmpty then .ok .help
  else .error (.unexpectedValue .help (String.ofList rest))

/-- Whether help is asked for by what stands behind its short option, which an equals sign can set
off. -/
def readShortHelp : List Char → Except ArgumentError Asked
  | [] => .ok .help
  | '=' :: value => readHelpLetters value
  | value => readHelpLetters value

/-- Reads the options in order. `extras` are the arguments that belong to no option. -/
def readOptions (request : Request) (extras : List String) :
    List (String × Argument) → Except ArgumentError Asked
  | [] => if extras.isEmpty then .ok (.run request) else .error (.unrecognized extras)
  | (_, .option flag (some value)) :: rest =>
    if flag.takesValue then readOptions (request.setValue flag (.ofText value)) extras rest
    else .error (.unexpectedValue flag value)
  | (_, .option flag none) :: rest =>
    if flag.takesValue then
      match rest with
      | (value, .value) :: rest => readOptions (request.setValue flag (.text value)) extras rest
      | _ => .error (.noValue flag)
    else if flag = .help then .ok .help
    else
      match request.turnOn flag with
      | .ok request => readOptions request extras rest
      | .error error => .error error
  | (_, .shortHelp behind) :: _ => readShortHelp behind
  | (text, _) :: rest => readOptions request (extras ++ [text]) rest

def readRequest (arguments : List String) : Except ArgumentError Asked := do
  let read ← readArguments arguments
  readOptions .default [] read

end DeckBinding.CommandLine
