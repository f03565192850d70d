/-
  Options — the words of a command line that begin with a dash.

  * `Flag` lists the options, `Flag.names` how each is spelled;
  * `readOptions` sorts the words of a command into its options and the rest;
  * `UsageFault` is what can be wrong with a command line.
-/
import Rulebook.Text.Similarity
import Rulebook.Text.Quoted

namespace Rulebook.Command

open Text

/-! ## Faults -/

/-- What is wrong with a command line. -/
inductive UsageFault where
  | unknownOption (name : String) (similar : List String)
  | needsValue (option : String)
  | takesNoValue (option : String)
  | unknownCommand (name : String)
  | missingCommand
  /-- There is nothing on the command line; what could be is listed, the last
      line of which is given. -/
  | nothingGiven (lastLine : String)
  | missingArgument (name : String)
  | extraArguments (words : List String)
  | notBinding (word : String)
  | noSuchFile (path : String)
  | isDirectory (path : String)
  deriving DecidableEq

/-- What is said of the value of a parameter. -/
def invalidValue (parameter message : String) : String :=
  s!"Invalid value for '{parameter}': {message}"

/-- What a fault says. -/
def UsageFault.message : UsageFault → String
  | unknownOption name similar =>
    let told := s!"No such option: {name}"
    match similar with
    | [] => told
    | [one] => told ++ s!" Did you mean {one}?"
    | several => told ++ " (Possible options: " ++ String.intercalate ", " several ++ ")"
  | needsValue option => s!"Option {quoted option} requires an argument."
  | takesNoValue option => s!"Option {quoted option} does not take a value."
  | unknownCommand name => s!"No such command {quoted name}."
  | missingCommand => "Missing command."
  | nothingGiven lastLine => lastLine
  | missingArgument name => s!"Missing argument '{name}'."
  | extraArguments words =>
    let noun := if words.length = 1 then "argument" else "arguments"
    s!"Got unexpected extra {noun} (" ++ String.intercalate " " words ++ ")"
  | notBinding word => invalidValue "--var" s!"expected NAME=VALUE, got '{word}'"
  | noSuchFile path => invalidValue "PATH" s!"File {quoted path} does not exist."
  | isDirectory path => invalidValue "PATH" s!"File {quoted path} is a directory."

/-- A fault as it is told: the last line of it. -/
def UsageFault.line (f : UsageFault) : String :=
  let whole := match f with
    | nothingGiven lastLine => lastLine
    | f => "Error: " ++ f.message
  ((whole.splitOn "\n").getLast?).getD whole

/-! ## Options -/

/-- The options. -/
inductive Flag where
  | verbose
  | help
  /-- Binds a variable. -/
  | binding
  | script
  | expression
  /-- Stops at the first rule that matches. -/
  | first
  deriving DecidableEq

namespace Flag

/-- How an option is spelled in full. -/
def name : Flag → String
  | verbose => "--verbose"
  | help => "--help"
  | binding => "--var"
  | script => "--script"
  | expression => "--expression"
  | first => "--first"

/-- The letter of an option that has one. -/
def letter? : Flag → Option Char
  | verbose => some 'v'
  | _ => none

/-- An option that is followed by a value. -/
def takesValue : Flag → Bool
  | binding => true
  | _ => false

end Flag

/-- The words of a command. -/
structure Given where
  /-- The options in order, each with its value, if it takes one. -/
  options : List (Flag × String)
  /-- The other words. -/
  words : List String

namespace Given

/-- An option was given. -/
def has (g : Given) (f : Flag) : Bool := g.options.any (·.1 = f)

/-- How often an option was given. -/
def count (g : Given) (f : Flag) : Nat := g.options.countP (·.1 = f)

/-- The values of an option, in order. -/
def values (g : Given) (f : Flag) : List String :=
  (g.options.filter (·.1 = f)).map (·.2)

/-- With more options before the others. -/
def adding (g : Given) (options : List (Flag × String)) : Given :=
  { g with options := options ++ g.options }

end Given

/-- A word that is read as an option. -/
def isOption (word : String) : Bool := word.startsWith "-" && 1 < word.length

/-- What a word says as an option: options without a value, or one whose value
    is still to come. -/
inductive OptionWord where
  | complete (options : List (Flag × String))
  | awaiting (f : Flag)

/-- The options of letters after a dash. -/
def letterOptions (known : List Flag) : List Char → Except UsageFault (List (Flag × String))
  | [] => .ok []
  | c :: rest =>
    match known.find? (·.letter? = some c) with
    | some f => return (f, "") :: (← letterOptions known rest)
    | none => .error (.unknownOption (String.ofList ['-', c]) [])

/-- Reads a word that is an option. -/
def readOption (known : List Flag) (word : String) : Except UsageFault OptionWord :=
  let name := String.ofList (word.toList.takeWhile (· ≠ '='))
  let given := word.toList.dropWhile (· ≠ '=')
  match known.find? (·.name = name), given with
  | some f, [] => if f.takesValue then .ok (.awaiting f) else .ok (.complete [(f, "")])
  | some f, _ :: value =>
    if f.takesValue then .ok (.complete [(f, String.ofList value)])
    else .error (.takesNoValue name)
  | none, _ =>
    if word.startsWith "--" then
      let similar := (known.map Flag.name).filter fun n => areSimilar n name
      .error (.unknownOption name (similar.mergeSort fun a b => a ≤ b))
    else return .complete (← letterOptions known (word.toList.drop 1))

/-- Sorts words into options and others; an option may await its value. Options
    may stand after other words only where words may be mixed. -/
def sortWords (known : List Flag) (mixed : Bool) :
    Option Flag → List String → Except UsageFault Given
  | none, [] => .ok ⟨[], []⟩
  | some f, [] => .error (.needsValue f.name)
  | some f, word :: rest => return (← sortWords known mixed none rest).adding [(f, word)]
  | none, word :: rest =>
    if word = "--" then .ok ⟨[], rest⟩
    else if isOption word then do
      match ← readOption known word with
      | .complete options => return (← sortWords known mixed none rest).adding options
      | .awaiting f => sortWords known mixed (some f) rest
    else if mixed then do
      let others ← sortWords known mixed none rest
      return { others with words := word :: others.words }
    else .ok ⟨[], word :: rest⟩

/-- Sorts the words of a command into options and others. -/
def readOptions (known : List Flag) (mixed : Bool) (words : List String) :
    Except UsageFault Given :=
  sortWords known mixed none words

end Rulebook.Command
