/-
  Requests — what a command line asks for.

  * `Request` lists what can be asked for;
  * `Draft.read` reads a command line as far as that goes without looking at
    files, `Draft.settle` does the rest.
-/
import Rulebook.Command.Help
import Rulebook.Value.Argument
import Rulebook.Bindings
import Rulebook.Node.Parse

namespace Rulebook.Command

open Text

/-- What can be asked for. -/
inductive Request where
  /-- The value of a text. -/
  | evaluate (source : String) (mode : Mode) (bindings : Bindings)
  /-- A text with all grouping explicit. -/
  | render (source : String) (mode : Mode)
  /-- The tokens of a text. -/
  | tokens (source : String)
  /-- Whether a rule file is in order. -/
  | validate (path : String)
  /-- What becomes of the rules of a file. -/
  | fire (path : String) (bindings : Bindings) (stopOnFirst : Bool)

/-- The file that a request is about. -/
def Request.path? : Request → Option String
  | validate path | fire path .. => some path
  | _ => none

/-- Why a command line asks for nothing that can be done. -/
inductive CommandFault where
  | usage (fault : UsageFault)
  /-- It asks for help. -/
  | help (topic : Topic)
  /-- A value cannot be read. -/
  | breakdown (b : Breakdown)

/-- A request with what is not yet known to be in order. -/
structure Draft where
  /-- How much is to be told. -/
  verbosity : Nat
  request : Request
  /-- Words that nothing asks for. -/
  extra : List String

/-- What is known of a file. -/
inductive FileState where
  | missing
  | directory
  | text (s : String)

/-! ## Parameters -/

/-- Reads a variable with its value. -/
def readBinding (b : Bindings) (word : String) : Except CommandFault Bindings := do
  let name := trim (String.ofList (word.toList.takeWhile (· ≠ '=')))
  match word.toList.dropWhile (· ≠ '=') with
  | [] => throw (.usage (.notBinding word))
  | _ :: raw =>
    if name.isEmpty then throw (.usage (.notBinding word))
    return b.set name (← (Value.ofArgument (String.ofList raw)).mapError .breakdown)

/-- The variables that options bind. -/
def bindingsOf (g : Given) : Except CommandFault Bindings :=
  (g.values .binding).foldlM readBinding []

/-- How a text is read: the last option tells. -/
def modeOf (g : Given) : Mode :=
  match (g.options.filter fun o => o.1 = .script || o.1 = .expression).getLast? with
  | some (.expression, _) => .expression
  | _ => .script

/-- Sorts the words after the name of a command or a group, unless they ask for
    help. -/
def given (t : Topic) (mixed : Bool) (words : List String) : Except CommandFault Given := do
  let g ← (readOptions t.flags mixed words).mapError .usage
  if g.has .help then throw (.help t) else return g

/-! ## Commands -/

/-- The only argument of a command, and the words after it. -/
def argument (t : Topic) (g : Given) : Except CommandFault (String × List String) :=
  match g.words with
  | [] => .error (.usage (.missingArgument t.operand))
  | word :: rest => .ok (word, rest)

/-- Reads the words after the name of a group: its options, then the name of a
    command, which must be there. -/
def readGroup (t : Topic) (words : List String) :
    Except CommandFault (Given × String × List String) := do
  if words.isEmpty then throw (.usage (.nothingGiven (t.helpLines.getLastD "")))
  let g ← given t false words
  match g.words with
  | [] => throw (.usage .missingCommand)
  | name :: rest => return (g, name, rest)

/-- The command of a group that has a name; what begins with a dash and names
    none is read as an option. -/
def commandNamed (t : Topic) (name : String) : Except CommandFault Topic :=
  match t.commands.find? (·.name = name) with
  | some c => .ok c
  | none => match readOptions t.flags false [name] with
    | .error f => .error (.usage f)
    | .ok _ => .error (.usage (.unknownCommand name))

/-- Reads the words after the name of a command: what it asks for, and the words
    left over. -/
def readArguments (t : Topic) (words : List String) :
    Except CommandFault (Request × List String) := do
  let g ← given t true words
  let bindings ← bindingsOf g
  let (word, extra) ← argument t g
  let request : Request := match t with
    | .render => .render word (modeOf g)
    | .tokens => .tokens word
    | .validate => .validate word
    | .fire => .fire word bindings (g.has .first)
    | _ => .evaluate word (modeOf g) bindings
  return (request, extra)

namespace Draft

/-- Reads a command line. -/
def read (words : List String) : Except CommandFault Draft := do
  let (g, name, rest) ← readGroup .program words
  let topic ← commandNamed .program name
  let (topic, rest) ← match topic with
    | .rules => do
      let (_, name, rest) ← readGroup .rules rest
      pure (← commandNamed .rules name, rest)
    | topic => pure (topic, rest)
  let (request, extra) ← readArguments topic rest
  return ⟨g.count .verbose, request, extra⟩

/-- What a command line asks for, given the states of files: the file must be
    there, and no word may be left over. -/
def settle (d : Draft) (files : String → FileState) : Except UsageFault Request := do
  match d.request.path? with
  | none => pure ()
  | some path => match files path with
    | .missing => throw (.noSuchFile path)
    | .directory => throw (.isDirectory path)
    | .text _ => pure ()
  if d.extra.isEmpty then return d.request else throw (.extraArguments d.extra)

end Draft

end Rulebook.Command
