/-
  Help — what the program can do and how it is asked.

  * `Topic` lists the commands and the groups of commands, with the options that
    each takes;
  * `Topic.helpLines` is the page of a topic: how it is called, what it is for,
    its options, and the commands of a group.
-/
import Rulebook.Command.Options

namespace Rulebook.Command

/-! ## Pages -/

/-- A row of a page: a term and the lines that explain it. -/
structure HelpRow where
  term : String
  explanation : List String

/-- A text after some blanks. -/
def indented (width : Nat) (s : String) : String := String.ofList (List.replicate width ' ') ++ s

/-- The rows as a table: the explanations begin in one column. -/
def tableLines (rows : List HelpRow) : List String :=
  let column := (rows.map (·.term.length)).foldl max 0 + 4
  rows.flatMap fun e => match e.explanation with
    | [] => [indented 2 e.term]
    | l :: more =>
      (indented 2 e.term ++ indented (column - 2 - e.term.length) l) :: more.map (indented column)

/-- The longest beginning of some words that has room, blanks and all. -/
def fittingWords : Nat → List String → List String
  | _, [] => []
  | room, w :: rest => if w.length ≤ room then w :: fittingWords (room - w.length - 1) rest else []

/-- A text that has room, or a beginning of it that ends in dots. -/
def shortened (room : Nat) (s : String) : String :=
  if s.length ≤ room then s
  else String.intercalate " " (fittingWords (room - 3) (s.splitOn " ")) ++ "..."

/-! ## Options -/

/-- The row of an option; the choice between the two ways to read a text has
    one. -/
def Flag.helpRow? : Flag → Option HelpRow
  | verbose => some ⟨"-v, --verbose", ["Increase log verbosity (-v info, -vv debug)."]⟩
  | help => some ⟨"--help", ["Show this message and exit."]⟩
  | binding => some ⟨"--var NAME=VALUE", ["Bind a variable (repeatable)."]⟩
  | script => some ⟨"--script / --expression",
      ["Parse statements (default) or a single expression,", "where '=' compares."]⟩
  | expression => none
  | first => some ⟨"--first", ["Stop after the first matching rule."]⟩

/-! ## Topics -/

/-- The commands and the groups of commands. -/
inductive Topic where
  | program
  | evaluate
  | render
  | tokens
  /-- The group of the commands on rule files. -/
  | rules
  | validate
  | fire
  deriving DecidableEq

namespace Topic

/-- The words by which a topic is called. -/
def words : Topic → List String
  | program => ["cli"]
  | evaluate => ["cli", "eval"]
  | render => ["cli", "parse"]
  | tokens => ["cli", "tokens"]
  | rules => ["cli", "rules"]
  | validate => ["cli", "rules", "validate"]
  | fire => ["cli", "rules", "run"]

/-- The name of a topic: the last of its words. -/
def name (t : Topic) : String := t.words.getLastD ""

/-- The options that a topic takes. -/
def flags : Topic → List Flag
  | program => [.verbose, .help]
  | evaluate => [.binding, .script, .expression, .help]
  | render => [.script, .expression, .help]
  | fire => [.binding, .first, .help]
  | tokens | rules | validate => [.help]

/-- The commands of a group. -/
def commands : Topic → List Topic
  | program => [evaluate, render, rules, tokens]
  | rules => [fire, validate]
  | _ => []

/-- What must follow the options of a topic. -/
def operand : Topic → String
  | program | rules => "COMMAND [ARGS]..."
  | evaluate | render | tokens => "SOURCE"
  | validate | fire => "PATH"

/-- What a topic is for. -/
def purpose : Topic → String
  | program => "RuleForge expression and rule language tools."
  | evaluate => "Evaluate SOURCE and print the result."
  | render => "Parse SOURCE and print it back fully parenthesized."
  | tokens => "Print the tokens of SOURCE, one per line."
  | rules => "Rule file commands."
  | validate => "Validate a YAML rule file: shape, expressions and function names."
  | fire => "Fire the rules in PATH against the given variables."

/-- How wide a page is. -/
def pageWidth : Nat := 78

/-- The rows of the commands of a group, each on one line. -/
def commandRows (t : Topic) : List HelpRow :=
  let longest := (t.commands.map (·.name.length)).foldl max 0
  t.commands.map fun c => ⟨c.name, [shortened (pageWidth - 6 - longest) c.purpose]⟩

/-- The page of a topic. -/
def helpLines (t : Topic) : List String :=
  let call := String.intercalate " " (["Usage:"] ++ t.words ++ ["[OPTIONS]", t.operand])
  let options := ["", "Options:"] ++ tableLines (t.flags.filterMap (·.helpRow?))
  let commands := match t.commandRows with
    | [] => []
    | rows => ["", "Commands:"] ++ tableLines rows
  [call, "", indented 2 t.purpose] ++ options ++ commands

end Topic

end Rulebook.Command
