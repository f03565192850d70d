/-
  Performing — doing what a command line asks for.

  * `Result` is what a command leaves: what it writes and how it ends;
  * `Request.perform` does what a request asks for, `perform` what a command line
    asks for.

  Whatever is outside — the environment, the files, the day — is given.
-/
import Rulebook.Command.Request
import Rulebook.Context
import Rulebook.Report
import Rulebook.Node.Render
import Rulebook.RuleSet.Firing
import Rulebook.RuleFile.Load
import Rulebook.Text.Style

namespace Rulebook.Command

open Text

/-! ## Results -/

/-- What a command leaves. -/
inductive Result where
  /-- It came to its end. -/
  | finished (exit : Nat) (output errors : String)
  /-- The command line is wrong. -/
  | misused (line : String)
  /-- It broke off. -/
  | broken (errors : String) (breakdown : Breakdown)

/-- What a command is given. -/
structure World where
  environment : String → Option String
  files : String → FileState
  today : Calendar.Date

/-- Lines as they are written: without styles, each with a line break. -/
def lines (texts : List String) : String :=
  String.join (texts.map fun s => withoutStyle s ++ "\n")

/-- A notice is told at a verbosity: warnings always, and the others the more of
    it there is. -/
def isTold (verbosity : Nat) (n : Notice) : Bool :=
  match n.level with
  | .warning => true
  | .info => 1 ≤ verbosity
  | .debug => 2 ≤ verbosity

/-- The notices of a journal that are told, each on a line. -/
def journalText (verbosity : Nat) (j : Journal) : String :=
  String.join ((j.filter (isTold verbosity)).map fun n =>
    n.level.name ++ " " ++ n.origin ++ ": " ++ n.text ++ "\n")

/-- The result of an error in a text. -/
def failed (errors source : String) (e : ExpressionError) : Result :=
  .finished 1 "" (errors ++ lines [e.report (some source)])

/-! ## Texts -/

/-- Runs with the limits of the environment. -/
def withLimits (w : World) (run : Limits → Result) : Result :=
  match Limits.ofEnvironment w.environment with
  | .ok limits => run limits
  | .error f => .broken "" (.stated .badValue f.message)

/-- The value of a text, after what it logs. -/
def evaluateSource (w : World) (verbosity : Nat) (source : String) (mode : Mode)
    (bindings : Bindings) : Result :=
  withLimits w fun limits =>
    let start := (Context.empty (Registry.library w.today) ()).withBindings bindings
    let (answer, c) := start.run limits mode source
    let told := journalText verbosity c.journal
    match answer with
    | .ok v => .finished 0 (lines (c.journal.logged ++ [v.toText])) told
    | .error (.error e) => failed told source e
    | .error (.breakdown b) => .broken told b

/-- A text with all grouping explicit. -/
def renderSource (w : World) (source : String) (mode : Mode) : Result :=
  withLimits w fun limits =>
    match parse mode limits.maxNesting source with
    | .ok x => .finished 0 (lines [x.render]) ""
    | .error e => failed "" source e

/-- A token on a line: its place, its kind and what it carries. -/
def tokenLine (t : Token) : String :=
  s!"{t.line}:{t.column}\t{t.kind.label}\t{t.kind.value.written}"

/-- The tokens of a text. -/
def listTokens (source : String) : Result :=
  match tokenize source with
  | .ok ts => .finished 0 (lines (ts.map tokenLine)) ""
  | .error e => failed "" source e

/-! ## Rule files -/

/-- A fault of a file: its issues, or a breakdown. -/
def issuesOr : FileFault → Except Breakdown (List Issue)
  | .load (.issues all) => .ok all
  | .load (.layout (.order f)) => .error (.stated .badType f.message)
  | .load (.layout f) => .error (.stated .badValue f.message)
  | .load (.limits f) => .error (.stated .badValue f.message)
  | .load (.data f) => .error (.data f)
  | .content f => .error (.stated .badValue f.message)

/-- Runs with the rule set of a file and with what is told of it; `refused` is
    the result of its issues. -/
def withRules (w : World) (verbosity : Nat) (path : String) (refused : List String → Result)
    (run : RuleSet → String → Result) : Result :=
  let source : RuleFile.Source := match w.files path with
    | .text s => .text s
    | _ => .missing
  let functions : Registry Unit := Registry.library w.today
  match RuleFile.load path functions.has source with
  | .ok s => run s (journalText verbosity [.loaded s.rules.length (RuleFile.normalPath path)])
  | .error f => match issuesOr f with
    | .ok issues => refused (issues.map Issue.text)
    | .error b => .broken "" b

/-- A rule on a line. -/
def ruleLine (r : Rule) : String :=
  s!"  ✓ {r.name} (priority {r.priority.text}, {r.actions.length} action(s))"

/-- Whether a rule file is in order, and its rules. -/
def validateFile (w : World) (verbosity : Nat) (path : String) : Result :=
  withRules w verbosity path
    (fun issues => .finished 1 (lines (issues ++ [s!"\n{issues.length} error(s) found"])) "")
    (fun s told => .finished 0
      (lines ([s!"Loaded {s.rules.length} rule(s):"] ++ s.rules.map ruleLine
        ++ ["\nRule file is valid."])) told)

/-- What became of a rule, on a line. -/
def outcomeLine (o : Outcome) : String :=
  let assigned := String.intercalate ", " (o.assigned.map fun a => a.1 ++ "=" ++ a.2.toText)
  match o.error with
  | some e => s!"  ✗ {o.rule.name}: {e.text}"
  | none =>
    if !o.matched then s!"  · {o.rule.name}"
    else if assigned.isEmpty then s!"  ✓ {o.rule.name}"
    else s!"  ✓ {o.rule.name}: {assigned}"

/-- What becomes of the rules of a file. -/
def fireFile (w : World) (verbosity : Nat) (path : String) (bindings : Bindings)
    (stopOnFirst : Bool) : Result :=
  withRules w verbosity path (fun issues => .finished 1 "" (lines issues)) fun s told =>
    let start := (Context.empty (Registry.library w.today) ()).withBindings
      (s.defaults.setAll bindings)
    let (answer, c) := s.fire stopOnFirst start
    let told := told ++ journalText verbosity c.journal
    match answer with
    | .error b => .broken told b
    | .ok outcomes =>
      let matched := outcomes.countP (·.matched)
      let count := s!"\n{matched} of {s.rules.length} rule(s) matched."
      let exit := if outcomes.any (·.error.isSome) then 1 else 0
      .finished exit (lines (outcomes.map outcomeLine ++ [count])) told

/-! ## Commands -/

/-- Does what a request asks for. -/
def Request.perform (w : World) (verbosity : Nat) : Request → Result
  | evaluate source mode bindings => evaluateSource w verbosity source mode bindings
  | render source mode => renderSource w source mode
  | tokens source => listTokens source
  | validate path => validateFile w verbosity path
  | fire path bindings stopOnFirst => fireFile w verbosity path bindings stopOnFirst

/-- Does what a command line asks for. -/
def perform (w : World) (words : List String) : Result :=
  match Draft.read words with
  | .error (.usage f) => .misused f.line
  | .error (.help topic) => .finished 0 (lines topic.helpLines) ""
  | .error (.breakdown b) => .broken "" b
  | .ok d => match d.settle w.files with
    | .ok request => request.perform w d.verbosity
    | .error f => .misused f.line

end Rulebook.Command
