/-
  Loading — from the content of a rule file to its rule set.

  * `RuleFile.Source` is what is known of a file: that it is not there, its text,
    or its document;
  * `RuleFile.load` gives its rule set, or all that is wrong with it.
-/
import Rulebook.RuleFile.Compile
import Rulebook.Yaml.Content

namespace Rulebook

/-- Why a file makes no rule set. -/
inductive FileFault where
  | load (fault : LoadFault)
  /-- Its text holds a scalar that has no value. -/
  | content (fault : Yaml.ReadFault)
  deriving DecidableEq

namespace RuleFile

/-- What is known of a file. -/
inductive Source where
  | missing
  | text (s : String)
  | document (d : Data)

/-- The fault that is a single issue of a file as a whole. -/
def wholeIssue (file message : String) : FileFault := .load (.issues [⟨file, message, ""⟩])

/-- The document of a file; an empty one has none. -/
def Source.document? (file : String) : Source → Except FileFault Data
  | missing =>
    .error (wholeIssue file
      ("Cannot read file: [Errno 2] No such file or directory: " ++ Text.quoted file))
  | document d => nonempty d
  | text s =>
    match Yaml.read s with
    | .ok d => nonempty d
    | .error .malformed => .error (wholeIssue file Yaml.ReadFault.malformed.message)
    | .error f => .error (.content f)
where
  /-- A document that is not null. -/
  nonempty : Data → Except FileFault Data
    | .null => .error (wholeIssue file "File is empty or contains only whitespace")
    | d => .ok d

/-- The rule set of a file; `known` are the functions that its rules may call. -/
def load (file : String) (known : String → Bool) (source : Source) :
    Except FileFault RuleSet := do
  let file := normalPath file
  (ofDocument file known (← source.document? file)).mapError .load

end RuleFile

end Rulebook
