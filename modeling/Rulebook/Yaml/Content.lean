/-
  Content — the data that a YAML text stands for.

  * `Tree.content` gives the data of a tree: scalars by their tags, or by their
    forms where they have none; a mapping takes the entries of the mappings that
    are merged into it first, and of equal keys the last value counts;
  * `read` gives the data of a text; a text without a document is null.
-/
import Rulebook.Yaml.Tree
import Rulebook.Yaml.Plain
import Rulebook.Data.Key
import Rulebook.Keyed

namespace Rulebook.Yaml

open Number Text

/-! ## Scalars -/

/-- The mark of an entry whose value is merged into the mapping. -/
def mergeMark : String := "<<"

/-- A word that stands for a value, and for itself only as a key. -/
def valueMark : String := "="

/-- The data of a scalar without a tag and without quotes. -/
def plainContent (s : String) : Except ReadFault Data :=
  let cs := s.toList
  match truthWord? s with
  | some b => .ok (.boolean b)
  | none =>
    if hasNumberForm cs then return .number (← numberValue cs)
    else if hasWholeForm cs then return .integer (← wholeValue cs)
    else if isNullForm s then .ok .null
    else if hasMomentForm cs then momentValue cs
    else if s = mergeMark ∨ s = valueMark then .error .malformed
    else .ok (.text s)

/-- The data of a scalar with a tag. -/
def taggedContent (tag s : String) : Except ReadFault Data :=
  let cs := s.toList
  if tag = coreTag ++ "str" then .ok (.text s)
  else if tag = coreTag ++ "null" then .ok .null
  else if tag = coreTag ++ "bool" then
    match truthOf? (lower s) with
    | some b => .ok (.boolean b)
    | none => .error .malformed
  else if tag = coreTag ++ "int" then
    if (withoutSeparators cs).isEmpty then .error .malformed
    else return .integer (← wholeValue cs)
  else if tag = coreTag ++ "float" then
    if (withoutSeparators cs).isEmpty then .error .malformed
    else return .number (← numberValue cs)
  else if tag = coreTag ++ "timestamp" then momentValue cs
  else .error .malformed

/-! ## Mappings -/

/-- A mapping of entries, one after the other. -/
def mappingOf (entries : List (Data × Data)) : Data :=
  have : BEq Data := ⟨Data.sameKey⟩
  .mapping (putAll [] entries)

/-! ## Trees -/

namespace Tree

/-- The key of an entry to be merged. -/
def isMerge : Tree → Bool
  | scalar none s true => s = mergeMark
  | scalar (some tag) _ _ => tag = coreTag ++ "merge"
  | _ => false

/-- The key that stands for itself although it has a meaning as a value. -/
def isValueKey : Tree → Bool
  | scalar none s true => s = valueMark
  | scalar (some tag) _ _ => tag = coreTag ++ "value"
  | _ => false

/-- The tag of a collection is its own, or there is none. -/
def hasOwnTag (tag : Option String) (own : String) : Bool :=
  tag.all fun t => t = coreTag ++ own

end Tree

/-- The entries of a mapping: those merged into it, and its own. -/
structure Entries where
  merged : List (Data × Data)
  own : List (Data × Data)

/-- All entries, the merged ones first. -/
def Entries.all (e : Entries) : List (Data × Data) := e.merged ++ e.own

mutual

/-- The data of a tree. -/
def Tree.content : Tree → Except ReadFault Data
  | .scalar none s plain => if plain then plainContent s else .ok (.text s)
  | .scalar (some tag) s _ => taggedContent tag s
  | .sequence tag items =>
    if Tree.hasOwnTag tag "seq" then return .list (← contents items)
    else .error .malformed
  | .mapping tag entries =>
    if Tree.hasOwnTag tag "map" then return mappingOf (← entryContents entries).all
    else .error .malformed

/-- The data of trees. -/
def contents : List Tree → Except ReadFault (List Data)
  | [] => .ok []
  | t :: ts => return (← t.content) :: (← contents ts)

/-- The data of the entries of a mapping. -/
def entryContents : List (Tree × Tree) → Except ReadFault Entries
  | [] => .ok ⟨[], []⟩
  | (key, value) :: rest => do
    if key.isMerge then
      let merged ← value.mergedEntries
      let others ← entryContents rest
      return { others with merged := merged ++ others.merged }
    else
      let k ← if key.isValueKey then .ok (.text valueMark) else key.content
      if !k.isKey then throw .malformed
      let v ← value.content
      let others ← entryContents rest
      return { others with own := (k, v) :: others.own }

/-- The entries that merging a mapping, or a sequence of them, brings; of several
    the last one comes first. -/
def Tree.mergedEntries : Tree → Except ReadFault (List (Data × Data))
  | .mapping _ entries => return (← entryContents entries).all
  | .sequence _ items => mergedOfAll items
  | .scalar .. => .error .malformed

/-- The entries that merging several mappings brings. -/
def mergedOfAll : List Tree → Except ReadFault (List (Data × Data))
  | [] => .ok []
  | .mapping _ entries :: rest => do
    let first := (← entryContents entries).all
    return (← mergedOfAll rest) ++ first
  | _ :: _ => .error .malformed

end

/-! ## Texts -/

/-- A text with all its line breaks written in one way. -/
def plainBreaksOf : List Char → List Char
  | '\r' :: '\n' :: rest => '\n' :: plainBreaksOf rest
  | '\r' :: rest => '\n' :: plainBreaksOf rest
  | c :: rest => c :: plainBreaksOf rest
  | [] => []

/-- A character that may stand in a text. -/
def isReadable (c : Char) : Bool :=
  c = '\t' || c = '\n' || (' ' ≤ c && c ≤ '~') || c = '\x85'
    || ('\xA0' ≤ c && c ≠ '\uFFFE' && c ≠ '\uFFFF')

/-- The data that a text stands for. -/
def read (text : String) : Except ReadFault Data :=
  let cs := plainBreaksOf text.toList
  if cs.all isReadable then
    match (tokenize? cs).bind document? with
    | some (some t) => t.content
    | some none => .ok .null
    | none => .error .malformed
  else .error .malformed

end Rulebook.Yaml
