/-
  Trees — the structure of a YAML document: scalars, sequences and mappings, each
  with its tag, aliases replaced by what they stand for.

  * `Composer` is what is known while tokens are read;
  * `node` reads a node, `document?` the only document of a text.

  The grammar recurs by way of its collections; every function is given a number
  that bounds how deep it may still go, and a text has fewer levels than tokens.
-/
import Rulebook.Yaml.Token

namespace Rulebook.Yaml

/-- The structure of a document. A tag that is not given follows from what a node
    looks like. -/
inductive Tree where
  | scalar (tag : Option String) (text : String) (plain : Bool)
  | sequence (tag : Option String) (items : List Tree)
  | mapping (tag : Option String) (entries : List (Tree × Tree))

namespace Tree

/-- A node that is left out. -/
def absent : Tree := scalar none "" true

end Tree

/-- The beginning of the tags of YAML's own kinds. -/
def coreTag : String := "tag:yaml.org,2002:"

/-- The handles that need no definition. -/
def standardHandles : List (String × String) := [("!", "!"), ("!!", coreTag)]

/-- What is known while tokens are read. -/
structure Composer where
  tokens : List Token
  handles : List (String × String)
  /-- The anchors that have been set. -/
  anchors : List String
  /-- The nodes of anchors, once they have been read. -/
  nodes : List (String × Tree)

/-- A step of reading tokens. -/
abbrev Composing (α : Type) := StateT Composer Option α

namespace Composing

/-- The next token. -/
def next? : Composing (Option Token) := return (← get).tokens.head?

/-- The next token is one of these, or there is none. -/
def atEndOr (ts : List Token) : Composing Bool := return (← next?).all ts.contains

/-- The next token is this one. -/
def nextIs (t : Token) : Composing Bool := return (← next?) = some t

/-- Goes past a token. -/
def skip : Composing Unit := modify fun c => { c with tokens := c.tokens.tail }

/-- Goes past a token that must be there. -/
def require (t : Token) : Composing Unit := do
  if ← nextIs t then skip else failure

/-! ## Tags and anchors -/

/-- A tag in full; the tag `!` is none. -/
def fullTag (handle : Option String) (suffix : String) : Composing String := do
  match handle with
  | none => return suffix
  | some h => return (← (← get).handles.lookup h) ++ suffix

/-- A tag, if there is one. -/
def tag? : Composing (Option String) := do
  match ← next? with
  | some (.tag handle suffix) =>
    skip
    return some (← fullTag handle suffix)
  | _ => return none

/-- An anchor, if there is one. -/
def anchor? : Composing (Option String) := do
  match ← next? with
  | some (.anchor name) =>
    skip
    return some name
  | _ => return none

/-- An anchor and a tag, in either order. -/
def properties : Composing (Option String × Option String) := do
  match ← anchor? with
  | some name => return (some name, ← tag?)
  | none =>
    let tag ← tag?
    return (← anchor?, tag)

/-- Sets an anchor, for the first time. -/
def reserve : Option String → Composing Unit
  | none => return
  | some name => do
    if (← get).anchors.contains name then failure
    modify fun c => { c with anchors := name :: c.anchors }

/-- Notes the node of an anchor. -/
def define (anchor : Option String) (t : Tree) : Composing Unit :=
  match anchor with
  | none => return
  | some name => modify fun c => { c with nodes := (name, t) :: c.nodes }

/-- The node of an alias. -/
def resolve (name : String) : Composing Tree := do
  match (← get).nodes.lookup name with
  | some t => return t
  | none => failure

end Composing

open Composing

/-! ## Nodes -/

mutual

/-- A node; `block` allows indented collections, and `flush` a sequence that is
    not indented. -/
def node (block flush : Bool) : Nat → Composing Tree
  | 0 => failure
  | n + 1 => do
    match ← next? with
    | some (.alias name) =>
      skip
      resolve name
    | _ =>
      let (anchor, tag) ← properties
      reserve anchor
      let given := anchor.isSome || tag.isSome
      let t ← content block flush given (if tag = some "!" then none else tag)
        (tag = some "!") n
      define anchor t
      return t

/-- What follows the tag and the anchor of a node; where there is one, the rest
    may be left out. A scalar that is `bare` counts as one without quotes. -/
def content (block flush given : Bool) (tag : Option String) (bare : Bool) :
    Nat → Composing Tree
  | 0 => failure
  | n + 1 => do
    match ← next?, block, flush with
    | some .blockEntry, _, true => return .sequence tag (← flushItems n)
    | some (.scalar text plain), _, _ =>
      skip
      return .scalar tag text (plain || bare)
    | some .flowSequenceStart, _, _ =>
      skip
      return .sequence tag (← flowItems true n)
    | some .flowMappingStart, _, _ =>
      skip
      return .mapping tag (← flowEntries true n)
    | some .blockSequenceStart, true, _ =>
      skip
      return .sequence tag (← blockItems n)
    | some .blockMappingStart, true, _ =>
      skip
      return .mapping tag (← blockEntries n)
    | _, _, _ => if given then return .scalar tag "" true else failure

/-- A node, unless one of these tokens follows. -/
def nodeBefore (stops : List Token) (block flush : Bool) : Nat → Composing Tree
  | 0 => failure
  | n + 1 => do
    if ← atEndOr stops then return .absent else node block flush n

/-- The items of an indented sequence. -/
def blockItems : Nat → Composing (List Tree)
  | 0 => failure
  | n + 1 => do
    if ← nextIs .blockEntry then
      skip
      let item ← nodeBefore [.blockEntry, .blockEnd] true false n
      return item :: (← blockItems n)
    else
      require .blockEnd
      return []

/-- The items of a sequence that is not indented. -/
def flushItems : Nat → Composing (List Tree)
  | 0 => failure
  | n + 1 => do
    if ← nextIs .blockEntry then
      skip
      let item ← nodeBefore [.blockEntry, .key, .value, .blockEnd] true false n
      return item :: (← flushItems n)
    else return []

/-- The value of a key, where there is one. -/
def valueBefore (stops : List Token) (block : Bool) : Nat → Composing Tree
  | 0 => failure
  | n + 1 => do
    if ← nextIs .value then
      skip
      nodeBefore stops block block n
    else return .absent

/-- The entries of an indented mapping. -/
def blockEntries : Nat → Composing (List (Tree × Tree))
  | 0 => failure
  | n + 1 => do
    if ← nextIs .key then
      skip
      let key ← nodeBefore [.key, .value, .blockEnd] true true n
      let value ← valueBefore [.key, .value, .blockEnd] true n
      return (key, value) :: (← blockEntries n)
    else
      require .blockEnd
      return []

/-- The items of a sequence in brackets; a key among them makes an item a
    mapping. -/
def flowItems (first : Bool) : Nat → Composing (List Tree)
  | 0 => failure
  | n + 1 => do
    if ← nextIs .flowSequenceEnd then
      skip
      return []
    if !first then require .flowEntry
    match ← next? with
    | some .flowSequenceEnd =>
      skip
      return []
    | some .key =>
      skip
      let key ← nodeBefore [.value, .flowEntry, .flowSequenceEnd] false false n
      let value ← valueBefore [.flowEntry, .flowSequenceEnd] false n
      return .mapping none [(key, value)] :: (← flowItems false n)
    | _ =>
      let item ← node false false n
      return item :: (← flowItems false n)

/-- The entries of a mapping in braces; an item without a key is a key without a
    value. -/
def flowEntries (first : Bool) : Nat → Composing (List (Tree × Tree))
  | 0 => failure
  | n + 1 => do
    if ← nextIs .flowMappingEnd then
      skip
      return []
    if !first then require .flowEntry
    match ← next? with
    | some .flowMappingEnd =>
      skip
      return []
    | some .key =>
      skip
      let key ← nodeBefore [.value, .flowEntry, .flowMappingEnd] false false n
      let value ← valueBefore [.flowEntry, .flowMappingEnd] false n
      return (key, value) :: (← flowEntries false n)
    | _ =>
      let key ← node false false n
      return (key, .absent) :: (← flowEntries false n)

end

/-! ## Documents -/

/-- The directives before a document; `versioned` tells that the version was
    given. -/
def directives (versioned : Bool) : Nat → Composing Unit
  | 0 => failure
  | n + 1 => do
    match ← next? with
    | some (.version major) =>
      if versioned || major ≠ 1 then failure
      skip
      directives true n
    | some (.handle name start) =>
      if ((← get).handles.lookup name).isSome then failure
      modify fun c => { c with handles := (name, start) :: c.handles }
      skip
      directives versioned n
    | some .otherDirective =>
      skip
      directives versioned n
    | _ =>
      modify fun c => { c with handles := c.handles ++ standardHandles }
      require .documentStart

/-- A document, with or without a mark before it. -/
def document (room : Nat) : Composing Tree := do
  match ← next? with
  | some (.version _) | some (.handle ..) | some .otherDirective | some .documentStart =>
    directives false room
    match ← next? with
    | none | some (.version _) | some (.handle ..) | some .otherDirective
    | some .documentStart | some .documentEnd => return .absent
    | _ => node true false room
  | _ =>
    modify fun c => { c with handles := standardHandles }
    node true false room

/-- The document that tokens hold, and no other; none where there are no tokens. -/
def document? (ts : List Token) : Option (Option Tree) :=
  if ts.isEmpty then some none
  else do
    let (t, c) ← (document (6 * ts.length + 6)).run ⟨ts, [], [], []⟩
    if c.tokens.all (· = .documentEnd) then return some t else none

end Rulebook.Yaml
