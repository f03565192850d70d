/-
  Searching text — prefixes, substrings, replacement and joining, on lists of
  characters.

  * `findFrom` gives the offset of the first occurrence;
  * `replaceAll` replaces the occurrences from left to right, each after the
    end of the one before; an empty needle is found before every character and
    at the end.
-/

namespace Rulebook.Text

/-- The offset of the first occurrence of `needle`, counted on from `offset`. -/
def findFrom (needle : List Char) (offset : Nat) : List Char → Option Nat
  | [] => if needle.isEmpty then some offset else none
  | c :: rest =>
    if needle.isPrefixOf (c :: rest) then some offset else findFrom needle (offset + 1) rest

/-- The offset of the first occurrence of a text in another. -/
def find? (haystack needle : String) : Option Nat := findFrom needle.toList 0 haystack.toList

/-- A text occurs in another. -/
def occursIn (needle haystack : String) : Bool := (find? haystack needle).isSome

/-- A text begins with another. -/
def startsWith (s start : String) : Bool := start.toList.isPrefixOf s.toList

/-- A text ends with another. -/
def endsWith (s ending : String) : Bool := ending.toList.isSuffixOf s.toList

/-- Replaces every occurrence of a needle that is not empty; `skip` characters
    belong to an occurrence already replaced. -/
def replaceFrom (needle new : List Char) : Nat → List Char → List Char
  | _, [] => []
  | skip + 1, _ :: rest => replaceFrom needle new skip rest
  | 0, c :: rest =>
    if needle.isPrefixOf (c :: rest) then new ++ replaceFrom needle new (needle.length - 1) rest
    else c :: replaceFrom needle new 0 rest

/-- Replaces every occurrence of `old` by `new`. -/
def replaceAll (s old new : String) : String :=
  String.ofList <|
    if old.isEmpty then new.toList ++ s.toList.flatMap (fun c => c :: new.toList)
    else replaceFrom old.toList new.toList 0 s.toList

/-- The pieces of a text between occurrences of a character. -/
def splitOn (separator : Char) : List Char → List (List Char)
  | [] => [[]]
  | c :: rest =>
    if c = separator then [] :: splitOn separator rest
    else match splitOn separator rest with
      | piece :: pieces => (c :: piece) :: pieces
      | [] => [[c]]

end Rulebook.Text
