/-
  Functions on texts. Null arguments read as the empty text.

  * `substring` counts characters from one and includes both ends; negative
    positions count from the end;
  * `formatted` fills a template: `formatPieces` takes it apart, and each
    conversion takes the next argument.
-/
import Rulebook.Library.Arguments
import Rulebook.Number.Integer
import Rulebook.Text.LetterCase
import Rulebook.Text.Blank
import Rulebook.Text.Digit
import Rulebook.Text.Search

namespace Rulebook.Library

open Number Text

/-- The text forms of the arguments that are not null, one after the other. -/
def concatenated (args : List Value) : String :=
  String.join ((args.filter (!·.isNull)).map Value.toText)

/-! ## Parts of a text -/

/-- The first character of a part, counted from one. -/
def firstPosition (length i : Int) : Int :=
  if i < 0 then Max.max (length + i + 1) 1 else if i = 0 then 1 else i

/-- The last character of a part, counted from one. -/
def lastPosition (length j : Int) : Int :=
  if j < 0 then length + j + 1 else Min.min j length

/-- The part of a text from one position to another. -/
def substring (s : String) (start : Int) (stop : Option Int) : String :=
  let cs := s.toList
  let length : Int := cs.length
  let i := firstPosition length start
  let j := lastPosition length (stop.getD length)
  String.ofList ((cs.take j.toNat).drop (i - 1).toNat)

/-- The part of a text that arguments ask for. -/
def substr (v start stop : Value) : Answer := do
  let i ← wholeOf "substr" start
  let j ← if stop.isNull then pure none else some <$> wholeOf "substr" stop
  return .text (substring (textOf v) i j)

/-! ## Repetition -/

/-- The largest count that an index can hold. -/
def largestIndex : Nat := (1 <<< 63) - 1

/-- The most repetitions that are built. The language has no such bound: it stands for the
    memory of the host. References to more parts alone would fill half a terabyte, so a
    text of more fails for want of memory; below the bound memory is taken to be enough. -/
def mostRepetitions : Nat := 1 <<< 36

/-- A text repeated, with another between each two. -/
def repeated (s separator : String) (count : Nat) : String :=
  String.intercalate separator (List.replicate count s)

/-- A text repeated as arguments ask for. -/
def rep (v count separator : Value) : Answer := do
  let n ← wholeOf "rep" count
  if n ≤ 0 then return .text ""
  if largestIndex < n then
    throw (.breakdown (.stated .overflow "cannot fit 'int' into an index-sized integer"))
  if mostRepetitions < n then throw (.breakdown (.stated .memory ""))
  return .text (repeated (textOf v) (textOf separator) n.toNat)

/-! ## Templates -/

/-- How a conversion shows its argument. -/
inductive Conversion where
  | text
  | whole
  /-- With a number of digits after the point. -/
  | fixed (precision : Option (List Char))
  deriving DecidableEq, Repr

/-- A piece of a template. -/
inductive FormatPiece where
  | plain (c : Char)
  | conversion (c : Conversion)
  deriving DecidableEq, Repr

/-- The piece that the letter of a conversion makes. -/
def conversionPiece? (precision : Option (List Char)) : List Char → Option FormatPiece
  | '%' :: _ => some (.plain '%')
  | 's' :: _ => some (.conversion .text)
  | 'd' :: _ => some (.conversion .whole)
  | 'f' :: _ => some (.conversion (.fixed precision))
  | _ => none

/-- The conversion after a percent sign, and its length. -/
def conversionAfter? : List Char → Option (FormatPiece × Nat)
  | '.' :: rest =>
    let ds := rest.takeWhile isDigit
    if ds.isEmpty then none
    else (conversionPiece? (some ds) (rest.dropWhile isDigit)).map (·, ds.length + 2)
  | rest => (conversionPiece? none rest).map (·, 1)

/-- A template in pieces; `skip` characters belong to a conversion already read. -/
def formatPieces : Nat → List Char → List FormatPiece
  | _, [] => []
  | skip + 1, _ :: rest => formatPieces skip rest
  | 0, c :: rest =>
    match if c = '%' then conversionAfter? rest else none with
    | some (piece, length) => piece :: formatPieces length rest
    | none => .plain c :: formatPieces 0 rest

/-- The digits after the point that a precision asks for. -/
def places (ds : List Char) : Except Failure Nat := do
  let refuse (message : String) : Except Failure Nat :=
    throw (.breakdown (.stated .badValue message))
  let n := digitsValue ds
  if mostDigits < ds.length then
    refuse <| s!"Exceeds the limit ({mostDigits} digits) for integer string conversion: " ++
      s!"value has {ds.length} digits; use sys.set_int_max_str_digits() to increase the limit"
  else return n

/-- A number with a number of digits after the point. -/
def fixedText (x : Float) (digits : Nat) : Except Failure String :=
  if largestIndex < digits then
    .error (.breakdown (.stated .badValue "Too many decimal digits in format string"))
  else if 1 <<< 31 ≤ digits then .error (.breakdown (.stated .badValue "precision too big"))
  else .ok (fixedPlaces x digits)

/-- An argument as a conversion shows it. -/
def converted (v : Value) : Conversion → Except Failure String
  | .text => .ok v.toText
  | .whole => do
    let x ← numberOf "format" v
    match trunc? x with
    | some n => return toString n
    | none => .error (noInteger x)
  | .fixed precision => do
    let digits ← match precision with
      | none => pure 6
      | some ds => places ds
    fixedText (← numberOf "format" v) digits

/-- The pieces of a template, each conversion filled with the next argument. -/
def filled : List FormatPiece → List Value → Except Failure String
  | [], _ => .ok ""
  | .plain c :: rest, args => return String.singleton c ++ (← filled rest args)
  | .conversion _ :: _, [] =>
    .error (.breakdown (.stated .badValue "not enough arguments for format string"))
  | .conversion c :: rest, v :: args => do
    let here ← converted v c
    return here ++ (← filled rest args)

/-- A template filled with arguments. -/
def formatted (template : String) (args : List Value) : Except Failure String :=
  filled (formatPieces 0 template.toList) args

/-! ## The functions -/

/-- The text that most functions on texts take. -/
def textParameter : Parameter := .needed "value" "text" "The text"

/-- A function that maps one text to another. -/
def mapped (f : String → String) (args : List Value) : Answer :=
  .ok (.text (f (textOf (argument args 0))))

/-- A test of one text against another; null passes none. -/
def tested (test : String → String → Bool) (args : List Value) : Answer :=
  let v := argument args 0
  .ok (.boolean (!v.isNull && test (textOf v) (textOf (argument args 1))))

/-- The position of a text in another, counted from one; zero where there is none. -/
def position (s needle : String) : Nat := ((find? s needle).map (· + 1)).getD 0

/-- The functions on texts. -/
def text {ω : Type} : List (Definition ω) := [
  define .text "len" "number" "Returns the length of the text form of a value" [textParameter]
    ["len(description) <= 500"]
    fun args => .ok (.number (ofNat (textOf (argument args 0)).length)),
  define .text "upper" "text" "Converts text to uppercase" [textParameter]
    ["upper(countryCode) = \"US\""] (mapped upper),
  define .text "lower" "text" "Converts text to lowercase" [textParameter] [] (mapped lower),
  define .text "trim" "text" "Removes whitespace from both ends of text" [textParameter]
    ["trim(name) != \"\""] (mapped trim),
  define .text "concat" "text" "Concatenates all arguments as text"
    [.rest "values" "any" "Values to join"]
    ["concat(firstName, \" \", lastName)"] fun args => .ok (.text (concatenated args)),
  define .text "substr" "text" "Extracts text from start to end (1-based, inclusive)"
    [textParameter, .needed "start" "number" "First character position",
      .optional "end" "number" "Last character position"]
    ["substr(\"abcdef\", 2, 4) = \"bcd\""]
    fun args => substr (argument args 0) (argument args 1) (argument args 2),
  define .text "reverse" "text" "Reverses text" [textParameter] []
    (mapped fun s => String.ofList s.toList.reverse),
  define .text "rep" "text" "Repeats text a number of times, with an optional separator"
    [textParameter, .needed "count" "number" "Number of repetitions",
      .optional "separator" "text" "Text between repetitions"]
    ["rep(\"ab\", 3, \"-\") = \"ab-ab-ab\""]
    fun args => rep (argument args 0) (argument args 1) (argument args 2),
  define .text "find" "number" "Returns the 1-based position of a substring, or 0"
    [textParameter, .needed "needle" "text" "Text to look for"]
    ["find(email, \"@\") > 1"]
    fun args => .ok (.number (ofNat (position (textOf (argument args 0)) (textOf (argument args 1))))),
  define .text "replace" "text" "Replaces every occurrence of old with new"
    [textParameter, .needed "old" "text" "Text to replace", .needed "new" "text" "Replacement"]
    []
    fun args => .ok <| .text <|
      replaceAll (textOf (argument args 0)) (textOf (argument args 1)) (textOf (argument args 2)),
  define .text "startsWith" "boolean" "Tests whether text starts with a prefix"
    [textParameter, .needed "prefix" "text" "The prefix"] [] (tested startsWith),
  define .text "endsWith" "boolean" "Tests whether text ends with a suffix"
    [textParameter, .needed "suffix" "text" "The suffix"] [] (tested endsWith),
  define .text "format" "text" "printf-style formatting with %s, %d, %f and %.Nf"
    [.needed "template" "text" "Format string", .rest "values" "any" "Values to format"]
    ["format(\"%d + %d = %d\", 2, 3, 5)"]
    fun args => do return .text (← formatted (textOf (argument args 0)) args.tail)]

end Rulebook.Library
