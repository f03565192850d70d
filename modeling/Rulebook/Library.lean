/-
  The library — the functions that every registry starts with unless it is
  empty: those on numbers, texts, values of any kind and dates.
-/
import Rulebook.Registry
import Rulebook.Library.Math
import Rulebook.Library.Text
import Rulebook.Library.Logic
import Rulebook.Library.Dates

namespace Rulebook

/-- The functions of the library, on the day `today`. -/
def Registry.library {ω : Type} (today : Calendar.Date) : Registry ω :=
  Library.math ++ Library.text ++ Library.logic ++ Library.dates today

end Rulebook
