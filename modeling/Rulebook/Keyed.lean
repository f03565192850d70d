/-
  Keyed lists — a value for each of some keys, each key at most once, in the
  order in which the keys were first given.

  * `put` gives a key its value;
  * `lookup_put` is the law of `put` and look-up.
-/
namespace Rulebook

variable {κ α : Type}

/-- Puts a value under a key; a key that is there already keeps its place. -/
def put [BEq κ] : List (κ × α) → κ → α → List (κ × α)
  | [], key, v => [(key, v)]
  | (k, w) :: rest, key, v =>
    if key == k then (k, v) :: rest else (k, w) :: put rest key v

/-- Puts several values under their keys, one after the other. -/
def putAll [BEq κ] (entries more : List (κ × α)) : List (κ × α) :=
  more.foldl (fun es e => put es e.1 e.2) entries

/-- A key just put has the new value, and every other key the one it had. -/
theorem lookup_put [BEq κ] [LawfulBEq κ] (entries : List (κ × α)) (key : κ) (v : α) (other : κ) :
    (put entries key v).lookup other =
      if other == key then some v else entries.lookup other := by
  induction entries with
  | nil => cases h : other == key <;> simp [put, List.lookup_cons, h]
  | cons e rest ih =>
    obtain ⟨k, w⟩ := e
    cases hk : key == k with
    | true =>
      obtain rfl := eq_of_beq hk
      cases h : other == key <;> simp [put, List.lookup_cons, h]
    | false =>
      cases h : other == k with
      | true =>
        obtain rfl := eq_of_beq h
        have hne : (other == key) = false := by
          cases hc : other == key with
          | false => rfl
          | true => simp [eq_of_beq hc] at hk
        simp [put, hk, hne]
      | false => simp [put, List.lookup_cons, hk, h, ih]

end Rulebook
