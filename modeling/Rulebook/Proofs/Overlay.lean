/-
  Overlays — entries put over others, in order.

  * `keys_put`: the keys after an entry is put.
  * `putAll_put`: an entry put into the upper layer is put over both.
-/
import Mathlib.Data.List.Nodup
import Rulebook.Keyed

namespace Rulebook

variable {κ α : Type}

/-- The keys of entries. -/
def keys (entries : List (κ × α)) : List κ := entries.map (·.1)

theorem put_cons [BEq κ] (k : κ) (w : α) (rest : List (κ × α)) (key : κ) (v : α) :
    put ((k, w) :: rest) key v =
      if key == k then (k, v) :: rest else (k, w) :: put rest key v := rfl

variable [BEq κ] [LawfulBEq κ]

theorem mem_keys_put {entries : List (κ × α)} {key k : κ} {v : α} :
    k ∈ keys (put entries key v) ↔ k ∈ keys entries ∨ k = key := by
  induction entries with
  | nil => simp [put, keys]
  | cons e rest ih =>
    obtain ⟨k', w⟩ := e
    rw [put_cons]
    split_ifs with h
    · obtain rfl := eq_of_beq h
      simp only [keys, List.map_cons, List.mem_cons]
      tauto
    · simp only [keys, List.map_cons, List.mem_cons] at ih ⊢
      rw [ih]
      tauto

theorem nodup_keys_put {entries : List (κ × α)} (h : (keys entries).Nodup) (key : κ) (v : α) :
    (keys (put entries key v)).Nodup := by
  induction entries with
  | nil => simp [put, keys]
  | cons e rest ih =>
    obtain ⟨k, w⟩ := e
    have hk : k ∉ keys rest ∧ (keys rest).Nodup := List.nodup_cons.1 h
    rw [put_cons]
    split_ifs with hkey
    · exact h
    · refine List.nodup_cons.2 ⟨fun hmem => ?_, ih hk.2⟩
      rcases mem_keys_put.1 hmem with hmem | rfl
      · exact hk.1 hmem
      · exact hkey (beq_self_eq_true _)

theorem put_put_self (entries : List (κ × α)) (key : κ) (v w : α) :
    put (put entries key v) key w = put entries key w := by
  induction entries with
  | nil => simp [put]
  | cons e rest ih =>
    obtain ⟨k, u⟩ := e
    rw [put_cons, put_cons]
    split_ifs with h
    · rw [put_cons, if_pos h]
    · rw [put_cons, if_neg h, ih]

/-- A key that is there keeps its place, whatever else is put. -/
theorem put_comm {entries : List (κ × α)} {key other : κ} (hmem : key ∈ keys entries)
    (hne : key ≠ other) (v w : α) :
    put (put entries key v) other w = put (put entries other w) key v := by
  induction entries with
  | nil => cases hmem
  | cons e rest ih =>
    obtain ⟨k, u⟩ := e
    by_cases hk : key = k
    · subst hk
      have ho : ¬ (other == key) = true := fun h => hne (eq_of_beq h).symm
      simp [put_cons, ho]
    · have hk' : ¬ (key == k) = true := fun h => hk (eq_of_beq h)
      have hrest : key ∈ keys rest := (List.mem_cons.1 hmem).resolve_left hk
      by_cases ho : other == k
      · simp [put_cons, hk', ho]
      · simp [put_cons, hk', ho, ih hrest]

theorem put_putAll {entries : List (κ × α)} {key : κ} (v : α) {more : List (κ × α)}
    (hmem : key ∈ keys entries) (hmore : key ∉ keys more) :
    put (putAll entries more) key v = putAll (put entries key v) more := by
  induction more generalizing entries with
  | nil => rfl
  | cons e more ih =>
    obtain ⟨k, w⟩ := e
    have hk : key ≠ k ∧ key ∉ keys more := not_or.1 (mt List.mem_cons.2 hmore)
    show put (putAll (put entries k w) more) key v = putAll (put (put entries key v) k w) more
    rw [ih (mem_keys_put.2 (.inl hmem)) hk.2, put_comm hmem hk.1]

/-- **An entry put into the upper layer is put over both layers.** -/
theorem putAll_put (entries : List (κ × α)) {more : List (κ × α)} (h : (keys more).Nodup)
    (key : κ) (v : α) :
    putAll entries (put more key v) = put (putAll entries more) key v := by
  induction more generalizing entries with
  | nil => rfl
  | cons e more ih =>
    obtain ⟨k, w⟩ := e
    have hk : k ∉ keys more ∧ (keys more).Nodup := List.nodup_cons.1 h
    rw [put_cons]
    split_ifs with hkey
    · obtain rfl := eq_of_beq hkey
      show putAll (put entries key v) more = put (putAll (put entries key w) more) key v
      rw [put_putAll v (mem_keys_put.2 (.inr rfl)) hk.1, put_put_self]
    · exact ih (put entries k w) hk.2

end Rulebook
