/-
  Levels — the limit of the parser bounds how deep evaluation descends.

  * `Phrase.levels_le`: frames nested `n` deep derive trees of fewer than `8 * n`
    levels: a frame holds the six tiers, `^` and itself, and a chain stands on one
    level however long it is.
  * `Node.not_tooDeep`: with room for its levels a tree is evaluated without an error
    for want of room, unless a function states one.
  * `evaluate_parsed_not_tooDeep` puts these together.
-/
import Rulebook.Proofs.Breakdowns
import Rulebook.Proofs.Nested
import Rulebook.Proofs.RoundTrip

namespace Rulebook

open Eval

/-! ## Levels of derived trees -/

/-- The operators of a chain stand on a level of their own, where the chain is not
    part of another one. -/
theorem Node.levelsIn_le (x : Node) :
    x.levelsIn true ≤ x.levelsIn false ∧ x.levelsIn false ≤ x.levelsIn true + 1 := by
  cases x <;> simp [levelsIn]

section
variable {L : Language Node} {w : List Token} {x : Node} {bound : ℕ}

theorem Chain.levels_le {tier : Tier} (hL : ∀ {w x}, L w x → x.levelsIn false ≤ bound)
    (h : Chain tier L w x) : x.levelsIn false ≤ bound + 1 := by
  have hchain : x.levelsIn true ≤ bound := by
    induction h with
    | @single w x hx => exact x.levelsIn_le.1.trans (hL hx)
    | step _ _ hr ih => exact max_le ih (hL hr)
  exact x.levelsIn_le.2.trans (Nat.succ_le_succ hchain)

theorem Separated.levels_le {k : TokenKind} (hL : ∀ {w x}, L w x → x.levelsIn false + 1 ≤ bound)
    {xs : List Node} (h : Separated k L w xs) : levelsOfAll xs + 1 ≤ bound := by
  induction h with
  | one hx => simpa [levelsOfAll] using hL hx
  | more hx _ _ ih => simpa [levelsOfAll, Nat.succ_max_succ] using ⟨hL hx, ih⟩

theorem levelsOfAll_le_iff {xs : List Node} :
    levelsOfAll xs ≤ bound ↔ ∀ x ∈ xs, x.levelsIn false ≤ bound := by
  induction xs with
  | nil => simp [levelsOfAll]
  | cons x xs ih => simp [levelsOfAll, ih]

end

section
variable {inner : Frame → Language Node} {bound : ℕ}
  (hinner : ∀ {f w x}, inner f w x → x.levelsIn false + 1 ≤ bound) {w : List Token} {x : Node}
include hinner

theorem Primary.levels_le (h : Primary inner w x) : x.levelsIn false ≤ max 1 bound := by
  cases h with
  | literal | reference | emptyCall => exact le_max_left _ _
  | call _ _ _ hxs => exact (hxs.levels_le hinner).trans (le_max_right _ _)
  | group _ _ hx => exact (Nat.le_of_succ_le (hinner hx)).trans (le_max_right _ _)

theorem Unary.levels_le (h : Unary inner w x) : x.levelsIn false ≤ max 1 bound := by
  cases h with
  | primary hx => exact hx.levels_le hinner
  | operation _ hx => exact (hinner hx).trans (le_max_right _ _)

/-- Where there is an exponent, there is a frame for it. -/
theorem Power.levels_le (h : Power inner w x) : x.levelsIn false ≤ bound + 1 := by
  cases h with
  | base hx =>
    have hbase := hx.levels_le hinner
    omega
  | @power _ l _ _ r hl _ hr =>
    have hleft := l.levelsIn_le.1.trans (hl.levels_le hinner)
    have hright := hinner hr
    have hlevels : max (l.levelsIn true) (r.levelsIn false) ≤ bound := by omega
    exact Nat.succ_le_succ hlevels

theorem Expression.levels_le (h : Expression inner w x) : x.levelsIn false ≤ bound + 7 := by
  unfold Expression at h
  exact h.levels_le <| Chain.levels_le <| Chain.levels_le <| Chain.levels_le <|
    Chain.levels_le <| Chain.levels_le <| Power.levels_le hinner

theorem Statement.levels_le (h : Statement inner w x) : x.levelsIn false ≤ bound + 7 := by
  have hpart : ∀ {f w x}, inner f w x → x.levelsIn false ≤ bound + 6 := fun hx =>
    (Nat.le_of_succ_le (hinner hx)).trans (Nat.le_add_right _ _)
  cases h with
  | when _ hc _ ht => exact Nat.succ_le_succ (max_le (hpart hc) (hpart ht))
  | choice _ hc _ ht _ _ he =>
    exact Nat.succ_le_succ (max_le (hpart hc) (max_le (hpart ht) (hpart he)))
  | loop _ hc _ hb => exact Nat.succ_le_succ (max_le (hpart hc) (hpart hb))
  | log _ hx => exact Nat.succ_le_succ (hpart hx)
  | emptyBlock => exact Nat.succ_le_succ (Nat.zero_le _)
  | block _ hxs =>
    exact Nat.succ_le_succ (levelsOfAll_le_iff.2
      (hxs.forall_mem (P := fun x => x.levelsIn false ≤ bound + 6) hpart))
  | assignment _ _ hx => exact Nat.succ_le_succ (hpart hx)
  | expression _ hx => exact (hpart hx).trans (Nat.le_succ _)

end

/-- **Frames nested `n` deep have fewer than `8 * n` levels.** -/
theorem Phrase.levels_le {n : ℕ} : ∀ {f : Frame} {w : List Token} {x : Node},
    Phrase n f w x → x.levelsIn false + 1 ≤ 8 * n := by
  induction n with
  | zero => exact fun h => h.elim
  | succ n ih =>
    intro f w x h
    have hlevels : x.levelsIn false ≤ 8 * n + 7 := by
      cases f with
      | statement => exact Statement.levels_le ih h
      | expression => exact Expression.levels_le ih h
      | operand =>
        have hunary := Unary.levels_le ih h
        omega
      | exponent => exact (Power.levels_le ih h).trans (by omega)
    omega

/-- The statements of a script stand on a level of their own, and that is all. -/
theorem ReadsAs.levels_le {mode : Mode} {n : ℕ} {w : List Token} {x : Node}
    (h : ReadsAs n mode w x) : x.levelsIn false ≤ 8 * n := by
  cases mode with
  | expression => exact Nat.le_of_succ_le (Phrase.levels_le h)
  | script =>
    obtain ⟨xs, hxs, rfl⟩ := h
    have hlevels : ∀ x ∈ xs, x.levelsIn false + 1 ≤ 8 * n :=
      hxs.forall_mem (P := fun x => x.levelsIn false + 1 ≤ 8 * n) Phrase.levels_le
    rcases asScript_cases hxs.ne_nil with ⟨x, rfl, hx⟩ | ⟨y, z, rest, rfl, hx⟩
    · rw [hx]
      exact Nat.le_of_succ_le (hlevels x (by simp))
    · have hroom : 1 ≤ 8 * n := Nat.le_trans (Nat.le_add_left _ _) (hlevels y (by simp))
      have hall : levelsOfAll (y :: z :: rest) ≤ 8 * n - 1 :=
        levelsOfAll_le_iff.2 fun x hx => Nat.le_sub_one_of_lt (hlevels x hx)
      rw [hx, Node.levelsIn]
      omega

/-! ## Errors for want of room -/

/-- A failure that is no error for want of room. -/
def Failure.NotTooDeep (f : Failure) : Prop :=
  ∀ e, f = .error e → e.cause.kind ≠ .nestingTooDeep

theorem not_tooDeep_iff {α : Type} {answer : Except Failure α} :
    ¬ TooDeep answer ↔ FailsWith Failure.NotTooDeep answer := by
  constructor
  · rintro h f hf e rfl hkind
    exact h ⟨e, hf, hkind⟩
  · rintro h ⟨e, hf, hkind⟩
    exact h _ hf e rfl hkind

section
variable {ω : Type} {functions : Registry ω}

theorem notTooDeep_ofCause {cause : Cause} (h : cause.kind ≠ .nestingTooDeep) :
    (Failure.ofCause cause).NotTooDeep := by
  intro e he
  cases he
  exact h

theorem OfOperator.notTooDeep {P : Breakdown → Prop} {f : Failure} (h : OfOperator P f) :
    f.NotTooDeep := by
  rintro e rfl hkind
  have hoperator := h.kind
  rw [hkind] at hoperator
  cases hoperator

theorem Failure.NotTooDeep.locatedAt {f : Failure} (h : f.NotTooDeep) (p : Option ℕ) :
    (f.locatedAt p).NotTooDeep := by
  intro e he
  obtain ⟨e', rfl, hcause⟩ := cause_of_locatedAt he
  rw [hcause]
  exact h e' rfl

/-- A call passes on the errors of its function, and no other of its errors is one
    for want of room. -/
theorem OfCall.notTooDeep (h : ∀ d ∈ functions, ∀ args host, ¬ TooDeep (d.run args host).1)
    {name : String} {f : Failure} (hf : OfCall functions name f) : f.NotTooDeep := by
  cases hf with
  | unknown => exact notTooDeep_ofCause (by simp [Cause.kind])
  | refused hkind => exact notTooDeep_ofCause (by rcases hkind with hkind | hkind <;> simp [hkind])
  | stated hd he => exact not_tooDeep_iff.1 (h _ hd _ _) _ he
  | result => exact fun _ he => by cases he

/-- **With room for its levels a tree is evaluated to the end**, unless something else
    fails. -/
theorem Node.not_tooDeep {env : Environment ω}
    (h : ∀ d ∈ env.functions, ∀ args host, ¬ TooDeep (d.run args host).1) {x : Node}
    (hroom : x.levelsIn false ≤ env.limits.maxDepth) (s : Store ω) :
    ¬ TooDeep ((x.evaluate env).run s).1 := by
  have hsteps : Composed fun α => FailsInto (ω := ω) (α := α) Failure.NotTooDeep :=
    composed_failsInto (fun p _ hf => hf.locatedAt p) fun _ hf => hf.notTooDeep
  have hnames : ∀ name ∈ x.referencedVariables,
      FailsInto Failure.NotTooDeep (variableValue name : Eval ω Value) := fun _ _ =>
    failsInto_variableValue (notTooDeep_ofCause (by simp [Cause.kind]))
  have hcalls : ∀ name ∈ x.referencedFunctions, ∀ args,
      FailsInto Failure.NotTooDeep (Eval.call env.functions name args) := fun name _ args =>
    (failsInto_call name args).mono fun _ hf => hf.notTooDeep h
  exact not_tooDeep_iff.2 (hsteps.evaluateIn hnames hcalls (.inl hroom) s)

end

/-- **The limit of the parser bounds the depth of the evaluator.** A tree that was
    parsed with frames nested `n` deep is evaluated without an error for want of room
    under every limit from `8 * n` on, however long its chains and sequences are,
    where no function states such an error. -/
theorem evaluate_parsed_not_tooDeep {ω : Type} {mode : Mode} {n : ℕ} {source : String} {x : Node}
    (h : parse mode n source = .ok x) (c : Context ω)
    (hfunctions : ∀ d ∈ c.functions, ∀ args host, ¬ TooDeep (d.run args host).1)
    {limits : Limits} (hlimits : 8 * n ≤ limits.maxDepth) :
    ¬ TooDeep (c.evaluate limits x).1 := by
  obtain ⟨ts, -, hx⟩ := parse_eq_ok_iff.1 h
  obtain ⟨w, e, -, -, hreads⟩ := derives_iff.1 hx
  exact Node.not_tooDeep hfunctions (hreads.levels_le.trans hlimits) c.store

/-- Two statements of frames nested two deep, one with eighteen operators in a chain. -/
def longChain : String :=
  "a = one() + 1 + 1 + 1 + 1 + 1 + 1 + 1 + 1 + 1 + 1 + 1 + 1 + 1 + 1 + 1 + 1 + 1 + 1; LOG a"

/-- Sixteen levels are enough for the chain. -/
theorem longChain_not_tooDeep :
    ∃ x, parse .script 2 longChain = .ok x ∧
      ¬ TooDeep ((Context.empty [constantInteger "one" 1] ()).evaluate
        { Limits.standard with maxDepth := 16 } x).1 := by
  have hok : (parse .script 2 longChain).isOk := by decide +kernel
  have hfunctions : ∀ d ∈ [constantInteger "one" 1], ∀ args host,
      ¬ TooDeep (d.run args host).1 := by
    rintro d hd args host ⟨e, he, -⟩
    obtain rfl := List.mem_singleton.1 hd
    cases he
  cases hx : parse .script 2 longChain with
  | error e =>
    rw [hx] at hok
    cases hok
  | ok x => exact ⟨x, rfl, evaluate_parsed_not_tooDeep hx _ hfunctions (Nat.le_refl 16)⟩

end Rulebook
