/-
  Words — how the words of the grammar begin, go on and end.

  * `TokenKind.beginsExpression`, `TokenKind.beginsStatement`: the kinds with which
    words begin, and `Phrase.begins`, that they do.
  * `Frame.continues`: the tokens with which a frame goes on.
  * `Phrase.endless`: no word of the grammar holds the end of the input.
-/
import Rulebook.Proofs.Reading

namespace Rulebook

/-! ## How words begin and go on -/

/-- The kind of the first token, the end of the input if there is none. -/
def nextKind (ts : List Token) : TokenKind := (currentToken ts).kind

@[simp] theorem nextKind_cons (t : Token) (ts : List Token) : nextKind (t :: ts) = t.kind := rfl

/-- A kind with which an expression can begin. -/
def TokenKind.beginsExpression (k : TokenKind) : Bool :=
  k.literal?.isSome || k.isName || k = .leftParen || k.unary?.isSome

/-- A kind with which a statement can begin. -/
def TokenKind.beginsStatement (k : TokenKind) : Bool :=
  k.beginsExpression || k = .keyword .if_ || k = .keyword .while_ || k = .keyword .log_ ||
    k = .keyword .begin_

/-- A kind with which a frame can begin. -/
def Frame.begins : Frame → TokenKind → Bool
  | .statement => TokenKind.beginsStatement
  | _ => TokenKind.beginsExpression

/-- A word begins with a token of such a kind. -/
def Begins (b : TokenKind → Bool) (w : List Token) : Prop := ∃ t v, w = t :: v ∧ b t.kind = true

theorem Begins.append {b : TokenKind → Bool} {w : List Token} (h : Begins b w) (v : List Token) :
    Begins b (w ++ v) := by
  obtain ⟨t, u, rfl, ht⟩ := h
  exact ⟨t, u ++ v, rfl, ht⟩

theorem Begins.nextKind {b : TokenKind → Bool} {w : List Token} (h : Begins b w) :
    b (nextKind w) = true := by
  obtain ⟨t, u, rfl, ht⟩ := h
  exact ht

/-- What cannot begin an expression. -/
theorem TokenKind.beginsExpression_ne {k : TokenKind} (h : k.beginsExpression = true) :
    k ≠ .rightParen ∧ k ≠ .keyword .if_ ∧ k ≠ .keyword .while_ ∧ k ≠ .keyword .log_ ∧
      k ≠ .keyword .begin_ := by
  refine ⟨?_, ?_, ?_, ?_, ?_⟩ <;> rintro rfl <;> revert h <;> decide

/-- What cannot begin a statement. -/
theorem TokenKind.beginsStatement_ne {k : TokenKind} (h : k.beginsStatement = true) :
    k ≠ .finish ∧ k ≠ .keyword .end_ := by
  refine ⟨?_, ?_⟩ <;> rintro rfl <;> revert h <;> decide

/-- A token with which an expression goes on. -/
def TokenKind.continuesExpression (k : TokenKind) : Prop := k = .leftParen ∨ k.binary?.isSome

/-- A token with which a frame goes on, where it derives a node. -/
def Frame.continues : Frame → Node → TokenKind → Prop
  | .statement, x, k => k.continuesExpression ∨ x.isOpen = true ∧ k = .keyword .else_
  | .expression, _, k => k.continuesExpression
  | .operand, _, k => k = .leftParen
  | .exponent, _, k => k = .leftParen ∨ k = .operator .power

/-- The tier of the operator that a token is. -/
def TokenKind.tier? (k : TokenKind) : Option Tier := k.binary?.bind BinaryOperator.tier?

theorem TokenKind.tierOperator?_eq_some {k : TokenKind} {tier : Tier} {op : BinaryOperator} :
    k.tierOperator? tier = some op ↔ k.binary? = some op ∧ op.tier? = some tier := by
  simp [TokenKind.tierOperator?, Option.filter_eq_some_iff]

theorem TokenKind.isSome_tierOperator? {k : TokenKind} {tier : Tier} :
    (k.tierOperator? tier).isSome ↔ k.tier? = some tier := by
  simp only [Option.isSome_iff_exists, tierOperator?_eq_some, TokenKind.tier?,
    Option.bind_eq_some_iff]

@[simp] theorem TokenKind.tier?_leftParen : TokenKind.tier? .leftParen = none := rfl

@[simp] theorem TokenKind.tier?_power : TokenKind.tier? (.operator .power) = none := rfl

/-! ## How the words of the grammar begin -/

section
variable {inner : Frame → Language Node}

theorem Begins.mono {b b' : TokenKind → Bool} {w : List Token} (h : Begins b w)
    (hb : ∀ k, b k = true → b' k = true) : Begins b' w := by
  obtain ⟨t, v, rfl, ht⟩ := h
  exact ⟨t, v, rfl, hb _ ht⟩

/-- A primary expression begins with no unary operator. -/
theorem Primary.begins {w : List Token} {x : Node} (h : Primary inner w x) :
    Begins (fun k => k.beginsExpression && k.unary?.isNone) w := by
  cases h with
  | @literal t v hl =>
    refine ⟨t, [], rfl, ?_⟩
    cases hk : t.kind with
    | keyword k =>
      cases k <;> simp_all [TokenKind.literal?, TokenKind.unary?, TokenKind.beginsExpression]
    | _ => simp_all [TokenKind.literal?, TokenKind.unary?, TokenKind.beginsExpression]
  | reference hn | emptyCall hn | call hn =>
    refine ⟨_, _, rfl, ?_⟩
    simp [hn, TokenKind.beginsExpression, TokenKind.isName, TokenKind.unary?]
  | group hl => exact ⟨_, _, rfl, by simp [hl, TokenKind.beginsExpression, TokenKind.unary?]⟩

theorem Unary.begins {w : List Token} {x : Node} (h : Unary inner w x) :
    Begins TokenKind.beginsExpression w := by
  cases h with
  | primary hx => exact hx.begins.mono fun k hk => (Bool.and_eq_true_iff.1 hk).1
  | operation hop _ => exact ⟨_, _, rfl, by simp [TokenKind.beginsExpression, hop]⟩

theorem Power.begins {w : List Token} {x : Node} (h : Power inner w x) :
    Begins TokenKind.beginsExpression w := by
  cases h with
  | base hx => exact hx.begins
  | power hx _ _ => exact hx.begins.append _

theorem Chain.begins {tier : Tier} {L : Language Node} {b : TokenKind → Bool}
    (hL : ∀ {w x}, L w x → Begins b w) {w : List Token} {x : Node} (h : Chain tier L w x) :
    Begins b w := by
  induction h with
  | single hx => exact hL hx
  | step _ _ _ ih => exact ih.append _

theorem Expression.begins {w : List Token} {x : Node} (h : Expression inner w x) :
    Begins TokenKind.beginsExpression w := by
  unfold Expression at h
  exact h.begins <| Chain.begins <| Chain.begins <| Chain.begins <| Chain.begins <|
    Chain.begins Power.begins

theorem Statement.begins
    (hinner : ∀ {w x}, inner .expression w x → Begins TokenKind.beginsExpression w)
    {w : List Token} {x : Node} (h : Statement inner w x) :
    Begins TokenKind.beginsStatement w := by
  have word : ∀ {t : Token} {k : TokenKind} (v : List Token), t.kind = k →
      k.beginsStatement = true → Begins TokenKind.beginsStatement (t :: v) :=
    fun v ht hk => ⟨_, v, rfl, ht ▸ hk⟩
  cases h with
  | when hi _ _ _ => exact word _ hi rfl
  | choice hi _ _ _ _ _ _ => exact word _ hi rfl
  | loop hl _ _ _ => exact word _ hl rfl
  | log hl _ => exact word _ hl rfl
  | emptyBlock hb _ => exact word _ hb rfl
  | block hb _ _ => exact word _ hb rfl
  | assignment ht _ _ => exact word _ ht rfl
  | expression _ hx =>
    exact (hinner hx).mono fun k hk => by simp [TokenKind.beginsStatement, hk]

end

theorem Phrase.begins {n : ℕ} {f : Frame} {w : List Token} {x : Node} (h : Phrase n f w x) :
    Begins f.begins w := by
  cases n with
  | zero => exact h.elim
  | succ n =>
    cases f with
    | expression => exact Expression.begins h
    | operand => exact Unary.begins h
    | exponent => exact Power.begins h
    | statement =>
      have hinner : ∀ {v y}, Phrase n .expression v y → Begins TokenKind.beginsExpression v := by
        intro v y hy
        cases n with
        | zero => exact hy.elim
        | succ n => exact Expression.begins hy
      exact Statement.begins hinner h

/-! ## The end of the input -/

/-- A word without the end of the input. -/
def Endless (w : List Token) : Prop := ∀ t ∈ w, t.kind ≠ .finish

@[simp] theorem endless_nil : Endless [] := by simp [Endless]

@[simp] theorem endless_cons {t : Token} {w : List Token} :
    Endless (t :: w) ↔ t.kind ≠ .finish ∧ Endless w := by simp [Endless]

@[simp] theorem endless_append {v w : List Token} :
    Endless (v ++ w) ↔ Endless v ∧ Endless w := by
  simp [Endless, or_imp, forall_and]

section
variable {inner : Frame → Language Node}

theorem Separated.endless {k : TokenKind} {L : Language Node} (hk : k ≠ .finish)
    (hL : ∀ {w x}, L w x → Endless w) {w : List Token} {xs : List Node}
    (h : Separated k L w xs) : Endless w := by
  induction h with
  | one hx => exact hL hx
  | more hx ht _ ih => simp [hL hx, ht, hk, ih]

theorem Chain.endless {tier : Tier} {L : Language Node} (hL : ∀ {w x}, L w x → Endless w)
    {w : List Token} {x : Node} (h : Chain tier L w x) : Endless w := by
  induction h with
  | single hx => exact hL hx
  | @step w x t op v y _ hop hy ih =>
    have ht : t.kind ≠ .finish := fun ht => by
      rw [ht] at hop
      cases hop
    simp [ih, hL hy, ht]

theorem Statements.endless {L : Language Node} (hL : ∀ {w x}, L w x → Endless w)
    {w : List Token} {xs : List Node} (h : Statements L w xs) : Endless w := by
  induction h with
  | last hx => exact hL hx
  | lastEnded hx ht => simp [hL hx, ht]
  | more hx ht _ ih => simp [hL hx, ht, ih]

variable (hinner : ∀ {f w x}, inner f w x → Endless w)
include hinner

theorem Primary.endless {w : List Token} {x : Node} (h : Primary inner w x) : Endless w := by
  cases h with
  | @literal t v hl =>
    have ht : t.kind ≠ .finish := fun ht => by
      rw [ht] at hl
      cases hl
    simp [ht]
  | reference hn => simp [hn]
  | emptyCall hn hl hr => simp [hn, hl, hr]
  | call hn hl hr hxs => simp [hn, hl, hr, hxs.endless (by simp) hinner]
  | group hl hr hx => simp [hl, hr, hinner hx]

theorem Unary.endless {w : List Token} {x : Node} (h : Unary inner w x) : Endless w := by
  cases h with
  | primary hx => exact hx.endless hinner
  | @operation t op w x hop hx =>
    have ht : t.kind ≠ .finish := fun ht => by
      rw [ht] at hop
      cases hop
    simp [ht, hinner hx]

theorem Power.endless {w : List Token} {x : Node} (h : Power inner w x) : Endless w := by
  cases h with
  | base hx => exact hx.endless hinner
  | power hx ht hy => simp [hx.endless hinner, ht, hinner hy]

theorem Expression.endless {w : List Token} {x : Node} (h : Expression inner w x) :
    Endless w := by
  unfold Expression at h
  exact h.endless <| Chain.endless <| Chain.endless <| Chain.endless <| Chain.endless <|
    Chain.endless <| Power.endless hinner

theorem Statement.endless {w : List Token} {x : Node} (h : Statement inner w x) :
    Endless w := by
  cases h with
  | when hi hc ht hx => simp [hi, hinner hc, ht, hinner hx]
  | choice hi hc ht hx _ he hy => simp [hi, hinner hc, ht, hinner hx, he, hinner hy]
  | loop hl hc hd hx => simp [hl, hinner hc, hd, hinner hx]
  | log hl hx => simp [hl, hinner hx]
  | emptyBlock hb he => simp [hb, he]
  | block hb hxs he => simp [hb, he, hxs.endless hinner]
  | assignment ht hs hx => simp [ht, hs, hinner hx]
  | expression _ hx => exact hinner hx

end

/-- The words of the grammar hold no end of the input. -/
theorem Phrase.endless {n : ℕ} : ∀ {f : Frame} {w : List Token} {x : Node},
    Phrase n f w x → Endless w := by
  induction n with
  | zero => exact fun h => h.elim
  | succ n ih =>
    intro f w x h
    cases f with
    | statement => exact Statement.endless ih h
    | expression => exact Expression.endless ih h
    | operand => exact Unary.endless ih h
    | exponent => exact Power.endless ih h

end Rulebook
