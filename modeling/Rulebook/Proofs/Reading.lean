/-
  Outcomes of reading — what a parser gives, without the bound on what is left.

  `outcome` forgets the bound that a `Reading` carries, so that parsers can be
  compared and composed as plain functions. Each `outcome_…` lemma says what one
  parser does, once and for all: later proofs cite it and never open the parser.
-/
import Mathlib.Data.List.Forall2
import Mathlib.Tactic.Common
import Rulebook.Proofs.Grammar

namespace Rulebook

/-! ## Answers that may be errors -/

section
variable {ε α β : Type}

theorem bind_eq_ok {x : Except ε α} {f : α → Except ε β} {b : β} :
    x >>= f = .ok b ↔ ∃ a, x = .ok a ∧ f a = .ok b := by
  cases x with
  | error e => simp [bind, Except.bind]
  | ok a => simp [bind, Except.bind]

theorem bind_eq_error {x : Except ε α} {f : α → Except ε β} {e : ε} :
    x >>= f = .error e ↔ x = .error e ∨ ∃ a, x = .ok a ∧ f a = .error e := by
  cases x with
  | error e' => simp [bind, Except.bind]
  | ok a => simp [bind, Except.bind]

@[simp] theorem ok_bind (a : α) (f : α → Except ε β) : (Except.ok a >>= f) = f a := rfl

@[simp] theorem error_bind (e : ε) (f : α → Except ε β) :
    ((.error e : Except ε α) >>= f) = .error e := rfl

/-- Answers to several questions, if there are answers to all. -/
theorem mapM_eq_ok_iff {f : α → Except ε β} {xs : List α} : ∀ {ys : List β},
    xs.mapM f = .ok ys ↔ List.Forall₂ (fun x y => f x = .ok y) xs ys := by
  induction xs with
  | nil =>
    intro ys
    rw [List.mapM_nil, List.forall₂_nil_left_iff]
    exact ⟨fun h => (Except.ok.inj h).symm, fun h => by rw [h]; rfl⟩
  | cons x xs ih =>
    intro ys
    rw [List.mapM_cons, bind_eq_ok, List.forall₂_cons_left_iff]
    constructor
    · rintro ⟨y, hy, h⟩
      obtain ⟨zs, hzs, h⟩ := bind_eq_ok.1 h
      exact ⟨y, zs, hy, ih.1 hzs, (Except.ok.inj h).symm⟩
    · rintro ⟨y, zs, hy, hzs, rfl⟩
      exact ⟨y, hy, bind_eq_ok.2 ⟨zs, ih.2 hzs, rfl⟩⟩

/-- The error of an answer that is one. -/
def error? : Except ε α → Option ε
  | .error e => some e
  | .ok _ => none

theorem error?_eq_some {answer : Except ε α} {e : ε} :
    error? answer = some e ↔ answer = .error e := by
  cases answer <;> simp [error?]

/-- Answers are taken one after the other, up to the first error. -/
theorem mapM_cases (f : α → Except ε β) (xs : List α) :
    (xs.mapM f = .ok (xs.filterMap fun x => (f x).toOption) ∧
      xs.filterMap (fun x => error? (f x)) = []) ∨
    ∃ e more, xs.mapM f = .error e ∧ xs.filterMap (fun x => error? (f x)) = e :: more := by
  induction xs with
  | nil => exact .inl ⟨rfl, rfl⟩
  | cons x xs ih =>
    simp only [List.mapM_cons, List.filterMap_cons]
    cases f x with
    | error e => exact .inr ⟨e, _, rfl, rfl⟩
    | ok y =>
      rcases ih with ⟨hok, hnone⟩ | ⟨e, more, herror, hmore⟩
      · exact .inl ⟨by rw [hok]; rfl, hnone⟩
      · exact .inr ⟨e, more, by rw [herror]; rfl, hmore⟩

end

/-! ## Outcomes -/

/-- A result of reading without its bound. -/
def outcome {α : Type} {bound : Nat} (r : ReadingResult α bound) :
    Except ExpressionError (α × List Token) :=
  r.map fun x => (x.value, x.rest)

section
variable {α β : Type} {m n : Nat}

@[simp] theorem outcome_ok (r : Reading α n) :
    outcome (.ok r : ReadingResult α n) = .ok (r.value, r.rest) := rfl

@[simp] theorem outcome_pure (r : Reading α n) :
    outcome (pure r : ReadingResult α n) = .ok (r.value, r.rest) := rfl

@[simp] theorem outcome_error (e : ExpressionError) :
    outcome (.error e : ReadingResult α n) = .error e := rfl

@[simp] theorem outcome_failAt (ts : List Token) (c : Cause) :
    outcome (failAt ts c : ReadingResult α n) = .error ((currentToken ts).error c) := rfl

@[simp] theorem outcome_widen (r : ReadingResult α m) (h : m ≤ n) :
    outcome (r.map (·.widen h)) = outcome r := by
  cases r <;> rfl

/-- A sequence of two readings, where the second depends on what the first read
    and left only. -/
theorem outcome_bind {r : ReadingResult α m} {f : Reading α m → ReadingResult β n}
    {g : α × List Token → Except ExpressionError (β × List Token)}
    (h : ∀ x, outcome (f x) = g (x.value, x.rest)) :
    outcome (r >>= f) = outcome r >>= g := by
  cases r with
  | error e => rfl
  | ok x => exact h x

/-- A reading leaves fewer tokens than its bound. -/
theorem length_lt_of_outcome {r : ReadingResult α n} {x : α} {rest : List Token}
    (h : outcome r = .ok (x, rest)) : rest.length < n := by
  cases r with
  | error e => simp at h
  | ok y =>
    simp only [outcome_ok, Except.ok.injEq, Prod.mk.injEq] at h
    exact h.2 ▸ y.shorter

end

/-! ## Tokens -/

@[simp] theorem currentToken_cons (t : Token) (ts : List Token) : currentToken (t :: ts) = t := rfl

@[simp] theorem currentToken_nil : currentToken [] = Token.unplacedFinish := rfl

@[simp] theorem unplacedFinish_kind : Token.unplacedFinish.kind = .finish := rfl

@[simp] theorem outcome_expect_cons (kind : TokenKind) (c : Cause) (t : Token)
    (rest : List Token) :
    outcome (expect kind c (t :: rest)) =
      if t.kind = kind then .ok ((), rest) else .error (t.error c) := by
  rw [expect]
  split <;> rfl

@[simp] theorem outcome_expect_nil (kind : TokenKind) (c : Cause) :
    outcome (expect kind c []) = .error (Token.unplacedFinish.error c) := rfl

/-- The one way to read an expected token. -/
theorem outcome_expect_eq_ok {kind : TokenKind} {c : Cause} {ts rest : List Token} {u : Unit} :
    outcome (expect kind c ts) = .ok (u, rest) ↔ ∃ t, ts = t :: rest ∧ t.kind = kind := by
  cases ts with
  | nil => simp
  | cons t ts =>
    rw [outcome_expect_cons]
    split_ifs with h
    · simp [h]
    · simp [h]

/-! ## Expressions -/

section
variable (inner : Inner)

@[simp] theorem outcome_moreArguments_nil : outcome (moreArguments inner []) = .ok ([], []) := by
  rw [moreArguments]; rfl

theorem outcome_moreArguments_cons (t : Token) (rest : List Token) :
    outcome (moreArguments inner (t :: rest)) =
      if t.kind = .comma then do
        let x ← outcome (inner .expression rest)
        let xs ← outcome (moreArguments inner x.2)
        return (x.1 :: xs.1, xs.2)
      else .ok ([], t :: rest) := by
  rw [moreArguments]
  split_ifs with h
  · exact outcome_bind fun x => outcome_bind fun xs => rfl
  · rfl

theorem outcome_callArguments (ts : List Token) :
    outcome (callArguments inner ts) =
      if (currentToken ts).kind = .rightParen then do
        let close ← outcome (expect .rightParen .missingParenAfterArguments ts)
        return ([], close.2)
      else do
        let x ← outcome (inner .expression ts)
        let xs ← outcome (moreArguments inner x.2)
        let close ← outcome (expect .rightParen .missingParenAfterArguments xs.2)
        return (x.1 :: xs.1, close.2) := by
  rw [callArguments]
  split_ifs with h
  · exact outcome_bind fun close => rfl
  · exact outcome_bind fun x => outcome_bind fun xs => outcome_bind fun close => rfl

@[simp] theorem outcome_nameOrCall_nil (n : String) (p : Nat) :
    outcome (nameOrCall inner n p []) = .ok (.reference n p, []) := rfl

theorem outcome_nameOrCall_cons (n : String) (p : Nat) (t : Token) (rest : List Token) :
    outcome (nameOrCall inner n p (t :: rest)) =
      if t.kind = .leftParen then do
        let xs ← outcome (callArguments inner rest)
        return (.call n xs.1 p, xs.2)
      else .ok (.reference n p, t :: rest) := by
  rw [nameOrCall]
  split_ifs with h
  · exact outcome_bind fun xs => rfl
  · rfl

@[simp] theorem outcome_primary_nil :
    outcome (primary inner []) = .error (Token.unplacedFinish.error .unexpectedEnd) := rfl

theorem outcome_primary_literal {t : Token} {v : Value} (h : t.kind.literal? = some v)
    (rest : List Token) :
    outcome (primary inner (t :: rest)) = .ok (.literal v t.position, rest) := by
  rw [primary]
  cases hk : t.kind with
  | number x => rw [hk] at h; cases h; rfl
  | text s => rw [hk] at h; cases h; rfl
  | keyword k => rw [hk] at h; cases k <;> cases h <;> rfl
  | _ => rw [hk] at h; cases h

theorem outcome_primary_name {t : Token} {n : String} (h : t.kind = .name n)
    (rest : List Token) :
    outcome (primary inner (t :: rest)) = outcome (nameOrCall inner n t.position rest) := by
  rw [primary, h]

theorem outcome_primary_group {t : Token} (h : t.kind = .leftParen) (rest : List Token) :
    outcome (primary inner (t :: rest)) = do
      let x ← outcome (inner .expression rest)
      let close ← outcome (expect .rightParen .missingParen x.2)
      return (x.1, close.2) := by
  rw [primary, h]
  exact outcome_bind fun x => outcome_bind fun close => rfl

/-- A token that begins no primary expression is an error, save the end of the
    input one of its own. -/
theorem outcome_primary_unexpected {t : Token} (hl : t.kind.literal? = none)
    (hn : ∀ n, t.kind ≠ .name n) (hp : t.kind ≠ .leftParen) (rest : List Token) :
    outcome (primary inner (t :: rest)) =
      .error (t.error (if t.kind = .finish then .unexpectedEnd else .unexpectedToken t.shown)) := by
  rw [primary]
  cases hk : t.kind with
  | name n => exact absurd hk (hn n)
  | leftParen => exact absurd hk hp
  | number x => simp [hk, TokenKind.literal?] at hl
  | text s => simp [hk, TokenKind.literal?] at hl
  | keyword k => cases k <;> simp_all [TokenKind.literal?]
  | finish => simp
  | operator o => simp
  | rightParen => simp
  | comma => simp
  | semicolon => simp
  | stray => simp

@[simp] theorem outcome_unaryOperation_nil :
    outcome (unaryOperation inner []) =
      .error (Token.unplacedFinish.error .unexpectedEnd) := rfl

theorem outcome_unaryOperation_cons (t : Token) (rest : List Token) :
    outcome (unaryOperation inner (t :: rest)) =
      match t.kind.unary? with
      | some op => do
        let x ← outcome (inner .operand rest)
        return (.unary op x.1 t.position, x.2)
      | none => outcome (primary inner (t :: rest)) := by
  rw [unaryOperation]
  cases t.kind.unary? with
  | none => rfl
  | some op => exact outcome_bind fun x => rfl

/-- What may follow the base of a power: `^` and an exponent. -/
def powerRest : Node × List Token → Except ExpressionError (Node × List Token)
  | (base, t :: rest) =>
    if t.kind = .operator .power then do
      let y ← outcome (inner .exponent rest)
      return (.binary .power base y.1 t.position, y.2)
    else .ok (base, t :: rest)
  | (base, []) => .ok (base, [])

theorem outcome_powerOperation (ts : List Token) :
    outcome (powerOperation inner ts) = outcome (unaryOperation inner ts) >>= powerRest inner := by
  rw [powerOperation]
  refine outcome_bind fun x => ?_
  obtain ⟨x, left, short⟩ := x
  cases left with
  | nil => rfl
  | cons t rest =>
    simp only [powerRest]
    split_ifs with h
    · exact outcome_bind fun y => rfl
    · rfl

section
variable (tier : Tier) (operand : Parser Node)

@[simp] theorem outcome_chainFrom_nil (x : Node) :
    outcome (chainFrom tier operand x []) = .ok (x, []) := by
  rw [chainFrom]; rfl

theorem outcome_chainFrom_cons (x : Node) (t : Token) (rest : List Token) :
    outcome (chainFrom tier operand x (t :: rest)) =
      match t.kind.tierOperator? tier with
      | some op => do
        let y ← outcome (operand rest)
        outcome (chainFrom tier operand (.binary op x y.1 t.position) y.2)
      | none => .ok (x, t :: rest) := by
  rw [chainFrom]
  cases t.kind.tierOperator? tier with
  | some op =>
    exact outcome_bind fun y => by
      exact (outcome_bind (g := .ok) fun whole => rfl).trans (by
        cases outcome (chainFrom tier operand (.binary op x y.value t.position) y.rest) <;> rfl)
  | none => rfl

theorem outcome_chain (ts : List Token) :
    outcome (chain tier operand ts) =
      outcome (operand ts) >>= fun x => outcome (chainFrom tier operand x.1 x.2) := by
  rw [chain]
  exact outcome_bind fun x => by
    exact (outcome_bind (g := .ok) fun whole => rfl).trans (by
      cases outcome (chainFrom tier operand x.value x.rest) <;> rfl)

end

/-! ## Statements -/

@[simp] theorem outcome_moreStatements_nil (inBlock : Bool) :
    outcome (moreStatements inner inBlock []) = .ok ([], []) := by
  rw [moreStatements]; rfl

theorem outcome_moreStatements_cons (inBlock : Bool) (t : Token) (rest : List Token) :
    outcome (moreStatements inner inBlock (t :: rest)) =
      if t.kind = .semicolon then
        if atFinish rest || (inBlock && (currentToken rest).kind = .keyword .end_) then
          .ok ([], rest)
        else do
          let x ← outcome (inner .statement rest)
          let xs ← outcome (moreStatements inner inBlock x.2)
          return (x.1 :: xs.1, xs.2)
      else .ok ([], t :: rest) := by
  rw [moreStatements]
  split_ifs with h h'
  · rfl
  · exact outcome_bind fun x => outcome_bind fun xs => rfl
  · rfl

theorem outcome_statements (inBlock : Bool) (ts : List Token) :
    outcome (statements inner inBlock ts) = do
      let x ← outcome (inner .statement ts)
      let xs ← outcome (moreStatements inner inBlock x.2)
      return (x.1 :: xs.1, xs.2) := by
  rw [statements]
  exact outcome_bind fun x => outcome_bind fun xs => rfl

/-- What may follow the first branch of a conditional: `ELSE` and another one. -/
def elseRest (condition : Node) (p : Nat) :
    Node × List Token → Except ExpressionError (Node × List Token)
  | (x, t :: rest) =>
    if t.kind = .keyword .else_ then do
      let y ← outcome (inner .statement rest)
      return (.choice condition x y.1 p, y.2)
    else .ok (.when condition x p, t :: rest)
  | (x, []) => .ok (.when condition x p, [])

theorem outcome_conditional (p : Nat) (ts : List Token) :
    outcome (conditional inner p ts) = (do
      let c ← outcome (inner .expression ts)
      let word ← outcome (expect (.keyword .then_) (.missingWord .then_) c.2)
      elseRest inner c.1 p (← outcome (inner .statement word.2))) := by
  rw [conditional]
  refine outcome_bind fun c => outcome_bind fun word => outcome_bind fun x => ?_
  obtain ⟨x, left, short⟩ := x
  cases left with
  | nil => rfl
  | cons t rest =>
    simp only [elseRest]
    split_ifs with h
    · exact outcome_bind fun y => rfl
    · rfl

theorem outcome_repetition (p : Nat) (ts : List Token) :
    outcome (repetition inner p ts) = do
      let c ← outcome (inner .expression ts)
      let word ← outcome (expect (.keyword .do_) (.missingWord .do_) c.2)
      let x ← outcome (inner .statement word.2)
      return (.loop c.1 x.1 p, x.2) := by
  rw [repetition]
  exact outcome_bind fun c => outcome_bind fun word => outcome_bind fun x => rfl

theorem outcome_block (p : Nat) (ts : List Token) :
    outcome (block inner p ts) =
      if (currentToken ts).kind = .keyword .end_ then do
        let word ← outcome (expect (.keyword .end_) (.missingWord .end_) ts)
        return (.sequence [] p, word.2)
      else do
        let xs ← outcome (statements inner true ts)
        let word ← outcome (expect (.keyword .end_) (.missingWord .end_) xs.2)
        return (.sequence xs.1 p, word.2) := by
  rw [block]
  split_ifs with h
  · exact outcome_bind fun word => rfl
  · exact outcome_bind fun xs => outcome_bind fun word => rfl

@[simp] theorem outcome_statementBody_nil :
    outcome (statementBody inner []) = outcome (inner .expression []) := rfl

theorem outcome_statementBody_if {t : Token} (h : t.kind = .keyword .if_) (rest : List Token) :
    outcome (statementBody inner (t :: rest)) = outcome (conditional inner t.position rest) := by
  rw [statementBody, h]
  exact outcome_widen _ _

theorem outcome_statementBody_while {t : Token} (h : t.kind = .keyword .while_)
    (rest : List Token) :
    outcome (statementBody inner (t :: rest)) = outcome (repetition inner t.position rest) := by
  rw [statementBody, h]
  exact outcome_widen _ _

theorem outcome_statementBody_begin {t : Token} (h : t.kind = .keyword .begin_)
    (rest : List Token) :
    outcome (statementBody inner (t :: rest)) = outcome (block inner t.position rest) := by
  rw [statementBody, h]
  exact outcome_widen _ _

theorem outcome_statementBody_log {t : Token} (h : t.kind = .keyword .log_) (rest : List Token) :
    outcome (statementBody inner (t :: rest)) = do
      let x ← outcome (inner .expression rest)
      return (.log x.1 t.position, x.2) := by
  rw [statementBody, h]
  exact outcome_bind fun x => rfl

theorem outcome_statementBody_assignment {t sign : Token} {n : String} (h : t.kind = .name n)
    (hs : sign.kind = .operator .equal) (rest : List Token) :
    outcome (statementBody inner (t :: sign :: rest)) = do
      let x ← outcome (inner .expression rest)
      return (.assignment n x.1 t.position, x.2) := by
  rw [statementBody, h]
  simp only [assignmentOr, hs, if_true]
  exact outcome_bind fun x => rfl

/-- A statement that begins with no word of its own and is no assignment is an
    expression. -/
theorem outcome_statementBody_expression {t : Token} {rest : List Token}
    (hw : t.kind ≠ .keyword .if_ ∧ t.kind ≠ .keyword .while_ ∧ t.kind ≠ .keyword .log_ ∧
      t.kind ≠ .keyword .begin_)
    (ha : startsAssignment (t :: rest) = false) :
    outcome (statementBody inner (t :: rest)) = outcome (inner .expression (t :: rest)) := by
  rw [statementBody]
  cases hk : t.kind with
  | name n =>
    cases rest with
    | nil => rfl
    | cons sign after =>
      have hs : sign.kind ≠ .operator .equal := by
        simpa [startsAssignment, hk, TokenKind.isName] using ha
      simp only [assignmentOr, hs, if_false]
  | keyword k =>
    cases k <;> first | rfl | simp [hk] at hw
  | _ => rfl

end

/-! ## Frames and whole texts -/

@[simp] theorem frame_zero (limit : Nat) (f : Frame) (ts : List Token) :
    frame limit 0 f ts = failAt ts (.nestedTooDeep limit) := by
  rw [frame]

@[simp] theorem frame_statement (limit room : Nat) :
    frame limit (room + 1) .statement = statementBody (frame limit room) := by
  rw [frame]

@[simp] theorem frame_expression (limit room : Nat) :
    frame limit (room + 1) .expression = tiers (frame limit room) := by
  rw [frame]

@[simp] theorem frame_operand (limit room : Nat) :
    frame limit (room + 1) .operand = unaryOperation (frame limit room) := by
  rw [frame]

@[simp] theorem frame_exponent (limit room : Nat) :
    frame limit (room + 1) .exponent = powerOperation (frame limit room) := by
  rw [frame]

theorem outcome_readMode_script (limit : Nat) (ts : List Token) :
    outcome (readMode .script limit ts) = do
      let xs ← outcome (statements (frame limit limit) false ts)
      return (asScript xs.1, xs.2) := by
  simp only [readMode]
  exact outcome_bind fun xs => rfl

@[simp] theorem outcome_readMode_expression (limit : Nat) (ts : List Token) :
    outcome (readMode .expression limit ts) = outcome (frame limit limit .expression ts) := rfl

/-- A whole text is what its mode asks for and the end of the input. -/
theorem parseTokens_eq (mode : Mode) (limit : Nat) (ts : List Token) :
    parseTokens mode limit ts =
      if atFinish ts then .error (Token.unplacedFinish.error .empty)
      else (do
        let x ← outcome (readMode mode limit ts)
        if atFinish x.2 then return x.1
        else .error ((currentToken x.2).error (.trailingInput (currentToken x.2).shown))) := by
  rw [parseTokens]
  split_ifs with h
  · rfl
  · cases readMode mode limit ts <;> rfl

end Rulebook
