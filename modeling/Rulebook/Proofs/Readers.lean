/-
  Readers — parsers as plain functions, put together of a few smallest ones.

  * A `Reader` reads tokens and leaves the rest, or fails; `reader p` is the parser
    `p` without its bounds.
  * `give` reads nothing, `failing` fails at the current token, `taking` goes past
    that token or reads something else, `stopping` stops there, and `andThen` reads one
    thing after the other.
  * Each `reader_…` lemma writes a parser with these, so that what holds of them all
    holds of every parser.
-/
import Rulebook.Proofs.Words

namespace Rulebook

/-- What is read and what is left, or an error. -/
abbrev Reader (α : Type) := List Token → Except ExpressionError (α × List Token)

/-- A parser without its bounds. -/
def reader {α : Type} {bound : List Token → ℕ} (p : ∀ ts, ReadingResult α (bound ts)) :
    Reader α := fun ts => outcome (p ts)

namespace Reader

variable {α β γ : Type}

/-- Reads nothing. -/
def give (x : α) : Reader α := fun ts => .ok (x, ts)

/-- Fails at the current token. -/
def failing (c : Token → Cause) : Reader α := fun ts =>
  .error ((currentToken ts).error (c (currentToken ts)))

/-- Goes past the current token and reads on, where its kind is one that `f` knows,
    and reads something else where it is not. -/
def taking (f : TokenKind → Option γ) (p : Token → γ → Reader α) (q : Reader α) : Reader α
  | t :: rest => match f t.kind with
    | some c => p t c rest
    | none => q (t :: rest)
  | [] => q []

/-- Reads nothing at a token of some kinds, and something at others. -/
def stopping (stops : TokenKind → Bool) (x : α) (q : Reader α) : Reader α := fun ts =>
  if stops (nextKind ts) then .ok (x, ts) else q ts

/-- Reads one thing after another. -/
def andThen (p : Reader α) (next : α → Reader β) : Reader β := fun ts => do
  let x ← p ts
  next x.1 x.2

/-- The one kind. -/
def is (kind k : TokenKind) : Option Unit := if k = kind then some () else none

/-- Goes past a token of a kind, or fails. -/
def expecting (kind : TokenKind) (c : Cause) (next : Reader α) : Reader α :=
  taking (is kind) (fun _ _ => next) (failing fun _ => c)

theorem taking_is_cons (kind : TokenKind) (p : Token → Unit → Reader α) (q : Reader α)
    (t : Token) (rest : List Token) :
    taking (is kind) p q (t :: rest) = if t.kind = kind then p t () rest else q (t :: rest) := by
  by_cases h : t.kind = kind <;> simp [taking, is, h]

theorem expect_bind (kind : TokenKind) (c : Cause) (next : Reader α) (ts : List Token) :
    (outcome (expect kind c ts) >>= fun x => next x.2) = expecting kind c next ts := by
  cases ts with
  | nil => rfl
  | cons t rest =>
    rw [outcome_expect_cons, expecting, taking_is_cons]
    split_ifs <;> rfl

end Reader

open Reader

section
variable (inner : Inner)

/-! ## Expressions -/

theorem reader_moreArguments :
    reader (moreArguments inner) =
      taking (is .comma) (fun _ _ => (reader (inner .expression)).andThen fun x =>
        (reader (moreArguments inner)).andThen fun xs => give (x :: xs)) (give []) := by
  funext ts
  cases ts with
  | nil => exact outcome_moreArguments_nil inner
  | cons t rest =>
    rw [taking_is_cons]
    exact outcome_moreArguments_cons inner t rest

theorem reader_callArguments :
    reader (callArguments inner) =
      taking (is .rightParen) (fun _ _ => give [])
        ((reader (inner .expression)).andThen fun x =>
          (reader (moreArguments inner)).andThen fun xs =>
            expecting .rightParen .missingParenAfterArguments (give (x :: xs))) := by
  have hclose : ∀ x : Node × List Token, (do
      let xs ← outcome (moreArguments inner x.2)
      let close ← outcome (expect .rightParen .missingParenAfterArguments xs.2)
      return (x.1 :: xs.1, close.2)) = ((reader (moreArguments inner)).andThen fun xs =>
        expecting .rightParen .missingParenAfterArguments (give (x.1 :: xs))) x.2 :=
    fun x => congrArg _ (funext fun xs => expect_bind _ _ (give (x.1 :: xs.1)) xs.2)
  funext ts
  refine (outcome_callArguments inner ts).trans ?_
  cases ts with
  | nil =>
    rw [if_neg (by simp)]
    exact congrArg _ (funext hclose)
  | cons t rest =>
    rw [taking_is_cons, currentToken_cons]
    split_ifs with h
    · rw [outcome_expect_cons, if_pos h]
      rfl
    · exact congrArg _ (funext hclose)

theorem reader_nameOrCall (n : String) (p : ℕ) :
    reader (nameOrCall inner n p) =
      taking (is .leftParen) (fun _ _ => (reader (callArguments inner)).andThen fun xs =>
        give (.call n xs p)) (give (.reference n p)) := by
  funext ts
  cases ts with
  | nil => exact outcome_nameOrCall_nil inner n p
  | cons t rest =>
    rw [taking_is_cons]
    exact outcome_nameOrCall_cons inner n p t rest

/-- The name that a token is. -/
def TokenKind.name? : TokenKind → Option String
  | .name n => some n
  | _ => none

theorem TokenKind.name?_eq_some {k : TokenKind} {n : String} : k.name? = some n ↔ k = .name n := by
  cases k <;> simp [name?]

theorem reader_primary :
    reader (primary inner) =
      taking TokenKind.literal? (fun t v => give (.literal v t.position))
        (taking TokenKind.name? (fun t n => reader (nameOrCall inner n t.position))
          (taking (is .leftParen) (fun _ _ => (reader (inner .expression)).andThen fun x =>
              expecting .rightParen .missingParen (give x))
            (failing fun t => if t.kind = .finish then .unexpectedEnd
              else .unexpectedToken t.shown))) := by
  funext ts
  cases ts with
  | nil => exact outcome_primary_nil inner
  | cons t rest =>
    rw [taking]
    cases hl : t.kind.literal? with
    | some v => exact outcome_primary_literal inner hl rest
    | none =>
      rw [taking]
      cases hn : t.kind.name? with
      | some n => exact outcome_primary_name inner (TokenKind.name?_eq_some.1 hn) rest
      | none =>
        rw [taking_is_cons]
        split_ifs with hp
        · refine (outcome_primary_group inner hp rest).trans ?_
          exact congrArg _ (funext fun x => expect_bind _ _ (give x.1) x.2)
        · refine outcome_primary_unexpected inner hl (fun n h => ?_) hp rest
          rw [TokenKind.name?_eq_some.2 h] at hn
          cases hn

theorem reader_unaryOperation :
    reader (unaryOperation inner) =
      taking TokenKind.unary? (fun t op => (reader (inner .operand)).andThen fun x =>
        give (.unary op x t.position)) (reader (primary inner)) := by
  funext ts
  cases ts with
  | nil => rfl
  | cons t rest =>
    refine (outcome_unaryOperation_cons inner t rest).trans ?_
    rw [taking]
    cases t.kind.unary? <;> rfl

theorem reader_powerOperation :
    reader (powerOperation inner) = (reader (unaryOperation inner)).andThen fun x =>
      taking (is (.operator .power)) (fun t _ => (reader (inner .exponent)).andThen fun y =>
        give (.binary .power x y t.position)) (give x) := by
  funext ts
  refine (outcome_powerOperation inner ts).trans (congrArg _ (funext fun x => ?_))
  obtain ⟨x, rest⟩ := x
  cases rest with
  | nil => rfl
  | cons t rest =>
    simp only [taking_is_cons]
    rfl

section
variable (tier : Tier) (operand : Parser Node)

theorem reader_chainFrom (x : Node) :
    reader (chainFrom tier operand x) =
      taking (TokenKind.tierOperator? tier) (fun t op => (reader operand).andThen fun y =>
        reader (chainFrom tier operand (.binary op x y t.position))) (give x) := by
  funext ts
  cases ts with
  | nil => exact outcome_chainFrom_nil tier operand x
  | cons t rest =>
    refine (outcome_chainFrom_cons tier operand x t rest).trans ?_
    rw [taking]
    cases t.kind.tierOperator? tier <;> rfl

theorem reader_chain :
    reader (chain tier operand) =
      (reader operand).andThen fun x => reader (chainFrom tier operand x) :=
  funext fun ts => outcome_chain tier operand ts

end

/-! ## Statements -/

/-- Where a list of statements ends without a statement. -/
def stopsStatements (inBlock : Bool) (k : TokenKind) : Bool :=
  k = .finish || (inBlock && k = .keyword .end_)

theorem reader_moreStatements (inBlock : Bool) :
    reader (moreStatements inner inBlock) =
      taking (is .semicolon) (fun _ _ => stopping (stopsStatements inBlock) []
        ((reader (inner .statement)).andThen fun x =>
          (reader (moreStatements inner inBlock)).andThen fun xs => give (x :: xs)))
        (give []) := by
  funext ts
  cases ts with
  | nil => exact outcome_moreStatements_nil inner inBlock
  | cons t rest =>
    rw [taking_is_cons]
    exact outcome_moreStatements_cons inner inBlock t rest

theorem reader_statements (inBlock : Bool) :
    reader (statements inner inBlock) = (reader (inner .statement)).andThen fun x =>
      (reader (moreStatements inner inBlock)).andThen fun xs => give (x :: xs) :=
  funext fun ts => outcome_statements inner inBlock ts

theorem reader_conditional (p : ℕ) :
    reader (conditional inner p) = (reader (inner .expression)).andThen fun c =>
      expecting (.keyword .then_) (.missingWord .then_) <|
        (reader (inner .statement)).andThen fun x =>
          taking (is (.keyword .else_)) (fun _ _ => (reader (inner .statement)).andThen fun y =>
            give (.choice c x y p)) (give (.when c x p)) := by
  have helse : ∀ c : Node, (fun x : Node × List Token => elseRest inner c p x) = fun x =>
      taking (is (.keyword .else_)) (fun _ _ => (reader (inner .statement)).andThen fun y =>
        give (.choice c x.1 y p)) (give (.when c x.1 p)) x.2 := by
    intro c
    funext x
    obtain ⟨x, rest⟩ := x
    cases rest with
    | nil => rfl
    | cons t rest =>
      simp only [taking_is_cons]
      rfl
  funext ts
  refine (outcome_conditional inner p ts).trans (congrArg _ (funext fun c => ?_))
  refine Eq.trans ?_ (expect_bind _ _ _ c.2)
  exact congrArg _ (funext fun word => congrArg _ (helse c.1))

theorem reader_repetition (p : ℕ) :
    reader (repetition inner p) = (reader (inner .expression)).andThen fun c =>
      expecting (.keyword .do_) (.missingWord .do_) <|
        (reader (inner .statement)).andThen fun x => give (.loop c x p) := by
  funext ts
  refine (outcome_repetition inner p ts).trans (congrArg _ (funext fun c => ?_))
  refine Eq.trans ?_ (expect_bind _ _ _ c.2)
  rfl

theorem reader_block (p : ℕ) :
    reader (block inner p) =
      taking (is (.keyword .end_)) (fun _ _ => give (Node.sequence [] p))
        ((reader (statements inner true)).andThen fun xs =>
          expecting (.keyword .end_) (.missingWord .end_) (give (Node.sequence xs p))) := by
  have hend : ∀ xs : List Node × List Token, (do
      let word ← outcome (expect (.keyword .end_) (.missingWord .end_) xs.2)
      return (Node.sequence xs.1 p, word.2)) =
        expecting (.keyword .end_) (.missingWord .end_) (give (Node.sequence xs.1 p)) xs.2 :=
    fun xs => expect_bind _ _ (give (Node.sequence xs.1 p)) xs.2
  funext ts
  refine (outcome_block inner p ts).trans ?_
  cases ts with
  | nil =>
    rw [if_neg (by simp)]
    exact congrArg _ (funext hend)
  | cons t rest =>
    rw [taking_is_cons, currentToken_cons]
    split_ifs with h
    · rw [outcome_expect_cons, if_pos h]
      rfl
    · exact congrArg _ (funext hend)

/-- An assignment where one starts, and an expression elsewhere. -/
def assigningOr : Reader Node
  | t :: sign :: rest => match t.kind, sign.kind with
    | .name n, .operator .equal =>
      ((reader (inner .expression)).andThen fun x => give (.assignment n x t.position)) rest
    | _, _ => reader (inner .expression) (t :: sign :: rest)
  | ts => reader (inner .expression) ts

theorem assigningOr_assignment {t sign : Token} {n : String} (ht : t.kind = .name n)
    (hs : sign.kind = .operator .equal) (rest : List Token) :
    assigningOr inner (t :: sign :: rest) =
      ((reader (inner .expression)).andThen fun x => give (.assignment n x t.position)) rest := by
  rw [assigningOr, ht, hs]

theorem assigningOr_expression {ts : List Token} (h : startsAssignment ts = false) :
    assigningOr inner ts = reader (inner .expression) ts := by
  match ts, h with
  | [], _ => rfl
  | [t], _ => rfl
  | t :: sign :: rest, h =>
    rw [assigningOr]
    split
    · next hn hs => simp [startsAssignment, hn, hs, TokenKind.isName] at h
    · rfl

theorem exists_name_of_startsAssignment {ts : List Token} (h : startsAssignment ts = true) :
    ∃ t n sign rest, ts = t :: sign :: rest ∧ t.kind = .name n ∧ sign.kind = .operator .equal := by
  match ts, h with
  | t :: sign :: rest, h =>
    simp only [startsAssignment, Bool.and_eq_true, decide_eq_true_eq] at h
    obtain ⟨hn, hs⟩ := h
    obtain ⟨n, hn⟩ : ∃ n, t.kind = .name n := by
      cases hk : t.kind <;> simp_all [TokenKind.isName]
    exact ⟨t, n, sign, rest, rfl, hn, hs⟩

theorem reader_statementBody :
    reader (statementBody inner) =
      (taking (is (.keyword .if_)) (fun t _ => reader (conditional inner t.position)) <|
      taking (is (.keyword .while_)) (fun t _ => reader (repetition inner t.position)) <|
      taking (is (.keyword .begin_)) (fun t _ => reader (block inner t.position)) <|
      taking (is (.keyword .log_)) (fun t _ => (reader (inner .expression)).andThen fun x =>
        give (.log x t.position)) (assigningOr inner)) := by
  funext ts
  cases ts with
  | nil => exact outcome_statementBody_nil inner
  | cons t rest =>
    simp only [taking_is_cons]
    split_ifs with hi hl hb hlog
    · exact outcome_statementBody_if inner hi rest
    · exact outcome_statementBody_while inner hl rest
    · exact outcome_statementBody_begin inner hb rest
    · exact outcome_statementBody_log inner hlog rest
    · cases ha : startsAssignment (t :: rest) with
      | false =>
        rw [assigningOr_expression inner ha]
        exact outcome_statementBody_expression inner ⟨hi, hl, hlog, hb⟩ ha
      | true =>
        obtain ⟨t, n, sign, after, hts, hn, hs⟩ := exists_name_of_startsAssignment ha
        rw [hts, assigningOr_assignment inner hn hs]
        exact outcome_statementBody_assignment inner hn hs after

end

/-! ## Frames and whole texts -/

section
variable (limit : ℕ)

theorem reader_frame_zero (f : Frame) :
    reader (frame limit 0 f) = failing fun _ => .nestedTooDeep limit := by
  funext ts
  rw [reader, frame_zero]
  rfl

theorem reader_readMode_script :
    reader (readMode .script limit) = (reader (statements (frame limit limit) false)).andThen
      fun xs => give (asScript xs) :=
  funext fun ts => outcome_readMode_script limit ts

end

end Rulebook
