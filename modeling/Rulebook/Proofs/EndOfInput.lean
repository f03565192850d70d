/-
  The end of the input — no parser goes past it, whatever the tokens.

  * `beforeEnd`, `firstEnd?`: the tokens before the first that ends the input, and that token.
  * `ReadsUpTo w x y`: what is read of tokens `w` before either of two ends, `x` and `y`:
    the same, so that either end is left, or both fail for one cause, at a token of `w`
    or each at its end.
  * `StopsWithin n p`: of up to `n` tokens before an end, `p` reads the same before any
    other. The smallest readers do, and what is put together of readers that do.
  * `IsPart inner p`: the parsers of which the reading of a text is put together;
    `stopsAtEnd_part` says that each stops at the end.
  * `parser_stops_at_end`: so a list of tokens means what those before its first end mean.
-/
import Mathlib.Data.List.TakeWhile
import Rulebook.Proofs.Readers

namespace Rulebook

open Reader

variable {α β γ : Type}

/-! ## Tokens up to the end -/

/-- The tokens before the end of the input. -/
def beforeEnd (ts : List Token) : List Token := ts.takeWhile fun t => t.kind ≠ .finish

/-- The token that ends the input, if there is one. -/
def firstEnd? (ts : List Token) : Option Token := ts.find? fun t => t.kind = .finish

theorem endless_beforeEnd (ts : List Token) : Endless (beforeEnd ts) :=
  fun _ ht => by simpa using List.mem_takeWhile_imp ht

/-- Behind the tokens before the end the input is at its end. -/
theorem exists_beforeEnd_append (ts : List Token) :
    ∃ rest, ts = beforeEnd ts ++ rest ∧ atFinish rest = true ∧ rest.head? = firstEnd? ts := by
  induction ts with
  | nil => exact ⟨[], rfl, rfl, rfl⟩
  | cons t ts ih =>
    by_cases ht : t.kind = .finish
    · exact ⟨t :: ts, by simp [beforeEnd, ht], by simp [atFinish, ht], by simp [firstEnd?, ht]⟩
    · obtain ⟨rest, hts, hrest, hend⟩ := ih
      refine ⟨rest, ?_, hrest, by simpa [firstEnd?, ht] using hend⟩
      rw [beforeEnd, List.takeWhile_cons_of_pos (by simpa using ht), List.cons_append]
      exact congrArg _ hts

theorem Endless.of_suffix {v w : List Token} (h : Endless w) (hv : v <:+ w) : Endless v :=
  fun t ht => h t (hv.subset ht)

section
variable {x y : List Token}

theorem currentToken_of_atFinish (hx : atFinish x = true) : (currentToken x).kind = .finish :=
  of_decide_eq_true hx

theorem atFinish_singleton {e : Token} (he : e.kind = .finish) : atFinish [e] = true :=
  decide_eq_true he

theorem nextKind_before_end (hx : atFinish x = true) (hy : atFinish y = true) (w : List Token) :
    nextKind (w ++ x) = nextKind (w ++ y) := by
  cases w with
  | nil => exact (currentToken_of_atFinish hx).trans (currentToken_of_atFinish hy).symm
  | cons t w => rfl

theorem atFinish_before_end (hx : atFinish x = true) (hy : atFinish y = true) (w : List Token) :
    atFinish (w ++ x) = atFinish (w ++ y) := by
  have hkind : (currentToken (w ++ x)).kind = (currentToken (w ++ y)).kind :=
    nextKind_before_end hx hy w
  rw [atFinish, atFinish, hkind]

/-- The end of the input is no part of an assignment. -/
theorem startsAssignment_before_end (hx : atFinish x = true) (w : List Token) :
    startsAssignment (w ++ x) = startsAssignment w := by
  match w, x, hx with
  | [], [], _ | [], [_], _ | [_], [], _ | _ :: _ :: _, _, _ => rfl
  | [], e :: _ :: _, hx =>
    have he : e.kind = .finish := currentToken_of_atFinish hx
    simp [startsAssignment, he, TokenKind.isName]
  | [t], e :: _, hx =>
    have he : e.kind = .finish := currentToken_of_atFinish hx
    simp [startsAssignment, he]

end

/-! ## Readers that stop at the end -/

/-- The token at which the input ends; without one, an end that does not say where it is. -/
def endToken (ts : List Token) : Token := (firstEnd? ts).getD .unplacedFinish

/-- Two errors of parsing for one cause: at a token before the end, or each at its end. -/
inductive FailsAlike (w x y : List Token) : ExpressionError → ExpressionError → Prop
  | before {t c} : t ∈ w → c.stage = .parsing → FailsAlike w x y (t.error c) (t.error c)
  | atEnd {c} : c.stage = .parsing →
      FailsAlike w x y ((currentToken x).error c) ((currentToken y).error c)

/-- What is read before either end, and how much is left in front of it. -/
inductive ReadsUpTo (w x y : List Token) :
    Except ExpressionError (α × List Token) → Except ExpressionError (α × List Token) → Prop
  | read {a v} : v <:+ w → ReadsUpTo w x y (.ok (a, v ++ x)) (.ok (a, v ++ y))
  | failed {e e'} : FailsAlike w x y e e' → ReadsUpTo w x y (.error e) (.error e')

theorem ReadsUpTo.of_suffix {v w x y : List Token}
    {a b : Except ExpressionError (α × List Token)} (h : ReadsUpTo v x y a b) (hv : v <:+ w) :
    ReadsUpTo w x y a b := by
  cases h with
  | read hsuffix => exact .read (hsuffix.trans hv)
  | failed hfail =>
    cases hfail with
    | before ht hc => exact .failed (.before (hv.subset ht) hc)
    | atEnd hc => exact .failed (.atEnd hc)

/-- A reader that stops at the end, with up to `n` tokens before it. -/
def StopsWithin (n : ℕ) (p : Reader α) : Prop :=
  ∀ ⦃w x y⦄, w.length ≤ n → Endless w → atFinish x = true → atFinish y = true →
    ReadsUpTo w x y (p (w ++ x)) (p (w ++ y))

/-- A reader that stops at the end. -/
def Stops (p : Reader α) : Prop := ∀ n, StopsWithin n p

section
variable {n : ℕ} {p q : Reader α}

theorem stopsWithin_give (a : α) : StopsWithin n (give a) :=
  fun w _ _ _ _ _ _ => .read (List.suffix_refl w)

/-- Failing, where the cause tells no end from another. -/
theorem stopsWithin_failing {c : Token → Cause} (hc : ∀ t, (c t).stage = .parsing)
    (hend : ∀ t u, t.kind = .finish → u.kind = .finish → c t = c u) :
    StopsWithin n (failing c : Reader α) := by
  intro w x y _ _ hx hy
  cases w with
  | cons t w => exact .failed (.before List.mem_cons_self (hc t))
  | nil =>
    have hsame : c (currentToken y) = c (currentToken x) :=
      hend _ _ (currentToken_of_atFinish hy) (currentToken_of_atFinish hx)
    rw [List.nil_append, List.nil_append, failing, failing, hsame]
    exact .failed (.atEnd (hc _))

theorem taking_atFinish {f : TokenKind → Option γ} {p : Token → γ → Reader α} {x : List Token}
    (hf : f .finish = none) (hx : atFinish x = true) : taking f p q x = q x := by
  cases x with
  | nil => rfl
  | cons e x =>
    have he : e.kind = .finish := currentToken_of_atFinish hx
    rw [taking, he, hf]

/-- Going past a token that is not the end, where fewer are left, or reading something else. -/
theorem stopsWithin_taking {f : TokenKind → Option γ} {p : Token → γ → Reader α}
    (hf : f .finish = none) (hp : ∀ t c, ∀ m < n, StopsWithin m (p t c))
    (hq : StopsWithin n q) : StopsWithin n (taking f p q) := by
  intro w x y hn hw hx hy
  have hother := hq hn hw hx hy
  cases w with
  | nil =>
    rw [List.nil_append, List.nil_append] at hother ⊢
    rw [taking_atFinish hf hx, taking_atFinish hf hy]
    exact hother
  | cons t w =>
    rw [List.cons_append, List.cons_append] at hother ⊢
    rw [taking, taking]
    cases hc : f t.kind with
    | none => exact hother
    | some c =>
      exact (hp t c _ hn le_rfl (endless_cons.1 hw).2 hx hy).of_suffix (List.suffix_cons t w)

theorem stopsWithin_taking_is {kind : TokenKind} {p : Token → Unit → Reader α}
    (hkind : kind ≠ .finish) (hp : ∀ t, ∀ m < n, StopsWithin m (p t ()))
    (hq : StopsWithin n q) : StopsWithin n (taking (is kind) p q) :=
  stopsWithin_taking (if_neg hkind.symm) (fun t _ => hp t) hq

theorem stopsWithin_stopping {stops : TokenKind → Bool} (a : α) (hq : StopsWithin n q) :
    StopsWithin n (stopping stops a q) := by
  intro w x y hn hw hx hy
  rw [stopping, stopping, nextKind_before_end hx hy]
  split_ifs
  · exact .read (List.suffix_refl w)
  · exact hq hn hw hx hy

theorem StopsWithin.andThen {next : α → Reader β} (h : StopsWithin n p)
    (hnext : ∀ a, StopsWithin n (next a)) : StopsWithin n (p.andThen next) := by
  intro w x y hn hw hx hy
  have hfirst := h hn hw hx hy
  unfold Reader.andThen
  generalize p (w ++ x) = a at hfirst
  generalize p (w ++ y) = b at hfirst
  cases hfirst with
  | read hv => exact (hnext _ (hv.length_le.trans hn) (hw.of_suffix hv) hx hy).of_suffix hv
  | failed hfail => exact .failed hfail

theorem stopsWithin_expecting {kind : TokenKind} (hkind : kind ≠ .finish) {c : Cause}
    (hc : c.stage = .parsing) (h : Stops p) : StopsWithin n (expecting kind c p) :=
  stopsWithin_taking_is hkind (fun _ m _ => h m)
    (stopsWithin_failing (fun _ => hc) fun _ _ _ _ => rfl)

end

/-! ## Expressions -/

section
variable {inner : Inner} (h : ∀ f, Stops (reader (inner f)))
include h

theorem stops_moreArguments : Stops (reader (moreArguments inner)) := by
  intro n
  -- by the number of tokens: behind each comma there are fewer
  induction n using Nat.strong_induction_on with
  | _ n ih =>
    rw [reader_moreArguments inner]
    refine stopsWithin_taking_is (by simp) (fun _ m hm => ?_) (stopsWithin_give _)
    exact (h .expression m).andThen fun x => (ih m hm).andThen fun xs => stopsWithin_give _

theorem stops_callArguments : Stops (reader (callArguments inner)) := by
  intro n
  rw [reader_callArguments inner]
  refine stopsWithin_taking_is (by simp) (fun _ _ _ => stopsWithin_give _) ?_
  refine (h .expression n).andThen fun x => (stops_moreArguments h n).andThen fun xs => ?_
  exact stopsWithin_expecting (by simp) rfl fun _ => stopsWithin_give _

theorem stops_nameOrCall (name : String) (p : ℕ) : Stops (reader (nameOrCall inner name p)) := by
  intro n
  rw [reader_nameOrCall inner]
  refine stopsWithin_taking_is (by simp) (fun _ m _ => ?_) (stopsWithin_give _)
  exact (stops_callArguments h m).andThen fun xs => stopsWithin_give _

theorem stops_primary : Stops (reader (primary inner)) := by
  intro n
  rw [reader_primary inner]
  refine stopsWithin_taking rfl (fun _ _ _ _ => stopsWithin_give _) ?_
  refine stopsWithin_taking rfl (fun t name m _ => stops_nameOrCall h name _ m) ?_
  refine stopsWithin_taking_is (by simp) (fun _ m _ => ?_) (stopsWithin_failing ?_ ?_)
  · refine (h .expression m).andThen fun x => ?_
    exact stopsWithin_expecting (by simp) rfl fun _ => stopsWithin_give _
  · intro t
    split_ifs <;> rfl
  · intro t u ht hu
    rw [if_pos ht, if_pos hu]

theorem stops_unaryOperation : Stops (reader (unaryOperation inner)) := by
  intro n
  rw [reader_unaryOperation inner]
  refine stopsWithin_taking rfl (fun _ _ m _ => ?_) (stops_primary h n)
  exact (h .operand m).andThen fun x => stopsWithin_give _

theorem stops_powerOperation : Stops (reader (powerOperation inner)) := by
  intro n
  rw [reader_powerOperation inner]
  refine (stops_unaryOperation h n).andThen fun x => ?_
  refine stopsWithin_taking_is (by simp) (fun _ m _ => ?_) (stopsWithin_give _)
  exact (h .exponent m).andThen fun y => stopsWithin_give _

end

section
variable {tier : Tier} {operand : Parser Node} (h : Stops (reader operand))
include h

theorem stops_chainFrom (x : Node) : Stops (reader (chainFrom tier operand x)) := by
  intro n
  induction n using Nat.strong_induction_on generalizing x with
  | _ n ih =>
    rw [reader_chainFrom tier operand]
    refine stopsWithin_taking rfl (fun _ _ m hm => ?_) (stopsWithin_give _)
    exact (h m).andThen fun y => ih m hm _

theorem stops_chain : Stops (reader (chain tier operand)) := by
  intro n
  rw [reader_chain tier operand]
  exact (h n).andThen fun x => stops_chainFrom h x n

end

section
variable {inner : Inner} (h : ∀ f, Stops (reader (inner f)))
include h

theorem stops_tiers : Stops (reader (tiers inner)) :=
  stops_chain <| stops_chain <| stops_chain <| stops_chain <| stops_chain <| stops_chain <|
    stops_powerOperation h

/-! ## Statements -/

theorem stops_moreStatements (inBlock : Bool) : Stops (reader (moreStatements inner inBlock)) := by
  intro n
  induction n using Nat.strong_induction_on with
  | _ n ih =>
    rw [reader_moreStatements inner]
    refine stopsWithin_taking_is (by simp) (fun _ m hm => ?_) (stopsWithin_give _)
    refine stopsWithin_stopping _ ?_
    exact (h .statement m).andThen fun x => (ih m hm).andThen fun xs => stopsWithin_give _

theorem stops_statements (inBlock : Bool) : Stops (reader (statements inner inBlock)) := by
  intro n
  rw [reader_statements inner]
  refine (h .statement n).andThen fun x => ?_
  exact (stops_moreStatements h inBlock n).andThen fun xs => stopsWithin_give _

theorem stops_conditional (p : ℕ) : Stops (reader (conditional inner p)) := by
  intro n
  rw [reader_conditional inner]
  refine (h .expression n).andThen fun c => ?_
  refine stopsWithin_expecting (by simp) rfl fun m => (h .statement m).andThen fun x => ?_
  refine stopsWithin_taking_is (by simp) (fun _ k _ => ?_) (stopsWithin_give _)
  exact (h .statement k).andThen fun y => stopsWithin_give _

theorem stops_repetition (p : ℕ) : Stops (reader (repetition inner p)) := by
  intro n
  rw [reader_repetition inner]
  refine (h .expression n).andThen fun c => ?_
  refine stopsWithin_expecting (by simp) rfl fun m => ?_
  exact (h .statement m).andThen fun x => stopsWithin_give _

theorem stops_block (p : ℕ) : Stops (reader (block inner p)) := by
  intro n
  rw [reader_block inner]
  refine stopsWithin_taking_is (by simp) (fun _ _ _ => stopsWithin_give _) ?_
  refine (stops_statements h true n).andThen fun xs => ?_
  exact stopsWithin_expecting (by simp) rfl fun _ => stopsWithin_give _

theorem stops_assigningOr : Stops (assigningOr inner) := by
  intro n w x y hn hw hx hy
  cases hassigns : startsAssignment w with
  | false =>
    rw [assigningOr_expression inner ((startsAssignment_before_end hx w).trans hassigns),
      assigningOr_expression inner ((startsAssignment_before_end hy w).trans hassigns)]
    exact h .expression n hn hw hx hy
  | true =>
    obtain ⟨t, name, sign, rest, rfl, ht, hsign⟩ := exists_name_of_startsAssignment hassigns
    simp only [List.cons_append]
    rw [assigningOr_assignment inner ht hsign, assigningOr_assignment inner ht hsign]
    have hrest : rest <:+ t :: sign :: rest := List.suffix_append [t, sign] rest
    have hvalue : StopsWithin rest.length ((reader (inner .expression)).andThen fun x =>
        give (Node.assignment name x t.position)) :=
      (h .expression _).andThen fun x => stopsWithin_give _
    exact (hvalue le_rfl (hw.of_suffix hrest) hx hy).of_suffix hrest

theorem stops_statementBody : Stops (reader (statementBody inner)) := by
  intro n
  rw [reader_statementBody inner]
  refine stopsWithin_taking_is (by simp) (fun _ m _ => stops_conditional h _ m) ?_
  refine stopsWithin_taking_is (by simp) (fun _ m _ => stops_repetition h _ m) ?_
  refine stopsWithin_taking_is (by simp) (fun _ m _ => stops_block h _ m) ?_
  refine stopsWithin_taking_is (by simp) (fun _ m _ => ?_) (stops_assigningOr h n)
  exact (h .expression m).andThen fun x => stopsWithin_give _

end

/-! ## Frames and parts -/

theorem stops_frame (limit room : ℕ) : ∀ f, Stops (reader (frame limit room f)) := by
  induction room with
  | zero =>
    intro f n
    rw [reader_frame_zero]
    exact stopsWithin_failing (fun _ => rfl) fun _ _ _ _ => rfl
  | succ room ih =>
    intro f
    cases f with
    | statement =>
      rw [frame_statement]
      exact stops_statementBody ih
    | expression =>
      rw [frame_expression]
      exact stops_tiers ih
    | operand =>
      rw [frame_operand]
      exact stops_unaryOperation ih
    | exponent =>
      rw [frame_exponent]
      exact stops_powerOperation ih

/-- The parsers of which the reading of a text is put together, from those of the frames that
    may stand inside. -/
inductive IsPart (inner : Inner) : {α : Type} → Parser α → Prop
  | frame (f) : IsPart inner (inner f)
  | primary : IsPart inner (primary inner)
  | callArguments : IsPart inner (callArguments inner)
  | unaryOperation : IsPart inner (unaryOperation inner)
  | powerOperation : IsPart inner (powerOperation inner)
  | chain (tier) {operand : Parser Node} : IsPart inner operand → IsPart inner (chain tier operand)
  | statement : IsPart inner (statementBody inner)
  | statements (inBlock) : IsPart inner (statements inner inBlock)
  | conditional (p) : IsPart inner (conditional inner p)
  | repetition (p) : IsPart inner (repetition inner p)
  | block (p) : IsPart inner (block inner p)

theorem IsPart.stops {inner : Inner} (h : ∀ f, Stops (reader (inner f))) {p : Parser α}
    (hp : IsPart inner p) : Stops (reader p) := by
  induction hp with
  | frame f => exact h f
  | primary => exact stops_primary h
  | callArguments => exact stops_callArguments h
  | unaryOperation => exact stops_unaryOperation h
  | powerOperation => exact stops_powerOperation h
  | chain _ _ ih => exact stops_chain ih
  | statement => exact stops_statementBody h
  | statements inBlock => exact stops_statements h inBlock
  | conditional p => exact stops_conditional h p
  | repetition p => exact stops_repetition h p
  | block p => exact stops_block h p

/-- A parser that reads one token at least, and neither the end nor anything behind it. -/
structure StopsAtEnd (p : Parser α) : Prop where
  /-- What is read is not empty and does not hold the end. -/
  reads {ts : List Token} {r : Reading α ts.length} : p ts = .ok r →
    ∃ w, w ≠ [] ∧ Endless w ∧ ts = w ++ r.rest
  /-- An error is one of parsing, at a token before the end or at the end. -/
  fails {ts : List Token} {e : ExpressionError} : p ts = .error e →
    e.cause.stage = .parsing ∧
      ∃ t, (t ∈ beforeEnd ts ∨ t = endToken ts) ∧ e = t.error e.cause
  /-- It does the same before any end, and whatever stands behind it. -/
  upTo {w x y : List Token} : Endless w → atFinish x = true → atFinish y = true →
    ReadsUpTo w x y (outcome (p (w ++ x))) (outcome (p (w ++ y)))

theorem ReadsUpTo.exists_rest {w x y rest : List Token} {a : α}
    {b : Except ExpressionError (α × List Token)} (h : ReadsUpTo w x y (.ok (a, rest)) b) :
    ∃ v, v <:+ w ∧ rest = v ++ x := by
  cases h with
  | read hv => exact ⟨_, hv, rfl⟩

theorem FailsAlike.exists_token {w x y : List Token} {e e' : ExpressionError}
    (h : FailsAlike w x y e e') : e.cause.stage = .parsing ∧
      ∃ t, (t ∈ w ∨ t = currentToken x) ∧ e = t.error e.cause := by
  cases h with
  | before ht hc => exact ⟨hc, _, .inl ht, rfl⟩
  | atEnd hc => exact ⟨hc, _, .inr rfl, rfl⟩

theorem stopsAtEnd_of_stops {p : Parser α} (h : Stops (reader p)) : StopsAtEnd p where
  reads {ts r} hp := by
    obtain ⟨left, hts, hleft, -⟩ := exists_beforeEnd_append ts
    have hread := h _ le_rfl (endless_beforeEnd ts) hleft hleft
    rw [← hts, reader, hp, outcome_ok] at hread
    obtain ⟨v, ⟨u, hu⟩, hrest⟩ := hread.exists_rest
    have hsplit : ts = u ++ r.rest := by rw [hrest, ← List.append_assoc, hu, ← hts]
    have hendless := endless_beforeEnd ts
    rw [← hu, endless_append] at hendless
    refine ⟨u, ?_, hendless.1, hsplit⟩
    rintro rfl
    have hlength := congrArg List.length hsplit
    rw [List.nil_append] at hlength
    exact absurd r.shorter hlength.le.not_gt
  fails {ts e} hp := by
    obtain ⟨left, hts, hleft, hend⟩ := exists_beforeEnd_append ts
    have hread := h _ le_rfl (endless_beforeEnd ts) hleft hleft
    rw [← hts, reader, hp, outcome_error] at hread
    cases hread with
    | failed hfail =>
      have htoken := hfail.exists_token
      rwa [currentToken, List.headD_eq_head?_getD, hend] at htoken
  upTo hw hx hy := h _ le_rfl hw hx hy

/-! ## Whole texts -/

theorem stops_readMode (mode : Mode) (limit : ℕ) : Stops (reader (readMode mode limit)) := by
  cases mode with
  | expression => exact stops_frame limit limit .expression
  | script =>
    intro n
    rw [reader_readMode_script]
    exact (stops_statements (stops_frame limit limit) false n).andThen fun xs =>
      stopsWithin_give _

/-- Two answers of a parser that are the same, but for where the end is said to be. That there
    is nothing to parse is said of no token. -/
inductive AnswersUpTo (w x y : List Token) :
    Except ExpressionError Node → Except ExpressionError Node → Prop
  | tree {z} : AnswersUpTo w x y (.ok z) (.ok z)
  | failed {e e'} : FailsAlike w x y e e' → AnswersUpTo w x y (.error e) (.error e')
  | empty : AnswersUpTo w x y (.error (Token.unplacedFinish.error .empty))
      (.error (Token.unplacedFinish.error .empty))

section
variable {w x y : List Token} {a b : Except ExpressionError Node} (h : AnswersUpTo w x y a b)
include h

theorem AnswersUpTo.stage {e : ExpressionError} (ha : a = .error e) : e.cause.stage = .parsing := by
  subst ha
  cases h with
  | failed hfail => exact hfail.exists_token.1
  | empty => rfl

theorem AnswersUpTo.sameCause : a.mapError (·.cause) = b.mapError (·.cause) := by
  cases h with
  | tree | empty => rfl
  | failed hfail => cases hfail <;> rfl

theorem AnswersUpTo.eq_of_end (hend : currentToken x = currentToken y) : a = b := by
  cases h with
  | tree | empty => rfl
  | failed hfail =>
    cases hfail with
    | before => rfl
    | atEnd => rw [hend]

end

theorem parseTokens_upTo (mode : Mode) (limit : ℕ) {w x y : List Token} (hw : Endless w)
    (hx : atFinish x = true) (hy : atFinish y = true) :
    AnswersUpTo w x y (parseTokens mode limit (w ++ x)) (parseTokens mode limit (w ++ y)) := by
  rw [parseTokens_eq, parseTokens_eq, atFinish_before_end hy hx w]
  split_ifs with hempty
  · exact .empty
  have hread : ReadsUpTo w x y (outcome (readMode mode limit (w ++ x)))
      (outcome (readMode mode limit (w ++ y))) := stops_readMode mode limit _ le_rfl hw hx hy
  generalize outcome (readMode mode limit (w ++ x)) = a at hread
  generalize outcome (readMode mode limit (w ++ y)) = b at hread
  cases hread with
  | failed hfail => exact .failed hfail
  | @read z v hv =>
    rw [ok_bind, ok_bind]
    dsimp only
    cases v with
    | nil =>
      rw [List.nil_append, List.nil_append, if_pos hx, if_pos hy]
      exact .tree
    | cons t v =>
      -- what is left begins in front of the end, so it is trailing input before either
      have ht : atFinish (t :: v ++ x) = false ∧ atFinish (t :: v ++ y) = false := by
        have hkind := hw t (hv.subset List.mem_cons_self)
        exact ⟨decide_eq_false hkind, decide_eq_false hkind⟩
      rw [ht.1, ht.2]
      exact .failed (.before (hv.subset List.mem_cons_self) rfl)

/-- **The parser stops at the end of the input.** Whatever the tokens, it gives a tree or an
    error of parsing. Each parser of which it is put together, with any number of frames still
    allowed, reads one token at least and not the end, fails there or before, and does the
    same whatever stands in the place of the end. So the answer, but for the place of an error
    at the end, is that for the tokens before the first end and any end behind them; it is the
    same altogether where that is the end that the tokens have. -/
theorem parser_stops_at_end (mode : Mode) (limit : ℕ) (ts : List Token) :
    ((∃ x, parseTokens mode limit ts = .ok x) ∨
      ∃ e, parseTokens mode limit ts = .error e ∧ e.cause.stage = .parsing) ∧
    (∀ (room : ℕ) (α : Type) (p : Parser α), IsPart (frame limit room) p → StopsAtEnd p) ∧
    (∀ e : Token, e.kind = .finish →
      (parseTokens mode limit ts).mapError (·.cause) =
        (parseTokens mode limit (beforeEnd ts ++ [e])).mapError (·.cause)) ∧
    (∀ e, firstEnd? ts = some e →
      parseTokens mode limit ts = parseTokens mode limit (beforeEnd ts ++ [e])) := by
  obtain ⟨rest, hts, hrest, hend⟩ := exists_beforeEnd_append ts
  have hanswers : ∀ {y}, atFinish y = true → AnswersUpTo (beforeEnd ts) rest y
      (parseTokens mode limit ts) (parseTokens mode limit (beforeEnd ts ++ y)) := by
    intro y hy
    have hsame := parseTokens_upTo mode limit (endless_beforeEnd ts) hrest hy
    rwa [← hts] at hsame
  refine ⟨?_, fun room _ p hp => stopsAtEnd_of_stops (hp.stops (stops_frame limit room)),
    fun e he => (hanswers (atFinish_singleton he)).sameCause, fun e he => ?_⟩
  · cases hparse : parseTokens mode limit ts with
    | ok x => exact .inl ⟨x, rfl⟩
    | error e => exact .inr ⟨e, rfl, (hanswers hrest).stage hparse⟩
  · have hfinish : e.kind = .finish := by simpa using List.find?_some he
    refine (hanswers (atFinish_singleton hfinish)).eq_of_end ?_
    rw [currentToken, List.headD_eq_head?_getD, hend, he]
    rfl

/-- A call without arguments, with an end of the input before its second parenthesis. -/
def interruptedCall : List Token :=
  [⟨.name "f", 0, 1, 1, "f"⟩, ⟨.leftParen, 1, 1, 2, "("⟩, .finishAt 2 ⟨1, 3⟩,
    ⟨.rightParen, 2, 1, 3, ")"⟩, .finishAt 3 ⟨1, 4⟩]

/-- The call is not read over the first end: the text fails as without what follows, and so
    does the primary expression that it begins with. -/
theorem interruptedCall_unfinished :
    firstEnd? interruptedCall = some (.finishAt 2 ⟨1, 3⟩) ∧
      parseTokens .script 3 interruptedCall = parseTokens .script 3 (interruptedCall.take 3) ∧
      IsPart (frame 3 1) (primary (frame 3 1)) ∧
      ∃ e, primary (frame 3 1) interruptedCall = .error e ∧
        ∃ t, (t ∈ interruptedCall.take 2 ∨ t = .finishAt 2 ⟨1, 3⟩) ∧ e = t.error e.cause := by
  obtain ⟨-, hparts, -, hsame⟩ := parser_stops_at_end .script 3 interruptedCall
  have hfails : primary (frame 3 1) interruptedCall =
      .error ((Token.finishAt 2 ⟨1, 3⟩).error .unexpectedEnd) := rfl
  exact ⟨rfl, hsame _ rfl, .primary, _, hfails, ((hparts 1 _ _ .primary).fails hfails).2⟩

end Rulebook
