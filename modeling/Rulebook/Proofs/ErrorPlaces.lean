/-
  Places of errors — the error of a text that is not accepted is at the first token
  at which it stops being the beginning of one that is.

  * `pointsAt_statementBody` and the lemmas before it carry `PointsAt` to statements,
    `pointsFrames_frame` to every nesting, `pointsAt_readMode` to whole texts.
  * `parse_error_points`: short of the limit on nesting, what stands before the token
    of the error goes on to an accepted text, and what ends with it to none.
-/
import Rulebook.Proofs.Viability
import Rulebook.Proofs.Rereading

namespace Rulebook

open Reader

/-! ## Assignments -/

theorem startsAssignment_of_head? {w ts ts' : List Token} (hw : w ≠ [])
    (hts : ts'.head? = ts.head?) : startsAssignment (w ++ ts') = startsAssignment (w ++ ts) := by
  match w, hw with
  | [t], _ =>
    cases ts with
    | nil => rw [List.head?_eq_none_iff.1 hts]
    | cons s rest =>
      cases ts' with
      | nil => cases hts
      | cons s' rest' =>
        obtain rfl : s' = s := by simpa using hts
        rfl
  | _ :: _ :: _, _ => rfl

/-- What completes the beginning of no assignment does not make it one. -/
theorem startsAssignment_of_completes {w u ts : List Token} (hu : Completes u)
    (h : startsAssignment (w ++ ts) = false) : startsAssignment (w ++ u) = false := by
  match w, u, h, hu with
  | [], [], _, _ => rfl
  | [], [t], _, _ => rfl
  | [], t :: _ :: _, _, hu =>
    have ht : t.kind.isName = false := hu.1
    simp [startsAssignment, ht]
  | [t], [], _, _ => rfl
  | [t], s :: u, _, hu =>
    have hs : s.kind ≠ .operator .equal := hu.2
    simp [startsAssignment, hs]
  | _ :: _ :: _, _, h, _ => exact h

theorem startsAssignment_of_isName {ts : List Token} (h : (nextKind ts).isName = false) :
    startsAssignment ts = false := by
  match ts, h with
  | [], _ => rfl
  | [t], _ => rfl
  | t :: _ :: _, h =>
    rw [nextKind_cons] at h
    simp [startsAssignment, h]

section
variable {inner inner' : Inner} {L : Frame → Language Node} (h : PointsFrames inner inner' L)
include h

/-! ## Lists of statements -/

theorem pointsAt_moreStatements (inBlock : Bool) : ∀ (n : ℕ) {ts : List Token}, ts.length < n →
    ∀ {w : List Token} {x : Node}, L .statement w x →
      PointsAt (reader (moreStatements inner inBlock)) (reader (moreStatements inner' inBlock))
        (fun v xs => Statements (L .statement) (w ++ v) (x :: xs)) ts := by
  intro n
  induction n with
  | zero => exact fun hn => absurd hn (Nat.not_lt_zero _)
  | succ n ih =>
    intro ts hn w x hx
    rw [reader_moreStatements inner, reader_moreStatements inner']
    refine pointsAt_taking_is (by simp) (fun t rest hts ht => ?_) fun _ => pointsAt_give ?_
    · subst hts
      refine PointsAt.stopping (.lastEnded hx ht) fun _ => ?_
      refine (h.frame .statement rest).andThen (fun v y hy => ?_) fun v y left _ hread hy => ?_
      · exact completable_of_nil (x := [y])
          (by simpa [Language.after] using .more hx ht (.last hy))
      · exact (ih (length_lt_of_read hread hn) hy).andGive fun u ys hys =>
          Statements.more hx ht hys
    · simpa using Statements.last hx

theorem pointsAt_statements (inBlock : Bool) (ts : List Token) :
    PointsAt (reader (statements inner inBlock)) (reader (statements inner' inBlock))
      (Statements (L .statement)) ts := by
  rw [reader_statements inner, reader_statements inner']
  refine (h.frame .statement ts).andThen (fun w x hx => ?_) fun w x rest _ _ hx => ?_
  · exact completable_of_nil (x := [x]) (by simpa [Language.after] using .last hx)
  exact (pointsAt_moreStatements h inBlock _ (Nat.lt_succ_self _) hx).andGive fun v xs hxs => hxs

/-! ## Single statements -/

theorem pointsAt_conditional {i : Token} (hi : i.kind = .keyword .if_) (ts : List Token) :
    PointsAt (reader (conditional inner i.position)) (reader (conditional inner' i.position))
      ((Statement L).after [i]) ts := by
  obtain ⟨null, hnull⟩ := h.null .statement
  rw [reader_conditional inner, reader_conditional inner']
  have hviable : ∀ {w c}, L .expression w c → Completable (((Statement L).after [i]).after w) :=
    fun hc => completable_of_token (.keyword .then_) (by decide) (.when hi hc rfl hnull)
  refine (h.frame .expression ts).andThen (fun w c => hviable) fun w c rest _ _ hc => ?_
  refine pointsAt_expecting (by simp) _ (hviable hc) fun t left _ ht => ?_
  refine (h.frame .statement left).andThen (fun v x hx => ?_) fun v x left' _ hread hx => ?_
  · exact completable_of_nil (by simpa [Language.after] using Statement.when hi hc ht hx)
  -- after an open branch no `ELSE` is left, so the branch before one is closed
  refine pointsAt_taking_is (by simp) (fun e left'' hleft he => ?_) fun _ => pointsAt_give ?_
  · have hclosed : x.isOpen = false := by
      by_contra hopen
      refine h.closed hread (by simpa using hopen) ?_
      rw [hleft, nextKind_cons, he]
    refine (h.frame .statement left'').andGive fun u y hy => ?_
    simpa [Language.after] using Statement.choice hi hc ht hx hclosed he hy
  · simpa [Language.after] using Statement.when hi hc ht hx

theorem pointsAt_repetition {l : Token} (hl : l.kind = .keyword .while_) (ts : List Token) :
    PointsAt (reader (repetition inner l.position)) (reader (repetition inner' l.position))
      ((Statement L).after [l]) ts := by
  obtain ⟨null, hnull⟩ := h.null .statement
  rw [reader_repetition inner, reader_repetition inner']
  have hviable : ∀ {w c}, L .expression w c → Completable (((Statement L).after [l]).after w) :=
    fun hc => completable_of_token (.keyword .do_) (by decide) (.loop hl hc rfl hnull)
  refine (h.frame .expression ts).andThen (fun w c => hviable) fun w c rest _ _ hc => ?_
  refine pointsAt_expecting (by simp) _ (hviable hc) fun d left _ hd => ?_
  exact (h.frame .statement left).andGive fun v x hx => Statement.loop hl hc hd hx

theorem pointsAt_block {b : Token} (hb : b.kind = .keyword .begin_) (ts : List Token) :
    PointsAt (reader (block inner b.position)) (reader (block inner' b.position))
      ((Statement L).after [b]) ts := by
  rw [reader_block inner, reader_block inner']
  refine pointsAt_taking_is (by simp) (fun e rest _ he => pointsAt_give (.emptyBlock hb he))
    fun _ => ?_
  have hviable : ∀ {w xs}, Statements (L .statement) w xs →
      Completable (((Statement L).after [b]).after w) := fun hxs =>
    completable_of_token (.keyword .end_) (by decide) (.block hb hxs rfl)
  refine (pointsAt_statements h true ts).andThen (fun w xs => hviable) fun w xs _ _ _ hxs => ?_
  refine pointsAt_expecting (by simp) _ (hviable hxs) fun e _ _ he => pointsAt_give ?_
  simpa [Language.after] using Statement.block hb hxs he

theorem pointsAt_assigning {t sign : Token} {n : String} (ht : t.kind = .name n)
    (hs : sign.kind = .operator .equal) (rest : List Token) :
    PointsAt (assigningOr inner) (assigningOr inner') (Statement L) (t :: sign :: rest) := by
  have hvalue : PointsAt
      ((reader (inner .expression)).andThen fun x => give (.assignment n x t.position))
      ((reader (inner' .expression)).andThen fun x => give (.assignment n x t.position))
      (((Statement L).after [t]).after [sign]) rest :=
    (h.frame .expression rest).andGive fun w x hx => Statement.assignment ht hs hx
  have hsign : PointsAt (fun ts => assigningOr inner (t :: ts))
      (fun ts => assigningOr inner' (t :: ts)) ((Statement L).after [t]) (sign :: rest) :=
    hvalue.cons (assigningOr_assignment inner ht hs rest) (assigningOr_assignment inner' ht hs)
  exact hsign.cons rfl fun _ => rfl

/-- An expression does not fail at a name with which it begins, so what it fails at
    begins no assignment, whatever follows. -/
theorem startsAssignment_of_fails {w ts : List Token} {e : ExpressionError}
    (ha : startsAssignment (w ++ ts) = false)
    (hp : outcome (inner .expression (w ++ ts)) = .error e)
    (hq : ∀ ts', ts'.head? = ts.head? → outcome (inner' .expression (w ++ ts')) = .error e) :
    e.cause.kind = .nestingTooDeep ∨
      ∀ ts', ts'.head? = ts.head? → startsAssignment (w ++ ts') = false := by
  cases w with
  | cons t w =>
    exact .inr fun ts' hts => startsAssignment_of_head? (List.cons_ne_nil t w) hts ▸ ha
  | nil =>
    cases hn : (nextKind ts).isName with
    | false =>
      exact .inr fun ts' hts => startsAssignment_of_isName (nextKind_of_head? hts ▸ hn)
    | true =>
      cases ts with
      | nil => cases hn
      | cons t ts =>
        rw [nextKind_cons] at hn
        rcases h.named hn with hdeep | ⟨x, hread⟩
        · exact .inl (hdeep ts e hp)
        · have hfail : outcome (inner' .expression [t]) = .error e := hq [t] rfl
          rw [hread] at hfail
          cases hfail

/-- A statement that starts no assignment is an expression, and what completes the
    expression completes the statement. -/
theorem pointsAt_expressionStatement {ts : List Token} (ha : startsAssignment ts = false) :
    PointsAt (assigningOr inner) (assigningOr inner') (Statement L) ts where
  reads {x rest} hp := by
    rw [assigningOr_expression inner ha] at hp
    have hshort := length_lt_of_outcome hp
    obtain ⟨w, rfl, hw, hq⟩ := (h.frame .expression ts).reads hp
    have hne : w ≠ [] := by
      rintro rfl
      simp at hshort
    have hstart : startsAssignment w = false := by
      by_contra hstart
      rw [startsAssignment_append (by simpa using hstart)] at ha
      cases ha
    refine ⟨w, rfl, .expression hstart hw, fun rest' hrest => ?_⟩
    rw [assigningOr_expression inner' (startsAssignment_of_head? hne hrest ▸ ha), hq rest' hrest]
  fails {e} hp := by
    rw [assigningOr_expression inner ha] at hp
    obtain ⟨w, rest, c, rfl, he, hwhy⟩ := (h.frame .expression ts).fails hp
    refine ⟨w, rest, c, rfl, he, hwhy.elim .inl fun ⟨hc, hq⟩ => ?_⟩
    refine (startsAssignment_of_fails h ha hp hq).imp_right fun hstart =>
      ⟨hc.mono fun u x hu hx => ?_, fun rest' hrest => ?_⟩
    · exact ⟨x, .expression (startsAssignment_of_completes hu ha) hx⟩
    · rw [assigningOr_expression inner' (hstart rest' hrest)]
      exact hq rest' hrest

theorem pointsAt_assigningOr (ts : List Token) :
    PointsAt (assigningOr inner) (assigningOr inner') (Statement L) ts := by
  cases ha : startsAssignment ts with
  | true =>
    obtain ⟨t, n, sign, rest, rfl, ht, hs⟩ := exists_name_of_startsAssignment ha
    exact pointsAt_assigning h ht hs rest
  | false => exact pointsAt_expressionStatement h ha

theorem pointsAt_statementBody (ts : List Token) :
    PointsAt (reader (statementBody inner)) (reader (statementBody inner')) (Statement L) ts := by
  rw [reader_statementBody inner, reader_statementBody inner']
  refine pointsAt_taking_is (by simp) (fun i rest _ hi => pointsAt_conditional h hi rest)
    fun _ => ?_
  refine pointsAt_taking_is (by simp) (fun l rest _ hl => pointsAt_repetition h hl rest)
    fun _ => ?_
  refine pointsAt_taking_is (by simp) (fun b rest _ hb => pointsAt_block h hb rest) fun _ => ?_
  refine pointsAt_taking_is (by simp) (fun l rest _ hl => ?_) fun _ => pointsAt_assigningOr h ts
  exact (h.frame .expression rest).andGive fun w x hx => Statement.log hl hx
end

/-! ## Frames and whole texts -/

theorem phrase_null (n : ℕ) (f : Frame) : ∃ x, Phrase (n + 2) f [nullToken] x := by
  have hnull : ∀ m, Primary (Phrase m) [nullToken] (.literal .null nullToken.position) :=
    fun m => .literal rfl
  by_cases hf : f = .statement
  · subst hf
    exact ⟨_, Statement.expression rfl (Phrase.of_primary (hnull n) (by simp))⟩
  · exact ⟨_, Phrase.of_primary (hnull (n + 1)) hf⟩

/-- A name alone is an expression, wherever nesting is allowed at all. -/
theorem outcome_frame_name (limit room : ℕ) {t : Token} (ht : t.kind.isName = true) :
    ∃ x, outcome (frame limit (room + 1) .expression [t]) = .ok (x, []) := by
  obtain ⟨n, hn⟩ : ∃ n, t.kind = .name n := by
    cases hk : t.kind <;> simp_all [TokenKind.isName]
  have hw : Phrase (room + 1) .expression [t] (.reference n t.position) :=
    Phrase.of_primary (.reference hn) (by simp)
  have hend : ¬ Frame.continues .expression (.reference n t.position) (nextKind []) := by
    simp [Frame.continues, TokenKind.continuesExpression, nextKind, TokenKind.binary?]
  exact ⟨_, ((recognizesFrames_frame limit (room + 1)).frame .expression).complete hw hend⟩

/-- The frames point at the tokens of their errors. What completes a word nests two
    frames deeper at most: a statement that is a literal. -/
theorem pointsFrames_frame (limit limit' : ℕ) : ∀ {n m : ℕ}, n ≤ m →
    PointsFrames (frame limit n) (frame limit' m) (Phrase (n + 2)) := by
  intro n
  induction n with
  | zero =>
    intro m _
    refine ⟨fun f ts => ?_, phrase_null 0, (recognizesFrames_frame limit 0).closed,
      fun _ => .inl fun ts e he => ?_⟩
    · rw [reader_frame_zero]
      exact pointsAt_tooDeep limit
    · rw [frame_zero, outcome_failAt] at he
      cases he
      rfl
  | succ n ih =>
    intro m hm
    obtain ⟨m, rfl⟩ : ∃ k, m = k + 1 := ⟨m - 1, by omega⟩
    have hinner := ih (Nat.le_of_succ_le_succ hm)
    refine ⟨fun f ts => ?_, phrase_null (n + 1), (recognizesFrames_frame limit (n + 1)).closed,
      fun ht => .inr (outcome_frame_name limit' m ht)⟩
    cases f with
    | statement =>
      rw [frame_statement, frame_statement]
      exact pointsAt_statementBody hinner ts
    | expression =>
      rw [frame_expression, frame_expression]
      exact pointsAt_tiers hinner ts
    | operand =>
      rw [frame_operand, frame_operand]
      exact pointsAt_unaryOperation hinner ts
    | exponent =>
      rw [frame_exponent, frame_exponent]
      exact pointsAt_powerOperation hinner ts

theorem pointsAt_readMode (mode : Mode) {n m : ℕ} (hnm : n ≤ m) (ts : List Token) :
    PointsAt (reader (readMode mode n)) (reader (readMode mode m)) (ReadsAs (n + 2) mode) ts := by
  have hframes := pointsFrames_frame n m hnm
  cases mode with
  | expression => exact hframes.frame .expression ts
  | script =>
    rw [reader_readMode_script, reader_readMode_script]
    exact (pointsAt_statements hframes false ts).andGive fun w xs hxs => ⟨xs, hxs, rfl⟩

theorem parseTokens_of_readsAs {mode : Mode} {n : ℕ} {w : List Token} {x : Node} {e : Token}
    (hw : ReadsAs n mode w x) (he : e.kind = .finish) :
    parseTokens mode n (w ++ [e]) = .ok x :=
  (parseTokens_eq_ok_iff hw.endless he).2 (derives_iff.2 ⟨w, e, rfl, he, hw⟩)

/-- What is accepted is accepted with more room. -/
theorem parseTokens_of_le {mode : Mode} {n m : ℕ} (hnm : n ≤ m) {ts : List Token} {x : Node}
    (h : parseTokens mode n ts = .ok x) : parseTokens mode m ts = .ok x := by
  rw [parseTokens_eq] at h ⊢
  split_ifs at h ⊢
  rw [bind_eq_ok] at h
  obtain ⟨y, hy, h⟩ := h
  have hm : outcome (readMode mode m ts) = .ok y := (pointsAt_readMode mode hnm ts).reads_more hy
  rw [hm]
  exact h

/-- What is rejected, short of the limit on nesting, is rejected with more room. -/
theorem parseTokens_error_of_le {mode : Mode} {n m : ℕ} (hnm : n ≤ m) {ts : List Token}
    {e : ExpressionError} (h : parseTokens mode n ts = .error e)
    (he : e.cause.kind ≠ .nestingTooDeep) : parseTokens mode m ts = .error e := by
  rw [parseTokens_eq] at h ⊢
  split_ifs at h ⊢
  · exact h
  · cases hy : outcome (readMode mode n ts) with
    | error e' =>
      rw [hy] at h
      cases h
      have hm : outcome (readMode mode m ts) = .error e :=
        (pointsAt_readMode mode hnm ts).fails_more hy he
      rw [hm]
      rfl
    | ok y =>
      have hm : outcome (readMode mode m ts) = .ok y :=
        (pointsAt_readMode mode hnm ts).reads_more hy
      rw [hy] at h
      rw [hm]
      exact h

/-- What is rejected, short of the limit on nesting, is never accepted. -/
theorem parseTokens_ne_ok {mode : Mode} {n : ℕ} {ts : List Token} {e : ExpressionError}
    (h : parseTokens mode n ts = .error e) (he : e.cause.kind ≠ .nestingTooDeep) (m : ℕ)
    (x : Node) : parseTokens mode m ts ≠ .ok x := by
  intro hx
  have herror := parseTokens_error_of_le (Nat.le_max_left n m) h he
  rw [parseTokens_of_le (Nat.le_max_right n m) hx] at herror
  cases herror

/-! ## The tokens of errors -/

/-- Tokens that are rejected, short of the limit on nesting, hold a beginning of an
    accepted text up to the token of the error, and are rejected at this token
    whatever follows it. -/
theorem parseTokens_error_points {mode : Mode} {n : ℕ} {ts : List Token} {e : ExpressionError}
    (h : parseTokens mode n ts = .error e) (hdeep : e.cause.kind ≠ .nestingTooDeep)
    (hempty : e.cause.kind ≠ .emptyExpression) :
    ∃ w rest c, ts = w ++ rest ∧ e = (currentToken rest).error c ∧
      (∃ u x, ReadsAs (n + 2) mode (w ++ u) x) ∧
      (nextKind rest ≠ .finish → ∀ rest', rest'.head? = rest.head? →
        parseTokens mode n (w ++ rest') = .error e) := by
  have hpoints := pointsAt_readMode mode (Nat.le_refl n) ts
  rw [parseTokens_eq] at h
  split_ifs at h with hstart
  · cases h
    exact absurd rfl hempty
  have hgo : ∀ ts', ts'.head? = ts.head? → ¬ atFinish ts' := by
    intro ts' hts
    rwa [atFinish, currentToken_of_head? hts]
  cases hy : outcome (readMode mode n ts) with
  | error e' =>
    rw [hy] at h
    cases h
    obtain ⟨w, rest, c, rfl, he, hdeep' | ⟨⟨u, x, -, hx⟩, hq⟩⟩ := hpoints.fails hy
    · exact absurd hdeep' hdeep
    refine ⟨w, rest, c, rfl, he, ⟨u, x, hx⟩, fun _ rest' hrest => ?_⟩
    have hfail : outcome (readMode mode n (w ++ rest')) = .error e := hq rest' hrest
    rw [parseTokens_eq, if_neg (hgo _ (head?_append_of_head? w hrest)), hfail]
    rfl
  | ok y =>
    obtain ⟨x, rest⟩ := y
    rw [hy, ok_bind] at h
    have hend : ¬ atFinish rest := fun hend => by
      rw [if_pos hend] at h
      cases h
    rw [if_neg hend] at h
    have he : e = (currentToken rest).error (.trailingInput (currentToken rest).shown) := by
      cases h
      rfl
    obtain ⟨w, rfl, hx, hq⟩ := hpoints.reads hy
    refine ⟨w, rest, _, rfl, he, ⟨[], x, by simpa using hx⟩, fun _ rest' hrest => ?_⟩
    have hread : outcome (readMode mode n (w ++ rest')) = .ok (x, rest') := hq rest' hrest
    have hend' : ¬ atFinish rest' := by
      rwa [atFinish, currentToken_of_head? hrest]
    rw [parseTokens_eq, if_neg (hgo _ (head?_append_of_head? w hrest)), hread, ok_bind,
      if_neg hend', currentToken_of_head? hrest, he]

/-- **Errors point at the exact token.** Where a text is rejected, other than for its
    nesting or for being empty, the error is at one of its tokens or at its end; the
    tokens before it go on to an accepted text, under some limit on nesting; and no
    text that goes on from it, this token included, is accepted under any limit. -/
theorem parse_error_points {source : String} {ts : List Token} {eof : Token}
    (hts : tokenize source = .ok (ts ++ [eof])) {mode : Mode} {n : ℕ} {e : ExpressionError}
    (h : parse mode n source = .error e) (hdeep : e.cause.kind ≠ .nestingTooDeep)
    (hempty : e.cause.kind ≠ .emptyExpression) :
    ∃ i t c, (ts ++ [eof])[i]? = some t ∧ e = t.error c ∧
      (∃ u m x, parseTokens mode m (ts.take i ++ u ++ [eof]) = .ok x) ∧
      (i < ts.length → ∀ v m x, parseTokens mode m (ts.take (i + 1) ++ v) ≠ .ok x) := by
  have hends : eof.kind = .finish ∧ Endless ts := by
    obtain ⟨w, e', hw, he', hlexical⟩ := tokenize_lexical hts
    obtain ⟨rfl, heof⟩ := List.append_inj' hw rfl
    obtain rfl : eof = e' := by simpa using heof
    exact ⟨he', hlexical.endless⟩
  rw [parse, hts, ok_bind] at h
  obtain ⟨w, rest, c, hsplit, he, ⟨u, x, hx⟩, hfail⟩ := parseTokens_error_points h hdeep hempty
  have hw : Endless w := fun t ht => hx.endless t (by simp [ht])
  -- the end of the input is in no word, so something is left
  obtain ⟨t, rest, rfl⟩ : ∃ t left, rest = t :: left := by
    cases rest with
    | cons t left => exact ⟨t, left, rfl⟩
    | nil =>
      rw [List.append_nil] at hsplit
      exact absurd hends.1 (hw eof (by rw [← hsplit]; simp))
  have hlength : w.length ≤ ts.length := by
    have := congrArg List.length hsplit
    simp only [List.length_append, List.length_cons, List.length_nil] at this
    omega
  have htake : ts.take w.length = w := by
    rw [← List.take_append_of_le_length hlength, hsplit, List.take_left]
  refine ⟨w.length, t, c, by rw [hsplit]; simp, he, ⟨u, n + 2, x, ?_⟩, fun hi v => ?_⟩
  · rw [htake]
    exact parseTokens_of_readsAs hx hends.1
  · have htake' : ts.take (w.length + 1) = w ++ [t] := by
      rw [← List.take_append_of_le_length (Nat.succ_le_of_lt hi), hsplit]
      simp [List.take_append]
    have ht : t.kind ≠ .finish := by
      refine hends.2 t (List.mem_of_mem_take (i := w.length + 1) ?_)
      rw [htake']
      simp
    rw [htake', List.append_assoc, List.singleton_append]
    exact parseTokens_ne_ok (hfail ht (t :: v) rfl) hdeep

/-- The tokens of `IF a b` but for the end. -/
def withoutThen : List Token :=
  [⟨.keyword .if_, 0, 1, 1, "IF"⟩, ⟨.name "a", 3, 1, 4, "a"⟩, ⟨.name "b", 5, 1, 6, "b"⟩]

/-- A text that lacks a `THEN` is rejected where it should stand. -/
theorem withoutThen_points :
    tokenize "IF a b" = .ok (withoutThen ++ [⟨.finish, 6, 1, 7, ""⟩]) ∧
      (∃ u m x, parseTokens .script m (withoutThen.take 2 ++ u ++ [⟨.finish, 6, 1, 7, ""⟩]) =
        .ok x) ∧
      ∀ v m x, parseTokens .script m (withoutThen.take 3 ++ v) ≠ .ok x := by
  have hts : tokenize "IF a b" = .ok (withoutThen ++ [⟨.finish, 6, 1, 7, ""⟩]) := by
    decide +kernel
  have hcheck : (match parse .script 64 "IF a b" with
      | .error e => decide (e = ⟨.missingWord .then_, some 5, some 1, some 6⟩)
      | .ok _ => false) = true := by decide +kernel
  cases hparse : parse .script 64 "IF a b" with
  | ok x =>
    rw [hparse] at hcheck
    cases hcheck
  | error e =>
    rw [hparse] at hcheck
    obtain rfl := of_decide_eq_true hcheck
    obtain ⟨i, t, c, hi, he, hbefore, hafter⟩ :=
      parse_error_points hts hparse (by decide) (by decide)
    have hposition : t.position = 5 :=
      Option.some.inj (congrArg ExpressionError.position he).symm
    obtain rfl : i = 2 := by
      match i, hi with
      | 0, hi => cases hi; cases hposition
      | 1, hi => cases hi; cases hposition
      | 2, _ => rfl
      | 3, hi => cases hi; cases hposition
    exact ⟨hts, hbefore, hafter (by decide)⟩

end Rulebook
