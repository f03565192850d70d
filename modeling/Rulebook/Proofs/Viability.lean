/-
  Viability — where readers fail: at the first token with which nothing can go on.

  * `Completable L`: some word of `L` begins with no name and no `=`, so that it can
    stand after any word without making it an assignment.
  * `PointsAt p q L ts`: what `p` reads of `ts` is a word of `L`, and where `p` fails
    it is at a token, before which, short of the limit on nesting, stands what can be
    completed to a word of `L`. What `p` does depends on the tokens up to the first
    that is left, and `q` does the same; `q` is `p` with more room for nesting.
  * Each smallest reader points at the token of its error, and what is put together
    of such readers does; so do the levels of expressions, from those inside.
-/
import Rulebook.Proofs.Readers
import Rulebook.Proofs.Recognition

namespace Rulebook

open Reader

variable {α β γ : Type}

/-! ## What can follow a word -/

/-- What makes a word of the language after another word. -/
def Language.after (L : Language α) (w : List Token) : Language α := fun v x => L (w ++ v) x

theorem Language.after_after (L : Language α) (v w : List Token) :
    (L.after v).after w = L.after (v ++ w) := by
  funext u x
  simp only [after, List.append_assoc]

/-- A word that begins with no name and no `=`. -/
def Completes (u : List Token) : Prop :=
  (nextKind u).isName = false ∧ nextKind u ≠ .operator .equal

theorem Completes.append {u v : List Token} (hu : Completes u) (hv : Completes v) :
    Completes (u ++ v) := by
  cases u with
  | nil => exact hv
  | cons t u => exact hu

/-- A language with a word that completes others. -/
def Completable (L : Language α) : Prop := ∃ u x, Completes u ∧ L u x

theorem Completable.mono {L : Language α} {L' : Language β} (h : Completable L)
    (hL : ∀ u x, Completes u → L u x → ∃ y, L' u y) : Completable L' := by
  obtain ⟨u, x, hu, hx⟩ := h
  obtain ⟨y, hy⟩ := hL u x hu hx
  exact ⟨u, y, hu, hy⟩

theorem completable_of_nil {L : Language α} {x : α} (h : L [] x) : Completable L :=
  ⟨[], x, ⟨rfl, by simp [nextKind]⟩, h⟩

/-- What completes a word can be completed further. -/
theorem Completable.after {K : Language α} {L : Language β} {w : List Token}
    (h : Completable (K.after w)) (hL : ∀ v x, K v x → Completable (L.after v)) :
    Completable (L.after w) := by
  obtain ⟨u, x, hu, hx⟩ := h
  obtain ⟨v, y, hv, hy⟩ := hL _ _ hx
  refine ⟨u ++ v, y, hu.append hv, ?_⟩
  rwa [Language.after, List.append_assoc] at hy

/-! ## Readers that point at the token of their error -/

/-- The reader reads words of the language, and fails where it must. -/
structure PointsAt (p q : Reader α) (L : Language α) (ts : List Token) : Prop where
  reads {x : α} {rest : List Token} : p ts = .ok (x, rest) →
    ∃ w, ts = w ++ rest ∧ L w x ∧
      ∀ rest', rest'.head? = rest.head? → q (w ++ rest') = .ok (x, rest')
  fails {e : ExpressionError} : p ts = .error e →
    ∃ w rest c, ts = w ++ rest ∧ e = (currentToken rest).error c ∧
      (e.cause.kind = .nestingTooDeep ∨ Completable (L.after w) ∧
        ∀ rest', rest'.head? = rest.head? → q (w ++ rest') = .error e)

theorem head?_append_of_head? (w : List Token) {ts ts' : List Token}
    (h : ts'.head? = ts.head?) : (w ++ ts').head? = (w ++ ts).head? := by
  rw [List.head?_append, List.head?_append, h]

theorem currentToken_of_head? {ts ts' : List Token} (h : ts'.head? = ts.head?) :
    currentToken ts' = currentToken ts := by
  rw [currentToken, currentToken, List.headD_eq_head?_getD, List.headD_eq_head?_getD, h]

theorem nextKind_of_head? {ts ts' : List Token} (h : ts'.head? = ts.head?) :
    nextKind ts' = nextKind ts := by
  rw [nextKind, nextKind, currentToken_of_head? h]

section
variable {p q : Reader α} {K L : Language α} {ts : List Token}

theorem PointsAt.mono (h : PointsAt p q K ts) (hL : ∀ w x, K w x → L w x) :
    PointsAt p q L ts where
  reads hp := by
    obtain ⟨w, hts, hx, hq⟩ := h.reads hp
    exact ⟨w, hts, hL _ _ hx, hq⟩
  fails hp := by
    obtain ⟨w, rest, c, hts, he, hwhy⟩ := h.fails hp
    refine ⟨w, rest, c, hts, he, hwhy.imp_right fun ⟨hc, hq⟩ => ⟨?_, hq⟩⟩
    exact hc.mono fun u x _ hx => ⟨x, hL _ _ hx⟩

/-- What is read is read with more room. -/
theorem PointsAt.reads_more {y : α × List Token} (h : PointsAt p q L ts) (hp : p ts = .ok y) :
    q ts = .ok y := by
  obtain ⟨w, rfl, -, hq⟩ := h.reads hp
  exact hq y.2 rfl

/-- What fails, short of the limit on nesting, fails with more room. -/
theorem PointsAt.fails_more {e : ExpressionError} (h : PointsAt p q L ts)
    (hp : p ts = .error e) (he : e.cause.kind ≠ .nestingTooDeep) : q ts = .error e := by
  obtain ⟨w, rest, c, rfl, -, hdeep | ⟨-, hq⟩⟩ := h.fails hp
  · exact absurd hdeep he
  · exact hq rest rfl

/-- Readers that do the same at a token point at the same token. -/
theorem PointsAt.congr {p' q' : Reader α} (h : PointsAt p q L ts) (hp : p' ts = p ts)
    (hq : ∀ ts', ts'.head? = ts.head? → q' ts' = q ts') : PointsAt p' q' L ts where
  reads hp' := by
    obtain ⟨w, rfl, hx, hread⟩ := h.reads (hp ▸ hp')
    refine ⟨w, rfl, hx, fun rest' hrest => ?_⟩
    rw [hq _ (head?_append_of_head? w hrest), hread rest' hrest]
  fails hp' := by
    obtain ⟨w, rest, c, rfl, he, hwhy⟩ := h.fails (hp ▸ hp')
    refine ⟨w, rest, c, rfl, he, hwhy.imp_right fun ⟨hc, hfail⟩ => ⟨hc, fun rest' hrest => ?_⟩⟩
    rw [hq _ (head?_append_of_head? w hrest), hfail rest' hrest]

theorem pointsAt_give {x : α} (h : L [] x) : PointsAt (give x) (give x) L ts where
  reads hp := by
    cases hp
    exact ⟨[], rfl, h, fun _ _ => rfl⟩
  fails hp := by cases hp

theorem pointsAt_failing (h : Completable L) (c : Token → Cause) :
    PointsAt (failing c) (failing c) L ts where
  reads hp := by cases hp
  fails hp := by
    cases hp
    refine ⟨[], ts, c (currentToken ts), rfl, rfl, .inr ⟨h, fun rest' hrest => ?_⟩⟩
    rw [List.nil_append, failing, currentToken_of_head? hrest]

theorem pointsAt_tooDeep (limit : ℕ) :
    PointsAt (failing fun _ => .nestedTooDeep limit) q L ts where
  reads hp := by cases hp
  fails hp := by
    cases hp
    exact ⟨[], ts, _, rfl, rfl, .inl rfl⟩

/-- A token that is gone past stands at the front of the word. -/
theorem PointsAt.cons {p' q' : Reader α} {t : Token} (h : PointsAt p q (L.after [t]) ts)
    (hp : p' (t :: ts) = p ts) (hq : ∀ ts', q' (t :: ts') = q ts') :
    PointsAt p' q' L (t :: ts) where
  reads hp' := by
    obtain ⟨w, rfl, hx, hread⟩ := h.reads (hp ▸ hp')
    exact ⟨t :: w, rfl, hx, fun rest' hrest => (hq _).trans (hread rest' hrest)⟩
  fails hp' := by
    obtain ⟨w, rest, c, rfl, he, hwhy⟩ := h.fails (hp ▸ hp')
    rw [Language.after_after] at hwhy
    exact ⟨t :: w, rest, c, rfl, he, hwhy.imp_right fun ⟨hc, hfail⟩ =>
      ⟨hc, fun rest' hrest => (hq _).trans (hfail rest' hrest)⟩⟩

/-- Going past a token, or reading something else. -/
theorem pointsAt_taking {f : TokenKind → Option γ} {p p' : Token → γ → Reader α}
    {q q' : Reader α} (hf : f .finish = none)
    (hsome : ∀ t c rest, ts = t :: rest → f t.kind = some c →
      PointsAt (p t c) (p' t c) (L.after [t]) rest)
    (hnone : f (nextKind ts) = none → PointsAt q q' L ts) :
    PointsAt (taking f p q) (taking f p' q') L ts := by
  have htake : ∀ (p : Token → γ → Reader α) (q : Reader α) {ts : List Token},
      f (nextKind ts) = none → taking f p q ts = q ts := by
    intro p q ts h
    cases ts with
    | nil => rfl
    | cons t rest =>
      rw [nextKind_cons] at h
      simp only [taking, h]
  cases h : f (nextKind ts) with
  | none =>
    refine (hnone h).congr (htake p q h) fun ts' hts => htake p' q' ?_
    rwa [nextKind_of_head? hts]
  | some c =>
    cases ts with
    | nil =>
      rw [show nextKind [] = .finish from rfl, hf] at h
      cases h
    | cons t rest =>
      rw [nextKind_cons] at h
      refine (hsome t c rest rfl h).cons ?_ fun ts' => ?_
      · simp only [taking, h]
      · simp only [taking, h]

/-- Going past a token of one kind, or reading something else. -/
theorem pointsAt_taking_is {kind : TokenKind} {p p' : Token → Unit → Reader α}
    {q q' : Reader α} (hkind : kind ≠ .finish)
    (hyes : ∀ t rest, ts = t :: rest → t.kind = kind →
      PointsAt (p t ()) (p' t ()) (L.after [t]) rest)
    (hno : nextKind ts ≠ kind → PointsAt q q' L ts) :
    PointsAt (taking (is kind) p q) (taking (is kind) p' q') L ts := by
  refine pointsAt_taking (if_neg hkind.symm) (fun t c rest hts hc => ?_) fun h => ?_
  · refine hyes t rest hts ?_
    by_contra hne
    rw [is, if_neg hne] at hc
    cases hc
  · refine hno fun hk => ?_
    rw [is, if_pos hk] at h
    cases h

theorem pointsAt_expecting {kind : TokenKind} (hkind : kind ≠ .finish) (c : Cause)
    (hL : Completable L)
    (h : ∀ t rest, ts = t :: rest → t.kind = kind → PointsAt p q (L.after [t]) rest) :
    PointsAt (expecting kind c p) (expecting kind c q) L ts :=
  pointsAt_taking_is hkind h fun _ => pointsAt_failing hL _

theorem PointsAt.stopping {stops : TokenKind → Bool} {x : α} (hx : L [] x)
    (h : stops (nextKind ts) = false → PointsAt p q L ts) :
    PointsAt (stopping stops x p) (stopping stops x q) L ts := by
  cases hs : stops (nextKind ts) with
  | true =>
    refine (pointsAt_give hx).congr ?_ fun ts' hts => ?_
    · rw [Reader.stopping, if_pos hs, give]
    · rw [Reader.stopping, nextKind_of_head? hts, if_pos hs, give]
  | false =>
    refine (h hs).congr ?_ fun ts' hts => ?_
    · rw [Reader.stopping, if_neg (by simp [hs])]
    · rw [Reader.stopping, nextKind_of_head? hts, if_neg (by simp [hs])]

/-- Reading one thing after another. What completes the first must be completed
    further, and the second is read with the first before it. -/
theorem PointsAt.andThen {next next' : α → Reader β} {M : Language β}
    (h : PointsAt p q K ts) (hK : ∀ w x, K w x → Completable (M.after w))
    (hnext : ∀ w x rest, ts = w ++ rest → p ts = .ok (x, rest) → K w x →
      PointsAt (next x) (next' x) (M.after w) rest) :
    PointsAt (p.andThen next) (q.andThen next') M ts where
  reads {y left} hp := by
    rw [Reader.andThen, bind_eq_ok] at hp
    obtain ⟨⟨x, rest⟩, hx, hy⟩ := hp
    obtain ⟨w, hts, hw, hq⟩ := h.reads hx
    obtain ⟨v, rfl, hv, hq'⟩ := (hnext w x rest hts hx hw).reads hy
    refine ⟨w ++ v, by rw [hts, List.append_assoc], hv, fun rest' hrest => ?_⟩
    rw [Reader.andThen, List.append_assoc, hq _ (head?_append_of_head? v hrest), ok_bind]
    exact hq' rest' hrest
  fails {e} hp := by
    rw [Reader.andThen] at hp
    cases hx : p ts with
    | error e' =>
      -- the first fails: what completes its word is completed further
      rw [hx, error_bind] at hp
      cases hp
      obtain ⟨w, rest, c, hts, he, hwhy⟩ := h.fails hx
      refine ⟨w, rest, c, hts, he, hwhy.imp_right fun ⟨hc, hq⟩ =>
        ⟨hc.after hK, fun rest' hrest => ?_⟩⟩
      rw [Reader.andThen, hq rest' hrest, error_bind]
    | ok xr =>
      obtain ⟨x, rest⟩ := xr
      rw [hx, ok_bind] at hp
      obtain ⟨w, hts, hw, hq⟩ := h.reads hx
      obtain ⟨v, left, c, rfl, he, hwhy⟩ := (hnext w x rest hts hx hw).fails hp
      rw [Language.after_after] at hwhy
      refine ⟨w ++ v, left, c, by rw [hts, List.append_assoc], he,
        hwhy.imp_right fun ⟨hc, hq'⟩ => ⟨hc, fun rest' hrest => ?_⟩⟩
      rw [Reader.andThen, List.append_assoc, hq _ (head?_append_of_head? v hrest), ok_bind]
      exact hq' rest' hrest

/-- Reading one thing and making something of it. -/
theorem PointsAt.andGive {f : α → β} {M : Language β} (h : PointsAt p q K ts)
    (hM : ∀ w x, K w x → M w (f x)) :
    PointsAt (p.andThen fun x => give (f x)) (q.andThen fun x => give (f x)) M ts := by
  have hdone : ∀ w x, K w x → M.after w [] (f x) := by
    intro w x hx
    rw [Language.after, List.append_nil]
    exact hM w x hx
  exact h.andThen (fun w x hx => completable_of_nil (hdone w x hx))
    fun w x _ _ _ hx => pointsAt_give (hdone w x hx)

end

/-- After a token and what is read behind it less is left than before. -/
theorem length_lt_of_read {rest left : List Token} {r : ReadingResult α rest.length} {x : α}
    (h : outcome r = .ok (x, left)) {t : Token} {n : ℕ} (hn : (t :: rest).length < n + 1) :
    left.length < n := by
  have := length_lt_of_outcome h
  simp only [List.length_cons] at hn
  omega

/-! ## Expressions -/

/-- A token of a kind, at no place in particular. -/
def someToken (k : TokenKind) : Token := { Token.unplacedFinish with kind := k }

theorem completable_of_token {L : Language α} {x : α} (k : TokenKind) {v : List Token}
    (hk : k.isName = false ∧ k ≠ .operator .equal) (h : L (someToken k :: v) x) : Completable L :=
  ⟨someToken k :: v, x, hk, h⟩

/-- The literal that stands for any expression or statement. -/
def nullToken : Token := someToken (.keyword .null_)

/-- What the levels of the grammar need of the frames inside. -/
structure PointsFrames (inner inner' : Inner) (L : Frame → Language Node) : Prop where
  frame (f : Frame) (ts : List Token) : PointsAt (reader (inner f)) (reader (inner' f)) (L f) ts
  null (f : Frame) : ∃ x, L f [nullToken] x
  /-- After an open statement no `ELSE` is left. -/
  closed {ts x rest} : outcome (inner .statement ts) = .ok (x, rest) → x.isOpen = true →
    nextKind rest ≠ .keyword .else_
  /-- An expression does not fail at a name with which it begins. -/
  named {t : Token} : t.kind.isName = true →
    (∀ ts e, outcome (inner .expression (t :: ts)) = .error e →
      e.cause.kind = .nestingTooDeep) ∨ ∃ x, outcome (inner' .expression [t]) = .ok (x, [])

/-- The arguments of a call with the parenthesis that closes them. -/
def CallArguments (expression : Language Node) : Language (List Node) := fun w xs =>
  ∃ v r, w = v ++ [r] ∧ r.kind = .rightParen ∧
    (v = [] ∧ xs = [] ∨ Separated .comma expression v xs)

section
variable {inner inner' : Inner} {L : Frame → Language Node} (h : PointsFrames inner inner' L)
include h

/-- The arguments after the first are pointed at as what makes more of them. -/
theorem pointsAt_moreArguments : ∀ (n : ℕ) {ts : List Token}, ts.length < n →
    ∀ {w : List Token} {x : Node}, L .expression w x →
      PointsAt (reader (moreArguments inner)) (reader (moreArguments inner'))
        (fun v xs => Separated .comma (L .expression) (w ++ v) (x :: xs)) ts := by
  -- by the number of tokens: an argument leaves fewer than stood before its comma
  intro n
  induction n with
  | zero => exact fun hn => absurd hn (Nat.not_lt_zero _)
  | succ n ih =>
    intro ts hn w x hx
    rw [reader_moreArguments inner, reader_moreArguments inner']
    refine pointsAt_taking_is (by simp) (fun t rest hts ht => ?_) fun _ => pointsAt_give ?_
    · subst hts
      refine (h.frame .expression rest).andThen (fun v y hy => ?_) fun v y left _ hread hy => ?_
      · exact completable_of_nil (x := [y]) (by simpa [Language.after] using .more hx ht (.one hy))
      · exact (ih (length_lt_of_read hread hn) hy).andGive fun u ys hys =>
          Separated.more hx ht hys
    · simpa using Separated.one hx

theorem pointsAt_callArguments (ts : List Token) :
    PointsAt (reader (callArguments inner)) (reader (callArguments inner'))
      (CallArguments (L .expression)) ts := by
  have hclose : ∀ {w xs} (r : Token), Separated .comma (L .expression) w xs →
      r.kind = .rightParen → CallArguments (L .expression) (w ++ [r]) xs :=
    fun r hxs hr => ⟨_, r, rfl, hr, .inr hxs⟩
  have hviable : ∀ {w xs}, Separated .comma (L .expression) w xs →
      Completable ((CallArguments (L .expression)).after w) := fun hxs =>
    completable_of_token .rightParen (by decide) (hclose _ hxs rfl)
  rw [reader_callArguments inner, reader_callArguments inner']
  refine pointsAt_taking_is (by simp) (fun t rest hts ht => pointsAt_give ?_) fun _ => ?_
  · exact ⟨[], t, rfl, ht, .inl ⟨rfl, rfl⟩⟩
  · refine (h.frame .expression ts).andThen (fun w x hx => hviable (.one hx))
      fun w x rest _ _ hx => ?_
    refine (pointsAt_moreArguments h _ (Nat.lt_succ_self _) hx).andThen
      (fun v xs hxs => ?_) fun v xs left _ _ hxs => ?_
    · rw [Language.after_after]
      exact hviable hxs
    · rw [Language.after_after]
      refine pointsAt_expecting (by simp) _ (hviable hxs) fun r _ _ hr => pointsAt_give ?_
      exact hclose r hxs hr

theorem pointsAt_nameOrCall {t : Token} {n : String} (ht : t.kind = .name n)
    (ts : List Token) :
    PointsAt (reader (nameOrCall inner n t.position)) (reader (nameOrCall inner' n t.position))
      ((Primary L).after [t]) ts := by
  have hcall : ∀ {l : Token} {w xs}, l.kind = .leftParen →
      CallArguments (L .expression) w xs →
      Primary L (t :: l :: w) (.call n xs t.position) := by
    rintro l w xs hl ⟨v, r, rfl, hr, ⟨rfl, rfl⟩ | hxs⟩
    · exact .emptyCall ht hl hr
    · exact .call ht hl hr hxs
  rw [reader_nameOrCall inner, reader_nameOrCall inner']
  refine pointsAt_taking_is (by simp) (fun l rest _ hl => ?_) fun _ => pointsAt_give ?_
  · exact (pointsAt_callArguments h rest).andGive fun w xs hxs => hcall hl hxs
  · exact .reference ht

theorem pointsAt_primary (ts : List Token) :
    PointsAt (reader (primary inner)) (reader (primary inner')) (Primary L) ts := by
  rw [reader_primary inner, reader_primary inner']
  refine pointsAt_taking rfl (fun t v rest _ hv => pointsAt_give (.literal hv)) fun _ => ?_
  refine pointsAt_taking rfl (fun t n rest _ hn => ?_) fun _ => ?_
  · exact pointsAt_nameOrCall h (TokenKind.name?_eq_some.1 hn) rest
  refine pointsAt_taking_is (by simp) (fun l rest _ hl => ?_) fun _ => pointsAt_failing ?_ _
  · have hviable : ∀ {w x}, L .expression w x →
        Completable (((Primary L).after [l]).after w) := fun hx =>
      completable_of_token .rightParen (by decide) (.group hl rfl hx)
    refine (h.frame .expression rest).andThen (fun w x => hviable) fun w x _ _ _ hx => ?_
    refine pointsAt_expecting (by simp) _ (hviable hx) fun r _ _ hr => pointsAt_give ?_
    simpa [Language.after] using Primary.group hl hr hx
  · exact completable_of_token (.keyword .null_) (by decide) (.literal rfl)

theorem pointsAt_unaryOperation (ts : List Token) :
    PointsAt (reader (unaryOperation inner)) (reader (unaryOperation inner')) (Unary L) ts := by
  rw [reader_unaryOperation inner, reader_unaryOperation inner']
  refine pointsAt_taking rfl (fun t op rest _ hop => ?_) fun _ => ?_
  · exact (h.frame .operand rest).andGive fun w x hx => Unary.operation hop hx
  · exact (pointsAt_primary h ts).mono fun _ _ => .primary

theorem pointsAt_powerOperation (ts : List Token) :
    PointsAt (reader (powerOperation inner)) (reader (powerOperation inner')) (Power L) ts := by
  rw [reader_powerOperation inner, reader_powerOperation inner']
  refine (pointsAt_unaryOperation h ts).andThen (fun w x hx => ?_) fun w x rest _ _ hx => ?_
  · exact completable_of_nil (by simpa [Language.after] using Power.base hx)
  refine pointsAt_taking_is (by simp) (fun t left _ ht => ?_) fun _ => pointsAt_give ?_
  · exact (h.frame .exponent left).andGive fun v y hy => Power.power hx ht hy
  · simpa [Language.after] using Power.base hx

end

section
variable {tier : Tier} {p p' : Parser Node} {K : Language Node}
  (h : ∀ ts, PointsAt (reader p) (reader p') K ts)
include h

/-- The rest of a chain is pointed at as what the chain goes on with. -/
theorem pointsAt_chainFrom : ∀ (n : ℕ) {ts : List Token}, ts.length < n →
    ∀ {w : List Token} {x : Node}, Chain tier K w x →
      PointsAt (reader (chainFrom tier p x)) (reader (chainFrom tier p' x))
        ((Chain tier K).after w) ts := by
  -- by the number of tokens, for every chain that is read so far
  intro n
  induction n with
  | zero => exact fun hn => absurd hn (Nat.not_lt_zero _)
  | succ n ih =>
    intro ts hn w x hx
    rw [reader_chainFrom tier p, reader_chainFrom tier p']
    refine pointsAt_taking rfl (fun t op rest hts hop => ?_) fun _ => pointsAt_give ?_
    · subst hts
      refine (h rest).andThen (fun v y hy => ?_) fun v y left _ hread hy => ?_
      · exact completable_of_nil (by simpa [Language.after] using Chain.step hx hop hy)
      · rw [Language.after_after, Language.after_after]
        simpa using ih (length_lt_of_read hread hn) (hx.step hop hy)
    · simpa [Language.after] using hx

theorem pointsAt_chain (ts : List Token) :
    PointsAt (reader (chain tier p)) (reader (chain tier p')) (Chain tier K) ts := by
  rw [reader_chain tier p, reader_chain tier p']
  refine (h ts).andThen (fun w x hx => ?_) fun w x rest _ _ hx => ?_
  · exact completable_of_nil (by simpa [Language.after] using Chain.single hx)
  · exact pointsAt_chainFrom h _ (Nat.lt_succ_self _) (.single hx)

end

theorem pointsAt_tiers {inner inner' : Inner} {L : Frame → Language Node}
    (h : PointsFrames inner inner' L) (ts : List Token) :
    PointsAt (reader (tiers inner)) (reader (tiers inner')) (Expression L) ts :=
  pointsAt_chain (pointsAt_chain <| pointsAt_chain <| pointsAt_chain <| pointsAt_chain <|
    pointsAt_chain <| pointsAt_powerOperation h) ts

end Rulebook
