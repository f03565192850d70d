/-
  Modes — what an expression is when it is read as a script.

  * `Unassigning L`: no word of the language begins with a name and `=`. The operands of
    `=` are of such languages.
  * `Resuming L`: where a word of the language begins with a name and `=`, what stands
    behind these is a word of it too; `Phrase.resuming`: expressions are of such a language,
    with no more nesting.
  * `expression_as_script`: a text that is an expression is a script of the same tree, but
    for a name and `=` in front, which make it an assignment of the rest.
-/
import Rulebook.Proofs.Acceptance
import Rulebook.Proofs.Readers

namespace Rulebook

/-! ## A name and `=` in front -/

/-- No word begins with a name and `=`. -/
def Unassigning (L : Language Node) : Prop := ∀ w x, L w x → startsAssignment w = false

/-- Behind a name and `=` a word goes on as one. -/
def Resuming (L : Language Node) : Prop :=
  ∀ w x, L w x → startsAssignment w = true → ∃ y, L (w.drop 2) y

/-- A name and `=` in front of a word stand before a token in it that is no name, unless
    this token is the `=`. -/
theorem startsAssignment_append_cons {w v : List Token} {t : Token} (ht : t.kind.isName = false)
    (h : startsAssignment (w ++ t :: v) = true) :
    startsAssignment w = true ∨ (∃ n, w = [n]) ∧ t.kind = .operator .equal := by
  match w, h with
  | [], h =>
    cases v with
    | nil => cases h
    | cons s v => simp [startsAssignment, ht] at h
  | [n], h =>
    simp only [List.singleton_append, startsAssignment, Bool.and_eq_true, decide_eq_true_eq] at h
    exact .inr ⟨⟨n, rfl⟩, h.2⟩
  | _ :: _ :: _, h => exact .inl h

theorem drop_of_startsAssignment {w : List Token} (h : startsAssignment w = true)
    (v : List Token) : (w ++ v).drop 2 = w.drop 2 ++ v := by
  match w, h with
  | _ :: _ :: _, _ => rfl

theorem isName_of_tierOperator? {k : TokenKind} {tier : Tier} {op : BinaryOperator}
    (h : k.tierOperator? tier = some op) : k.isName = false := by
  cases k with
  | name n => cases h
  | _ => rfl

theorem tier_of_equal {k : TokenKind} {tier : Tier} {op : BinaryOperator}
    (hk : k = .operator .equal) (h : k.tierOperator? tier = some op) : tier = .equality := by
  subst hk
  cases tier <;> first | rfl | cases h

/-! ## Operands of `=` -/

section
variable {inner : Frame → Language Node}

theorem unassigning_unary : Unassigning (Unary inner) := by
  intro w x h
  cases h with
  | primary hp =>
    cases hp with
    | literal | reference => rfl
    | emptyCall _ hl _ => simp [startsAssignment, hl]
    | call _ hl _ _ => simp [startsAssignment, hl]
    | @group l r w x hl _ _ =>
      have hname : l.kind.isName = false := by rw [hl]; rfl
      cases w <;> simp [startsAssignment, hname]
  | @operation t op w x hop _ =>
    have hname : t.kind.isName = false := by
      cases hk : t.kind <;> simp_all [TokenKind.unary?, TokenKind.isName]
    cases w <;> simp [startsAssignment, hname]

theorem unassigning_power : Unassigning (Power inner) := by
  intro w x h
  cases h with
  | base hx => exact unassigning_unary _ _ hx
  | @power w x t v y hx ht _ =>
    have hname : t.kind.isName = false := by rw [ht]; rfl
    rw [Bool.eq_false_iff]
    intro hstarts
    rcases startsAssignment_append_cons hname hstarts with hw | ⟨-, hequal⟩
    · rw [unassigning_unary _ _ hx] at hw
      cases hw
    · rw [ht] at hequal
      cases hequal

end

variable {tier : Tier} {L : Language Node}

theorem Unassigning.chain (htier : tier ≠ .equality) (hL : Unassigning L) :
    Unassigning (Chain tier L) := by
  intro w x h
  induction h with
  | single hx => exact hL _ _ hx
  | step _ hop _ ih =>
    rw [Bool.eq_false_iff]
    intro hstarts
    rcases startsAssignment_append_cons (isName_of_tierOperator? hop) hstarts with hw | ⟨-, hequal⟩
    · rw [ih] at hw
      cases hw
    · exact htier (tier_of_equal hequal hop)

/-! ## Behind a name and `=` -/

/-- Behind a name and `=` a chain of such operators goes on: the name is its first operand. -/
theorem Unassigning.resuming (hL : Unassigning L) : Resuming (Chain .equality L) := by
  intro w x h
  induction h with
  | single hx =>
    intro hstarts
    rw [hL _ _ hx] at hstarts
    cases hstarts
  | @step w x t op v y _ hop hy ih =>
    intro hstarts
    rcases startsAssignment_append_cons (isName_of_tierOperator? hop) hstarts with hw |
      ⟨⟨n, rfl⟩, -⟩
    · obtain ⟨z, hz⟩ := ih hw
      rw [drop_of_startsAssignment hw]
      exact ⟨_, hz.step hop hy⟩
    · exact ⟨y, .single hy⟩

/-- A chain of other operators goes on where its first operand does. -/
theorem Resuming.chain (htier : tier ≠ .equality) (hL : Resuming L) :
    Resuming (Chain tier L) := by
  intro w x h
  induction h with
  | single hx =>
    intro hstarts
    obtain ⟨y, hy⟩ := hL _ _ hx hstarts
    exact ⟨y, .single hy⟩
  | @step w x t op v y _ hop hy ih =>
    intro hstarts
    rcases startsAssignment_append_cons (isName_of_tierOperator? hop) hstarts with hw |
      ⟨-, hequal⟩
    · obtain ⟨z, hz⟩ := ih hw
      rw [drop_of_startsAssignment hw]
      exact ⟨_, hz.step hop hy⟩
    · exact absurd (tier_of_equal hequal hop) htier

theorem Phrase.resuming (n : ℕ) : Resuming (Phrase n .expression) := by
  intro w x h
  cases n with
  | zero => exact h.elim
  | succ n =>
    have hrelation : Unassigning (Chain .relation <| Chain .sum <| Chain .product <|
        Power (Phrase n)) :=
      .chain (by decide) <| .chain (by decide) <| .chain (by decide) unassigning_power
    have hwhole : Resuming (Expression (Phrase n)) :=
      .chain (by decide) <| .chain (by decide) hrelation.resuming
    exact hwhole w x h

/-! ## Whole texts -/

/-- **An expression is a script of the same tree, one level deeper, unless it begins with a
    name and `=`.** Then the rest behind these is an expression, within the same nesting, and
    the script assigns it to the name. -/
theorem expression_as_script {n : ℕ} {source : String} {x : Node}
    (h : parse .expression n source = .ok x) :
    ∃ ts, tokenize source = .ok ts ∧
      (startsAssignment ts = false ∧ parse .script (n + 1) source = .ok x ∨
        ∃ t sign rest name y, ts = t :: sign :: rest ∧ t.kind = .name name ∧
          sign.kind = .operator .equal ∧ parseTokens .expression n rest = .ok y ∧
          parse .script (n + 1) source = .ok (.assignment name y t.position)) := by
  obtain ⟨ts, hts, hderives⟩ := parse_eq_ok_iff.1 h
  obtain ⟨w, e, rfl, he, hx⟩ := derives_expression_iff.1 hderives
  -- a single statement is the script
  have hscript : ∀ {y}, Phrase (n + 1) .statement w y → parse .script (n + 1) source = .ok y :=
    fun hy => parse_eq_ok_iff.2 ⟨_, hts, .script (.last hy) he⟩
  have hend : ¬ (nextKind [e]).continuesExpression := by
    simp [TokenKind.continuesExpression, he, TokenKind.binary?]
  obtain ⟨first, v, hw, -⟩ := Phrase.begins hx
  refine ⟨w ++ [e], hts, ?_⟩
  cases hstarts : startsAssignment w with
  | false =>
    have hfalse : startsAssignment (w ++ [e]) = false :=
      startsAssignment_append_eq_false hstarts (by simp [hw]) hend
    exact .inl ⟨hfalse, hscript (Statement.expression hstarts hx)⟩
  | true =>
    obtain ⟨y, hy⟩ := Phrase.resuming n w x hx hstarts
    obtain ⟨t, name, sign, rest, rfl, hname, hsign⟩ := exists_name_of_startsAssignment hstarts
    have hrest : parseTokens .expression n (rest ++ [e]) = .ok y :=
      (parseTokens_eq_ok_iff (Phrase.endless hy) he).2 (.expression hy he)
    exact .inr ⟨t, sign, rest ++ [e], name, y, rfl, hname, hsign, hrest,
      hscript (Statement.assignment hname hsign hy)⟩

/-- An equation with more behind it, spelled with `==`. -/
theorem equation_as_assignment :
    ∃ x y, parse .expression 2 "x == a - -1 AND b" = .ok x ∧
      parse .script 3 "x == a - -1 AND b" = .ok (.assignment "x" y (some 0)) := by
  have hok : (parse .expression 2 "x == a - -1 AND b").isOk := by decide +kernel
  have htokens : tokenize "x == a - -1 AND b" = .ok (scan "x == a - -1 AND b").1 := by
    decide +kernel
  have hstarts : startsAssignment (scan "x == a - -1 AND b").1 = true := by decide +kernel
  have hfirst : (scan "x == a - -1 AND b").1.head? = some ⟨.name "x", 0, 1, 1, "x"⟩ := by
    decide +kernel
  cases hx : parse .expression 2 "x == a - -1 AND b" with
  | error e =>
    rw [hx] at hok
    cases hok
  | ok x =>
    obtain ⟨ts, hts, ⟨hfalse, -⟩ | ⟨t, sign, rest, name, y, hsplit, hname, -, -, hscript⟩⟩ :=
      expression_as_script hx
    · rw [htokens] at hts
      cases hts
      rw [hstarts] at hfalse
      cases hfalse
    · rw [htokens] at hts
      cases hts
      rw [hsplit, List.head?_cons] at hfirst
      cases hfirst
      cases hname
      exact ⟨x, y, rfl, hscript⟩

end Rulebook
