/-
  Round trip — a tree that was parsed is parsed again from its text.

  * `Phrase.isTerm`, `Phrase.isCommand`, `Phrase.isSettled`: what the grammar
    derives from the tokens of a text can be written, if its numbers are finite.
  * `Phrase.depth_le`: frames nested `n` deep derive trees whose texts nest at
    most `8 * n` deep: a frame holds the six tiers, `^` and itself.
  * `parse_render`: parsing the text of a parsed tree gives the tree again.
-/
import Rulebook.Proofs.Rereading

namespace Rulebook

/-! ## Tokens that can be written -/

/-- No infinite number. -/
def TokenKind.isFinite : TokenKind → Bool
  | .number x => Number.isFinite x
  | _ => true

/-- A kind that a text can hold, no infinite number. -/
def TokenKind.IsWritable (k : TokenKind) : Prop := k.Lexical ∧ k.isFinite = true

/-- Tokens of kinds that can be written. -/
def AllWritable (w : List Token) : Prop := ∀ t ∈ w, t.kind.IsWritable

theorem allWritable_cons {t : Token} {w : List Token} :
    AllWritable (t :: w) ↔ t.kind.IsWritable ∧ AllWritable w := List.forall_mem_cons

theorem allWritable_append {v w : List Token} :
    AllWritable (v ++ w) ↔ AllWritable v ∧ AllWritable w := List.forall_mem_append

theorem TokenKind.IsWritable.name {k : TokenKind} (h : k.IsWritable) {n : String}
    (hk : k = .name n) : IsName n := by
  subst hk
  exact h.1

theorem TokenKind.IsWritable.literal {k : TokenKind} (h : k.IsWritable) {v : Value}
    (hv : k.literal? = some v) : v.IsWritable := by
  unfold TokenKind.literal? at hv
  split at hv <;> cases hv
  · exact ⟨h.2, h.1⟩
  all_goals trivial

theorem TokenKind.unary?_ne_other {k : TokenKind} {op : UnaryOperator} (h : k.unary? = some op) :
    ∀ s, op ≠ .other s := by
  rintro s rfl
  unfold TokenKind.unary? at h
  split at h <;> cases h

theorem BinaryOperator.ne_other {op : BinaryOperator} {tier : Tier} (h : op.tier? = some tier) :
    ∀ s, op ≠ .other s := by
  rintro s rfl
  cases h

/-! ## Derived trees can be written -/

section
variable {L : Language Node} {w : List Token} {x : Node}

theorem Separated.isTerm {k : TokenKind} (hL : ∀ {w x}, L w x → AllWritable w → x.IsTerm)
    {xs : List Node} (h : Separated k L w xs) (hw : AllWritable w) : ∀ x ∈ xs, x.IsTerm := by
  induction h with
  | one hx => simpa using hL hx hw
  | more hx _ _ ih =>
    obtain ⟨hu, hv⟩ := allWritable_append.1 hw
    exact List.forall_mem_cons.2 ⟨hL hx hu, ih (allWritable_cons.1 hv).2⟩

theorem Chain.isTerm {tier : Tier} (hL : ∀ {w x}, L w x → AllWritable w → x.IsTerm)
    (h : Chain tier L w x) (hw : AllWritable w) : x.IsTerm := by
  induction h with
  | single hx => exact hL hx hw
  | step _ ht hy ih =>
    obtain ⟨hu, hv⟩ := allWritable_append.1 hw
    have hop := BinaryOperator.ne_other (TokenKind.tierOperator?_eq_some.1 ht).2
    exact .binary hop (ih hu) (hL hy (allWritable_cons.1 hv).2)

theorem Statements.isCommand (hL : ∀ {w x}, L w x → AllWritable w → x.IsCommand)
    {xs : List Node} (h : Statements L w xs) (hw : AllWritable w) : ∀ x ∈ xs, x.IsCommand := by
  induction h with
  | last hx => simpa using hL hx hw
  | lastEnded hx _ => simpa using hL hx (allWritable_append.1 hw).1
  | more hx _ _ ih =>
    obtain ⟨hu, hv⟩ := allWritable_append.1 hw
    exact List.forall_mem_cons.2 ⟨hL hx hu, ih (allWritable_cons.1 hv).2⟩

end

section
variable {inner : Frame → Language Node}
  (hinner : ∀ {f w x}, f ≠ .statement → inner f w x → AllWritable w → x.IsTerm)
  {w : List Token} {x : Node}
include hinner

theorem Primary.isTerm (h : Primary inner w x) (hw : AllWritable w) : x.IsTerm := by
  cases h with
  | literal hv => exact .literal ((allWritable_cons.1 hw).1.literal hv)
  | reference hn => exact .reference ((allWritable_cons.1 hw).1.name hn)
  | emptyCall hn => exact .call ((allWritable_cons.1 hw).1.name hn) (by simp)
  | call hn _ _ hxs =>
    simp only [allWritable_cons, allWritable_append] at hw
    exact .call (hw.1.name hn) (hxs.isTerm (hinner (by simp)) hw.2.2.1)
  | group _ _ hx =>
    simp only [allWritable_cons, allWritable_append] at hw
    exact hinner (by simp) hx hw.2.1

theorem Unary.isTerm (h : Unary inner w x) (hw : AllWritable w) : x.IsTerm := by
  cases h with
  | primary hx => exact hx.isTerm hinner hw
  | operation ht hx =>
    exact .unary (TokenKind.unary?_ne_other ht) (hinner (by simp) hx (allWritable_cons.1 hw).2)

theorem Power.isTerm (h : Power inner w x) (hw : AllWritable w) : x.IsTerm := by
  cases h with
  | base hx => exact hx.isTerm hinner hw
  | power hx _ hy =>
    obtain ⟨hu, hv⟩ := allWritable_append.1 hw
    exact .binary (by simp) (hx.isTerm hinner hu) (hinner (by simp) hy (allWritable_cons.1 hv).2)

theorem Expression.isTerm (h : Expression inner w x) (hw : AllWritable w) : x.IsTerm := by
  unfold Expression at h
  exact h.isTerm (Chain.isTerm <| Chain.isTerm <| Chain.isTerm <| Chain.isTerm <| Chain.isTerm <|
    Power.isTerm hinner) hw

theorem Statement.isCommand
    (hstatement : ∀ {w x}, inner .statement w x → AllWritable w → x.IsCommand)
    (h : Statement inner w x) (hw : AllWritable w) : x.IsCommand := by
  have hexpression : ∀ {w x}, inner .expression w x → AllWritable w → x.IsTerm :=
    hinner (by simp)
  cases h with
  | when _ hc _ ht =>
    simp only [allWritable_cons, allWritable_append] at hw
    exact .when (hexpression hc hw.2.1) (hstatement ht hw.2.2.2)
  | choice _ hc _ ht _ _ he =>
    simp only [allWritable_cons, allWritable_append] at hw
    exact .choice (hexpression hc hw.2.1) (hstatement ht hw.2.2.2.1) (hstatement he hw.2.2.2.2.2)
  | loop _ hc _ hb =>
    simp only [allWritable_cons, allWritable_append] at hw
    exact .loop (hexpression hc hw.2.1) (hstatement hb hw.2.2.2)
  | log _ hx => exact .log (hexpression hx (allWritable_cons.1 hw).2)
  | emptyBlock => exact .sequence (by simp)
  | block _ hxs _ =>
    simp only [allWritable_cons, allWritable_append] at hw
    exact .sequence (hxs.isCommand hstatement hw.2.1)
  | assignment hn _ hx =>
    simp only [allWritable_cons] at hw
    exact .assignment (hw.1.name hn) (hexpression hx hw.2.2)
  | expression _ hx => exact .expression (hexpression hx hw)

end

theorem Phrase.isTerm {n : ℕ} : ∀ {f : Frame} {w : List Token} {x : Node}, f ≠ .statement →
    Phrase n f w x → AllWritable w → x.IsTerm := by
  induction n with
  | zero => exact fun _ h => h.elim
  | succ n ih =>
    intro f w x hf h
    cases f with
    | statement => exact absurd rfl hf
    | expression => exact Expression.isTerm ih h
    | operand => exact Unary.isTerm ih h
    | exponent => exact Power.isTerm ih h

theorem Phrase.isCommand {n : ℕ} : ∀ {w : List Token} {x : Node},
    Phrase n .statement w x → AllWritable w → x.IsCommand := by
  induction n with
  | zero => exact fun h => h.elim
  | succ n ih => exact Statement.isCommand Phrase.isTerm ih

/-! ## Derived trees are settled -/

theorem Statements.forall_mem {L : Language Node} {P : Node → Prop} (hL : ∀ {w x}, L w x → P x)
    {w : List Token} {xs : List Node} (h : Statements L w xs) : ∀ x ∈ xs, P x := by
  induction h with
  | last hx | lastEnded hx => simpa using hL hx
  | more hx _ _ ih => exact List.forall_mem_cons.2 ⟨hL hx, ih⟩

theorem Statement.isSettled {inner : Frame → Language Node}
    (hexpression : ∀ {w x}, inner .expression w x → x.IsSettled)
    (hstatement : ∀ {w x}, inner .statement w x → x.IsSettled) {w : List Token} {x : Node}
    (h : Statement inner w x) : x.IsSettled := by
  refine Node.isSettled_iff.2 ?_
  cases h with
  | when _ hc _ ht =>
    exact ⟨rfl, by simpa [Node.children] using ⟨hexpression hc, hstatement ht⟩⟩
  | choice _ hc _ ht hopen _ he =>
    refine ⟨by simp [Node.keepsElse, hopen], ?_⟩
    simpa [Node.children] using ⟨hexpression hc, hstatement ht, hstatement he⟩
  | loop _ hc _ hb =>
    exact ⟨rfl, by simpa [Node.children] using ⟨hexpression hc, hstatement hb⟩⟩
  | log _ hx => exact ⟨rfl, by simpa [Node.children] using hexpression hx⟩
  | emptyBlock => exact ⟨rfl, by simp [Node.children]⟩
  | block _ hxs => exact ⟨rfl, hxs.forall_mem (P := Node.IsSettled) hstatement⟩
  | assignment _ _ hx => exact ⟨rfl, by simpa [Node.children] using hexpression hx⟩
  | expression _ hx => exact Node.isSettled_iff.1 (hexpression hx)

theorem Phrase.isSettled {n : ℕ} : ∀ {f : Frame} {w : List Token} {x : Node},
    Phrase n f w x → x.IsSettled := by
  have hterm : ∀ {n f w x}, f ≠ .statement → Phrase n f w x → x.IsSettled :=
    fun hf h => Node.isSettled_of_isExpression (Phrase.isExpression hf h)
  induction n with
  | zero => exact fun h => h.elim
  | succ n ih =>
    intro f w x h
    cases f with
    | statement => exact Statement.isSettled ih ih h
    | expression | operand | exponent => exact hterm (by simp) h

/-! ## Depth of derived trees -/

theorem Node.depthIn_binary {op : BinaryOperator} {tier : Tier} (h : op.tier? = some tier)
    (l r : Node) (p : Option ℕ) :
    (Node.binary op l r p).depthIn (some tier) =
      max (l.depthIn (some tier)) (r.depthIn none) := by
  have hne : op ≠ .power := by
    rintro rfl
    cases h
  simp [depthIn, h, BinaryOperator.depth, hne]

/-- A chain without parentheses of its own nests no deeper, one in parentheses
    one frame deeper. -/
theorem Node.depthIn_le (tier : Option Tier) (x : Node) :
    x.depthIn tier ≤ x.depthIn none ∧ x.depthIn none ≤ x.depthIn tier + 1 := by
  cases x with
  | binary op l r p =>
    simp only [depthIn]
    split <;> simp
  | _ => simp [depthIn]

section
variable {L : Language Node} {w : List Token} {x : Node} {bound : ℕ}

theorem Chain.depth_le {tier : Tier} (hL : ∀ {w x}, L w x → x.depthIn none ≤ bound)
    (h : Chain tier L w x) : x.depthIn none ≤ bound + 1 := by
  have htier : x.depthIn (some tier) ≤ bound := by
    induction h with
    | @single w x hx => exact (x.depthIn_le (some tier)).1.trans (hL hx)
    | @step w l t op v r _ ht hr ih =>
      rw [Node.depthIn_binary (TokenKind.tierOperator?_eq_some.1 ht).2]
      exact max_le ih (hL hr)
  exact (x.depthIn_le (some tier)).2.trans (Nat.succ_le_succ htier)

theorem Separated.depth_le {k : TokenKind} (hL : ∀ {w x}, L w x → x.depthIn none + 1 ≤ bound)
    {xs : List Node} (h : Separated k L w xs) : depthOfArguments xs ≤ bound := by
  induction h with
  | one hx => simpa [depthOfArguments] using hL hx
  | more hx _ _ ih => exact max_le (hL hx) ih

end

/-- How many frames a frame's tree nests when it is written: an operand and the
    expression of a statement are two frames more than their own words. -/
def Frame.depth : Frame → Node → Nat
  | .statement, x => x.depth
  | .expression, x => x.depthIn none + 1
  | .operand, x => x.depthIn none + 2
  | .exponent, x => x.depthIn none + 1

section
variable {inner : Frame → Language Node} {bound : ℕ}
  (hinner : ∀ {f w x}, inner f w x → f.depth x ≤ bound) {w : List Token} {x : Node}
include hinner

theorem Primary.depth_le (h : Primary inner w x) : x.depthIn none ≤ bound := by
  cases h with
  | literal | reference | emptyCall => exact Nat.zero_le _
  | call _ _ _ hxs => exact hxs.depth_le hinner
  | group _ _ hx => exact Nat.le_of_succ_le (hinner hx)

theorem Unary.depth_le (h : Unary inner w x) : x.depthIn none ≤ bound := by
  cases h with
  | primary hx => exact hx.depth_le hinner
  | operation _ hx => exact hinner hx

theorem Power.depth_le (h : Power inner w x) : x.depthIn none ≤ bound + 1 := by
  cases h with
  | base hx => exact Nat.le_succ_of_le (hx.depth_le hinner)
  | @power w l t v r hl _ hr =>
    have hdepth : max (l.depthIn none) (r.depthIn none + 1) ≤ bound :=
      max_le (hl.depth_le hinner) (hinner hr)
    exact Nat.succ_le_succ hdepth

theorem Expression.depth_le (h : Expression inner w x) : x.depthIn none ≤ bound + 7 := by
  unfold Expression at h
  exact h.depth_le <| Chain.depth_le <| Chain.depth_le <| Chain.depth_le <| Chain.depth_le <|
    Chain.depth_le <| Power.depth_le hinner

theorem Statement.depth_le (hterm : ∀ {w x}, inner .expression w x → x.isExpression = true)
    (h : Statement inner w x) : x.depth ≤ bound + 1 := by
  have hexpression : ∀ {w x}, inner .expression w x → x.depthIn none + 1 ≤ bound := hinner
  have hstatement : ∀ {w x}, inner .statement w x → x.depth ≤ bound := hinner
  cases h with
  | when _ hc _ ht => exact Nat.succ_le_succ (max_le (hexpression hc) (hstatement ht))
  | choice _ hc _ ht _ _ he =>
    exact Nat.succ_le_succ (max_le (hexpression hc) (max_le (hstatement ht) (hstatement he)))
  | loop _ hc _ hb => exact Nat.succ_le_succ (max_le (hexpression hc) (hstatement hb))
  | log _ hx => exact Nat.succ_le_succ (hexpression hx)
  | emptyBlock => exact Nat.succ_le_succ (Nat.zero_le _)
  | block _ hxs =>
    have hdepth := hxs.forall_mem (P := fun x => x.depth ≤ bound) hstatement
    exact Nat.succ_le_succ (depthOfStatements_le_iff.2 hdepth)
  | assignment _ _ hx => exact Nat.succ_le_succ (hexpression hx)
  | expression _ hx =>
    rw [Node.depth_of_isExpression (hterm hx)]
    exact Nat.succ_le_succ (hexpression hx)

end

/-- **Frames nested `n` deep are written at most `8 * n` deep.** -/
theorem Phrase.depth_le {n : ℕ} : ∀ {f : Frame} {w : List Token} {x : Node},
    Phrase n f w x → f.depth x ≤ 8 * n := by
  induction n with
  | zero => exact fun h => h.elim
  | succ n ih =>
    intro f w x h
    cases f with
    | statement =>
      have hdepth := Statement.depth_le ih (Phrase.isExpression (by simp)) h
      simp only [Frame.depth]
      omega
    | expression => exact Nat.succ_le_succ (Expression.depth_le ih h)
    | operand =>
      have hdepth := Unary.depth_le ih h
      simp only [Frame.depth]
      omega
    | exponent =>
      have hdepth := Power.depth_le ih h
      simp only [Frame.depth]
      omega

/-! ## The round trip -/

/-- A text all of whose numbers are finite. -/
def HasFiniteNumbers (source : String) : Prop :=
  ∀ t ∈ (scan source).1, t.kind.isFinite = true

instance (source : String) : Decidable (HasFiniteNumbers source) :=
  inferInstanceAs (Decidable (∀ t ∈ (scan source).1, t.kind.isFinite = true))

theorem HasFiniteNumbers.allWritable {source : String} (h : HasFiniteNumbers source)
    {w : List Token} {e : Token} (hw : tokenize source = .ok (w ++ [e])) : AllWritable w := by
  obtain ⟨w', e', heq, -, hlexical⟩ := tokenize_lexical hw
  obtain ⟨rfl, -⟩ := List.append_inj' heq rfl
  intro t ht
  refine ⟨hlexical t ht, h t ?_⟩
  rw [tokenize_eq_ok_iff.1 hw]
  exact List.mem_append_left [e] ht

theorem Statements.ne_nil {L : Language Node} {w : List Token} {xs : List Node}
    (h : Statements L w xs) : xs ≠ [] := by
  cases h <;> simp

theorem asScript_cases {xs : List Node} (h : xs ≠ []) :
    (∃ x, xs = [x] ∧ asScript xs = x) ∨
      ∃ x y rest, xs = x :: y :: rest ∧ asScript xs = .sequence xs x.position := by
  rcases xs with _ | ⟨x, _ | ⟨y, rest⟩⟩
  · exact absurd rfl h
  · exact .inl ⟨x, rfl, rfl⟩
  · exact .inr ⟨x, y, rest, rfl, rfl⟩

/-- What a whole text derives is a statement that its own text is read back as. -/
theorem ReadsAs.rereads {mode : Mode} {m n : ℕ} {w : List Token} {x : Node}
    (h : ReadsAs n mode w x) (hw : AllWritable w) (hm : 8 * n ≤ m) :
    x.IsCommand ∧ Rereads (ReadsAs m mode) x.scriptKinds x := by
  cases mode with
  | expression =>
    have hterm : x.IsTerm := Phrase.isTerm (by simp) h hw
    have hdepth : x.depthIn none + 1 ≤ 8 * n := Phrase.depth_le h
    have hkinds : x.scriptKinds = x.kinds := by cases hterm <;> rfl
    rw [hkinds]
    exact ⟨.expression hterm, hterm.rereads_expression (hdepth.trans hm)⟩
  | script =>
    obtain ⟨xs, hxs, rfl⟩ := h
    have hcommands : ∀ x ∈ xs, x.IsCommand := hxs.isCommand Phrase.isCommand hw
    have hsettled : ∀ x ∈ xs, x.IsSettled :=
      hxs.forall_mem (P := Node.IsSettled) Phrase.isSettled
    have hdepth : ∀ x ∈ xs, x.depth ≤ 8 * n :=
      hxs.forall_mem (P := fun x => x.depth ≤ 8 * n) Phrase.depth_le
    rcases asScript_cases hxs.ne_nil with ⟨x, rfl, hx⟩ | ⟨y, z, rest, rfl, hx⟩
    · rw [hx]
      have hcommand := hcommands x (by simp)
      exact ⟨hcommand, hcommand.rereads_script (hsettled x (by simp))
        (x.scriptDepth_le.trans ((hdepth x (by simp)).trans hm))⟩
    · rw [hx]
      have hcommand : (Node.sequence (y :: z :: rest) y.position).IsCommand := .sequence hcommands
      exact ⟨hcommand, hcommand.rereads_script (Node.isSettled_iff.2 ⟨rfl, hsettled⟩)
        ((depthOfStatements_le_iff.2 hdepth).trans hm)⟩

/-- **A parsed tree is parsed again from its text**, with eight times the nesting
    that it was parsed with, and it is the same up to offsets. -/
theorem parse_render {mode : Mode} {m n : ℕ} {source : String} {x : Node}
    (hsource : HasFiniteNumbers source) (h : parse mode n source = .ok x) (hm : 8 * n ≤ m) :
    ∃ y, parse mode m x.render = .ok y ∧ y.bare = x.bare := by
  obtain ⟨ts, hts, hx⟩ := parse_eq_ok_iff.1 h
  obtain ⟨w, e, rfl, he, hreads⟩ := derives_iff.1 hx
  obtain ⟨hcommand, hrereads⟩ := hreads.rereads (hsource.allWritable hts) hm
  obtain ⟨v, e', hv, hkinds, he'⟩ := hcommand.spells_render.tokenize
  obtain ⟨y, hy, hbare⟩ := hrereads v hkinds
  exact ⟨y, parse_eq_ok_iff.2 ⟨_, hv, derives_iff.2 ⟨v, e', rfl, he', hy⟩⟩, hbare⟩

/-- A script with numbers and a chain makes the round trip. -/
theorem conditional_reparsed :
    HasFiniteNumbers "IF a THEN b = a - 1.5 - 2 ELSE LOG NOT c" ∧
      ∃ x, parse .script 5 "IF a THEN b = a - 1.5 - 2 ELSE LOG NOT c" = .ok x ∧
        ∃ y, parse .script 40 x.render = .ok y ∧ y.bare = x.bare := by
  have hfinite : HasFiniteNumbers "IF a THEN b = a - 1.5 - 2 ELSE LOG NOT c" := by
    decide +kernel
  have hok : (parse .script 5 "IF a THEN b = a - 1.5 - 2 ELSE LOG NOT c").isOk := by
    decide +kernel
  refine ⟨hfinite, ?_⟩
  cases hx : parse .script 5 "IF a THEN b = a - 1.5 - 2 ELSE LOG NOT c" with
  | error e =>
    rw [hx] at hok
    cases hok
  | ok x => exact ⟨x, rfl, parse_render hfinite hx (by decide)⟩

end Rulebook
