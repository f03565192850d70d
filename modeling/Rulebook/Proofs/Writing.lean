/-
  Writing — what is written is scanned as the words of the tree.

  * `Node.kindsIn`: the words of a tree, as `Node.textIn` writes them.
  * `Spells cs ks`: the text `cs` is scanned as tokens of the kinds `ks`, whatever
    follows, as long as it separates words.
  * `Node.IsTerm.spells`, `Node.IsCommand.spells`, `Node.IsCommand.spells_render`:
    the text of an expression, of a statement and of a script spells its words.
  * `Spells.tokenize`: a text that spells words is tokenized as these.
-/
import Rulebook.Proofs.Trees

namespace Rulebook

/-! ## The words of a tree -/

/-- Words with a separator between each two. -/
def joinedKinds (separator : TokenKind) : List (List TokenKind) → List TokenKind
  | [] => []
  | [w] => w
  | w :: rest => w ++ separator :: joinedKinds separator rest

mutual

/-- The words of a node as the left operand of an operator of `tier`. -/
def Node.kindsIn (tier : Option Tier) : Node → List TokenKind
  | .literal v _ => [v.literalKind]
  | .reference n _ => [.name n]
  | .unary o x _ => .leftParen :: o.kind :: (x.kindsIn none ++ [.rightParen])
  | .binary o l r _ =>
    let operation := l.kindsIn o.tier? ++ o.kind :: r.kindsIn none
    if tier.isSome && o.tier? = tier then operation else .leftParen :: (operation ++ [.rightParen])
  | .call n xs _ => .name n :: .leftParen :: (joinedKinds .comma (kindsAll xs) ++ [.rightParen])
  | .when c t _ => .keyword .if_ :: (c.kindsIn none ++ .keyword .then_ :: t.kindsIn none)
  | .choice c t e _ =>
    .keyword .if_ :: (c.kindsIn none ++ .keyword .then_ ::
      (t.kindsIn none ++ .keyword .else_ :: e.kindsIn none))
  | .loop c b _ => .keyword .while_ :: (c.kindsIn none ++ .keyword .do_ :: b.kindsIn none)
  | .sequence xs _ =>
    .keyword .begin_ :: (joinedKinds .semicolon (kindsAll xs) ++ [.keyword .end_])
  | .assignment n x _ => .name n :: .operator .equal :: x.kindsIn none
  | .log x _ => .keyword .log_ :: x.kindsIn none
termination_by structural x => x

/-- The words of several nodes. -/
def kindsAll : List Node → List (List TokenKind)
  | [] => []
  | x :: xs => x.kindsIn none :: kindsAll xs
termination_by structural xs => xs

end

/-- The words of a node on its own. -/
def Node.kinds (x : Node) : List TokenKind := x.kindsIn none

/-- The words of a script. -/
def Node.scriptKinds : Node → List TokenKind
  | .sequence (x :: y :: rest) _ => joinedKinds .semicolon (kindsAll (x :: y :: rest))
  | x => x.kinds

/-! ## Texts that spell words -/

/-- A text that is scanned as these kinds, before anything that separates. -/
def Spells (cs : List Char) (ks : List TokenKind) : Prop :=
  ∀ rest ks', Separates rest → Scans rest ks' → Scans (cs ++ rest) (ks ++ ks')

namespace Spells

section
variable {cs ds : List Char} {ks ls : List TokenKind}

theorem literal {v : Value} (hv : v.IsWritable) : Spells (literalText v).toList [v.literalKind] :=
  fun _ _ hsep h => .literal hv hsep h

theorem name {n : String} (hn : IsName n) : Spells n.toList [.name n] :=
  fun _ _ hsep h => .name hn hsep.no_name h

theorem keyword (k : Keyword) : Spells k.word.toList [.keyword k] :=
  fun _ _ hsep h => .keyword k hsep.no_name h

/-- Two texts, the second of which begins with a separator. -/
theorem append (h : Spells cs ks) {d : Char} (hd : isSeparator d = true)
    (h' : Spells (d :: ds) ls) : Spells (cs ++ d :: ds) (ks ++ ls) := by
  intro rest ks' hsep hrest
  rw [List.append_assoc, List.append_assoc]
  exact h _ _ (separates_cons hd _) (h' rest ks' hsep hrest)

theorem space (h : Spells cs ks) : Spells (' ' :: cs) ks :=
  fun rest ks' hsep hrest => (h rest ks' hsep hrest).blank isBlank_space

/-- A symbol of its own before a text. -/
theorem symbol {c : Char} {k : TokenKind} (hc : 0x21 ≤ c.toNat ∧ c.toNat < 0x80)
    (hpair : ∀ d, pairSymbol? c d = none) (hk : symbol? c = some k) (h : Spells cs ks) :
    Spells (c :: cs) (k :: ks) :=
  fun rest ks' hsep hrest =>
    .single (isBlank_eq_false hc.1 hc.2) (fun d _ => hpair d) hk (h rest ks' hsep hrest)

theorem nil : Spells [] [] := fun _ _ _ h => h

theorem leftParen (h : Spells cs ks) : Spells ('(' :: cs) (.leftParen :: ks) :=
  h.symbol (by decide) (fun _ => rfl) rfl

theorem rightParen : Spells [')'] [.rightParen] :=
  nil.symbol (by decide) (fun _ => rfl) rfl

/-- A text with a parenthesis that closes it. -/
theorem close (h : Spells cs ks) : Spells (cs ++ [')']) (ks ++ [.rightParen]) :=
  h.append rfl rightParen

/-- A word and a space before a text. -/
theorem word (k : Keyword) (h : Spells cs ks) :
    Spells (k.word.toList ++ ' ' :: cs) (.keyword k :: ks) :=
  (keyword k).append rfl h.space

/-- A word in spaces between two texts. -/
theorem between (h : Spells cs ks) (k : Keyword) (h' : Spells ds ls) :
    Spells (cs ++ ' ' :: (k.word.toList ++ ' ' :: ds)) (ks ++ .keyword k :: ls) :=
  h.append rfl (word k h').space

theorem mark {op : UnaryOperator} (hop : ∀ s, op ≠ .other s) (h : Spells cs ks) :
    Spells (op.mark.toList ++ cs) (op.kind :: ks) := by
  intro rest ks' hsep hrest
  rw [List.append_assoc]
  exact .mark hop (h rest ks' hsep hrest)

/-- An operator between its operands. -/
theorem operation (h : Spells cs ks) (op : BinaryOperator) (hop : ∀ s, op ≠ .other s)
    (h' : Spells ds ls) :
    Spells (cs ++ ' ' :: (op.symbol.toList ++ ' ' :: ds)) (ks ++ op.kind :: ls) := by
  refine h.append rfl (space ?_)
  intro rest ks' hsep hrest
  rw [List.append_assoc, List.cons_append]
  exact .operator hop (h' rest ks' hsep hrest)

end

/-- Several texts with a separator and a space between each two. -/
theorem joined {c : Char} {k : TokenKind} {separator : String}
    (hseparator : separator.toList = [c, ' ']) (hc : isSeparator c = true)
    (hsymbol : ∀ {cs ks}, Spells cs ks → Spells (c :: cs) (k :: ks)) :
    ∀ xs : List Node, (∀ x ∈ xs, Spells x.text.toList x.kinds) →
      Spells (joined separator (textAll xs)).toList (joinedKinds k (kindsAll xs))
  | [], _ => nil
  | [x], h => h x (by simp)
  | x :: y :: xs, h => by
    have hrest := joined hseparator hc hsymbol (y :: xs) fun z hz => h z (by simp [hz])
    have happend : (Rulebook.joined separator (textAll (x :: y :: xs))).toList =
        x.text.toList ++ c :: ' ' :: (Rulebook.joined separator (textAll (y :: xs))).toList := by
      simp [textAll, Rulebook.joined, hseparator, Node.text]
    rw [happend]
    exact (h x (by simp)).append hc (hsymbol hrest.space)

theorem arguments {xs : List Node} (h : ∀ x ∈ xs, Spells x.text.toList x.kinds) :
    Spells (Rulebook.joined ", " (textAll xs)).toList (joinedKinds .comma (kindsAll xs)) :=
  joined rfl rfl (fun h => h.symbol (by decide) (fun _ => rfl) rfl) xs h

theorem statements {xs : List Node} (h : ∀ x ∈ xs, Spells x.text.toList x.kinds) :
    Spells (Rulebook.joined "; " (textAll xs)).toList (joinedKinds .semicolon (kindsAll xs)) :=
  joined rfl rfl (fun h => h.symbol (by decide) (fun _ => rfl) rfl) xs h

/-- A block of statements. -/
theorem block {xs : List Node} (h : ∀ x ∈ xs, Spells x.text.toList x.kinds) :
    Spells (blockText (textAll xs)).toList
      (.keyword .begin_ :: (joinedKinds .semicolon (kindsAll xs) ++ [.keyword .end_])) := by
  cases xs with
  | nil => exact word .begin_ (keyword .end_)
  | cons x xs =>
    have htext : (blockText (textAll (x :: xs))).toList = Keyword.begin_.word.toList ++ ' ' ::
        ((Rulebook.joined "; " (textAll (x :: xs))).toList ++
          ' ' :: Keyword.end_.word.toList) := by
      simp [blockText, textAll, Keyword.word]
    rw [htext]
    exact word .begin_ ((statements h).append rfl (keyword .end_).space)

end Spells

/-! ## The text of a tree -/

/-- **The text of an expression spells its words.** -/
theorem Node.IsTerm.spellsIn {x : Node} (h : x.IsTerm) :
    ∀ tier, Spells (x.textIn tier).toList (x.kindsIn tier) := by
  induction h with
  | literal hv => exact fun _ => .literal hv
  | reference hn => exact fun _ => .name hn
  | @unary op x p hop _ ih =>
    intro tier
    have htext : ((Node.unary op x p).textIn tier).toList =
        '(' :: (op.mark.toList ++ (x.text.toList ++ [')'])) := by
      simp [textIn, text]
    rw [htext]
    exact ((ih none).close.mark hop).leftParen
  | @binary op l r p hop _ _ ihl ihr =>
    intro tier
    have hoperation := (ihl op.tier?).operation op hop (ihr none)
    rw [textIn, kindsIn]
    split
    · simpa using hoperation
    · simpa using hoperation.close.leftParen
  | @call n xs p hn _ ih =>
    intro tier
    have htext : ((Node.call n xs p).textIn tier).toList =
        n.toList ++ '(' :: ((joined ", " (textAll xs)).toList ++ [')']) := by
      simp [textIn]
    rw [htext]
    exact (Spells.name hn).append rfl (Spells.arguments fun x hx => ih x hx none).close.leftParen

theorem Node.IsTerm.spells {x : Node} (h : x.IsTerm) : Spells x.text.toList x.kinds :=
  h.spellsIn none

/-- **The text of a statement spells its words.** -/
theorem Node.IsCommand.spells {x : Node} (h : x.IsCommand) : Spells x.text.toList x.kinds := by
  induction h with
  | expression hx => exact hx.spells
  | when hc _ ih => simpa [text, textIn] using .word .if_ (hc.spells.between .then_ ih)
  | choice hc _ _ iht ihe =>
    simpa [text, textIn] using
      .word .if_ (hc.spells.between .then_ (iht.between .else_ ihe))
  | loop hc _ ih => simpa [text, textIn] using .word .while_ (hc.spells.between .do_ ih)
  | sequence _ ih => exact .block ih
  | @assignment n x p hn hx =>
    have htext : (Node.assignment n x p).text.toList =
        n.toList ++ ' ' :: (BinaryOperator.equal.symbol.toList ++ ' ' :: x.text.toList) := by
      simp [text, textIn, BinaryOperator.symbol]
    rw [htext]
    exact (Spells.name hn).operation .equal (by simp) hx.spells
  | log hx => simpa [text, textIn] using .word .log_ hx.spells

/-- Two or more statements, which a script holds without `BEGIN` and `END`. -/
def Node.IsSeries (x : Node) : Prop := ∃ y z rest p, x = .sequence (y :: z :: rest) p

theorem Node.render_eq_text {x : Node} (h : ¬ x.IsSeries) : x.render = x.text := by
  unfold render
  split
  · exact absurd ⟨_, _, _, _, rfl⟩ h
  · rfl

theorem Node.scriptKinds_eq_kinds {x : Node} (h : ¬ x.IsSeries) : x.scriptKinds = x.kinds := by
  unfold scriptKinds
  split
  · exact absurd ⟨_, _, _, _, rfl⟩ h
  · rfl

/-- **The text of a script spells its words.** -/
theorem Node.IsCommand.spells_render {x : Node} (h : x.IsCommand) :
    Spells x.render.toList x.scriptKinds := by
  by_cases hseries : x.IsSeries
  · obtain ⟨y, z, rest, p, rfl⟩ := hseries
    cases h with
    | expression h => cases h
    | sequence hxs => exact .statements fun x hx => (hxs x hx).spells
  · rw [render_eq_text hseries, scriptKinds_eq_kinds hseries]
    exact h.spells

theorem Spells.tokenize {source : String} {ks : List TokenKind} (h : Spells source.toList ks) :
    ∃ w e, tokenize source = .ok (w ++ [e]) ∧ w.map (·.kind) = ks ∧ e.kind = .finish := by
  refine Scans.tokenize ?_
  simpa using h [] [] separates_nil .finish

end Rulebook
