/-
  Settling — the tree that the text of a statement is read as.

  * `Node.attachElse`: an `ELSE` and its branch go to the nearest `IF` that is still
    without one.
  * `Node.settle`: every `ELSE` that an open branch would take goes there. This gives
    a settled tree with the same words, and changes a tree that is not settled.
  * `parse_render_settle`: the text of a statement is read as the settled tree.
  * `parse_render_iff_settled`: so it is read as the statement itself exactly if this
    is settled.
-/
import Rulebook.Proofs.RoundTrip

namespace Rulebook

/-! ## Where an `ELSE` goes -/

/-- A node behind whose words stands an `ELSE` with a branch: the nearest `IF` that
    is still without one takes it. -/
def Node.attachElse : Node → Node → Node
  | .when c t p, e => if t.isOpen then .when c (t.attachElse e) p else .choice c t e p
  | .choice c t y p, e => .choice c t (y.attachElse e) p
  | .loop c b p, e => .loop c (b.attachElse e) p
  | x, _ => x
termination_by structural x => x

mutual

/-- The tree with every `ELSE` where its words put it. -/
def Node.settle : Node → Node
  | .when c t p => .when c t.settle p
  | .choice c t e p =>
    if t.settle.isOpen then .when c (t.settle.attachElse e.settle) p
    else .choice c t.settle e.settle p
  | .loop c b p => .loop c b.settle p
  | .sequence xs p => .sequence (settleAll xs) p
  | x => x
termination_by structural x => x

/-- Trees with every `ELSE` where its words put it. -/
def settleAll : List Node → List Node
  | [] => []
  | x :: xs => x.settle :: settleAll xs
termination_by structural xs => xs

end

theorem settleAll_eq_map (xs : List Node) : settleAll xs = xs.map Node.settle := by
  induction xs with
  | nil => rfl
  | cons x xs ih => rw [settleAll, ih, List.map_cons]

theorem forall_mem_settleAll {P : Node → Prop} {xs : List Node} :
    (∀ y ∈ settleAll xs, P y) ↔ ∀ x ∈ xs, P x.settle := by
  rw [settleAll_eq_map, List.forall_mem_map]

/-- An `IF` without an `ELSE` takes one, unless its branch does. -/
theorem Node.attachElse_when (c t e : Node) (p : Option ℕ) :
    (when c t p).attachElse e =
      if t.isOpen then .when c (t.attachElse e) p else .choice c t e p := rfl

/-- An `IF` keeps its `ELSE`, unless its branch takes it. -/
theorem Node.settle_choice (c t e : Node) (p : Option ℕ) :
    (choice c t e p).settle =
      if t.settle.isOpen then .when c (t.settle.attachElse e.settle) p
      else .choice c t.settle e.settle p := rfl

/-- An expression has no `ELSE`. -/
theorem Node.IsTerm.settle {x : Node} (h : x.IsTerm) : x.settle = x := by
  cases h <;> rfl

/-! ## Settled trees -/

section
variable {c t e x : Node} {xs : List Node} {n : String} {p : Option ℕ}

@[simp] theorem Node.isSettled_when : (Node.when c t p).IsSettled ↔ c.IsSettled ∧ t.IsSettled := by
  rw [isSettled_iff]
  simp [keepsElse, children]

@[simp] theorem Node.isSettled_choice : (Node.choice c t e p).IsSettled ↔
    t.isOpen = false ∧ c.IsSettled ∧ t.IsSettled ∧ e.IsSettled := by
  rw [isSettled_iff]
  simp [keepsElse, children]

@[simp] theorem Node.isSettled_loop : (Node.loop c t p).IsSettled ↔ c.IsSettled ∧ t.IsSettled := by
  rw [isSettled_iff]
  simp [keepsElse, children]

@[simp] theorem Node.isSettled_sequence :
    (Node.sequence xs p).IsSettled ↔ ∀ x ∈ xs, x.IsSettled := by
  rw [isSettled_iff]
  simp [keepsElse, children]

@[simp] theorem Node.isSettled_assignment : (Node.assignment n x p).IsSettled ↔ x.IsSettled := by
  rw [isSettled_iff]
  simp [keepsElse, children]

@[simp] theorem Node.isSettled_log : (Node.log x p).IsSettled ↔ x.IsSettled := by
  rw [isSettled_iff]
  simp [keepsElse, children]

end

theorem Node.IsTerm.isSettled {x : Node} (h : x.IsTerm) : x.IsSettled :=
  isSettled_of_isExpression h.isExpression

/-- An `ELSE` at the nearest `IF` is where it stays. -/
theorem Node.IsSettled.attachElse {x e : Node} (hx : x.IsSettled) (he : e.IsSettled) :
    (x.attachElse e).IsSettled := by
  induction x, e using Node.attachElse.induct with
  | case1 c t p e hopen ih =>
    obtain ⟨hc, ht⟩ := isSettled_when.1 hx
    rw [attachElse_when, if_pos hopen]
    exact isSettled_when.2 ⟨hc, ih ht he⟩
  | case2 c t p e hopen =>
    obtain ⟨hc, ht⟩ := isSettled_when.1 hx
    rw [attachElse_when, if_neg hopen]
    exact isSettled_choice.2 ⟨by simpa using hopen, hc, ht, he⟩
  | case3 c t y p e ih =>
    obtain ⟨hclosed, hc, ht, hy⟩ := isSettled_choice.1 hx
    exact isSettled_choice.2 ⟨hclosed, hc, ht, ih hy he⟩
  | case4 c b p e ih =>
    obtain ⟨hc, hb⟩ := isSettled_loop.1 hx
    exact isSettled_loop.2 ⟨hc, ih hb he⟩
  | case5 x e hwhen hchoice hloop =>
    rwa [Node.attachElse]
    exacts [hwhen, hchoice, hloop]

theorem Node.IsCommand.attachElse {x e : Node} (hx : x.IsCommand) (he : e.IsCommand) :
    (x.attachElse e).IsCommand := by
  induction hx with
  | @expression x hx =>
    have hsame : x.attachElse e = x := by cases hx <;> rfl
    exact hsame.symm ▸ .expression hx
  | @when c t p hc ht ih =>
    rw [attachElse_when]
    split_ifs
    exacts [.when hc ih, .choice hc ht he]
  | choice hc ht _ _ ih => exact .choice hc ht ih
  | loop hc _ ih => exact .loop hc ih
  | sequence hxs => exact .sequence hxs
  | assignment hn hx => exact .assignment hn hx
  | log hx => exact .log hx

theorem Node.IsCommand.settle {x : Node} (h : x.IsCommand) : x.settle.IsCommand := by
  induction h with
  | expression hx => exact .expression (hx.settle.symm ▸ hx)
  | when hc _ ih => exact .when hc ih
  | choice hc _ _ iht ihe =>
    rw [settle_choice]
    split_ifs
    exacts [.when hc (iht.attachElse ihe), .choice hc iht ihe]
  | loop hc _ ih => exact .loop hc ih
  | sequence _ ih => exact .sequence (forall_mem_settleAll.2 ih)
  | assignment hn hx => exact .assignment hn hx
  | log hx => exact .log hx

/-- **Settling settles.** -/
theorem Node.IsCommand.isSettled_settle {x : Node} (h : x.IsCommand) : x.settle.IsSettled := by
  induction h with
  | @expression x hx => exact hx.settle.symm ▸ hx.isSettled
  | when hc _ ih => exact isSettled_when.2 ⟨hc.isSettled, ih⟩
  | choice hc _ _ iht ihe =>
    rw [settle_choice]
    split_ifs with hopen
    · exact isSettled_when.2 ⟨hc.isSettled, iht.attachElse ihe⟩
    · exact isSettled_choice.2 ⟨by simpa using hopen, hc.isSettled, iht, ihe⟩
  | loop hc _ ih => exact isSettled_loop.2 ⟨hc.isSettled, ih⟩
  | sequence _ ih => exact isSettled_sequence.2 (forall_mem_settleAll.2 ih)
  | assignment _ hx => exact isSettled_assignment.2 hx.isSettled
  | log hx => exact isSettled_log.2 hx.isSettled

/-- Settling keeps settled trees. -/
theorem Node.IsCommand.settle_eq {x : Node} (h : x.IsCommand) :
    x.IsSettled → x.settle = x := by
  induction h with
  | expression hx => exact fun _ => hx.settle
  | when _ _ ih =>
    intro hs
    exact congrArg (Node.when _ · _) (ih (isSettled_when.1 hs).2)
  | choice _ _ _ iht ihe =>
    intro hs
    obtain ⟨hclosed, -, ht, he⟩ := isSettled_choice.1 hs
    rw [settle_choice, iht ht, ihe he, hclosed]
    rfl
  | loop _ _ ih =>
    intro hs
    exact congrArg (Node.loop _ · _) (ih (isSettled_loop.1 hs).2)
  | sequence _ ih =>
    intro hs
    refine congrArg (Node.sequence · _) ?_
    have hsame := List.map_congr_left fun x hx => ih x hx (isSettled_sequence.1 hs x hx)
    rw [settleAll_eq_map, hsame, List.map_id']
  | assignment | log => exact fun _ => rfl

theorem bareAll_settleAll {xs : List Node} (h : bareAll (settleAll xs) = bareAll xs) :
    ∀ x ∈ xs, x.settle.bare = x.bare := by
  induction xs with
  | nil => simp
  | cons x xs ih =>
    rw [settleAll, bareAll, bareAll, List.cons.injEq] at h
    exact List.forall_mem_cons.2 ⟨h.1, ih h.2⟩

/-- Settling changes every other tree. -/
theorem Node.IsCommand.isSettled_of_settle {x : Node} (h : x.IsCommand) :
    x.settle.bare = x.bare → x.IsSettled := by
  induction h with
  | expression hx => exact fun _ => hx.isSettled
  | when hc _ ih =>
    intro hsame
    exact isSettled_when.2 ⟨hc.isSettled, ih (when.inj hsame).2.1⟩
  | choice hc _ _ iht ihe =>
    intro hsame
    rw [settle_choice] at hsame
    split_ifs at hsame with hopen
    · -- the branch has taken the `ELSE`, and the `IF` has lost it
      cases hsame
    · obtain ⟨-, ht, he, -⟩ := choice.inj hsame
      have hclosed := isOpen_eq_of_bare ht
      rw [Bool.eq_false_of_not_eq_true hopen] at hclosed
      exact isSettled_choice.2 ⟨hclosed.symm, hc.isSettled, iht ht, ihe he⟩
  | loop hc _ ih =>
    intro hsame
    exact isSettled_loop.2 ⟨hc.isSettled, ih (loop.inj hsame).2.1⟩
  | sequence _ ih =>
    intro hsame
    exact isSettled_sequence.2 fun x hx => ih x hx (bareAll_settleAll (sequence.inj hsame).1 x hx)
  | assignment _ hx => exact fun _ => isSettled_assignment.2 hx.isSettled
  | log hx => exact fun _ => isSettled_log.2 hx.isSettled

/-! ## The words stay -/

theorem Node.kinds_attachElse {x : Node} (h : x.isOpen = true) (e : Node) :
    (x.attachElse e).kinds = x.kinds ++ .keyword .else_ :: e.kinds := by
  induction x, e using Node.attachElse.induct with
  | case1 c t p e hopen ih =>
    rw [attachElse_when, if_pos hopen]
    simpa [kinds, kindsIn] using ih hopen
  | case2 c t p e hopen =>
    rw [attachElse_when, if_neg hopen]
    simp [kinds, kindsIn]
  | case3 c t y p e ih => simpa [kinds, kindsIn, attachElse] using ih h
  | case4 c b p e ih => simpa [kinds, kindsIn, attachElse] using ih h
  | case5 x e hwhen hchoice hloop =>
    cases x with
    | when c t p => exact (hwhen c t p rfl).elim
    | choice c t y p => exact (hchoice c t y p rfl).elim
    | loop c b p => exact (hloop c b p rfl).elim
    | _ => cases h

theorem kindsAll_settleAll {xs : List Node} (h : ∀ x ∈ xs, x.settle.kinds = x.kinds) :
    kindsAll (settleAll xs) = kindsAll xs := by
  induction xs with
  | nil => rfl
  | cons x xs ih =>
    obtain ⟨hx, hxs⟩ := List.forall_mem_cons.1 h
    rw [settleAll, kindsAll, kindsAll, ih hxs]
    exact congrArg (· :: _) hx

/-- **A settled tree has the words of the tree that was settled.** -/
theorem Node.IsCommand.kinds_settle {x : Node} (h : x.IsCommand) : x.settle.kinds = x.kinds := by
  induction h with
  | expression hx => rw [hx.settle]
  | when _ _ ih => simpa [Node.settle, kinds, kindsIn] using ih
  | choice _ _ _ iht ihe =>
    rw [settle_choice]
    split_ifs with hopen
    · have hattached := kinds_attachElse hopen
      simp only [kinds] at hattached iht ihe
      simp [kinds, kindsIn, hattached, iht, ihe]
    · simp only [kinds] at iht ihe
      simp [kinds, kindsIn, iht, ihe]
  | loop _ _ ih => simpa [Node.settle, kinds, kindsIn] using ih
  | sequence _ ih => simp only [Node.settle, kinds, kindsIn, kindsAll_settleAll ih]
  | assignment | log => rfl

/-- What is a series when settled was one before. -/
theorem Node.IsCommand.isSeries_of_settle {x : Node} (h : x.IsCommand)
    (hseries : x.settle.IsSeries) : x.IsSeries := by
  obtain ⟨y, z, rest, p, heq⟩ := hseries
  cases h with
  | expression hx => exact ⟨y, z, rest, p, hx.settle.symm.trans heq⟩
  | choice =>
    rw [settle_choice] at heq
    split_ifs at heq
  | @sequence xs q hxs =>
    rw [Node.settle, settleAll_eq_map, sequence.injEq] at heq
    obtain ⟨y', ys, rfl, -, heq'⟩ := List.map_eq_cons_iff.1 heq.1
    obtain ⟨z', zs, rfl, -, -⟩ := List.map_eq_cons_iff.1 heq'
    exact ⟨y', z', zs, q, rfl⟩
  | _ => cases heq

theorem Node.IsCommand.scriptKinds_settle {x : Node} (h : x.IsCommand) :
    x.settle.scriptKinds = x.scriptKinds := by
  by_cases hseries : x.IsSeries
  · obtain ⟨y, z, rest, p, rfl⟩ := hseries
    cases h with
    | expression h => cases h
    | sequence hxs =>
      exact congrArg (joinedKinds .semicolon)
        (kindsAll_settleAll fun x hx => (hxs x hx).kinds_settle)
  · have hsettled : ¬ x.settle.IsSeries := fun hs => hseries (h.isSeries_of_settle hs)
    rw [scriptKinds_eq_kinds hseries, scriptKinds_eq_kinds hsettled, h.kinds_settle]

/-! ## The text of a statement -/

/-- The text of a statement is read as the settled tree, under every limit that
    allows its depth. -/
theorem parse_render_settle {x : Node} (h : x.IsCommand) {m : ℕ}
    (hm : x.settle.scriptDepth ≤ m) :
    ∃ y, parse .script m x.render = .ok y ∧ y.bare = x.settle.bare := by
  obtain ⟨w, e, hw, hkinds, he⟩ := h.spells_render.tokenize
  have hrereads := h.settle.rereads_script h.isSettled_settle hm
  rw [h.scriptKinds_settle] at hrereads
  obtain ⟨y, hy, hbare⟩ := hrereads w hkinds
  exact ⟨y, parse_eq_ok_iff.2 ⟨_, hw, derives_iff.2 ⟨w, e, rfl, he, hy⟩⟩, hbare⟩

/-- **A statement is read back from its text exactly if it is settled.** Under every
    limit from some one on the text of a statement is read; it gives the statement
    again if no branch before an `ELSE` is open, and another one if some is. -/
theorem parse_render_iff_settled {x : Node} (h : x.IsCommand) :
    ∃ bound, ∀ m, bound ≤ m → ∃ y, parse .script m x.render = .ok y ∧
      (y.bare = x.bare ↔ x.IsSettled) := by
  refine ⟨x.settle.scriptDepth, fun m hm => ?_⟩
  obtain ⟨y, hy, hbare⟩ := parse_render_settle h hm
  refine ⟨y, hy, ?_⟩
  rw [hbare]
  exact ⟨h.isSettled_of_settle, fun hs => by rw [h.settle_eq hs]⟩

/-- An `IF` without `ELSE` in a loop, in the first branch of an `IF` with one. -/
def loopedWhen : Node :=
  .choice (.reference "a" none)
    (.loop (.reference "b" none) (.when (.reference "c" none) (.log (.literal .null none) none) none)
      none)
    (.log (.literal (.text "else") none) none) none

/-- The `ELSE` of the outer `IF` goes to the one in the loop. -/
theorem loopedWhen_reattached :
    loopedWhen.IsCommand ∧ loopedWhen.render =
        "IF a THEN WHILE b DO IF c THEN LOG NULL ELSE LOG \"else\"" ∧
      ∃ bound, ∀ m, bound ≤ m → ∃ y, parse .script m loopedWhen.render = .ok y ∧
        y.bare ≠ loopedWhen.bare := by
  have ha : IsName "a" := ⟨⟨'a', [], rfl, rfl, by simp⟩, by decide⟩
  have hb : IsName "b" := ⟨⟨'b', [], rfl, rfl, by simp⟩, by decide⟩
  have hc : IsName "c" := ⟨⟨'c', [], rfl, rfl, by simp⟩, by decide⟩
  have hlog : ∀ v : Value, v.IsWritable → (Node.log (.literal v none) none).IsCommand :=
    fun v hv => .log (.literal hv)
  have hcommand : loopedWhen.IsCommand :=
    .choice (.reference ha) (.loop (.reference hb) (.when (.reference hc) (hlog .null trivial)))
      (hlog (.text "else") trivial)
  have hunsettled : ¬ loopedWhen.IsSettled := by
    rw [loopedWhen, Node.isSettled_choice]
    simp [Node.isOpen]
  obtain ⟨bound, hbound⟩ := parse_render_iff_settled hcommand
  refine ⟨hcommand, by decide +kernel, bound, fun m hm => ?_⟩
  obtain ⟨y, hy, hiff⟩ := hbound m hm
  exact ⟨y, hy, fun hsame => hunsettled (hiff.1 hsame)⟩

end Rulebook
