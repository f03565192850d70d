/-
  Targets — which of the variables that rules assign can be read.

  * `Node.ReadsNames x`: the variables that a tree reads have names of the language;
    `readsNames_of_parse` says that every tree of a text does.
  * `IsNameLike cs`: the characters form a name or a keyword; `accepts_variable_iff` says
    that a key of assignments is so, perhaps with a line break behind it.
  * `ReadsItself t`, `Unread t`: the text `t` is an expression for the variable of that
    name, or nothing reads that variable; `readsItself_iff` and `unread_iff` say that it is
    the one or the other by whether `t` is a name.
  * `RuleFile.targets_readable`: what the rules of a file assign can be read but for
    keywords and names with a line break.
-/
import Rulebook.Proofs.Literals
import Rulebook.Proofs.Unquoted

namespace Rulebook

/-! ## The names that a tree reads -/

/-- Every variable that a tree reads has a name of the language. -/
def Node.ReadsNames (x : Node) : Prop := ∀ n ∈ x.referencedVariables, IsName n

theorem Node.readsNames_reference {n : String} {p : Option ℕ} (h : IsName n) :
    (Node.reference n p).ReadsNames := by
  intro m hm
  obtain ⟨q, hq⟩ := mem_referencedVariables.1 hm
  rcases mem_walk.1 hq with hq | ⟨z, hz, -⟩
  · cases hq
    exact h
  · simp [children] at hz

/-- A tree that is no variable reads what its children read. -/
theorem Node.readsNames_of_children {x : Node} (hx : ∀ n p, x ≠ .reference n p)
    (h : ∀ z ∈ x.children, z.ReadsNames) : x.ReadsNames := by
  intro n hn
  obtain ⟨p, hp⟩ := mem_referencedVariables.1 hn
  rcases mem_walk.1 hp with hp | ⟨z, hz, hp⟩
  · exact absurd hp.symm (hx n p)
  · exact h z hz n (mem_referencedVariables.2 ⟨p, hp⟩)

theorem lexical_cons {t : Token} {w : List Token} :
    Lexical (t :: w) ↔ t.kind.Lexical ∧ Lexical w := List.forall_mem_cons

theorem lexical_append {v w : List Token} : Lexical (v ++ w) ↔ Lexical v ∧ Lexical w :=
  List.forall_mem_append

section
variable {L : Language Node} (hL : ∀ {w x}, L w x → Lexical w → x.ReadsNames) {w : List Token}
include hL

theorem Separated.readsNames {k : TokenKind} {xs : List Node} (h : Separated k L w xs)
    (hw : Lexical w) : ∀ x ∈ xs, x.ReadsNames := by
  induction h with
  | one hx => simpa using hL hx hw
  | more hx _ _ ih =>
    obtain ⟨hu, hv⟩ := lexical_append.1 hw
    exact List.forall_mem_cons.2 ⟨hL hx hu, ih (lexical_cons.1 hv).2⟩

theorem Chain.readsNames {tier : Tier} {x : Node} (h : Chain tier L w x) (hw : Lexical w) :
    x.ReadsNames := by
  induction h with
  | single hx => exact hL hx hw
  | step _ _ hy ih =>
    obtain ⟨hu, hv⟩ := lexical_append.1 hw
    exact Node.readsNames_of_children (by simp)
      (by simpa [Node.children] using ⟨ih hu, hL hy (lexical_cons.1 hv).2⟩)

theorem Statements.readsNames {xs : List Node} (h : Statements L w xs) (hw : Lexical w) :
    ∀ x ∈ xs, x.ReadsNames := by
  induction h with
  | last hx => simpa using hL hx hw
  | lastEnded hx _ => simpa using hL hx (lexical_append.1 hw).1
  | more hx _ _ ih =>
    obtain ⟨hu, hv⟩ := lexical_append.1 hw
    exact List.forall_mem_cons.2 ⟨hL hx hu, ih (lexical_cons.1 hv).2⟩

end

section
variable {inner : Frame → Language Node}
  (hinner : ∀ {f w x}, inner f w x → Lexical w → x.ReadsNames) {w : List Token} {x : Node}
include hinner

theorem Primary.readsNames (h : Primary inner w x) (hw : Lexical w) : x.ReadsNames := by
  cases h with
  | literal => exact Node.readsNames_of_children (by simp) (by simp [Node.children])
  | @reference t n ht =>
    have hname : t.kind.Lexical := (lexical_cons.1 hw).1
    rw [ht] at hname
    exact Node.readsNames_reference hname
  | emptyCall => exact Node.readsNames_of_children (by simp) (by simp [Node.children])
  | call _ _ _ hxs =>
    simp only [lexical_cons, lexical_append] at hw
    exact Node.readsNames_of_children (by simp) (hxs.readsNames hinner hw.2.2.1)
  | group _ _ hx =>
    simp only [lexical_cons, lexical_append] at hw
    exact hinner hx hw.2.1

theorem Unary.readsNames (h : Unary inner w x) (hw : Lexical w) : x.ReadsNames := by
  cases h with
  | primary hx => exact hx.readsNames hinner hw
  | operation _ hx =>
    exact Node.readsNames_of_children (by simp)
      (by simpa [Node.children] using hinner hx (lexical_cons.1 hw).2)

theorem Power.readsNames (h : Power inner w x) (hw : Lexical w) : x.ReadsNames := by
  cases h with
  | base hx => exact hx.readsNames hinner hw
  | power hx _ hy =>
    obtain ⟨hu, hv⟩ := lexical_append.1 hw
    exact Node.readsNames_of_children (by simp) (by
      simpa [Node.children] using ⟨hx.readsNames hinner hu, hinner hy (lexical_cons.1 hv).2⟩)

theorem Expression.readsNames (h : Expression inner w x) (hw : Lexical w) : x.ReadsNames := by
  unfold Expression at h
  exact h.readsNames (Chain.readsNames <| Chain.readsNames <| Chain.readsNames <|
    Chain.readsNames <| Chain.readsNames <| Power.readsNames hinner) hw

theorem Statement.readsNames (h : Statement inner w x) (hw : Lexical w) : x.ReadsNames := by
  cases h with
  | when _ hc _ ht =>
    simp only [lexical_cons, lexical_append] at hw
    exact Node.readsNames_of_children (by simp)
      (by simpa [Node.children] using ⟨hinner hc hw.2.1, hinner ht hw.2.2.2⟩)
  | choice _ hc _ ht _ _ he =>
    simp only [lexical_cons, lexical_append] at hw
    exact Node.readsNames_of_children (by simp) (by
      simpa [Node.children] using
        ⟨hinner hc hw.2.1, hinner ht hw.2.2.2.1, hinner he hw.2.2.2.2.2⟩)
  | loop _ hc _ hb =>
    simp only [lexical_cons, lexical_append] at hw
    exact Node.readsNames_of_children (by simp)
      (by simpa [Node.children] using ⟨hinner hc hw.2.1, hinner hb hw.2.2.2⟩)
  | log _ hx =>
    exact Node.readsNames_of_children (by simp)
      (by simpa [Node.children] using hinner hx (lexical_cons.1 hw).2)
  | emptyBlock => exact Node.readsNames_of_children (by simp) (by simp [Node.children])
  | block _ hxs _ =>
    simp only [lexical_cons, lexical_append] at hw
    exact Node.readsNames_of_children (by simp) (hxs.readsNames hinner hw.2.1)
  | assignment _ _ hx =>
    simp only [lexical_cons] at hw
    exact Node.readsNames_of_children (by simp) (by simpa [Node.children] using hinner hx hw.2.2)
  | expression _ hx => exact hinner hx hw

end

theorem Phrase.readsNames {n : ℕ} : ∀ {f : Frame} {w : List Token} {x : Node},
    Phrase n f w x → Lexical w → x.ReadsNames := by
  induction n with
  | zero => exact fun h => h.elim
  | succ n ih =>
    intro f w x h
    cases f with
    | statement => exact Statement.readsNames ih h
    | expression => exact Expression.readsNames ih h
    | operand => exact Unary.readsNames ih h
    | exponent => exact Power.readsNames ih h

/-- **A text reads variables with names of the language only.** -/
theorem readsNames_of_parse {mode : Mode} {n : ℕ} {source : String} {x : Node}
    (h : parse mode n source = .ok x) : x.ReadsNames := by
  obtain ⟨ts, hts, hx⟩ := parse_eq_ok_iff.1 h
  obtain ⟨v, e, rfl, -, hv⟩ := tokenize_lexical hts
  cases mode with
  | expression =>
    obtain ⟨w, e', hw, -, hx⟩ := derives_expression_iff.1 hx
    obtain ⟨rfl, -⟩ := List.append_inj' hw rfl
    exact hx.readsNames hv
  | script =>
    generalize hw : v ++ [e] = ts at hx
    cases hx with
    | @script w xs e' hxs _ =>
      obtain ⟨rfl, -⟩ := List.append_inj' hw rfl
      have hall := hxs.readsNames Phrase.readsNames hv
      rcases xs with _ | ⟨x, _ | ⟨x', xs⟩⟩
      · exact Node.readsNames_of_children (by simp [asScript]) (by simp [asScript, Node.children])
      · simpa [asScript] using hall
      · exact Node.readsNames_of_children (by simp [asScript]) hall

/-! ## Words -/

/-- A name or a keyword: a letter or the underscore, then these and digits. -/
def IsNameLike (cs : List Char) : Prop :=
  ∃ c rest, cs = c :: rest ∧ beginsName c = true ∧ ∀ d ∈ rest, continuesName d = true

/-- A text spells a keyword, in any mixture of cases. -/
def IsReserved (t : String) : Prop := Keyword.ofName? t.toList ≠ none

/-- The last character of a text is a line break. -/
def EndsInBreak (t : String) : Prop := t.toList.getLast? = some '\n'

theorem isName_iff {t : String} : IsName t ↔ IsNameLike t.toList ∧ ¬ IsReserved t := by
  constructor
  · rintro ⟨hword, hfree⟩
    exact ⟨hword, not_not.2 hfree⟩
  · rintro ⟨hword, hfree⟩
    exact ⟨hword, not_not.1 hfree⟩

theorem IsNameLike.unbroken {cs : List Char} (h : IsNameLike cs) : '\n' ∉ cs := by
  obtain ⟨c, rest, rfl, hc, hrest⟩ := h
  rw [List.mem_cons, not_or]
  constructor
  · rintro rfl
    exact absurd hc (by decide)
  · exact fun hmem => absurd (hrest _ hmem) (by decide)

/-- **What the form of a variable accepts**: a word, perhaps with a line break behind it. -/
theorem NameForm.accepts_variable_iff {t : String} :
    NameForm.variable_.accepts t = true ↔
      ∃ w, IsNameLike w ∧ (t.toList = w ∨ t.toList = w ++ ['\n']) := by
  unfold accepts
  constructor
  · intro h
    cases hcs : t.toList with
    | nil =>
      rw [hcs] at h
      cases h
    | cons c cs =>
      rw [hcs, Bool.and_eq_true, List.all_eq_true] at h
      obtain ⟨hc, hrest⟩ := h
      unfold withoutFinalBreak at hrest
      split_ifs at hrest with hbreak
      · refine ⟨c :: cs.dropLast, ⟨c, _, rfl, hc, hrest⟩, .inr ?_⟩
        rw [List.cons_append, List.dropLast_append_getLast? _ hbreak]
      · exact ⟨c :: cs, ⟨c, cs, rfl, hc, hrest⟩, .inl rfl⟩
  · rintro ⟨w, hw, ht⟩
    have hunbroken := hw.unbroken
    obtain ⟨c, cs, rfl, hc, hrest⟩ := hw
    rw [List.mem_cons, not_or] at hunbroken
    have hbegins : begins c = true := hc
    have hcontinues : ∀ d ∈ cs, continues .variable_ d = true := hrest
    rcases ht with ht | ht
    · have hlast : cs.getLast? ≠ some '\n' := fun h => hunbroken.2 (List.mem_of_getLast? h)
      rw [ht]
      simpa [withoutFinalBreak, hlast, hbegins] using hcontinues
    · rw [ht]
      simpa [withoutFinalBreak, hbegins] using hcontinues

/-- What the form accepts is a name, unless it is a keyword or has a line break. -/
theorem isName_iff_of_accepts {t : String} (h : NameForm.variable_.accepts t = true) :
    IsName t ↔ ¬ IsReserved t ∧ ¬ EndsInBreak t := by
  obtain ⟨w, hw, ht | ht⟩ := NameForm.accepts_variable_iff.1 h
  · have hbreak : ¬ EndsInBreak t := fun hbreak =>
      hw.unbroken (ht ▸ List.mem_of_getLast? hbreak)
    rw [isName_iff, ht]
    exact ⟨fun hname => ⟨hname.2, hbreak⟩, fun hfree => ⟨hw, hfree.1⟩⟩
  · have hbreak : EndsInBreak t := by simp [EndsInBreak, ht]
    refine ⟨fun hname => ?_, fun hfree => absurd hbreak hfree.2⟩
    exact absurd (List.mem_of_getLast? hbreak) (isName_iff.1 hname).1.unbroken

/-! ## Texts that read a variable -/

/-- A text is an expression, which is the variable of that name. -/
def ReadsItself (t : String) : Prop :=
  ∀ n, parse .expression (n + 1) t = .ok (.reference t (some 0))

/-- No script and no expression reads the variable of a name. -/
def Unread (t : String) : Prop :=
  ∀ mode n source x, parse mode n source = .ok x → t ∉ x.referencedVariables

theorem isName_of_parse {mode : Mode} {n : ℕ} {source t : String} {p : Option ℕ}
    (h : parse mode n source = .ok (.reference t p)) : IsName t :=
  readsNames_of_parse h t (Node.mem_referencedVariables.2 ⟨p, Node.mem_walk.2 (.inl rfl)⟩)

/-- **The names of the language are the texts that read a variable of that name.** -/
theorem readsItself_iff {t : String} : ReadsItself t ↔ IsName t := by
  constructor
  · exact fun h => isName_of_parse (h 0)
  · intro h n
    have htokens := tokenize_word (isName_iff.1 h).1.unbroken (.name h (by simp))
    have hreads : ReadsAs (n + 1) .expression [.standsFirst (.name t) t]
        (.reference t (some 0)) := Phrase.of_primary (.reference rfl) (by simp)
    rw [parse, htokens]
    exact parseTokens_of_readsAs hreads rfl

/-- Any other variable is read by nothing. -/
theorem unread_iff {t : String} : Unread t ↔ ¬ IsName t := by
  constructor
  · intro hunread hname
    refine hunread _ _ _ _ (readsItself_iff.2 hname 0) ?_
    exact Node.mem_referencedVariables.2 ⟨some 0, Node.mem_walk.2 (.inl rfl)⟩
  · exact fun hname _ _ _ _ hparse hmem => hname (readsNames_of_parse hparse t hmem)

/-! ## What rules assign -/

namespace RuleFile

variable {file : String} {known : String → Bool} {source : Source} {s : RuleSet} {d : Data}

/-- The keys of a mapping. -/
def keysOf : Option Data → List Data
  | some (.mapping entries) => entries.map (·.1)
  | _ => []

theorem keys_of_entries (field : Option Data) :
    (entriesOf field).map (·.1) = (keysOf field).map Data.keyText := by
  unfold entriesOf keysOf
  split <;> simp

/-- An action assigns what it stands under in a document, where that is a text. -/
structure IsTargetOf (key : Data) (action : Action) : Prop where
  target : ∀ t, key = .text t → action.target = t
  /-- It can be read unless it is a keyword or ends in a line break. -/
  readable : ∀ t, key = .text t → ¬ IsReserved t → ¬ EndsInBreak t → ReadsItself t
  /-- Else nothing reads it. -/
  unread : ∀ t, key = .text t → IsReserved t ∨ EndsInBreak t → Unread t

theorem isTargetOf_of_accepts {key : Data} {action : Action} (htarget : action.target = key.keyText)
    (h : ∀ t, key = .text t → NameForm.variable_.accepts t = true) : IsTargetOf key action := by
  refine ⟨?_, ?_, ?_⟩
  · rintro t rfl
    exact htarget
  · rintro t rfl hfree hbreak
    exact readsItself_iff.2 ((isName_iff_of_accepts (h t rfl)).2 ⟨hfree, hbreak⟩)
  · rintro t rfl hcase
    refine unread_iff.2 fun hname => ?_
    obtain ⟨hfree, hbreak⟩ := (isName_iff_of_accepts (h t rfl)).1 hname
    exact hcase.elim hfree hbreak

/-- The keys of assignments have the form of a variable, where they are texts. -/
theorem accepts_of_mem_keys (h : layout.Accepts d) {item : Data}
    (hitem : item ∈ itemsOf (d.field? "rules")) {key : Data}
    (hkey : key ∈ keysOf (item.field? "set")) :
    ∀ t, key = .text t → NameForm.variable_.accepts t = true := by
  unfold itemsOf at hitem
  split at hitem
  · next items hrules =>
    have hlist : (Shape.list ruleShape).Accepts (.list items) := h.field (by simp) hrules
    cases hlist with
    | list hitems =>
      have hrule : ruleShape.Accepts item := hitems item hitem
      unfold keysOf at hkey
      split at hkey
      · next entries hset =>
        obtain ⟨e, he, rfl⟩ := List.mem_map.1 hkey
        have hmapping : (Shape.mapping (some .variable_) .scalar).Accepts (.mapping entries) :=
          hrule.field (by simp) hset
        cases hmapping with
        | mapping hkeys _ => exact hkeys _ rfl e he
      · cases hkey
  · cases hitem

theorem keysOf_itemWithoutDates (item : Data) :
    keysOf ((itemWithoutDates item).field? "set") = keysOf (item.field? "set") := by
  rw [itemWithoutDates, field?_mapField, if_pos rfl]
  cases item.field? "set" with
  | none => rfl
  | some d => cases d <;> simp [mapValues, keysOf]

/-- A file that became a rule set has the layout. -/
theorem accepts_of_load (h : load file known source = .ok s)
    (hdocument : source.document? (normalPath file) = .ok d) : layout.Accepts (withoutDates d) := by
  rw [load_eq hdocument] at h
  cases hof : ofDocument (normalPath file) known d with
  | error f =>
    rw [hof] at h
    cases h
  | ok s' =>
    obtain ⟨_, haccepts, -⟩ := compiled_of_ofDocument hof
    exact haccepts

/-- The actions of the rule of an item stand under its keys, which have the form of a
    variable. -/
theorem IsRuleOf.targets {limits : Limits} {item : Data} {r : Rule}
    (h : IsRuleOf limits (itemWithoutDates item) r)
    (hkeys : ∀ key ∈ keysOf (item.field? "set"), ∀ t, key = .text t →
      NameForm.variable_.accepts t = true) :
    List.Forall₂ IsTargetOf (keysOf (item.field? "set")) r.actions := by
  have htargets : List.Forall₂ (fun name (action : Action) => action.target = name)
      ((keysOf (item.field? "set")).map Data.keyText) r.actions := by
    rw [← keysOf_itemWithoutDates, ← keys_of_entries, List.forall₂_map_left_iff]
    exact h.actions.imp fun _ _ ha => ha.target
  rw [List.forall₂_map_left_iff] at htargets
  refine ((List.forall₂_and_left _ _).2 ⟨hkeys, htargets⟩).imp ?_
  rintro key action ⟨hkey, htarget⟩
  exact isTargetOf_of_accepts htarget hkey

/-- **What the rules of a file assign can be read**, but for keywords and names with a line
    break behind them, which the form of a variable lets through and nothing reads. -/
theorem targets_readable (h : load file known source = .ok s) :
    ∃ d rules, source.document? (normalPath file) = .ok d ∧ s.rules.Perm rules ∧
      List.Forall₂ (fun item r => r.name = textField "name" item ∧
        List.Forall₂ IsTargetOf (keysOf (item.field? "set")) r.actions)
        (itemsOf (d.field? "rules")) rules := by
  obtain ⟨d, rules, hdocument, -, hrules, horder⟩ := rules_of_load h
  refine ⟨d, rules, hdocument, horder.perm, ?_⟩
  have haccepts := accepts_of_load h hdocument
  have hkeys : ∀ item ∈ itemsOf (d.field? "rules"), ∀ key ∈ keysOf (item.field? "set"),
      ∀ t, key = .text t → NameForm.variable_.accepts t = true := by
    intro item hitem key hkey
    have hmem : itemWithoutDates item ∈ itemsOf ((withoutDates d).field? "rules") := by
      rw [items_withoutDates]
      exact List.mem_map_of_mem hitem
    exact accepts_of_mem_keys haccepts hmem (by rwa [keysOf_itemWithoutDates])
  rw [items_withoutDates, List.forall₂_map_left_iff] at hrules
  refine ((List.forall₂_and_left _ _).2 ⟨hkeys, hrules⟩).imp ?_
  rintro item r ⟨hitem, hr⟩
  refine ⟨?_, hr.targets hitem⟩
  rw [hr.name, textField_itemWithoutDates (by decide)]

/-- A rule that assigns two names. -/
def twoTargets : Data := assigning [(.text "total", .integer 1), (.text "_x2", .integer 2)]

/-- Both can be read. -/
theorem twoTargets_readable :
    ∃ s d rules, load "rules.yaml" (fun _ => false) (.document twoTargets) = .ok s ∧
      (Source.document twoTargets).document? (normalPath "rules.yaml") = .ok d ∧
      s.rules.Perm rules ∧
      List.Forall₂ (fun item r => r.name = textField "name" item ∧
        List.Forall₂ IsTargetOf (keysOf (item.field? "set")) r.actions)
        (itemsOf (d.field? "rules")) rules := by
  have hok : (load "rules.yaml" (fun _ => false) (.document twoTargets)).isOk = true := by
    decide +kernel
  cases hload : load "rules.yaml" (fun _ => false) (.document twoTargets) with
  | error f =>
    rw [hload] at hok
    cases hok
  | ok s =>
    obtain ⟨d, rules, hdocument, hperm, hrules⟩ := targets_readable hload
    exact ⟨s, d, rules, rfl, hdocument, hperm, hrules⟩

/-- A rule that assigns two keywords and a name with a line break. -/
def lostTargets : Data := assigning [
  (.text "end", .integer 1), (.text "true", .integer 2), (.text "x\n", .integer 3)]

/-- The file becomes a rule set, and none of the three is an expression for the variable. -/
theorem lostTargets_unreadable :
    (load "rules.yaml" (fun _ => false) (.document lostTargets)).toOption.map
        (fun s => s.rules.flatMap (·.targets)) = some ["end", "true", "x\n"] ∧
      ∀ t ∈ ["end", "true", "x\n"], ∀ p,
        parse .expression Limits.standard.maxNesting t ≠ .ok (.reference t p) := by
  have hlost : ∀ t ∈ ["end", "true", "x\n"], ¬ IsName t := by
    simp only [List.forall_mem_cons, List.not_mem_nil, false_imp_iff, implies_true, and_true]
    refine ⟨fun h => ?_, fun h => ?_, fun h => ?_⟩
    · exact absurd h.free (by decide)
    · exact absurd h.free (by decide)
    · exact (isName_iff.1 h).1.unbroken (by decide)
  refine ⟨by decide +kernel, fun t ht p hparse => ?_⟩
  exact hlost t ht (isName_of_parse hparse)

end RuleFile

end Rulebook
