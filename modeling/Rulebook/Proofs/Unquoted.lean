/-
  Unquoted — the scalars that rules assign without quotes.

  * `literalNode v`: the tree that the text of a value is read as (`parse_literalText`): the
    literal, a literal with a minus, or for a number that is not finite a variable.
  * `run_literalNode`: for a finite value the tree gives the value; `run_unboundedName`: for
    any other number it fails where the variable is not bound.
  * `items_withoutDates`, `assigned_withoutDates`: what a document without dates assigns.
  * `RuleFile.unquoted_scalars`: in a file that was loaded, each finite scalar that a rule
    assigns means its value, in every context.
-/
import Rulebook.Proofs.Loadable
import Rulebook.Proofs.Rereading
import Rulebook.Proofs.Steps

namespace Rulebook

open Eval Number

/-! ## Signs -/

/-- A tree with a minus in front, or without one. -/
def Node.signed (negative : Bool) (x : Node) : Node :=
  if negative then .unary .negate x none else x

/-- The words of a sign. -/
def signKinds (negative : Bool) : List TokenKind := if negative then [.operator .minus] else []

/-- A text with a sign is read as a tree with one. -/
theorem parse_signed {source : String} {negative : Bool} {cs : List Char} {ks : List TokenKind}
    {x : Node} {n : ℕ} (hsource : source.toList = withSign negative cs) (hspells : Spells cs ks)
    (hx : ∀ n, Rereads (Primary (Phrase n)) ks x) (hn : 2 ≤ n) :
    ∃ y, parse .expression n source = .ok y ∧ y.bare = (x.signed negative).bare := by
  obtain ⟨m, rfl⟩ : ∃ m, n = m + 2 := ⟨n - 2, by omega⟩
  have hnegate : ∀ s, UnaryOperator.negate ≠ .other s := by simp
  have hwords : Spells source.toList (signKinds negative ++ ks) := by
    rw [hsource]
    cases negative with
    | false => exact hspells
    | true => exact hspells.mark hnegate
  have hrereads : Rereads (Phrase (m + 2) .expression) (signKinds negative ++ ks)
      (x.signed negative) := by
    cases negative with
    | false => exact (hx (m + 1)).mono fun hy => Phrase.of_primary hy (by simp)
    | true =>
      have hoperand : Rereads (Phrase (m + 1) .operand) ks x :=
        (hx m).mono fun hy => Phrase.of_primary hy (by simp)
      exact (hoperand.unary hnegate).mono fun hy => Power.expression (.base hy)
  obtain ⟨w, e, hw, hkinds, he⟩ := hwords.tokenize
  obtain ⟨y, hy, hbare⟩ := hrereads w hkinds
  exact ⟨y, parse_eq_ok_iff.2 ⟨_, hw, derives_expression_iff.2 ⟨w, e, rfl, he, hy⟩⟩, hbare⟩

/-! ## The text of a value as an expression -/

/-- A value that is no infinity and not NaN. -/
def Value.isFinite : Value → Bool
  | .number x => Number.isFinite x
  | _ => true

/-- The tree that the text of a value is read as: a number that is not finite becomes a
    variable. -/
def literalNode : Value → Node
  | .number x => match parts x with
    | .nan => .reference "nan" none
    | .infinite negative => (Node.reference "inf" none).signed negative
    | .finite negative _ _ => (Node.literal (.number (abs x)) none).signed negative
  | v => .literal v none

/-- A negative double and its magnitude are the negatives of each other. -/
theorem neg_eq_abs {x : Float} (hfinite : Number.isFinite x = true) (h : isNegative x = true) :
    -x = Number.abs x ∧ -Number.abs x = x := by
  have hx := ofMagnitude_magnitudeBits x
  rw [h] at hx
  have hbits := (isFinite_iff.1 hfinite).le
  constructor
  · conv_lhs => rw [← hx]
    exact neg_ofMagnitude hbits
  · rw [Number.abs, neg_ofMagnitude hbits]
    exact hx

/-- A double that is taken apart into a significand and an exponent is finite. -/
theorem isFinite_of_parts {x : Float} {negative : Bool} {m : ℕ} {e : ℤ}
    (h : parts x = .finite negative m e) :
    Number.isFinite x = true ∧ isNegative x = negative := by
  have hfinite : Number.isFinite x = true := by
    rw [isFinite_iff]
    have hlt : magnitudeBits x < 2 ^ 63 := Nat.mod_lt _ (by decide)
    by_contra hbits
    have hfield : magnitudeBits x / unitBit = 2047 := by
      simp only [infinityBits, unitBit_eq] at hbits ⊢
      omega
    unfold parts at h
    simp only [hfield, if_true] at h
    split_ifs at h
  obtain ⟨m', e', hparts, -⟩ := parts_of_isFinite hfinite
  rw [hparts] at h
  cases h
  exact ⟨hfinite, rfl⟩

/-- The text of a finite number is its magnitude with a sign. -/
theorem plainText_spells {x : Float} (h : Number.isFinite x = true) :
    ∃ cs, (plainText x).toList = withSign (isNegative x) cs ∧ Spells cs [.number (abs x)] := by
  obtain ⟨whole, fraction, cs, hspelled, htext, hvalue⟩ := plainText_spelled h
  refine ⟨cs, htext, fun rest ks hsep hrest => ?_⟩
  rw [← hvalue]
  exact .number hspelled hsep.no_number hrest

/-- **The text of a value is read as the tree for it.** -/
theorem parse_literalText (v : Value) {n : ℕ} (hn : 2 ≤ n) :
    ∃ y, parse .expression n (literalText v) = .ok y ∧ y.bare = (literalNode v).bare := by
  have hname : ∀ {name source : String} {negative : Bool}, IsName name →
      source.toList = withSign negative name.toList →
      ∃ y, parse .expression n source = .ok y ∧
        y.bare = ((Node.reference name none).signed negative).bare :=
    fun h hsource => parse_signed hsource (.name h) (fun _ => .reference) hn
  have hliteral : v.IsWritable → ∃ y, parse .expression n (literalText v) = .ok y ∧
      y.bare = ((Node.literal v none).signed false).bare :=
    fun hv => parse_signed rfl (.literal hv) (fun _ => .literal) hn
  cases v with
  | number x =>
    rw [literalNode]
    cases hparts : parts x with
    | nan =>
      have htext : plainText x = "nan" := by
        simp only [plainText, shortest, unboundedText, hparts]
      have hsource : (plainText x).toList = withSign false "nan".toList := by
        rw [htext]
        rfl
      exact hname ⟨⟨'n', ['a', 'n'], rfl, rfl, List.all_eq_true.1 rfl⟩, rfl⟩ hsource
    | infinite negative =>
      have hsource : (plainText x).toList = withSign negative "inf".toList := by
        cases negative <;> simp only [plainText, shortest, unboundedText, hparts] <;> rfl
      exact hname ⟨⟨'i', ['n', 'f'], rfl, rfl, List.all_eq_true.1 rfl⟩, rfl⟩ hsource
    | finite negative m e =>
      obtain ⟨hfinite, rfl⟩ := isFinite_of_parts hparts
      obtain ⟨cs, htext, hspells⟩ := plainText_spells hfinite
      have hrereads : ∀ n, Rereads (Primary (Phrase n)) [(Value.number (Number.abs x)).literalKind]
        (.literal (.number (Number.abs x)) none) := fun _ => .literal
      exact parse_signed htext hspells hrereads hn
  | _ => exact hliteral trivial

/-! ## What it gives -/

section
variable {y : Node} {v : Value} {name : String} {negative : Bool}

theorem eq_literal_of_bare (h : y.bare = .literal v none) : ∃ p, y = .literal v p := by
  cases y <;> simp_all [Node.bare]

theorem eq_reference_of_bare (h : y.bare = .reference name none) : ∃ p, y = .reference name p := by
  cases y <;> simp_all [Node.bare]

/-- A tree with a minus, its offsets forgotten. -/
theorem eq_signed_of_bare {x : Node} (h : y.bare = (x.signed true).bare) :
    ∃ z p, y = .unary .negate z p ∧ z.bare = x.bare := by
  cases y <;> simp_all [Node.bare, Node.signed]

variable {ω : Type} {env : Environment ω}

/-- **The tree for a finite value gives the value.** -/
theorem run_literalNode (hdepth : 2 ≤ env.limits.maxDepth) (hy : y.bare = (literalNode v).bare)
    (hv : v.isFinite = true) (s : Store ω) : (y.evaluate env).run s = (.ok v, s) := by
  obtain ⟨room, hroom⟩ : ∃ room, env.limits.maxDepth = room + 2 :=
    ⟨env.limits.maxDepth - 2, by omega⟩
  rw [Node.evaluate, hroom]
  cases v with
  | number x =>
    obtain ⟨m, e, hparts, -⟩ := parts_of_isFinite hv
    rw [literalNode, hparts] at hy
    cases hnegative : isNegative x with
    | false =>
      rw [hnegative, abs_eq_self hnegative] at hy
      obtain ⟨p, rfl⟩ := eq_literal_of_bare hy
      rw [Node.run_literal]
    | true =>
      rw [hnegative] at hy
      obtain ⟨z, p, rfl, hz⟩ := eq_signed_of_bare hy
      obtain ⟨q, rfl⟩ := eq_literal_of_bare hz
      rw [Node.run_unary, Node.run_literal]
      simp only [UnaryOperator.apply, (neg_eq_abs hv hnegative).2]
      rfl
  | _ =>
    obtain ⟨p, rfl⟩ := eq_literal_of_bare hy
    rw [Node.run_literal]

/-- The name that the text of an infinity or of NaN is read as. -/
def unboundedName (x : Float) : String := if parts x = .nan then "nan" else "inf"

theorem run_unbound (env : Environment ω) (onChain : Bool) (room : ℕ) (p : Option ℕ) {s : Store ω}
    (hs : s.bindings.get? name = none) :
    ∃ e, ((Node.reference name p).evaluateIn env onChain (room + 1)).run s =
      (.error (.error e), s) ∧ e.cause = .undefinedVariable name := by
  refine ⟨_, ?_, ExpressionError.cause_locatedAt p (.ofCause (.undefinedVariable name))⟩
  rw [Node.run_reference, run_located, run_variableValue, hs]
  rfl

/-- The tree for a number that is not finite fails where its name is not bound. -/
theorem run_unboundedName {x : Float} (hdepth : 2 ≤ env.limits.maxDepth)
    (hy : y.bare = (literalNode (.number x)).bare) (hx : Number.isFinite x = false) {s : Store ω}
    (hs : s.bindings.get? (unboundedName x) = none) :
    ∃ e, (y.evaluate env).run s = (.error (.error e), s) ∧
      e.cause = .undefinedVariable (unboundedName x) := by
  obtain ⟨room, hroom⟩ : ∃ room, env.limits.maxDepth = room + 2 :=
    ⟨env.limits.maxDepth - 2, by omega⟩
  rw [Node.evaluate, hroom]
  cases hparts : parts x with
  | nan =>
    have hname : unboundedName x = "nan" := if_pos hparts
    rw [literalNode, hparts] at hy
    rw [hname] at hs ⊢
    obtain ⟨p, rfl⟩ := eq_reference_of_bare hy
    exact run_unbound env false _ p hs
  | infinite negative =>
    have hname : unboundedName x = "inf" := if_neg (by simp [hparts])
    rw [literalNode, hparts] at hy
    rw [hname] at hs ⊢
    cases negative with
    | false =>
      obtain ⟨p, rfl⟩ := eq_reference_of_bare hy
      exact run_unbound env false _ p hs
    | true =>
      obtain ⟨z, p, rfl, hz⟩ := eq_signed_of_bare hy
      obtain ⟨q, rfl⟩ := eq_reference_of_bare hz
      obtain ⟨e, he, hcause⟩ := run_unbound env false room q hs
      refine ⟨e.locatedAt p, ?_, (e.cause_locatedAt p).trans hcause⟩
      rw [Node.run_unary, he]
      rfl
  | finite negative m e => simp [(isFinite_of_parts hparts).1] at hx

end

/-! ## Documents without dates -/

namespace RuleFile

/-- Only the field whose value is changed becomes another one. -/
theorem field?_mapField (name other : String) (f : Data → Data) (d : Data) :
    (mapField name f d).field? other =
      if other = name then (d.field? other).map f else d.field? other := by
  cases d with
  | mapping entries =>
    simp only [mapField, Data.field?]
    induction entries with
    | nil => simp
    | cons e rest ih =>
      rw [List.map_cons]
      by_cases hkey : e.1.text? = some other
      · rw [List.find?_cons_of_pos (by split_ifs <;> simpa using hkey),
          List.find?_cons_of_pos (by simpa using hkey), hkey]
        by_cases hname : other = name <;> simp [hname]
      · rw [List.find?_cons_of_neg (by split_ifs <;> simpa using hkey),
          List.find?_cons_of_neg (by simpa using hkey)]
        exact ih
  | _ => simp [mapField, Data.field?]

theorem itemsOf_mapItems (f : Data → Data) (field : Option Data) :
    itemsOf (field.map (mapItems f)) = (itemsOf field).map f := by
  rcases field with _ | d
  · rfl
  · cases d <;> rfl

theorem entriesOf_mapValues (f : Data → Data) (field : Option Data) :
    entriesOf (field.map (mapValues f)) = (entriesOf field).map fun a => (a.1, f a.2) := by
  rcases field with _ | d
  · rfl
  · cases d <;> simp [mapValues, entriesOf]

/-- An item of a document, the dates that it assigns being expressions. -/
def itemWithoutDates : Data → Data := mapField "set" (mapValues dateAsSource)

theorem items_withoutDates (d : Data) :
    itemsOf ((withoutDates d).field? "rules") =
      (itemsOf (d.field? "rules")).map itemWithoutDates := by
  simp only [withoutDates, field?_mapField, if_true]
  rw [if_neg (by decide), itemsOf_mapItems]
  rfl

theorem assigned_withoutDates (item : Data) :
    entriesOf ((itemWithoutDates item).field? "set") =
      (entriesOf (item.field? "set")).map fun a => (a.1, dateAsSource a.2) := by
  rw [itemWithoutDates, field?_mapField, if_pos rfl, entriesOf_mapValues]

theorem textField_itemWithoutDates {name : String} (h : name ≠ "set") (item : Data) :
    textField name (itemWithoutDates item) = textField name item := by
  rw [textField, itemWithoutDates, field?_mapField, if_neg h, textField]

/-- The source of a scalar that is no text is the text of its value, also of a date. -/
theorem sourceOf_dateAsSource {d : Data} {source : String} (hd : ∀ s, d ≠ .text s)
    (h : sourceOf (dateAsSource d) = .ok source) :
    ∃ v, d.toValue = .ok v ∧ source = literalText v := by
  cases d with
  | text s => exact absurd rfl (hd s)
  | date day => exact ⟨.text day.iso, rfl, (Except.ok.inj h).symm⟩
  | moment m => exact ⟨.text m.iso, rfl, (Except.ok.inj h).symm⟩
  | _ =>
    obtain ⟨v, hv, h⟩ := bind_eq_ok.1 h
    cases h
    exact ⟨v, hv, rfl⟩

/-! ## Assigned scalars -/

/-- An expression gives a value wherever it is evaluated within the limits, and leaves all as
    it was. -/
def Means (limits : Limits) (x : Node) (v : Value) : Prop :=
  ∀ {ω : Type} (env : Environment ω), env.limits = limits →
    ∀ s : Store ω, (x.evaluate env).run s = (.ok v, s)

/-- What an assignment of a document becomes as an action. -/
structure IsReadFrom (limits : Limits) (a : String × Data) (action : Action) : Prop where
  target : action.target = a.1
  /-- A scalar without quotes means its value, if it is finite. -/
  scalar : (∀ s, a.2 ≠ .text s) → ∃ v, a.2.toValue = .ok v ∧ action.source = literalText v ∧
    (v.isFinite = true → Means limits action.expression v)
  /-- A number that is not finite means a variable. -/
  unbounded : ∀ x, a.2 = .number x → Number.isFinite x = false →
    ∀ {ω : Type} (env : Environment ω), env.limits = limits →
      ∀ s : Store ω, s.bindings.get? (unboundedName x) = none →
        ∃ e, (action.expression.evaluate env).run s = (.error (.error e), s) ∧
          e.cause = .undefinedVariable (unboundedName x)

theorem isReadFrom_of_isActionOf {limits : Limits} {a : String × Data} {action : Action}
    (hnesting : 2 ≤ limits.maxNesting) (hdepth : 2 ≤ limits.maxDepth)
    (h : IsActionOf limits (a.1, dateAsSource a.2) action) : IsReadFrom limits a action := by
  have hread : ∀ v, action.source = literalText v →
      action.expression.bare = (literalNode v).bare := by
    intro v hv
    obtain ⟨y, hy, hbare⟩ := parse_literalText v hnesting
    have hexpression := h.expression
    rw [hv, hy] at hexpression
    rw [← Except.ok.inj hexpression, hbare]
  refine ⟨h.target, fun ha => ?_, fun x hx hunbounded ω env henv s hs => ?_⟩
  · obtain ⟨v, hv, hsource⟩ := sourceOf_dateAsSource ha h.source
    refine ⟨v, hv, hsource, fun hfinite ω env henv s => ?_⟩
    exact run_literalNode (henv ▸ hdepth) (hread v hsource) hfinite s
  · obtain ⟨v, hv, hsource⟩ := sourceOf_dateAsSource (by simp [hx]) h.source
    rw [hx] at hv
    cases hv
    exact run_unboundedName (henv ▸ hdepth) (hread _ hsource) hunbounded hs

/-- **Scalars that are assigned without quotes mean themselves**, save for numbers that are
    not finite. -/
theorem unquoted_scalars {file : String} {known : String → Bool} {source : Source} {s : RuleSet}
    (h : load file known source = .ok s) (hnesting : 2 ≤ s.limits.maxNesting)
    (hdepth : 2 ≤ s.limits.maxDepth) :
    ∃ d rules, source.document? (normalPath file) = .ok d ∧ s.rules.Perm rules ∧
      List.Forall₂ (fun item r => r.name = textField "name" item ∧
        List.Forall₂ (IsReadFrom s.limits) (entriesOf (item.field? "set")) r.actions)
        (itemsOf (d.field? "rules")) rules := by
  obtain ⟨d, rules, hdocument, -, hrules, horder⟩ := rules_of_load h
  refine ⟨d, rules, hdocument, horder.perm, ?_⟩
  rw [items_withoutDates, List.forall₂_map_left_iff] at hrules
  refine hrules.imp fun item r hr => ⟨?_, ?_⟩
  · rw [hr.name, textField_itemWithoutDates (by decide)]
  · have hactions := hr.actions
    rw [assigned_withoutDates, List.forall₂_map_left_iff] at hactions
    exact hactions.imp fun a action ha => isReadFrom_of_isActionOf hnesting hdepth ha

/-- A document with a rule that is always carried out, and assigns some values. -/
def assigning (entries : List (Data × Data)) : Data := .mapping [(.text "rules", .list [.mapping [
  (.text "name", .text "a"), (.text "when", .text "TRUE"), (.text "set", .mapping entries)]])]

/-- A negative number and a date without quotes. -/
def twoScalars : Data := assigning [
  (.text "low", .number (-2.5)), (.text "day", .date ⟨2024, 2, 29⟩)]

/-- Both mean themselves. -/
theorem twoScalars_mean :
    ∃ s d rules, load "rules.yaml" (fun _ => false) (.document twoScalars) = .ok s ∧
      2 ≤ s.limits.maxNesting ∧ 2 ≤ s.limits.maxDepth ∧
      (Source.document twoScalars).document? (normalPath "rules.yaml") = .ok d ∧
      s.rules.Perm rules ∧
      List.Forall₂ (fun item r => r.name = textField "name" item ∧
        List.Forall₂ (IsReadFrom s.limits) (entriesOf (item.field? "set")) r.actions)
        (itemsOf (d.field? "rules")) rules := by
  have hlimits : (load "rules.yaml" (fun _ => false) (.document twoScalars)).toOption.map
      (·.limits) = some .standard := by decide +kernel
  cases hload : load "rules.yaml" (fun _ => false) (.document twoScalars) with
  | error f =>
    rw [hload] at hlimits
    cases hlimits
  | ok s =>
    rw [hload] at hlimits
    have hstandard : s.limits = .standard := Option.some.inj hlimits
    have hnesting : 2 ≤ s.limits.maxNesting := by
      rw [hstandard]
      decide
    have hdepth : 2 ≤ s.limits.maxDepth := by
      rw [hstandard]
      decide
    obtain ⟨d, rules, hdocument, hperm, hrules⟩ := unquoted_scalars hload hnesting hdepth
    exact ⟨s, d, rules, rfl, hnesting, hdepth, hdocument, hperm, hrules⟩

/-- Infinity without quotes. -/
def unboundedScalar : Data := assigning [(.text "x", .number (infinity false))]

/-- It has a value, and the rule that assigns it fails for want of a variable. -/
theorem unboundedScalar_fails :
    (Data.number (infinity false)).toValue = .ok (.number (infinity false)) ∧
      (load "rules.yaml" (fun _ => false) (.document unboundedScalar)).toOption.map (fun s =>
        (s.fire false (.empty ([] : Registry Unit) ())).1.toOption.map
          (·.map fun o => (o.matched, o.error.map (·.cause)))) =
        some (some [(true, some (.undefinedVariable "inf"))]) := by
  constructor
  · rfl
  · decide +kernel

end RuleFile

end Rulebook
