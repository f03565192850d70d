/-
  Null arguments of the functions on texts.

  * `Parameter.reading`, `readBy`: arguments as the parameters that they are passed for read
    them, null for a text as the empty text. `textOf_argument_readBy`: no text changes by that.
  * `Definition.ReadsNull`: a function that does not tell null for a text from the empty text,
    save where it is asked what null begins or ends with (`AsksOfNull`).
  * `readsNull_text`: the functions on texts are such functions.
  * `null_reads_as_empty`: so a call with null for a text ends as one with the empty text, save
    for those two tests, which null does not pass.
-/
import Rulebook.Proofs.Calls

namespace Rulebook

open Eval

/-! ## Arguments as parameters read them -/

/-- An argument as a parameter reads it: null for a text as the empty text. -/
def Parameter.reading (p : Parameter) (v : Value) : Value :=
  if p.type = "text" ∧ v = .null then .text "" else v

/-- Arguments as the parameters that they are passed for read them; a variadic parameter takes
    all that are left. -/
def readBy : List Parameter → List Value → List Value
  | p :: ps, v :: vs => p.reading v :: readBy (if p.variadic then p :: ps else ps) vs
  | _, vs => vs

/-- The arguments of a function as its parameters read them. -/
def Definition.reading {ω : Type} (d : Definition ω) (args : List Value) : List Value :=
  readBy (d.parameters.getD []) args

namespace Library

section
variable {p : Parameter} {ps : List Parameter} {args : List Value}

theorem textOf_reading (p : Parameter) (v : Value) : textOf (p.reading v) = textOf v := by
  unfold Parameter.reading
  split_ifs with h
  · rw [h.2]
    rfl
  · rfl

theorem reading_of_not_text (hp : p.type ≠ "text") (v : Value) : p.reading v = v :=
  if_neg fun h => hp h.1

@[simp] theorem readBy_nil (ps : List Parameter) : readBy ps [] = [] := by
  cases ps <;> rfl

@[simp] theorem length_readBy (ps : List Parameter) (args : List Value) :
    (readBy ps args).length = args.length := by
  induction args generalizing ps with
  | nil => rw [readBy_nil]
  | cons v vs ih =>
    cases ps with
    | nil => rfl
    | cons p ps => rw [readBy, List.length_cons, List.length_cons, ih]

theorem argument_succ (args : List Value) (i : ℕ) :
    argument args (i + 1) = argument args.tail i := by
  cases args <;> rfl

/-- Reading changes no text. -/
theorem textOf_argument_readBy (ps : List Parameter) (args : List Value) (i : ℕ) :
    textOf (argument (readBy ps args) i) = textOf (argument args i) := by
  induction args generalizing ps i with
  | nil => rw [readBy_nil]
  | cons v vs ih =>
    cases ps with
    | nil => rfl
    | cons p ps =>
      cases i with
      | zero => exact textOf_reading p v
      | succ i => exact ih _ i

/-- Reading changes nothing but null. -/
theorem argument_readBy (ps : List Parameter) (args : List Value) (i : ℕ) :
    argument (readBy ps args) i = argument args i ∨ argument args i = .null := by
  induction args generalizing ps i with
  | nil => exact .inr rfl
  | cons v vs ih =>
    cases ps with
    | nil => exact .inl rfl
    | cons p ps =>
      cases i with
      | succ i => exact ih _ i
      | zero =>
        by_cases hv : v = .null
        · exact .inr hv
        · exact .inl (if_neg fun h => hv h.2)

theorem argument_readBy_zero (hp : p.type ≠ "text") :
    argument (readBy (p :: ps) args) 0 = argument args 0 := by
  cases args with
  | nil => rfl
  | cons v vs => exact reading_of_not_text hp v

theorem argument_readBy_one {q : Parameter} (hp : p.variadic = false) (hq : q.type ≠ "text") :
    argument (readBy (p :: q :: ps) args) 1 = argument args 1 := by
  cases args with
  | nil => rfl
  | cons v vs =>
    rw [readBy, hp]
    exact argument_readBy_zero hq

/-- Arguments for no text are read as they are. -/
theorem readBy_of_not_text (h : ∀ p ∈ ps, p.type ≠ "text") : readBy ps args = args := by
  induction args generalizing ps with
  | nil => exact readBy_nil ps
  | cons v vs ih =>
    cases ps with
    | nil => rfl
    | cons p ps =>
      have hp := List.forall_mem_cons.1 h
      rw [readBy, reading_of_not_text hp.1, ih]
      split_ifs
      · exact h
      · exact hp.2

/-- What is passed for no text behind the first argument is read as it is. -/
theorem tail_readBy (hp : p.variadic = false) (h : ∀ q ∈ ps, q.type ≠ "text") :
    (readBy (p :: ps) args).tail = args.tail := by
  cases args with
  | nil => rfl
  | cons v vs =>
    rw [readBy, hp]
    exact readBy_of_not_text h

end

end Library

open Library Text

/-! ## Functions that read null as the empty text -/

/-- A call asks whether null begins, or ends, with the empty text. -/
inductive AsksOfNull : String → List Value → Prop
  | startsWith {b} : textOf b = "" → AsksOfNull "startsWith" [.null, b]
  | endsWith {b} : textOf b = "" → AsksOfNull "endsWith" [.null, b]

theorem AsksOfNull.textOf_eq {name : String} {a b : Value} (h : AsksOfNull name [a, b]) :
    textOf b = "" := by
  cases h <;> assumption

variable {ω : Type}

/-- A function that does not tell null for a text from the empty text, save where it is asked
    what null begins or ends with. -/
def Definition.ReadsNull (d : Definition ω) : Prop :=
  ∀ args host, d.accepts args.length = true → ¬ AsksOfNull d.name args →
    d.run (d.reading args) host = d.run args host

namespace Library

/-- A function whose answer is the same for the arguments as its parameters read them. -/
theorem readsNull_define {category : Category} {name returnType description : String}
    {ps : List Parameter} {examples : List String} {compute : List Value → Answer}
    (h : ∀ args, compute (readBy ps args) = compute args) :
    (define category name returnType description ps examples compute : Definition ω).ReadsNull :=
  fun args host _ _ => congrArg (fun answer => (answer.map Data.ofValue, host)) (h args)

section
variable {ps : List Parameter} {args : List Value}

theorem mapped_readBy (f : String → String) : mapped f (readBy ps args) = mapped f args := by
  rw [mapped, mapped, textOf_argument_readBy]

theorem substr_congr {v w : Value} (h : textOf v = textOf w) (start stop : Value) :
    substr v start stop = substr w start stop := by
  rw [substr, substr, h]

theorem rep_congr {v w s t : Value} (h : textOf v = textOf w) (hs : textOf s = textOf t)
    (count : Value) : rep v count s = rep w count t := by
  rw [rep, rep, h, hs]

/-- A test of a text is the same, save of null where the empty text passes. -/
theorem tested_readBy {test : String → String → Bool}
    (h : argument args 0 = .null → test "" (textOf (argument args 1)) = false) :
    tested test (readBy ps args) = tested test args := by
  simp only [tested, textOf_argument_readBy]
  rcases argument_readBy ps args 0 with hsame | hnull
  · rw [hsame]
  · have hfails : test (textOf (argument args 0)) (textOf (argument args 1)) = false := by
      rw [hnull]
      exact h hnull
    rw [hfails, Bool.and_false, Bool.and_false]

end

theorem eq_empty_of_startsWith {s : String} (h : startsWith "" s = true) : s = "" :=
  String.toList_inj.1 (List.prefix_nil.1 (List.isPrefixOf_iff_prefix.1 h))

theorem eq_empty_of_endsWith {s : String} (h : endsWith "" s = true) : s = "" :=
  String.toList_inj.1 (List.suffix_nil.1 (List.isSuffixOf_iff_suffix.1 h))

/-- A function that tests one text against another, where the empty text passes only where
    the test of null is asked for. -/
theorem readsNull_tested {name description second about : String} {examples : List String}
    {test : String → String → Bool}
    (h : ∀ b, test "" (textOf b) = true → AsksOfNull name [.null, b]) :
    (define .text name "boolean" description [textParameter, .needed second "text" about]
      examples (tested test) : Definition ω).ReadsNull := by
  intro args host haccepts hasks
  have hlength : args.length = 2 := by
    simpa [Definition.accepts, Definition.least, Definition.most?, define, textParameter,
      Parameter.needed, Nat.le_antisymm_iff, and_comm] using haccepts
  obtain ⟨a, b, rfl⟩ := List.length_eq_two.1 hlength
  refine congrArg (fun answer => (answer.map Data.ofValue, host)) (tested_readBy fun ha => ?_)
  obtain rfl : a = .null := ha
  exact Bool.eq_false_iff.2 fun htest => hasks (h b htest)

theorem readsNull_text : ∀ d ∈ (text : List (Definition ω)), d.ReadsNull := by
  simp only [text, List.forall_mem_cons]
  refine ⟨?len, ?upper, ?lower, ?trim, ?concat, ?substr, ?reverse, ?rep, ?find, ?replace,
    ?startsWith, ?endsWith, ?format, by simp⟩
  case upper | lower | trim | reverse => exact readsNull_define fun _ => mapped_readBy _
  case len | find | replace =>
    refine readsNull_define fun args => ?_
    simp only [textOf_argument_readBy]
  case concat =>
    refine readsNull_define fun args => ?_
    rw [readBy_of_not_text (by simp [Parameter.rest])]
  case substr =>
    refine readsNull_define fun args => ?_
    rw [argument_succ _ 0, argument_succ _ 1, argument_succ args 0, argument_succ args 1,
      tail_readBy rfl (by simp [Parameter.needed, Parameter.optional])]
    exact substr_congr (textOf_argument_readBy _ _ _) _ _
  case rep =>
    refine readsNull_define fun args => ?_
    rw [argument_readBy_one rfl (by simp [Parameter.needed])]
    exact rep_congr (textOf_argument_readBy _ _ _) (textOf_argument_readBy _ _ _) _
  case startsWith =>
    exact readsNull_tested fun b hb => .startsWith (eq_empty_of_startsWith hb)
  case endsWith => exact readsNull_tested fun b hb => .endsWith (eq_empty_of_endsWith hb)
  case format =>
    refine readsNull_define fun args => ?_
    rw [textOf_argument_readBy, tail_readBy rfl (by simp [Parameter.rest])]

/-! ## Calls -/

/-- The functions of the library that are about texts. -/
theorem mem_text {today : Calendar.Date} {d : Definition ω}
    (hd : d ∈ (Registry.library today : Registry ω)) (hcategory : d.category = .text) :
    d ∈ (text : List (Definition ω)) := by
  have hmath : ∀ d ∈ (math : List (Definition ω)), d.category ≠ .text := by simp [math, define]
  have hlogic : ∀ d ∈ (logic : List (Definition ω)), d.category ≠ .text := by simp [logic, define]
  have hdates : ∀ d ∈ (dates today : List (Definition ω)), d.category ≠ .text := by
    simp [dates, define]
  simp only [Registry.library, List.mem_append] at hd
  rcases hd with ((hd | hd) | hd) | hd
  · exact absurd hcategory (hmath d hd)
  · exact hd
  · exact absurd hcategory (hlogic d hd)
  · exact absurd hcategory (hdates d hd)

/-- A call ends the same with as many arguments for which the function does the same. -/
theorem call_congr {functions : Registry ω} {name : String} {d : Definition ω}
    {args args' : List Value} (hlookup : functions.lookup? name = some d)
    (hlength : args'.length = args.length)
    (hrun : d.accepts args.length = true → ∀ host, d.run args' host = d.run args host) :
    call functions name args' = call functions name args := by
  unfold call
  rw [hlookup]
  simp only [hlength]
  split_ifs with haccepts
  · unfold invoke
    simp only [hrun haccepts]
  · rfl

theorem computes_startsWith : Computes "startsWith" 2 (tested startsWith) :=
  fun _ _ => ⟨_, rfl, rfl, fun _ _ => rfl⟩

theorem computes_endsWith : Computes "endsWith" 2 (tested endsWith) :=
  fun _ _ => ⟨_, rfl, rfl, fun _ _ => rfl⟩

/-- Null passes no test, and the empty text one that it passes against itself. -/
theorem answers_tested {name : String} {test : String → String → Bool}
    (h : Computes name 2 (tested test)) (htest : test "" "" = true) (b : Value) {b' : Value}
    (hb' : textOf b' = "") :
    Answers name [.null, b] (.boolean false) ∧ Answers name [.text "", b'] (.boolean true) := by
  have hanswers : ∀ a b, Answers name [a, b]
      (.boolean (!a.isNull && test (textOf a) (textOf b))) :=
    fun a b => (answers_iff (tested test) h).2 rfl
  have hempty := hanswers (.text "") b'
  have hpasses : test (textOf (.text "")) (textOf b') = true := by
    rw [hb']
    exact htest
  rw [hpasses] at hempty
  exact ⟨hanswers .null b, hempty⟩

/-- What null begins or ends with is answered otherwise than what the empty text does. -/
theorem answers_of_asksOfNull {today : Calendar.Date} {name : String} {args : List Value}
    {d : Definition ω} (h : AsksOfNull name args)
    (hlookup : (Registry.library today).lookup? name = some d) :
    Answers name args (.boolean false) ∧ Answers name (d.reading args) (.boolean true) := by
  cases h with
  | @startsWith b hb =>
    cases hlookup
    exact answers_tested computes_startsWith rfl b ((textOf_reading _ b).trans hb)
  | @endsWith b hb =>
    cases hlookup
    exact answers_tested computes_endsWith rfl b ((textOf_reading _ b).trans hb)

/-- **Null reads as the empty text, but for two tests.** A call of a function on texts ends in
    every store as one with the empty text in the place of each null that is passed for a text,
    with the same value or the same failure, unless it asks whether null begins or ends with
    the empty text. That is false of null and true of the empty text. -/
theorem null_reads_as_empty {today : Calendar.Date} {name : String} {d : Definition ω}
    (hlookup : (Registry.library today).lookup? name = some d) (hcategory : d.category = .text)
    (args : List Value) :
    (¬ AsksOfNull name args → call (Registry.library today : Registry ω) name (d.reading args) =
      call (Registry.library today) name args) ∧
    (AsksOfNull name args →
      Answers name args (.boolean false) ∧ Answers name (d.reading args) (.boolean true)) := by
  have hname : d.name = name := by simpa using List.find?_some hlookup
  have hreads : d.ReadsNull :=
    readsNull_text d (mem_text (List.mem_of_find?_eq_some hlookup) hcategory)
  refine ⟨fun hasks => call_congr hlookup (length_readBy _ args) fun haccepts host => ?_,
    fun hasks => answers_of_asksOfNull hasks hlookup⟩
  exact hreads args host haccepts (hname ▸ hasks)

/-- Null ends with a letter as little as the empty text does; with nothing it ends less. -/
theorem endsWith_of_null :
    ∃ d : Definition Unit, (Registry.library ⟨2024, 2, 29⟩).lookup? "endsWith" = some d ∧
      d.category = .text ∧ d.reading [.null, .text "b"] = [.text "", .text "b"] ∧
      ¬ AsksOfNull "endsWith" [.null, .text "b"] ∧
      call (Registry.library ⟨2024, 2, 29⟩ : Registry Unit) "endsWith" [.text "", .text "b"] =
        call (Registry.library ⟨2024, 2, 29⟩) "endsWith" [.null, .text "b"] ∧
      AsksOfNull "endsWith" [.null, .null] ∧
      Answers "endsWith" [.null, .null] (.boolean false) := by
  have hnot : ¬ AsksOfNull "endsWith" [.null, .text "b"] := by
    intro h
    exact absurd h.textOf_eq (by decide)
  have hasks : AsksOfNull "endsWith" [.null, .null] := .endsWith rfl
  have hlookup : (Registry.library ⟨2024, 2, 29⟩ : Registry Unit).lookup? "endsWith" = some _ := rfl
  obtain ⟨hsame, -⟩ := null_reads_as_empty hlookup rfl [.null, .text "b"]
  obtain ⟨-, hasked⟩ := null_reads_as_empty hlookup rfl [.null, .null]
  exact ⟨_, hlookup, rfl, rfl, hnot, hsame hnot, hasks, (hasked hasks).1⟩

/-- The empty text begins with the empty text, and null does not. -/
theorem startsWith_tells_null :
    ∃ d : Definition Unit, (Registry.library ⟨2024, 2, 29⟩).lookup? "startsWith" = some d ∧
      d.category = .text ∧ d.accepts 2 = true ∧
      d.reading [.null, .text ""] = [.text "", .text ""] ∧
      Answers "startsWith" [.null, .text ""] (.boolean false) ∧
      Answers "startsWith" [.text "", .text ""] (.boolean true) :=
  ⟨_, rfl, rfl, rfl, rfl, answers_tested computes_startsWith rfl (.text "") rfl⟩

end Library

end Rulebook
