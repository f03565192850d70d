/-
  Evaluation — what a tree means: a value, or a failure, together with what it
  changes.

  * `Store` is what evaluation may change: the variables, the journal, and the
    state of the host's functions;
  * `Node.evaluateIn` evaluates a tree. Every node is visited one level below
    its parent, save that the left operands of a chain of operators all stand
    on the level of the chain, however long it is;
  * `Node.evaluate` evaluates a tree from the top, under limits.

  An error takes the position of the innermost visited node, or operator of a
  chain, that has one.
-/
import Rulebook.Evaluation.Operators
import Rulebook.Bindings
import Rulebook.Registry
import Rulebook.Limits

namespace Rulebook

/-! ## Steps -/

/-- What evaluation may change. -/
structure Store (ω : Type) where
  bindings : Bindings
  journal : Journal
  host : ω

/-- What evaluation may use. -/
structure Environment (ω : Type) where
  limits : Limits
  functions : Registry ω

/-- A step of evaluation. -/
abbrev Eval (ω α : Type) := ExceptT Failure (StateM (Store ω)) α

namespace Eval

variable {ω α : Type}

/-- A step with its errors placed at a position, where they have none. -/
def located (position : Option Nat) (step : Eval ω α) : Eval ω α :=
  ExceptT.adapt (Failure.locatedAt position) step

/-- Adds to the journal. -/
def report (notices : Journal) : Eval ω Unit :=
  modify fun s => { s with journal := s.journal ++ notices }

/-- An answer as a step. -/
def ofAnswer (answer : Except Failure α) : Eval ω α := ExceptT.mk (pure answer)

/-- A step that visits a node: it goes one level down, where there is room. -/
def visit (limits : Limits) (position : Option Nat) (room : Nat) (step : Nat → Eval ω α) :
    Eval ω α :=
  located position <|
    match room with
    | 0 => throw (.ofCause (.descentTooDeep limits.maxDepth))
    | room + 1 => step room

/-! ## Names -/

/-- The value of a variable. -/
def variableValue (name : String) : Eval ω Value := do
  match (← get).bindings.get? name with
  | some v => return v
  | none => throw (.ofCause (.undefinedVariable name))

/-- Binds a variable. -/
def assign (name : String) (v : Value) : Eval ω Value := do
  modify fun s => { s with bindings := s.bindings.set name v }
  return v

/-- Logs the text form of a value. -/
def logValue (v : Value) : Eval ω Value := do
  report [.logged v.toText]
  return v

/-! ## Calls -/

/-- The failure of a function as a failure of the call: errors of the language
    pass, anything else is told with the name of the function. -/
def callFailure (name : String) : Failure → Failure
  | .error e => .error e
  | .breakdown b => .ofCause (.functionFailed name b.message)

/-- What a function returned as the value of the call. -/
def callValue (name : String) (d : Data) : Except Failure Value :=
  match d.toValue with
  | .ok v => .ok v
  | .error .integerTooLarge => .error (.breakdown (.data .integerTooLarge))
  | .error f => .error (.ofCause (.unsupportedResult name f.message))

/-- Runs a function on the state of its host. -/
def invoke (d : Definition ω) (args : List Value) : Eval ω Data := do
  let s ← get
  let (answer, host) := d.run args s.host
  set { s with host }
  ofAnswer (answer.mapError (callFailure d.name))

/-- Calls a function by its name. -/
def call (functions : Registry ω) (name : String) (args : List Value) : Eval ω Value := do
  match functions.lookup? name with
  | none => throw (.ofCause (.undefinedFunction name))
  | some d =>
    if d.accepts args.length then ofAnswer (callValue name (← invoke d args))
    else throw (.ofCause (.argumentCount name d.arity args.length))

/-! ## Operators and loops -/

/-- An operator applied to its left operand; `AND` and `OR` evaluate the right
    one only where it matters. -/
def operate (op : BinaryOperator) (a : Value) (right : Eval ω Value) : Eval ω Value :=
  match op with
  | .and_ => if a.truthy then return .boolean (← right).truthy else return .boolean false
  | .or_ => if a.truthy then return .boolean true else return .boolean (← right).truthy
  | op => do
    let b ← right
    report (op.reports a b)
    ofAnswer (op.apply a b)

/-- Runs a loop at most `n` times more; `last` is the value of the pass before. -/
def iterate (limits : Limits) (position : Option Nat) (condition body : Eval ω Value) :
    Nat → Value → Eval ω Value
  | 0, last => do
    if (← condition).truthy then report [.loopStopped position limits.maxIterations]
    return last
  | n + 1, last => do
    if (← condition).truthy then iterate limits position condition body n (← body)
    else return last

end Eval

/-! ## Trees -/

open Eval

mutual

/-- Evaluates a node with `room` levels left. An operator that is the left
    operand of another one stands on the level of that one. -/
def Node.evaluateIn {ω : Type} (env : Environment ω) (onChain : Bool) (room : Nat) :
    Node → Eval ω Value
  | .literal v p => visit env.limits p room fun _ => pure v
  | .reference name p => visit env.limits p room fun _ => variableValue name
  | .unary op x p => visit env.limits p room fun room => do
    ofAnswer (op.apply (← x.evaluateIn env false room))
  | .binary op l r p =>
    let step (room : Nat) : Eval ω Value := do
      let a ← l.evaluateIn env true room
      located p (operate op a (r.evaluateIn env false room))
    if onChain then step room else visit env.limits p room step
  | .call name xs p => visit env.limits p room fun room => do
    call env.functions name (← evaluateAll env room xs)
  | .when c t p => visit env.limits p room fun room => do
    if (← c.evaluateIn env false room).truthy then t.evaluateIn env false room
    else return .null
  | .choice c t e p => visit env.limits p room fun room => do
    if (← c.evaluateIn env false room).truthy then t.evaluateIn env false room
    else e.evaluateIn env false room
  | .loop c b p => visit env.limits p room fun room =>
    iterate env.limits p (c.evaluateIn env false room) (b.evaluateIn env false room)
      env.limits.maxIterations .null
  | .sequence xs p => visit env.limits p room fun room => do
    return (← evaluateAll env room xs).getLastD .null
  | .assignment name x p => visit env.limits p room fun room => do
    assign name (← x.evaluateIn env false room)
  | .log x p => visit env.limits p room fun room => do
    logValue (← x.evaluateIn env false room)
termination_by structural x => x

/-- Evaluates nodes one after the other. -/
def evaluateAll {ω : Type} (env : Environment ω) (room : Nat) :
    List Node → Eval ω (List Value)
  | [] => return []
  | x :: xs => do
    let v ← x.evaluateIn env false room
    return v :: (← evaluateAll env room xs)
termination_by structural xs => xs

end

/-- Evaluates a tree. -/
def Node.evaluate {ω : Type} (env : Environment ω) (x : Node) : Eval ω Value :=
  x.evaluateIn env false env.limits.maxDepth

end Rulebook
