import BasicLowering.Proofs.Lowering.Templates

/-!
# The order of evaluation

The source language evaluates the left operand of an operator first, each
operand once, and leaves the right one out where the left one decides. What an
operand does depends on the state of the program, which it may change; what has
happened so far is part of the state. A lifted operator is restated so that it
ends in the same state and with the same value, but for two things:

* a comparison that captures its right operand evaluates it before the left one;
* `AndAlso` may read a left operand that is not captured once more when the
  right one has run, and then goes by the value it has by then.

This is so whatever the operands do, as long as they are what the lowering takes
them for (`Site.Expects`) and their values fit the operator. The captures have
names of their own: none is that of a variable (`Scene.apart`), and the count of
names does not start over.
-/

namespace BasicLowering.Lowering

open Source Binding Analysis Semantics
open Target (Expr)

/-- What evaluating an expression does: in each state of the program it has a
value and leaves a state behind. -/
abbrev Behavior (State : Type) := State → Value × State

namespace Behavior

variable {State : Type}

/-- What an operator of the source language does. -/
def inOrder (operator : BinaryOperator) (left right : Behavior State) :
    Behavior State :=
  fun state =>
    let (leftValue, between) := left state
    if skipsRight operator leftValue then (leftValue, between)
    else
      let (rightValue, after) := right between
      (combine operator leftValue rightValue, after)

/-- A run of an expression from a state. -/
def course (does : Behavior State) (state : State) : Course State :=
  ⟨state, (does state).1, (does state).2⟩

/-- The run of the left operand. -/
def leftCourse (rightFirst : Bool) (left right : Behavior State)
    (state : State) : Course State :=
  left.course (if rightFirst then (right state).2 else state)

/-- The run of the right operand, where it is evaluated. -/
def rightCourse (rightFirst : Bool) (left right : Behavior State)
    (state : State) : Course State :=
  right.course (if rightFirst then state else (left state).2)

/-- The state in which both operands have run. -/
def lastState (rightFirst : Bool) (left right : Behavior State)
    (state : State) : State :=
  if rightFirst then (leftCourse rightFirst left right state).after
  else (rightCourse rightFirst left right state).after

end Behavior

/-- What is asked of a run of a converted operand. It has a value, and binds no
names but those that were issued for it, from `low` to `high`. The value is not
null where the lowering does not reckon with null, and the state stays as it is
where the operand may be evaluated again or left out. -/
structure Site.Expects {State : Type} (site : Site) (scene : Scene State)
    (low high : Nat) (operand : Operand) (course : Course State) : Prop extends
    Scene.Reads scene low high operand course where
  silent : site.isPure operand = true → course.after = course.before

section

variable {State : Type} {scene : Scene State} {site : Site} {path : Path}
variable {parent : Step} {leftType rightType : ExprType}
variable {leftLowered rightLowered : Lowered} {collapse : Bool}
variable {operator : BinaryOperator} {left right : Operand}
variable {leftDoes rightDoes : Behavior State} {state : State}

/-- The operands of an operator in the order in which they run. -/
theorem inTurn_courses (rightFirst : Bool) :
    InTurn (leftDoes.leftCourse rightFirst rightDoes state)
      (leftDoes.rightCourse rightFirst rightDoes state) rightFirst state
      (leftDoes.lastState rightFirst rightDoes state) := by
  cases rightFirst <;> exact ⟨rfl, rfl, rfl⟩

/-- An operand that is evaluated again has the value that it has by then. -/
theorem Site.Expects.rereads {low high : Nat} {operand : Operand}
    {does : Behavior State}
    (expects : site.Expects scene low high operand (does.course state))
    (reusable : operand.isReusable = true) (value : Value) :
    scene.Rereads low high operand value state (does state).1 where
  captured notReusable := by
    rw [reusable] at notReusable
    cases notReusable
  evaluated _ := by
    have denotes := expects.denotes
    rwa [expects.still reusable] at denotes

end

/-! ## A journal of calls -/

/-- What a variable is worth, and the names of the functions that have been
called. -/
structure Journal where
  worth : Value
  calls : List String
  deriving DecidableEq

/-- What calling a function does: it is true, save that `missing` is null, and
`clear` makes the variable null. -/
def callOf (name : String) : Behavior Journal :=
  fun journal =>
    (if name = "missing" then .null else .boolean true,
      { worth := if name = "clear" then .null else journal.worth
        calls := journal.calls ++ [name] })

/-- The program of which the state is a journal. A field of what a function
returns has its value. -/
def journaling (variableName : String) : Target.Environment Journal where
  read journal name := if name = variableName then some journal.worth else none
  perform journal
    | .call (.identifier name) [] => some (callOf name journal)
    | .member (.call (.identifier name) []) _ => some (callOf name journal)
    | _ => none

/-- `x AndAlso clear()`, `f() AndAlso g()` and `f() = g()`, all of operands of
type `Boolean?`. -/
def nullableSite : Site where
  model :=
    { ({} : Model).bindSymbol (some ⟨0⟩) ⟨0⟩ with
      symbols := ⟨#[⟨⟨0⟩, "x", .localVariable, {}, none, none, none, none⟩]⟩ }
  options := {}
  arena :=
    { nodes := #[
        { form := .identifier "x" },
        { form := .identifier "clear" }, { form := .invocation (some ⟨1⟩) [] },
        { form := .identifier "f" }, { form := .invocation (some ⟨3⟩) [] },
        { form := .identifier "g" }, { form := .invocation (some ⟨5⟩) [] },
        { form := .binary (some ⟨0⟩) .andAlso (some ⟨2⟩) },
        { form := .binary (some ⟨4⟩) .andAlso (some ⟨6⟩) },
        { form := .binary (some ⟨4⟩) .equals (some ⟨6⟩) }] }

/-- Restate the binary expression at a node, which has operands of type
`Boolean?`. The parents of the node are given from the inside outward. -/
def Site.lowerNullable (site : Site) (parents : List NodeId) (node : NodeId)
    (operator : BinaryOperator) (left right : Expr) : Naming Lowered :=
  site.lowerBinary (parents.map (.unchanged ∘ some)) (.unchanged (some node))
    (.unconverted .nullableBoolean) (.unconverted .nullableBoolean)
    (.binary left (convertOperator operator) right) (.plain left) (.plain right)

/-- An operand: how it is written once it is converted, and what it does. -/
structure Part where
  expr : Expr
  does : Behavior Journal

namespace Part

/-- `name()` -/
def call (name : String) : Part :=
  ⟨.call (.identifier name) [], callOf name⟩

/-- `name().ready` -/
def field (name : String) : Part :=
  ⟨.member (.call (.identifier name) []) "ready", callOf name⟩

/-- The variable of the journal. -/
def named (name : String) : Part :=
  ⟨.identifier name, fun journal => (journal.worth, journal)⟩

/-- `name.HasValue` -/
def asked (name : String) : Part :=
  ⟨.member (.identifier name) "HasValue",
    fun journal => (.boolean (journal.worth != .null), journal)⟩

/-- `name() is var captureName && captureName` -/
def captured (name captureName : String) : Part :=
  ⟨.binary (.test (.call (.identifier name) []) (.anything captureName))
    .logicalAnd (.identifier captureName), callOf name⟩

end Part

/-- More binary expressions of operands of type `Boolean?`, some of them in the
conditions of statements. `arg1` is a local variable, and `ready` is a field of
what `f` returns. -/
def widerSite : Site where
  model :=
    { (nullableSite.model.bindSymbol (some ⟨10⟩) ⟨1⟩).bindSymbol (some ⟨12⟩)
        ⟨2⟩ with
      symbols := ⟨nullableSite.model.symbols.symbols ++ #[
        { id := ⟨1⟩, name := "arg1", kind := .localVariable },
        { id := ⟨2⟩, name := "ready", kind := .field }]⟩ }
  options := {}
  arena :=
    { nodes := nullableSite.arena.nodes ++ #[
        { form := .identifier "arg1" }, { form := .identifier "ready" },
        { form := .memberAccess (some ⟨4⟩) (some ⟨11⟩) .simple },
        { form := .identifier "missing" },
        { form := .invocation (some ⟨13⟩) [] },
        { form := .binary (some ⟨12⟩) .andAlso (some ⟨6⟩) },
        { form := .binary (some ⟨4⟩) .lessThan (some ⟨6⟩) },
        { form := .binary (some ⟨10⟩) .andAlso (some ⟨4⟩) },
        { form := .binary (some ⟨14⟩) .andAlso (some ⟨6⟩) },
        -- `If missing() AndAlso f().ready`
        { form := .binary (some ⟨14⟩) .andAlso (some ⟨12⟩) },
        { form := .conditionStatement .ifBlock (some ⟨19⟩) },
        -- `If x.HasValue AndAlso clear() AndAlso x = missing()`
        { form := .identifier "HasValue" },
        { form := .memberAccess (some ⟨0⟩) (some ⟨21⟩) .simple },
        { form := .binary (some ⟨22⟩) .andAlso (some ⟨2⟩) },
        { form := .binary (some ⟨0⟩) .equals (some ⟨14⟩) },
        { form := .binary (some ⟨23⟩) .andAlso (some ⟨24⟩) },
        { form := .conditionStatement .ifBlock (some ⟨25⟩) }] }

/-- What comes of a binary expression of the site from a journal: by its
restatement, and in the order of the source language. -/
def widerSite.comesTo (variableName : String) (parents : List NodeId)
    (node : NodeId) (operator : BinaryOperator) (left right : Part)
    (journal : Journal) : Option (Value × Journal) × (Value × Journal) :=
  let (lowered, _) :=
    widerSite.lowerNullable parents node operator left.expr right.expr {}
  ((lowered.expr.run (journaling variableName) ⟨fun _ => none, journal⟩).map
      fun (value, store) => (value, store.state),
    Behavior.inOrder operator left.does right.does journal)

end BasicLowering.Lowering
