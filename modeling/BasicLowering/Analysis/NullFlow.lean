import BasicLowering.Source.Path
import BasicLowering.Text.CaseFolding

/-!
# Null flow

What enclosing conditions already say about a name. In
`x.HasValue AndAlso x > 3` the comparison runs only when `x` has a value. An
operand is looked at from its place outward: where it stands to the right of
`AndAlso`, the left side was not false, and where it stands to the right of
`OrElse`, the left side was not true.

Only bare names are followed.
-/

namespace BasicLowering.Analysis

open Source

/-- What is known about the value of a name. -/
inductive Nullability where
  | null | notNull
  deriving DecidableEq

/-- Not null exactly when the given condition holds. -/
def Nullability.ofNotNull : Bool → Nullability
  | true => notNull
  | false => null

/-- How many levels of a condition are looked at. Below them nothing is known,
which costs no more than a superfluous check. -/
def nullFlowLevels : Nat := 257

variable (arena : Arena)

/-- Whether a slot holds the given name, in any number of parentheses. -/
def isName (name : String) (slot : Slot) : Bool :=
  (arena.nameText? (arena.skipParens slot)).any (Text.sameName · name)

/-- Whether two slots hold the given name and `Nothing`, in either order. -/
def isNameAndNothing (name : String) (left right : Slot) : Bool :=
  (isName arena name left && arena.isNothing (arena.skipParens right)) ||
    (arena.isNothing (arena.skipParens left) && isName arena name right)

/-- What the condition in a slot says about a name when its value is
`result`, where at most the given number of levels is looked at. -/
def factWhen? (name : String) : Nat → Slot → Bool → Option Nullability
  | 0, _, _ => none
  | levels + 1, slot, result =>
      match arena.form? slot with
      | some (.memberAccess receiver member _) => do
          let member ← arena.nameText? member
          let receiver ← arena.nameText? receiver
          if Text.sameName member "HasValue" && Text.sameName receiver name then
            some (.ofNotNull result)
          else
            none
      | some (.binary left operator right) =>
          match operator with
          | .is =>
              if isNameAndNothing arena name left right then
                some (.ofNotNull (!result))
              else
                none
          | .isNot =>
              if isNameAndNothing arena name left right then
                some (.ofNotNull result)
              else
                none
          | .andAlso | .and =>
              (factWhen? name levels left result).or
                (factWhen? name levels right result)
          | .orElse | .or =>
              let leftFact := factWhen? name levels left result
              let rightFact := factWhen? name levels right result
              if leftFact = rightFact then leftFact else none
          | _ => none
      | some (.unary .not operand) => factWhen? name levels operand (!result)
      | some (.parenthesized inner) => factWhen? name levels inner result
      | _ => none

/-- The value that the left operand had, as far as it decides whether the right
one is evaluated. -/
def leftResult? : BinaryOperator → Option Bool
  | .andAlso => some true
  | .orElse => some false
  | _ => none

/-- What the levels of a path say about a name, where `child` is what the slot
of the innermost level refers to. The walk ends at the first level that is no
binary expression. -/
def factFromPath? (name : String) : Path → (child : Slot) → Option Nullability
  | [], _ => none
  | step :: outer, child =>
      match arena.binary? step.effective with
      | none => none
      | some (left, operator, right) =>
          let fact :=
            if right = child then
              (leftResult? operator).bind
                (factWhen? arena name nullFlowLevels left)
            else
              none
          match fact with
          | some fact => some fact
          | none => factFromPath? name outer step.referent

/-- What is known about an operand of the binary expression `parent`, given the
path above that expression. -/
def knownNullability? (path : Path) (parent : Step) (operand : Slot) :
    Option Nullability := do
  let name ← arena.nameText? (arena.skipParens operand)
  factFromPath? arena name path parent.referent

end BasicLowering.Analysis
