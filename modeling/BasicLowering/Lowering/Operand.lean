import BasicLowering.Analysis.BooleanContext
import BasicLowering.Analysis.NullFlow
import BasicLowering.Lowering.Capture
import BasicLowering.Options.Basic

/-!
# Operands

What is known about the operands of an operator that is to be restated. An
operand may be null when its own type is nullable and neither an earlier
restatement nor an enclosing condition rules null out.
-/

namespace BasicLowering.Lowering

open Source Binding Analysis
open Target (Expr)

/-- A converted expression. The mark says that its value is not null although
the source expression has a nullable type. -/
structure Lowered where
  expr : Expr
  notNull : Bool := false

namespace Lowered

/-- A converted expression that may be null if its type allows. -/
def plain (expr : Expr) : Lowered := ⟨expr, false⟩

/-- A converted expression that is not null. -/
def proven (expr : Expr) : Lowered := ⟨expr, true⟩

end Lowered

/-- What a restatement is made from: the knowledge of the front end, the tree
and the options. -/
structure Site where
  model : Model
  arena : Arena
  options : Options

/-- One side of an operator. -/
structure Operand where
  slot : Slot
  expr : Expr
  mayBeNull : Bool
  isReusable : Bool

namespace Site

variable (site : Site)

/-- Whether null has to be reckoned with in an operand of the binary expression
`parent`, given the path above that expression. -/
def mayBeNull (path : Path) (parent : Step) (slot : Slot) (type : ExprType)
    (lowered : Lowered) : Bool :=
  type.own.any site.model.types.isNullable && !lowered.notNull &&
    !(site.options.simplifyCheckedComparisons &&
      knownNullability? site.arena path parent slot == some .notNull)

/-- Gather what is known about an operand. -/
def operand (path : Path) (parent : Step) (slot : Slot) (type : ExprType)
    (lowered : Lowered) : Operand where
  slot := slot
  expr := lowered.expr
  mayBeNull := site.mayBeNull path parent slot type lowered
  isReusable := isSafelyReusable site.model site.arena slot

/-- Whether an operand may be left unevaluated. -/
def isPure (operand : Operand) : Bool :=
  Analysis.isPure site.model site.arena operand.slot

/-- A constant in the arm of a conditional of type `bool?`. -/
def nullableConstant (value : Expr) : Expr :=
  if site.options.explicitNullableCasts then .cast "bool?" value else value

def nullableNull : Expr := site.nullableConstant .null
def nullableTrue : Expr := site.nullableConstant (.boolean true)
def nullableFalse : Expr := site.nullableConstant (.boolean false)

end Site

/-- An operand compared with `true` if it may be null, so that null counts as
false. -/
def Operand.collapsed (operand : Operand) : Expr :=
  if operand.mayBeNull then operand.expr.equalsTrue else operand.expr

end BasicLowering.Lowering
