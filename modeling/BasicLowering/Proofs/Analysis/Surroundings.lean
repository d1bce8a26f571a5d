import BasicLowering.Analysis.BooleanContext
import BasicLowering.Proofs.Analysis.TypedTrees

/-!
# What surrounds a typed tree

The analyses ask the levels above an expression whether null counts as false in
its place, and what is known of variables there. Both answers are passed down
from an expression to its parts. They stay the same while the arena grows.
-/

namespace BasicLowering.Source

open Analysis Binding

/-- Whether null counts as false for the left operand where it does for the
result. -/
def passesLeft (operator : BinaryOperator) (right : Tree Leaf) : Bool :=
  match operator with
  | .andAlso => right.isPure
  | .orElse | .equals | .notEquals => true
  | _ => false

/-- Whether null counts as false for the right operand where it does for the
result. -/
def passesRight : BinaryOperator → Bool
  | .andAlso | .orElse | .equals | .notEquals => true
  | _ => false

/-- What is known of variables. -/
abbrev Facts := String → Option Nullability

/-- Nothing is known. -/
def Facts.nothing : Facts := fun _ => none

/-- What is known where a right operand is evaluated: what the left one says,
and otherwise what is known of the whole. -/
def Facts.right (facts : Facts) (left : Tree Leaf) (operator : BinaryOperator) :
    Facts :=
  fun name =>
    ((leftResult? operator).bind (left.fact? name nullFlowLevels)).or
      (facts name)

/-- What the path above an expression says in every arena from now on: whether
null counts as false there, and what is known of variables. -/
structure Stands (model : Model) (arena : Arena) (path : Path)
    (tree : Tree Leaf) (collapses : Bool) (facts : Facts) : Prop where
  collapses : ∀ later, arena.Grows later →
    canConvertToBoolean model later path tree.core.slot = collapses
  facts : ∀ later, arena.Grows later → ∀ name,
    factFromPath? later name path tree.slot = facts name

namespace Stands

variable {model : Model} {arena later : Arena} {path : Path} {here : Step}
variable {node : NodeId} {inner left right test whenTrue whenFalse : Tree Leaf}
variable {tree : Tree Leaf}
variable {operator effective : BinaryOperator} {collapses : Bool}
variable {facts : Facts}

theorem of_grows (stands : Stands model arena path tree collapses facts)
    (grows : arena.Grows later) :
    Stands model later path tree collapses facts where
  collapses more growsMore := stands.collapses more (grows.trans growsMore)
  facts more growsMore := stands.facts more (grows.trans growsMore)

/-- Below a level that is no operator nothing is known. -/
theorem factFromPath?_of_not_binary {form : Form}
    (found : arena.form? here.effective = some form)
    (noOperator : ∀ left operator right, form ≠ .binary left operator right)
    (name : String) (child : Slot) :
    factFromPath? arena name (here :: path) child = none := by
  have notBinary : arena.binary? here.effective = none := by
    unfold Arena.binary?
    rw [found]
    cases form <;> first | rfl | exact absurd rfl (noOperator _ _ _)
  rw [factFromPath?, notBinary]

/-- In parentheses null counts as false where it does around them. -/
theorem inParentheses
    (stands : Stands model arena path (.parenthesized node inner) collapses
      facts)
    (found : arena.form? here.effective = some (.parenthesized inner.slot)) :
    Stands model arena (here :: path) inner collapses .nothing where
  collapses later grows := by
    have isParenthesized : later.isParenthesized here.effective = true := by
      simp [Arena.isParenthesized, grows.form? found]
    rw [canConvertToBoolean, if_pos isParenthesized]
    exact stands.collapses later grows
  facts later grows name :=
    factFromPath?_of_not_binary (grows.form? found) nofun name _

/-- Under `Not` null does not count as false. -/
theorem underNegation
    (found : arena.form? here.effective = some (.unary .not inner.slot)) :
    Stands model arena (here :: path) inner false .nothing where
  collapses later grows := by
    simp [canConvertToBoolean, Arena.isParenthesized, asksForTruth,
      Arena.binary?, grows.form? found]
  facts later grows name :=
    factFromPath?_of_not_binary (grows.form? found) nofun name _

/-- Below an operator null counts as false where it does for the result and the
operator passes it on. -/
theorem canConvertToBoolean_operand {left right slot : Slot}
    (found : arena.form? here.effective = some (.binary left effective right)) :
    canConvertToBoolean model arena (here :: path) slot =
      (canConvertToBoolean model arena path here.referent &&
        passesCollapse model arena left effective right slot) := by
  have bare : arena.isParenthesized here.effective = false := by
    simp [Arena.isParenthesized, found]
  have asksNothing : asksForTruth arena here slot = false := by
    simp [asksForTruth, found]
  have isBinary : arena.binary? here.effective =
      some (left, effective, right) := by
    simp [Arena.binary?, found]
  rw [canConvertToBoolean, if_neg (Bool.eq_false_iff.mp bare), asksNothing,
    isBinary, Bool.false_or]

/-- The left operand of an operator. -/
theorem leftOperand
    (stands : Stands model arena path (.binary node left operator right)
      collapses facts)
    (read : (Tree.binary node left operator right).ReadBy model arena)
    (refers : here.referent = some node)
    (found : arena.form? here.effective =
      some (.binary left.slot effective right.slot)) :
    Stands model arena (here :: path) left
      (collapses && passesLeft effective right) facts where
  collapses later grows := by
    have leftRead := read.of_binary_left.of_grows grows
    have rightRead := read.of_binary_right.of_grows grows
    rw [canConvertToBoolean_operand (grows.form? found), refers]
    congr 1
    · exact stands.collapses later grows
    · cases effective with
      | andAlso =>
          rw [passesCollapse, leftRead.skipParens, bne_self_eq_false,
            Bool.false_or, rightRead.isPure_eq]
          rfl
      | _ => rfl
  facts later grows name := by
    have different : right.slot ≠ left.slot := fun same =>
      read.ne_of_binary left.root_mem_nodes right.root_mem_nodes
        (Option.some.inj same).symm
    have isBinary : later.binary? here.effective =
        some (left.slot, effective, right.slot) := by
      simp [Arena.binary?, grows.form? found]
    rw [factFromPath?, isBinary]
    simp only [if_neg different, refers]
    exact stands.facts later grows name

/-- The right operand of an operator. -/
theorem rightOperand
    (stands : Stands model arena path (.binary node left operator right)
      collapses facts)
    (read : (Tree.binary node left operator right).ReadBy model arena)
    (leftTyped : left.IsTyped) (refers : here.referent = some node)
    (found : arena.form? here.effective =
      some (.binary left.slot effective right.slot)) :
    Stands model arena (here :: path) right
      (collapses && passesRight effective) (facts.right left effective) where
  collapses later grows := by
    have leftRead := read.of_binary_left.of_grows grows
    have different : right.core.slot ≠ left.core.slot := fun same =>
      read.ne_of_binary left.core_root_mem_nodes right.core_root_mem_nodes
        (Option.some.inj same).symm
    rw [canConvertToBoolean_operand (grows.form? found), refers]
    congr 1
    · exact stands.collapses later grows
    · cases effective with
      | andAlso =>
          rw [passesCollapse, leftRead.skipParens, bne_iff_ne.mpr different,
            Bool.true_or]
          rfl
      | _ => rfl
  facts later grows name := by
    have leftFact : factWhen? later name nullFlowLevels left.slot =
        left.fact? name nullFlowLevels :=
      funext fun result =>
        (read.of_binary_left.of_grows grows).factWhen?_eq leftTyped name _
          result
    have isBinary : later.binary? here.effective =
        some (left.slot, effective, right.slot) := by
      simp [Arena.binary?, grows.form? found]
    have outer : factFromPath? later name path (some node) = facts name :=
      stands.facts later grows name
    rw [factFromPath?, isBinary]
    simp only [if_true, refers, leftFact, outer, Facts.right]
    cases (leftResult? effective).bind (left.fact? name nullFlowLevels) <;> rfl

/-! ## Conditions -/

/-- A condition of a statement or of a ternary. -/
theorem ofCondition (read : tree.ReadBy model arena) {form : Form}
    (found : arena.form? here.effective = some form)
    (isCondition : (∃ kind, form = .conditionStatement kind tree.slot) ∨
      ∃ whenTrue whenFalse, form = .ternary tree.slot whenTrue whenFalse) :
    Stands model arena (here :: path) tree true .nothing where
  collapses later grows := by
    have laterRead := read.of_grows grows
    have laterFound := grows.form? found
    have bare : later.isParenthesized here.effective = false := by
      rcases isCondition with ⟨kind, rfl⟩ | ⟨whenTrue, whenFalse, rfl⟩ <;>
        simp [Arena.isParenthesized, laterFound]
    have asks : asksForTruth later here tree.core.slot = true := by
      rcases isCondition with ⟨kind, rfl⟩ | ⟨whenTrue, whenFalse, rfl⟩ <;>
        simp [asksForTruth, laterFound, laterRead.skipParens,
          laterRead.held.skipParens_core]
    rw [canConvertToBoolean, if_neg (Bool.eq_false_iff.mp bare), asks,
      Bool.true_or]
  facts later grows name := by
    apply factFromPath?_of_not_binary (grows.form? found)
    rintro left operator right rfl
    rcases isCondition with ⟨_, same⟩ | ⟨_, _, same⟩ <;> cases same

/-- Where nothing asks for truth, null does not count as false. -/
theorem canConvertToBoolean_eq_false {slot : Slot}
    (asksNothing : asksForTruth arena here slot = false)
    (bare : arena.isParenthesized here.effective = false)
    (noOperator : arena.binary? here.effective = none) :
    canConvertToBoolean model arena (here :: path) slot = false := by
  rw [canConvertToBoolean, if_neg (Bool.eq_false_iff.mp bare), asksNothing,
    noOperator, Bool.false_or]

/-- The condition of a statement. -/
theorem condition {kind : ConditionKind} (read : tree.ReadBy model arena)
    (found : arena.form? here.effective =
      some (.conditionStatement kind tree.slot)) :
    Stands model arena (here :: path) tree true .nothing :=
  ofCondition read found (.inl ⟨kind, rfl⟩)

/-- The condition of a ternary. -/
theorem ternaryTest
    (read : (Tree.ternary node test whenTrue whenFalse).ReadBy model arena)
    (found : arena.form? here.effective =
      some (.ternary test.slot whenTrue.slot whenFalse.slot)) :
    Stands model arena (here :: path) test true .nothing :=
  ofCondition read.of_ternary_test found (.inr ⟨_, _, rfl⟩)

/-- The branches of a ternary. -/
theorem ternaryBranch
    (read : (Tree.ternary node test whenTrue whenFalse).ReadBy model arena)
    (found : arena.form? here.effective =
      some (.ternary test.slot whenTrue.slot whenFalse.slot))
    (isBranch : tree = whenTrue ∨ tree = whenFalse) :
    Stands model arena (here :: path) tree false .nothing where
  collapses later grows := by
    have testRead := read.of_ternary_test.of_grows grows
    have branchRead : tree.ReadBy model later := by
      rcases isBranch with rfl | rfl
      · exact read.of_ternary_true.of_grows grows
      · exact read.of_ternary_false.of_grows grows
    have inBranch :
        tree.core.root ∈ whenTrue.nodes ∨ tree.core.root ∈ whenFalse.nodes := by
      rcases isBranch with rfl | rfl
      · exact .inl tree.core_root_mem_nodes
      · exact .inr tree.core_root_mem_nodes
    have different : test.core.slot ≠ tree.core.slot := fun same =>
      read.ne_of_ternary test.core_root_mem_nodes inBranch
        (Option.some.inj same)
    apply canConvertToBoolean_eq_false
    · simp [asksForTruth, grows.form? found, testRead.skipParens,
        branchRead.held.skipParens_core, different]
    · simp [Arena.isParenthesized, grows.form? found]
    · simp [Arena.binary?, grows.form? found]
  facts later grows name :=
    factFromPath?_of_not_binary (grows.form? found) nofun name _

/-- The expressions of other statements. -/
theorem ofStatement {form : Form}
    (found : arena.form? here.effective = some form)
    (isStatement : form.isStatement = true)
    (noCondition : ∀ kind condition, form ≠ .conditionStatement kind condition) :
    Stands model arena (here :: path) tree false .nothing where
  collapses later grows := by
    have laterFound := grows.form? found
    apply canConvertToBoolean_eq_false
    all_goals
      simp only [asksForTruth, Arena.isParenthesized, Arena.binary?, laterFound]
      cases form <;>
        first | rfl | exact absurd rfl (noCondition _ _) | cases isStatement
  facts later grows name := by
    apply factFromPath?_of_not_binary (grows.form? found)
    rintro left operator right rfl
    cases isStatement

end Stands

end BasicLowering.Source
