import BasicLowering.Proofs.Analysis.Purity
import BasicLowering.Proofs.Source.Evaluation

/-!
# What the analyses say of typed trees

On a typed tree the answers of the analyses can be read off its shape. They do
not depend on how far the arena has grown.
-/

namespace BasicLowering.Source

open Analysis Binding Semantics

/-! ## Operands -/

namespace Leaf

/-- Whether an operand may be evaluated more than once. -/
def isReusable : Leaf → Bool
  | reference .. | truth _ | digits _ => true
  | call .. | hasValue .. | comparedWithNothing .. => false

/-- Whether an operand may be left unevaluated. -/
def isPure : Leaf → Bool
  | call .. | hasValue .. => false
  | _ => true

/-- What a test for null says about a name when its value is `result`. -/
def fact? (name : String) (result : Bool) : Leaf → Option Nullability
  | hasValue _ _ text _ =>
      if Text.sameName text name then some (.ofNotNull result) else none
  | comparedWithNothing _ _ _ negated text _ =>
      if Text.sameName text name then some (.ofNotNull (result == negated))
      else none
  | _ => none

end Leaf

namespace Tree

/-- Whether an expression may be evaluated more than once. -/
def isReusable (tree : Tree Leaf) : Bool :=
  match tree.core with
  | operand _ leaf => leaf.isReusable
  | _ => false

/-- Whether an expression may be left unevaluated. -/
def isPure : Tree Leaf → Bool
  | operand _ leaf => leaf.isPure
  | parenthesized _ inner | negation _ inner => inner.isPure
  | binary _ left _ right => left.isPure && right.isPure
  | ternary _ _ _ _ => false

/-- The variable that an expression reads, if it is nothing else. -/
def reference? (tree : Tree Leaf) : Option String :=
  match tree.core with
  | operand _ (.reference text _) => some text
  | _ => none

/-- What an expression says about a name when its value is `result`, where at
most the given number of levels is looked at. -/
def fact? (name : String) : Nat → Tree Leaf → Bool → Option Nullability
  | 0, _, _ => none
  | _ + 1, operand _ leaf, result => leaf.fact? name result
  | levels + 1, parenthesized _ inner, result => fact? name levels inner result
  | levels + 1, negation _ inner, result => fact? name levels inner (!result)
  | levels + 1, binary _ left operator right, result =>
      match operator with
      | .andAlso | .and =>
          (fact? name levels left result).or (fact? name levels right result)
      | .orElse | .or =>
          let leftFact := fact? name levels left result
          if leftFact = fact? name levels right result then leftFact else none
      | _ => none
  | _ + 1, ternary _ _ _ _, _ => none

variable {world : World}

/-- A pure expression makes no calls. -/
theorem events_evaluate_of_isPure {tree : Tree Leaf}
    (pure : tree.isPure = true) : (tree.evaluate world).events = [] := by
  induction tree with
  | operand node leaf =>
      cases leaf with
      | call => cases pure
      | _ => rfl
  | parenthesized node inner ih | negation node inner ih => exact ih pure
  | binary node left operator right leftIH rightIH =>
      rw [isPure, Bool.and_eq_true] at pure
      simp only [evaluate, Outcome.binary, leftIH pure.1, rightIH pure.2,
        List.append_nil, ite_self]
  | ternary => cases pure

theorem evaluate_core (tree : Tree Leaf) :
    tree.core.evaluate world = tree.evaluate world := by
  induction tree with
  | parenthesized node inner ih => exact ih
  | operand | negation | binary | ternary => rfl

theorem events_evaluate_of_isReusable {tree : Tree Leaf}
    (reusable : tree.isReusable = true) :
    (tree.evaluate world).events = [] := by
  rw [← evaluate_core]
  unfold isReusable at reusable
  split at reusable
  · next leaf isOperand =>
      rw [isOperand]
      cases leaf with
      | reference | truth | digits => rfl
      | _ => cases reusable
  · cases reusable

end Tree

/-! ## Operands in the arena -/

variable {model : Model} {arena : Arena}

theorem isVariable_of_isLocal {node : NodeId}
    (isLocal : isLocal model node = true) :
    (model.symbol? (some node)).any isVariable = true := by
  obtain ⟨symbol, isSymbol, kind⟩ := (Option.any_eq_true _ _).mp isLocal
  rw [Bool.and_eq_true] at kind
  rw [isSymbol]
  simp [isVariable, kind.1]

/-- Outside parentheses, what may be evaluated twice is a literal or a
variable. -/
theorem isSafelyReusable_of_not_parenthesized {node : NodeId}
    (bare : arena.isParenthesized (some node) = false) :
    isSafelyReusable model arena (some node) =
      (isLiteral arena (some node) || bindsVariable model arena node) := by
  unfold isSafelyReusable Arena.skipParens
  rw [Arena.skipParensWithin_of_not_parenthesized bare]
  rfl

theorem isSafelyReusable_of_isLocalName {node : NodeId} {text : String}
    (isName : isLocalName model arena node text = true) :
    isSafelyReusable model arena (some node) = true := by
  have bare : arena.isParenthesized (some node) = false := by
    simp [Arena.isParenthesized, form?_of_isLocalName isName]
  simp only [isLocalName, Bool.and_eq_true] at isName
  rw [isSafelyReusable_of_not_parenthesized bare,
    Arena.bindsVariable_of_isParsed isName.1.2, isVariable_of_isLocal isName.2,
    Bool.or_true]

theorem form?_of_isNothing {slot : Slot}
    (nothing : arena.isNothing slot = true) :
    arena.form? slot = some (.literal .nothing) := by
  unfold Arena.isNothing at nothing
  split at nothing
  · assumption
  · cases nothing

theorem isSafelyReusable_of_isNothing {node : NodeId}
    (nothing : arena.isNothing (some node) = true) :
    isSafelyReusable model arena (some node) = true := by
  have found := form?_of_isNothing nothing
  rw [isSafelyReusable_of_not_parenthesized
    (by simp [Arena.isParenthesized, found]), isLiteral, found, Bool.true_or]

/-- What may be evaluated twice may also be left unevaluated. -/
theorem isPureWithin_of_isSafelyReusable {node : NodeId} (depth : Nat)
    (bare : arena.isParenthesized (some node) = false)
    (reusable : isSafelyReusable model arena (some node) = true) :
    isPureWithin model arena depth (some node) = true := by
  have skipped : arena.skipParens (some node) = some node :=
    Arena.skipParensWithin_of_not_parenthesized bare _
  unfold isPureWithin
  simp only [skipped, reusable, Bool.true_or]

/-- What may be evaluated twice can be read off the shape of an operand. -/
theorem Leaf.isSafelyReusable_eq {node : NodeId} {leaf : Leaf}
    (parsed : isParsed arena node = true)
    (bare : arena.isParenthesized (some node) = false)
    (read : leaf.readBy model arena node = true) :
    isSafelyReusable model arena (some node) = leaf.isReusable := by
  cases leaf with
  | reference => exact isSafelyReusable_of_isLocalName read
  | truth | digits =>
      rw [isSafelyReusable_of_not_parenthesized bare, isLiteral,
        beq_iff_eq.mp read]
      rfl
  | call =>
      simp only [readBy, Bool.and_eq_true, beq_iff_eq, Bool.not_eq_true'] at read
      rw [isSafelyReusable_of_not_parenthesized bare, isLiteral, read.1.1,
        Arena.bindsVariable_of_isParsed parsed, read.2]
      rfl
  | hasValue =>
      simp only [readBy, Bool.and_eq_true, beq_iff_eq, Option.isNone_iff_eq_none]
        at read
      rw [isSafelyReusable_of_not_parenthesized bare, isLiteral, read.1.1.1,
        Arena.bindsVariable_of_isParsed parsed, read.2]
      rfl
  | comparedWithNothing =>
      simp only [readBy, Bool.and_eq_true, beq_iff_eq, Bool.not_eq_true'] at read
      rw [isSafelyReusable_of_not_parenthesized bare, isLiteral, read.1.1.1,
        Arena.bindsVariable_of_isParsed parsed, read.2]
      rfl

/-- Whether the operands of an operator may be left unevaluated. -/
def isPureForm (model : Model) (arena : Arena) (depth : Nat) : Form → Bool
  | .binary left _ right =>
      isPureWithin model arena depth left &&
        isPureWithin model arena depth right
  | .unary _ operand => isPureWithin model arena depth operand
  | _ => false

/-- Below what may not be evaluated twice, purity is that of the operands. -/
theorem isPureWithin_operator {node : NodeId} {form : Form} {depth : Nat}
    (bare : arena.isParenthesized (some node) = false)
    (found : arena.form? (some node) = some form)
    (notReusable : isSafelyReusable model arena (some node) = false) :
    isPureWithin model arena (depth + 1) (some node) =
      isPureForm model arena depth form := by
  have skipped : arena.skipParens (some node) = some node :=
    Arena.skipParensWithin_of_not_parenthesized bare _
  rw [isPureWithin_succ_eq, skipped, notReusable, found, Bool.false_or]
  cases form <;> rfl

/-- A test for `Nothing` may be left unevaluated, but must not be repeated. -/
theorem Leaf.isPureWithin_eq {node : NodeId} {leaf : Leaf}
    (parsed : isParsed arena node = true)
    (bare : arena.isParenthesized (some node) = false)
    (read : leaf.readBy model arena node = true) (depth : Nat) :
    isPureWithin model arena (depth + 1) (some node) = leaf.isPure := by
  have reusable := Leaf.isSafelyReusable_eq parsed bare read
  cases leaf with
  | reference | truth | digits =>
      exact isPureWithin_of_isSafelyReusable _ bare reusable
  | call =>
      simp only [readBy, Bool.and_eq_true, beq_iff_eq] at read
      exact isPureWithin_operator bare read.1.1 reusable
  | hasValue =>
      simp only [readBy, Bool.and_eq_true, beq_iff_eq] at read
      exact isPureWithin_operator bare read.1.1.1 reusable
  | comparedWithNothing left right nameFirst negated text base =>
      simp only [readBy, Bool.and_eq_true, beq_iff_eq] at read
      obtain ⟨⟨⟨found, isName⟩, nothing⟩, -⟩ := read
      have namePure : isPureWithin model arena depth _ = true :=
        isPureWithin_of_isSafelyReusable depth
          (by simp [Arena.isParenthesized, form?_of_isLocalName isName])
          (isSafelyReusable_of_isLocalName isName)
      have nothingPure : isPureWithin model arena depth _ = true :=
        isPureWithin_of_isSafelyReusable depth
          (by simp [Arena.isParenthesized, form?_of_isNothing nothing])
          (isSafelyReusable_of_isNothing nothing)
      rw [isPureWithin_operator bare found reusable]
      cases nameFirst with
      | true => exact Bool.and_eq_true_iff.mpr ⟨namePure, nothingPure⟩
      | false => exact Bool.and_eq_true_iff.mpr ⟨nothingPure, namePure⟩

theorem isName_of_isLocalName {node : NodeId} {text : String}
    (isName : isLocalName model arena node text = true) (name : String) :
    Analysis.isName arena name (some node) = Text.sameName text name := by
  have found := form?_of_isLocalName isName
  have skipped : arena.skipParens (some node) = some node :=
    Arena.skipParensWithin_of_not_parenthesized
      (by simp [Arena.isParenthesized, found]) _
  rw [Analysis.isName, skipped, Arena.nameText?, found]
  rfl

/-- The sides of a test for `Nothing` are found in either order. -/
theorem isNameAndNothing_of_isLocalName {node other : NodeId} {text : String}
    (isName : isLocalName model arena node text = true)
    (nothing : arena.isNothing (some other) = true) (name : String) :
    isNameAndNothing arena name (some node) (some other) =
        Text.sameName text name ∧
      isNameAndNothing arena name (some other) (some node) =
        Text.sameName text name := by
  have found := form?_of_isLocalName isName
  have otherFound := form?_of_isNothing nothing
  have skipped : arena.skipParens (some node) = some node :=
    Arena.skipParensWithin_of_not_parenthesized
      (by simp [Arena.isParenthesized, found]) _
  have otherSkipped : arena.skipParens (some other) = some other :=
    Arena.skipParensWithin_of_not_parenthesized
      (by simp [Arena.isParenthesized, otherFound]) _
  have notNothing : arena.isNothing (some node) = false := by
    simp [Arena.isNothing, found]
  simp [isNameAndNothing, isName_of_isLocalName isName, skipped, otherSkipped,
    nothing, notNothing]

/-- What a test for null says about a name can be read off its shape. -/
theorem Leaf.factWhen?_eq {node : NodeId} {leaf : Leaf}
    (read : leaf.readBy model arena node = true) (name : String) (levels : Nat)
    (result : Bool) :
    factWhen? arena name (levels + 1) (some node) result =
      leaf.fact? name result := by
  cases leaf with
  | reference =>
      rw [factWhen?, form?_of_isLocalName read]
      rfl
  | truth | digits =>
      rw [factWhen?, beq_iff_eq.mp read]
      rfl
  | call =>
      simp only [readBy, Bool.and_eq_true, beq_iff_eq] at read
      rw [factWhen?, read.1.1]
      rfl
  | hasValue receiver member text base =>
      simp only [readBy, Bool.and_eq_true, beq_iff_eq] at read
      rw [factWhen?, read.1.1.1]
      simp only [Arena.nameText?, read.1.1.2, form?_of_isLocalName read.1.2]
      rfl
  | comparedWithNothing left right nameFirst negated text base =>
      simp only [readBy, Bool.and_eq_true, beq_iff_eq] at read
      obtain ⟨⟨⟨found, isName⟩, nothing⟩, -⟩ := read
      have sameName : isNameAndNothing arena name (some left) (some right) =
          Text.sameName text name := by
        cases nameFirst with
        | true => exact (isNameAndNothing_of_isLocalName isName nothing name).1
        | false => exact (isNameAndNothing_of_isLocalName isName nothing name).2
      rw [factWhen?, found]
      cases negated with
      | true => simp only [fact?, sameName, if_true, beq_true]
      | false =>
          simp only [fact?, sameName, Bool.false_eq_true, if_false, beq_false]

namespace Tree.ReadBy

variable {tree : Tree Leaf}

theorem core (read : tree.ReadBy model arena) :
    tree.core.ReadBy model arena := by
  induction tree with
  | parenthesized node inner ih => exact ih read.of_parenthesized
  | operand | negation | binary | ternary => exact read

/-- What may be evaluated twice can be read off the shape of an expression. -/
theorem isSafelyReusable_eq (read : tree.ReadBy model arena) :
    isSafelyReusable model arena tree.slot = tree.isReusable := by
  induction tree with
  | operand node leaf =>
      exact Leaf.isSafelyReusable_eq read.known.1 read.held.2 read.known.2.2
  | parenthesized node inner ih =>
      rw [isReusable, Tree.core]
      rw [← isReusable, ← ih read.of_parenthesized]
      unfold isSafelyReusable
      rw [read.skipParens, read.of_parenthesized.skipParens, Tree.core]
  | negation | binary | ternary =>
      exact isSafelyReusable_eq_false read.held.core_not_parenthesized
        (by simp [isLiteral, slot, root, read.held.1]) read.held.2.1

/-- What may be left unevaluated can be read off the shape of an expression. -/
theorem isPureWithin_eq (read : tree.ReadBy model arena) {depth : Nat}
    (enough : tree.nodes.length ≤ depth) :
    isPureWithin model arena depth tree.slot = tree.isPure := by
  induction tree generalizing depth with
  | operand node leaf =>
      obtain ⟨depth, rfl⟩ := Nat.exists_eq_add_of_le' enough
      exact Leaf.isPureWithin_eq read.known.1 read.held.2 read.known.2.2 depth
  | parenthesized node inner ih =>
      have sameCore : arena.skipParens (parenthesized node inner).slot =
          arena.skipParens inner.slot := by
        rw [read.skipParens, read.of_parenthesized.skipParens, Tree.core]
      rw [isPureWithin_congr depth sameCore]
      exact ih read.of_parenthesized (Nat.le_of_succ_le enough)
  | negation node inner ih =>
      obtain ⟨depth, rfl⟩ : ∃ less, depth = less + 1 :=
        Nat.exists_eq_add_of_le' ((Nat.le_add_left 1 _).trans enough)
      have bare : arena.isParenthesized (some node) = false :=
        read.held.core_not_parenthesized
      exact (isPureWithin_operator bare read.held.1
        read.isSafelyReusable_eq).trans
          (ih read.of_negation (Nat.le_of_succ_le_succ enough))
  | binary node left operator right leftIH rightIH =>
      obtain ⟨depth, rfl⟩ : ∃ less, depth = less + 1 :=
        Nat.exists_eq_add_of_le' ((Nat.le_add_left 1 _).trans enough)
      have bare : arena.isParenthesized (some node) = false :=
        read.held.core_not_parenthesized
      rw [nodes, List.length_cons, List.length_append] at enough
      have leftPure : isPureWithin model arena depth left.slot = left.isPure :=
        leftIH read.of_binary_left (by omega)
      have rightPure : isPureWithin model arena depth right.slot =
          right.isPure := rightIH read.of_binary_right (by omega)
      rw [isPure, ← leftPure, ← rightPure]
      exact isPureWithin_operator bare read.held.1 read.isSafelyReusable_eq
  | ternary node condition whenTrue whenFalse =>
      obtain ⟨depth, rfl⟩ : ∃ less, depth = less + 1 :=
        Nat.exists_eq_add_of_le' ((Nat.le_add_left 1 _).trans enough)
      have bare : arena.isParenthesized (some node) = false :=
        read.held.core_not_parenthesized
      exact isPureWithin_operator bare read.held.1 read.isSafelyReusable_eq

theorem isPure_eq (read : tree.ReadBy model arena) :
    Analysis.isPure model arena tree.slot = tree.isPure :=
  read.isPureWithin_eq (read.held.length_nodes_le read.distinct)

/-- What an expression says about a name can be read off its shape. -/
theorem factWhen?_eq (read : tree.ReadBy model arena)
    (isTyped : tree.IsTyped) (name : String) (levels : Nat)
    (result : Bool) :
    factWhen? arena name levels tree.slot result =
      tree.fact? name levels result := by
  induction tree generalizing levels result with
  | operand node leaf =>
      cases levels with
      | zero => rfl
      | succ levels => exact Leaf.factWhen?_eq read.known.2.2 name levels result
  | parenthesized node inner ih =>
      cases levels with
      | zero => rfl
      | succ levels =>
          rw [factWhen?, slot, root, read.held.1]
          exact ih read.of_parenthesized isTyped levels result
  | negation node inner ih =>
      cases levels with
      | zero => rfl
      | succ levels =>
          rw [factWhen?, slot, root, read.held.1]
          exact ih read.of_negation isTyped.2 levels (!result)
  | binary node left operator right leftIH rightIH =>
      cases levels with
      | zero => rfl
      | succ levels =>
          obtain ⟨restated, -, -, leftTyped, rightTyped⟩ := isTyped
          have leftFact := leftIH read.of_binary_left leftTyped levels result
          have rightFact :=
            rightIH read.of_binary_right rightTyped levels result
          rw [factWhen?, slot, root, read.held.1]
          simp only [leftFact, rightFact]
          cases operator <;> first | rfl | cases restated
  | ternary node condition whenTrue whenFalse =>
      cases levels with
      | zero => rfl
      | succ levels =>
          rw [factWhen?, slot, root, read.held.1]
          rfl

/-- The name that is followed is that of the variable an expression reads. -/
theorem nameText?_eq (read : tree.ReadBy model arena) :
    arena.nameText? (arena.skipParens tree.slot) = tree.reference? := by
  have coreRead := read.core
  rw [read.skipParens, reference?]
  cases isCore : tree.core with
  | operand node leaf =>
      rw [isCore] at coreRead
      have leafRead := coreRead.known.2.2
      rw [slot, root, Arena.nameText?]
      cases leaf with
      | reference => rw [form?_of_isLocalName leafRead]
      | truth | digits => rw [beq_iff_eq.mp leafRead]
      | call | hasValue | comparedWithNothing =>
          simp only [Leaf.readBy, Bool.and_eq_true, beq_iff_eq] at leafRead
          simp only [leafRead]
  | parenthesized | negation | binary | ternary =>
      rw [isCore] at coreRead
      simp only [slot, root, Arena.nameText?, coreRead.held.1]

end Tree.ReadBy

end BasicLowering.Source
