import BasicLowering.Proofs.Analysis.Surroundings
import BasicLowering.Proofs.Lowering.Names
import BasicLowering.Proofs.Lowering.Visits
import BasicLowering.Proofs.Qualification.Decisions

/-!
# Conversions of typed trees

A typed tree for which there is room is always converted. The rule for names leaves
its parts alone, except that it may put a short-circuiting operator in place of an
eager one.

What a conversion makes of a tree is shown once for all properties that are kept from
the operands of an expression to the whole (`Preserved`): the operands are what their
leaves say, and an operator is restated from what is known of its operands.
-/

namespace BasicLowering.Lowering

open Source Binding Analysis Qualification
open Target (Expr Pattern)

/-! ## What the rule for names decides -/

section

variable {setting : Setting} {path : Path} {qualify : Bool} {slot : Slot}
variable {session : Session} {form : Form} {node : NodeId} {text : String}

/-- The level of a node that is settled on. -/
abbrev stepAt (setting : Setting) (path : Path) (qualify : Bool) (slot : Slot)
    (session : Session) : Step :=
  ⟨slot, (settledOn slot (settleAt setting path qualify slot session).1).node⟩

/-- Whether settling on a node only adds nodes and ends with one of a certain form. -/
structure SettlesOn (setting : Setting) (path : Path) (qualify : Bool) (slot : Slot)
    (session : Session) (form : Form) : Prop where
  grows : session.arena.Grows (settleAt setting path qualify slot session).2.arena
  found : (settleAt setting path qualify slot session).2.arena.form?
    (stepAt setting path qualify slot session).effective = some form

/-- Where names are not qualified, every node stays in place. -/
theorem settlesOn_unqualified (found : session.arena.form? slot = some form)
    (notQualifying : (qualify && setting.options.qualifyNames) = false) :
    SettlesOn setting path qualify slot session form := by
  have skips : settleAt setting path qualify slot session = (.skip, session) := by
    rw [settleAt, notQualifying, if_neg Bool.false_ne_true]
  constructor
  · rw [skips]
    exact .refl session.arena
  · rw [stepAt, skips]
    exact found

/-- Where names are qualified, the rule for names decides. -/
theorem settlesOn_decision (isNames : setting.expander = names)
    (qualifying : (qualify && setting.options.qualifyNames) = true)
    {decision : Decision} {arena : Arena}
    (decides : names.decision setting.model path slot session.arena =
      (decision, arena))
    (grows : session.arena.Grows arena)
    (found : arena.form? (settledOn slot decision).node = some form) :
    SettlesOn setting path qualify slot session form := by
  have settled : settleAt setting path qualify slot session =
      (decision, { session with arena }.request
        (settledOn slot decision).staticImport) := by
    rw [settleAt, if_pos qualifying, isNames, decides]
  constructor
  · rw [settled, arena_request]
    exact grows
  · rw [stepAt, settled, arena_request]
    exact found

/-- Only names, accesses and eager operators are expanded. -/
theorem expandsNode_eq_false {model : Model} {arena : Arena}
    (found : arena.form? slot = some form) (notSimple : form.isSimpleName = false)
    (notEager : isEagerLogical arena slot = false)
    (noAccess : isExpandableAccess model arena slot = false) :
    expandsNode model arena path slot = false := by
  simp [expandsNode, notEager, noAccess, isExpandableName, Arena.isSimpleName, found,
    notSimple]

/-- A node that is not expanded stays in place. -/
theorem settlesOn_kept (path : Path) (qualify : Bool)
    (isNames : setting.expander = names)
    (found : session.arena.form? slot = some form)
    (kept : expandsNode setting.model session.arena path slot = false) :
    SettlesOn setting path qualify slot session form := by
  cases qualifying : qualify && setting.options.qualifyNames with
  | false => exact settlesOn_unqualified found qualifying
  | true =>
      have notEager : isEagerLogical session.arena slot = false := by
        rw [expandsNode, Bool.or_eq_false_iff] at kept
        exact kept.2
      have decides := decision_other setting.model path notEager
      rw [kept, if_neg Bool.false_ne_true] at decides
      split at decides <;>
        exact settlesOn_decision isNames qualifying decides (.refl session.arena) found

/-- Whether a node of a form is neither a name nor an access nor an operator on two
operands, so that the rule for names keeps it whatever it is made of. -/
def isAlwaysKept : Form → Bool
  | .identifier _ | .memberAccess .. | .binary .. => false
  | _ => true

/-- A node of such a form stays in place. -/
theorem settlesOn_alwaysKept (path : Path) (qualify : Bool)
    (isNames : setting.expander = names)
    (found : session.arena.form? slot = some form)
    (alwaysKept : isAlwaysKept form = true) :
    SettlesOn setting path qualify slot session form := by
  apply settlesOn_kept path qualify isNames found
  cases form with
  | identifier | memberAccess | binary => cases alwaysKept
  | _ =>
      apply expandsNode_eq_false found rfl
      · simp [isEagerLogical, Arena.binary?, found]
      · simp [isExpandableAccess, found]

/-- The symbol of a local variable. -/
theorem exists_symbol_of_isLocalName
    (isName : isLocalName setting.model session.arena node text = true) :
    ∃ symbol, setting.model.symbol? (session.arena.standsFor (some node)) =
        some symbol ∧
      needsContainer symbol = false ∧ symbol.isInstanceMember = false ∧
      symbol.isGenericMethod = false := by
  simp only [isLocalName, Bool.and_eq_true] at isName
  obtain ⟨⟨-, parsed⟩, isLocal⟩ := isName
  obtain ⟨symbol, binds, isLocal⟩ := (Option.any_eq_true _ _).mp isLocal
  rw [Bool.and_eq_true, beq_iff_eq, Bool.not_eq_true'] at isLocal
  rw [Arena.standsFor, Arena.standsFor_of_isParsed parsed]
  refine ⟨symbol, binds, ?_, ?_, ?_⟩
  · rw [needsContainer, isLocal.1, isLocal.2]
    rfl
  · rw [Symbol.isInstanceMember, Symbol.isMember, isLocal.1]
    exact Bool.and_false _
  · rw [Symbol.isGenericMethod, isLocal.1]
    rfl

/-- Written out in full, a local variable is itself. -/
theorem fullNames_local
    (isName : isLocalName setting.model session.arena node text = true) :
    fullNames setting.model (some node) session.arena =
      (some node, session.arena) := by
  obtain ⟨symbol, binds, noContainer, noMember, -⟩ :=
    exists_symbol_of_isLocalName isName
  have positive : growthLimit ≠ 0 := by decide
  unfold fullNames
  generalize growthLimit = limit at positive
  obtain ⟨depth, rfl⟩ := Nat.exists_eq_succ_of_ne_zero positive
  simp only [Building.run_bind, Building.run_get, fullNamesWithin,
    form?_of_isLocalName isName, fullNameOf, binds, noContainer, noMember,
    Bool.false_and, Bool.false_eq_true, if_false, Building.run_pure]

/-- An expansion leaves a local variable in place. The step that writes it out in
full has a name of its own here, which keeps its depth closed. -/
theorem expand_local (path : Path) {writeOut : Building Slot}
    (isName : isLocalName setting.model session.arena node text = true)
    (isWriteOut : fullNames setting.model (some node) = writeOut) :
    ∃ staticImport, expand setting.model path (some node) session.arena =
      (⟨some node, staticImport⟩, session.arena) := by
  obtain ⟨symbol, binds, -, noMember, notGeneric⟩ :=
    exists_symbol_of_isLocalName isName
  have found := form?_of_isLocalName isName
  have written : writeOut session.arena = (some node, session.arena) :=
    isWriteOut ▸ fullNames_local isName
  have notEager : isEagerLogical session.arena (some node) = false := by
    simp [isEagerLogical, Arena.binary?, found]
  have notAnonymous :
      isAnonymousAccess setting.model session.arena (some node) = false := by
    simp [isAnonymousAccess, found]
  refine ⟨staticImport? setting.model session.arena (some node) symbol, ?_⟩
  unfold expand expandReference throughAttachedReceiver? throughFullName
  rw [isWriteOut]
  simp [notEager, binds, implicitInstance?, noMember, isPromoted, notGeneric,
    notAnonymous, written]

/-- A local variable stays in place. -/
theorem settlesOn_local (path : Path) (qualify : Bool)
    (isNames : setting.expander = names)
    (isName : isLocalName setting.model session.arena node text = true) :
    SettlesOn setting path qualify (some node) session (.identifier text) := by
  have found := form?_of_isLocalName isName
  cases expands : expandsNode setting.model session.arena path (some node) with
  | false => exact settlesOn_kept path qualify isNames found expands
  | true =>
      cases qualifying : qualify && setting.options.qualifyNames with
      | false => exact settlesOn_unqualified found qualifying
      | true =>
          have notEager : isEagerLogical session.arena (some node) = false := by
            simp [isEagerLogical, Arena.binary?, found]
          obtain ⟨staticImport, expanded⟩ :=
            expand_local path isName rfl
          have decides := decision_other setting.model path notEager
          rw [expands, if_pos rfl, expanded] at decides
          exact settlesOn_decision isNames qualifying decides
            (.refl session.arena) found

end

/-! ## Operators in each other's place -/

/-- Whether an operator may be carried out by another one: by itself, or by its
short-circuiting form where both operands are Boolean and the right one may be left
unevaluated. -/
def CarriedOutBy (operator effective : BinaryOperator) (left right : Source.Tree Leaf) :
    Prop :=
  effective = operator ∨
    operator.shortCircuitForm? = some effective ∧ left.type.nullable = false ∧
      right.type.nullable = false ∧ right.isPure = true

namespace CarriedOutBy

variable {operator effective : BinaryOperator} {left right : Source.Tree Leaf}

theorem isRestated (carried : CarriedOutBy operator effective left right)
    (restated : isRestated operator = true) :
    Lowering.isRestated effective = true := by
  rcases carried with rfl | ⟨isForm, -⟩
  · exact restated
  · cases operator <;> cases isForm <;> rfl

theorem isRelational_eq (carried : CarriedOutBy operator effective left right) :
    effective.isRelational = operator.isRelational := by
  rcases carried with rfl | ⟨isForm, -⟩
  · rfl
  · cases operator <;> cases isForm <;> rfl

theorem takes_eq (carried : CarriedOutBy operator effective left right)
    (base : Scalar) : takes effective base = takes operator base := by
  rcases carried with rfl | ⟨isForm, -⟩
  · rfl
  · cases operator <;> cases isForm <;> cases base <;> rfl

theorem noTest (carried : CarriedOutBy operator effective left right)
    (restated : Lowering.isRestated operator = true) {slot other : Slot}
    {arena : Arena} :
    nothingPattern? effective = none ∨
      comparedWithNothing? arena slot other = none := by
  refine .inl ?_
  have restatedToo := carried.isRestated restated
  cases effective <;> first | rfl | cases restatedToo

end CarriedOutBy

section

variable {setting : Setting} {path : Path} {qualify : Bool} {session : Session}
variable {node : NodeId} {left right : Source.Tree Leaf} {operator : BinaryOperator}

/-- Whether an operand is converted to `Boolean` can be read off the types of both. -/
theorem isBooleanOperand_eq (primitives : HoldsPrimitives setting.model.types)
    {tree : Source.Tree Leaf} {nullable : Bool}
    (read : tree.ReadBy setting.model session.arena)
    (converts :
      convertsTo setting.model tree.root ⟨tree.type.base, nullable⟩ = true) :
    isBooleanOperand setting.model session.arena tree.slot =
      (tree.type.base == .boolean && !nullable) := by
  rw [isBooleanOperand, read.converted_eq converts]
  exact primitives.isBoolean_id _

/-- An eager operator stays as it is, or its short-circuiting form is added that
carries it out. -/
theorem shortCircuit?_of_readBy (path : Path)
    (primitives : HoldsPrimitives setting.model.types)
    (read : (Tree.binary node left operator right).ReadBy setting.model
      session.arena) :
    shortCircuit? setting.model path (some node) session.arena =
        (none, session.arena) ∨
      ∃ effective, CarriedOutBy operator effective left right ∧
        shortCircuit? setting.model path (some node) session.arena =
          let changed := Building.synthesize (some node)
            (.binary left.slot effective right.slot) session.arena
          (some (some changed.1), changed.2) := by
  have isBinary : session.arena.binary? (some node) =
      some (left.slot, operator, right.slot) := by
    rw [Arena.binary?, read.held.1]
  rw [shortCircuit?, Building.run_bind, Building.run_get, isBinary]
  dsimp only
  cases isForm : operator.shortCircuitForm? with
  | none => exact .inl rfl
  | some effective =>
      dsimp only
      split
      · next isSilent =>
          simp only [Bool.and_eq_true] at isSilent
          obtain ⟨⟨⟨isPure, leftBoolean⟩, -⟩, -⟩ := isSilent
          rw [read.of_binary_right.isPure_eq] at isPure
          rw [isBooleanOperand_eq primitives read.of_binary_left read.known.2.2.1,
            Bool.and_eq_true, Bool.not_eq_true', Bool.or_eq_false_iff]
            at leftBoolean
          exact .inr ⟨effective,
            .inr ⟨isForm, leftBoolean.2.1, leftBoolean.2.2, isPure⟩, rfl⟩
      · exact .inl rfl

/-- Settling on an operator ends with one that carries it out. -/
theorem exists_settlesOn_binary (path : Path) (qualify : Bool)
    (isNames : setting.expander = names)
    (primitives : HoldsPrimitives setting.model.types)
    (read : (Tree.binary node left operator right).ReadBy setting.model
      session.arena) :
    ∃ effective, CarriedOutBy operator effective left right ∧
      SettlesOn setting path qualify (some node) session
        (.binary left.slot effective right.slot) := by
  have found := read.held.1
  have isBinary : session.arena.binary? (some node) =
      some (left.slot, operator, right.slot) := by
    rw [Arena.binary?, found]
  have sameEager : isEagerLogical session.arena (some node) = operator.isEager := by
    rw [isEagerLogical, isBinary]
  cases isEager : operator.isEager with
  | false =>
      have kept : expandsNode setting.model session.arena path (some node) = false :=
        expandsNode_eq_false found rfl (sameEager.trans isEager)
          (by simp [isExpandableAccess, found])
      exact ⟨operator, .inl rfl, settlesOn_kept path qualify isNames found kept⟩
  | true =>
    cases qualifying : qualify && setting.options.qualifyNames with
    | false =>
        exact ⟨operator, .inl rfl, settlesOn_unqualified found qualifying⟩
    | true =>
      have decides := decision_operator setting.model path
        (sameEager.trans isEager)
      obtain alone | ⟨effective, carried, isChanged⟩ :=
        shortCircuit?_of_readBy path primitives read
      · rw [alone] at decides
        exact ⟨operator, .inl rfl, settlesOn_decision isNames qualifying decides
          (.refl session.arena) found⟩
      · rw [isChanged] at decides
        exact ⟨effective, carried, settlesOn_decision isNames qualifying decides
          (Building.grows_synthesize _ _ _) (Building.form?_synthesize _ _ _)⟩

end

/-! ## Operands -/

/-- What an operand is converted to. -/
def Lowered.ofLeaf : Leaf → Lowered
  | .reference text _ => .plain (.identifier text)
  | .call _ text _ => .plain (.call (.identifier text) [])
  | .truth value => .plain (.boolean value)
  | .digits text => .plain (.number text)
  | .hasValue _ _ text _ => .plain (Expr.identifier text).hasValue
  | .comparedWithNothing _ _ _ negated text _ =>
      .proven (.test (.identifier text) (if negated then .not .null else .null))

section

variable {setting : Setting} {path : Path} {qualify : Bool} {slot : Slot}
variable {session later : Session} {form : Form} {lowered : Lowered} {levels : Nat}
variable {node : NodeId} {text : String} {leaf : Leaf}

/-- The side of a test for `Nothing` that is a name. -/
theorem comparedWithNothing?_of_isLocalName {arena : Arena} {left right : NodeId}
    {nameFirst : Bool}
    (isName : isLocalName setting.model arena (if nameFirst then left else right)
      text = true)
    (nothing : arena.isNothing (some (if nameFirst then right else left)) = true) :
    comparedWithNothing? arena (some left) (some right) =
      some (some (if nameFirst then left else right)) := by
  have bare {node : NodeId} {form : Form}
      (found : arena.form? (some node) = some form)
      (noParens : ∀ inner, form ≠ .parenthesized inner) :
      arena.skipParens (some node) = some node := by
    apply Arena.skipParensWithin_of_not_parenthesized
    rw [Arena.isParenthesized, found]
    cases form <;> first | rfl | exact absurd rfl (noParens _)
  have nameBare := bare (form?_of_isLocalName isName) fun _ => Form.noConfusion
  have nothingBare := bare (form?_of_isNothing nothing) fun _ => Form.noConfusion
  have notNothing : arena.isNothing (some (if nameFirst then left else right)) =
      false := by
    rw [Arena.isNothing, form?_of_isLocalName isName]
  cases nameFirst with
  | true =>
      simp only [if_true] at nothing nothingBare ⊢
      rw [comparedWithNothing?, nothingBare, nothing, if_pos rfl]
  | false =>
      simp only [Bool.false_eq_true, if_false] at *
      rw [comparedWithNothing?, nameBare, notNothing, nothingBare, nothing,
        if_neg Bool.false_ne_true, if_pos rfl]

/-- A slot is converted by the form of the node that is settled on. -/
theorem SettlesOn.exists_slotRun (levels : Nat)
    (settles : SettlesOn setting path qualify slot session form)
    (held : session.arena.holds slot = true) {issued : Nat} {below : List Visit}
    (run :
      let decided := settleAt setting path qualify slot session
      let here := stepAt setting path qualify slot session
      FormRun setting (SlotRun setting levels (here :: path) (goesOn decided.1))
        (fun field =>
          SlotRun setting (levels - 1) (field :: here :: path) (goesOn decided.1))
        path here form issued decided.2 lowered later below) :
    ∃ visits, SlotRun setting (levels + 1) path qualify slot session lowered later
      visits := by
  simp only [SlotRun]
  exact ⟨_, held, form, issued, below, settles.found, run, rfl⟩

/-- A name of a local variable is converted to the name. -/
theorem exists_slotRun_local (isNames : setting.expander = names)
    (isName : isLocalName setting.model session.arena node text = true)
    (room : 1 ≤ levels) :
    ∃ later visits, SlotRun setting levels path qualify (some node) session
        (.plain (.identifier text)) later visits ∧
      session.arena.Grows later.arena ∧ later.captures = session.captures := by
  obtain ⟨levels, rfl⟩ := Nat.exists_eq_add_of_le' room
  have settles := settlesOn_local path qualify isNames isName
  have held : session.arena.holds (some node) = true :=
    Arena.holds_of_form? (form?_of_isLocalName isName)
  obtain ⟨visits, run⟩ := settles.exists_slotRun levels held
    (.identifier text _)
  exact ⟨_, visits, run, settles.grows, captures_settleAt ..⟩

/-- A literal is converted to the literal. -/
theorem exists_slotRun_literal {value : Literal} (isNames : setting.expander = names)
    (found : session.arena.form? slot = some (.literal value)) (room : 1 ≤ levels) :
    ∃ later visits, SlotRun setting levels path qualify slot session
        (.plain (convertLiteral value)) later visits ∧
      session.arena.Grows later.arena ∧ later.captures = session.captures := by
  obtain ⟨levels, rfl⟩ := Nat.exists_eq_add_of_le' room
  have settles := settlesOn_alwaysKept path qualify isNames found rfl
  obtain ⟨visits, run⟩ := settles.exists_slotRun levels (Arena.holds_of_form? found)
    (.literal value _)
  exact ⟨_, visits, run, settles.grows, captures_settleAt ..⟩

/-- An operand is converted to what it says. -/
theorem exists_slotRun_leaf (path : Path) (qualify : Bool)
    (isNames : setting.expander = names)
    (read : (Tree.operand node leaf).ReadBy setting.model session.arena)
    (room : (Tree.operand node leaf).depth ≤ levels) :
    ∃ later visits, SlotRun setting levels path qualify (some node) session
        (.ofLeaf leaf) later visits ∧
      session.arena.Grows later.arena ∧ later.captures = session.captures := by
  have held : session.arena.holds (some node) = true := read.held.1
  have leafRead := read.known.2.2
  cases leaf with
  | reference text type => exact exists_slotRun_local isNames leafRead room
  | truth value => exact exists_slotRun_literal isNames (beq_iff_eq.mp leafRead) room
  | digits text => exact exists_slotRun_literal isNames (beq_iff_eq.mp leafRead) room
  | call callee text type =>
      obtain ⟨levels, rfl⟩ := Nat.exists_eq_add_of_le'
        ((Nat.le_add_left 1 1).trans room)
      simp only [Leaf.readBy, Bool.and_eq_true, beq_iff_eq] at leafRead
      obtain ⟨⟨found, isName⟩, -⟩ := leafRead
      have settles := settlesOn_alwaysKept path qualify isNames found rfl
      obtain ⟨later, visits, run, grows, same⟩ := exists_slotRun_local isNames
        (settles.grows.isLocalName isName) (Nat.le_of_succ_le_succ room)
      obtain ⟨visits, run⟩ := settles.exists_slotRun _ held
        (.invocation run (.nil later))
      exact ⟨_, visits, run, settles.grows.trans grows,
        same.trans (captures_settleAt ..)⟩
  | hasValue receiver member text base =>
      obtain ⟨levels, rfl⟩ := Nat.exists_eq_add_of_le'
        ((Nat.le_add_left 1 1).trans room)
      simp only [Leaf.readBy, Bool.and_eq_true, beq_iff_eq,
        Option.isNone_iff_eq_none] at leafRead
      obtain ⟨⟨⟨found, isMember⟩, isName⟩, noSymbol⟩ := leafRead
      have stands : session.arena.standsFor (some node) = some node :=
        read.standsFor_eq
      have settles := settlesOn_kept path qualify isNames found
        (expandsNode_eq_false found rfl (by simp [isEagerLogical, Arena.binary?, found])
          (by simp [isExpandableAccess, found, stands, noSymbol]))
      obtain ⟨later, visits, run, grows, same⟩ := exists_slotRun_local isNames
        (settles.grows.isLocalName isName) (Nat.le_of_succ_le_succ room)
      have named : later.arena.nameText? (some member) = some "HasValue" := by
        rw [Arena.nameText?, (settles.grows.trans grows).form? isMember]
      obtain ⟨visits, run⟩ := settles.exists_slotRun _ held
        (.memberAccess run named)
      exact ⟨_, visits, run, settles.grows.trans grows,
        same.trans (captures_settleAt ..)⟩
  | comparedWithNothing left right nameFirst negated text base =>
      obtain ⟨levels, rfl⟩ := Nat.exists_eq_add_of_le'
        ((Nat.le_add_left 1 1).trans room)
      simp only [Leaf.readBy, Bool.and_eq_true, beq_iff_eq] at leafRead
      obtain ⟨⟨⟨found, isName⟩, nothing⟩, -⟩ := leafRead
      have notEager : isEagerLogical session.arena (some node) = false := by
        cases negated <;> simp [isEagerLogical, Arena.binary?, found,
          BinaryOperator.isEager]
      have settles := settlesOn_kept path qualify isNames found
        (expandsNode_eq_false found rfl notEager (by simp [isExpandableAccess, found]))
      obtain ⟨later, visits, run, grows, same⟩ := exists_slotRun_local isNames
        (settles.grows.isLocalName isName) (Nat.le_of_succ_le_succ room)
      have isTest : nothingPattern? (if negated then .isNot else .is) =
          some (if negated then Pattern.not .null else .null) := by
        cases negated <;> rfl
      obtain ⟨visits, run⟩ := settles.exists_slotRun _ held
        (.nothingTest isTest
          (comparedWithNothing?_of_isLocalName
            (settles.grows.isLocalName isName) (settles.grows.isNothing nothing))
          run)
      exact ⟨_, visits, run, settles.grows.trans grows,
        same.trans (captures_settleAt ..)⟩

end

/-! ## Operators -/

/-- The operand that a converted expression is, where `facts` are known of
variables. -/
def Operand.ofTree (options : Options) (facts : Facts) (tree : Source.Tree Leaf)
    (lowered : Lowered) : Operand where
  slot := tree.slot
  expr := lowered.expr
  mayBeNull := tree.type.nullable && !lowered.notNull &&
    !(options.simplifyCheckedComparisons &&
      tree.reference?.bind facts == some .notNull)
  isReusable := tree.isReusable

/-- An operator on two operands, where `lifted` tells whether their types make it
one that null passes through. -/
def Site.lift (site : Site) (collapse lifted : Bool) (operator : BinaryOperator)
    (left right : Operand) : Naming Lowered :=
  let unchanged := Expr.binary left.expr (convertOperator operator) right.expr
  if lifted then
    if left.mayBeNull || right.mayBeNull then
      site.restate collapse operator unchanged left right
    else return .proven unchanged
  else return .plain unchanged

/-- A converted expression as a plain condition. -/
def Lowered.condition (tree : Source.Tree Leaf) (lowered : Lowered) : Expr :=
  if tree.type.nullable && !lowered.notNull then lowered.expr.equalsTrue
  else lowered.expr

section

variable {setting : Setting} {arena : Arena} {path : Path} {here : Step}
variable {node : NodeId} {tree left right : Source.Tree Leaf}
variable {operator effective : BinaryOperator} {collapses : Bool} {facts : Facts}

/-- What is known about an operand can be read off the tree. -/
theorem operand_eq (primitives : HoldsPrimitives setting.model.types)
    (read : tree.ReadBy setting.model arena)
    (known : ∀ name, factFromPath? arena name path here.referent = facts name)
    (lowered : Lowered) :
    Site.operand ⟨setting.model, arena, setting.options⟩ path here tree.slot
        (setting.model.typeOf (arena.standsFor tree.slot)) lowered =
      .ofTree setting.options facts tree lowered := by
  have sameFact : knownNullability? arena path here tree.slot =
      tree.reference?.bind facts := by
    rw [knownNullability?, read.nameText?_eq]
    exact congrArg tree.reference?.bind (funext known)
  unfold Site.operand Site.mayBeNull Operand.ofTree
  dsimp only
  rw [sameFact, read.own_eq, Option.any_some, primitives.isNullable_id,
    read.isSafelyReusable_eq]

/-- How two operands are put together can be read off the tree. -/
theorem putTogether_eq (lowers : setting.options.lowerNullableLogic = true)
    (primitives : HoldsPrimitives setting.model.types)
    (restated : isRestated effective = true)
    (read : (Tree.binary node left operator right).ReadBy setting.model arena)
    (stands : Stands setting.model arena path (.binary node left operator right)
      collapses facts)
    (refers : here.referent = some node)
    (found : arena.form? here.effective =
      some (.binary left.slot effective right.slot))
    (leftLowered rightLowered : Lowered) :
    putTogether setting arena path here left.slot effective right.slot leftLowered
        rightLowered =
      Site.lift ⟨setting.model, arena, setting.options⟩ collapses
        (left.type.nullable || right.type.nullable) effective
        (.ofTree setting.options facts left leftLowered)
        (.ofTree setting.options facts right rightLowered) := by
  have known (name : String) :
      factFromPath? arena name path here.referent = facts name := by
    rw [refers]
    exact stands.facts arena (.refl arena) name
  have sameCollapse :
      canConvertToBoolean setting.model arena path here.referent = collapses := by
    rw [refers]
    exact stands.collapses arena (.refl arena)
  have isBinary : arena.binary? here.effective =
      some (left.slot, effective, right.slot) := by
    rw [Arena.binary?, found]
  have isLifted {side : Source.Tree Leaf} {base : Scalar}
      (sideRead : side.ReadBy setting.model arena)
      (converts : convertsTo setting.model side.root
        ⟨base, left.type.nullable || right.type.nullable⟩ = true) :
      convertsToNullable setting.model
          (setting.model.typeOf (arena.standsFor side.slot)) =
        (left.type.nullable || right.type.nullable) := by
    rw [convertsToNullable, sideRead.converted_eq converts, Option.any_some,
      primitives.isNullable_id]
  rw [putTogether, lowers, restated, Bool.and_self, if_pos rfl, Site.lowerBinary,
    isBinary]
  dsimp only
  rw [restated, isLifted read.of_binary_left read.known.2.2.1,
    isLifted read.of_binary_right read.known.2.2.2.1, Bool.true_and, Bool.and_self,
    operand_eq primitives read.of_binary_left known,
    operand_eq primitives read.of_binary_right known, sameCollapse, Site.lift]
  rfl

/-- A condition is made plain by its type. -/
theorem collapseCondition_eq (primitives : HoldsPrimitives setting.model.types)
    (read : tree.ReadBy setting.model arena) (isBoolean : tree.type.base = .boolean)
    (converts : convertsTo setting.model tree.root tree.type = true)
    (lowered : Lowered) :
    collapseCondition setting.model arena tree.slot lowered =
      lowered.condition tree := by
  rw [collapseCondition, read.converted_eq converts, Option.any_some,
    primitives.isNullable_id, primitives.isBooleanOrNullable_id, isBoolean,
    Lowered.condition, beq_self_eq_true, Bool.and_true]

end

/-! ## What is kept from the operands to the whole -/

/-- Whether a property of converted expressions, with the names that were issued for
them, is kept from the operands of an admitted tree to the whole. -/
structure Preserved (options : Options) (start : CaptureNames)
    (admitted : Source.Tree Leaf → Facts → Prop)
    (holds : Source.Tree Leaf → Facts → (collapses : Bool) → (low high : Nat) →
      Lowered → Prop) : Prop where
  isTyped : ∀ {tree facts}, admitted tree facts → tree.IsTyped
  operand : ∀ {node leaf facts collapses count},
    admitted (.operand node leaf) facts →
    holds (.operand node leaf) facts collapses count count (.ofLeaf leaf)
  inParentheses : ∀ {node inner facts},
    admitted (.parenthesized node inner) facts → admitted inner .nothing
  parenthesized : ∀ {node inner facts collapses low high lowered},
    admitted (.parenthesized node inner) facts →
    holds inner .nothing collapses low high lowered →
    holds (.parenthesized node inner) facts collapses low high lowered
  underNegation : ∀ {node inner facts},
    admitted (.negation node inner) facts → admitted inner .nothing
  negation : ∀ {node inner facts collapses low high lowered},
    admitted (.negation node inner) facts →
    holds inner .nothing false low high lowered →
    holds (.negation node inner) facts collapses low high
      ⟨lowered.expr.negate, lowered.notNull⟩
  leftOperand : ∀ {node left operator right facts},
    admitted (.binary node left operator right) facts → admitted left facts
  rightOperand : ∀ {node left operator right facts effective},
    admitted (.binary node left operator right) facts →
    CarriedOutBy operator effective left right →
    admitted right (facts.right left effective)
  binary : ∀ {node left operator right facts effective collapses low middle high}
    {leftLowered rightLowered} (site : Site),
    admitted (.binary node left operator right) facts →
    CarriedOutBy operator effective left right →
    site.options = options →
    Analysis.isPure site.model site.arena right.slot = right.isPure →
    holds left facts (collapses && passesLeft effective right) low middle
      leftLowered →
    holds right (facts.right left effective) (collapses && passesRight effective)
      middle high rightLowered →
    low ≤ middle → middle ≤ high → high + 2 < UInt32.size →
    start.Issues 2 high
      (site.lift collapses (left.type.nullable || right.type.nullable) effective
        (.ofTree options facts left leftLowered)
        (.ofTree options facts right rightLowered))
      fun next lowered =>
        holds (.binary node left operator right) facts collapses low next lowered
  ternaryTest : ∀ {node test whenTrue whenFalse facts},
    admitted (.ternary node test whenTrue whenFalse) facts → admitted test .nothing
  ternaryBranch : ∀ {node test whenTrue whenFalse facts branch},
    admitted (.ternary node test whenTrue whenFalse) facts →
    branch = whenTrue ∨ branch = whenFalse → admitted branch .nothing
  ternary : ∀ {node test whenTrue whenFalse facts collapses low tested first high}
    {testLowered trueLowered falseLowered : Lowered},
    admitted (.ternary node test whenTrue whenFalse) facts →
    holds test .nothing true low tested testLowered →
    holds whenTrue .nothing false tested first trueLowered →
    holds whenFalse .nothing false first high falseLowered →
    low ≤ tested → tested ≤ first → first ≤ high → high < UInt32.size →
    holds (.ternary node test whenTrue whenFalse) facts collapses low high
      ⟨.conditional (testLowered.condition test) trueLowered.expr falseLowered.expr,
        trueLowered.notNull && falseLowered.notNull⟩

/-- What there is to say of a tree that has been converted. -/
structure Walked (start : CaptureNames)
    (holds : Source.Tree Leaf → Facts → Bool → Nat → Nat → Lowered → Prop)
    (tree : Source.Tree Leaf) (facts : Facts) (collapses : Bool) (arena : Arena)
    (low high : Nat) (lowered : Lowered) (later : Session) : Prop where
  grows : arena.Grows later.arena
  issued : later.captures = start.advance high
  above : low ≤ high
  below : high < low + tree.nodes.length
  holds : holds tree facts collapses low high lowered

namespace Preserved

variable {setting : Setting} {start : CaptureNames}
variable {admitted : Source.Tree Leaf → Facts → Prop}
variable {holds : Source.Tree Leaf → Facts → Bool → Nat → Nat → Lowered → Prop}

/-- Whether a tree is converted wherever it stands with room for it, and what is
preserved holds of the result. -/
def IsConverted (setting : Setting) (start : CaptureNames)
    (admitted : Source.Tree Leaf → Facts → Prop)
    (holds : Source.Tree Leaf → Facts → Bool → Nat → Nat → Lowered → Prop)
    (tree : Source.Tree Leaf) : Prop :=
  ∀ ⦃facts : Facts⦄ ⦃collapses qualify : Bool⦄ ⦃levels count : Nat⦄ ⦃path : Path⦄
    ⦃session : Session⦄,
    admitted tree facts → tree.ReadBy setting.model session.arena →
    Stands setting.model session.arena path tree collapses facts →
    session.captures = start.advance count →
    count + tree.nodes.length ≤ UInt32.size → tree.depth ≤ levels →
    ∃ lowered later visits next,
      SlotRun setting levels path qualify tree.slot session lowered later visits ∧
        Walked start holds tree facts collapses session.arena count next lowered
          later

section

variable (preserved : Preserved setting.options start admitted holds)
variable (isNames : setting.expander = names)

include preserved isNames

theorem isConverted_parenthesized (node : NodeId) {inner : Source.Tree Leaf}
    (below : IsConverted setting start admitted holds inner) :
    IsConverted setting start admitted holds (.parenthesized node inner) := by
  intro facts collapses qualify levels count path session admits read stands issued few
    room
  obtain ⟨levels, rfl⟩ := Nat.exists_eq_add_of_le'
    ((Nat.le_add_left 1 inner.depth).trans room)
  have settles := settlesOn_alwaysKept path qualify isNames read.held.1 rfl
  obtain ⟨lowered, later, visits, next, run, walked⟩ := below
    (preserved.inParentheses admits)
    (read.of_parenthesized.of_grows settles.grows)
    ((stands.of_grows settles.grows).inParentheses settles.found)
    ((captures_settleAt ..).trans issued)
    ((Nat.add_le_add_left (Nat.le_succ _) count).trans few)
    (Nat.le_of_succ_le_succ room)
  obtain ⟨visits, run⟩ := settles.exists_slotRun levels
    (Arena.holds_of_form? read.held.1) (.parenthesized run)
  exact ⟨lowered, later, visits, next, run, settles.grows.trans walked.grows,
    walked.issued, walked.above, Nat.lt_succ_of_lt walked.below,
    preserved.parenthesized admits walked.holds⟩

variable (primitives : HoldsPrimitives setting.model.types)

include primitives

theorem isConverted_negation (node : NodeId) {inner : Source.Tree Leaf}
    (below : IsConverted setting start admitted holds inner) :
    IsConverted setting start admitted holds (.negation node inner) := by
  intro facts collapses qualify levels count path session admits read stands issued few
    room
  obtain ⟨levels, rfl⟩ := Nat.exists_eq_add_of_le'
    ((Nat.le_add_left 1 inner.depth).trans room)
  have settles := settlesOn_alwaysKept path qualify isNames read.held.1 rfl
  obtain ⟨lowered, later, visits, next, run, walked⟩ := below
    (preserved.underNegation admits)
    (read.of_negation.of_grows settles.grows)
    (.underNegation settles.found)
    ((captures_settleAt ..).trans issued)
    ((Nat.add_le_add_left (Nat.le_succ _) count).trans few)
    (Nat.le_of_succ_le_succ room)
  have isNot : convertUnaryOperator setting.model later.arena .not inner.slot =
      .logicalNot := by
    have laterRead := read.of_negation.of_grows (settles.grows.trans walked.grows)
    rw [convertUnaryOperator, laterRead.own_eq, Option.any_some,
      primitives.isBooleanOrNullable_id, (preserved.isTyped admits).1,
      beq_self_eq_true, if_pos rfl]
  obtain ⟨visits, run⟩ := settles.exists_slotRun levels
    (Arena.holds_of_form? read.held.1) (.unary run)
  rw [isNot] at run
  exact ⟨_, later, visits, next, run, settles.grows.trans walked.grows,
    walked.issued, walked.above, Nat.lt_succ_of_lt walked.below,
    preserved.negation admits walked.holds⟩

/-- The branches are converted after the test, and each starts with the names that the
one before it has left. -/
theorem isConverted_ternary (node : NodeId) {test whenTrue whenFalse : Source.Tree Leaf}
    (testBelow : IsConverted setting start admitted holds test)
    (trueBelow : IsConverted setting start admitted holds whenTrue)
    (falseBelow : IsConverted setting start admitted holds whenFalse) :
    IsConverted setting start admitted holds
      (.ternary node test whenTrue whenFalse) := by
  intro facts collapses qualify levels count path session admits read stands issued few
    room
  obtain ⟨levels, rfl⟩ := Nat.exists_eq_add_of_le' ((Nat.le_add_left 1 _).trans room)
  have enough : max test.depth (max whenTrue.depth whenFalse.depth) ≤ levels :=
    Nat.le_of_succ_le_succ room
  have nodes : (Tree.ternary node test whenTrue whenFalse).nodes.length =
      test.nodes.length + whenTrue.nodes.length + whenFalse.nodes.length + 1 := by
    rw [Tree.nodes, List.length_cons, List.length_append, List.length_append]
  rw [nodes] at few
  have settles := settlesOn_alwaysKept path qualify isNames read.held.1 rfl
  have readHere := read.of_grows settles.grows
  obtain ⟨testLowered, tested, testVisits, first, testRun, testWalked⟩ := testBelow
    (preserved.ternaryTest admits) readHere.of_ternary_test
    (.ternaryTest readHere settles.found)
    ((captures_settleAt ..).trans issued) (by omega)
    ((Nat.le_max_left _ _).trans enough)
  have testLimit := testWalked.below
  obtain ⟨trueLowered, between, trueVisits, second, trueRun, trueWalked⟩ := trueBelow
    (preserved.ternaryBranch admits (.inl rfl))
    (readHere.of_grows testWalked.grows).of_ternary_true
    ((Stands.ternaryBranch readHere settles.found (.inl rfl)).of_grows testWalked.grows)
    testWalked.issued (by omega)
    ((Nat.le_max_left _ _).trans ((Nat.le_max_right _ _).trans enough))
  have trueLimit := trueWalked.below
  have growsTwo := testWalked.grows.trans trueWalked.grows
  obtain ⟨falseLowered, later, falseVisits, last, falseRun, falseWalked⟩ := falseBelow
    (preserved.ternaryBranch admits (.inr rfl))
    (readHere.of_grows growsTwo).of_ternary_false
    ((Stands.ternaryBranch readHere settles.found (.inr rfl)).of_grows growsTwo)
    trueWalked.issued (by omega)
    ((Nat.le_max_right _ _).trans ((Nat.le_max_right _ _).trans enough))
  have falseLimit := falseWalked.below
  have isPlain := collapseCondition_eq primitives
    (readHere.of_grows testWalked.grows).of_ternary_test
    (preserved.isTyped admits).1 read.known.2.2.1 testLowered
  obtain ⟨visits, run⟩ := settles.exists_slotRun levels
    (Arena.holds_of_form? read.held.1) (.ternary testRun trueRun falseRun)
  rw [isPlain] at run
  have above := (testWalked.above.trans trueWalked.above).trans falseWalked.above
  exact ⟨_, later, visits, last, run,
    settles.grows.trans (growsTwo.trans falseWalked.grows), falseWalked.issued,
    above, by omega,
    preserved.ternary admits testWalked.holds trueWalked.holds falseWalked.holds
      testWalked.above trueWalked.above falseWalked.above (by omega)⟩

variable (lowers : setting.options.lowerNullableLogic = true)

include lowers

/-- The operator that is carried out may be the short-circuiting form of the one that was
parsed; both operands are the same. -/
theorem isConverted_binary (node : NodeId) (operator : BinaryOperator)
    {left right : Source.Tree Leaf}
    (leftBelow : IsConverted setting start admitted holds left)
    (rightBelow : IsConverted setting start admitted holds right) :
    IsConverted setting start admitted holds (.binary node left operator right) := by
  intro facts collapses qualify levels count path session admits read stands issued few
    room
  obtain ⟨levels, rfl⟩ := Nat.exists_eq_add_of_le'
    ((Nat.le_add_left 1 (max left.depth right.depth)).trans room)
  have enough : max left.depth right.depth ≤ levels := Nat.le_of_succ_le_succ room
  have nodes : (Tree.binary node left operator right).nodes.length =
      left.nodes.length + right.nodes.length + 1 := by
    rw [Tree.nodes, List.length_cons, List.length_append]
  rw [nodes] at few
  obtain ⟨effective, carried, settles⟩ := exists_settlesOn_binary path qualify isNames
    primitives read
  have readHere := read.of_grows settles.grows
  have standsHere := stands.of_grows settles.grows
  obtain ⟨leftLowered, between, leftVisits, middle, leftRun, leftWalked⟩ := leftBelow
    (preserved.leftOperand admits) readHere.of_binary_left
    (standsHere.leftOperand readHere rfl settles.found)
    ((captures_settleAt ..).trans issued) (by omega)
    ((Nat.le_max_left _ _).trans enough)
  have leftLimit := leftWalked.below
  obtain ⟨rightLowered, last, rightVisits, high, rightRun, rightWalked⟩ := rightBelow
    (preserved.rightOperand admits carried)
    (readHere.of_grows leftWalked.grows).of_binary_right
    ((standsHere.rightOperand readHere (preserved.isTyped admits).2.2.2.1 rfl
      settles.found).of_grows leftWalked.grows)
    leftWalked.issued (by omega) ((Nat.le_max_right _ _).trans enough)
  have rightLimit := rightWalked.below
  have growsBoth := leftWalked.grows.trans rightWalked.grows
  have readLast := readHere.of_grows growsBoth
  -- What the conversion asks the arena about the operands, the tree says as well.
  have together := putTogether_eq lowers primitives
    (carried.isRestated (preserved.isTyped admits).1) readLast
    (standsHere.of_grows growsBoth) rfl (growsBoth.form? settles.found)
    leftLowered rightLowered
  obtain ⟨lowered, next, ran, above, limit, holds⟩ := preserved.binary
    ⟨setting.model, last.arena, setting.options⟩ admits carried rfl
    readLast.of_binary_right.isPure_eq leftWalked.holds rightWalked.holds
    leftWalked.above rightWalked.above (by omega)
  rw [← together, ← rightWalked.issued] at ran
  obtain ⟨visits, run⟩ := settles.exists_slotRun levels
    (Arena.holds_of_form? read.held.1)
    (.binary (carried.noTest (preserved.isTyped admits).1) leftRun rightRun ran)
  exact ⟨lowered, _, visits, next, run, settles.grows.trans growsBoth, rfl,
    (leftWalked.above.trans rightWalked.above).trans above, by omega, holds⟩

end

/-- A typed tree for which there is room is converted, and what is preserved holds of
the result. -/
theorem exists_slotRun
    (preserved : Preserved setting.options start admitted holds)
    (isNames : setting.expander = names)
    (lowers : setting.options.lowerNullableLogic = true)
    (primitives : HoldsPrimitives setting.model.types) {tree : Source.Tree Leaf}
    {facts : Facts} {collapses qualify : Bool} {levels count : Nat} {path : Path}
    {session : Session} (admits : admitted tree facts)
    (read : tree.ReadBy setting.model session.arena)
    (stands : Stands setting.model session.arena path tree collapses facts)
    (issued : session.captures = start.advance count)
    (few : count + tree.nodes.length ≤ UInt32.size) (room : tree.depth ≤ levels) :
    ∃ lowered later visits next,
      SlotRun setting levels path qualify tree.slot session lowered later visits ∧
        Walked start holds tree facts collapses session.arena count next lowered
          later := by
  -- Parts are converted one after the other, each in the session that the one before it
  -- has left, so the induction is over all sessions and counts.
  suffices isConverted : IsConverted setting start admitted holds tree from
    isConverted admits read stands issued few room
  clear admits read stands issued few room
  induction tree with
  | operand node leaf =>
      intro facts collapses qualify levels count path session admits read stands issued
        few room
      obtain ⟨later, visits, run, grows, same⟩ :=
        exists_slotRun_leaf path qualify isNames read room
      exact ⟨_, later, visits, count, run, grows, same.trans issued, Nat.le_refl count,
        Nat.lt_succ_self count, preserved.operand admits⟩
  | parenthesized node inner ih =>
      exact preserved.isConverted_parenthesized isNames node ih
  | negation node inner ih =>
      exact preserved.isConverted_negation isNames primitives node ih
  | binary node left operator right leftIH rightIH =>
      exact preserved.isConverted_binary isNames primitives lowers node operator leftIH
        rightIH
  | ternary node test whenTrue whenFalse testIH trueIH falseIH =>
      exact preserved.isConverted_ternary isNames primitives node testIH trueIH falseIH

end Preserved

end BasicLowering.Lowering
