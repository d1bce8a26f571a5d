import BasicLowering.Proofs.Analysis.Purity
import BasicLowering.Proofs.Source.Acyclic

/-!
# Side effects of expressions

Evaluating an expression may call a function, make an object, or run the getter
of a property. What an operand does is decided by all the nodes below it, while
its classification stops at the first node that binds to a variable: `f().x`
counts as a reference to the field `x`, although `f` is called whenever the
operand is evaluated.

An operand that counts as reusable or as pure has no effect exactly if the
variables it reads are read without one, and then it may be repeated and left
out at will.
-/

namespace BasicLowering.Analysis

open Source Binding

/-! ## What an evaluation does -/

/-- What a node may do when it is evaluated. Reading an automatic property reads
a field and is none of these. -/
inductive Action where
  | call | creation | getter
  deriving DecidableEq

/-- Something that happens: an action of a node. -/
abbrev Event := NodeId × Action

/-- A way in which the evaluation of a node may go: the slots that are evaluated
from left to right, and what the node does then. -/
structure Course where
  operands : List Slot
  actions : List Action := []

section

variable (model : Model) (arena : Arena)

/-- Whether a slot refers to a method. -/
def refersToMethod (slot : Slot) : Bool :=
  (model.symbol? (arena.standsFor slot)).any (·.kind == .method)

/-- What a reference to a member does. A reference to a method calls it, with or
without a list of arguments. -/
def readingActions (node : NodeId) : List Action :=
  match model.symbol? (arena.standsFor (some node)) with
  | none => []
  | some symbol =>
      if symbol.kind = .method then [.call]
      else if symbol.kind = .property ∧ symbol.isAutoProperty = false then
        [.getter]
      else []

/-- What is evaluated before a call: of a method its receiver, and otherwise the
value that is called. -/
def calleeOperands (callee : Slot) : List Slot :=
  if refersToMethod model arena callee then
    match arena.form? callee with
    | some (.memberAccess receiver _ _) => [receiver]
    | some (.conditionalAccess receiver _) => [receiver]
    | _ => []
  else [callee]

/-- The courses that the evaluation of a node may take. The right operand of a
short-circuiting operator may be left out, a ternary takes one of its branches,
and a conditional access reads nothing of a missing receiver. A dictionary
access runs the getter of the default property. -/
def courses (node : NodeId) : Form → List Course
  | .identifier _ => [{ operands := [], actions := readingActions model arena node }]
  | .memberAccess receiver _ .simple =>
      [{ operands := [receiver], actions := readingActions model arena node }]
  | .memberAccess receiver _ .dictionary =>
      [{ operands := [receiver], actions := [.getter] }]
  | .conditionalAccess receiver _ =>
      [{ operands := [receiver] },
        { operands := [receiver], actions := readingActions model arena node }]
  | .invocation callee arguments =>
      [{ operands := calleeOperands model arena callee ++ arguments
         actions := [.call] }]
  | .objectCreation _ arguments =>
      [{ operands := arguments, actions := [.creation] }]
  | .anonymousObject initializers =>
      [{ operands := initializers, actions := [.creation] }]
  | .binary left .andAlso right | .binary left .orElse right =>
      [{ operands := [left] }, { operands := [left, right] }]
  | .ternary condition whenTrue whenFalse =>
      [{ operands := [condition, whenTrue] },
        { operands := [condition, whenFalse] }]
  | .namedArgument _ value | .namedField _ value => [{ operands := [value] }]
  | form => [{ operands := form.slots }]

/-- Whether evaluating the slots of a list one after the other may make certain
events happen. -/
inductive Runs : List Slot → List Event → Prop
  | nil : Runs [] []
  | missing {slot : Slot} {rest : List Slot} {events : List Event}
      (isMissing : arena.form? slot = none) (later : Runs rest events) :
      Runs (slot :: rest) events
  | node {node : NodeId} {form : Form} {course : Course} {rest : List Slot}
      {before events : List Event}
      (found : arena.form? (some node) = some form)
      (taken : course ∈ courses model arena node form)
      (operands : Runs course.operands before) (later : Runs rest events) :
      Runs (some node :: rest)
        (before ++ course.actions.map (node, ·) ++ events)

/-- Whether evaluating a slot makes nothing happen. -/
def Silent (slot : Slot) : Prop :=
  ∀ events, Runs model arena [slot] events → events = []

/-- Whether an operand reads the variable that a node binds to: the node is
reached through parentheses and operators that are no variables themselves. -/
inductive ReadsVariable : Slot → NodeId → Prop
  | here {node : NodeId} (bare : arena.isParenthesized (some node) = false)
      (binds : bindsVariable model arena node = true) :
      ReadsVariable (some node) node
  | parenthesized {outer node : NodeId} {inner : Slot}
      (found : arena.form? (some outer) = some (.parenthesized inner))
      (reads : ReadsVariable inner node) : ReadsVariable (some outer) node
  | left {outer node : NodeId} {left right : Slot} {operator : BinaryOperator}
      (found : arena.form? (some outer) = some (.binary left operator right))
      (noVariable : bindsVariable model arena outer = false)
      (reads : ReadsVariable left node) : ReadsVariable (some outer) node
  | right {outer node : NodeId} {left right : Slot} {operator : BinaryOperator}
      (found : arena.form? (some outer) = some (.binary left operator right))
      (noVariable : bindsVariable model arena outer = false)
      (reads : ReadsVariable right node) : ReadsVariable (some outer) node
  | unary {outer node : NodeId} {operand : Slot} {operator : UnaryOperator}
      (found : arena.form? (some outer) = some (.unary operator operand))
      (noVariable : bindsVariable model arena outer = false)
      (reads : ReadsVariable operand node) : ReadsVariable (some outer) node

/-- Whether a node does something whatever it binds to. -/
def actsItself : Form → Bool
  | .invocation .. | .objectCreation .. | .anonymousObject _
  | .memberAccess _ _ .dictionary => true
  | _ => false

/-- Whether a variable is read without an effect: its node neither calls nor
makes anything nor looks up a key, and what is evaluated on the way, such as the
receiver of a member, is silent. -/
def ReadSilently (node : NodeId) : Prop :=
  ∀ form, arena.form? (some node) = some form → actsItself form = false ∧
    ∀ course ∈ courses model arena node form, ∀ operand ∈ course.operands,
      Silent model arena operand

end

/-! ## Runs -/

section

variable {model : Model} {arena : Arena} {slot inner : Slot} {node : NodeId}
variable {form : Form} {first second : List Slot} {events : List Event}

theorem Runs.one {operands : List Slot} {actions : List Action}
    {before : List Event} (found : arena.form? (some node) = some form)
    (taken : ⟨operands, actions⟩ ∈ courses model arena node form)
    (runs : Runs model arena operands before) :
    Runs model arena [some node] (before ++ actions.map (node, ·)) :=
  List.append_nil (before ++ _) ▸ .node found taken runs .nil

theorem Runs.append {firstEvents secondEvents : List Event}
    (runs : Runs model arena first firstEvents)
    (later : Runs model arena second secondEvents) :
    Runs model arena (first ++ second) (firstEvents ++ secondEvents) := by
  induction runs with
  | nil => exact later
  | missing isMissing _ ih => exact .missing isMissing ih
  | node found taken operands _ _ ih =>
      rw [List.append_assoc]
      exact .node found taken operands ih

/-- Slots are evaluated one after the other. -/
theorem Runs.of_append (runs : Runs model arena (first ++ second) events) :
    ∃ firstEvents secondEvents, events = firstEvents ++ secondEvents ∧
      Runs model arena first firstEvents ∧
      Runs model arena second secondEvents := by
  induction first generalizing events with
  | nil => exact ⟨[], events, rfl, .nil, runs⟩
  | cons slot rest ih =>
      cases runs with
      | missing isMissing later =>
          obtain ⟨firstEvents, secondEvents, rfl, firstRuns, secondRuns⟩ :=
            ih later
          exact ⟨firstEvents, secondEvents, rfl, .missing isMissing firstRuns,
            secondRuns⟩
      | node found taken operands later =>
          obtain ⟨firstEvents, secondEvents, rfl, firstRuns, secondRuns⟩ :=
            ih later
          exact ⟨_, secondEvents, (List.append_assoc ..).symm,
            .node found taken operands firstRuns, secondRuns⟩

/-- Slots that are silent one by one are silent one after the other. -/
theorem Runs.eq_nil (silent : ∀ slot ∈ first, Silent model arena slot)
    (runs : Runs model arena first events) : events = [] := by
  induction first generalizing events with
  | nil => cases runs; rfl
  | cons slot rest ih =>
      obtain ⟨hereEvents, laterEvents, rfl, here, later⟩ :=
        Runs.of_append (show Runs model arena ([slot] ++ rest) events from runs)
      rw [silent slot List.mem_cons_self hereEvents here,
        ih (fun other member => silent other (List.mem_cons_of_mem _ member))
          later]
      rfl

theorem silent_of_missing (isMissing : arena.form? slot = none) :
    Silent model arena slot := by
  intro events runs
  cases runs with
  | missing _ later => cases later; rfl
  | node found => rw [isMissing] at found; cases found

/-- What is evaluated before a call is the callee or below it. -/
theorem below_of_mem_calleeOperands {callee : Slot} {child : NodeId}
    (isOperand : some child ∈ calleeOperands model arena callee) :
    callee = some child ∨
      ∃ called, callee = some called ∧ arena.IsChild child called := by
  unfold calleeOperands at isOperand
  split at isOperand
  · cases callee with
    | none => simp [Arena.form?, Arena.node?] at isOperand
    | some called =>
        split at isOperand
        · next receiver name kind found =>
            refine .inr ⟨called, rfl, _, found, ?_⟩
            rw [← List.mem_singleton.mp isOperand]
            exact List.mem_cons_self
        · next receiver name found =>
            refine .inr ⟨called, rfl, _, found, ?_⟩
            rw [← List.mem_singleton.mp isOperand]
            exact List.mem_cons_self
        · cases isOperand
  · exact .inl (List.mem_singleton.mp isOperand).symm

/-- Save for calls, what a course evaluates is in a slot of the node. -/
theorem mem_slots_of_mem_courses {course : Course}
    (noCall : ∀ callee arguments, form ≠ .invocation callee arguments)
    (taken : course ∈ courses model arena node form)
    (isOperand : slot ∈ course.operands) : slot ∈ form.slots := by
  unfold courses at taken
  split at taken
  case h_5 callee arguments => exact absurd rfl (noCall callee arguments)
  all_goals
    simp only [List.mem_cons, List.not_mem_nil, or_false] at taken
    rcases taken with rfl | rfl <;> grind [Form.slots]

/-- What a course evaluates is below the node. -/
theorem below_of_mem_courses {course : Course} {child : NodeId}
    (found : arena.form? (some node) = some form)
    (taken : course ∈ courses model arena node form)
    (isOperand : some child ∈ course.operands) :
    Relation.TransGen arena.IsChild child node := by
  have isChild {child : NodeId} (isSlot : some child ∈ form.slots) :
      arena.IsChild child node :=
    ⟨form, found, List.mem_filterMap.mpr ⟨_, isSlot, rfl⟩⟩
  by_cases isCall : ∃ callee arguments, form = .invocation callee arguments
  · obtain ⟨callee, arguments, rfl⟩ := isCall
    rw [List.mem_singleton.mp taken] at isOperand
    rcases List.mem_append.mp isOperand with before | isArgument
    · rcases below_of_mem_calleeOperands before with rfl | ⟨called, rfl, below⟩
      · exact .single (isChild List.mem_cons_self)
      · exact .tail (.single below) (isChild List.mem_cons_self)
    · exact .single (isChild (List.mem_cons_of_mem _ isArgument))
  · refine .single (isChild (mem_slots_of_mem_courses ?_ taken isOperand))
    exact fun callee arguments same => isCall ⟨callee, arguments, same⟩

/-- Without circles every evaluation comes to an end. -/
theorem exists_runs (acyclic : arena.Acyclic) (slots : List Slot) :
    ∃ events, Runs model arena slots events := by
  have all {slots : List Slot}
      (each : ∀ slot ∈ slots, ∃ events, Runs model arena [slot] events) :
      ∃ events, Runs model arena slots events := by
    induction slots with
    | nil => exact ⟨[], .nil⟩
    | cons slot rest ih =>
        obtain ⟨hereEvents, here⟩ := each slot List.mem_cons_self
        obtain ⟨laterEvents, later⟩ :=
          ih fun other member => each other (List.mem_cons_of_mem _ member)
        exact ⟨_, here.append later⟩
  have courses_ne_nil (node : NodeId) (form : Form) :
      courses model arena node form ≠ [] := by
    unfold courses
    split <;> exact List.cons_ne_nil _ _
  have one (node : NodeId) : ∃ events, Runs model arena [some node] events := by
    induction node using acyclic.transGen.induction with
    | _ node ih =>
      cases found : arena.form? (some node) with
      | none => exact ⟨[], .missing found .nil⟩
      | some form =>
          obtain ⟨course, taken⟩ :=
            List.exists_mem_of_ne_nil _ (courses_ne_nil node form)
          have operandsRun : ∃ events, Runs model arena course.operands events :=
            all fun slot isOperand => by
              cases slot with
              | none => exact ⟨[], .missing rfl .nil⟩
              | some child =>
                  exact ih child (below_of_mem_courses found taken isOperand)
          obtain ⟨events, runs⟩ := operandsRun
          exact ⟨_, .node found taken runs .nil⟩
  refine all fun slot _ => ?_
  cases slot with
  | none => exact ⟨[], .missing rfl .nil⟩
  | some node => exact one node

/-- A node is silent if it does nothing and evaluates only what is silent. -/
theorem silent_iff (acyclic : arena.Acyclic)
    (found : arena.form? (some node) = some form) :
    Silent model arena (some node) ↔
      ∀ course ∈ courses model arena node form, course.actions = [] ∧
        ∀ operand ∈ course.operands, Silent model arena operand := by
  constructor
  · intro silent course taken
    have total {events : List Event}
        (runs : Runs model arena course.operands events) :
        events = [] ∧ course.actions = [] := by
      have nothing := silent _ (.node found taken runs .nil)
      rw [List.append_nil, List.append_eq_nil_iff, List.map_eq_nil_iff]
        at nothing
      exact nothing
    obtain ⟨events, runs⟩ := exists_runs acyclic course.operands
    refine ⟨(total runs).2, fun operand isOperand operandEvents here => ?_⟩
    obtain ⟨before, after, split⟩ := List.append_of_mem isOperand
    obtain ⟨beforeEvents, beforeRuns⟩ := exists_runs acyclic before
    obtain ⟨afterEvents, afterRuns⟩ := exists_runs acyclic after
    have whole := beforeRuns.append (here.append afterRuns)
    rw [List.singleton_append, ← split] at whole
    have nothing := (total whole).1
    rw [List.append_eq_nil_iff, List.append_eq_nil_iff] at nothing
    exact nothing.2.1
  · intro each events runs
    cases runs with
    | missing isMissing => rw [found] at isMissing; cases isMissing
    | node isNode taken operands later =>
        rw [found] at isNode
        cases isNode
        cases later
        obtain ⟨inactive, silent⟩ := each _ taken
        rw [operands.eq_nil silent, inactive]
        rfl

/-- Parentheses do nothing. -/
theorem silent_parenthesized (acyclic : arena.Acyclic)
    (found : arena.form? slot = some (.parenthesized inner)) :
    Silent model arena slot ↔ Silent model arena inner := by
  cases slot with
  | none => cases found
  | some node => simp [silent_iff acyclic found, courses, Form.slots]

/-! ## Variables -/

/-- Reading a variable does nothing by itself. -/
theorem readingActions_eq_nil (binds : bindsVariable model arena node = true) :
    readingActions model arena node = [] := by
  unfold bindsVariable at binds
  unfold readingActions
  split
  · rfl
  · next symbol isSymbol =>
      rw [isSymbol, Option.any_some] at binds
      cases kind : symbol.kind <;>
        simp_all [isVariable, Symbol.isAutoProperty]

/-- What a node that binds to a variable does, it does whatever it binds to. -/
theorem actions_eq_nil_iff (binds : bindsVariable model arena node = true) :
    (∀ course ∈ courses model arena node form, course.actions = []) ↔
      actsItself form = false := by
  have nothing := readingActions_eq_nil binds
  unfold courses
  split <;> simp_all [actsItself]

/-- A node that binds to a variable is silent if the variable is read without an
effect. -/
theorem silent_iff_readSilently (acyclic : arena.Acyclic)
    (binds : bindsVariable model arena node = true) :
    Silent model arena (some node) ↔ ReadSilently model arena node := by
  cases found : arena.form? (some node) with
  | none => exact iff_of_true (silent_of_missing found) (by simp [ReadSilently, found])
  | some form =>
      rw [silent_iff acyclic found, ReadSilently, forall₂_and,
        actions_eq_nil_iff binds]
      simp [found]

/-- The only variable that a variable reads is itself. -/
theorem readsVariable_iff_of_bindsVariable {read : NodeId}
    (bare : arena.isParenthesized (some node) = false)
    (binds : bindsVariable model arena node = true) :
    ReadsVariable model arena (some node) read ↔ read = node := by
  constructor
  · intro reads
    cases reads with
    | here => rfl
    | parenthesized found => simp [Arena.isParenthesized, found] at bare
    | left _ noVariable | right _ noVariable | unary _ noVariable =>
        rw [binds] at noVariable
        cases noVariable
  · rintro rfl
    exact .here bare binds

theorem readsVariable_skipParens (slot : Slot) :
    ReadsVariable model arena (arena.skipParens slot) node ↔
      ReadsVariable model arena slot node := by
  unfold Arena.skipParens
  generalize arena.size = steps
  induction steps generalizing slot with
  | zero => rfl
  | succ steps ih =>
      unfold Arena.skipParensWithin
      split
      · next inner found =>
          cases slot with
          | none => cases found
          | some outer =>
              rw [ih]
              refine ⟨.parenthesized found, fun reads => ?_⟩
              cases reads with
              | here bare => simp [Arena.isParenthesized, found] at bare
              | parenthesized isNode reads =>
                  rw [found] at isNode
                  cases isNode
                  exact reads
              | left isNode | right isNode | unary isNode =>
                  rw [found] at isNode
                  cases isNode
      · rfl

theorem silent_skipParens (acyclic : arena.Acyclic) (slot : Slot) :
    Silent model arena (arena.skipParens slot) ↔ Silent model arena slot := by
  unfold Arena.skipParens
  generalize arena.size = steps
  induction steps generalizing slot with
  | zero => rfl
  | succ steps ih =>
      unfold Arena.skipParensWithin
      split
      · next inner found => rw [ih, silent_parenthesized acyclic found]
      · rfl

/-! ## Classified operands -/

/-- Whether all the variables that an operand reads are read without an
effect. -/
def ReadsSilently (model : Model) (arena : Arena) (slot : Slot) : Prop :=
  ∀ node, ReadsVariable model arena slot node → ReadSilently model arena node

theorem readsSilently_skipParens (slot : Slot) :
    ReadsSilently model arena (arena.skipParens slot) ↔
      ReadsSilently model arena slot := by
  simp only [ReadsSilently, readsVariable_skipParens]

theorem not_readsVariable_none : ¬ ReadsVariable model arena none node :=
  fun reads => nomatch reads

/-- The parts in which variables are read, besides what a node binds to. -/
def partsRead : Form → List Slot
  | .parenthesized inner => [inner]
  | .binary left _ right => [left, right]
  | .unary _ operand => [operand]
  | _ => []

/-- A node that is no variable reads what its parts read. -/
theorem readsVariable_iff_of_parts {read : NodeId}
    (found : arena.form? (some node) = some form)
    (noVariable : bindsVariable model arena node = false) :
    ReadsVariable model arena (some node) read ↔
      ∃ part ∈ partsRead form, ReadsVariable model arena part read := by
  constructor
  · intro reads
    cases reads with
    | here _ binds => rw [noVariable] at binds; cases binds
    | parenthesized isNode reads | left isNode _ reads | unary isNode _ reads =>
        cases found.symm.trans isNode
        exact ⟨_, List.mem_cons_self, reads⟩
    | right isNode _ reads =>
        cases found.symm.trans isNode
        exact ⟨_, List.mem_cons_of_mem _ List.mem_cons_self, reads⟩
  · rintro ⟨part, isPart, reads⟩
    cases form with
    | parenthesized inner =>
        rw [List.mem_singleton.mp isPart] at reads
        exact .parenthesized found reads
    | unary operator operand =>
        rw [List.mem_singleton.mp isPart] at reads
        exact .unary found noVariable reads
    | binary left operator right =>
        rcases List.mem_pair.mp isPart with rfl | rfl
        · exact .left found noVariable reads
        · exact .right found noVariable reads
    | _ => cases isPart

theorem readsSilently_iff_of_parts (found : arena.form? (some node) = some form)
    (noVariable : bindsVariable model arena node = false) :
    ReadsSilently model arena (some node) ↔
      ∀ part ∈ partsRead form, ReadsSilently model arena part := by
  simp only [ReadsSilently, readsVariable_iff_of_parts found noVariable]
  exact ⟨fun silently part isPart read reads => silently read ⟨part, isPart, reads⟩,
    fun each read reads => reads.elim fun part inPart =>
      each part inPart.1 read inPart.2⟩

/-- A reusable operand is a literal or reads one variable. -/
theorem silent_iff_of_isSafelyReusable (acyclic : arena.Acyclic)
    (reusable : isSafelyReusable model arena slot = true) :
    Silent model arena slot ↔ ReadsSilently model arena slot := by
  have bare := acyclic.isParenthesized_skipParens slot
  rw [← silent_skipParens acyclic, ← readsSilently_skipParens]
  unfold isSafelyReusable at reusable
  generalize arena.skipParens slot = core at bare reusable
  cases core with
  | none =>
      exact iff_of_true (silent_of_missing rfl)
        fun node reads => absurd reads not_readsVariable_none
  | some node =>
      cases binds : bindsVariable model arena node with
      | true =>
          rw [silent_iff_readSilently acyclic binds]
          simp [ReadsSilently, readsVariable_iff_of_bindsVariable bare binds]
      | false =>
          obtain ⟨value, found⟩ : ∃ value,
              arena.form? (some node) = some (.literal value) := by
            rw [bindsVariable] at binds
            simp only [binds, Bool.or_false] at reusable
            unfold isLiteral at reusable
            split at reusable
            · next value found => exact ⟨value, found⟩
            · cases reusable
          refine iff_of_true ?_
            ((readsSilently_iff_of_parts found binds).mpr (List.forall_mem_nil _))
          simp [silent_iff acyclic found, courses, Form.slots]

/-- An operator makes happen what its operands do. -/
theorem silent_binary (acyclic : arena.Acyclic) {left right : Slot}
    {operator : BinaryOperator}
    (found : arena.form? (some node) = some (.binary left operator right)) :
    Silent model arena (some node) ↔
      Silent model arena left ∧ Silent model arena right := by
  rw [silent_iff acyclic found]
  unfold courses
  split <;> simp_all [Form.slots]

theorem silent_unary (acyclic : arena.Acyclic) {operand : Slot}
    {operator : UnaryOperator}
    (found : arena.form? (some node) = some (.unary operator operand)) :
    Silent model arena (some node) ↔ Silent model arena operand := by
  simp [silent_iff acyclic found, courses, Form.slots]

/-- The same for whatever counts as pure. -/
theorem silent_iff_of_isPureWithin (acyclic : arena.Acyclic) {depth : Nat}
    (pure : isPureWithin model arena depth slot = true) :
    Silent model arena slot ↔ ReadsSilently model arena slot := by
  -- The depth of the search carries the induction: at each level parentheses are skipped
  -- first, so that the slots below are not those of the node.
  induction depth generalizing slot with
  | zero =>
      have reusable : isSafelyReusable model arena (arena.skipParens slot) = true := by
        simpa [isPureWithin] using pure
      rw [← silent_skipParens acyclic, ← readsSilently_skipParens]
      exact silent_iff_of_isSafelyReusable acyclic reusable
  | succ depth ih =>
      rw [← silent_skipParens acyclic, ← readsSilently_skipParens]
      rw [isPureWithin_succ_eq] at pure
      by_cases reusable :
          isSafelyReusable model arena (arena.skipParens slot) = true
      · exact silent_iff_of_isSafelyReusable acyclic reusable
      rw [Bool.eq_false_iff.mpr reusable, Bool.false_or] at pure
      rw [isSafelyReusable, acyclic.skipParens_skipParens, Bool.or_eq_true,
        not_or] at reusable
      generalize arena.skipParens slot = core at pure reusable
      cases core with
      | none => cases pure
      | some node =>
          have noVariable : bindsVariable model arena node = false :=
            Bool.eq_false_iff.mpr reusable.2
          split at pure
          · next left operator right found =>
              rw [Bool.and_eq_true] at pure
              rw [readsSilently_iff_of_parts found noVariable,
                silent_binary acyclic found, ih pure.1, ih pure.2]
              simp [partsRead]
          · next operator operand found =>
              rw [readsSilently_iff_of_parts found noVariable,
                silent_unary acyclic found, ih pure]
              simp [partsRead]
          · cases pure

/-- What is silent may be evaluated any number of times or not at all. -/
theorem Silent.runs_replicate (acyclic : arena.Acyclic)
    (silent : Silent model arena slot) (before after : List Slot) (count : Nat)
    (events : List Event) :
    Runs model arena (before ++ List.replicate count slot ++ after) events ↔
      Runs model arena (before ++ after) events := by
  have nothing {times : List Event}
      (runs : Runs model arena (List.replicate count slot) times) :
      times = [] :=
    runs.eq_nil fun other member => List.eq_of_mem_replicate member ▸ silent
  constructor
  · intro runs
    obtain ⟨_, afterEvents, rfl, runs, afterRuns⟩ := runs.of_append
    obtain ⟨beforeEvents, times, rfl, beforeRuns, repeated⟩ := runs.of_append
    rw [nothing repeated, List.append_nil]
    exact beforeRuns.append afterRuns
  · intro runs
    obtain ⟨beforeEvents, afterEvents, rfl, beforeRuns, afterRuns⟩ :=
      runs.of_append
    have comesToEnd :
        ∃ times, Runs model arena (List.replicate count slot) times :=
      exists_runs acyclic _
    obtain ⟨times, repeated⟩ := comesToEnd
    rw [nothing repeated] at repeated
    exact (List.append_nil beforeEvents ▸ beforeRuns.append repeated).append
      afterRuns

/-- An operand that counts as reusable or as pure makes nothing happen exactly
if every variable that it reads is read without an effect; and then it may be
evaluated any number of times or not at all. -/
theorem silent_iff_of_classified (acyclic : arena.Acyclic) (slot : Slot)
    (classified : isSafelyReusable model arena slot = true ∨
      isPure model arena slot = true) :
    (∃ events, Runs model arena [slot] events) ∧
      (Silent model arena slot ↔ ReadsSilently model arena slot) ∧
      (ReadsSilently model arena slot → ∀ before after count events,
        Runs model arena (before ++ List.replicate count slot ++ after) events ↔
          Runs model arena (before ++ after) events) := by
  have silentIff : Silent model arena slot ↔ ReadsSilently model arena slot :=
    classified.elim (silent_iff_of_isSafelyReusable acyclic)
      (silent_iff_of_isPureWithin acyclic)
  exact ⟨exists_runs acyclic [slot], silentIff, fun silently =>
    Silent.runs_replicate acyclic (silentIff.mpr silently)⟩

end

/-! ## Receivers -/

/-- `row.ready And f().ready`, where the second receiver is a call. -/
def fieldsOfReceivers : Arena where
  nodes := #[
    { form := .identifier "row" }, { form := .identifier "ready" },
    { form := .memberAccess (some ⟨0⟩) (some ⟨1⟩) .simple },
    { form := .identifier "f" }, { form := .invocation (some ⟨3⟩) [] },
    { form := .identifier "ready" },
    { form := .memberAccess (some ⟨4⟩) (some ⟨5⟩) .simple },
    { form := .binary (some ⟨2⟩) .and (some ⟨6⟩) }]

/-- `row` and `f` are locals, and `ready` is a field. -/
def twoLocalsAndField : Model :=
  let symbols : SymbolTable := ⟨#[⟨⟨0⟩, "row", .localVariable, {}, none, none,
    none, none⟩, ⟨⟨1⟩, "f", .localVariable, {}, none, none, none, none⟩,
    ⟨⟨2⟩, "ready", .field, {}, none, none, none, none⟩]⟩
  (((({ symbols } : Model).bindSymbol (some ⟨0⟩) ⟨0⟩).bindSymbol
    (some ⟨2⟩) ⟨2⟩).bindSymbol (some ⟨3⟩) ⟨1⟩).bindSymbol (some ⟨6⟩) ⟨2⟩

theorem fieldsOfReceivers_acyclic : fieldsOfReceivers.Acyclic :=
  Arena.acyclic_of_childrenFirst (by decide)

/-- A field of what a call returns counts as reusable and as pure, but `f` is
called whenever it is read. -/
theorem fieldOfCall_not_silent :
    fieldsOfReceivers.Acyclic ∧
      isSafelyReusable twoLocalsAndField fieldsOfReceivers (some ⟨6⟩) = true ∧
      isPure twoLocalsAndField fieldsOfReceivers (some ⟨6⟩) = true ∧
      Runs twoLocalsAndField fieldsOfReceivers [some ⟨6⟩] [(⟨4⟩, .call)] ∧
      Runs twoLocalsAndField fieldsOfReceivers [some ⟨6⟩, some ⟨6⟩]
        [(⟨4⟩, .call), (⟨4⟩, .call)] := by
  have callee : Runs twoLocalsAndField fieldsOfReceivers [some ⟨3⟩] [] :=
    @Runs.one _ _ _ _ [] [] [] rfl List.mem_cons_self .nil
  have call : Runs twoLocalsAndField fieldsOfReceivers [some ⟨4⟩]
      [(⟨4⟩, .call)] :=
    @Runs.one _ _ _ _ [some ⟨3⟩] [.call] [] rfl List.mem_cons_self callee
  have field : Runs twoLocalsAndField fieldsOfReceivers [some ⟨6⟩]
      [(⟨4⟩, .call)] :=
    @Runs.one _ _ _ _ [some ⟨4⟩] [] [_] rfl List.mem_cons_self call
  exact ⟨fieldsOfReceivers_acyclic, by decide, by decide +kernel, field,
    field.append field⟩

/-- A field of a local is read without an effect. -/
theorem fieldOfLocal_silent :
    isPure twoLocalsAndField fieldsOfReceivers (some ⟨2⟩) = true ∧
      Silent twoLocalsAndField fieldsOfReceivers (some ⟨2⟩) := by
  have isClassified :
      isPure twoLocalsAndField fieldsOfReceivers (some ⟨2⟩) = true := by
    decide +kernel
  have silentIff := (silent_iff_of_classified fieldsOfReceivers_acyclic
    (some ⟨2⟩) (.inr isClassified)).2.1
  refine ⟨isClassified, silentIff.mpr fun node reads => ?_⟩
  rw [readsVariable_iff_of_bindsVariable (by decide) (by decide)] at reads
  subst reads
  rintro form ⟨⟩
  refine ⟨rfl, fun course taken operand isOperand => ?_⟩
  rw [List.mem_singleton.mp taken, List.mem_singleton] at isOperand
  subst isOperand
  rw [silent_iff_readSilently fieldsOfReceivers_acyclic (by decide)]
  rintro form ⟨⟩
  exact ⟨rfl, fun course taken operand isOperand => by
    rw [List.mem_singleton.mp taken] at isOperand; cases isOperand⟩

end BasicLowering.Analysis
