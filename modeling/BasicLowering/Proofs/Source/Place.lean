import BasicLowering.Proofs.Source.Reading

/-!
# Places in a tree

What a tree has around a part: which nodes those are, that they are held by the
arena together with the part, and how far the outcome depends on the values of
the operands there.
-/

namespace BasicLowering.Source

open Binding Semantics

variable {Label Event : Type}
variable {model : Model} {arena : Arena}

namespace Frame

/-- The nodes of a frame, those of the part left out. -/
def nodes : Frame Label → List NodeId
  | parenthesized node | negation node => [node]
  | leftOperand node _ sibling | rightOperand node sibling _ =>
      node :: sibling.nodes
  | ternaryTest node first second | trueBranch node first second
  | falseBranch node first second => node :: (first.nodes ++ second.nodes)

theorem nodes_plug_perm (frame : Frame Label) (part : Tree Label) :
    (frame.plug part).nodes.Perm (frame.nodes ++ part.nodes) := by
  cases frame with
  | parenthesized | negation => exact .refl _
  | leftOperand node operator right =>
      exact List.perm_append_comm.cons node
  | rightOperand node left operator => exact .refl _
  | ternaryTest node whenTrue whenFalse =>
      simp only [plug, Tree.nodes, nodes, List.cons_append]
      rw [List.append_assoc]
      exact List.perm_append_comm.cons node
  | trueBranch node condition whenFalse =>
      simp only [plug, Tree.nodes, nodes, List.cons_append]
      rw [List.append_assoc, List.append_assoc]
      exact (List.perm_append_comm.append_left condition.nodes).cons node
  | falseBranch node condition whenTrue => exact .refl _

theorem mem_nodes_plug {frame : Frame Label} {part : Tree Label}
    {node : NodeId} (member : node ∈ frame.nodes) :
    node ∈ (frame.plug part).nodes :=
  (frame.nodes_plug_perm part).mem_iff.mpr (List.mem_append_left _ member)

theorem heldBy_of_plug {frame : Frame Label} {part : Tree Label}
    (held : (frame.plug part).HeldBy model arena) :
    part.HeldBy model arena := by
  cases frame with
  | parenthesized node => exact held.2
  | negation node => exact held.2.2
  | leftOperand node operator right => exact held.2.2.1
  | rightOperand node left operator => exact held.2.2.2
  | ternaryTest node whenTrue whenFalse => exact held.2.2.1
  | trueBranch node condition whenFalse => exact held.2.2.2.1
  | falseBranch node condition whenTrue => exact held.2.2.2.2

theorem isLogical_of_plug {frame : Frame Label} {part : Tree Label}
    (logical : (frame.plug part).IsLogical) : part.IsLogical := by
  cases frame with
  | parenthesized node | negation node => exact logical
  | leftOperand node operator right => exact logical.2.1
  | rightOperand node left operator => exact logical.2.2
  | ternaryTest | trueBranch | falseBranch => exact logical.elim

end Frame

namespace Place

/-- The nodes of a place, those of the part left out. -/
def nodes : Place Label → List NodeId
  | [] => []
  | frame :: outer => frame.nodes ++ nodes outer

theorem nodes_plug_perm (place : Place Label) (part : Tree Label) :
    (place.plug part).nodes.Perm (place.nodes ++ part.nodes) := by
  induction place generalizing part with
  | nil => exact .refl _
  | cons frame outer ih =>
      calc ((plug outer (frame.plug part)).nodes).Perm
            (nodes outer ++ (frame.plug part).nodes) := ih (frame.plug part)
        _ |>.Perm (nodes outer ++ (frame.nodes ++ part.nodes)) :=
            .append_left _ (frame.nodes_plug_perm part)
        _ |>.Perm (frame.nodes ++ nodes outer ++ part.nodes) := by
            rw [← List.append_assoc]
            exact .append_right _ List.perm_append_comm

theorem heldBy_of_plug (place : Place Label) {part : Tree Label}
    (held : (place.plug part).HeldBy model arena) :
    part.HeldBy model arena := by
  induction place generalizing part with
  | nil => exact held
  | cons frame outer ih => exact Frame.heldBy_of_plug (ih held)

theorem isLogical_of_plug (place : Place Label) {part : Tree Label}
    (logical : (place.plug part).IsLogical) : part.IsLogical := by
  induction place generalizing part with
  | nil => exact logical
  | cons frame outer ih => exact Frame.isLogical_of_plug (ih logical)

theorem nodup_of_plug (place : Place Label) {part : Tree Label}
    (distinct : (place.plug part).nodes.Nodup) : part.nodes.Nodup :=
  (List.nodup_append.mp
    ((place.nodes_plug_perm part).nodup_iff.mp distinct)).2.1

theorem nodup_nodes_of_plug (place : Place Label) {part : Tree Label}
    (distinct : (place.plug part).nodes.Nodup) : place.nodes.Nodup :=
  (List.nodup_append.mp
    ((place.nodes_plug_perm part).nodup_iff.mp distinct)).1

/-- The nodes of a place are none of the nodes of the part in it. -/
theorem not_mem_nodes_of_nodup_plug (place : Place Label) {part : Tree Label}
    (distinct : (place.plug part).nodes.Nodup) {node : NodeId}
    (inPart : node ∈ part.nodes) : node ∉ place.nodes := by
  have apart := (List.nodup_append.mp
    ((place.nodes_plug_perm part).nodup_iff.mp distinct)).2.2
  exact fun inPlace => apart node inPlace node inPart rfl

end Place

/-! ## What an outcome depends on -/

/-- An outcome depends on the values of the operands of the expression. -/
theorem Tree.run_congr (noted : NodeId → List Event) (tree : Tree Label)
    {first second : NodeId → Value}
    (agree : ∀ node ∈ tree.nodes, first node = second node) :
    tree.run noted first = tree.run noted second := by
  induction tree with
  | operand node label =>
      simp only [run]
      rw [agree node (List.mem_singleton.mpr rfl)]
  | parenthesized node inner ih | negation node inner ih =>
      simp only [run]
      rw [ih fun below member => agree below (List.mem_cons_of_mem node member)]
  | binary node left operator right leftIH rightIH =>
      simp only [run]
      rw [leftIH fun below member => agree below (by simp [nodes, member])]
      rw [rightIH fun below member => agree below (by simp [nodes, member])]
  | ternary node condition whenTrue whenFalse testIH trueIH falseIH =>
      simp only [run]
      rw [testIH fun below member => agree below (by simp [nodes, member])]
      rw [trueIH fun below member => agree below (by simp [nodes, member])]
      rw [falseIH fun below member => agree below (by simp [nodes, member])]

theorem Tree.value_congr (tree : Tree Label) (first second : NodeId → Value)
    (agree : ∀ node ∈ tree.nodes, first node = second node) :
    tree.value first = tree.value second :=
  congrArg Outcome.value (tree.run_congr _ agree)

theorem Frame.resume_congr (noted : NodeId → List Event)
    (frame : Frame Label) (first second : NodeId → Value)
    (agree : ∀ node ∈ frame.nodes, first node = second node)
    (part : Outcome Event) :
    frame.resume noted first part = frame.resume noted second part := by
  cases frame with
  | parenthesized | negation => rfl
  | leftOperand node operator sibling | rightOperand node sibling operator =>
      simp only [resume]
      rw [sibling.run_congr noted fun below member =>
        agree below (List.mem_cons_of_mem node member)]
  | ternaryTest node left right | trueBranch node left right
  | falseBranch node left right =>
      simp only [resume]
      rw [left.run_congr noted fun below member =>
        agree below (by simp [nodes, member])]
      rw [right.run_congr noted fun below member =>
        agree below (by simp [nodes, member])]

theorem Place.resume_congr (noted : NodeId → List Event)
    (place : Place Label) (first second : NodeId → Value)
    (agree : ∀ node ∈ place.nodes, first node = second node)
    (part : Outcome Event) :
    place.resume noted first part = place.resume noted second part := by
  induction place generalizing part with
  | nil => rfl
  | cons frame outer ih =>
      simp only [resume]
      rw [frame.resume_congr noted first second fun node member =>
        agree node (List.mem_append_left _ member)]
      exact ih (fun node member => agree node (List.mem_append_right _ member))
        _

/-! ## Reaching a part -/

/-- Only nodes of an expression are evaluated. -/
theorem Tree.mem_nodes_of_mem_events {values : NodeId → Value}
    {tree : Tree Label} {found : NodeId}
    (member : found ∈ (tree.run (fun node => [node]) values).events) :
    found ∈ tree.nodes := by
  induction tree with
  | operand node label => exact member
  | parenthesized node inner ih | negation node inner ih =>
      rcases List.mem_cons.mp member with rfl | below
      · exact List.mem_cons_self
      · exact List.mem_cons_of_mem node (ih below)
  | binary node left operator right leftIH rightIH =>
      simp only [run, Outcome.after, Outcome.binary, List.cons_append,
        List.nil_append, List.mem_cons] at member
      rw [nodes, List.mem_cons, List.mem_append]
      rcases member with rfl | below
      · exact .inl rfl
      · split at below
        · exact .inr (.inl (leftIH below))
        · exact .inr ((List.mem_append.mp below).imp leftIH rightIH)
  | ternary node condition whenTrue whenFalse testIH trueIH falseIH =>
      simp only [run, Outcome.after, Outcome.ternary, List.cons_append,
        List.nil_append, List.mem_cons, List.mem_append] at member
      rw [nodes, List.mem_cons, List.mem_append, List.mem_append]
      rcases member with rfl | inTest | inBranch
      · exact .inl rfl
      · exact .inr (.inl (.inl (testIH inTest)))
      · split at inBranch
        · exact .inr (.inl (.inr (trueIH inBranch)))
        · exact .inr (.inr (falseIH inBranch))

/-- Whether evaluating a frame comes to the part in it. -/
def Frame.enters (values : NodeId → Value) : Frame Label → Bool
  | rightOperand _ left operator => !skipsRight operator (left.value values)
  | trueBranch _ condition _ => (condition.value values).isTrue
  | falseBranch _ condition _ => !(condition.value values).isTrue
  | _ => true

theorem Frame.mem_events_resume {frame : Frame Label} {node : NodeId}
    (outside : node ∉ frame.nodes) (values : NodeId → Value)
    (part : Outcome NodeId) :
    node ∈ (frame.resume (fun node => [node]) values part).events ↔
      frame.enters values = true ∧ node ∈ part.events := by
  have notIn {tree : Tree Label} (outsideTree : node ∉ tree.nodes) :
      node ∉ (tree.run (fun node => [node]) values).events :=
    mt Tree.mem_nodes_of_mem_events outsideTree
  cases frame with
  | parenthesized other | negation other =>
      simp_all [Frame.nodes, Frame.resume, Outcome.after, Outcome.negation,
        Frame.node, Frame.enters]
  | leftOperand other operator right =>
      have apart := not_or.mp (mt List.mem_cons.mpr outside)
      have notRight := notIn apart.2
      simp only [Frame.resume, Outcome.after, Outcome.binary, Frame.node,
        Frame.enters, List.cons_append, List.nil_append, List.mem_cons,
        apart.1, false_or, true_and]
      split <;> simp [notRight]
  | rightOperand other left operator =>
      have apart := not_or.mp (mt List.mem_cons.mpr outside)
      have notLeft := notIn apart.2
      simp only [Frame.resume, Outcome.after, Outcome.binary, Frame.node,
        Frame.enters, List.cons_append, List.nil_append, List.mem_cons,
        apart.1, false_or, Tree.value_run]
      split <;> simp_all
  | ternaryTest other first second | trueBranch other first second
  | falseBranch other first second =>
      have apart := not_or.mp (mt List.mem_cons.mpr outside)
      have apartBoth := not_or.mp (mt List.mem_append.mpr apart.2)
      have notFirst := notIn apartBoth.1
      have notSecond := notIn apartBoth.2
      simp only [Frame.resume, Outcome.after, Outcome.ternary, Frame.node,
        Frame.enters, List.cons_append, List.nil_append, List.mem_cons,
        apart.1, false_or, Tree.value_run, List.mem_append, notFirst]
      split <;> simp_all

/-- A part is reached exactly if all frames around it come to what is in
them. -/
theorem Place.mem_events_resume {place : Place Label} {node : NodeId}
    (outside : node ∉ place.nodes) (values : NodeId → Value)
    (part : Outcome NodeId) :
    node ∈ (place.resume (fun node => [node]) values part).events ↔
      (∀ frame ∈ place, frame.enters values = true) ∧ node ∈ part.events := by
  induction place generalizing part with
  | nil => simp [resume]
  | cons frame outer ih =>
      have outsideBoth := not_or.mp (mt List.mem_append.mpr outside)
      rw [resume, ih outsideBoth.2, Frame.mem_events_resume outsideBoth.1,
        List.forall_mem_cons]
      tauto

/-! ## Choosing values -/

/-- Values that are chosen for some nodes and given for all others. -/
def override (nodes : List NodeId) (chosen given : NodeId → Value) :
    NodeId → Value :=
  fun node => if node ∈ nodes then chosen node else given node

theorem override_of_mem {nodes : List NodeId} (chosen given : NodeId → Value)
    {node : NodeId} (member : node ∈ nodes) :
    override nodes chosen given node = chosen node :=
  if_pos member

theorem override_of_not_mem {nodes : List NodeId}
    (chosen given : NodeId → Value) {node : NodeId} (absent : node ∉ nodes) :
    override nodes chosen given node = given node :=
  if_neg absent

/-- Logical operators and comparisons on null alone are null. -/
theorem combine_null {operator : BinaryOperator}
    (restated : Lowering.isRestated operator = true) :
    combine operator .null .null = .null := by
  cases operator <;> first | rfl | cases restated

/-- Where all operands are null, every logical expression is. -/
theorem Tree.value_null (tree : Tree Label) (logical : tree.IsLogical) :
    tree.value (fun _ => .null) = .null := by
  induction tree with
  | operand => rfl
  | parenthesized node inner ih => exact ih logical
  | negation node inner ih =>
      rw [value_negation, ih logical]
      rfl
  | binary node left operator right leftIH rightIH =>
      rw [value_binary, leftIH logical.2.1, rightIH logical.2.2]
      exact combine_null logical.1
  | ternary => exact logical.elim

/-- The values of the operands of an operator can be chosen such that a logical
operator or a comparison has any wanted truth. -/
theorem exists_combine_eq (operator : BinaryOperator)
    (restated : Lowering.isRestated operator = true) (wanted : Bool) :
    ∃ left right : Bool,
      combine operator (.boolean left) (.boolean right) = .boolean wanted := by
  cases operator with
  | andAlso | orElse | and | or | equals | notEquals | lessThan
  | lessThanOrEqual | greaterThan | greaterThanOrEqual =>
      cases wanted <;> decide
  | xor | is | isNot | add | subtract | multiply | divide | integerDivide
  | modulo | concatenate => exact absurd restated (by decide)

/-- The values of the operands can be chosen such that a logical expression has
any wanted truth. -/
theorem Tree.exists_values (tree : Tree Label) (logical : tree.IsLogical)
    (distinct : tree.nodes.Nodup) (wanted : Bool) :
    ∃ values, tree.value values = .boolean wanted := by
  induction tree generalizing wanted with
  | operand => exact ⟨fun _ => .boolean wanted, rfl⟩
  | parenthesized node inner ih =>
      exact ih logical (List.nodup_cons.mp distinct).2 wanted
  | negation node inner ih =>
      obtain ⟨values, opposite⟩ :=
        ih logical (List.nodup_cons.mp distinct).2 (!wanted)
      refine ⟨values, ?_⟩
      rw [value_negation, opposite, Value.negate, Bool.not_not]
  | binary node left operator right leftIH rightIH =>
      have below := List.nodup_append.mp (List.nodup_cons.mp distinct).2
      obtain ⟨leftWanted, rightWanted, combined⟩ :=
        exists_combine_eq operator logical.1 wanted
      obtain ⟨leftValues, leftValue⟩ :=
        leftIH logical.2.1 below.1 leftWanted
      obtain ⟨rightValues, rightValue⟩ :=
        rightIH logical.2.2 below.2.1 rightWanted
      let values := override left.nodes leftValues rightValues
      have leftAgrees := left.value_congr values leftValues fun _ member =>
        override_of_mem leftValues rightValues member
      have rightAgrees := right.value_congr values rightValues
        fun inside member => override_of_not_mem leftValues rightValues
          fun inLeft => below.2.2 inside inLeft inside member rfl
      refine ⟨values, ?_⟩
      rw [value_binary, leftAgrees, rightAgrees, leftValue, rightValue,
        combined]
  | ternary => exact logical.elim

end BasicLowering.Source
