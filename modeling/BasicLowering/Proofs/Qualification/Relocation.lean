import BasicLowering.Proofs.Analysis.Relocation
import BasicLowering.Proofs.Qualification.Derived

/-!
# Decisions in twin arenas

About a node of the tree the rule for names decides the same in twin arenas, and what it
builds for that is the same but for the place. It looks at the node, at the nodes around
it, and at what the front end knows about nodes of the tree.
-/

namespace BasicLowering.Qualification

open Source Source.Twinning Binding Analysis

/-- The replacement that has been moved. -/
def Expansion.move (shift : Shift) (expansion : Expansion) : Expansion :=
  { expansion with node := shift.slot expansion.node }

/-- The decision for a replacement that has been moved. -/
def Decision.move (shift : Shift) : Decision → Decision
  | .keep => .keep
  | .skip => .skip
  | .replace expansion => .replace (expansion.move shift)
  | .replaceAndEnter expansion => .replaceAndEnter (expansion.move shift)

section

variable {model : Model} {twinning : Twinning} {first second : Arena}
variable {slot : Slot}

/-! ## Where a node stands -/

section

variable (twin : twinning.Twin first second)

include twin

theorem hasInstanceReceiver_shift (slot : Slot) :
    hasInstanceReceiver second (twinning.shift.slot slot) =
      hasInstanceReceiver first slot := by
  rw [hasInstanceReceiver, twin.form?, hasInstanceReceiver]
  cases first.form? slot with
  | none => rfl
  | some form =>
      cases form with
      | memberAccess receiver name kind =>
          simp only [Option.map_some, Shift.form, Form.mapSlots, twin.form?]
          cases first.form? receiver with
          | none => rfl
          | some form => cases form <;> rfl
      | _ => rfl

theorem isEagerLogical_shift (slot : Slot) :
    isEagerLogical second (twinning.shift.slot slot) = isEagerLogical first slot := by
  rw [isEagerLogical, twin.binary?, isEagerLogical]
  cases first.binary? slot <;> rfl

/-- The form of the node right above. -/
theorem parentForm?_shift (path : Path) :
    ((twinning.shift.path path).head?.bind fun parent => second.form? parent.effective) =
      (path.head?.bind fun parent => first.form? parent.effective).map
        twinning.shift.form := by
  cases path with
  | nil => rfl
  | cons parent outer => exact twin.form? parent.effective

theorem isLeftmostQualifier_shift (path : Path) (slot : Slot) :
    isLeftmostQualifier second (twinning.shift.path path) (twinning.shift.slot slot) =
      isLeftmostQualifier first path slot := by
  rw [isLeftmostQualifier, parentForm?_shift twin, isLeftmostQualifier]
  cases path.head?.bind fun parent => first.form? parent.effective with
  | none => rfl
  | some form => cases form <;> first | rfl | exact Shift.slot_beq _ _ _

theorem isExpandableName_shift (path : Path) (slot : Slot) :
    isExpandableName second (twinning.shift.path path) (twinning.shift.slot slot) =
      isExpandableName first path slot := by
  have simple : second.isSimpleName (twinning.shift.slot slot) =
      first.isSimpleName slot := by
    rw [Arena.isSimpleName, Arena.isSimpleName, twin.form?, Option.any_map]
    congr 1
    funext form
    cases form <;> rfl
  rw [isExpandableName, parentForm?_shift twin, isExpandableName, simple]
  congr 1
  cases path.head?.bind fun parent => first.form? parent.effective with
  | none => rfl
  | some form =>
      cases form <;> first | rfl | exact congrArg not (Shift.slot_beq _ _ _)

end

/-! ## What is written -/

variable (twinning) in
theorem matches_accessThrough (receiver slot : Slot) :
    twinning.Matches twinning.shift.slot (accessThrough receiver slot)
      (accessThrough (twinning.shift.slot receiver) (twinning.shift.slot slot)) :=
  (Matches.withoutTrivia slot).bind fun _ =>
    (Matches.synthesize rfl rfl).bind fun _ => .pure _ rfl

variable (twinning) in
theorem matches_accessThroughMe (slot : Slot) :
    twinning.Matches twinning.shift.slot (accessThroughMe slot)
      (accessThroughMe (twinning.shift.slot slot)) := by
  refine .get fun first second twin => ?_
  rw [twin.trivia]
  exact Matches.labelled _ rfl nofun fun node => matches_accessThrough twinning (some node) slot

theorem matches_memberAccess {name : String} (known : twinning.known name)
    (receiver : Slot) :
    twinning.Matches twinning.shift.node (Building.memberAccess receiver name)
      (Building.memberAccess (twinning.shift.slot receiver) name) := by
  refine Mirrors.bind (Matches.parsed rfl ?_) fun _ => Matches.parsed rfl nofun
  rintro text ⟨⟩
  exact known

theorem matches_nameChain (trivia : String) {parts : List String}
    (notEmpty : parts ≠ []) (known : ∀ part ∈ parts, twinning.known part) :
    twinning.Matches twinning.shift.slot (nameChain trivia parts)
      (nameChain trivia parts) := by
  obtain ⟨part, rest, rfl⟩ := List.exists_cons_of_ne_nil notEmpty
  rw [List.forall_mem_cons] at known
  refine Matches.labelled _ rfl ?_ fun node => ?_
  · rintro text ⟨⟩
    exact known.1
  · refine (Mirrors.foldlM ?_ node).bind fun _ => .pure _ rfl
    exact fun chain part isPart => matches_memberAccess (known.2 part isPart) _

section

variable (wellFormed : WellFormed model twinning.tree)
variable (known : ∀ text ∈ sourceNames model twinning.tree, twinning.known text)
variable (held : twinning.tree.holds slot = true)

include wellFormed known held

theorem matches_fullNameOf :
    twinning.Matches twinning.shift.slot (fullNameOf model slot)
      (fullNameOf model slot) := by
  have stays := slot_of_held held
  have unchanged : twinning.Matches twinning.shift.slot (pure slot) (pure slot) :=
    .pure slot stays.symm
  have throughMe := matches_accessThroughMe twinning slot
  rw [stays] at throughMe
  refine .get fun first second twin => ?_
  rw [twin.grows.standsFor_eq wellFormed.sound held,
    twin.otherGrows.standsFor_eq wellFormed.sound held]
  cases model.symbol? (twinning.tree.standsFor slot) with
  | none => exact unchanged
  | some symbol =>
      refine .ite rfl (fun _ => ?_) fun _ => .ite rfl (fun _ => throughMe) fun _ => unchanged
      cases symbol.containingSymbol with
      | none => exact unchanged
      | some container =>
          dsimp only
          split
          · exact unchanged
          · next notEmpty =>
              have sameTrivia := twin.trivia slot
              rw [stays] at sameTrivia
              rw [sameTrivia]
              refine (matches_nameChain _ (Text.Dotted.split_ne_nil _) fun part isPart =>
                known part (mem_sourceNames_of_split notEmpty isPart)).bind
                  fun receiver => ?_
              have access := matches_accessThrough twinning receiver slot
              rwa [stays] at access

end

theorem IsParsed.eq_none {parsed : Arena} (isParsed : IsParsed parsed slot)
    (missing : parsed.form? slot = none) : slot = none := by
  cases slot with
  | none => rfl
  | some node =>
      obtain ⟨form, found⟩ := Arena.exists_form (isParsed node rfl)
      cases missing.symm.trans found

theorem fullNamesWithin_none (model : Model) (depth : Nat) :
    fullNamesWithin model depth none = pure none := by
  cases depth <;> rfl

theorem withOperands_shift (shift : Shift) (form : Form) (operands : List Slot) :
    withOperands (shift.form form) (operands.map shift.slot) =
      shift.form (withOperands form operands) := by
  have operand (index : Nat) : ((operands.map shift.slot)[index]?).join =
      shift.slot (operands[index]?).join := by
    rw [List.getElem?_map]
    cases operands[index]? <;> rfl
  cases form <;>
    simp only [withOperands, Shift.form, Form.mapSlots, operand, List.map_tail]

section

variable (wellFormed : WellFormed model twinning.tree)
variable (known : ∀ text ∈ sourceNames model twinning.tree, twinning.known text)

include wellFormed known

omit wellFormed known in
/-- Where an operand has changed, a copy of the node is made over the new operands. -/
theorem matches_copy {form : Form} (held : twinning.tree.holds slot = true)
    (notName : form.isSimpleName = false) (stays : twinning.shift.form form = form)
    (made : List Slot) :
    twinning.Matches twinning.shift.slot
      (if withOperands form made = form then return slot
        else do
          let copy ← Building.synthesize slot (withOperands form made)
          return some copy)
      (if twinning.shift.form (withOperands form made) = form then return slot
        else do
          let copy ← Building.synthesize slot
            (twinning.shift.form (withOperands form made))
          return some copy) := by
  have staysHere := slot_of_held held
  by_cases unchanged : withOperands form made = form
  · rw [unchanged, if_pos rfl, if_pos stays]
    exact .pure slot staysHere.symm
  · have changed : twinning.shift.form (withOperands form made) ≠ form :=
      fun same => unchanged (twinning.shift.form_injective (same.trans stays.symm))
    rw [if_neg unchanged, if_neg changed]
    have copies : twinning.Matches twinning.shift.node
        (Building.synthesize slot (withOperands form made))
        (Building.synthesize (twinning.shift.slot slot)
          (twinning.shift.form (withOperands form made))) :=
      Matches.synthesize rfl (by cases form <;> first | rfl | cases notName)
    rw [staysHere] at copies
    exact copies.bind fun _ => .pure _ rfl

/-- However deep one looks, the names of an expression of the tree are written out in
the same way. -/
theorem matches_fullNamesWithin {depth other : Nat}
    (isParsed : IsParsed twinning.tree slot)
    (hasDepth : twinning.tree.HasDepth depth slot)
    (otherDepth : twinning.tree.HasDepth other slot) :
    twinning.Matches twinning.shift.slot (fullNamesWithin model depth slot)
      (fullNamesWithin model other slot) := by
  induction depth generalizing slot other with
  | zero =>
      obtain rfl := isParsed.eq_none hasDepth.missing
      rw [fullNamesWithin_none, fullNamesWithin_none]
      exact .pure none rfl
  | succ depth ih =>
      cases other with
      | zero =>
          obtain rfl := isParsed.eq_none otherDepth.missing
          rw [fullNamesWithin_none, fullNamesWithin_none]
          exact .pure none rfl
      | succ other =>
          refine .get fun first second twin => ?_
          rw [isParsed.form?_eq twin.grows, isParsed.form?_eq twin.otherGrows]
          cases found : twinning.tree.form? slot with
          | none => exact .pure slot (slot_of_tree isParsed).symm
          | some form =>
              have held := isParsed.holds (Arena.holds_of_form? found)
              have below := isParsed_slots wellFormed.sound found
              have stays : twinning.shift.form form = form :=
                Form.mapSlots_eq_self fun child isSlot => slot_of_tree (below child isSlot)
              have operands : twinning.Matches (List.map twinning.shift.slot)
                  ((operandsOf form).mapM (fullNamesWithin model depth))
                  ((operandsOf form).mapM (fullNamesWithin model other)) :=
                Mirrors.mapM fun operand isOperand => by
                  have isSlot := operandsOf_subset_slots form isOperand
                  exact ih (below operand isSlot) (hasDepth.ofSlot found isSlot)
                    (otherDepth.ofSlot found isSlot)
              have copied (notName : form.isSimpleName = false) :
                  twinning.Matches twinning.shift.slot
                    (do
                      let expanded ← mapOperands (fullNamesWithin model depth) form
                      if expanded = form then return slot
                      else
                        let copy ← Building.synthesize slot expanded
                        return some copy)
                    (do
                      let expanded ← mapOperands (fullNamesWithin model other) form
                      if expanded = form then return slot
                      else
                        let copy ← Building.synthesize slot expanded
                        return some copy) := by
                simp only [mapOperands_eq, bind_assoc, pure_bind]
                refine operands.bind fun made => ?_
                have moved := withOperands_shift twinning.shift form made
                rw [stays] at moved
                rw [moved]
                exact matches_copy held notName stays made
              cases form with
              | identifier text => exact matches_fullNameOf wellFormed known held
              | _ => exact copied rfl

variable (held : twinning.tree.holds slot = true)

include held

theorem matches_fullNames :
    twinning.Matches twinning.shift.slot (fullNames model slot)
      (fullNames model slot) := by
  have deep {arena : Arena} (grows : twinning.tree.Grows arena) :
      twinning.tree.HasDepth (arena.size + growthLimit) slot :=
    wellFormed.sound.acyclic.hasDepth slot
      (Nat.le_trans grows.size_le (Nat.le_add_right _ _))
  exact .get fun first second twin => matches_fullNamesWithin wellFormed known
    (isParsed_of_holds held) (deep twin.grows) (deep twin.otherGrows)

/-! ## What is decided -/

omit known in
theorem matches_throughImplicitInstance? (symbol : Symbol) (enclosing : TypeId) :
    twinning.Matches (Option.map twinning.shift.slot)
      (throughImplicitInstance? model slot symbol enclosing)
      (throughImplicitInstance? model slot symbol enclosing) := by
  have stays := slot_of_held held
  have throughMe : twinning.Matches (Option.map twinning.shift.slot)
      (do
        let access ← accessThroughMe slot
        return some access)
      (do
        let access ← accessThroughMe slot
        return some access) := by
    have access := matches_accessThroughMe twinning slot
    rw [stays] at access
    exact access.bind fun _ => .pure _ rfl
  refine .get fun first second twin => ?_
  dsimp only
  rw [attachedReceiver?_eq wellFormed held twin.grows,
    attachedReceiver?_eq wellFormed held twin.otherGrows]
  have sameTrivia := twin.trivia slot
  rw [stays] at sameTrivia
  rw [sameTrivia]
  refine .ite rfl (fun _ => throughMe) fun _ => ?_
  cases isAttached : attachedReceiver? model twinning.tree slot with
  | none => exact .ite rfl (fun _ => throughMe) fun _ => .pure none rfl
  | some attached =>
      obtain ⟨receiver, member⟩ := attached
      have staysThere := slot_of_held (holds_attachedReceiver wellFormed isAttached)
      have labelled : twinning.Matches _ _ _ :=
        Matches.withPrependedTrivia receiver (first.trivia slot)
      rw [staysThere] at labelled
      refine labelled.bind fun receiver => ?_
      have access := matches_accessThrough twinning receiver slot
      rw [stays] at access
      exact access.bind fun _ => .pure _ rfl

theorem matches_throughAttachedReceiver? (symbol : Symbol) :
    twinning.Matches (Option.map twinning.shift.slot)
      (throughAttachedReceiver? model slot symbol)
      (throughAttachedReceiver? model slot symbol) := by
  refine .get fun first second twin => ?_
  rw [isPromoted_eq wellFormed held twin.grows,
    isPromoted_eq wellFormed held twin.otherGrows,
    attachedReceiver?_eq wellFormed held twin.grows,
    attachedReceiver?_eq wellFormed held twin.otherGrows]
  refine .ite rfl (fun _ => ?_) fun _ => .pure none rfl
  cases isAttached : attachedReceiver? model twinning.tree slot with
  | none => exact .pure none rfl
  | some attached =>
      obtain ⟨receiver, member⟩ := attached
      dsimp only
      cases isMember : model.symbols.symbol? member with
      | none => exact .pure none rfl
      | some member =>
          have staysThere := slot_of_held (holds_attachedReceiver wellFormed isAttached)
          refine Mirrors.bind (Matches.parsed rfl ?_) fun name => ?_
          · rintro text ⟨⟩
            exact known _ (mem_sourceNames_of_symbol? isMember)
          · have access : twinning.Matches twinning.shift.node
                (Building.synthesize slot (.memberAccess receiver name .simple))
                (Building.synthesize (twinning.shift.slot slot)
                  (.memberAccess (twinning.shift.slot receiver)
                    (twinning.shift.node name) .simple)) :=
              Matches.synthesize rfl rfl
            rw [slot_of_held held, staysThere] at access
            exact access.bind fun _ => .pure _ rfl

theorem matches_throughFullName (symbol : Option Symbol) :
    twinning.Matches (Expansion.move twinning.shift)
      (throughFullName model slot symbol) (throughFullName model slot symbol) := by
  have stays := slot_of_held held
  refine .get fun first second twin => ?_
  have sameImport : staticImport? model second slot = staticImport? model first slot := by
    funext symbol
    rw [staticImport?, staticImport?, Arena.isSimpleName, Arena.isSimpleName,
      twin.grows.form?_eq held, twin.otherGrows.form?_eq held]
  rw [isAnonymousAccess_eq wellFormed held twin.grows,
    isAnonymousAccess_eq wellFormed held twin.otherGrows, sameImport]
  refine .ite rfl (fun _ => .pure _ ?_) fun _ => ?_
  · rw [Expansion.move, stays]
  · exact (matches_fullNames wellFormed known held).bind fun node => .pure _ rfl

theorem matches_withoutImplicit (symbol : Symbol) :
    twinning.Matches (Expansion.move twinning.shift)
      (do
        match ← throughAttachedReceiver? model slot symbol with
        | some access => return ⟨access, none⟩
        | none => throughFullName model slot (some symbol))
      (do
        match ← throughAttachedReceiver? model slot symbol with
        | some access => return ⟨access, none⟩
        | none => throughFullName model slot (some symbol)) := by
  refine (matches_throughAttachedReceiver? wellFormed known held symbol).bind
    fun access => ?_
  cases access with
  | none => exact matches_throughFullName wellFormed known held (some symbol)
  | some access => exact .pure _ rfl

theorem matches_expandReference (path : Path) (symbol : Symbol) :
    twinning.Matches (Expansion.move twinning.shift)
      (expandReference model path slot symbol)
      (expandReference model (twinning.shift.path path) slot symbol) := by
  have elsewhere := matches_withoutImplicit wellFormed known held symbol
  refine .get fun first second twin => ?_
  have sameInstance : implicitInstance? model second (twinning.shift.path path) slot symbol =
      implicitInstance? model first path slot symbol := by
    have samePlace := isLeftmostQualifier_shift twin path slot
    rw [slot_of_held held] at samePlace
    obtain ⟨node, isNode⟩ := Arena.exists_node held
    have samePosition : second.position slot = first.position slot := by
      rw [Arena.position, Arena.position, twin.grows slot node isNode,
        twin.otherGrows slot node isNode]
    rw [implicitInstance?, implicitInstance?, samePlace, samePosition]
  have sameName : second.isSimpleName slot = first.isSimpleName slot := by
    rw [Arena.isSimpleName, Arena.isSimpleName, twin.grows.form?_eq held,
      twin.otherGrows.form?_eq held]
  dsimp only
  rw [sameInstance]
  refine .ite sameName (fun _ => ?_) fun _ => elsewhere
  cases implicitInstance? model first path slot symbol with
  | none => exact elsewhere
  | some enclosing =>
      refine (matches_throughImplicitInstance? wellFormed held symbol enclosing).bind
        fun access => ?_
      cases access with
      | none => exact elsewhere
      | some access => exact .pure _ rfl

variable (twin : twinning.Twin first second) (sound : first.Sound)
variable (knowsOnly : model.KnowsOnly twinning.tree)

include twin

theorem alike_expand (path : Path) (noOperator : isEagerLogical first slot = false) :
    Alike twinning.Twin (Expansion.move twinning.shift) (expand model path slot first)
      (expand model (twinning.shift.path path) slot second) := by
  have sameOperator := isEagerLogical_shift twin slot
  rw [slot_of_held held] at sameOperator
  rw [expand, expand, Building.run_bind, Building.run_bind, Building.run_get,
    Building.run_get]
  dsimp only
  rw [sameOperator, noOperator, if_neg Bool.false_ne_true, if_neg Bool.false_ne_true,
    twin.grows.standsFor_eq wellFormed.sound held,
    twin.otherGrows.standsFor_eq wellFormed.sound held]
  cases model.symbol? (twinning.tree.standsFor slot) with
  | none => exact matches_throughFullName wellFormed known held none first second twin
  | some symbol =>
      exact matches_expandReference wellFormed known held path symbol first second twin

include sound knowsOnly

omit wellFormed known held in
/-- Operators are exchanged in the same places. -/
theorem alike_shortCircuit? (path : Path) (slot : Slot) :
    Alike twinning.Twin (Option.map twinning.shift.slot) (shortCircuit? model path slot first)
      (shortCircuit? model (twinning.shift.path path) (twinning.shift.slot slot)
        second) := by
  rw [shortCircuit?, shortCircuit?, Building.run_bind, Building.run_bind,
    Building.run_get, Building.run_get]
  dsimp only
  rw [twin.binary?]
  cases first.binary? slot with
  | none => exact ⟨rfl, twin⟩
  | some parts =>
      obtain ⟨left, operator, right⟩ := parts
      simp only [Option.map_some]
      cases operator.shortCircuitForm? with
      | none => exact ⟨rfl, twin⟩
      | some other =>
          simp only [isBooleanOperand, isPure_shift twin sound knowsOnly,
            typeOf_standsFor_shift twin sound knowsOnly,
            withinCondition_shift twin sound]
          have exchanges : twinning.Matches (Option.map twinning.shift.slot)
              (do
                let changed ← Building.synthesize slot (.binary left other right)
                return some (some changed))
              (do
                let changed ← Building.synthesize (twinning.shift.slot slot)
                  (.binary (twinning.shift.slot left) other (twinning.shift.slot right))
                return some (some changed)) :=
            Mirrors.bind (Matches.synthesize rfl rfl) fun _ => .pure _ rfl
          exact Mirrors.ite rfl (fun _ => exchanges) (fun _ => .pure none rfl) first second
            twin

/-- About a node of the tree the same is decided in twins. -/
theorem alike_decision (path : Path) :
    Alike twinning.Twin (Decision.move twinning.shift)
      (names.decision model path slot first)
      (names.decision model (twinning.shift.path path) slot second) := by
  have stays := slot_of_held held
  have sameOperator := isEagerLogical_shift twin slot
  have exchanged := alike_shortCircuit? twin sound knowsOnly path slot
  have sameName := isExpandableName_shift twin path slot
  have sameReceiver := hasInstanceReceiver_shift twin slot
  rw [stays] at sameOperator exchanged sameName sameReceiver
  have sameAccess : isExpandableAccess model second slot =
      isExpandableAccess model first slot := by
    rw [isExpandableAccess_eq wellFormed held twin.grows,
      isExpandableAccess_eq wellFormed held twin.otherGrows]
  cases isEager : isEagerLogical first slot with
  | true =>
      rw [decision_operator _ _ isEager, decision_operator _ _ (sameOperator.trans isEager)]
      dsimp only
      rw [exchanged.1]
      cases (shortCircuit? model path slot first).1 with
      | none => exact ⟨rfl, exchanged.2⟩
      | some changed => exact ⟨rfl, exchanged.2⟩
  | false =>
      have expanded := alike_expand wellFormed known held twin path isEager
      have sameDecision : expandsNode model second (twinning.shift.path path) slot =
          expandsNode model first path slot := by
        rw [expandsNode, expandsNode, sameOperator, sameName, sameAccess]
      rw [decision_other _ _ isEager, decision_other _ _ (sameOperator.trans isEager),
        expandsWithin, expandsWithin, sameDecision, sameReceiver]
      split
      · exact ⟨congrArg Decision.replace expanded.1, expanded.2⟩
      · split
        · exact ⟨rfl, twin⟩
        · exact ⟨rfl, twin⟩

end

end

end BasicLowering.Qualification
