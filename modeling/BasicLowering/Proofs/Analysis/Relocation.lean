import BasicLowering.Proofs.Analysis.Purity
import BasicLowering.Proofs.Source.Twin
import BasicLowering.Analysis.NullFlow

/-!
# Analyses of relocated nodes

An analysis looks at nodes, at what they are made of and at what the front end knows
about them, and never at the places where they are. Twin arenas are therefore analysed
alike, provided that the front end knows nothing about nodes that were not parsed.
-/

namespace BasicLowering

open Source Binding

/-- Whether a model has entries only for the nodes of a tree. -/
structure Binding.Model.KnowsOnly (model : Model) (tree : Arena) : Prop where
  symbols : ∀ slot ∈ model.nodeSymbols.keys, tree.holds slot = true
  types : ∀ slot ∈ model.nodeTypes.keys, tree.holds slot = true
  operations : ∀ slot ∈ model.operations.keys, tree.holds slot = true

namespace Binding.Model.KnowsOnly

theorem getElem?_of_missing {Entry : Type} {entries : Std.TreeMap Slot Entry} {tree : Arena}
    (ofTree : ∀ slot ∈ entries.keys, tree.holds slot = true) {slot : Slot}
    (missing : tree.holds slot = false) : entries[slot]? = none := by
  apply Std.TreeMap.getElem?_eq_none
  intro isKey
  rw [ofTree slot (Std.TreeMap.mem_keys.mpr isKey)] at missing
  cases missing

variable {model : Model} {twinning : Twinning}
variable (knowsOnly : model.KnowsOnly twinning.tree)

include knowsOnly

theorem symbol?_shift (slot : Slot) :
    model.symbol? (twinning.shift.slot slot) = model.symbol? slot := by
  cases held : twinning.tree.holds slot with
  | true => rw [Twinning.slot_of_held held]
  | false =>
      rw [Model.symbol?, Model.symbol?, getElem?_of_missing knowsOnly.symbols held,
        getElem?_of_missing knowsOnly.symbols (Twinning.slot_of_missing held)]

theorem typeOf_shift (slot : Slot) :
    model.typeOf (twinning.shift.slot slot) = model.typeOf slot := by
  cases held : twinning.tree.holds slot with
  | true => rw [Twinning.slot_of_held held]
  | false =>
      rw [Model.typeOf, Model.typeOf, getElem?_of_missing knowsOnly.types held,
        getElem?_of_missing knowsOnly.types (Twinning.slot_of_missing held)]

end Binding.Model.KnowsOnly

namespace Analysis

/-! ## How deep pure operands are -/

section

variable {model : Model} {arena : Arena} {slot : Slot} {depth more : Nat}

/-- Below its depth an operand has nothing to be entered. -/
theorem isPureWithin_succ_of_hasDepth (hasDepth : arena.HasDepth depth slot) :
    isPureWithin model arena (depth + 1) slot = isPureWithin model arena depth slot := by
  induction depth generalizing slot with
  | zero =>
      rw [isPureWithin_succ_eq, hasDepth.skipParens.missing]
      simp [isPureWithin]
  | succ depth ih =>
      rw [isPureWithin_succ_eq, isPureWithin_succ_eq depth]
      congr 1
      have inside := hasDepth.skipParens
      split
      · next left operator right found =>
          rw [ih (inside.ofSlot found (by simp [Form.slots])),
            ih (inside.ofSlot found (by simp [Form.slots]))]
      · next operator operand found => rw [ih (inside.ofSlot found (by simp [Form.slots]))]
      · rfl

theorem isPureWithin_of_hasDepth (hasDepth : arena.HasDepth depth slot)
    (enough : depth ≤ more) :
    isPureWithin model arena more slot = isPureWithin model arena depth slot := by
  induction more, enough using Nat.le_induction with
  | base => rfl
  | succ more enough ih =>
      rw [isPureWithin_succ_of_hasDepth (hasDepth.mono enough), ih]

end

/-! ## Twins -/

section

variable {model : Model} {twinning : Twinning} {first second : Arena}
variable (twin : twinning.Twin first second)

include twin

theorem isLiteral_shift (slot : Slot) :
    isLiteral second (twinning.shift.slot slot) = isLiteral first slot := by
  rw [isLiteral, twin.form?, isLiteral]
  cases first.form? slot with
  | none => rfl
  | some form => cases form <;> rfl

variable (sound : first.Sound)

include sound

section

variable (knowsOnly : model.KnowsOnly twinning.tree)

include knowsOnly

theorem symbol?_standsFor_shift (slot : Slot) :
    model.symbol? (second.standsFor (twinning.shift.slot slot)) =
      model.symbol? (first.standsFor slot) := by
  rw [twin.standsFor sound, knowsOnly.symbol?_shift]

theorem typeOf_standsFor_shift (slot : Slot) :
    model.typeOf (second.standsFor (twinning.shift.slot slot)) =
      model.typeOf (first.standsFor slot) := by
  rw [twin.standsFor sound, knowsOnly.typeOf_shift]

theorem isSafelyReusable_shift (slot : Slot) :
    isSafelyReusable model second (twinning.shift.slot slot) =
      isSafelyReusable model first slot := by
  rw [isSafelyReusable, twin.skipParens sound, isLiteral_shift twin,
    symbol?_standsFor_shift twin sound knowsOnly, isSafelyReusable]

theorem isPureWithin_shift (depth : Nat) (slot : Slot) :
    isPureWithin model second depth (twinning.shift.slot slot) =
      isPureWithin model first depth slot := by
  induction depth generalizing slot with
  | zero =>
      simp only [isPureWithin, twin.skipParens sound,
        isSafelyReusable_shift twin sound knowsOnly]
  | succ depth ih =>
      rw [isPureWithin_succ_eq, isPureWithin_succ_eq, twin.skipParens sound,
        isSafelyReusable_shift twin sound knowsOnly, twin.form?]
      congr 1
      cases first.form? (first.skipParens slot) with
      | none => rfl
      | some form =>
          cases form with
          | binary left operator right =>
              exact congrArg₂ Bool.and (ih left) (ih right)
          | unary operator operand => exact ih operand
          | _ => rfl

theorem isPure_shift (slot : Slot) :
    isPure model second (twinning.shift.slot slot) = isPure model first slot := by
  have enough : first.size ≤ second.size := by
    rw [twin.size]
    exact Nat.le_add_right _ _
  rw [isPure, isPureWithin_shift twin sound knowsOnly, isPure]
  exact isPureWithin_of_hasDepth (sound.acyclic.hasDepth slot (Nat.le_refl _)) enough

end

/-! ### Conditions -/

theorem asksForTruth_shift (parent : Step) (slot : Slot) :
    asksForTruth second (twinning.shift.step parent) (twinning.shift.slot slot) =
      asksForTruth first parent slot := by
  rw [asksForTruth, Shift.step, twin.form?, asksForTruth]
  cases first.form? parent.effective with
  | none => rfl
  | some form =>
      cases form with
      | conditionStatement kind condition | ternary condition whenTrue whenFalse =>
          simp only [Option.map_some, Shift.form, Form.mapSlots, twin.skipParens sound,
            Shift.slot_beq]
      | _ => rfl

omit sound in
theorem parentSkippingParens?_shift (path : Path) :
    parentSkippingParens? second (twinning.shift.path path) =
      (parentSkippingParens? first path).map fun (parent, outer) =>
        (twinning.shift.step parent, twinning.shift.path outer) := by
  induction path with
  | nil => rfl
  | cons step outer ih =>
      rw [Shift.path, List.map_cons, parentSkippingParens?, parentSkippingParens?,
        Shift.step, twin.isParenthesized]
      split
      · exact ih
      · rfl

theorem alwaysHasBooleanType_shift (path : Path) (slot : Slot) :
    alwaysHasBooleanType second (twinning.shift.path path) (twinning.shift.slot slot) =
      alwaysHasBooleanType first path slot := by
  rw [alwaysHasBooleanType, parentSkippingParens?_shift twin, alwaysHasBooleanType]
  cases parentSkippingParens? first path with
  | none => rfl
  | some parent => exact asksForTruth_shift twin sound parent.1 slot

theorem withinCondition_shift (path : Path) (slot : Slot) :
    withinCondition second (twinning.shift.path path) (twinning.shift.slot slot) =
      withinCondition first path slot := by
  induction path generalizing slot with
  | nil => exact alwaysHasBooleanType_shift twin sound [] slot
  | cons step outer ih =>
      have here := alwaysHasBooleanType_shift twin sound (step :: outer) slot
      rw [Shift.path, List.map_cons] at here ⊢
      rw [withinCondition, withinCondition, here, ← ih step.referent, Shift.step,
        twin.isExpression]
      rfl

variable (knowsOnly : model.KnowsOnly twinning.tree)

include knowsOnly

theorem passesCollapse_shift (left : Slot) (operator : BinaryOperator) (right slot : Slot) :
    passesCollapse model second (twinning.shift.slot left) operator
        (twinning.shift.slot right) (twinning.shift.slot slot) =
      passesCollapse model first left operator right slot := by
  cases operator with
  | andAlso =>
      rw [passesCollapse, passesCollapse, twin.skipParens sound, bne, Shift.slot_beq, bne,
        isPure_shift twin sound knowsOnly]
  | _ => rfl

theorem canConvertToBoolean_shift (path : Path) (slot : Slot) :
    canConvertToBoolean model second (twinning.shift.path path)
        (twinning.shift.slot slot) =
      canConvertToBoolean model first path slot := by
  induction path generalizing slot with
  | nil => rfl
  | cons step outer ih =>
      rw [Shift.path, List.map_cons, canConvertToBoolean, canConvertToBoolean,
        asksForTruth_shift twin sound, Shift.step]
      dsimp only
      rw [twin.isParenthesized, twin.binary?]
      split
      · exact ih slot
      · congr 1
        cases first.binary? step.effective with
        | none => rfl
        | some parts =>
            exact congrArg₂ Bool.and (ih step.referent)
              (passesCollapse_shift twin sound knowsOnly _ _ _ slot)

omit knowsOnly

/-! ### Null flow -/

theorem isName_shift (name : String) (slot : Slot) :
    isName second name (twinning.shift.slot slot) = isName first name slot := by
  rw [isName, twin.skipParens sound, twin.nameText?, isName]

theorem isNameAndNothing_shift (name : String) (left right : Slot) :
    isNameAndNothing second name (twinning.shift.slot left) (twinning.shift.slot right) =
      isNameAndNothing first name left right := by
  simp only [isNameAndNothing, isName_shift twin sound, twin.skipParens sound,
    twin.isNothing]

theorem factWhen?_shift (name : String) (levels : Nat) (slot : Slot) (result : Bool) :
    factWhen? second name levels (twinning.shift.slot slot) result =
      factWhen? first name levels slot result := by
  induction levels generalizing slot result with
  | zero => rfl
  | succ levels ih =>
      rw [factWhen?, twin.form?, factWhen?]
      cases first.form? slot with
      | none => rfl
      | some form =>
          cases form with
          | memberAccess receiver member kind =>
              simp only [Option.map_some, Shift.form, Form.mapSlots, twin.nameText?]
          | binary left operator right =>
              cases operator <;>
                simp only [Option.map_some, Shift.form, Form.mapSlots, ih,
                  isNameAndNothing_shift twin sound]
          | unary operator operand =>
              cases operator with
              | not => exact ih operand _
              | _ => rfl
          | parenthesized inner => exact ih inner result
          | _ => rfl

theorem factFromPath?_shift (name : String) (path : Path) (child : Slot) :
    factFromPath? second name (twinning.shift.path path) (twinning.shift.slot child) =
      factFromPath? first name path child := by
  induction path generalizing child with
  | nil => rfl
  | cons step outer ih =>
      rw [Shift.path, List.map_cons, factFromPath?, factFromPath?, Shift.step]
      dsimp only
      rw [twin.binary?]
      cases first.binary? step.effective with
      | none => rfl
      | some parts =>
          obtain ⟨left, operator, right⟩ := parts
          simp only [Option.map_some, Shift.slot_eq_iff, ← ih step.referent, Shift.path]
          congr 1
          congr 1
          congr 1
          funext result
          exact factWhen?_shift twin sound name _ left result

theorem knownNullability?_shift (path : Path) (parent : Step) (operand : Slot) :
    knownNullability? second (twinning.shift.path path) (twinning.shift.step parent)
        (twinning.shift.slot operand) =
      knownNullability? first path parent operand := by
  rw [knownNullability?, twin.skipParens sound, twin.nameText?, knownNullability?]
  congr 1
  funext name
  exact factFromPath?_shift twin sound name path parent.referent

end

end Analysis

end BasicLowering
