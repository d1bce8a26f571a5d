import BasicLowering.Lowering.Conversion
import BasicLowering.Proofs.Lowering.Rewording

/-!
# Explicit casts

The constants in the arms of a conditional of type `bool?` are written with a cast on
request. No step of a conversion looks at an expression to see whether it has a cast, so a
conversion without casts does the same as one with casts, and its result is the same but
for the casts.
-/

namespace BasicLowering

namespace Target

/-- The constants that a conditional of type `bool?` may have in its arms. -/
def Expr.isNullableConstant : Expr → Bool
  | null | boolean _ => true
  | _ => false

namespace Expr

mutual

/-- Replace every cast of a constant to `bool?` by the constant. -/
def eraseCasts : Expr → Expr
  | identifier text => identifier text
  | this => this
  | base => base
  | null => null
  | boolean value => boolean value
  | number text => number text
  | string value => string value
  | member receiver name => member (eraseCasts receiver) name
  | conditionalMember receiver name => conditionalMember (eraseCasts receiver) name
  | element receiver index => element (eraseCasts receiver) (eraseCasts index)
  | call callee arguments => call (eraseCasts callee) (eraseCastsAmong arguments)
  | namedArgument name value => namedArgument name (eraseCasts value)
  | new typeName arguments => new typeName (eraseCastsAmong arguments)
  | anonymousObject fields => anonymousObject (eraseCastsInFields fields)
  | binary left operator right => binary (eraseCasts left) operator (eraseCasts right)
  | unary operator operand => unary operator (eraseCasts operand)
  | conditional condition whenTrue whenFalse =>
      conditional (eraseCasts condition) (eraseCasts whenTrue) (eraseCasts whenFalse)
  | test operand pattern => test (eraseCasts operand) pattern
  | cast typeName operand =>
      if typeName = "bool?" ∧ operand.isNullableConstant then operand
      else cast typeName (eraseCasts operand)

/-- Replace the casts in several expressions. -/
def eraseCastsAmong : List Expr → List Expr
  | [] => []
  | expr :: rest => eraseCasts expr :: eraseCastsAmong rest

/-- Replace the casts in the values of several fields. -/
def eraseCastsInFields : List (Option String × Expr) → List (Option String × Expr)
  | [] => []
  | (name, value) :: rest => (name, eraseCasts value) :: eraseCastsInFields rest

end

theorem eraseCastsAmong_eq_map (exprs : List Expr) :
    eraseCastsAmong exprs = exprs.map eraseCasts := by
  induction exprs with
  | nil => rfl
  | cons expr rest ih => rw [eraseCastsAmong, ih, List.map_cons]

theorem eraseCastsInFields_eq_map (fields : List (Option String × Expr)) :
    eraseCastsInFields fields = fields.map fun field => (field.1, field.2.eraseCasts) := by
  induction fields with
  | nil => rfl
  | cons field rest ih => rw [eraseCastsInFields, ih, List.map_cons]

end Expr

/-- Replace every cast of a constant to `bool?` in a statement by the constant. -/
def Statement.eraseCasts : Statement → Statement
  | .ifHeader condition => .ifHeader condition.eraseCasts
  | .elseIfHeader condition => .elseIfHeader condition.eraseCasts
  | .whileHeader condition => .whileHeader condition.eraseCasts
  | .doWhileTrailer condition => .doWhileTrailer condition.eraseCasts
  | .returnValue value => .returnValue (value.map Expr.eraseCasts)
  | .localDeclaration name initializer =>
      .localDeclaration name (initializer.map Expr.eraseCasts)
  | .assignment target value => .assignment target.eraseCasts value.eraseCasts
  | .expression value => .expression value.eraseCasts

end Target

namespace Lowering

open Source Binding
open Target (Expr Statement)

/-- Replace the casts of constants in a converted expression; the mark stays. -/
def Lowered.eraseCasts (lowered : Lowered) : Lowered :=
  { lowered with expr := lowered.expr.eraseCasts }

/-- The same options, save that casts are not written. -/
def Setting.withoutCasts (setting : Setting) : Setting :=
  { setting with options := { setting.options with explicitNullableCasts := false } }

/-! ## Operators -/

/-- The same site, save that casts are not written. -/
def Site.withoutCasts (site : Site) : Site :=
  { site with options := { site.options with explicitNullableCasts := false } }

theorem keepsNames_eraseCasts : KeepsNames Expr.eraseCasts where
  identifier _ := rfl
  null := rfl
  boolean _ := rfl
  member _ _ := rfl
  binary _ _ _ := rfl
  unary _ _ := rfl
  conditional _ _ _ := rfl
  test _ _ := rfl

/-- Replacing the casts of constants. -/
def erasing : Rewording :=
  keepsNames_eraseCasts.rewording

/-- The constants of a site without casts are those of the site, with the casts replaced. -/
theorem agreesOn_withoutCasts (site : Site) {right other : Operand}
    (isPure : site.withoutCasts.isPure other = site.isPure right) :
    erasing.AgreesOn site site.withoutCasts right other := by
  have constant (value : Expr) (isConstant : value.isNullableConstant = true)
      (same : value.eraseCasts = value) :
      site.withoutCasts.nullableConstant value = (site.nullableConstant value).eraseCasts := by
    rw [Site.nullableConstant, Site.nullableConstant]
    cases site.options.explicitNullableCasts with
    | true => exact (if_pos ⟨rfl, isConstant⟩).symm
    | false => exact same.symm
  exact ⟨constant .null rfl rfl, constant (.boolean true) rfl rfl,
    constant (.boolean false) rfl rfl, isPure⟩

theorem lowerBinary_withoutCasts (site : Site) (path : Path) (parent : Step)
    (leftType rightType : ExprType) (target : Target.BinaryOperator) (left right : Lowered) :
    site.withoutCasts.lowerBinary path parent leftType rightType
        (.binary left.expr.eraseCasts target right.expr.eraseCasts) left.eraseCasts
        right.eraseCasts =
      Lowered.eraseCasts <$>
        site.lowerBinary path parent leftType rightType
          (.binary left.expr target right.expr) left right := by
  apply Mirrors.eq_map
  have sameArena : site.withoutCasts.arena = site.arena := rfl
  have operands (slot : Slot) (type : ExprType) (lowered : Lowered) :
      erasing.Operands (site.operand path parent slot type lowered)
        (site.withoutCasts.operand path parent slot type lowered.eraseCasts) :=
    ⟨rfl, rfl, rfl⟩
  unfold Site.lowerBinary
  rw [sameArena]
  cases site.arena.binary? parent.effective with
  | none => exact .pure _ rfl
  | some parts =>
      obtain ⟨leftSlot, operator, rightSlot⟩ := parts
      refine .ite rfl (fun _ => .ite rfl (fun _ => ?_) fun _ => .pure _ rfl) fun _ => .pure _ rfl
      exact Rewording.carries_restate (operands leftSlot leftType left)
        (operands rightSlot rightType right) (agreesOn_withoutCasts site rfl) _ operator target

/-- `a OrElse b`, where `a` is not null: `a ? (bool?)true : b`, and `a ? true : b`. -/
example :
    let left : Operand := ⟨none, .identifier "a", false, true⟩
    let right : Operand := ⟨none, .identifier "b", true, true⟩
    let site : Site := ⟨{}, {}, {}⟩
    (site.disjunction left right {}).1.expr =
        .conditional left.expr (.cast "bool?" (.boolean true)) right.expr ∧
      (site.withoutCasts.disjunction left right {}).1.expr =
        .conditional left.expr (.boolean true) right.expr :=
  ⟨rfl, rfl⟩

/-! ## Forms -/

section

variable {setting : Setting} {Item Result Final : Type}

/-- A conversion of several items whose results are changed one by one. -/
theorem mapM_map (change : Result → Final) (step : Item → Conversion Result)
    (items : List Item) :
    items.mapM (fun item => change <$> step item) = List.map change <$> items.mapM step := by
  induction items with
  | nil => rw [List.mapM_nil, List.mapM_nil, map_pure, List.map_nil]
  | cons item rest ih =>
      rw [List.mapM_cons, List.mapM_cons, ih]
      simp only [bind_map_left, map_bind, map_pure, List.map_cons]

theorem naming_map (change : Result → Final) (step : Naming Result) :
    Conversion.naming (change <$> step) = change <$> Conversion.naming step :=
  rfl

variable (child : Slot → Conversion Lowered) (grandchild : Step → Slot → Conversion Lowered)
variable (path : Path) (here : Step)

theorem convertBinary_withoutCasts (left : Slot) (operator : BinaryOperator) (right : Slot) :
    convertBinary setting.withoutCasts (fun slot => Lowered.eraseCasts <$> child slot) path
        here left operator right =
      Lowered.eraseCasts <$> convertBinary setting child path here left operator right := by
  unfold convertBinary
  rw [map_bind]
  apply bind_congr
  intro session
  dsimp only
  split
  · simp only [bind_map_left, map_bind, map_pure]
    rfl
  · simp only [bind_map_left, map_bind]
    apply bind_congr
    intro loweredLeft
    apply bind_congr
    intro loweredRight
    rw [apply_ite (Lowered.eraseCasts <$> ·), map_bind, map_pure]
    refine ite_congr rfl (fun _ => ?_) fun _ => rfl
    apply bind_congr
    intro session
    rw [← naming_map, ← lowerBinary_withoutCasts]
    rfl

theorem convertField_withoutCasts (field : Slot) :
    convertField (fun field slot => Lowered.eraseCasts <$> grandchild field slot) field =
      Prod.map id Expr.eraseCasts <$> convertField grandchild field := by
  unfold convertField
  rw [map_bind]
  apply bind_congr
  intro form
  cases form with
  | namedField name value =>
      simp only [bind_map_left, map_bind, map_pure]
      rfl
  | inferredField value =>
      simp only [bind_map_left, map_bind, map_pure]
      rfl
  | _ => rfl

theorem exprs_eraseCasts (results : List Lowered) :
    (results.map Lowered.eraseCasts).map (·.expr) =
      Expr.eraseCastsAmong (results.map (·.expr)) := by
  rw [Expr.eraseCastsAmong_eq_map, List.map_map, List.map_map]
  rfl

theorem collapseCondition_eraseCasts (model : Model) (arena : Arena) (condition : Slot)
    (lowered : Lowered) :
    collapseCondition model arena condition lowered.eraseCasts =
      (collapseCondition model arena condition lowered).eraseCasts := by
  unfold collapseCondition
  rw [apply_ite Expr.eraseCasts]
  rfl

theorem convertForm_withoutCasts (form : Form) :
    convertForm setting.withoutCasts (fun slot => Lowered.eraseCasts <$> child slot)
        (fun field slot => Lowered.eraseCasts <$> grandchild field slot) path here form =
      Lowered.eraseCasts <$> convertForm setting child grandchild path here form := by
  cases form with
  | literal value =>
      rw [convertForm, convertForm, map_pure]
      cases value <;> rfl
  | selfReference kind => cases kind <;> rfl
  | parenthesized inner => rfl
  | memberAccess receiver name kind =>
      simp only [convertForm, bind_map_left, map_bind]
      cases kind <;> rfl
  | invocation callee arguments =>
      simp only [convertForm, bind_map_left, map_bind, map_pure, mapM_map, exprs_eraseCasts]
      rfl
  | objectCreation typeName arguments =>
      simp only [convertForm, bind_map_left, map_bind, map_pure, mapM_map, exprs_eraseCasts]
      rfl
  | anonymousObject initializers =>
      have fields : convertField (fun field slot => Lowered.eraseCasts <$> grandchild field slot) =
          fun field => Prod.map id Expr.eraseCasts <$> convertField grandchild field :=
        funext (convertField_withoutCasts grandchild)
      simp only [convertForm, fields, mapM_map, bind_map_left, map_bind, map_pure]
      apply bind_congr
      intro values
      exact congrArg (fun values => pure (Lowered.proven (.anonymousObject values)))
        (Expr.eraseCastsInFields_eq_map values).symm
  | ternary condition whenTrue whenFalse =>
      simp only [convertForm, bind_map_left, map_bind, map_pure, collapseCondition_eraseCasts]
      rfl
  | binary left operator right => exact convertBinary_withoutCasts ..
  | _ =>
      simp only [convertForm, bind_map_left, map_bind, map_pure]
      rfl

end

/-! ## Whole conversions -/

section

variable (setting : Setting)

/-- What is converted in a slot without casts is what is converted there with them, save
for the casts. -/
theorem convertSlot_withoutCasts (levels : Nat) (path : Path) (qualify : Bool) (slot : Slot) :
    convertSlot setting.withoutCasts levels path qualify slot =
      Lowered.eraseCasts <$> convertSlot setting levels path qualify slot := by
  induction levels using Nat.strongRecOn generalizing path qualify slot with
  | ind levels ih =>
  unfold convertSlot
  rw [map_bind]
  apply bind_congr
  intro session
  dsimp only
  rw [apply_ite (Lowered.eraseCasts <$> ·)]
  refine ite_congr rfl (fun _ => ?_) fun _ => rfl
  cases levels with
  | zero => rfl
  | succ levels =>
      have below (fewer : Nat) (isFewer : fewer < levels + 1) (path : Path) (qualify : Bool) :
          convertSlot setting.withoutCasts fewer path qualify =
            fun slot => Lowered.eraseCasts <$> convertSlot setting fewer path qualify slot :=
        funext (ih fewer isFewer path qualify)
      simp only [map_bind]
      apply bind_congr
      rintro ⟨effective, qualify⟩
      apply bind_congr
      intro form
      cases levels with
      | zero =>
          simp only [below 0 (Nat.lt_add_one 0)]
          exact convertForm_withoutCasts ..
      | succ levels =>
          simp only [below (levels + 1) (Nat.lt_add_one _), below levels (by omega)]
          exact convertForm_withoutCasts ..

theorem convertStatement_withoutCasts (statement : Slot) :
    convertStatement setting.withoutCasts statement =
      Statement.eraseCasts <$> convertStatement setting statement := by
  unfold convertStatement
  rw [map_bind]
  apply bind_congr
  intro form
  have each (slot : Slot) := convertSlot_withoutCasts setting (depthLimit - 1)
    [.unchanged statement] true slot
  have sameModel : setting.withoutCasts.model = setting.model := rfl
  cases form with
  | conditionStatement kind condition =>
      simp only [each, bind_map_left, map_bind, sameModel, collapseCondition_eraseCasts]
      cases kind <;> rfl
  | returnStatement value =>
      cases value with
      | none => rfl
      | some node =>
          simp only [each, bind_map_left, map_bind, bind_assoc, pure_bind, map_pure]
          rfl
  | localDeclaration name initializer =>
      cases initializer with
      | none => rfl
      | some node =>
          simp only [each, bind_map_left, map_bind, bind_assoc, pure_bind, map_pure]
          rfl
  | assignment target value =>
      simp only [each, bind_map_left, map_bind, map_pure]
      rfl
  | expressionStatement expression =>
      simp only [each, bind_map_left, map_bind, map_pure]
      rfl
  | _ => rfl

/-- Converting a statement without casts fails with the same error as converting it with
them, or yields the same statement save for the casts. Either way it leaves the session in
the same state: with the same nodes, the same names issued and the same imports asked for.
The same holds of every slot that is converted on the way, and of the mark that its value is
not null. -/
theorem conversion_eq_but_for_casts (statement : Slot) (session : Session) :
    convertStatement setting.withoutCasts statement session =
        Prod.map (Except.map Statement.eraseCasts) id
          (convertStatement setting statement session) ∧
      ∀ levels path qualify slot,
        convertSlot setting.withoutCasts levels path qualify slot session =
          Prod.map (Except.map Lowered.eraseCasts) id
            (convertSlot setting levels path qualify slot session) := by
  have run {Result Final : Type} (change : Result → Final) (step : Conversion Result) :
      (change <$> step) session = Prod.map (Except.map change) id (step session) := by
    change ExceptT.map change step session = _
    simp only [ExceptT.map, ExceptT.mk, Bind.bind, StateT.bind]
    cases step session with
    | mk outcome last => cases outcome <;> rfl
  constructor
  · rw [convertStatement_withoutCasts, run]
  · intro levels path qualify slot
    rw [convertSlot_withoutCasts, run]

end

end Lowering

end BasicLowering
