import BasicLowering.Proofs.Analysis.Relocation
import BasicLowering.Proofs.Qualification.FullNames
import Mathlib.Tactic.TFAE

/-!
# Names that are written out already

Writing out names is done with after one time. The names it leaves are bare names that
need no container, and the chains and the `Me` it adds stand for no parsed node, so
that a front end which knows about parsed nodes only has nothing to say about them. No
node is made where the expression stays as it is.
-/

namespace BasicLowering.Qualification

open Source Binding

/-- Whether writing out names leaves a slot as it is and builds nothing, to any depth and
however much is added to the arena before. -/
def Settled (model : Model) (arena : Arena) (slot : Slot) : Prop :=
  ∀ depth later, arena.Grows later →
    fullNamesWithin model depth slot later = (slot, later)

section

variable {model : Model} {parsed arena : Arena} {slot made receiver : Slot}

theorem settled_none : Settled model arena none := by
  rintro (_ | depth) later - <;> rfl

/-- A name stays as it is where the front end knows no container of what it refers to. -/
theorem fullNameOf_eq_self (noQualifier : qualifierOf? model arena slot = none)
    (notFromMe : isReadFromMe model arena slot = false) :
    fullNameOf model slot arena = (slot, arena) := by
  simp only [fullNameOf, Building.run_bind, Building.run_get]
  cases binds : model.symbol? (arena.standsFor slot) with
  | none => rfl
  | some symbol =>
      simp only [qualifierOf?, binds] at noQualifier
      simp only [isReadFromMe, binds, Option.any_some] at notFromMe
      dsimp only
      split
      · next needs =>
          rw [if_pos needs] at noQualifier
          cases contained : symbol.containingSymbol with
          | none => rfl
          | some container =>
              have empty : model.symbols.qualifiedName container = "" := by
                simpa [contained] using noQualifier
              simp only [if_pos empty]
              rfl
      · rw [if_neg (Bool.not_eq_true _ ▸ notFromMe)]
        rfl

theorem settled_of_name
    (isName : arena.form? slot = some (.identifier text))
    (unqualified : ∀ later, arena.Grows later →
      qualifierOf? model later slot = none ∧ isReadFromMe model later slot = false) :
    Settled model arena slot := by
  rintro (_ | depth) later grows
  · rfl
  · rw [fullNamesWithin]
    simp only [Building.run_bind, Building.run_get, grows.form? isName]
    exact fullNameOf_eq_self (unqualified later grows).1 (unqualified later grows).2

/-- Slots that stay as they are do so one after another. -/
theorem mapM_settled {depth : Nat} {later : Arena} (slots : List Slot)
    (grows : arena.Grows later) (settled : ∀ slot ∈ slots, Settled model arena slot) :
    slots.mapM (fullNamesWithin model depth) later = (slots, later) := by
  induction slots with
  | nil => rfl
  | cons slot rest ih =>
      rw [List.forall_mem_cons] at settled
      simp only [List.mapM_cons, Building.run_bind, Building.run_pure]
      rw [settled.1 depth later grows, ih settled.2]

/-- A node stays as it is where its operands do. -/
theorem settled_of_operands {form : Form} (found : arena.form? slot = some form)
    (notName : form.isSimpleName = false)
    (settled : ∀ operand ∈ operandsOf form, Settled model arena operand) :
    Settled model arena slot := by
  rintro (_ | depth) later grows
  · rfl
  · rw [fullNamesWithin_operator depth (grows.form? found) notName,
      mapM_settled _ grows settled]
    simp only [withOperands_operandsOf, if_pos]

theorem settled_access {name : Slot}
    (found : arena.form? slot = some (.memberAccess receiver name .simple))
    (settled : Settled model arena receiver) : Settled model arena slot := by
  refine settled_of_operands found rfl fun operand isReceiver => ?_
  rwa [List.mem_singleton.mp isReceiver]

/-! ## What has been added -/

/-- The front end says nothing about what has been added in place of no parsed node. -/
theorem symbol?_of_isNew (knowsOnly : model.KnowsOnly parsed)
    (isNew : IsNew parsed arena slot) :
    model.symbol? (arena.standsFor slot) = none := by
  rw [Arena.standsFor_of_parsed isNew.2, Model.symbol?,
    Model.KnowsOnly.getElem?_of_missing knowsOnly.symbols isNew.1]
  rfl

theorem settled_of_spells {parts : List String} (knowsOnly : model.KnowsOnly parsed)
    (spelled : Spells parsed arena slot parts) : Settled model arena slot := by
  induction spelled with
  | name isNew isName =>
      have found := Arena.form?_of_nameText? isName
      refine settled_of_name found fun later grows => ?_
      have unknown := symbol?_of_isNew knowsOnly
        (isNew.grow grows (Arena.holds_of_form? found))
      exact ⟨by rw [qualifierOf?, unknown], by rw [isReadFromMe, unknown]; rfl⟩
  | access _ found _ _ ih => exact settled_access found ih

theorem settled_of_standsBefore (knowsOnly : model.KnowsOnly parsed)
    (standsBefore : StandsBefore model parsed arena slot receiver) :
    Settled model arena receiver := by
  cases standsBefore with
  | container _ spelled => exact settled_of_spells knowsOnly spelled
  | me _ isMe => exact settled_of_operands isMe.2 rfl nofun

/-! ## Whole expressions -/

/-- What stands for a node has its names written out. -/
theorem settled_of_expands (soundParsed : parsed.Sound)
    (knowsOnly : model.KnowsOnly parsed) (grows : parsed.Grows arena)
    (expands : Expands model parsed arena slot made) : Settled model arena made := by
  induction expands with
  | name _ standsBefore _ takesPlace =>
      obtain ⟨-, _, found, -⟩ := takesPlace.inPlace
      exact settled_access found (settled_of_standsBefore knowsOnly standsBefore)
  | bare isName noQualifier notFromMe =>
      refine settled_of_name (grows.form? (Arena.form?_of_nameText? isName))
        fun later growsLater => ?_
      have standsFor := (grows.trans growsLater).standsFor_eq soundParsed
        (holds_of_nameText? isName)
      rw [qualifierOf?, isReadFromMe, standsFor]
      exact ⟨noQualifier, notFromMe⟩
  | same found notName _ ih =>
      exact settled_of_operands (grows.form? found) notName ih
  | @copy _ copied node operands _ notName sameLength _ _ _ isCopy ih =>
      have found : arena.form? copied = some (withOperands node.form operands) := by
        rw [Arena.form?, isCopy, Option.map_some]
      refine settled_of_operands found
        ((isSimpleName_withOperands _ _).trans notName) fun operand isOperand => ?_
      rw [operandsOf_withOperands sameLength] at isOperand
      obtain ⟨_, -, isPair⟩ := exists_zip_of_mem sameLength isOperand
      exact ih _ isPair
  | absent => exact settled_none

theorem holds_of_size_eq {other : Arena} (sameSize : other.size = arena.size)
    (held : other.holds slot = true) : arena.holds slot = true := by
  cases slot with
  | none => cases held
  | some node =>
      have inside : node.index < other.size := by
        simpa [Arena.holds, Arena.node?, Arena.size] using held
      exact Arena.holds_of_index_lt (sameSize ▸ inside)

/-- What was there before stands for nothing but itself. -/
theorem Expands.eq_of_holds (expands : Expands model parsed arena slot made)
    (held : parsed.holds made = true) : made = slot := by
  cases expands with
  | name _ _ _ takesPlace =>
      rw [takesPlace.1] at held
      cases held
  | bare | same | absent => rfl
  | copy _ _ _ _ _ isAdded _ =>
      rw [isAdded] at held
      cases held

/-- Names that have been written out once stay as they are when they are to be written
out again. An expression is kept exactly where nothing is built for it, and what was
there before stays untouched. -/
theorem fullNames_settled (sound : arena.Sound) (knowsOnly : model.KnowsOnly arena)
    (held : arena.holds slot = true) :
    let first := fullNames model slot arena
    fullNames model first.1 first.2 = first ∧
      [first.1 = slot, first.2 = arena, first.2.size = arena.size].TFAE ∧
      arena.Grows first.2 := by
  have built : BuildsExpanded model arena slot arena (fullNames model slot arena) :=
    expands_fullNames sound held (.refl arena) sound
  generalize fullNames model slot arena = first at built ⊢
  obtain ⟨made, after⟩ := first
  have settled := settled_of_expands sound knowsOnly built.grows built.expands
  refine ⟨?_, ?_, built.grows⟩
  · rw [fullNames, Building.run_bind, Building.run_get]
    exact settled _ after (.refl after)
  · tfae_have 1 → 2 := built.unchanged
    tfae_have 2 → 3 := congrArg Arena.size
    tfae_have 3 → 1 := by
      intro sameSize
      refine built.expands.eq_of_holds ?_
      exact holds_of_size_eq sameSize (built.expands.holds held built.grows)
    tfae_finish

end

/-- `Version.Major` after a blank. -/
def majorVersion : Arena where
  nodes := #[
    { span := ⟨0, 1⟩, trivia := " ", form := .identifier "Version" },
    { span := ⟨1, 2⟩, form := .identifier "Major" },
    { span := ⟨0, 2⟩, form := .memberAccess (some ⟨0⟩) (some ⟨1⟩) .simple }]
  cursor := 2

/-- A front end for which a node refers to the property `Version` of the module
`App.Helpers`. -/
def versionProperty (node : NodeId) : Model where
  symbols := ⟨#[
    { id := ⟨0⟩, name := "App", kind := .namespaceName },
    { id := ⟨1⟩, name := "Helpers", kind := .namedType, containingSymbol := some ⟨0⟩ },
    { id := ⟨2⟩, name := "Version", kind := .property, flags := { isStatic := true },
      containingSymbol := some ⟨1⟩ }]⟩
  nodeSymbols := (∅ : Std.TreeMap Slot SymbolId).insert (some node) ⟨2⟩

/-- The access is copied over `App.Helpers.Version`, and the copy is left as it is. -/
theorem majorVersion_settled :
    let model := versionProperty ⟨0⟩
    let first := fullNames model (some ⟨2⟩) majorVersion
    majorVersion.Sound ∧ model.KnowsOnly majorVersion ∧
      majorVersion.holds (some ⟨2⟩) = true ∧ first.1 = some ⟨8⟩ ∧
      fullNames model first.1 first.2 = first := by
  have sound : majorVersion.Sound := Arena.sound_of_earlier (by decide)
  have knowsOnly : (versionProperty ⟨0⟩).KnowsOnly majorVersion :=
    ⟨by decide +kernel, by decide +kernel, by decide +kernel⟩
  have held : majorVersion.holds (some ⟨2⟩) = true := rfl
  have stays := (fullNames_settled sound knowsOnly held).1
  exact ⟨sound, knowsOnly, held, by decide +kernel, stays⟩

end BasicLowering.Qualification
