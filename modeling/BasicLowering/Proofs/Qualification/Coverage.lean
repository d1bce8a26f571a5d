import BasicLowering.Proofs.Lowering.Resolution
import BasicLowering.Proofs.Qualification.Settled

/-!
# Expressions with all names written out

What writing out the names of an expression would come to if every part of it were gone
through and nothing else were changed, and for which expressions it does. Names are not
looked for below new objects, fields and type tests, and what stands in front of a node
is lost with every copy: a name that has to be written out below such a node stands in
the way, and nothing else does.
-/

namespace BasicLowering.Qualification

open Source Binding
open Lowering (valueSlots isUnsearched)

/-! ## The parts of an expression -/

/-- The slots of a form in which names are to be written out: all but those that hold
names of members, of arguments and of fields, and but for a name after which a field of
an anonymous object is named. -/
def expressionsOf (arena : Arena) : Form → List Slot
  | .inferredField value => if arena.isSimpleName value then [] else [value]
  | form => valueSlots form

/-- The same form with other expressions in these slots. -/
def withExpressions (form : Form) (expressions : List Slot) : Form :=
  let expression (index : Nat) : Slot := expressions[index]?.join
  match form with
  | .objectCreation typeName _ => .objectCreation typeName expressions
  | .anonymousObject _ => .anonymousObject expressions
  | .namedField name _ => .namedField name (expression 0)
  | .inferredField value => .inferredField (expressions.headD value)
  | .typeTest _ typeName negated => .typeTest (expression 0) typeName negated
  | .conditionStatement kind _ => .conditionStatement kind (expression 0)
  | .returnStatement _ => .returnStatement (expression 0)
  | .localDeclaration name _ => .localDeclaration name (expression 0)
  | .assignment _ _ => .assignment (expression 0) (expression 1)
  | .expressionStatement _ => .expressionStatement (expression 0)
  | form => withOperands form expressions

/-- Whether one node is a part of another one in which names are to be written out, at
any depth. -/
inductive Reaches (arena : Arena) : Slot → Slot → Prop
  | here (slot : Slot) : Reaches arena slot slot
  | inside {slot part target : Slot} {form : Form} (found : arena.form? slot = some form)
      (isPart : part ∈ expressionsOf arena form) (further : Reaches arena part target) :
      Reaches arena slot target

/-- Whether a slot holds a name that does not mean the same in any scope: one that is
read through a container or from `Me`. -/
def NeedsQualification (model : Model) (arena : Arena) (slot : Slot) : Prop :=
  arena.isSimpleName slot = true ∧
    ((qualifierOf? model arena slot).isSome = true ∨
      isReadFromMe model arena slot = true)

/-- Whether all names below a slot are written out as they should be, and everything else
is as it was: a node with other parts is found again with its range, its trivia and the
rest of its form. -/
inductive FullyQualified (model : Model) (parsed arena : Arena) : Slot → Slot → Prop
  | name {slot receiver access : Slot} {text : String}
      (isName : parsed.nameText? slot = some text)
      (standsBefore : StandsBefore model parsed arena slot receiver)
      (inFront : TriviaInFront arena receiver (parsed.trivia slot))
      (takesPlace : TakesPlace parsed arena slot receiver text access) :
      FullyQualified model parsed arena slot access
  | bare {slot : Slot} (isName : parsed.isSimpleName slot = true)
      (unneeded : ¬ NeedsQualification model parsed slot) :
      FullyQualified model parsed arena slot slot
  | node {slot made origin : Slot} {node : Node} {expressions : List Slot}
      (isNode : parsed.node? slot = some node)
      (notName : node.form.isSimpleName = false)
      (sameLength : expressions.length = (expressionsOf parsed node.form).length)
      (below : ∀ pair ∈ (expressionsOf parsed node.form).zip expressions,
        FullyQualified model parsed arena pair.1 pair.2)
      (otherwiseSame : arena.node? made = some
        { node with origin, form := withExpressions node.form expressions })
      (replaces : made = slot ∨ origin = slot) :
      FullyQualified model parsed arena slot made
  | absent : FullyQualified model parsed arena none none

/-- Whether the names below a node are looked for, and nothing stands in front of the node
that a copy of it would lose. -/
def IsGoneThrough (arena : Arena) (slot : Slot) : Prop :=
  ∃ node, arena.node? slot = some node ∧ isUnsearched node.form = false ∧ node.trivia = ""

section

variable {form : Form} {arena : Arena} {expressions : List Slot}

theorem withExpressions_expressionsOf :
    withExpressions form (expressionsOf arena form) = form := by
  cases form <;>
    first
    | rfl
    | next value =>
        simp only [withExpressions, expressionsOf]
        split <;> rfl

/-- A form with other expressions has these expressions. -/
theorem eq_of_withExpressions
    (sameLength : expressions.length = (expressionsOf arena form).length)
    (same : withExpressions form expressions = form) :
    expressions = expressionsOf arena form := by
  match expressions with
  | [] | [_] | [_, _] | [_, _, _] | _ :: _ :: _ :: _ :: _ =>
      cases form with
      | inferredField value =>
          cases isName : arena.isSimpleName value <;>
            simp_all [withExpressions, expressionsOf]
      | _ =>
          simp_all [withExpressions, withOperands, expressionsOf, valueSlots, Form.slots]

theorem operandsOf_of_searched (searched : isUnsearched form = false) :
    operandsOf form = expressionsOf arena form := by
  cases form <;> first | rfl | cases searched

theorem withExpressions_of_searched (searched : isUnsearched form = false) :
    withExpressions form expressions = withOperands form expressions := by
  cases form <;> first | rfl | cases searched

theorem searched_of_operands (hasOperands : operandsOf form ≠ []) :
    isUnsearched form = false := by
  cases form <;> first | rfl | exact absurd rfl hasOperands

end

/-! ## Where nothing is to be written out -/

section

variable {model : Model} {parsed arena : Arena} {slot made : Slot}

theorem not_mem_expressionsOf {form : Form} (isName : form.isSimpleName = true)
    (part : Slot) : part ∉ expressionsOf parsed form := by
  cases form <;> first | exact List.not_mem_nil | cases isName

theorem isSimpleName_eq {node : Node} (isNode : parsed.node? slot = some node) :
    parsed.isSimpleName slot = node.form.isSimpleName := by
  rw [Arena.isSimpleName, Arena.form?, isNode, Option.map_some, Option.any_some]

/-- Below a name there is nothing. -/
theorem Reaches.eq_of_isSimpleName {name : Slot} (reaches : Reaches parsed slot name)
    (isName : parsed.isSimpleName slot = true) : name = slot := by
  cases reaches with
  | here => rfl
  | inside found isPart _ =>
      rw [Arena.isSimpleName, found, Option.any_some] at isName
      exact absurd isPart (not_mem_expressionsOf isName _)

theorem Reaches.trans {middle target : Slot} (reaches : Reaches parsed slot middle)
    (further : Reaches parsed middle target) : Reaches parsed slot target := by
  induction reaches with
  | here => exact further
  | inside found isPart _ ih => exact .inside found isPart (ih further)

theorem expressionsOf_subset_slots (form : Form) :
    expressionsOf parsed form ⊆ form.slots := by
  intro part isPart
  unfold expressionsOf at isPart
  split at isPart
  · split at isPart
    · cases isPart
    · exact isPart
  · exact Lowering.valueSlots_subset_slots _ isPart

/-- A node may stay as it is where its parts may. -/
theorem FullyQualified.ofParts {node : Node} (grows : parsed.Grows arena)
    (isNode : parsed.node? slot = some node) (notName : node.form.isSimpleName = false)
    (below : ∀ part ∈ expressionsOf parsed node.form,
      FullyQualified model parsed arena part part) :
    FullyQualified model parsed arena slot slot := by
  have otherwiseSame : arena.node? slot = some { node with
      form := withExpressions node.form (expressionsOf parsed node.form) } := by
    rw [withExpressions_expressionsOf]
    exact grows _ _ isNode
  refine .node isNode notName rfl ?_ otherwiseSame (.inl rfl)
  rw [List.zip_eq_zipWith, List.zipWith_self]
  exact List.forall_mem_map.mpr below

/-- Nothing has to change where no name has to be written out. -/
theorem fullyQualified_self (sound : parsed.Sound) (grows : parsed.Grows arena)
    (known : ∀ node, slot = some node → parsed.holds slot = true)
    (unneeded : ∀ name, Reaches parsed slot name →
      ¬ NeedsQualification model parsed name) :
    FullyQualified model parsed arena slot slot := by
  cases slot with
  | none => exact .absent
  | some node =>
      induction node using sound.acyclic.induction with
      | _ node ih =>
          obtain ⟨found, isNode⟩ := Arena.exists_node (known node rfl)
          have isForm : parsed.form? (some node) = some found.form := by
            rw [Arena.form?, isNode, Option.map_some]
          cases isName : found.form.isSimpleName with
          | true =>
              exact .bare ((isSimpleName_eq isNode).trans isName)
                (unneeded _ (.here _))
          | false =>
              refine .ofParts grows isNode isName fun part isPart => ?_
              cases part with
              | none => exact .absent
              | some child =>
                  have isChild : child ∈ found.form.children :=
                    List.mem_filterMap.mpr ⟨_, expressionsOf_subset_slots _ isPart, rfl⟩
                  refine ih child ⟨_, isForm, isChild⟩ (fun _ _ =>
                    sound.children _ _ isForm child isChild) fun name further => ?_
                  exact unneeded name (.inside isForm isPart further)

/-- What has not changed need not be written out, and its parts have not changed. -/
theorem FullyQualified.of_self (grows : parsed.Grows arena)
    (qualified : FullyQualified model parsed arena slot slot) :
    ¬ NeedsQualification model parsed slot ∧
      ∀ form part, parsed.form? slot = some form → part ∈ expressionsOf parsed form →
        FullyQualified model parsed arena part part := by
  cases qualified with
  | name isName _ _ takesPlace =>
      exact absurd rfl (takesPlace.ne_slot (holds_of_nameText? isName))
  | bare isName unneeded =>
      refine ⟨unneeded, fun form part found isPart => ?_⟩
      rw [Arena.isSimpleName, found, Option.any_some] at isName
      exact absurd isPart (not_mem_expressionsOf isName part)
  | @node _ _ origin node expressions isNode notName sameLength below otherwiseSame _ =>
      refine ⟨fun needs => ?_, fun form part found isPart => ?_⟩
      · have isName := needs.1
        rw [isSimpleName_eq isNode, notName] at isName
        cases isName
      · have sameNode := (grows _ _ isNode).symm.trans otherwiseSame
        have sameForm : withExpressions node.form expressions = node.form :=
          (congrArg Node.form (Option.some.inj sameNode)).symm
        rw [eq_of_withExpressions sameLength sameForm, List.zip_eq_zipWith,
          List.zipWith_self, List.forall_mem_map] at below
        rw [Arena.form?, isNode, Option.map_some] at found
        cases found
        exact below part isPart
  | absent =>
      refine ⟨fun needs => ?_, fun form part found => ?_⟩
      · cases needs.1
      · cases found

/-- Where nothing has changed no name had to be written out. -/
theorem FullyQualified.unneeded {name : Slot} (grows : parsed.Grows arena)
    (qualified : FullyQualified model parsed arena slot slot)
    (reaches : Reaches parsed slot name) : ¬ NeedsQualification model parsed name := by
  induction reaches with
  | here slot => exact (qualified.of_self grows).1
  | inside found isPart _ ih => exact ih ((qualified.of_self grows).2 _ _ found isPart)

/-! ## Where a name is written out -/

theorem exists_zip_of_mem_left {operands copies : List Slot} {operand : Slot}
    (sameLength : copies.length = operands.length) (isOperand : operand ∈ operands) :
    ∃ copy, (operand, copy) ∈ operands.zip copies := by
  obtain ⟨index, inside, rfl⟩ := List.getElem_of_mem isOperand
  have insideCopies : index < copies.length := sameLength ▸ inside
  refine ⟨copies[index], ?_⟩
  rw [List.mem_iff_getElem]
  exact ⟨index, by simpa using ⟨inside, insideCopies⟩, by simp⟩

/-- Where lists differ a pair of their entries does. -/
theorem exists_zip_ne {operands copies : List Slot}
    (sameLength : copies.length = operands.length) (differ : copies ≠ operands) :
    ∃ pair ∈ operands.zip copies, pair.2 ≠ pair.1 := by
  by_contra same
  push Not at same
  refine differ (List.ext_getElem sameLength fun index inside insideOperands => ?_)
  exact same (operands[index], copies[index]) (List.mem_iff_getElem.mpr
    ⟨index, by simpa using ⟨insideOperands, inside⟩, by simp⟩)

/-- Another node stands for a node only where a name below it has to be written out. -/
theorem Expands.exists_needed (expands : Expands model parsed arena slot made)
    (differs : made ≠ slot) :
    ∃ name, Reaches parsed slot name ∧ NeedsQualification model parsed name := by
  induction expands with
  | @name slot receiver access text isName standsBefore _ _ =>
      have isSimple : parsed.isSimpleName slot = true := by
        rw [Arena.isSimpleName, Arena.form?_of_nameText? isName]
        rfl
      refine ⟨slot, .here slot, isSimple, ?_⟩
      cases standsBefore with
      | container isQualifier _ => exact .inl (by rw [isQualifier, Option.isSome_some])
      | me fromMe _ => exact .inr fromMe
  | bare | same | absent => exact absurd rfl differs
  | @copy slot copied node operands isNode _ sameLength below changed _ _ ih =>
      obtain ⟨pair, isPair, differ⟩ := exists_zip_ne sameLength changed
      obtain ⟨name, reaches, needs⟩ := ih pair isPair differ
      have isOperand : pair.1 ∈ operandsOf node.form := (List.of_mem_zip isPair).1
      have found : parsed.form? slot = some node.form := by
        rw [Arena.form?, isNode, Option.map_some]
      rw [operandsOf_of_searched (searched_of_operands (List.ne_nil_of_mem isOperand))]
        at isOperand
      exact ⟨name, .inside found isOperand reaches, needs⟩

/-- Whether each node above a name that has to be written out is gone through. -/
def GoesThrough (model : Model) (parsed : Arena) (slot : Slot) : Prop :=
  ∀ name, NeedsQualification model parsed name → ∀ node, Reaches parsed slot node →
    Reaches parsed node name → node ≠ name → IsGoneThrough parsed node

theorem goesThrough_of_isName (isName : parsed.isSimpleName slot = true) :
    GoesThrough model parsed slot := by
  intro name _ node reaches further differs
  cases reaches.eq_of_isSimpleName isName
  exact absurd (further.eq_of_isSimpleName isName).symm differs

theorem GoesThrough.inside {form : Form} {part : Slot}
    (goesThrough : GoesThrough model parsed slot) (found : parsed.form? slot = some form)
    (isPart : part ∈ expressionsOf parsed form) : GoesThrough model parsed part :=
  fun name needs node reaches => goesThrough name needs node (.inside found isPart reaches)

/-- A node above a name that has to be written out is gone through. -/
theorem GoesThrough.here {name : Slot} {node : Node}
    (goesThrough : GoesThrough model parsed slot) (isNode : parsed.node? slot = some node)
    (notName : node.form.isSimpleName = false)
    (reaches : Reaches parsed slot name) (needs : NeedsQualification model parsed name) :
    isUnsearched node.form = false ∧ node.trivia = "" := by
  have differs : slot ≠ name := by
    rintro rfl
    have isName := needs.1
    rw [isSimpleName_eq isNode, notName] at isName
    cases isName
  obtain ⟨found, isFound, searched, noTrivia⟩ :=
    goesThrough name needs slot (.here slot) reaches differs
  cases isNode.symm.trans isFound
  exact ⟨searched, noTrivia⟩

theorem Expands.fullyQualified (sound : parsed.Sound) (grows : parsed.Grows arena)
    (expands : Expands model parsed arena slot made)
    (goesThrough : GoesThrough model parsed slot) :
    FullyQualified model parsed arena slot made := by
  induction expands with
  | name isName standsBefore inFront takesPlace =>
      exact .name isName standsBefore inFront takesPlace
  | @bare slot text isName noQualifier notFromMe =>
      refine .bare ?_ ?_
      · rw [Arena.isSimpleName, Arena.form?_of_nameText? isName]
        rfl
      · rintro ⟨-, needs⟩
        simp [noQualifier, notFromMe] at needs
  | @same slot form found notName _ ih =>
      obtain ⟨node, isNode, rfl⟩ := Option.map_eq_some_iff.mp found
      by_cases needed : ∃ name, Reaches parsed slot name ∧
        NeedsQualification model parsed name
      · obtain ⟨name, reaches, needs⟩ := needed
        have searched := (goesThrough.here isNode notName reaches needs).1
        rw [operandsOf_of_searched searched] at ih
        exact .ofParts grows isNode notName fun part isPart =>
          ih part isPart (goesThrough.inside found isPart)
      · refine fullyQualified_self sound grows (fun _ _ => Arena.holds_of_form? found) ?_
        exact fun name reaches needs => needed ⟨name, reaches, needs⟩
  | @copy slot copied node operands isNode notName sameLength below changed isAdded isCopy
      ih =>
      have found : parsed.form? slot = some node.form := by
        rw [Arena.form?, isNode, Option.map_some]
      have differs : copied ≠ slot :=
        ne_of_not_holds (Arena.holds_of_form? found) isAdded
      obtain ⟨name, reaches, needs⟩ :=
        Expands.exists_needed (.copy isNode notName sameLength below changed isAdded
          isCopy) differs
      obtain ⟨searched, noTrivia⟩ := goesThrough.here isNode notName reaches needs
      rw [operandsOf_of_searched searched] at ih sameLength
      refine .node isNode notName sameLength (fun pair isPair => ?_) ?_ (.inr rfl)
      · exact ih pair isPair (goesThrough.inside found (List.of_mem_zip isPair).1)
      · rw [isCopy, withExpressions_of_searched searched, noTrivia]
  | absent => exact .absent

/-- Where a copy is all that should become of a node, it was made over the right parts and
lost nothing. -/
theorem FullyQualified.of_copy {node : Node} {operands : List Slot}
    (isNode : parsed.node? slot = some node) (notName : node.form.isSimpleName = false)
    (sameLength : operands.length = (operandsOf node.form).length)
    (searched : isUnsearched node.form = false)
    (isCopy : arena.node? made = some
      { span := node.span, origin := slot, form := withOperands node.form operands })
    (qualified : FullyQualified model parsed arena slot made) :
    node.trivia = "" ∧ ∀ pair ∈ (operandsOf node.form).zip operands,
      FullyQualified model parsed arena pair.1 pair.2 := by
  have isNoName : parsed.isSimpleName slot = false := (isSimpleName_eq isNode).trans notName
  cases qualified with
  | name isName _ _ _ =>
      rw [Arena.isSimpleName, Arena.form?_of_nameText? isName] at isNoName
      cases isNoName
  | bare isName _ => cases isNoName.symm.trans isName
  | node isOther _ otherLength below otherwiseSame _ =>
      cases isNode.symm.trans isOther
      rw [withExpressions_of_searched searched] at otherwiseSame
      have same := Option.some.inj (isCopy.symm.trans otherwiseSame)
      have sameForm := congrArg (operandsOf ∘ Node.form) same
      rw [← operandsOf_of_searched searched] at otherLength below
      simp only [Function.comp_apply, operandsOf_withOperands sameLength,
        operandsOf_withOperands otherLength] at sameForm
      rw [sameForm]
      exact ⟨(congrArg Node.trivia same).symm, below⟩
  | absent => cases isNode

/-- Each node above a name that has to be written out is gone through if the expression is
written out in full. -/
theorem FullyQualified.goesThrough (grows : parsed.Grows arena)
    (expands : Expands model parsed arena slot made)
    (qualified : FullyQualified model parsed arena slot made) :
    GoesThrough model parsed slot := by
  induction expands with
  | name isName _ _ _ | bare isName _ _ =>
      refine goesThrough_of_isName ?_
      rw [Arena.isSimpleName, Arena.form?_of_nameText? isName]
      rfl
  | same | absent =>
      intro name needs node reaches further
      exact absurd needs (qualified.unneeded grows (reaches.trans further))
  | @copy slot copied node operands isNode notName sameLength below changed isAdded isCopy
      ih =>
      have searched : isUnsearched node.form = false := by
        refine searched_of_operands fun noOperands => changed ?_
        rw [noOperands] at sameLength ⊢
        exact List.eq_nil_of_length_eq_zero sameLength
      obtain ⟨noTrivia, qualifiedBelow⟩ :=
        qualified.of_copy isNode notName sameLength searched isCopy
      intro name needs other reaches further differs
      cases reaches with
      | here => exact ⟨node, isNode, searched, noTrivia⟩
      | inside found isPart reachesPart =>
          rw [Arena.form?, isNode, Option.map_some] at found
          cases found
          rw [← operandsOf_of_searched searched] at isPart
          obtain ⟨copy, isPair⟩ := exists_zip_of_mem_left sameLength isPart
          exact ih _ isPair (qualifiedBelow _ isPair) name needs other reachesPart further
            differs

/-- Writing out names writes an expression out in full exactly if no name that has to be
written out stands below a node that is not gone through: a new object, a field or a type
test, or a node with trivia. -/
theorem fullNames_fullyQualified_iff (sound : arena.Sound)
    (held : arena.holds slot = true) :
    let made := fullNames model slot arena
    FullyQualified model arena made.2 slot made.1 ↔ GoesThrough model arena slot := by
  have built : BuildsExpanded model arena slot arena (fullNames model slot arena) :=
    expands_fullNames sound held (.refl arena) sound
  exact ⟨FullyQualified.goesThrough built.grows built.expands,
    built.expands.fullyQualified sound built.grows⟩

/-- A node that is not gone through leaves the names below it as they are, or loses its
trivia. -/
theorem not_fullyQualified {name node : Slot} (sound : arena.Sound)
    (held : arena.holds slot = true) (needs : NeedsQualification model arena name)
    (reaches : Reaches arena slot node) (further : Reaches arena node name)
    (differs : node ≠ name) (notThrough : ¬ IsGoneThrough arena node) :
    ¬ FullyQualified model arena (fullNames model slot arena).2 slot
      (fullNames model slot arena).1 := by
  have built : BuildsExpanded model arena slot arena (fullNames model slot arena) :=
    expands_fullNames sound held (.refl arena) sound
  intro qualified
  exact notThrough (qualified.goesThrough built.grows built.expands name needs node reaches
    further differs)

end

/-- `Version.Major` is gone through, and becomes `App.Helpers.Version.Major`. -/
theorem majorVersion_fullyQualified :
    let made := fullNames (versionProperty ⟨0⟩) (some ⟨2⟩) majorVersion
    majorVersion.Sound ∧ majorVersion.holds (some ⟨2⟩) = true ∧
      NeedsQualification (versionProperty ⟨0⟩) majorVersion (some ⟨0⟩) ∧
      made.1 ≠ some ⟨2⟩ ∧
      FullyQualified (versionProperty ⟨0⟩) majorVersion made.2 (some ⟨2⟩) made.1 := by
  have sound : majorVersion.Sound := Arena.sound_of_earlier (by decide)
  refine ⟨sound, rfl, ⟨rfl, .inl (by decide +kernel)⟩, by decide +kernel,
    (fullNames_fullyQualified_iff sound rfl).mpr ?_⟩
  intro name _ node reaches further differs
  cases reaches with
  | here => exact ⟨_, rfl, rfl, rfl⟩
  | inside found isPart reachesPart =>
      cases found
      rw [List.mem_singleton.mp isPart] at reachesPart
      cases reachesPart.eq_of_isSimpleName rfl
      exact absurd (further.eq_of_isSimpleName rfl).symm differs

/-- `New Builder(Version)`: the argument is a name that has to be written out. -/
def builtOfVersion : Arena where
  nodes := #[
    { span := ⟨0, 1⟩, form := .identifier "Version" },
    { span := ⟨1, 2⟩, form := .objectCreation "Builder" [some ⟨0⟩] }]
  cursor := 2

/-- `(Version)` after two blanks. -/
def enclosedVersion : Arena where
  nodes := #[
    { span := ⟨0, 1⟩, form := .identifier "Version" },
    { span := ⟨1, 2⟩, trivia := "  ", form := .parenthesized (some ⟨0⟩) }]
  cursor := 2

/-- The argument of a new object stays as it is, and the blanks before parentheses get
lost. -/
theorem version_not_fullyQualified :
    let model := versionProperty ⟨0⟩
    let built := fullNames model (some ⟨1⟩) builtOfVersion
    let enclosed := fullNames model (some ⟨1⟩) enclosedVersion
    builtOfVersion.Sound ∧ enclosedVersion.Sound ∧ built.1 = some ⟨1⟩ ∧
      ¬ FullyQualified model builtOfVersion built.2 (some ⟨1⟩) built.1 ∧
      enclosed.2.trivia enclosed.1 = "" ∧
      ¬ FullyQualified model enclosedVersion enclosed.2 (some ⟨1⟩) enclosed.1 := by
  have soundBuilt : builtOfVersion.Sound := Arena.sound_of_earlier (by decide)
  have soundEnclosed : enclosedVersion.Sound := Arena.sound_of_earlier (by decide)
  have needs {arena : Arena} (isVersion : arena = builtOfVersion ∨ arena = enclosedVersion) :
      NeedsQualification (versionProperty ⟨0⟩) arena (some ⟨0⟩) := by
    obtain rfl | rfl := isVersion <;> exact ⟨rfl, .inl (by decide +kernel)⟩
  refine ⟨soundBuilt, soundEnclosed, by decide +kernel, ?_, by decide +kernel, ?_⟩
  · refine not_fullyQualified soundBuilt rfl (needs (.inl rfl)) (.here _)
      (.inside rfl (List.mem_singleton.mpr rfl) (.here _)) (by decide) ?_
    rintro ⟨node, isNode, searched, -⟩
    cases isNode
    cases searched
  · refine not_fullyQualified soundEnclosed rfl (needs (.inr rfl)) (.here _)
      (.inside rfl (List.mem_singleton.mpr rfl) (.here _)) (by decide) ?_
    rintro ⟨node, isNode, -, noTrivia⟩
    cases isNode
    exact absurd noTrivia (by decide)

end BasicLowering.Qualification
