import BasicLowering.Proofs.Analysis.Purity
import BasicLowering.Proofs.Qualification.Decisions

/-!
# Derived nodes

The nodes that the rule for names makes are derived from parsed ones. Each bare name
among them is a name of the source. A node of them that counts as safely reusable is
a chain of accesses that begins with a bare name, a literal or `Me`, provided that
the parsed nodes which count as safely reusable are bare names without an attached
receiver, and literals.
-/

namespace BasicLowering.Qualification

open Source Binding Analysis

/-! ## Names of the source -/

/-- The bare names of a tree. -/
def treeNames (parsed : Arena) : List String :=
  parsed.nodes.toList.filterMap fun node =>
    match node.form with
    | .identifier text => some text
    | _ => none

/-- The names of the symbols, by themselves and as parts of qualified names. -/
def symbolNames (table : SymbolTable) : List String :=
  (List.range table.size).flatMap fun index =>
    ((table.symbol? ⟨index⟩).map (·.name)).toList ++
      Text.Dotted.split (table.qualifiedName ⟨index⟩)

/-- The names that can stand in what becomes of a tree. -/
def sourceNames (model : Model) (parsed : Arena) : List String :=
  treeNames parsed ++ symbolNames model.symbols

section

variable {model : Model} {parsed : Arena} {slot : Slot} {text : String}

theorem mem_sourceNames_of_nameText? (isName : parsed.nameText? slot = some text) :
    text ∈ sourceNames model parsed := by
  have found := Arena.form?_of_nameText? isName
  obtain ⟨node, isNode, isForm⟩ := Option.map_eq_some_iff.mp found
  refine List.mem_append_left _ (List.mem_filterMap.mpr
    ⟨node, Arena.mem_nodes_of_node? isNode, ?_⟩)
  rw [isForm]

theorem index_lt_of_symbol? {table : SymbolTable} {id : SymbolId}
    {symbol : Symbol} (found : table.symbol? id = some symbol) :
    id.index < table.size := by
  by_contra outside
  have missing : table.symbols[id.index]? = none :=
    Array.getElem?_eq_none (Nat.le_of_not_lt outside)
  rw [SymbolTable.symbol?, missing] at found
  cases found

theorem mem_sourceNames_of_symbol? {id : SymbolId} {symbol : Symbol}
    (found : model.symbols.symbol? id = some symbol) :
    symbol.name ∈ sourceNames model parsed := by
  refine List.mem_append_right _ (List.mem_flatMap.mpr
    ⟨id.index, List.mem_range.mpr (index_lt_of_symbol? found), ?_⟩)
  refine List.mem_append_left _ ?_
  rw [show model.symbols.symbol? ⟨id.index⟩ = some symbol from found]
  exact List.mem_singleton.mpr rfl

/-- Only symbols have qualified names. -/
theorem qualifiedName_of_missing {table : SymbolTable} {id : SymbolId}
    (missing : table.symbol? id = none) : table.qualifiedName id = "" := by
  have noContainers : table.containers id = [] := by
    rw [SymbolTable.containers, SymbolTable.containersWithin, missing]
  rw [SymbolTable.qualifiedName, noContainers]
  rfl

theorem mem_sourceNames_of_split {id : SymbolId} {part : String}
    (notEmpty : model.symbols.qualifiedName id ≠ "")
    (isPart : part ∈ Text.Dotted.split (model.symbols.qualifiedName id)) :
    part ∈ sourceNames model parsed := by
  cases found : model.symbols.symbol? id with
  | none => exact absurd (qualifiedName_of_missing found) notEmpty
  | some symbol =>
      refine List.mem_append_right _ (List.mem_flatMap.mpr
        ⟨id.index, List.mem_range.mpr (index_lt_of_symbol? found), ?_⟩)
      exact List.mem_append_right _ isPart

end

/-! ## Plain nodes -/

/-- Whether a slot holds a chain of accesses that begins with a bare name, a literal
or `Me`, in any number of parentheses. -/
inductive Plain (arena : Arena) : Slot → Prop
  | name {slot : Slot} {text : String}
      (found : arena.form? slot = some (.identifier text)) : Plain arena slot
  | literal {slot : Slot} {value : Literal}
      (found : arena.form? slot = some (.literal value)) : Plain arena slot
  | self {slot : Slot} {kind : SelfKind}
      (found : arena.form? slot = some (.selfReference kind)) : Plain arena slot
  | parenthesized {slot inner : Slot}
      (found : arena.form? slot = some (.parenthesized inner))
      (isPlain : Plain arena inner) : Plain arena slot
  | access {slot receiver name : Slot} {kind : AccessKind}
      (found : arena.form? slot = some (.memberAccess receiver name kind))
      (isPlain : Plain arena receiver) : Plain arena slot

section

variable {before after arena : Arena} {slot : Slot} {parts : List String}

theorem Plain.grow (plain : Plain before slot) (grows : before.Grows after) :
    Plain after slot := by
  induction plain with
  | name found => exact .name (grows.form? found)
  | literal found => exact .literal (grows.form? found)
  | self found => exact .self (grows.form? found)
  | parenthesized found _ ih => exact .parenthesized (grows.form? found) ih
  | access found _ ih => exact .access (grows.form? found) ih

theorem Spells.plain (spelled : Spells parsed arena slot parts) : Plain arena slot := by
  induction spelled with
  | name _ isName => exact .name (Arena.form?_of_nameText? isName)
  | access _ found _ _ ih => exact .access found ih

/-- A copy of a plain node is plain. -/
theorem Plain.ofSameForm {copy : Slot} (plain : Plain arena slot)
    (same : arena.form? copy = arena.form? slot) : Plain arena copy := by
  cases plain with
  | name found => exact .name (same.trans found)
  | literal found => exact .literal (same.trans found)
  | self found => exact .self (same.trans found)
  | parenthesized found isPlain =>
      exact .parenthesized (same.trans found) isPlain
  | access found isPlain => exact .access (same.trans found) isPlain

end

/-! ## Operands that may be evaluated twice -/

/-- Whether a parsed slot is, but for parentheses, a literal or a bare name to which
the front end has attached no receiver. -/
def IsBareOperand (model : Model) (parsed : Arena) (slot : Slot) : Prop :=
  isLiteral parsed (parsed.skipParens slot) = true ∨
    ∃ text, parsed.nameText? (parsed.skipParens slot) = some text ∧
      attachedReceiver? model parsed (parsed.skipParens slot) = none

/-- Whether only bare operands count as safely reusable. -/
def BareOperands (model : Model) (parsed : Arena) : Prop :=
  ∀ slot, parsed.holds slot = true →
    isSafelyReusable model parsed slot = true →
      IsBareOperand model parsed slot

section

variable {model : Model} {parsed before later arena : Arena} {slot copy : Slot}

instance : Decidable (IsBareOperand model parsed slot) :=
  decidable_of_iff (isLiteral parsed (parsed.skipParens slot) = true ∨
      (parsed.nameText? (parsed.skipParens slot)).isSome = true ∧
        attachedReceiver? model parsed (parsed.skipParens slot) = none)
    (by simp [IsBareOperand, Option.isSome_iff_exists])

/-- Only the nodes of the tree have to be looked at. -/
theorem bareOperands_of_nodes
    (ofNodes : ∀ index < parsed.size,
      isSafelyReusable model parsed (some ⟨index⟩) = true →
        IsBareOperand model parsed (some ⟨index⟩)) :
    BareOperands model parsed := by
  rintro (_ | node) held reusable
  · cases held
  · exact ofNodes node.index (Arena.index_lt_of_holds held) reusable

theorem isLiteral_eq (same : later.form? copy = later.form? slot) :
    isLiteral later copy = isLiteral later slot := by
  simp only [isLiteral, same]

/-- Whether a parsed node is safely reusable does not change. -/
theorem isSafelyReusable_eq (soundParsed : parsed.Sound) (sound : later.Sound)
    (grows : parsed.Grows later) (held : parsed.holds slot = true) :
    isSafelyReusable model later slot = isSafelyReusable model parsed slot := by
  unfold isSafelyReusable
  dsimp only
  rw [grows.skipParens_eq soundParsed sound held]
  cases isInner : parsed.skipParens slot with
  | none =>
      rw [Arena.standsFor_of_parsed rfl, Arena.standsFor_of_parsed rfl]
      rfl
  | some inner =>
      have heldInner := soundParsed.holds_skipParens held isInner
      rw [grows.standsFor_eq soundParsed heldInner]
      simp only [isLiteral, grows.form?_eq heldInner]

/-- A node may be evaluated twice if the node that it replaces may, and both are
parenthesized in the same way. -/
theorem isSafelyReusable_of_copy (sound : later.Sound)
    (same : later.form? copy = later.form? slot)
    (replaces : later.origin? copy = slot) (held : later.holds slot = true) :
    isSafelyReusable model later copy = isSafelyReusable model later slot := by
  cases slot with
  | none => cases held
  | some node =>
      unfold isSafelyReusable
      dsimp only
      cases parenthesized : later.isParenthesized (some node) with
      | true =>
          unfold Arena.isParenthesized at parenthesized
          split at parenthesized
          · next inner found =>
              rw [sound.acyclic.skipParens_of_parenthesized found,
                sound.acyclic.skipParens_of_parenthesized (same.trans found)]
          · cases parenthesized
      | false =>
          have bare : later.isParenthesized copy = false := by
            rw [← parenthesized]
            simp only [Arena.isParenthesized, same]
          rw [Arena.skipParens_of_bare parenthesized,
            Arena.skipParens_of_bare bare, isLiteral_eq same,
            sound.standsFor_of_origin replaces]

/-- A replacement that is no literal and stands in no parentheses may be evaluated
twice only if what it replaces may. -/
theorem isSafelyReusable_of_replacement (sound : later.Sound)
    (held : later.holds slot = true) (replaces : later.origin? copy = slot)
    (noLiteral : isLiteral later copy = false)
    (bare : later.isParenthesized copy = false)
    (bareBefore : later.isParenthesized slot = false)
    (reusable : isSafelyReusable model later copy = true) :
    isSafelyReusable model later slot = true := by
  cases slot with
  | none => cases held
  | some node =>
      unfold isSafelyReusable at reusable ⊢
      dsimp only at reusable ⊢
      rw [Arena.skipParens_of_bare bare, noLiteral, Bool.false_or,
        sound.standsFor_of_origin replaces] at reusable
      rw [Arena.skipParens_of_bare bareBefore, reusable, Bool.or_true]

end

/-! ## Derived nodes -/

/-- Whether a slot is absent, holds a parsed node, or a node derived from parsed
nodes. What is said about operands that may be evaluated twice is to hold however
the arena grows. -/
inductive Derived (model : Model) (parsed arena : Arena) : Slot → Prop
  | parsed {slot : Slot} (isParsed : IsParsed parsed slot) :
      Derived model parsed arena slot
  | built {slot : Slot} {form : Form} (found : arena.form? slot = some form)
      (named : ∀ text, form = .identifier text →
        text ∈ sourceNames model parsed)
      (plain : ∀ later : Arena, arena.Grows later → later.Sound →
        isSafelyReusable model later slot = true → Plain arena slot)
      (below : ∀ child ∈ form.slots, Derived model parsed arena child) :
      Derived model parsed arena slot

section

variable {model : Model} {parsed before after arena : Arena}
variable {slot receiver access made : Slot} {parts : List String} {text : String}

theorem Derived.grow (derived : Derived model parsed before slot)
    (grows : before.Grows after) : Derived model parsed after slot := by
  induction derived with
  | parsed isParsed => exact .parsed isParsed
  | built found named plain _ ih =>
      exact .built (grows.form? found) named
        (fun later growing sound reusable =>
          (plain later (grows.trans growing) sound reusable).grow grows) ih

/-- What is below a derived node is derived. -/
theorem Derived.child {form : Form} (derived : Derived model parsed arena slot)
    (soundParsed : parsed.Sound) (grows : parsed.Grows arena)
    (found : arena.form? slot = some form) :
    ∀ child ∈ form.slots, Derived model parsed arena child := by
  cases derived with
  | parsed isParsed =>
      have held := isParsed.holds (Arena.holds_of_form? found)
      rw [grows.form?_eq held] at found
      exact fun child isSlot =>
        .parsed (isParsed_slots soundParsed found child isSlot)
  | built same _ _ below =>
      cases same.symm.trans found
      exact below

/-- A derived name is a name of the source. -/
theorem Derived.named (derived : Derived model parsed arena slot)
    (grows : parsed.Grows arena) (isName : arena.nameText? slot = some text) :
    text ∈ sourceNames model parsed := by
  have found := Arena.form?_of_nameText? isName
  cases derived with
  | parsed isParsed =>
      have held := isParsed.holds (Arena.holds_of_form? found)
      rw [grows.form?_eq held] at found
      exact mem_sourceNames_of_nameText? (nameText?_of_form? found)
  | built same named _ _ =>
      cases same.symm.trans found
      exact named text rfl

/-- A node that is plain anyway. -/
theorem derived_of_plain {form : Form} (found : arena.form? slot = some form)
    (named : ∀ text, form = .identifier text → text ∈ sourceNames model parsed)
    (plain : Plain arena slot)
    (below : ∀ child ∈ form.slots, Derived model parsed arena child) :
    Derived model parsed arena slot :=
  .built found named (fun _ _ _ _ => plain) below

theorem derived_of_name (isName : arena.nameText? slot = some text)
    (known : text ∈ sourceNames model parsed) :
    Derived model parsed arena slot := by
  have found := Arena.form?_of_nameText? isName
  refine derived_of_plain found ?_ (.name found) nofun
  intro other same
  cases same
  exact known

theorem derived_of_spells (spelled : Spells parsed arena slot parts)
    (known : ∀ part ∈ parts, part ∈ sourceNames model parsed) :
    Derived model parsed arena slot := by
  induction spelled with
  | name _ isName => exact derived_of_name isName (known _ List.mem_cons_self)
  | access _ found spelled isName ih =>
      refine derived_of_plain found nofun (.access found spelled.plain) ?_
      exact List.forall_mem_cons.mpr
        ⟨ih fun part member => known part (List.mem_append_left _ member),
          List.forall_mem_cons.mpr
            ⟨derived_of_name isName (known _ (by simp)), List.forall_mem_nil _⟩⟩

/-- An access in place of a node is derived if its receiver is, and if it may not be
evaluated twice unless it is plain. -/
theorem AccessInPlace.derived
    (inPlace : AccessInPlace arena slot receiver text access)
    (isReceiver : Derived model parsed arena receiver)
    (known : text ∈ sourceNames model parsed)
    (plain : ∀ later : Arena, arena.Grows later → later.Sound →
      isSafelyReusable model later access = true → Plain arena access) :
    Derived model parsed arena access := by
  obtain ⟨-, name, found, isName⟩ := inPlace
  refine .built found nofun plain ?_
  exact List.forall_mem_cons.mpr ⟨isReceiver, List.forall_mem_cons.mpr
    ⟨derived_of_name isName known, List.forall_mem_nil _⟩⟩

theorem AccessInPlace.plain
    (inPlace : AccessInPlace arena slot receiver text access)
    (isPlain : Plain arena receiver) : Plain arena access := by
  obtain ⟨-, name, found, -⟩ := inPlace
  exact .access found isPlain

/-- An access in place of a node that stands in no parentheses may be evaluated
twice only if the node may. -/
theorem AccessInPlace.isSafelyReusable
    (inPlace : AccessInPlace arena slot receiver text access)
    (soundParsed : parsed.Sound) (growsFrom : parsed.Grows arena)
    (held : parsed.holds slot = true)
    (bare : parsed.isParenthesized slot = false) {later : Arena}
    (grows : arena.Grows later) (sound : later.Sound)
    (reusable : isSafelyReusable model later access = true) :
    Analysis.isSafelyReusable model parsed slot = true := by
  obtain ⟨replaces, name, found, -⟩ := inPlace
  have growsAll := growsFrom.trans grows
  rw [← isSafelyReusable_eq soundParsed sound growsAll held]
  have foundLater := grows.form? found
  refine isSafelyReusable_of_replacement sound (growsAll.holds held) ?_ ?_ ?_ ?_
    reusable
  · rw [grows.origin?_eq (Arena.holds_of_form? found), replaces]
  · simp [isLiteral, foundLater]
  · simp [Arena.isParenthesized, foundLater]
  · rw [growsAll.isParenthesized_eq held, bare]

end

section

variable {model : Model} {parsed before after arena : Arena}
variable {slot receiver access made : Slot}
variable (wellFormed : WellFormed model parsed)
  (bareOperands : BareOperands model parsed)

include wellFormed bareOperands

omit wellFormed bareOperands in
/-- A bare operand that stands in no parentheses is a literal or a name. -/
theorem IsBareOperand.form {form : Form} (isBare : IsBareOperand model parsed slot)
    (found : parsed.form? slot = some form)
    (bare : parsed.isParenthesized slot = false) :
    (∃ value, form = .literal value) ∨ ∃ text, form = .identifier text ∧
      attachedReceiver? model parsed slot = none := by
  unfold IsBareOperand at isBare
  rw [Arena.skipParens_of_bare bare] at isBare
  obtain isLiteral | ⟨text, isName, noReceiver⟩ := isBare
  · simp only [Analysis.isLiteral, found] at isLiteral
    cases form <;> cases isLiteral
    exact .inl ⟨_, rfl⟩
  · have same := Arena.form?_of_nameText? isName
    cases same.symm.trans found
    exact .inr ⟨text, rfl, noReceiver⟩

omit bareOperands in
/-- A bare operand is plain. -/
theorem IsBareOperand.plain (isBare : IsBareOperand model parsed slot)
    (held : parsed.holds slot = true) : Plain parsed slot := by
  have isPlain : Plain parsed (parsed.skipParens slot) := by
    obtain isLiteral | ⟨text, isName, -⟩ := isBare
    · unfold Analysis.isLiteral at isLiteral
      split at isLiteral
      · next value found => exact .literal found
      · cases isLiteral
    · exact .name (Arena.form?_of_nameText? isName)
  clear isBare
  cases slot with
  | none => cases held
  | some node =>
      induction node using wellFormed.sound.acyclic.induction with
      | _ node ih =>
          cases parenthesized : parsed.inner? node with
          | none =>
              rwa [Arena.skipParens_of_bare
                (Arena.isParenthesized_of_inner? parenthesized)] at isPlain
          | some inner =>
              have found := Arena.inner?_eq_some.mp parenthesized
              rw [wellFormed.sound.acyclic.skipParens_of_parenthesized found]
                at isPlain
              refine .parenthesized found ?_
              cases inner with
              | none => rwa [Arena.skipParens_of_bare rfl] at isPlain
              | some inner =>
                  have isChild : inner ∈ (Form.parenthesized inner).children :=
                    List.mem_singleton.mpr rfl
                  exact ih inner ⟨_, found, isChild⟩
                    (wellFormed.sound.children _ _ found inner isChild) isPlain

theorem Derived.plain (derived : Derived model parsed arena slot)
    (growsFrom : parsed.Grows arena) (held : arena.holds slot = true)
    {later : Arena} (grows : arena.Grows later) (sound : later.Sound)
    (reusable : isSafelyReusable model later slot = true) : Plain arena slot := by
  cases derived with
  | parsed isParsed =>
      have heldParsed := isParsed.holds held
      rw [isSafelyReusable_eq wellFormed.sound sound (growsFrom.trans grows)
        heldParsed] at reusable
      exact ((bareOperands slot heldParsed reusable).plain wellFormed
        heldParsed).grow growsFrom
  | built _ _ plain _ => exact plain later grows sound reusable

omit wellFormed bareOperands in
/-- The name of a container is derived. -/
theorem derived_of_qualifier {qualifier : String}
    (isQualifier : qualifierOf? model parsed slot = some qualifier)
    (spelled : Spells parsed arena receiver (Text.Dotted.split qualifier)) :
    Derived model parsed arena receiver := by
  refine derived_of_spells spelled fun part isPart => ?_
  unfold qualifierOf? at isQualifier
  split at isQualifier
  · split at isQualifier
    · obtain ⟨isContainer, notEmpty⟩ := Option.filter_eq_some_iff.mp isQualifier
      obtain ⟨container, -, rfl⟩ := Option.map_eq_some_iff.mp isContainer
      exact mem_sourceNames_of_split (by simpa using notEmpty) isPart
    · cases isQualifier
  · cases isQualifier

omit bareOperands in
/-- What is written for a parsed node may be evaluated twice only if the node
may. -/
theorem Written.isSafelyReusable (written : Written model parsed arena slot made)
    (isParsed : IsParsed parsed slot) (growsFrom : parsed.Grows arena)
    {later : Arena} (grows : arena.Grows later) (sound : later.Sound)
    (reusable : isSafelyReusable model later made = true) :
    Analysis.isSafelyReusable model parsed slot = true := by
  have growsAll := growsFrom.trans grows
  induction written with
  | qualified isName _ _ inPlace | throughMe isName _ _ inPlace =>
      have found := Arena.form?_of_nameText? isName
      refine inPlace.isSafelyReusable wellFormed.sound growsFrom
        (Arena.holds_of_form? found) ?_ grows sound reusable
      simp [Arena.isParenthesized, found]
  | bare isName =>
      rwa [isSafelyReusable_eq wellFormed.sound sound growsAll
        (holds_of_nameText? isName)] at reusable
  | absent =>
      unfold Analysis.isSafelyReusable at reusable ⊢
      dsimp only at reusable ⊢
      rw [Arena.skipParens_of_bare rfl, Arena.standsFor_of_parsed rfl] at reusable ⊢
      exact reusable
  | @operator slot copy form operands found notName sameLength written isCopy
      inPlace ih =>
      have held := Arena.holds_of_form? found
      obtain rfl | replaces := inPlace
      · rwa [isSafelyReusable_eq wellFormed.sound sound growsAll held] at reusable
      have isCopyLater := grows.form? isCopy
      have replacesLater : later.origin? copy = slot := by
        rw [grows.origin?_eq (Arena.holds_of_form? isCopy), replaces]
      by_cases isInner : ∃ inner, form = .parenthesized inner
      · obtain ⟨inner, rfl⟩ := isInner
        have single : operands.length = 1 := sameLength
        obtain ⟨copied, rfl⟩ := List.length_eq_one_iff.mp single
        have reusableInner := ih (inner, copied) (by simp [operandsOf])
          (isParsed_slots wellFormed.sound found inner
            (List.mem_singleton.mpr rfl))
        unfold Analysis.isSafelyReusable at reusable reusableInner ⊢
        rw [sound.acyclic.skipParens_of_parenthesized isCopyLater] at reusable
        rw [wellFormed.sound.acyclic.skipParens_of_parenthesized found]
        exact reusableInner reusable
      · have bare : parsed.isParenthesized slot = false := by
          unfold Arena.isParenthesized
          split
          · next inner same =>
              exact absurd ⟨inner, Option.some.inj (found.symm.trans same)⟩ isInner
          · rfl
        by_cases isValue : ∃ value, form = .literal value
        · obtain ⟨value, rfl⟩ := isValue
          unfold Analysis.isSafelyReusable
          rw [Arena.skipParens_of_bare bare]
          simp [isLiteral, found]
        · rw [← isSafelyReusable_eq wellFormed.sound sound growsAll held]
          refine isSafelyReusable_of_replacement sound (growsAll.holds held)
            replacesLater ?_ ?_ ?_ reusable
          · cases form with
            | literal value => exact absurd ⟨value, rfl⟩ isValue
            | _ => simp only [isLiteral, isCopyLater, withOperands]
          · cases form with
            | parenthesized inner => exact absurd ⟨inner, rfl⟩ isInner
            | _ => simp only [Arena.isParenthesized, isCopyLater, withOperands]
          · rw [growsAll.isParenthesized_eq held, bare]

omit bareOperands in
/-- What is written for a bare operand is plain. -/
theorem Written.plain (written : Written model parsed arena slot made)
    (isBare : IsBareOperand model parsed slot) (growsFrom : parsed.Grows arena) :
    Plain arena made := by
  induction written with
  | qualified _ _ spelled inPlace => exact inPlace.plain spelled.plain
  | throughMe _ _ isMe inPlace => exact inPlace.plain (.self isMe.2)
  | bare isName =>
      exact .name (growsFrom.form? (Arena.form?_of_nameText? isName))
  | absent =>
      unfold IsBareOperand at isBare
      rw [Arena.skipParens_of_bare rfl] at isBare
      simp [isLiteral, Arena.nameText?, Arena.form?, Arena.node?] at isBare
  | @operator slot copy form operands found notName sameLength written isCopy
      inPlace ih =>
      obtain rfl | - := inPlace
      · exact (isBare.plain wellFormed (Arena.holds_of_form? found)).grow growsFrom
      unfold IsBareOperand at isBare
      cases form with
      | parenthesized inner =>
          have single : operands.length = 1 := sameLength
          obtain ⟨copied, rfl⟩ := List.length_eq_one_iff.mp single
          rw [wellFormed.sound.acyclic.skipParens_of_parenthesized found] at isBare
          exact .parenthesized isCopy
            (ih (inner, copied) (by simp [operandsOf]) isBare)
      | literal value => exact .literal isCopy
      | identifier text => cases notName
      | _ =>
          rw [Arena.skipParens_of_bare (by simp [Arena.isParenthesized, found])]
            at isBare
          simp [isLiteral, Arena.nameText?, found] at isBare

/-- What is written for a parsed node is derived. -/
theorem Written.derived (written : Written model parsed arena slot made)
    (isParsed : IsParsed parsed slot) (growsFrom : parsed.Grows arena) :
    Derived model parsed arena made := by
  have plain {slot made : Slot} (written : Written model parsed arena slot made)
      (held : parsed.holds slot = true) (later : Arena)
      (grows : arena.Grows later) (sound : later.Sound)
      (reusable : Analysis.isSafelyReusable model later made = true) :
      Plain arena made :=
    written.plain wellFormed (bareOperands slot held
      (written.isSafelyReusable wellFormed (isParsed_of_holds held) growsFrom
        grows sound reusable)) growsFrom
  induction written with
  | qualified isName isQualifier spelled inPlace =>
      exact inPlace.derived (derived_of_qualifier isQualifier spelled)
        (mem_sourceNames_of_nameText? isName)
        (plain (.qualified isName isQualifier spelled inPlace)
          (holds_of_nameText? isName))
  | throughMe isName noQualifier isMe inPlace =>
      exact inPlace.derived (derived_of_plain isMe.2 nofun (.self isMe.2) nofun)
        (mem_sourceNames_of_nameText? isName)
        (plain (.throughMe isName noQualifier isMe inPlace)
          (holds_of_nameText? isName))
  | bare => exact .parsed isParsed
  | absent => exact .parsed nofun
  | @operator slot copy form operands found notName sameLength written isCopy
      inPlace ih =>
      have whole := plain (.operator found notName sameLength written isCopy
        inPlace) (Arena.holds_of_form? found)
      obtain rfl | - := inPlace
      · exact .parsed isParsed
      refine .built isCopy ?_ whole fun child isSlot => ?_
      · intro text same
        cases form <;> cases same
        cases notName
      · cases child with
        | none => exact .parsed nofun
        | some node =>
            obtain isOld | isNew := mem_slots_withOperands isSlot
            · exact .parsed (isParsed_slots wellFormed.sound found _ isOld)
            · obtain ⟨operand, isOperand, isPair⟩ :=
                exists_zip_of_mem sameLength isNew
              exact ih _ isPair (isParsed_slots wellFormed.sound found operand
                (operandsOf_subset_slots form isOperand))

/-- An attached receiver and a copy of it are derived. -/
theorem IsReceiver.derived {name : Slot}
    (isReceiver : IsReceiver before after name slot receiver)
    (held : parsed.holds slot = true) (growsFrom : parsed.Grows before)
    (growsAfter : parsed.Grows after) : Derived model parsed after receiver := by
  cases isReceiver with
  | same => exact .parsed (isParsed_of_holds held)
  | @copy node copied found made =>
      obtain ⟨form, isForm⟩ := Arena.exists_form held
      have isNode : node.form = form := by
        have now := growsFrom.form? isForm
        simpa [Arena.form?, found] using now
      have isCopy : after.form? (some copied) = some form := by
        simp [Arena.form?, made, isNode]
      refine .built isCopy ?_ ?_ ?_
      · rintro text rfl
        exact mem_sourceNames_of_nameText? (nameText?_of_form? isForm)
      · intro later grows sound reusable
        have growsAll := growsAfter.trans grows
        rw [isSafelyReusable_of_copy sound ?_ ?_ (growsAll.holds held),
          isSafelyReusable_eq wellFormed.sound sound growsAll held] at reusable
        · have plain := ((bareOperands slot held reusable).plain wellFormed
            held).grow growsAfter
          exact plain.ofSameForm (isCopy.trans (growsAfter.form? isForm).symm)
        · rw [grows.form? isCopy, growsAll.form? isForm]
        · rw [grows.origin?_eq (Arena.holds_of_form? isCopy)]
          simp [Arena.origin?, made]
      · exact fun child isSlot =>
          .parsed (isParsed_slots wellFormed.sound isForm child isSlot)

end

end BasicLowering.Qualification
