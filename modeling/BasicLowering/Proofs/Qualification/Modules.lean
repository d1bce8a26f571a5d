import BasicLowering.Proofs.Qualification.Decisions

/-!
# Names of module members

The shared members of a module are found by their bare names only where the module is
imported. Where a name is decided about, it either is read through the name of its
module or asks for the import. The names that are not decided about lie below nodes
that stay as they are.
-/

namespace BasicLowering.Qualification

open Source Binding

/-- The qualified name of the module whose shared member the node in a slot refers to,
where the module has a name. -/
def moduleOf? (model : Model) (arena : Arena) (slot : Slot) : Option String :=
  (model.symbol? (arena.standsFor slot)).bind fun symbol =>
    if symbol.isStatic && model.isModuleMember symbol then
      (symbol.containingSymbol.map model.symbols.qualifiedName).filter (· ≠ "")
    else none

section

variable {model : Model} {arena : Arena} {slot : Slot} {module : String}

theorem exists_symbol_of_moduleOf?
    (inModule : moduleOf? model arena slot = some module) :
    ∃ symbol, model.symbol? (arena.standsFor slot) = some symbol ∧
      symbol.isStatic = true ∧ model.isModuleMember symbol = true ∧
      symbol.containingSymbol.map model.symbols.qualifiedName = some module ∧
      module ≠ "" := by
  obtain ⟨symbol, binds, isMember⟩ := Option.bind_eq_some_iff.mp inModule
  split at isMember
  · next both =>
      obtain ⟨isStatic, ofModule⟩ := Bool.and_eq_true_iff.mp both
      obtain ⟨contained, notEmpty⟩ := Option.filter_eq_some_iff.mp isMember
      exact ⟨symbol, binds, isStatic, ofModule, contained,
        of_decide_eq_true notEmpty⟩
  · cases isMember

/-- A member of a module is written through the name of the module. -/
theorem qualifierOf?_of_moduleOf?
    (inModule : moduleOf? model arena slot = some module) :
    qualifierOf? model arena slot = some module := by
  obtain ⟨symbol, binds, isStatic, -, contained, notEmpty⟩ :=
    exists_symbol_of_moduleOf? inModule
  simp [qualifierOf?, binds, needsContainer, isStatic, contained, notEmpty]

/-- A bare name of a member of a module asks for an import of the module. -/
theorem importOf_of_moduleOf? (inModule : moduleOf? model arena slot = some module)
    (isSimple : arena.isSimpleName slot = true) :
    importOf model arena slot = some module := by
  obtain ⟨symbol, binds, -, ofModule, contained, -⟩ :=
    exists_symbol_of_moduleOf? inModule
  simp [importOf, binds, staticImport?, isSimple, ofModule, contained]

/-- A member of a module is no member of an instance. -/
theorem not_isInstanceMember_of_moduleOf?
    (inModule : moduleOf? model arena slot = some module) {symbol : Symbol}
    (binds : model.symbol? (arena.standsFor slot) = some symbol) :
    symbol.isInstanceMember = false := by
  obtain ⟨other, bindsOther, isStatic, -⟩ := exists_symbol_of_moduleOf? inModule
  cases binds.symm.trans bindsOther
  simp [Symbol.isInstanceMember, isStatic]

end

/-! ## Trees as they are parsed -/

/-- Whether no node replaces another one, and no argument and no field has its own name
for its value. -/
structure IsUntouched (parsed : Arena) : Prop where
  original : ∀ slot, parsed.origin? slot = none
  apart : ∀ slot name value,
    parsed.form? slot = some (.namedArgument name value) ∨
      parsed.form? slot = some (.namedField name value) → name ≠ value

section

variable {model : Model} {parsed arena : Arena} {slot made access : Slot}
variable {receiver : Slot} {text module : String}

/-- Only the nodes of the tree have to be looked at. -/
theorem isUntouched_of_nodes
    (original : ∀ node ∈ parsed.nodes.toList, node.origin = none)
    (apart : ∀ node ∈ parsed.nodes.toList, ∀ name value,
      node.form = .namedArgument name value ∨ node.form = .namedField name value →
        name ≠ value) : IsUntouched parsed where
  original slot := by
    cases isNode : parsed.node? slot with
    | none => simp [Arena.origin?, isNode]
    | some node =>
        simpa [Arena.origin?, isNode] using original node
          (Arena.mem_nodes_of_node? isNode)
  apart slot name value found := by
    cases isNode : parsed.node? slot with
    | none => simp [Arena.form?, isNode] at found
    | some node =>
        refine apart node (Arena.mem_nodes_of_node? isNode) name value ?_
        simpa [Arena.form?, isNode] using found

theorem IsUntouched.standsFor_eq (untouched : IsUntouched parsed)
    (grows : parsed.Grows arena) (held : parsed.holds slot = true) :
    arena.standsFor slot = slot :=
  Arena.standsFor_of_parsed
    ((grows.origin?_eq held).trans (untouched.original slot))

/-- What replaces a parsed node stands for it. -/
theorem IsUntouched.standsFor_of_origin (untouched : IsUntouched parsed)
    (grows : parsed.Grows arena) (sound : arena.Sound)
    (held : parsed.holds slot = true) (replaces : arena.origin? made = slot) :
    arena.standsFor made = slot := by
  cases slot with
  | none => cases held
  | some node =>
      rw [sound.standsFor_of_origin replaces]
      exact untouched.standsFor_eq grows held

/-- A new node stands for no parsed name. -/
theorem IsNew.not_isName (isNew : IsNew parsed arena slot) :
    parsed.nameText? (arena.standsFor slot) ≠ some text := by
  rw [Arena.standsFor_of_parsed isNew.2]
  intro isName
  cases isNew.1.symm.trans (holds_of_nameText? isName)

/-- What is written for a node stands for it. -/
theorem Written.standsFor_eq (written : Written model parsed arena slot made)
    (untouched : IsUntouched parsed) (grows : parsed.Grows arena)
    (sound : arena.Sound) (held : parsed.holds slot = true) :
    arena.standsFor made = slot := by
  have ofAccess {receiver : Slot} {text : String}
      (inPlace : AccessInPlace arena slot receiver text made) :
      arena.standsFor made = slot :=
    untouched.standsFor_of_origin grows sound held inPlace.1
  cases written with
  | qualified _ _ _ inPlace => exact ofAccess inPlace
  | throughMe _ _ _ inPlace => exact ofAccess inPlace
  | bare => exact untouched.standsFor_eq grows held
  | operator _ _ _ _ _ inPlace =>
      obtain rfl | isOrigin := inPlace
      · exact untouched.standsFor_eq grows held
      · exact untouched.standsFor_of_origin grows sound held isOrigin
  | absent => cases held

/-- Only parsed nodes are written out. -/
theorem Written.holds_parsed (written : Written model parsed arena slot made)
    (held : arena.holds made = true) : parsed.holds slot = true := by
  cases written with
  | qualified isName _ _ _ => exact holds_of_nameText? isName
  | throughMe isName _ _ _ => exact holds_of_nameText? isName
  | bare isName _ => exact holds_of_nameText? isName
  | operator found _ _ _ _ _ => exact Arena.holds_of_form? found
  | absent => cases held

/-- A member of a module is written through the name of the module. -/
theorem Written.throughModule (written : Written model parsed arena slot made)
    (isName : parsed.nameText? slot = some text)
    (inModule : moduleOf? model parsed slot = some module) :
    ∃ receiver, Spells parsed arena receiver (Text.Dotted.split module) ∧
      AccessInPlace arena slot receiver text made := by
  have isQualifier := qualifierOf?_of_moduleOf? inModule
  cases written with
  | qualified sameName sameQualifier spelled inPlace =>
      cases sameName.symm.trans isName
      cases sameQualifier.symm.trans isQualifier
      exact ⟨_, spelled, inPlace⟩
  | throughMe _ noQualifier _ _ => cases noQualifier.symm.trans isQualifier
  | bare _ noQualifier => cases noQualifier.symm.trans isQualifier
  | operator found notName _ _ _ _ =>
      cases found.symm.trans (Arena.form?_of_nameText? isName)
      cases notName
  | absent => cases isName

end

end BasicLowering.Qualification
