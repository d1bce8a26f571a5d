import BasicLowering.Binding.Model
import BasicLowering.Proofs.Binding.Links

/-!
# Containers

What is listed from a symbol outward. The symbol that contains another one may be changed
later, so the links may lead in a circle or to a position without an entry. On every table
the list holds exactly the symbols that the links lead to, each of them before the one that
contains it, and a search along the list finds the nearest symbol of its kind. Where the
links lead in a circle, the first round is complete.
-/

namespace BasicLowering.Binding

namespace SymbolTable

variable (table : SymbolTable)

/-- The position of the symbol that contains another one. -/
def container? (id : SymbolId) : Option SymbolId :=
  (table.symbol? id).bind (·.containingSymbol)

/-- The positions of the first symbols met from `id` outward, at most as many as given. -/
def outwardWithin : Nat → SymbolId → List SymbolId
  | 0, _ => []
  | count + 1, id =>
      match table.symbol? id with
      | none => []
      | some _ =>
          id ::
            match table.container? id with
            | some container => outwardWithin count container
            | none => []

/-- The positions of the symbols that are listed as the containers of `id`. -/
def outward (id : SymbolId) : List SymbolId :=
  table.outwardWithin (table.size + 1) id

/-- The symbol that is met after as many links as given. -/
def met? (start : SymbolId) (links : Nat) : Option Symbol :=
  (follow? table.container? links start).bind table.symbol?

/-- Whether a symbol is the first one of a kind that is met from `start` outward. -/
def IsNearest (kind : SymbolKind) (start : SymbolId) (symbol : Symbol) : Prop :=
  ∃ links, table.met? start links = some symbol ∧ symbol.kind = kind ∧
    ∀ fewer < links, ∀ other, table.met? start fewer = some other → other.kind ≠ kind

/-- Whether no symbol that is met from `id` outward contains itself, however many symbols
lie between. -/
def IsAcyclicFrom (id : SymbolId) : Prop :=
  ∀ other, LeadsTo table.container? id other →
    ¬ Relation.TransGen (fun inner outer => table.container? inner = some outer) other other

variable {table}

theorem index_injective : Function.Injective SymbolId.index := by
  rintro ⟨_⟩ ⟨_⟩ rfl
  rfl

/-- Only a symbol of the table has a container. -/
theorem index_lt_of_container? {id : SymbolId}
    (isContained : (table.container? id).isSome = true) : id.index < table.size := by
  by_contra outside
  have missing : table.symbol? id = none :=
    Array.getElem?_eq_none (Nat.le_of_not_lt outside)
  rw [container?, missing] at isContained
  cases isContained

/-! ## What is listed -/

theorem map_outwardWithin (count : Nat) (id : SymbolId) :
    (table.outwardWithin count id).map table.symbol? =
      (table.containersWithin count id).map some := by
  induction count generalizing id with
  | zero => rfl
  | succ count ih =>
      rw [outwardWithin, containersWithin]
      cases found : table.symbol? id with
      | none => rfl
      | some symbol =>
          have link : table.container? id = symbol.containingSymbol := by
            rw [container?, found, Option.bind_some]
          simp only [link, List.map_cons, found]
          cases symbol.containingSymbol with
          | none => rfl
          | some container => rw [ih]

theorem getElem?_outwardWithin {count links : Nat} {id other : SymbolId} :
    (table.outwardWithin count id)[links]? = some other ↔
      links < count ∧ follow? table.container? links id = some other ∧
        (table.symbol? other).isSome = true := by
  induction count generalizing links id with
  | zero => simp [outwardWithin]
  | succ count ih =>
      rw [outwardWithin]
      cases found : table.symbol? id with
      | none =>
          have link : table.container? id = none := by
            rw [container?, found, Option.bind_none]
          cases links with
          | zero =>
              refine iff_of_false (by simp) ?_
              rintro ⟨-, same, isKnown⟩
              cases same
              rw [found] at isKnown
              cases isKnown
          | succ links => simp [follow?, link]
      | some symbol =>
          cases links with
          | zero =>
              simp only [List.getElem?_cons_zero, follow?, Nat.zero_lt_succ, true_and]
              constructor
              · intro same
                cases same
                exact ⟨rfl, by rw [found, Option.isSome_some]⟩
              · exact And.left
          | succ links =>
              rw [List.getElem?_cons_succ, follow?, Nat.succ_lt_succ_iff]
              cases table.container? id with
              | none => simp
              | some container => exact ih

theorem getElem?_outward {links : Nat} {id other : SymbolId} :
    (table.outward id)[links]? = some other ↔
      links ≤ table.size ∧ follow? table.container? links id = some other ∧
        (table.symbol? other).isSome = true := by
  rw [outward, getElem?_outwardWithin, Nat.lt_succ_iff]

theorem map_outward (id : SymbolId) :
    (table.outward id).map table.symbol? = (table.containers id).map some :=
  map_outwardWithin _ id

/-- The list begins with the symbol itself, if there is one. -/
theorem head?_outward (id : SymbolId) :
    (table.outward id).head? = (table.symbol? id).map fun _ => id := by
  rw [outward, outwardWithin]
  cases table.symbol? id <;> rfl

/-- Each symbol of the list is contained in the next one. -/
theorem isChain_outward (id : SymbolId) :
    (table.outward id).IsChain fun inner outer => table.container? inner = some outer := by
  rw [List.isChain_iff_getElem]
  intro links inside
  obtain ⟨-, reached, -⟩ := getElem?_outward.mp (List.getElem?_eq_getElem (Nat.lt_of_succ_lt inside))
  obtain ⟨-, further, -⟩ := getElem?_outward.mp (List.getElem?_eq_getElem inside)
  rw [follow?_of_follow? reached 1] at further
  simpa [follow?] using further

/-- The list holds every symbol that the links lead to, and no others. -/
theorem mem_outward {id other : SymbolId} :
    other ∈ table.outward id ↔
      LeadsTo table.container? id other ∧ (table.symbol? other).isSome = true := by
  rw [List.mem_iff_getElem?]
  constructor
  · rintro ⟨links, found⟩
    obtain ⟨-, reached, isKnown⟩ := getElem?_outward.mp found
    exact ⟨leadsTo_iff_exists_follow?.mpr ⟨links, reached⟩, isKnown⟩
  · rintro ⟨leads, isKnown⟩
    obtain ⟨links, few, reached⟩ :=
      exists_follow?_le index_injective (fun _ => index_lt_of_container?) leads
    exact ⟨links, getElem?_outward.mpr ⟨few, reached, isKnown⟩⟩

theorem index_lt_of_mem_outward {id other : SymbolId} (isListed : other ∈ table.outward id) :
    other.index < table.size := by
  have isKnown := (mem_outward.mp isListed).2
  by_contra outside
  rw [symbol?, Array.getElem?_eq_none (Nat.le_of_not_lt outside)] at isKnown
  cases isKnown

/-- A symbol is listed twice exactly if a circle is met. -/
theorem nodup_outward_iff {id : SymbolId} :
    (table.outward id).Nodup ↔ table.IsAcyclicFrom id := by
  constructor
  · intro noneTwice other leads circle
    have short : (table.outward id).length ≤ table.size :=
      length_le_of_nodup index_injective noneTwice fun _ => index_lt_of_mem_outward
    obtain ⟨middle, reached, goesOn⟩ :=
      exists_follow?_of_circle leads circle (table.outward id).length
    have isKnown : (table.symbol? middle).isSome = true := by
      obtain ⟨container, isContainer⟩ := Option.isSome_iff_exists.mp goesOn
      obtain ⟨symbol, found, -⟩ := Option.bind_eq_some_iff.mp isContainer
      rw [found, Option.isSome_some]
    have listed := getElem?_outward.mpr ⟨short, reached, isKnown⟩
    rw [List.getElem?_eq_none le_rfl] at listed
    cases listed
  · intro acyclic
    rw [List.nodup_iff_getElem?_ne_getElem?]
    intro first second before inside same
    obtain ⟨other, found⟩ : ∃ other, (table.outward id)[second]? = some other :=
      ⟨_, List.getElem?_eq_getElem inside⟩
    obtain ⟨-, reachedAgain, -⟩ := getElem?_outward.mp found
    obtain ⟨-, reached, -⟩ := getElem?_outward.mp (same.trans found)
    obtain ⟨between, rfl⟩ := Nat.exists_eq_add_of_lt before
    rw [Nat.add_assoc, follow?_of_follow? reached] at reachedAgain
    apply acyclic other (leadsTo_iff_exists_follow?.mpr ⟨first, reached⟩)
    exact transGen_iff_exists_follow?.mpr ⟨between, reachedAgain⟩

/-! ## What is found -/

theorem getElem?_containers {links : Nat} {id : SymbolId} {symbol : Symbol} :
    (table.containers id)[links]? = some symbol ↔
      links ≤ table.size ∧ table.met? id links = some symbol := by
  have listed : ((table.outward id)[links]?).map table.symbol? =
      ((table.containers id)[links]?).map some := by
    rw [← List.getElem?_map, ← List.getElem?_map, map_outward]
  constructor
  · intro found
    rw [found, Option.map_some, Option.map_eq_some_iff] at listed
    obtain ⟨other, isOther, isSymbol⟩ := listed
    obtain ⟨few, reached, -⟩ := getElem?_outward.mp isOther
    exact ⟨few, by rw [met?, reached, Option.bind_some, isSymbol]⟩
  · rintro ⟨few, isMet⟩
    obtain ⟨other, reached, isSymbol⟩ := Option.bind_eq_some_iff.mp isMet
    have isOther : (table.outward id)[links]? = some other :=
      getElem?_outward.mpr ⟨few, reached, by rw [isSymbol, Option.isSome_some]⟩
    rw [isOther, Option.map_some, isSymbol] at listed
    obtain ⟨found, isFound, same⟩ := Option.map_eq_some_iff.mp listed.symm
    rw [isFound, Option.some.inj same]

/-- The nearest symbol of a kind is met within the first round of any circle. -/
theorem IsNearest.exists_links {kind : SymbolKind} {start : SymbolId} {symbol : Symbol}
    (nearest : table.IsNearest kind start symbol) :
    ∃ links ≤ table.size, table.met? start links = some symbol ∧ symbol.kind = kind ∧
      ∀ fewer < links, ∀ other, table.met? start fewer = some other → other.kind ≠ kind := by
  obtain ⟨links, isMet, isKind, noneNearer⟩ := nearest
  obtain ⟨id, reached, isSymbol⟩ := Option.bind_eq_some_iff.mp isMet
  obtain ⟨count, few, again⟩ := exists_follow?_le index_injective
    (fun _ => index_lt_of_container?) (leadsTo_iff_exists_follow?.mpr ⟨links, reached⟩)
  have metAgain : table.met? start count = some symbol := by
    rw [met?, again, Option.bind_some, isSymbol]
  have notNearer : ¬ count < links :=
    fun nearer => noneNearer count nearer symbol metAgain isKind
  exact ⟨links, Nat.le_trans (Nat.le_of_not_lt notNearer) few, isMet, isKind, noneNearer⟩

/-- The first symbol of a kind that is listed is the nearest one, also where the list goes
round in a circle. -/
theorem find?_containers {kind : SymbolKind} {id : SymbolId} {symbol : Symbol} :
    (table.containers id).find? (·.kind == kind) = some symbol ↔
      table.IsNearest kind id symbol := by
  rw [List.find?_eq_some_iff_getElem, beq_iff_eq]
  constructor
  · rintro ⟨isKind, links, inside, found, noneEarlier⟩
    have listed := List.getElem?_eq_getElem inside
    rw [found] at listed
    obtain ⟨few, isMet⟩ := getElem?_containers.mp listed
    refine ⟨links, isMet, isKind, ?_⟩
    intro fewer isFewer other otherMet sameKind
    have otherListed := getElem?_containers.mpr ⟨by omega, otherMet⟩
    obtain ⟨_, isOther⟩ := List.getElem?_eq_some_iff.mp otherListed
    have := noneEarlier fewer isFewer
    rw [isOther, sameKind] at this
    simp at this
  · intro nearest
    obtain ⟨links, few, isMet, isKind, noneNearer⟩ := nearest.exists_links
    obtain ⟨inside, found⟩ :=
      List.getElem?_eq_some_iff.mp (getElem?_containers.mpr ⟨few, isMet⟩)
    refine ⟨isKind, links, inside, found, ?_⟩
    intro fewer isFewer
    have listed := List.getElem?_eq_getElem (Nat.lt_trans isFewer inside)
    have := noneNearer fewer isFewer _ (getElem?_containers.mp listed).2
    simpa using this

/-- The qualified name is made of the names that are listed, the outermost one first. -/
theorem qualifiedName_eq (start : SymbolId) :
    table.qualifiedName start =
      Text.Dotted.join
        ((((table.outward start).reverse.filterMap table.symbol?).map (·.name)).filter
          (· ≠ "")) := by
  have listed : (table.outward start).filterMap table.symbol? = table.containers start := by
    calc (table.outward start).filterMap table.symbol?
      _ = ((table.outward start).map table.symbol?).filterMap id := by
          rw [List.filterMap_map, Function.id_comp]
      _ = ((table.containers start).map some).filterMap id := by
          rw [map_outward]
      _ = table.containers start := by
          rw [List.filterMap_map, Function.id_comp, List.filterMap_some]
  rw [qualifiedName, List.filterMap_reverse, listed, List.map_reverse, List.filter_reverse]

end SymbolTable

/-- From every symbol outward exactly the symbols are listed that the links to containing
symbols lead to, beginning with the symbol itself and each before the one that contains it.
One of them is listed twice only where the links lead in a circle. The qualified name is
made of their names from the outermost one inward, those without a name left out. On every
table the type around a position is the one declared by the nearest named type that is met
from the innermost declaration outward, and there is no such type otherwise. -/
theorem Model.containers_reached (model : Model) :
    (∀ id, ∃ ids : List SymbolId,
      ids.map model.symbols.symbol? = (model.symbols.containers id).map some ∧
      ids.head? = (model.symbols.symbol? id).map (fun _ => id) ∧
      (ids.IsChain fun inner outer => model.symbols.container? inner = some outer) ∧
      (∀ other, other ∈ ids ↔ LeadsTo model.symbols.container? id other ∧
        (model.symbols.symbol? other).isSome = true) ∧
      (ids.Nodup ↔ model.symbols.IsAcyclicFrom id) ∧
      model.symbols.qualifiedName id =
        Text.Dotted.join
          (((ids.reverse.filterMap model.symbols.symbol?).map (·.name)).filter (· ≠ ""))) ∧
    ∀ position type, model.enclosingNamedType? position = some type ↔
      ∃ start declaration, model.enclosingSymbol? position = some start ∧
        model.symbols.IsNearest .namedType start declaration ∧
        declaration.declaredType = some type := by
  constructor
  · intro id
    exact ⟨model.symbols.outward id, SymbolTable.map_outward id,
      SymbolTable.head?_outward id, SymbolTable.isChain_outward id,
      fun _ => SymbolTable.mem_outward, SymbolTable.nodup_outward_iff,
      SymbolTable.qualifiedName_eq id⟩
  · intro position type
    simp only [enclosingNamedType?, Option.bind_eq_bind, Option.bind_eq_some_iff,
      SymbolTable.find?_containers, exists_and_left]

/-- Two types that contain each other. -/
def mutualContainers : SymbolTable where
  symbols := #[
    { id := ⟨0⟩, name := "Outer", kind := .namedType, containingSymbol := some ⟨1⟩ },
    { id := ⟨1⟩, name := "Inner", kind := .namedType, containingSymbol := some ⟨0⟩ }]

/-- The list goes round the circle once and stops one symbol later. -/
example : mutualContainers.outward ⟨0⟩ = [⟨0⟩, ⟨1⟩, ⟨0⟩] := by decide

end BasicLowering.Binding
