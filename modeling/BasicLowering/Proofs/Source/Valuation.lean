import BasicLowering.Proofs.Source.Place
import BasicLowering.Text.CaseFolding

/-!
# Valuations

What the operands of an expression are worth. A variable has one value, however
often and in whatever case its name is written, and `v.HasValue` and `Nothing`
are worth what they say. All other operands may have any value.
-/

namespace BasicLowering.Source

open Binding Semantics

variable {Label : Type} {model : Model} {arena : Arena}

/-- The spelling that names have in common when they differ in case only. -/
def foldedName (name : String) : List Char :=
  name.toList.map Char.toLower

theorem sameName_iff {left right : String} :
    Text.sameName left right = true ↔ foldedName left = foldedName right := by
  simp only [Text.sameName, foldedName, beq_iff_eq]

namespace Arena

variable (arena : Arena)

/-- The name that a node looks at: its own, or that of its receiver. -/
def namesRead (node : NodeId) : List (List Char) :=
  match arena.form? (some node) with
  | some (.identifier text) => [foldedName text]
  | some (.memberAccess receiver _ _) =>
      ((arena.nameText? receiver).map foldedName).toList
  | _ => []

/-- The name `v` in `v.HasValue`. -/
def hasValueOf? (node : NodeId) : Option String :=
  match arena.form? (some node) with
  | some (.memberAccess receiver member .simple) => do
      let member ← arena.nameText? member
      let receiver ← arena.nameText? receiver
      if Text.sameName member "HasValue" then some receiver else none
  | _ => none

theorem form?_of_hasValueOf? {arena : Arena} {node : NodeId} {name : String}
    (found : arena.hasValueOf? node = some name) :
    ∃ receiver member,
      arena.form? (some node) =
          some (.memberAccess receiver member .simple) ∧
        arena.nameText? receiver = some name ∧
        (arena.nameText? member).any (Text.sameName · "HasValue") = true := by
  unfold hasValueOf? at found
  split at found
  · next receiver member isAccess =>
      cases memberName : arena.nameText? member with
      | none => simp [memberName] at found
      | some memberText =>
          cases receiverName : arena.nameText? receiver with
          | none => simp [memberName, receiverName] at found
          | some receiverText =>
              simp [memberName, receiverName] at found
              obtain ⟨isHasValue, rfl⟩ := found
              exact ⟨receiver, member, isAccess, receiverName,
                by simp [memberName, isHasValue]⟩
  · cases found

theorem foldedName_mem_namesRead {arena : Arena} {node : NodeId}
    {name : String} (found : arena.hasValueOf? node = some name) :
    foldedName name ∈ arena.namesRead node := by
  obtain ⟨receiver, member, isAccess, receiverName, -⟩ :=
    form?_of_hasValueOf? found
  simp [namesRead, isAccess, receiverName]

end Arena

/-- The values of the variables, by their names, and of all other operands, by
their nodes. -/
structure Valuation where
  names : List Char → Value
  others : NodeId → Value

namespace Valuation

/-- The value of an operand. -/
def valueOf (arena : Arena) (valuation : Valuation) (node : NodeId) : Value :=
  match arena.hasValueOf? node with
  | some name => .boolean (valuation.names (foldedName name) != .null)
  | none =>
      match arena.form? (some node) with
      | some (.identifier text) => valuation.names (foldedName text)
      | some (.literal .nothing) => .null
      | _ => valuation.others node

theorem valueOf_hasValue {node : NodeId} {name : String}
    (found : arena.hasValueOf? node = some name) (valuation : Valuation) :
    valuation.valueOf arena node =
      .boolean (valuation.names (foldedName name) != .null) := by
  simp only [valueOf, found]

theorem valueOf_identifier {node : NodeId} {text : String}
    (found : arena.form? (some node) = some (.identifier text))
    (valuation : Valuation) :
    valuation.valueOf arena node = valuation.names (foldedName text) := by
  simp only [valueOf, Arena.hasValueOf?, found]

theorem valueOf_nothing {node : NodeId}
    (found : arena.form? (some node) = some (.literal .nothing))
    (valuation : Valuation) :
    valuation.valueOf arena node = .null := by
  simp only [valueOf, Arena.hasValueOf?, found]

/-- One valuation for some names and nodes, and another for all others. -/
def splice (names : List (List Char)) (nodes : List NodeId)
    (chosen given : Valuation) : Valuation where
  names := fun name =>
    if name ∈ names then chosen.names name else given.names name
  others := override nodes chosen.others given.others

/-- The value of a node depends on the name it looks at and on the node. -/
theorem valueOf_congr {first second : Valuation} {node : NodeId}
    (sameNames : ∀ name ∈ arena.namesRead node,
      first.names name = second.names name)
    (sameOther : first.others node = second.others node) :
    first.valueOf arena node = second.valueOf arena node := by
  unfold valueOf
  split
  · next name found =>
      rw [sameNames _ (Arena.foldedName_mem_namesRead found)]
  · split
    · next text found =>
        exact sameNames _ (by simp [Arena.namesRead, found])
    · rfl
    · exact sameOther

end Valuation

namespace Tree

/-- The names that the operands of an expression look at, with repetitions. -/
def names (arena : Arena) : Tree Label → List (List Char)
  | operand node _ => arena.namesRead node
  | parenthesized _ inner | negation _ inner => inner.names arena
  | binary _ left _ right => left.names arena ++ right.names arena
  | ternary _ condition whenTrue whenFalse =>
      condition.names arena ++ whenTrue.names arena ++ whenFalse.names arena

/-- The value of an expression in a valuation. -/
def worth (arena : Arena) (valuation : Valuation) (tree : Tree Label) : Value :=
  tree.value (valuation.valueOf arena)

theorem worth_negation (valuation : Valuation) (node : NodeId)
    (inner : Tree Label) :
    (negation node inner).worth arena valuation =
      (inner.worth arena valuation).negate := rfl

theorem worth_binary (valuation : Valuation) (node : NodeId)
    (left right : Tree Label) (operator : BinaryOperator) :
    (binary node left operator right).worth arena valuation =
      combine operator (left.worth arena valuation)
        (right.worth arena valuation) := rfl

/-- The worth of an expression depends on the names it looks at and on its
nodes. -/
theorem worth_congr {first second : Valuation} (tree : Tree Label)
    (held : tree.HeldBy model arena)
    (sameNames : ∀ name ∈ tree.names arena,
      first.names name = second.names name)
    (sameOthers : ∀ node ∈ tree.nodes,
      first.others node = second.others node) :
    tree.worth arena first = tree.worth arena second := by
  unfold worth
  induction tree with
  | operand node label =>
      exact Valuation.valueOf_congr sameNames
        (sameOthers node (List.mem_singleton.mpr rfl))
  | parenthesized node inner ih =>
      exact ih held.2 sameNames fun below member =>
        sameOthers below (List.mem_cons_of_mem node member)
  | negation node inner ih =>
      rw [value_negation, value_negation]
      rw [ih held.2.2 sameNames fun below member =>
        sameOthers below (List.mem_cons_of_mem node member)]
  | binary node left operator right leftIH rightIH =>
      rw [value_binary, value_binary]
      rw [leftIH held.2.2.1
        (fun name member => sameNames name (by simp [names, member]))
        (fun below member => sameOthers below (by simp [nodes, member]))]
      rw [rightIH held.2.2.2
        (fun name member => sameNames name (by simp [names, member]))
        (fun below member => sameOthers below (by simp [nodes, member]))]
  | ternary node condition whenTrue whenFalse testIH trueIH falseIH =>
      rw [value_ternary, value_ternary]
      rw [testIH held.2.2.1
        (fun name member => sameNames name (by simp [names, member]))
        (fun below member => sameOthers below (by simp [nodes, member]))]
      rw [trueIH held.2.2.2.1
        (fun name member => sameNames name (by simp [names, member]))
        (fun below member => sameOthers below (by simp [nodes, member]))]
      rw [falseIH held.2.2.2.2
        (fun name member => sameNames name (by simp [names, member]))
        (fun below member => sameOthers below (by simp [nodes, member]))]

/-- Splicing goes unnoticed where all names and nodes are the chosen ones. -/
theorem worth_splice_left (tree : Tree Label) (held : tree.HeldBy model arena)
    (chosen given : Valuation) :
    tree.worth arena
        (.splice (tree.names arena) tree.nodes chosen given) =
      tree.worth arena chosen :=
  tree.worth_congr held (fun _ member => if_pos member)
    fun _ member => override_of_mem _ _ member

/-- Splicing goes unnoticed where no name and no node is a chosen one. -/
theorem worth_splice_right {names : List (List Char)} {nodes : List NodeId}
    (tree : Tree Label) (held : tree.HeldBy model arena)
    (namesApart : ∀ name ∈ tree.names arena, name ∉ names)
    (nodesApart : ∀ node ∈ tree.nodes, node ∉ nodes)
    (chosen given : Valuation) :
    tree.worth arena (.splice names nodes chosen given) =
      tree.worth arena given :=
  tree.worth_congr held (fun name member => if_neg (namesApart name member))
    fun node member => override_of_not_mem _ _ (nodesApart node member)

/-- Valuations of two expressions that share no name and no node can be used at
once. -/
theorem exists_spliced {left right : Tree Label}
    (leftHeld : left.HeldBy model arena) (rightHeld : right.HeldBy model arena)
    (nodesApart : (left.nodes ++ right.nodes).Nodup)
    (namesApart : (left.names arena ++ right.names arena).Nodup)
    (chosen given : Valuation) :
    ∃ valuation : Valuation,
      left.worth arena valuation = left.worth arena chosen ∧
        right.worth arena valuation = right.worth arena given ∧
        (∀ name ∈ left.names arena,
          valuation.names name = chosen.names name) ∧
        ∀ name ∉ left.names arena,
          valuation.names name = given.names name := by
  refine ⟨.splice (left.names arena) left.nodes chosen given,
    left.worth_splice_left leftHeld chosen given,
    right.worth_splice_right rightHeld ?_ ?_ chosen given,
    fun _ member => if_pos member, fun _ absent => if_neg absent⟩
  · exact fun name inRight inLeft =>
      (List.nodup_append.mp namesApart).2.2 name inLeft name inRight rfl
  · exact fun node inRight inLeft =>
      (List.nodup_append.mp nodesApart).2.2 node inLeft node inRight rfl

theorem worth_of_identifier {tree : Tree Label}
    (held : tree.HeldBy model arena) {text : String}
    (found : arena.form? tree.core.slot = some (.identifier text))
    (valuation : Valuation) :
    tree.worth arena valuation = valuation.names (foldedName text) := by
  induction tree with
  | operand node label => exact Valuation.valueOf_identifier found valuation
  | parenthesized node inner ih => exact ih held.2 found
  | negation | binary | ternary => simp [core, slot, root, held.1] at found

theorem mem_names_of_identifier {tree : Tree Label}
    (held : tree.HeldBy model arena) {text : String}
    (found : arena.form? tree.core.slot = some (.identifier text)) :
    foldedName text ∈ tree.names arena := by
  induction tree with
  | operand node label =>
      have isName : arena.form? (some node) = some (.identifier text) := found
      simp [names, Arena.namesRead, isName]
  | parenthesized node inner ih => exact ih held.2 found
  | negation | binary | ternary => simp [core, slot, root, held.1] at found

theorem worth_of_nothing {tree : Tree Label} (held : tree.HeldBy model arena)
    (found : arena.form? tree.core.slot = some (.literal .nothing))
    (valuation : Valuation) : tree.worth arena valuation = .null := by
  induction tree with
  | operand node label => exact Valuation.valueOf_nothing found valuation
  | parenthesized node inner ih => exact ih held.2 found
  | negation | binary | ternary => simp [core, slot, root, held.1] at found

end Tree

end BasicLowering.Source
