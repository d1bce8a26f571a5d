import BasicLowering.Binding.Model
import BasicLowering.Source.Path

/-!
# Expanders

Whoever converts a tree asks an expander about each node it comes to, from the
root downward. The expander leaves the node alone, stops the qualification
below it, or puts another node in its place. What is below a replacement is
either final or still to be asked about.
-/

namespace BasicLowering.Qualification

open Source Binding

/-- What stands in place of a node. It is the node itself when nothing has
changed. -/
structure Expansion where
  node : Slot
  /-- The qualified name of a module whose members the compilation unit has to
  import. -/
  staticImport : Option String := none
  deriving DecidableEq

/-- What is to happen to a node. -/
inductive Decision where
  /-- Keep the node and ask about what is below it. -/
  | keep
  /-- Keep the node and qualify nothing below it. -/
  | skip
  /-- Put another node in place; what is below it is final. -/
  | replace (expansion : Expansion)
  /-- Put another node in place and ask about what is below it. -/
  | replaceAndEnter (expansion : Expansion)
  deriving DecidableEq

/-- A rule for the nodes of a tree. Each function is given the path above the
slot in question. -/
structure Expander where
  expandsNode : Model → Arena → Path → Slot → Bool
  expandsWithin : Model → Arena → Path → Slot → Bool
  expand : Model → Path → Slot → Building Expansion
  /-- By default a node that is to be expanded is replaced, and otherwise what
  is below it is asked about or skipped. -/
  decision : Model → Path → Slot → Building Decision :=
    fun model path slot => do
      let arena ← get
      if expandsNode model arena path slot then
        let expansion ← expand model path slot
        return .replace expansion
      else if expandsWithin model arena path slot then
        return .keep
      else
        return .skip

/-- The same rule with the default decision. -/
def Expander.withDefaultDecision (expander : Expander) : Expander where
  expandsNode := expander.expandsNode
  expandsWithin := expander.expandsWithin
  expand := expander.expand

/-- Replacements and skipped nodes given as lists, where nodes below an entered
replacement are still asked about. Of two entries for a node the later one
counts. -/
structure Script where
  replacements : List (Slot × Expansion) := []
  entered : List (Slot × Expansion) := []
  skipped : List Slot := []

namespace Script

/-- The last entry for a slot. -/
def lastFor? (entries : List (Slot × Expansion)) (slot : Slot) :
    Option Expansion :=
  entries.reverse.lookup slot

/-- The rule that follows a script. -/
def expander (script : Script) : Expander :=
  let listed : Expander := {
    expandsNode := fun _ _ _ slot =>
      (lastFor? script.replacements slot).isSome
    expandsWithin := fun _ _ _ slot => !script.skipped.contains slot
    expand := fun _ _ slot =>
      return (lastFor? script.replacements slot).getD ⟨slot, none⟩ }
  { listed with
    decision := fun model path slot =>
      match lastFor? script.entered slot with
      | some expansion => return .replaceAndEnter expansion
      | none => listed.decision model path slot }

end Script

end BasicLowering.Qualification
