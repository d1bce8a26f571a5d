import BasicLowering.Source.Arena

/-!
# Ancestor paths

Nodes do not know their parents. An analysis that asks about enclosing nodes is
given the path from the root to the parent of the node in question. The path is
held innermost first, so that moving one level outward is taking its tail.

`Path.locate?` finds the first path to a node in depth-first source order.
-/

namespace BasicLowering.Source

/-- One level of a path. `referent` is what the slot above refers to;
`effective` is the node converted in its place, which differs once an expander
has replaced it. -/
structure Step where
  referent : Slot
  effective : Slot
  deriving DecidableEq

/-- The level of a node that nothing has replaced. -/
def Step.unchanged (slot : Slot) : Step :=
  ⟨slot, slot⟩

/-- The levels above a node, innermost first. -/
abbrev Path := List Step

namespace Path

/-- The path through parsed nodes given from the root inward. -/
def ofSlots (slots : List Slot) : Path :=
  (slots.map Step.unchanged).reverse

/-- The levels from the root inward. -/
def fromRoot (path : Path) : List Step :=
  path.reverse

/-- Look for `target` at and below `slot`, to the given depth, where `above` is
the path to `slot`. -/
def locateWithin? (arena : Arena) (target : Slot) :
    Nat → Path → Slot → Option Path
  | 0, above, slot => if slot = target then some above else none
  | depth + 1, above, slot =>
      if slot = target then
        some above
      else
        match arena.form? slot with
        | none => none
        | some form =>
            form.children.findSome? fun child =>
              locateWithin? arena target depth (.unchanged slot :: above)
                (some child)

/-- The path from `root` down to the parent of `target`, or nothing when
`target` is not below `root`. A path without a repetition is no longer than the
arena. -/
def locate? (arena : Arena) (root target : Slot) : Option Path :=
  locateWithin? arena target arena.size [] root

end Path

end BasicLowering.Source
