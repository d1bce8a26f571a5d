import BasicLowering.Proofs.Source.Sound

/-!
# Trivia in front of an expression

The text of an access, of a call or of an operator begins with the text of its first
operand. What stands in front of the whole are the trivia of each node on the way to the
first word, put together from the outermost node inward.
-/

namespace BasicLowering.Source

/-- The part of a node with which its text begins, if a part of it comes first. -/
def Form.leftmost : Form → Slot
  | .memberAccess receiver _ _ | .conditionalAccess receiver _ => receiver
  | .binary left _ _ => left
  | .invocation callee _ => callee
  | .namedArgument name _ => name
  | .inferredField value => value
  | .assignment target _ => target
  | .expressionStatement expression => expression
  | _ => none

theorem Form.mem_slots_of_leftmost {form : Form} {first : NodeId}
    (isFirst : form.leftmost = some first) : some first ∈ form.slots := by
  cases form <;> simp_all [Form.leftmost, Form.slots]

/-- Whether the trivia in front of what is in a slot are the given ones. -/
inductive TriviaInFront (arena : Arena) : Slot → String → Prop
  | word {slot : Slot} {node : Node} (isNode : arena.node? slot = some node)
      (isWord : node.form.leftmost = none) : TriviaInFront arena slot node.trivia
  | before {slot : Slot} {node : Node} {first : NodeId} {rest : String}
      (isNode : arena.node? slot = some node)
      (isFirst : node.form.leftmost = some first)
      (further : TriviaInFront arena (some first) rest) :
      TriviaInFront arena slot (node.trivia ++ rest)

namespace TriviaInFront

variable {arena later : Arena} {slot : Slot} {text other : String}

theorem grow (inFront : TriviaInFront arena slot text) (grows : arena.Grows later) :
    TriviaInFront later slot text := by
  induction inFront with
  | word isNode isWord => exact .word (grows _ _ isNode) isWord
  | before isNode isFirst _ ih => exact .before (grows _ _ isNode) isFirst ih

theorem unique (inFront : TriviaInFront arena slot text)
    (otherInFront : TriviaInFront arena slot other) : other = text := by
  induction inFront generalizing other with
  | word isNode isWord =>
      cases otherInFront with
      | word isOther _ =>
          cases isNode.symm.trans isOther
          rfl
      | before isOther isFirst _ =>
          cases isNode.symm.trans isOther
          cases isWord.symm.trans isFirst
  | before isNode isFirst _ ih =>
      cases otherInFront with
      | word isOther isWord =>
          cases isNode.symm.trans isOther
          cases isWord.symm.trans isFirst
      | before isOther otherFirst further =>
          cases isNode.symm.trans isOther
          cases isFirst.symm.trans otherFirst
          rw [ih further]

theorem iff_eq (inFront : TriviaInFront arena slot text) :
    TriviaInFront arena slot other ↔ other = text :=
  ⟨inFront.unique, fun same => same ▸ inFront⟩

/-- What is put before the trivia of a node comes before all of them. -/
theorem ofCopy {node : Node} {copied origin : Slot} {trivia : String}
    (inFront : TriviaInFront arena slot text) (isNode : arena.node? slot = some node)
    (grows : arena.Grows later)
    (isCopy : later.node? copied =
      some { node with trivia := trivia ++ node.trivia, origin }) :
    TriviaInFront later copied (trivia ++ text) := by
  cases inFront with
  | word isOther isWord =>
      cases isNode.symm.trans isOther
      exact .word isCopy isWord
  | before isOther isFirst further =>
      cases isNode.symm.trans isOther
      rw [← String.append_assoc]
      exact .before isCopy isFirst (further.grow grows)

/-- What is prepended to a node comes before all that stood in front of it, whether or
not the node has to be copied for that. -/
theorem withPrependedTrivia (inFront : TriviaInFront arena slot text) (trivia : String) :
    let made := Building.withPrependedTrivia slot trivia arena
    TriviaInFront made.2 made.1 (trivia ++ text) := by
  have isNode : ∃ node, arena.node? slot = some node := by
    cases inFront with
    | word isNode _ | before isNode _ _ => exact ⟨_, isNode⟩
  obtain ⟨node, isNode⟩ := isNode
  unfold Building.withPrependedTrivia
  rw [isNode]
  dsimp only
  split
  · next noTrivia =>
      rw [noTrivia, String.empty_append]
      exact inFront
  · exact inFront.ofCopy isNode (arena.grows_add _) (arena.node?_add_self _)

end TriviaInFront

/-- Something stands in front of every node of a sound arena, if only no trivia at
all. -/
theorem Arena.Sound.exists_triviaInFront {arena : Arena} (sound : arena.Sound)
    {slot : Slot} (held : arena.holds slot = true) :
    ∃ text, TriviaInFront arena slot text := by
  cases slot with
  | none => cases held
  | some node =>
      induction node using sound.acyclic.induction with
      | _ node ih =>
          obtain ⟨found, isNode⟩ := exists_node held
          have isForm : arena.form? (some node) = some found.form := by
            rw [Arena.form?, isNode, Option.map_some]
          cases isFirst : found.form.leftmost with
          | none => exact ⟨_, .word isNode isFirst⟩
          | some first =>
              have isChild : first ∈ found.form.children :=
                List.mem_filterMap.mpr ⟨_, Form.mem_slots_of_leftmost isFirst, rfl⟩
              obtain ⟨rest, further⟩ := ih first ⟨_, isForm, isChild⟩
                (sound.children _ _ isForm first isChild)
              exact ⟨_, .before isNode isFirst further⟩

end BasicLowering.Source
