import BasicLowering.Proofs.Source.Reading
import Mathlib.Data.List.Chain
import Mathlib.Order.WellFounded

/-!
# Arenas without circles

Child slots may lead anywhere, also back to the node that has them. Where they
never lead back, whatever follows them meets no node twice, so the walks that
are bounded by the length of the arena reach their end.
-/

namespace BasicLowering.Source.Arena

variable {arena : Arena}

/-- Whether a node is a child of another one. -/
def IsChild (arena : Arena) (child node : NodeId) : Prop :=
  ∃ form, arena.form? (some node) = some form ∧ child ∈ form.children

/-- Whether no chain of children goes on for ever. -/
def Acyclic (arena : Arena) : Prop :=
  WellFounded arena.IsChild

/-- Children that were made before their parents lead nowhere in a circle. -/
theorem acyclic_of_childrenFirst
    (childrenFirst : ∀ node ∈ arena.nodes.toList.zipIdx,
      ∀ child ∈ node.1.form.children, child.index < node.2) :
    arena.Acyclic := by
  refine Subrelation.wf ?_ (InvImage.wf NodeId.index Nat.lt_wfRel.wf)
  rintro child node ⟨form, found, isChild⟩
  obtain ⟨held, isNode, rfl⟩ := Option.map_eq_some_iff.mp found
  refine childrenFirst (held, node.index) ?_ child isChild
  rw [List.mem_zipIdx_iff_getElem?]
  simpa [node?] using isNode

/-- A chain of links without circles has no repetition. -/
theorem nodup_of_isChain {related : NodeId → NodeId → Prop} (noCircle : WellFounded related)
    {nodes : List NodeId}
    (chain : nodes.IsChain fun node next => related next node) :
    nodes.Nodup := by
  have descending : nodes.IsChain fun node next =>
      Relation.TransGen related next node :=
    chain.imp fun _ _ isNext => .single isNext
  have : IsTrans NodeId fun node next =>
      Relation.TransGen related next node :=
    ⟨fun _ _ _ first second => second.trans first⟩
  refine (List.isChain_iff_pairwise.mp descending).imp ?_
  rintro node _ isBelow rfl
  exact noCircle.transGen.irrefl.irrefl node isBelow

/-! ## Following links -/

/-- Follow links from node to node, at most the given number of them. -/
def follow (next : NodeId → Option Slot) : Nat → Slot → Slot
  | 0, slot => slot
  | _ + 1, none => none
  | steps + 1, some node =>
      match next node with
      | some slot => follow next steps slot
      | none => some node

section

variable {next : NodeId → Option Slot} {node : NodeId} {slot : Slot}

@[simp] theorem follow_none (steps : Nat) : follow next steps none = none := by
  cases steps <;> rfl

theorem follow_of_end (ends : next node = none) (steps : Nat) :
    follow next steps (some node) = some node := by
  cases steps with
  | zero => rfl
  | succ steps => rw [follow, ends]

theorem follow_succ (goesOn : next node = some slot) (steps : Nat) :
    follow next (steps + 1) (some node) = follow next steps slot := by
  rw [follow, goesOn]

theorem follow_add (first second : Nat) (slot : Slot) :
    follow next (first + second) slot =
      follow next second (follow next first slot) := by
  induction first generalizing slot with
  | zero => rw [Nat.zero_add, follow]
  | succ first ih =>
      cases slot with
      | none => simp
      | some node =>
          cases link : next node with
          | none => simp [follow_of_end link]
          | some slot =>
              rw [Nat.succ_add_eq_add_succ, Nat.add_succ, follow_succ link,
                follow_succ link, ih]

/-- What is left after some links are followed is at the end of a chain of that
many. -/
theorem exists_chain_of_follow {steps : Nat} {last : NodeId}
    (isLast : follow next steps slot = some last)
    (goesOn : (next last).isSome = true) :
    ∃ nodes : List NodeId, nodes.length = steps + 1 ∧ slot = nodes.head? ∧
      (∀ node ∈ nodes, (next node).isSome = true) ∧
      nodes.IsChain fun node other => next node = some (some other) := by
  induction steps generalizing slot with
  | zero =>
      obtain rfl : slot = some last := isLast
      exact ⟨[last], rfl, rfl, by simpa using goesOn, .singleton last⟩
  | succ steps ih =>
      cases slot with
      | none => cases isLast
      | some node =>
          cases link : next node with
          | none =>
              rw [follow_of_end link] at isLast
              cases isLast
              rw [link] at goesOn
              cases goesOn
          | some other =>
              rw [follow_succ link] at isLast
              obtain ⟨nodes, length, isFirst, allGoOn, chain⟩ := ih isLast
              refine ⟨node :: nodes, by simp [length], rfl, ?_, ?_⟩
              · exact List.forall_mem_cons.mpr ⟨by simp [link], allGoOn⟩
              · rw [List.isChain_cons]
                refine ⟨?_, chain⟩
                intro head isHead
                rw [link, isFirst, Option.mem_def.mp isHead]

/-- Links without circles between the nodes of an arena have been followed to their
end after as many steps as the arena is long. -/
theorem follow_ends
    (noCircle : WellFounded fun other node => next node = some (some other))
    (inside : ∀ node, (next node).isSome = true → node.index < arena.size)
    {last : NodeId} (isLast : follow next arena.size slot = some last) :
    next last = none := by
  rw [← Option.not_isSome_iff_eq_none]
  intro goesOn
  obtain ⟨nodes, length, -, allGoOn, chain⟩ :=
    exists_chain_of_follow isLast goesOn
  have shorter := Arena.length_le_size (nodup_of_isChain noCircle chain)
    fun node member => inside node (allGoOn node member)
  omega

/-- After as many steps, one step more does not matter. -/
theorem follow_size
    (noCircle : WellFounded fun other node => next node = some (some other))
    (inside : ∀ node, (next node).isSome = true → node.index < arena.size)
    (goesOn : next node = some slot) :
    follow next arena.size (some node) = follow next arena.size slot := by
  rw [← follow_succ goesOn, follow_add]
  cases isLast : follow next arena.size (some node) with
  | none => rw [follow_none]
  | some last => rw [follow_of_end (follow_ends noCircle inside isLast)]

/-- Following links any further does not matter either. -/
theorem follow_of_size_le
    (noCircle : WellFounded fun other node => next node = some (some other))
    (inside : ∀ node, (next node).isSome = true → node.index < arena.size)
    {steps : Nat} (enough : arena.size ≤ steps) :
    follow next steps slot = follow next arena.size slot := by
  obtain ⟨more, rfl⟩ := Nat.exists_eq_add_of_le enough
  rw [follow_add]
  cases isLast : follow next arena.size slot with
  | none => rw [follow_none]
  | some last => exact follow_of_end (follow_ends noCircle inside isLast) more

end

/-! ## Parentheses -/

/-- What stands in the parentheses that a node is. -/
def inner? (arena : Arena) (node : NodeId) : Option Slot :=
  match arena.form? (some node) with
  | some (.parenthesized inner) => some inner
  | _ => none

theorem inner?_eq_some {node : NodeId} {inner : Slot} :
    arena.inner? node = some inner ↔
      arena.form? (some node) = some (.parenthesized inner) := by
  unfold inner?
  split
  · next found => simp [found]
  · next notParenthesized =>
      exact ⟨nofun, fun found => absurd found (notParenthesized inner)⟩

theorem isParenthesized_of_inner? {node : NodeId} (noInner : arena.inner? node = none) :
    arena.isParenthesized (some node) = false := by
  unfold isParenthesized
  split
  · next inner found =>
      rw [inner?_eq_some.mpr found] at noInner
      cases noInner
  · rfl

theorem skipParensWithin_eq_follow (steps : Nat) (slot : Slot) :
    arena.skipParensWithin steps slot = follow arena.inner? steps slot := by
  induction steps generalizing slot with
  | zero => rfl
  | succ steps ih =>
      cases slot with
      | none => simp [skipParensWithin, form?, node?]
      | some node =>
          unfold skipParensWithin
          split
          · next inner found => rw [follow_succ (inner?_eq_some.mpr found), ih]
          · next bare =>
              rw [follow_of_end]
              rw [Option.eq_none_iff_forall_ne_some]
              exact fun inner isInner => bare inner (inner?_eq_some.mp isInner)

theorem Acyclic.inner? (acyclic : arena.Acyclic) :
    WellFounded fun other node => arena.inner? node = some (some other) := by
  refine Subrelation.wf ?_ acyclic
  intro other node link
  exact ⟨_, inner?_eq_some.mp link, List.mem_singleton.mpr rfl⟩

theorem index_lt_of_inner? {node : NodeId}
    (goesOn : (arena.inner? node).isSome = true) : node.index < arena.size := by
  obtain ⟨inner, link⟩ := Option.isSome_iff_exists.mp goesOn
  exact Arena.index_lt_of_form? (inner?_eq_some.mp link)

/-- Parentheses come to an end after as many steps as the arena is long. -/
theorem Acyclic.skipParensWithin_eq (acyclic : arena.Acyclic) {steps : Nat}
    (enough : arena.size ≤ steps) (slot : Slot) :
    arena.skipParensWithin steps slot = arena.skipParens slot := by
  rw [skipParens, skipParensWithin_eq_follow, skipParensWithin_eq_follow]
  exact follow_of_size_le acyclic.inner? (fun _ => index_lt_of_inner?) enough

/-- Where there are no circles, parentheses are entered one after another. -/
theorem Acyclic.skipParens_of_parenthesized (acyclic : arena.Acyclic)
    {slot inner : Slot} (found : arena.form? slot = some (.parenthesized inner)) :
    arena.skipParens slot = arena.skipParens inner := by
  cases slot with
  | none => cases found
  | some node =>
      rw [skipParens, skipParens, skipParensWithin_eq_follow,
        skipParensWithin_eq_follow]
      exact follow_size acyclic.inner? (fun _ => index_lt_of_inner?)
        (inner?_eq_some.mpr found)

/-- Where there are no circles, all parentheses are entered. -/
theorem Acyclic.isParenthesized_skipParens (acyclic : arena.Acyclic)
    (slot : Slot) : arena.isParenthesized (arena.skipParens slot) = false := by
  rw [skipParens, skipParensWithin_eq_follow]
  cases last : follow arena.inner? arena.size slot with
  | none => rfl
  | some node =>
      exact isParenthesized_of_inner?
        (follow_ends acyclic.inner? (fun _ => index_lt_of_inner?) last)

theorem Acyclic.skipParens_skipParens (acyclic : arena.Acyclic) (slot : Slot) :
    arena.skipParens (arena.skipParens slot) = arena.skipParens slot :=
  Arena.skipParensWithin_of_not_parenthesized
    (acyclic.isParenthesized_skipParens slot) _

end BasicLowering.Source.Arena
