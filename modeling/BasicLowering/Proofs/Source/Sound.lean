import BasicLowering.Proofs.Source.Acyclic
import BasicLowering.Proofs.Source.Growth

/-!
# Sound arenas

In a sound arena every child and every origin is a node of the arena, and neither
leads in a circle. Nodes that are added over nodes of the arena keep it sound.
Whatever is asked about a node of a sound arena, by way of its children and its
origins, has the same answer once nodes have been added.
-/

namespace BasicLowering.Source

namespace Arena

/-- The node that the node in a slot stands for, if it replaces one. -/
def origin? (arena : Arena) (slot : Slot) : Slot :=
  (arena.node? slot).bind (·.origin)

/-- Whether a node replaces another one. -/
def IsOrigin (arena : Arena) (origin node : NodeId) : Prop :=
  arena.origin? (some node) = some origin

/-- Whether children and origins are nodes of the arena and lead nowhere in a
circle. -/
structure Sound (arena : Arena) : Prop where
  children : ∀ slot form, arena.form? slot = some form →
    ∀ child ∈ form.children, arena.holds (some child) = true
  origins : ∀ slot origin, arena.origin? slot = some origin →
    arena.holds (some origin) = true
  acyclic : arena.Acyclic
  originsEnd : WellFounded arena.IsOrigin

section

variable {arena : Arena} {slot : Slot}

theorem holds_of_form? {form : Form} (found : arena.form? slot = some form) :
    arena.holds slot = true := by
  obtain ⟨node, isNode, -⟩ := Option.map_eq_some_iff.mp found
  simp [holds, isNode]

theorem mem_nodes_of_node? {node : Node} (isNode : arena.node? slot = some node) :
    node ∈ arena.nodes.toList := by
  obtain ⟨id, -, isThere⟩ := Option.bind_eq_some_iff.mp isNode
  exact Array.mem_toList_iff.mpr (Array.mem_of_getElem? isThere)

theorem exists_node (held : arena.holds slot = true) :
    ∃ node, arena.node? slot = some node :=
  Option.isSome_iff_exists.mp held

theorem exists_form (held : arena.holds slot = true) :
    ∃ form, arena.form? slot = some form := by
  obtain ⟨node, isNode⟩ := exists_node held
  exact ⟨node.form, by simp [form?, isNode]⟩

theorem Grows.holds {before after : Arena} (grows : before.Grows after)
    (held : before.holds slot = true) : after.holds slot = true := by
  obtain ⟨node, isNode⟩ := exists_node held
  simp [Arena.holds, grows slot node isNode]

theorem Grows.form?_eq {before after : Arena} (grows : before.Grows after)
    (held : before.holds slot = true) : after.form? slot = before.form? slot := by
  obtain ⟨node, isNode⟩ := exists_node held
  simp [Arena.form?, isNode, grows slot node isNode]

theorem Grows.size_le {before after : Arena} (grows : before.Grows after) :
    before.size ≤ after.size := by
  by_contra shorter
  have held : before.holds (some ⟨after.size⟩) = true := by
    have inside : after.size < before.nodes.size := Nat.lt_of_not_le shorter
    simp [Arena.holds, node?, Array.getElem?_eq_getElem inside]
  have missing : after.holds (some ⟨after.size⟩) = false := by
    simp [Arena.holds, node?_next]
  rw [grows.holds held] at missing
  cases missing

theorem Grows.origin?_eq {before after : Arena} (grows : before.Grows after)
    (held : before.holds slot = true) :
    after.origin? slot = before.origin? slot := by
  obtain ⟨node, isNode⟩ := exists_node held
  simp [Arena.origin?, isNode, grows slot node isNode]

end

/-! ## Parentheses and origins -/

section

variable {arena : Arena} {slot : Slot}

theorem skipParens_of_bare (bare : arena.isParenthesized slot = false) :
    arena.skipParens slot = slot :=
  Arena.skipParensWithin_of_not_parenthesized bare _

/-- The link from a replacement to what it replaces. -/
def originLink? (arena : Arena) (node : NodeId) : Option Slot :=
  (arena.origin? (some node)).map some

theorem standsForWithin_eq_follow (steps : Nat) (slot : Slot) :
    arena.standsForWithin steps slot =
      follow arena.originLink? steps slot := by
  induction steps generalizing slot with
  | zero => rfl
  | succ steps ih =>
      cases slot with
      | none => simp [standsForWithin, node?]
      | some node =>
          unfold standsForWithin
          split
          · next origin _ found =>
              have link : arena.originLink? node = some (some origin) := by
                simp [originLink?, origin?, found]
              rw [follow_succ link, ih]
          · next parsed =>
              rw [follow_of_end]
              cases found : arena.node? (some node) with
              | none => simp [originLink?, origin?, found]
              | some held =>
                  cases replaced : held.origin with
                  | none => simp [originLink?, origin?, found, replaced]
                  | some origin =>
                      exact absurd found fun same => parsed held.span
                        held.trivia origin held.form (by rw [same, ← replaced])

theorem originLinks (originsEnd : WellFounded arena.IsOrigin) :
    WellFounded fun other node => arena.originLink? node = some (some other) := by
  refine Subrelation.wf ?_ originsEnd
  intro other node link
  simpa [originLink?, IsOrigin] using link

theorem index_lt_of_originLink? {node : NodeId}
    (goesOn : (arena.originLink? node).isSome = true) : node.index < arena.size := by
  have isNode : (arena.node? (some node)).isSome = true := by
    by_contra missing
    simp_all [originLink?, origin?]
  exact Arena.index_lt_of_holds isNode

/-- A replacement stands for what the node that it replaces stands for. -/
theorem standsFor_of_origin (originsEnd : WellFounded arena.IsOrigin)
    {origin : NodeId} (replaces : arena.origin? slot = some origin) :
    arena.standsFor slot = arena.standsFor (some origin) := by
  cases slot with
  | none => cases replaces
  | some node =>
      rw [standsFor, standsFor, standsForWithin_eq_follow,
        standsForWithin_eq_follow]
      exact follow_size (originLinks originsEnd) (fun _ => index_lt_of_originLink?)
        (by simp [originLink?, replaces])

theorem Sound.standsFor_of_origin (sound : arena.Sound) {origin : NodeId}
    (replaces : arena.origin? slot = some origin) :
    arena.standsFor slot = arena.standsFor (some origin) :=
  Arena.standsFor_of_origin sound.originsEnd replaces

/-- Origins come to an end after as many steps as the arena is long. -/
theorem Sound.standsForWithin_eq (sound : arena.Sound) {steps : Nat}
    (enough : arena.size ≤ steps) (slot : Slot) :
    arena.standsForWithin steps slot = arena.standsFor slot := by
  rw [standsFor, standsForWithin_eq_follow, standsForWithin_eq_follow]
  exact follow_of_size_le (originLinks sound.originsEnd)
    (fun _ => index_lt_of_originLink?) enough

/-- A parsed node stands for itself. -/
theorem standsFor_of_parsed (parsed : arena.origin? slot = none) :
    arena.standsFor slot = slot := by
  rw [standsFor, standsForWithin_eq_follow]
  cases slot with
  | none => rw [follow_none]
  | some node => rw [follow_of_end (by simp [originLink?, parsed])]

end

/-! ## Depth -/

/-- Whether no chain of children from a slot has more nodes than given. -/
def HasDepth (arena : Arena) (depth : Nat) (slot : Slot) : Prop :=
  ∀ nodes : List NodeId, slot = nodes.head? →
    (∀ node ∈ nodes, arena.holds (some node) = true) →
    nodes.IsChain (fun node child => arena.IsChild child node) →
    nodes.length ≤ depth

section

variable {arena : Arena} {slot : Slot} {depth : Nat}

/-- No chain is longer than the arena. -/
theorem Acyclic.hasDepth (acyclic : arena.Acyclic) (slot : Slot)
    (enough : arena.size ≤ depth) : arena.HasDepth depth slot := by
  intro nodes _ held chain
  refine Nat.le_trans ?_ enough
  exact Arena.length_le_size (nodup_of_isChain acyclic chain)
    fun node member => Arena.index_lt_of_holds (held node member)

theorem hasDepth_none (arena : Arena) (depth : Nat) :
    arena.HasDepth depth none := by
  intro nodes isFirst _ _
  rw [List.head?_eq_none_iff.mp isFirst.symm]
  exact Nat.zero_le depth

theorem HasDepth.child {form : Form} {child : NodeId}
    (hasDepth : arena.HasDepth (depth + 1) slot)
    (found : arena.form? slot = some form) (isChild : child ∈ form.children) :
    arena.HasDepth depth (some child) := by
  cases slot with
  | none => cases found
  | some node =>
      intro nodes isFirst held chain
      have longer := hasDepth (node :: nodes) rfl
        (List.forall_mem_cons.mpr ⟨holds_of_form? found, held⟩) ?_
      · simpa using longer
      · rw [List.isChain_cons]
        refine ⟨?_, chain⟩
        intro head isHead
        obtain rfl : child = head := by
          rw [Option.mem_def.mp isHead] at isFirst
          exact Option.some.inj isFirst
        exact ⟨form, found, isChild⟩

theorem HasDepth.missing (hasDepth : arena.HasDepth 0 slot) :
    arena.form? slot = none := by
  cases slot with
  | none => rfl
  | some node =>
      rw [Option.eq_none_iff_forall_ne_some]
      intro form found
      have short := hasDepth [node] rfl
        (List.forall_mem_singleton.mpr (holds_of_form? found)) (.singleton node)
      simp at short

theorem HasDepth.mono {more : Nat} (hasDepth : arena.HasDepth depth slot)
    (enough : depth ≤ more) : arena.HasDepth more slot :=
  fun nodes isFirst held chain =>
    Nat.le_trans (hasDepth nodes isFirst held chain) enough

/-- A child that is absent has any depth. -/
theorem HasDepth.ofSlot {form : Form} {child : Slot}
    (hasDepth : arena.HasDepth (depth + 1) slot)
    (found : arena.form? slot = some form) (isSlot : child ∈ form.slots) :
    arena.HasDepth depth child := by
  cases child with
  | none => exact hasDepth_none arena depth
  | some node =>
      exact hasDepth.child found (List.mem_filterMap.mpr ⟨some node, isSlot, rfl⟩)

/-- What is in parentheses is no deeper than they are. -/
theorem HasDepth.skipParens (hasDepth : arena.HasDepth depth slot) :
    arena.HasDepth depth (arena.skipParens slot) := by
  have within (steps : Nat) (slot : Slot) (hasDepth : arena.HasDepth depth slot) :
      arena.HasDepth depth (arena.skipParensWithin steps slot) := by
    induction steps generalizing slot with
    | zero => exact hasDepth
    | succ steps ih =>
        rw [skipParensWithin]
        split
        · next inner found =>
            refine ih inner ?_
            cases depth with
            | zero => cases hasDepth.missing.symm.trans found
            | succ depth =>
                have below := hasDepth.ofSlot found (List.mem_singleton.mpr rfl)
                exact below.mono (Nat.le_succ depth)
        · exact hasDepth
  exact within arena.size slot hasDepth

end

/-! ## Growing -/

section

variable {before after : Arena} {slot : Slot}

theorem Grows.isParenthesized_eq (grows : before.Grows after)
    (held : before.holds slot = true) :
    after.isParenthesized slot = before.isParenthesized slot := by
  simp only [isParenthesized, grows.form?_eq held]

/-- Origins of nodes stay what they are. -/
theorem Grows.standsFor_eq (grows : before.Grows after) (sound : before.Sound)
    (held : before.holds slot = true) : after.standsFor slot = before.standsFor slot := by
  have sameSteps (steps : Nat) : after.standsForWithin steps slot =
      before.standsForWithin steps slot := by
    induction steps generalizing slot with
    | zero => rfl
    | succ steps ih =>
        obtain ⟨node, isNode⟩ := exists_node held
        rw [standsForWithin, standsForWithin, grows slot node isNode, isNode]
        obtain ⟨span, trivia, origin, form⟩ := node
        cases origin with
        | none => rfl
        | some origin =>
            refine ih (sound.origins slot origin ?_)
            rw [origin?, isNode, Option.bind_some]
  rw [standsFor, sameSteps, sound.standsForWithin_eq grows.size_le]

/-- Parentheses around nodes stay what they are. -/
theorem Grows.skipParens_eq (grows : before.Grows after) (sound : before.Sound)
    (soundAfter : after.Sound) (held : before.holds slot = true) :
    after.skipParens slot = before.skipParens slot := by
  cases slot with
  | none => cases held
  | some node =>
      induction node using sound.acyclic.induction with
      | _ node ih =>
          have same := grows.form?_eq held
          cases parenthesized : before.inner? node with
          | none =>
              have bare := isParenthesized_of_inner? parenthesized
              rw [skipParens_of_bare bare, skipParens_of_bare]
              rw [grows.isParenthesized_eq held, bare]
          | some inner =>
              have found := inner?_eq_some.mp parenthesized
              rw [sound.acyclic.skipParens_of_parenthesized found,
                soundAfter.acyclic.skipParens_of_parenthesized
                  (same.trans found)]
              cases inner with
              | none => rw [skipParens_of_bare rfl, skipParens_of_bare rfl]
              | some inner =>
                  have isChild : inner ∈ (Form.parenthesized inner).children :=
                    List.mem_singleton.mpr rfl
                  exact ih inner ⟨_, found, isChild⟩
                    (sound.children _ _ found inner isChild)

end

/-- Parentheses lead to a node. -/
theorem Sound.holds_skipParens {arena : Arena} (sound : arena.Sound)
    {slot : Slot} {inner : NodeId} (held : arena.holds slot = true)
    (isInner : arena.skipParens slot = some inner) :
    arena.holds (some inner) = true := by
  cases slot with
  | none => cases held
  | some node =>
      induction node using sound.acyclic.induction with
      | _ node ih =>
          cases parenthesized : arena.inner? node with
          | none =>
              have bare := isParenthesized_of_inner? parenthesized
              rw [skipParens_of_bare bare] at isInner
              exact isInner ▸ held
          | some below =>
              have found := inner?_eq_some.mp parenthesized
              rw [sound.acyclic.skipParens_of_parenthesized found] at isInner
              cases below with
              | none =>
                  rw [skipParens_of_bare rfl] at isInner
                  cases isInner
              | some below =>
                  have isChild : below ∈ (Form.parenthesized below).children :=
                    List.mem_singleton.mpr rfl
                  exact ih below ⟨_, found, isChild⟩
                    (sound.children _ _ found below isChild) isInner

/-! ## Adding -/

/-- Whether an arena has one node more than another one, with the given form and in
place of the given node. -/
structure Adds (before after : Arena) (added : NodeId) (form : Form)
    (origin : Slot) : Prop where
  isNext : added = ⟨before.size⟩
  size : after.size = before.size + 1
  others : ∀ slot, slot ≠ some added → after.node? slot = before.node? slot
  exists_node : ∃ node, after.node? (some added) = some node ∧
    node.form = form ∧ node.origin = origin

theorem adds_add (arena : Arena) (node : Node) :
    arena.Adds (arena.add node).2 (arena.add node).1 node.form node.origin where
  isNext := rfl
  size := arena.size_add node
  others slot isOther := by rw [node?_add, if_neg isOther]
  exists_node := ⟨node, arena.node?_add_self node, rfl, rfl⟩

/-- Links that lead to nodes of an arena lead nowhere in a circle when they are
followed from one node more. -/
theorem wellFounded_of_added {before after : NodeId → NodeId → Prop}
    (added : NodeId) (noCircle : WellFounded before)
    (same : ∀ other node, node ≠ added → after other node → before other node)
    (old : ∀ other, after other added → other ≠ added)
    (stays : ∀ other node, before other node → other ≠ added) :
    WellFounded after := by
  have fromOld (node : NodeId) (isOld : node ≠ added) : Acc after node := by
    induction node using noCircle.induction with
    | _ node ih =>
        refine ⟨_, fun other link => ?_⟩
        have earlier := same other node isOld link
        exact ih other earlier (stays other node earlier)
  refine ⟨fun node => ?_⟩
  by_cases isAdded : node = added
  · subst isAdded
    exact ⟨_, fun other link => fromOld other (old other link)⟩
  · exact fromOld node isAdded

namespace Adds

variable {before after : Arena} {added : NodeId} {form : Form} {origin : Slot}

section

variable (adds : before.Adds after added form origin)

include adds

theorem not_holds : before.holds (some added) = false := by
  simp [holds, adds.isNext, node?_next]

theorem ne_added {slot : Slot} (held : before.holds slot = true) :
    slot ≠ some added := by
  rintro rfl
  rw [adds.not_holds] at held
  cases held

theorem grows : before.Grows after := by
  intro slot node found
  rw [adds.others slot (adds.ne_added (by simp [holds, found])), found]

theorem form? : after.form? (some added) = some form := by
  obtain ⟨node, found, rfl, -⟩ := adds.exists_node
  simp [Arena.form?, found]

theorem origin? : after.origin? (some added) = origin := by
  obtain ⟨node, found, -, rfl⟩ := adds.exists_node
  simp [Arena.origin?, found]

theorem holds : after.holds (some added) = true :=
  holds_of_form? adds.form?

theorem form?_of_ne {slot : Slot} (isOther : slot ≠ some added) :
    after.form? slot = before.form? slot := by
  rw [Arena.form?, adds.others slot isOther, Arena.form?]

theorem origin?_of_ne {slot : Slot} (isOther : slot ≠ some added) :
    after.origin? slot = before.origin? slot := by
  rw [Arena.origin?, adds.others slot isOther, Arena.origin?]

/-- A node over nodes of a sound arena keeps it sound. -/
theorem sound (sound : before.Sound)
    (children : ∀ child ∈ form.children, before.holds (some child) = true)
    (origins : ∀ other, origin = some other →
      before.holds (some other) = true) : after.Sound := by
  have isOld {other : NodeId} (held : before.holds (some other) = true) :
      other ≠ added := by
    simpa using adds.ne_added held
  constructor
  · intro slot other found child isChild
    by_cases isAdded : slot = some added
    · subst isAdded
      cases adds.form?.symm.trans found
      exact adds.grows.holds (children child isChild)
    · rw [adds.form?_of_ne isAdded] at found
      exact adds.grows.holds (sound.children slot other found child isChild)
  · intro slot other found
    by_cases isAdded : slot = some added
    · subst isAdded
      exact adds.grows.holds (origins other (adds.origin?.symm.trans found))
    · rw [adds.origin?_of_ne isAdded] at found
      exact adds.grows.holds (sound.origins slot other found)
  · refine wellFounded_of_added added sound.acyclic ?_ ?_ ?_
    · rintro other parent isOther ⟨found, isFound, isChild⟩
      rw [adds.form?_of_ne (by simpa using isOther)] at isFound
      exact ⟨found, isFound, isChild⟩
    · rintro other ⟨found, isFound, isChild⟩
      cases adds.form?.symm.trans isFound
      exact isOld (children other isChild)
    · rintro other parent ⟨found, isFound, isChild⟩
      exact isOld (sound.children _ found isFound other isChild)
  · refine wellFounded_of_added added sound.originsEnd ?_ ?_ ?_
    · intro other replacement isOther isOrigin
      rwa [IsOrigin, adds.origin?_of_ne (by simpa using isOther)] at isOrigin
    · intro other isOrigin
      exact isOld (origins other (adds.origin?.symm.trans isOrigin))
    · intro other replacement isOrigin
      exact isOld (sound.origins _ other isOrigin)

/-- The blanks and comments before the node are of no matter. -/
theorem setTrivia (trivia : String) :
    before.Adds (after.setTrivia (some added) trivia) added form origin where
  isNext := adds.isNext
  size := by rw [size_setTrivia, adds.size]
  others slot isOther := by
    rw [node?_setTrivia, if_neg isOther, adds.others slot isOther]
  exists_node := by
    obtain ⟨node, found, isForm, isOrigin⟩ := adds.exists_node
    refine ⟨{ node with trivia }, ?_, isForm, isOrigin⟩
    rw [node?_setTrivia, if_pos rfl, found, Option.map_some]

end

/-- A node without children that replaces no other one keeps an arena sound. -/
theorem sound_of_leaf {before after : Arena} {added : NodeId} {form : Form}
    (adds : before.Adds after added form none) (sound : before.Sound)
    (isLeaf : form.children = []) : after.Sound := by
  refine adds.sound sound (fun child isChild => ?_) fun other isOther => ?_
  · rw [isLeaf] at isChild
    cases isChild
  · cases isOther

end Adds

theorem holds_of_index_lt {arena : Arena} {node : NodeId}
    (inside : node.index < arena.size) : arena.holds (some node) = true := by
  have found := Array.getElem?_eq_getElem inside
  simp [holds, node?, found]

/-- Where children and origins were made before the nodes that have them, an arena
is sound. -/
theorem sound_of_earlier {arena : Arena}
    (earlier : ∀ node ∈ arena.nodes.toList.zipIdx,
      (∀ child ∈ node.1.form.children, child.index < node.2) ∧
        ∀ origin ∈ node.1.origin, origin.index < node.2) : arena.Sound := by
  have earlierThan {slot : NodeId} {node : Node}
      (isNode : arena.node? (some slot) = some node) :
      (∀ child ∈ node.form.children, child.index < slot.index) ∧
        ∀ origin ∈ node.origin, origin.index < slot.index := by
    refine earlier (node, slot.index) ?_
    rw [List.mem_zipIdx_iff_getElem?]
    simpa [node?] using isNode
  have held {slot other : NodeId} {node : Node}
      (isNode : arena.node? (some slot) = some node)
      (less : other.index < slot.index) : arena.holds (some other) = true :=
    holds_of_index_lt (Nat.lt_trans less
      (Arena.index_lt_of_holds (by simp [holds, isNode])))
  constructor
  · rintro (_ | slot) form found child isChild
    · cases found
    · obtain ⟨node, isNode, rfl⟩ := Option.map_eq_some_iff.mp found
      exact held isNode ((earlierThan isNode).1 child isChild)
  · rintro (_ | slot) origin found
    · cases found
    · obtain ⟨node, isNode, isOrigin⟩ := Option.bind_eq_some_iff.mp found
      exact held isNode ((earlierThan isNode).2 origin isOrigin)
  · exact acyclic_of_childrenFirst fun node isNode =>
      (earlier node isNode).1
  · refine Subrelation.wf ?_ (InvImage.wf NodeId.index Nat.lt_wfRel.wf)
    intro origin slot found
    obtain ⟨node, isNode, isOrigin⟩ := Option.bind_eq_some_iff.mp found
    exact (earlierThan isNode).2 origin isOrigin

end Arena

namespace Building

variable (arena : Arena)

theorem adds_parsed (form : Form) :
    arena.Adds (parsed form arena).2 (parsed form arena).1 form none :=
  arena.adds_add _

theorem adds_synthesize (origin : Slot) (form : Form) :
    arena.Adds (synthesize origin form arena).2 (synthesize origin form arena).1
      form origin :=
  arena.adds_add _

/-- Whether a slot refers to a node or to a copy of it that has just been made. -/
inductive IsCopy (before after : Arena) (slot : Slot) : Slot → Prop
  | same (unchanged : after = before) : IsCopy before after slot slot
  | copy {copied : NodeId} {form : Form} (found : before.form? slot = some form)
      (adds : before.Adds after copied form slot) :
      IsCopy before after slot (some copied)

theorem Copies.isCopy {slot : Slot} {made : Slot × Arena}
    (copies : Copies arena slot made) : IsCopy arena made.2 slot made.1 := by
  cases copies with
  | same => exact .same rfl
  | copy found =>
      exact .copy (by simp [Arena.form?, found]) (arena.adds_add _)

theorem isCopy_withoutTrivia (slot : Slot) :
    IsCopy arena (withoutTrivia slot arena).2 slot
      (withoutTrivia slot arena).1 :=
  (copies_withoutTrivia slot arena).isCopy

theorem isCopy_withPrependedTrivia (slot : Slot) (trivia : String) :
    IsCopy arena (withPrependedTrivia slot trivia arena).2 slot
      (withPrependedTrivia slot trivia arena).1 :=
  (copies_withPrependedTrivia slot trivia arena).isCopy

namespace IsCopy

variable {before after : Arena} {slot copied : Slot}

theorem grows (isCopy : IsCopy before after slot copied) :
    before.Grows after := by
  cases isCopy with
  | same unchanged => rw [unchanged]; exact .refl before
  | copy _ adds => exact adds.grows

theorem form?_eq (isCopy : IsCopy before after slot copied) :
    after.form? copied = before.form? slot := by
  cases isCopy with
  | same unchanged => rw [unchanged]
  | copy found adds => rw [adds.form?, found]

theorem holds (isCopy : IsCopy before after slot copied)
    (held : before.holds slot = true) : after.holds copied = true := by
  cases isCopy with
  | same unchanged => rw [unchanged]; exact held
  | copy _ adds => exact adds.holds

theorem sound (isCopy : IsCopy before after slot copied)
    (sound : before.Sound) : after.Sound := by
  cases isCopy with
  | same unchanged => rw [unchanged]; exact sound
  | copy found adds =>
      refine adds.sound sound (sound.children slot _ found) ?_
      rintro other rfl
      exact Arena.holds_of_form? found

end IsCopy

end Building

end BasicLowering.Source
