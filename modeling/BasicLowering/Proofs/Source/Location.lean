import BasicLowering.Proofs.Source.Acyclic
import BasicLowering.Source.Path

/-!
# Where a node stands

Below a node there may be several ways to one and the same node, because a node may be
the child of more than one other node, and a child may be missing from the arena. In an
arena without circles a node is located exactly if some way leads to it, and the path
that is found is the first of these ways in depth-first source order.
-/

namespace BasicLowering.Source

namespace Arena

variable (arena : Arena)

/-- The children of the node in a slot, in source order. -/
def childSlots (slot : Slot) : List Slot :=
  match arena.form? slot with
  | none => []
  | some form => form.children.map some

/-- Whether the levels lead from `root`, which is the first of them, down to `target`,
which is below the last of them: each level is a child of the one above it. There are no
levels above the root itself. -/
def LeadsDown (root : Slot) (levels : List Slot) (target : Slot) : Prop :=
  (levels ++ [target]).head? = some root ∧
    (levels ++ [target]).IsChain fun slot child => child ∈ arena.childSlots slot

/-- Whether one way comes before another one in source order: where they part, it goes on
to an earlier child. -/
inductive Precedes : List Slot → List Slot → Prop where
  | parts (slot : Slot) {earlier later : Slot} {way other : List Slot}
      (before : (arena.childSlots slot).idxOf earlier <
        (arena.childSlots slot).idxOf later) :
      Precedes (slot :: earlier :: way) (slot :: later :: other)
  | goesOn (slot : Slot) {way other : List Slot} (further : Precedes way other) :
      Precedes (slot :: way) (slot :: other)

variable {arena}
variable {root slot target : Slot} {levels others : List Slot}

/-! ## Ways -/

theorem mem_childSlots {child : Slot} :
    child ∈ arena.childSlots slot ↔
      ∃ node below, slot = some node ∧ child = some below ∧ arena.IsChild below node := by
  unfold childSlots IsChild
  constructor
  · intro isChild
    cases slot with
    | none => cases isChild
    | some node =>
        cases found : arena.form? (some node) with
        | none =>
            rw [found] at isChild
            cases isChild
        | some form =>
            rw [found] at isChild
            obtain ⟨below, isBelow, rfl⟩ := List.mem_map.mp isChild
            exact ⟨node, below, rfl, rfl, form, found, isBelow⟩
  · rintro ⟨node, below, rfl, rfl, form, found, isBelow⟩
    rw [found]
    exact List.mem_map.mpr ⟨below, isBelow, rfl⟩

@[simp] theorem leadsDown_nil : arena.LeadsDown root [] target ↔ target = root := by
  simp [LeadsDown]

@[simp] theorem leadsDown_cons {level : Slot} :
    arena.LeadsDown root (level :: levels) target ↔
      level = root ∧
        ∃ child ∈ arena.childSlots root, arena.LeadsDown child levels target := by
  unfold LeadsDown
  rw [List.cons_append, List.head?_cons, Option.some_inj, List.isChain_cons]
  constructor
  · rintro ⟨rfl, next, chain⟩
    refine ⟨rfl, ?_⟩
    cases isHead : (levels ++ [target]).head? with
    | none => simp at isHead
    | some child => exact ⟨child, next child isHead, rfl, chain⟩
  · rintro ⟨rfl, child, isChild, isHead, chain⟩
    refine ⟨rfl, ?_, chain⟩
    rintro next isNext
    rw [isHead] at isNext
    cases isNext
    exact isChild

/-- Some way leads to a slot exactly if it is reached from child to child. -/
theorem exists_leadsDown_iff :
    (∃ levels, arena.LeadsDown root levels target) ↔
      Relation.ReflTransGen (fun slot child => child ∈ arena.childSlots slot) root
        target := by
  constructor
  · rintro ⟨levels, leads⟩
    induction levels generalizing root with
    | nil =>
        rw [leadsDown_nil] at leads
        rw [leads]
    | cons level levels ih =>
        obtain ⟨rfl, child, isChild, further⟩ := leadsDown_cons.mp leads
        exact .head isChild (ih further)
  · intro reached
    induction reached using Relation.ReflTransGen.head_induction_on with
    | refl => exact ⟨[], leadsDown_nil.mpr rfl⟩
    | head isChild _ ih =>
        obtain ⟨levels, leads⟩ := ih
        exact ⟨_ :: levels, leadsDown_cons.mpr ⟨rfl, _, isChild, leads⟩⟩

/-- The levels of a way hold nodes, each of them a child of the one before. -/
theorem LeadsDown.exists_nodes (leads : arena.LeadsDown root levels target) :
    ∃ nodes : List NodeId, levels = nodes.map some ∧
      (∀ node ∈ nodes, node.index < arena.size) ∧
      nodes.IsChain fun node next => arena.IsChild next node := by
  induction levels generalizing root with
  | nil => exact ⟨[], rfl, by simp, .nil⟩
  | cons level levels ih =>
      obtain ⟨rfl, child, isChild, further⟩ := leadsDown_cons.mp leads
      obtain ⟨nodes, rfl, inside, chain⟩ := ih further
      obtain ⟨node, below, rfl, rfl, form, found, isBelow⟩ := mem_childSlots.mp isChild
      refine ⟨node :: nodes, rfl, ?_, ?_⟩
      · exact List.forall_mem_cons.mpr ⟨Arena.index_lt_of_form? found, inside⟩
      · rw [List.isChain_cons]
        refine ⟨?_, chain⟩
        intro next isNext
        cases nodes with
        | nil => cases isNext
        | cons first rest =>
            obtain ⟨same, -⟩ := leadsDown_cons.mp further
            cases isNext
            cases same
            exact ⟨form, found, isBelow⟩

/-- Without circles a way has no more levels than there are nodes. -/
theorem Acyclic.length_le (acyclic : arena.Acyclic)
    (leads : arena.LeadsDown root levels target) : levels.length ≤ arena.size := by
  obtain ⟨nodes, rfl, inside, chain⟩ := leads.exists_nodes
  rw [List.length_map]
  exact Arena.length_le_size (nodup_of_isChain acyclic chain) inside

/-- A way with a level at all leads to a node further down. -/
theorem LeadsDown.isBelow {level : Slot}
    (leads : arena.LeadsDown root (level :: levels) target) :
    ∃ node below, root = some node ∧ target = some below ∧
      Relation.TransGen arena.IsChild below node := by
  induction levels generalizing root level with
  | nil =>
      obtain ⟨-, child, isChild, leads⟩ := leadsDown_cons.mp leads
      obtain rfl := leadsDown_nil.mp leads
      obtain ⟨node, below, rfl, rfl, isBelow⟩ := mem_childSlots.mp isChild
      exact ⟨node, below, rfl, rfl, .single isBelow⟩
  | cons next levels ih =>
      obtain ⟨-, child, isChild, further⟩ := leadsDown_cons.mp leads
      obtain ⟨node, below, rfl, rfl, isBelow⟩ := mem_childSlots.mp isChild
      obtain ⟨_, last, same, rfl, reached⟩ := ih further
      cases same
      exact ⟨node, last, rfl, rfl, reached.tail isBelow⟩

/-- Without circles no node stands below itself. -/
theorem Acyclic.eq_nil (acyclic : arena.Acyclic)
    (leads : arena.LeadsDown target levels target) : levels = [] := by
  cases levels with
  | nil => rfl
  | cons level levels =>
      obtain ⟨node, below, rfl, same, reached⟩ := leads.isBelow
      cases same
      exact absurd reached (acyclic.transGen.irrefl.irrefl node)

/-! ## The order of ways -/

theorem Precedes.head? {way other : List Slot} (before : arena.Precedes way other) :
    way.head? = other.head? := by
  cases before <;> rfl

theorem Precedes.asymm {way other : List Slot} (before : arena.Precedes way other) :
    ¬ arena.Precedes other way := by
  induction before with
  | parts slot before =>
      intro after
      cases after with
      | parts _ after => exact Nat.lt_asymm before after
      | goesOn _ further =>
          cases further.head?
          exact Nat.lt_irrefl _ before
  | goesOn slot further ih =>
      intro after
      cases after with
      | parts _ before =>
          cases further.head?
          exact Nat.lt_irrefl _ before
      | goesOn _ after => exact ih after

/-- Whether the levels are those of the first way, in depth-first source order, that leads
from `root` down to `target`. -/
structure IsFirst (arena : Arena) (root : Slot) (levels : List Slot) (target : Slot) :
    Prop where
  leads : arena.LeadsDown root levels target
  precedes : ∀ others, arena.LeadsDown root others target → others ≠ levels →
    arena.Precedes (levels ++ [target]) (others ++ [target])

theorem IsFirst.unique (first : arena.IsFirst root levels target)
    (other : arena.IsFirst root others target) : levels = others := by
  by_contra different
  apply (first.precedes others other.leads (Ne.symm different)).asymm
  exact other.precedes levels first.leads different

/-- Without circles the way to the root itself has no levels. -/
theorem Acyclic.isFirst_nil (acyclic : arena.Acyclic) (root : Slot) :
    arena.IsFirst root [] root where
  leads := leadsDown_nil.mpr rfl
  precedes _ leads different := absurd (acyclic.eq_nil leads) different

/-- A way that goes on to an earlier child than another one comes before it. -/
theorem precedes_of_idxOf_lt {earlier later : Slot}
    (leads : arena.LeadsDown earlier levels target)
    (otherLeads : arena.LeadsDown later others target)
    (before : (arena.childSlots slot).idxOf earlier <
      (arena.childSlots slot).idxOf later) :
    arena.Precedes (slot :: levels ++ [target]) (slot :: others ++ [target]) := by
  obtain ⟨way, isWay⟩ := List.head?_eq_some_iff.mp leads.1
  obtain ⟨other, isOther⟩ := List.head?_eq_some_iff.mp otherLeads.1
  rw [List.cons_append, List.cons_append, isWay, isOther]
  exact .parts slot before

/-- The first way through a child is the first one at all if no earlier child leads
there. -/
theorem IsFirst.through {child : Slot} {earlier later : List Slot}
    (apart : slot ≠ target)
    (children : arena.childSlots slot = earlier ++ child :: later)
    (noneEarlier : ∀ other ∈ earlier, ∀ levels, ¬ arena.LeadsDown other levels target)
    (first : arena.IsFirst child levels target) :
    arena.IsFirst slot (slot :: levels) target where
  leads := by
    refine leadsDown_cons.mpr ⟨rfl, child, ?_, first.leads⟩
    rw [children]
    exact List.mem_append_right _ List.mem_cons_self
  precedes others leads different := by
    have notEarlier {next : Slot} {levels : List Slot}
        (leads : arena.LeadsDown next levels target) : next ∉ earlier :=
      fun isEarlier => noneEarlier next isEarlier levels leads
    cases others with
    | nil => exact absurd (leadsDown_nil.mp leads).symm apart
    | cons level others =>
        obtain ⟨rfl, next, isChild, further⟩ := leadsDown_cons.mp leads
        by_cases same : next = child
        · subst same
          apply Precedes.goesOn
          apply first.precedes others further
          rintro rfl
          exact different rfl
        · apply precedes_of_idxOf_lt first.leads further
          rw [children, List.idxOf_append_of_notMem (notEarlier first.leads),
            List.idxOf_append_of_notMem (notEarlier further), List.idxOf_cons_self,
            List.idxOf_cons_ne _ (Ne.symm same)]
          omega

end Arena

namespace Path

open Arena

variable {arena : Arena} {slot target : Slot}

/-! ## What is located -/

/-- Below a slot that is not looked for, the children are searched one after another. -/
theorem locateWithin?_succ (apart : slot ≠ target) (depth : Nat) (above : Path) :
    locateWithin? arena target (depth + 1) above slot =
      (arena.childSlots slot).findSome?
        (locateWithin? arena target depth (.unchanged slot :: above)) := by
  rw [locateWithin?, if_neg apart, childSlots]
  cases arena.form? slot with
  | none => rfl
  | some form => exact List.findSome?_map.symm

@[simp] theorem locateWithin?_self (depth : Nat) (above : Path) :
    locateWithin? arena target depth above target = some above := by
  cases depth <;> rw [locateWithin?, if_pos rfl]

/-- Whether a search that has come through `above` down to `slot` answers rightly: with
the first way on to `target`, or with nothing where there is none. -/
inductive Finds (arena : Arena) (target : Slot) (above : Path) (slot : Slot) :
    Option Path → Prop where
  | nothing (nowhere : ∀ levels, ¬ arena.LeadsDown slot levels target) :
      Finds arena target above slot none
  | first {levels : List Slot} (isFirst : arena.IsFirst slot levels target) :
      Finds arena target above slot (some (ofSlots levels ++ above))

/-- A search that finds nothing below a slot shows that no way leads on from there. -/
theorem Finds.nowhere {above : Path} {result : Option Path}
    (finds : Finds arena target above slot result) (missed : result = none)
    (levels : List Slot) : ¬ arena.LeadsDown slot levels target := by
  cases finds with
  | nothing nowhere => exact nowhere levels
  | first => cases missed

/-- Below a slot that is not looked for, the first answer is right if each child is
searched rightly. -/
theorem finds_findSome? (apart : slot ≠ target) (above : Path)
    {search : Slot → Option Path}
    (finds : ∀ child ∈ arena.childSlots slot,
      Finds arena target (.unchanged slot :: above) child (search child)) :
    Finds arena target above slot ((arena.childSlots slot).findSome? search) := by
  cases result : (arena.childSlots slot).findSome? search with
  | none =>
      apply Finds.nothing
      intro levels leads
      cases levels with
      | nil => exact apart (leadsDown_nil.mp leads).symm
      | cons level levels =>
          obtain ⟨-, child, isChild, further⟩ := leadsDown_cons.mp leads
          have missed := List.findSome?_eq_none_iff.mp result child isChild
          exact (finds child isChild).nowhere missed levels further
  | some path =>
      obtain ⟨earlier, child, later, children, found, missed⟩ :=
        List.findSome?_eq_some_iff.mp result
      have childFinds := finds child (by simp [children])
      rw [found] at childFinds
      cases childFinds with
      | @first levels isFirst =>
          have isPath : ofSlots levels ++ .unchanged slot :: above =
              ofSlots (slot :: levels) ++ above := by
            simp [ofSlots]
          rw [isPath]
          apply Finds.first
          apply isFirst.through apart children
          intro other isEarlier
          exact (finds other (by simp [children, isEarlier])).nowhere
            (missed other isEarlier)

/-- Where no way is longer than the depth of a search, the search answers rightly. -/
theorem finds_locateWithin? (acyclic : arena.Acyclic) (depth : Nat) (above : Path)
    (deepEnough : ∀ levels last, arena.LeadsDown slot levels last → levels.length ≤ depth) :
    Finds arena target above slot (locateWithin? arena target depth above slot) := by
  induction depth generalizing slot above with
  | zero =>
      by_cases here : slot = target
      · subst here
        rw [locateWithin?_self]
        exact .first (acyclic.isFirst_nil slot)
      · rw [locateWithin?, if_neg here]
        apply Finds.nothing
        intro levels leads
        obtain rfl := List.eq_nil_of_length_eq_zero
          (Nat.le_zero.mp (deepEnough levels target leads))
        exact here (leadsDown_nil.mp leads).symm
  | succ depth ih =>
      by_cases here : slot = target
      · subst here
        rw [locateWithin?_self]
        exact .first (acyclic.isFirst_nil slot)
      · rw [locateWithin?_succ here]
        apply finds_findSome? here
        intro child isChild
        apply ih
        intro levels last leads
        have longer := deepEnough (slot :: levels) last
          (leadsDown_cons.mpr ⟨rfl, child, isChild, leads⟩)
        exact Nat.le_of_succ_le_succ longer

/-- The slots that a path names, from the root inward. -/
def slots (path : Path) : List Slot :=
  path.fromRoot.map (·.referent)

theorem slots_ofSlots (levels : List Slot) : (ofSlots levels).slots = levels := by
  simp [slots, fromRoot, ofSlots, Function.comp_def, Step.unchanged]

theorem effective_of_mem_ofSlots {levels : List Slot} {step : Step}
    (isStep : step ∈ ofSlots levels) : step.effective = step.referent := by
  obtain ⟨slot, -, rfl⟩ := List.mem_map.mp (List.mem_reverse.mp isStep)
  rfl

theorem ofSlots_slots {path : Path}
    (unchanged : ∀ step ∈ path, step.effective = step.referent) :
    ofSlots path.slots = path := by
  have same (step : Step) (isStep : step ∈ path) : Step.unchanged step.referent = step := by
    rw [Step.unchanged]
    exact congrArg (Step.mk _) (unchanged step isStep).symm
  rw [ofSlots, slots, fromRoot, List.map_map, ← List.map_reverse, List.reverse_reverse]
  exact (List.map_congr_left same).trans (List.map_id path)

/-- Without circles a slot is located exactly if it is reached from the root through
children. The path is empty for the root itself, and otherwise leads from the root to the
parent, through slots in which nothing has been replaced. Of all the ways that lead there
it is the first in depth-first source order, and no other path is. -/
theorem located_isFirst (acyclic : arena.Acyclic) (root target : Slot) :
    ((locate? arena root target).isSome = true ↔
      Relation.ReflTransGen (fun slot child => child ∈ arena.childSlots slot) root
        target) ∧
    locate? arena root root = some [] ∧
    ∀ path : Path, locate? arena root target = some path ↔
      (∀ step ∈ path, step.effective = step.referent) ∧
        arena.IsFirst root path.slots target := by
  have finds : Finds arena target [] root (locate? arena root target) :=
    finds_locateWithin? acyclic arena.size [] fun _ _ => acyclic.length_le
  rw [← exists_leadsDown_iff]
  generalize locate? arena root target = result at finds ⊢
  refine ⟨?_, locateWithin?_self _ _, ?_⟩
  · cases finds with
    | nothing nowhere => simpa using nowhere
    | first isFirst => exact iff_of_true rfl ⟨_, isFirst.leads⟩
  · intro path
    cases finds with
    | nothing nowhere =>
        apply iff_of_false (by simp)
        rintro ⟨-, isFirst⟩
        exact nowhere _ isFirst.leads
    | first first =>
        rw [List.append_nil, Option.some_inj]
        constructor
        · rintro rfl
          rw [slots_ofSlots]
          exact ⟨fun _ => effective_of_mem_ofSlots, first⟩
        · rintro ⟨unchanged, isFirst⟩
          rw [first.unique isFirst, ofSlots_slots unchanged]

/-- `((y) AndAlso (x)) OrElse x`, in which both places of `x` are one node. -/
def sharedName : Arena where
  nodes := #[
    { form := .identifier "x" },
    { form := .identifier "y" },
    { form := .parenthesized (some ⟨1⟩) },
    { form := .parenthesized (some ⟨0⟩) },
    { form := .binary (some ⟨2⟩) .andAlso (some ⟨3⟩) },
    { form := .binary (some ⟨4⟩) .orElse (some ⟨0⟩) }]

/-- The name is located in the left operand, below the parentheses that are searched
second, although it also is the right operand itself. -/
theorem sharedName_located :
    sharedName.Acyclic ∧
      locate? sharedName (some ⟨5⟩) (some ⟨0⟩) =
        some (ofSlots [some ⟨5⟩, some ⟨4⟩, some ⟨3⟩]) ∧
      sharedName.IsFirst (some ⟨5⟩) [some ⟨5⟩, some ⟨4⟩, some ⟨3⟩] (some ⟨0⟩) ∧
      sharedName.LeadsDown (some ⟨5⟩) [some ⟨5⟩] (some ⟨0⟩) := by
  have acyclic : sharedName.Acyclic := acyclic_of_childrenFirst (by decide)
  have found : locate? sharedName (some ⟨5⟩) (some ⟨0⟩) =
      some (ofSlots [some ⟨5⟩, some ⟨4⟩, some ⟨3⟩]) := by
    decide
  obtain ⟨-, -, isLocated⟩ := located_isFirst acyclic (some ⟨5⟩) (some ⟨0⟩)
  refine ⟨acyclic, found, ((isLocated _).mp found).2, ?_⟩
  exact leadsDown_cons.mpr ⟨rfl, some ⟨0⟩, by decide, leadsDown_nil.mpr rfl⟩

end Path

end BasicLowering.Source
