import BasicLowering.Binding.Model
import Mathlib.Data.List.Induction

/-!
# Scopes

The innermost declaration around a position. Its scope is the shortest of those that
contain the position, and of equally short ones the one that was registered last. Where
scopes are nested in each other, as the bodies of declarations are, the shortest one lies
in all the others.
-/

namespace BasicLowering.Binding

open Source (Span)

/-- A model in which the bodies of the given declarations, and no others, have been
registered one after another. -/
def Model.withScopes (model : Model) (scopes : List Scope) : Model :=
  scopes.foldl (fun model scope => model.addScope scope.span scope.symbol)
    { model with scopes := [] }

theorem Model.scopes_withScopes (model : Model) (scopes : List Scope) :
    (model.withScopes scopes).scopes = scopes.reverse := by
  induction scopes using List.reverseRecOn with
  | nil => rfl
  | append_singleton scopes scope ih =>
      rw [withScopes, List.foldl_append, ← withScopes, List.reverse_append]
      exact congrArg (scope :: ·) ih

namespace Scope

/-- Whether a position lies in the body of a declaration. -/
def Encloses (scope : Scope) (position : UInt32) : Prop :=
  scope.span.start ≤ position ∧ position < scope.span.stop

/-- The distance from where a body starts to where it stops. -/
def width (scope : Scope) : Nat :=
  scope.span.stop.toNat - scope.span.start.toNat

/-- Whether a body lies in another one. -/
def LiesIn (scope other : Scope) : Prop :=
  other.span.start ≤ scope.span.start ∧ scope.span.stop ≤ other.span.stop

/-- Whether one of the scopes, which were registered in this order, is the shortest around
a position, and the last one of those that are equally short. -/
structure IsInnermost (scopes : List Scope) (position : UInt32) (chosen : Scope) : Prop where
  encloses : chosen.Encloses position
  shortest : ∃ earlier later, scopes = earlier ++ chosen :: later ∧
    (∀ other ∈ earlier, other.Encloses position → chosen.width ≤ other.width) ∧
    ∀ other ∈ later, other.Encloses position → chosen.width < other.width

variable {scope chosen other : Scope} {scopes : List Scope} {position : UInt32}

theorem encloses_iff : scope.Encloses position ↔ scope.span.contains position = true := by
  simp [Encloses, Span.contains]

/-! ## Lengths -/

/-- A scope around a position does not stop before it starts, so that its length is what
the subtraction of the two offsets yields. -/
theorem Encloses.length_eq (encloses : scope.Encloses position) :
    scope.span.start ≤ scope.span.stop ∧ scope.length.toNat = scope.width := by
  obtain ⟨early, late⟩ := encloses
  have ordered : scope.span.start ≤ scope.span.stop := by
    rw [UInt32.le_iff_toNat_le] at early ⊢
    rw [UInt32.lt_iff_toNat_lt] at late
    omega
  exact ⟨ordered, UInt32.toNat_sub_of_le _ _ ordered⟩

theorem Encloses.length_lt_iff (encloses : scope.Encloses position)
    (otherEncloses : other.Encloses position) :
    scope.length < other.length ↔ scope.width < other.width := by
  rw [UInt32.lt_iff_toNat_lt, encloses.length_eq.2, otherEncloses.length_eq.2]

/-- A scope that lies in another one and is not shorter is the same range. -/
theorem LiesIn.symm_of_width_le (inside : scope.LiesIn other)
    (encloses : scope.Encloses position) (notShorter : other.width ≤ scope.width) :
    other.LiesIn scope := by
  obtain ⟨startsLater, stopsEarlier⟩ := inside
  obtain ⟨early, late⟩ := encloses
  simp only [LiesIn, width, UInt32.le_iff_toNat_le, UInt32.lt_iff_toNat_lt] at *
  omega

/-! ## The shortest scope -/

theorem shortest?_eq_none_iff : shortest? scopes = none ↔ scopes = [] := by
  cases scopes with
  | nil => simp [shortest?]
  | cons scope rest =>
      simp only [shortest?, reduceCtorEq, iff_false]
      cases shortest? rest with
      | none => simp
      | some other => by_cases shorter : other.length < scope.length <;> simp [shorter]

/-- The scope that is found is shorter than those before it, and no longer than those
behind it. -/
theorem shortest?_eq_some_iff :
    shortest? scopes = some chosen ↔
      ∃ front back, scopes = front ++ chosen :: back ∧
        (∀ other ∈ front, chosen.length < other.length) ∧
        ∀ other ∈ back, chosen.length ≤ other.length := by
  induction scopes generalizing chosen with
  | nil => simp [shortest?]
  | cons scope rest ih =>
      constructor
      · intro found
        rw [shortest?] at found
        cases further : shortest? rest with
        | none =>
            rw [further] at found
            cases found
            cases shortest?_eq_none_iff.mp further
            exact ⟨[], [], rfl, by simp, by simp⟩
        | some other =>
            obtain ⟨front, back, rfl, inFront, behind⟩ := ih.mp further
            simp only [further] at found
            by_cases shorter : other.length < scope.length
            · rw [if_pos shorter] at found
              cases found
              exact ⟨scope :: front, back, rfl, List.forall_mem_cons.mpr ⟨shorter, inFront⟩,
                behind⟩
            · rw [if_neg shorter] at found
              cases found
              have noLonger := UInt32.not_lt.mp shorter
              refine ⟨[], _, rfl, by simp, ?_⟩
              intro further isFurther
              rw [List.mem_append, List.mem_cons] at isFurther
              obtain isInFront | rfl | isBehind := isFurther
              · exact UInt32.le_trans noLonger (UInt32.le_of_lt (inFront further isInFront))
              · exact noLonger
              · exact UInt32.le_trans noLonger (behind further isBehind)
      · rintro ⟨front, back, split, inFront, behind⟩
        rw [shortest?]
        cases front with
        | nil =>
            cases split
            cases further : shortest? rest with
            | none => rfl
            | some other =>
                obtain ⟨_, _, isRest, -⟩ := ih.mp further
                have isBehind : other ∈ rest := by
                  rw [isRest]
                  exact List.mem_append_right _ List.mem_cons_self
                exact if_neg (UInt32.not_lt.mpr (behind other isBehind))
        | cons first front =>
            cases split
            obtain ⟨shorter, inFront⟩ := List.forall_mem_cons.mp inFront
            rw [ih.mpr ⟨front, back, rfl, inFront, behind⟩]
            exact if_pos shorter

/-! ## The innermost scope -/

/-- Among the scopes that contain a position the first of the shortest, counted from the
one that was registered last, is the innermost one. -/
theorem shortest?_filter_reverse_iff :
    shortest? (scopes.reverse.filter (·.span.contains position)) = some chosen ↔
      IsInnermost scopes position chosen := by
  rw [shortest?_eq_some_iff]
  constructor
  · rintro ⟨front, back, split, inFront, behind⟩
    obtain ⟨latest, others, isReverse, rfl, isRest⟩ := List.filter_eq_append_iff.mp split
    obtain ⟨apart, earliest, rfl, noneApart, encloses, rfl⟩ :=
      List.filter_eq_cons_iff.mp isRest
    have encloses := encloses_iff.mpr encloses
    have inOrder : scopes = earliest.reverse ++ chosen :: (latest ++ apart).reverse := by
      rw [← List.reverse_reverse scopes, isReverse]
      simp
    refine ⟨encloses, earliest.reverse, (latest ++ apart).reverse, inOrder, ?_, ?_⟩
    · intro other isEarlier otherEncloses
      have noLonger := behind other
        (List.mem_filter.mpr ⟨List.mem_reverse.mp isEarlier, encloses_iff.mp otherEncloses⟩)
      exact Nat.le_of_not_lt fun shorter => UInt32.not_lt.mpr noLonger
        ((otherEncloses.length_lt_iff encloses).mpr shorter)
    · intro other isLater otherEncloses
      obtain isLatest | isApart := List.mem_append.mp (List.mem_reverse.mp isLater)
      · apply (encloses.length_lt_iff otherEncloses).mp
        exact inFront other (List.mem_filter.mpr ⟨isLatest, encloses_iff.mp otherEncloses⟩)
      · exact absurd (encloses_iff.mp otherEncloses) (noneApart other isApart)
  · rintro ⟨encloses, earlier, later, rfl, notShorter, longer⟩
    refine ⟨later.reverse.filter (·.span.contains position),
      earlier.reverse.filter (·.span.contains position), ?_, ?_, ?_⟩
    · simp [encloses_iff.mp encloses]
    · intro other isLater
      obtain ⟨isLater, contains⟩ := List.mem_filter.mp isLater
      have otherEncloses := encloses_iff.mpr contains
      exact (encloses.length_lt_iff otherEncloses).mpr
        (longer other (List.mem_reverse.mp isLater) otherEncloses)
    · intro other isEarlier
      obtain ⟨isEarlier, contains⟩ := List.mem_filter.mp isEarlier
      have otherEncloses := encloses_iff.mpr contains
      apply UInt32.not_lt.mp
      rw [otherEncloses.length_lt_iff encloses]
      exact Nat.not_lt.mpr (notShorter other (List.mem_reverse.mp isEarlier) otherEncloses)

/-- No scope around the position is shorter than the innermost one. -/
theorem IsInnermost.width_le (innermost : IsInnermost scopes position chosen)
    (isScope : other ∈ scopes) (encloses : other.Encloses position) :
    chosen.width ≤ other.width := by
  obtain ⟨earlier, later, rfl, notShorter, longer⟩ := innermost.shortest
  rw [List.mem_append, List.mem_cons] at isScope
  obtain isEarlier | rfl | isLater := isScope
  · exact notShorter other isEarlier encloses
  · exact Nat.le_refl _
  · exact Nat.le_of_lt (longer other isLater encloses)

theorem IsInnermost.mem (innermost : IsInnermost scopes position chosen) :
    chosen ∈ scopes := by
  obtain ⟨earlier, later, rfl, -⟩ := innermost.shortest
  exact List.mem_append_right _ List.mem_cons_self

end Scope

/-- There is a declaration around a position exactly if some registered range contains it.
It is the one with the shortest of these ranges, and the last one registered of those that
are equally short. Where the ranges around the position are nested in each other, its range
lies in all of them. The lengths that are compared are those of ranges that stop no earlier
than they start. -/
theorem Model.enclosing_isInnermost (model : Model) (scopes : List Scope)
    (position : UInt32) :
    (((model.withScopes scopes).enclosingSymbol? position).isSome = true ↔
      ∃ scope ∈ scopes, scope.Encloses position) ∧
    (∀ symbol, (model.withScopes scopes).enclosingSymbol? position = some symbol ↔
      ∃ chosen, Scope.IsInnermost scopes position chosen ∧ chosen.symbol = symbol) ∧
    (∀ chosen, Scope.IsInnermost scopes position chosen →
      (∀ scope ∈ scopes, ∀ other ∈ scopes, scope.Encloses position →
        other.Encloses position → scope.LiesIn other ∨ other.LiesIn scope) →
      ∀ other ∈ scopes, other.Encloses position → chosen.LiesIn other) ∧
    ∀ scope ∈ scopes, scope.Encloses position →
      scope.span.start ≤ scope.span.stop ∧ scope.length.toNat = scope.width := by
  rw [enclosingSymbol?, scopes_withScopes]
  refine ⟨?_, ?_, ?_, fun scope _ encloses => encloses.length_eq⟩
  · rw [Option.isSome_map, Option.isSome_iff_ne_none, Ne, Scope.shortest?_eq_none_iff,
      List.filter_eq_nil_iff]
    simp only [List.mem_reverse, ← Scope.encloses_iff]
    simp
  · intro symbol
    simp only [Option.map_eq_some_iff, Scope.shortest?_filter_reverse_iff]
  · intro chosen innermost nested other isScope encloses
    obtain inside | around :=
      nested chosen innermost.mem other isScope innermost.encloses encloses
    · exact inside
    · exact around.symm_of_width_le encloses (innermost.width_le isScope encloses)

/-- Of two equally short ranges the second one is taken; an inverted one contains nothing. -/
example :
    (Model.withScopes {} [⟨⟨0, 100⟩, ⟨0⟩⟩, ⟨⟨10, 50⟩, ⟨1⟩⟩, ⟨⟨10, 50⟩, ⟨2⟩⟩,
      ⟨⟨60, 20⟩, ⟨3⟩⟩]).enclosingSymbol? 30 = some ⟨2⟩ := by
  decide

end BasicLowering.Binding
