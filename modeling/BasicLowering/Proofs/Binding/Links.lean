import Mathlib.Data.Fintype.EquivFin
import Mathlib.Logic.Relation

/-!
# Links

The entries of a table refer to at most one entry each: a type to its base type, a
symbol to the one that contains it. A link may lead to a position without an entry,
and links may lead in a circle. Whatever is reached by links at all is reached by no
more of them than the table has entries, because a shortest way meets no entry
twice.
-/

namespace BasicLowering.Binding

variable {Item : Type}

/-- Follow as many links as given, if there are that many. -/
def follow? (next : Item → Option Item) : Nat → Item → Option Item
  | 0, item => some item
  | count + 1, item => (next item).bind (follow? next count)

/-- Whether any number of links leads from one item to another. -/
def LeadsTo (next : Item → Option Item) : Item → Item → Prop :=
  Relation.ReflTransGen fun item other => next item = some other

variable {next : Item → Option Item} {item middle target : Item}

theorem follow?_add (first second : Nat) (item : Item) :
    follow? next (first + second) item =
      (follow? next first item).bind (follow? next second) := by
  induction first generalizing item with
  | zero => rw [Nat.zero_add, follow?, Option.bind_some]
  | succ first ih =>
      rw [Nat.succ_add, follow?, follow?]
      cases next item with
      | none => rfl
      | some other => exact ih other

theorem follow?_of_follow? {first : Nat} (reached : follow? next first item = some middle)
    (second : Nat) :
    follow? next (first + second) item = follow? next second middle := by
  rw [follow?_add, reached, Option.bind_some]

theorem leadsTo_iff_exists_follow? :
    LeadsTo next item target ↔ ∃ count, follow? next count item = some target := by
  constructor
  · intro leads
    induction leads using Relation.ReflTransGen.head_induction_on with
    | refl => exact ⟨0, rfl⟩
    | head link _ ih =>
        obtain ⟨count, reached⟩ := ih
        exact ⟨count + 1, by rw [follow?, link, Option.bind_some, reached]⟩
  · rintro ⟨count, reached⟩
    induction count generalizing item with
    | zero =>
        cases reached
        exact .refl
    | succ count ih =>
        obtain ⟨other, link, further⟩ := Option.bind_eq_some_iff.mp reached
        exact .head link (ih further)

theorem transGen_iff_exists_follow? :
    Relation.TransGen (fun item other => next item = some other) item target ↔
      ∃ count, follow? next (count + 1) item = some target := by
  rw [Relation.TransGen.head'_iff]
  constructor
  · rintro ⟨other, link, further⟩
    obtain ⟨count, reached⟩ := leadsTo_iff_exists_follow?.mp further
    exact ⟨count, by rw [follow?, link, Option.bind_some, reached]⟩
  · rintro ⟨count, reached⟩
    obtain ⟨other, link, further⟩ := Option.bind_eq_some_iff.mp reached
    exact ⟨other, link, leadsTo_iff_exists_follow?.mpr ⟨count, further⟩⟩

/-- What is passed on the way has a link. -/
theorem exists_follow?_of_lt {count : Nat} (reached : follow? next count item = some target)
    {passed : Nat} (before : passed < count) :
    ∃ middle, follow? next passed item = some middle ∧
      (next middle).isSome = true := by
  obtain ⟨rest, rfl⟩ := Nat.exists_eq_add_of_lt before
  rw [Nat.add_assoc, follow?_add] at reached
  obtain ⟨middle, isMiddle, further⟩ := Option.bind_eq_some_iff.mp reached
  rw [follow?] at further
  obtain ⟨other, link, -⟩ := Option.bind_eq_some_iff.mp further
  exact ⟨middle, isMiddle, by rw [link, Option.isSome_some]⟩

/-- Links that lead to a circle can be followed for ever. -/
theorem exists_follow?_of_circle (leads : LeadsTo next item target)
    (circle : Relation.TransGen (fun item other => next item = some other) target target)
    (count : Nat) :
    ∃ middle, follow? next count item = some middle ∧ (next middle).isSome = true := by
  obtain ⟨early, reached⟩ := leadsTo_iff_exists_follow?.mp leads
  obtain ⟨length, around⟩ := transGen_iff_exists_follow?.mp circle
  have rounds (number : Nat) :
      follow? next (early + number * (length + 1)) item = some target := by
    induction number with
    | zero => rw [Nat.zero_mul, Nat.add_zero, reached]
    | succ number ih => rw [Nat.succ_mul, ← Nat.add_assoc, follow?_of_follow? ih, around]
  have farEnough : count + 1 ≤ (count + 1) * (length + 1) :=
    Nat.le_mul_of_pos_right _ (Nat.succ_pos length)
  apply exists_follow?_of_lt (rounds (count + 1))
  omega

/-- There are no more different items than positions. -/
theorem length_le_of_nodup {size : Nat} {position : Item → Nat} {items : List Item}
    (apart : Function.Injective position) (distinct : items.Nodup)
    (inside : ∀ item ∈ items, position item < size) : items.length ≤ size := by
  have positionsInside : items.map position ⊆ List.range size := by
    intro number isPosition
    obtain ⟨item, isItem, rfl⟩ := List.mem_map.mp isPosition
    exact List.mem_range.mpr (inside item isItem)
  have shorter := ((distinct.map apart).subperm positionsInside).length_le
  rwa [List.length_map, List.length_range] at shorter

/-- Where the items with a link have different positions below a bound, no more links
than that have to be followed. -/
theorem exists_follow?_le {size : Nat} {position : Item → Nat}
    (apart : Function.Injective position)
    (inside : ∀ item, (next item).isSome = true → position item < size)
    (leads : LeadsTo next item target) :
    ∃ count ≤ size, follow? next count item = some target := by
  classical
  have reachable := leadsTo_iff_exists_follow?.mp leads
  let count := Nat.find reachable
  have reached : follow? next count item = some target := Nat.find_spec reachable
  choose passed isPassed goesOn using fun number : Fin count =>
    exists_follow?_of_lt reached number.isLt
  -- A shortest way meets no item twice: what lies between could be left out.
  have noRepetition (first second : Fin count) (before : first < second) :
      passed first ≠ passed second := by
    intro same
    have shorter : first + (count - second) < count := by omega
    apply Nat.find_min reachable shorter
    rw [follow?_of_follow? (isPassed first), same,
      ← follow?_of_follow? (isPassed second), Nat.add_sub_cancel' second.isLt.le]
    exact reached
  let places (number : Fin count) : Fin size :=
    ⟨position (passed number), inside _ (goesOn number)⟩
  have injective : Function.Injective places := by
    intro first second same
    have samePassed := apart (Fin.mk.inj same)
    rcases lt_trichotomy first second with before | equal | after
    · exact absurd samePassed (noRepetition first second before)
    · exact equal
    · exact absurd samePassed.symm (noRepetition second first after)
  refine ⟨count, ?_, reached⟩
  simpa using Fintype.card_le_of_injective places injective

end BasicLowering.Binding
