import BasicLowering.Binding.TypeTable
import BasicLowering.Proofs.Binding.Links

/-!
# Base types

What the walks along base types find. The base of a type may be unknown, may be added
later, and may lead back to the type: on every table the walks find exactly what base
types lead to, and a larger bound would not let them find more.
-/

namespace BasicLowering.Binding.TypeTable

variable (table : TypeTable)

theorem index_injective : Function.Injective TypeId.index := by
  rintro ⟨_⟩ ⟨_⟩ rfl
  rfl

/-- Only a type of the table has a base type. -/
theorem index_lt_of_base? {type : TypeId} (hasBase : (table.base? type).isSome = true) :
    type.index < table.size := by
  by_contra outside
  have missing : table.find? type = none :=
    Array.getElem?_eq_none (Nat.le_of_not_lt outside)
  rw [base?, missing] at hasBase
  cases hasBase

/-- Base types lead nowhere that is not reached by as many of them as there are
types. -/
theorem leadsTo_iff {type other : TypeId} {steps : Nat} (enough : table.size ≤ steps) :
    LeadsTo table.base? type other ↔
      ∃ count ≤ steps, follow? table.base? count type = some other := by
  constructor
  · intro leads
    obtain ⟨count, few, reached⟩ :=
      exists_follow?_le index_injective (fun _ => table.index_lt_of_base?) leads
    exact ⟨count, Nat.le_trans few enough, reached⟩
  · rintro ⟨count, -, reached⟩
    exact leadsTo_iff_exists_follow?.mpr ⟨count, reached⟩

theorem inheritsWithin_iff {base : TypeId} (steps : Nat) (type : TypeId) :
    table.inheritsWithin base steps type = true ↔
      ∃ count ≤ steps, follow? table.base? count type = some base := by
  induction steps generalizing type with
  | zero => simp [inheritsWithin, follow?]
  | succ steps ih =>
      rw [inheritsWithin, Bool.or_eq_true, beq_iff_eq]
      constructor
      · rintro (rfl | further)
        · exact ⟨0, Nat.zero_le _, rfl⟩
        · cases link : table.base? type with
          | none => simp [link] at further
          | some next =>
              simp only [link] at further
              obtain ⟨count, few, reached⟩ := (ih next).mp further
              refine ⟨count + 1, Nat.succ_le_succ few, ?_⟩
              rw [follow?, link, Option.bind_some, reached]
      · rintro ⟨_ | count, few, reached⟩
        · exact .inl (Option.some.inj reached)
        · obtain ⟨next, link, further⟩ := Option.bind_eq_some_iff.mp reached
          simp only [link]
          exact .inr ((ih next).mpr ⟨count, Nat.le_of_succ_le_succ few, further⟩)

/-- Whether a type is in the table and declares a member itself. -/
def Declares (type : TypeId) (member : String) : Prop :=
  ∃ entry, table.find? type = some entry ∧
    ∃ declared ∈ entry.members, Text.sameName declared member = true

theorem containsWithin_iff {member : String} (steps : Nat) (type : TypeId) :
    table.containsWithin member steps type = true ↔
      ∃ count ≤ steps, ∃ other, follow? table.base? count type = some other ∧
        table.Declares other member := by
  induction steps generalizing type with
  | zero =>
      unfold containsWithin
      cases found : table.find? type <;>
        simp [follow?, Declares, TypeEntry.declares, found]
  | succ steps ih =>
      unfold containsWithin
      cases found : table.find? type with
      | none =>
          refine iff_of_false Bool.false_ne_true ?_
          rintro ⟨_ | count, -, other, reached, entry, isEntry, -⟩
          · cases reached
            cases found.symm.trans isEntry
          · simp [follow?, base?, found] at reached
      | some entry =>
          have declares : entry.declares member = true ↔ table.Declares type member := by
            simp [Declares, TypeEntry.declares, found]
          have link : table.base? type = entry.base := by
            rw [base?, found, Option.bind_some]
          simp only [Bool.or_eq_true, declares]
          constructor
          · rintro (here | further)
            · exact ⟨0, Nat.zero_le _, type, rfl, here⟩
            · cases isBase : entry.base with
              | none => simp [isBase] at further
              | some next =>
                  simp only [isBase] at further
                  obtain ⟨count, few, other, reached, there⟩ := (ih next).mp further
                  refine ⟨count + 1, Nat.succ_le_succ few, other, ?_, there⟩
                  rw [follow?, link, isBase, Option.bind_some, reached]
          · rintro ⟨_ | count, few, other, reached, there⟩
            · cases reached
              exact .inl there
            · rw [follow?, link] at reached
              obtain ⟨next, isBase, further⟩ := Option.bind_eq_some_iff.mp reached
              simp only [isBase]
              exact .inr ((ih next).mpr
                ⟨count, Nat.le_of_succ_le_succ few, other, further, there⟩)

/-- A type is said to inherit from exactly the types that base types lead to, and to
contain exactly the members that one of these declares. No larger bound on the walks
changes an answer. -/
theorem walks_find_iff (type : TypeId) :
    (∀ base, table.inheritsFromOrEquals type base = true ↔
      LeadsTo table.base? type base) ∧
    (∀ member, table.containsMember type member = true ↔
      ∃ other, LeadsTo table.base? type other ∧ table.Declares other member) ∧
    ∀ steps, table.size ≤ steps →
      (∀ base, table.inheritsWithin base steps type =
        table.inheritsFromOrEquals type base) ∧
      ∀ member, table.containsWithin member steps type =
        table.containsMember type member := by
  have inherits {steps : Nat} (enough : table.size ≤ steps) (base : TypeId) :
      table.inheritsWithin base steps type = true ↔ LeadsTo table.base? type base := by
    rw [table.inheritsWithin_iff, table.leadsTo_iff enough]
  have contains {steps : Nat} (enough : table.size ≤ steps) (member : String) :
      table.containsWithin member steps type = true ↔
        ∃ other, LeadsTo table.base? type other ∧ table.Declares other member := by
    simp only [table.containsWithin_iff, table.leadsTo_iff enough]
    constructor
    · rintro ⟨count, few, other, reached, declares⟩
      exact ⟨other, ⟨count, few, reached⟩, declares⟩
    · rintro ⟨other, ⟨count, few, reached⟩, declares⟩
      exact ⟨count, few, other, reached, declares⟩
  refine ⟨inherits le_rfl, contains le_rfl, fun steps enough => ⟨?_, ?_⟩⟩
  · intro base
    rw [Bool.eq_iff_iff]
    exact (inherits enough base).trans (inherits le_rfl base).symm
  · intro member
    rw [Bool.eq_iff_iff]
    exact (contains enough member).trans (contains le_rfl member).symm

end BasicLowering.Binding.TypeTable
