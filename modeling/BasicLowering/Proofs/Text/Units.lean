import Mathlib.Data.List.Basic

/-!
# UTF-16 units

Both languages with string literals here take a text for a sequence of 16-bit units, and
so their numeric escapes give units and not characters: a character beyond the first
65536 is a pair of surrogates, which no character has for its number. No character's
units begin another one's, so a text is determined by its units.
-/

namespace BasicLowering.Text

/-- The units of a character, by its number. -/
def unitsOf (number : Nat) : List Nat :=
  if number < 0x10000 then
    [number]
  else
    [0xD800 + (number - 0x10000) / 0x400, 0xDC00 + (number - 0x10000) % 0x400]

/-- The units of a text. -/
def units (text : List Char) : List Nat :=
  text.flatMap fun character => unitsOf character.toNat

@[simp] theorem units_nil : units [] = [] :=
  rfl

@[simp] theorem units_cons (character : Char) (text : List Char) :
    units (character :: text) = unitsOf character.toNat ++ units text :=
  rfl

section

variable {character other : Char} {rest more : List Nat}

/-- No character has the number of a surrogate, or one that takes more than two. -/
theorem toNat_isScalar (character : Char) :
    character.toNat < 0xD800 ∨ 0xDFFF < character.toNat ∧ character.toNat < 0x110000 :=
  character.valid

/-- A character is found again from its units, whatever follows them. -/
theorem unitsOf_append_inj
    (same : unitsOf character.toNat ++ rest = unitsOf other.toNat ++ more) :
    character = other ∧ rest = more := by
  have scalar := toNat_isScalar character
  have otherScalar := toNat_isScalar other
  rw [← Char.toNat_inj]
  unfold unitsOf at same
  split at same <;> split at same <;>
    simp only [List.cons_append, List.nil_append, List.cons.injEq] at same
  · exact same
  · omega
  · omega
  · obtain ⟨high, low, same⟩ := same
    exact ⟨by omega, same⟩

theorem unitsOf_ne_nil (number : Nat) : unitsOf number ≠ [] := by
  unfold unitsOf
  split <;> exact List.cons_ne_nil _ _

end

theorem units_injective : Function.Injective units := by
  intro text
  induction text with
  | nil =>
      intro other same
      cases other with
      | nil => rfl
      | cons character other =>
          exact absurd (List.append_eq_nil_iff.mp same.symm).1 (unitsOf_ne_nil _)
  | cons character text ih =>
      intro other same
      cases other with
      | nil => exact absurd (List.append_eq_nil_iff.mp same).1 (unitsOf_ne_nil _)
      | cons first other =>
          obtain ⟨rfl, rest⟩ := unitsOf_append_inj same
          rw [ih rest]

/-! ## Hexadecimal numbers -/

/-- Whether a character is the hexadecimal digit of a value, in either case. -/
def IsHexDigit (digit : Char) (value : Nat) : Prop :=
  value < 16 ∧ (digit = Nat.digitChar value ∨ digit = (Nat.digitChar value).toUpper)

/-- Whether digits write a number in base 16. -/
def IsHexNumber (digits : List Char) (number : Nat) : Prop :=
  ∃ values, List.Forall₂ IsHexDigit digits values ∧
    number = values.foldl (fun front value => front * 16 + value) 0

end BasicLowering.Text
