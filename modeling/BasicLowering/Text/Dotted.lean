/-!
# Dotted names

A qualified name is the names of its containers with a dot between each two.
Taking it apart again gives the names back, as long as none of them holds a dot
itself.
-/

namespace BasicLowering.Text.Dotted

/-- The parts with a dot between each two. -/
def join (parts : List String) : String :=
  String.ofList (List.intercalate ['.'] (parts.map String.toList))

/-- The stretches of characters between dots. There is always at least one. -/
def splitChars : List Char → List (List Char)
  | [] => [[]]
  | character :: rest =>
      if character = '.' then
        [] :: splitChars rest
      else
        match splitChars rest with
        | [] => [[character]]
        | part :: parts => (character :: part) :: parts

/-- The parts of a dotted name. -/
def split (name : String) : List String :=
  (splitChars name.toList).map String.ofList

theorem splitChars_ne_nil (characters : List Char) : splitChars characters ≠ [] := by
  cases characters with
  | nil => nofun
  | cons character rest =>
      unfold splitChars
      split
      · nofun
      · split <;> nofun

theorem split_ne_nil (name : String) : split name ≠ [] := by
  rw [split, Ne, List.map_eq_nil_iff]
  exact splitChars_ne_nil name.toList

theorem intercalate_splitChars (characters : List Char) :
    List.intercalate ['.'] (splitChars characters) = characters := by
  induction characters with
  | nil => rfl
  | cons character rest ih =>
      unfold splitChars
      split
      · next isDot =>
          rw [List.intercalate_cons_of_ne_nil (splitChars_ne_nil rest), ih, isDot]
          rfl
      · cases found : splitChars rest with
        | nil => exact absurd found (splitChars_ne_nil rest)
        | cons part parts =>
            rw [found] at ih
            cases parts with
            | nil => simpa [List.intercalate] using ih
            | cons => simpa [List.intercalate] using ih

/-- The parts of a name make up the name again. -/
theorem join_split (name : String) : join (split name) = name := by
  simp [join, split, Function.comp_def, intercalate_splitChars]

end BasicLowering.Text.Dotted
