import BasicLowering.Proofs.Lowering.History
import BasicLowering.Proofs.Lowering.Rewording
import BasicLowering.Proofs.Target.Rename

/-!
# Captures of another session

Two sessions that issue as many names each name their captures in the same order. What
is written with the names of one session is written with those of the other one by
exchanging each name for the name with the same number.
-/

namespace BasicLowering.Lowering

open Target (Expr)

namespace CaptureNames

/-- The number of a name that is made of the stem and a 32-bit number. -/
def number? (captures : CaptureNames) (text : String) : Option UInt32 :=
  let digits := String.ofList (text.toList.drop captures.stem.toList.length)
  (digits.toNat?.map UInt32.ofNat).filter fun number => text = captures.name number

theorem number?_name (captures : CaptureNames) (number : UInt32) :
    captures.number? (captures.name number) = some number := by
  have digits : (captures.name number).toList.drop captures.stem.toList.length =
      number.toNat.repr.toList := by
    rw [name, String.toList_append, List.drop_left]
    rfl
  rw [number?, digits, String.ofList_toList]
  rw [Nat.toNat?_repr, Option.map_some, UInt32.ofNat_toNat, Option.filter_some,
    if_pos (by simp)]

theorem number?_of_not_makes {captures : CaptureNames} {text : String}
    (isOther : ¬ captures.Makes text) : captures.number? text = none := by
  rw [number?, Option.filter_eq_none_iff]
  intro number _ same
  exact isOther ⟨_, of_decide_eq_true same⟩

/-- Exchange the names of one session for those of another one. Other names stay what
they are. -/
def respell (captures others : CaptureNames) (text : String) : String :=
  match captures.number? text with
  | some number => others.name (others.issued + (number - captures.issued))
  | none => text

theorem respell_nth (captures others : CaptureNames) (count : Nat) :
    captures.respell others (captures.nth count) = others.nth count := by
  rw [nth, respell, number?_name, nth]
  dsimp only
  rw [UInt32.add_comm captures.issued, UInt32.add_sub_cancel]

theorem respell_of_not_makes {captures : CaptureNames} (others : CaptureNames)
    {text : String} (isOther : ¬ captures.Makes text) :
    captures.respell others text = text := by
  rw [respell, number?_of_not_makes isOther]

/-- Whether two sessions have gone on by as many names. -/
def GoOn (captures others : CaptureNames) (names otherNames : CaptureNames) : Prop :=
  ∃ count, names = captures.advance count ∧ otherNames = others.advance count

end CaptureNames

/-- Exchanging the names of captures. -/
def respelling (captures others : CaptureNames) : Rewording where
  expr := Expr.rename (captures.respell others)
  Level := captures.GoOn others
  null := rfl
  boolean _ := rfl
  member _ _ := rfl
  binary _ _ _ := rfl
  unary _ _ := rfl
  conditional _ _ _ := rfl
  next := by
    rintro _ _ ⟨count, rfl, rfl⟩
    rw [freshName_advance, freshName_advance]
    exact ⟨count + 1, rfl, rfl⟩
  capture := by
    rintro _ _ ⟨count, rfl, rfl⟩
    rw [freshName_advance, freshName_advance, Expr.rename, CaptureNames.respell_nth]
  anything := by
    rintro _ _ operand ⟨count, rfl, rfl⟩
    rw [freshName_advance, freshName_advance, Expr.rename, Target.Pattern.rename,
      CaptureNames.respell_nth]
  notNull := by
    rintro _ _ operand ⟨count, rfl, rfl⟩
    rw [freshName_advance, freshName_advance, Expr.rename, Target.Pattern.rename,
      Option.map_some, CaptureNames.respell_nth]
  missing := by
    rintro _ _ operand ⟨count, rfl, rfl⟩
    rw [freshName_advance, freshName_advance, Expr.rename, Target.Pattern.rename,
      Target.Pattern.rename, Option.map_some, CaptureNames.respell_nth]

end BasicLowering.Lowering
