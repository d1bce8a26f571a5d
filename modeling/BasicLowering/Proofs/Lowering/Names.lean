import BasicLowering.Lowering.Logical
import Mathlib.Data.List.Nodup
import Std.Data.String.ToNat

/-!
# Names of captures

The names of a session are numbered from where the session stands. As long as
fewer names are issued than a 32-bit word can count, no two of them are the
same.

A step issues names in a row. An operand that is tested and used again issues one
name, or none if it may be evaluated more than once.
-/

namespace BasicLowering.Lowering

open Target (Expr)

namespace CaptureNames

/-- The session after so many more names. -/
def advance (start : CaptureNames) (count : Nat) : CaptureNames :=
  { start with issued := start.issued + UInt32.ofNat count }

/-- The name that is issued as the given one, counted from one. -/
def nth (start : CaptureNames) (count : Nat) : String :=
  start.name (start.issued + UInt32.ofNat count)

@[simp] theorem advance_zero (start : CaptureNames) :
    start.advance 0 = start := by
  simp [advance]

theorem nth_ne {start : CaptureNames} {first second : Nat}
    (less : first < second) (bounded : second < UInt32.size) :
    start.nth first ≠ start.nth second := by
  intro same
  have sameText := (String.append_right_inj _).mp same
  have sameWord := UInt32.toNat_inj.mp (Nat.repr_inj.mp sameText)
  have sameCount := UInt32.toNat_inj.mpr (UInt32.add_right_inj _ |>.mp sameWord)
  simp only [UInt32.toNat_ofNat'] at sameCount
  have firstSmall : first % 2 ^ 32 = first :=
    Nat.mod_eq_of_lt (Nat.lt_trans less bounded)
  have secondSmall : second % 2 ^ 32 = second := Nat.mod_eq_of_lt bounded
  omega

/-- What does not begin like the names of a session is none of them. -/
theorem name_notMem {start : CaptureNames} {texts : List String}
    (other : ∀ text ∈ texts, ¬ start.stem.toList <+: text.toList) (number : UInt32) :
    start.name number ∉ texts := by
  intro isName
  refine other _ isName ?_
  rw [name, String.toList_append]
  exact List.prefix_append _ _

/-! ## Names in a row -/

/-- The names issued after the first `count` ones, up to the one that is counted
`next`. -/
def between (start : CaptureNames) (count next : Nat) : List String :=
  (List.range' (count + 1) (next - count)).map start.nth

@[simp] theorem between_self (start : CaptureNames) (count : Nat) :
    start.between count count = [] := by
  simp [between]

@[simp] theorem between_next (start : CaptureNames) (count : Nat) :
    start.between count (count + 1) = [start.nth (count + 1)] := by
  simp [between]

theorem between_append (start : CaptureNames) {first second third : Nat}
    (early : first ≤ second) (late : second ≤ third) :
    start.between first second ++ start.between second third =
      start.between first third := by
  have adjacent : second + 1 = first + 1 + 1 * (second - first) := by omega
  have together : third - first = second - first + (third - second) := by omega
  unfold between
  rw [← List.map_append, adjacent, List.range'_append, together]

/-- The next names of a session. -/
def upcoming (start : CaptureNames) (count : Nat) : List String :=
  start.between 0 count

@[simp] theorem upcoming_zero (start : CaptureNames) : start.upcoming 0 = [] :=
  start.between_self 0

@[simp] theorem advance_advance (start : CaptureNames) (first second : Nat) :
    (start.advance first).advance second = start.advance (first + second) := by
  simp [advance, UInt32.ofNat_add, UInt32.add_assoc]

theorem nth_advance (start : CaptureNames) (first second : Nat) :
    (start.advance first).nth second = start.nth (first + second) := by
  simp [advance, nth, name, UInt32.ofNat_add, UInt32.add_assoc]

theorem upcoming_append (start : CaptureNames) (first second : Nat) :
    start.upcoming first ++ (start.advance first).upcoming second =
      start.upcoming (first + second) := by
  have shift : (start.advance first).upcoming second =
      start.between first (first + second) := by
    unfold upcoming between
    rw [Nat.zero_add, Nat.sub_zero, Nat.add_sub_cancel_left, Nat.add_comm first 1,
      List.range'_eq_map_range, List.range'_eq_map_range, List.map_map,
      List.map_map]
    refine List.map_congr_left fun number _ => ?_
    rw [Function.comp_apply, Function.comp_apply, nth_advance]
    congr 1
    omega
  rw [shift]
  exact start.between_append (Nat.zero_le first) (Nat.le_add_right first second)

theorem upcoming_mem_iff {start : CaptureNames} {count : Nat} {name : String} :
    name ∈ start.upcoming count ↔
      ∃ number, 0 < number ∧ number ≤ count ∧ name = start.nth number := by
  simp only [upcoming, between, List.mem_map, List.mem_range'_1]
  constructor
  · rintro ⟨number, inside, rfl⟩
    exact ⟨number, by omega, by omega, rfl⟩
  · rintro ⟨number, above, below, rfl⟩
    exact ⟨number, by omega, rfl⟩

/-- Fewer names than a 32-bit word can count are all different. -/
theorem nodup_upcoming {captures : CaptureNames} {count : Nat}
    (few : count < UInt32.size) : (captures.upcoming count).Nodup := by
  unfold upcoming between
  rw [List.nodup_map_iff_inj_on List.nodup_range']
  simp only [List.mem_range'_1]
  intro first insideFirst second insideSecond same
  obtain less | rfl | more := Nat.lt_trichotomy first second
  · exact absurd same (nth_ne less (by omega))
  · rfl
  · exact absurd same.symm (nth_ne more (by omega))

/-! ## Steps that issue names -/

/-- Whether a step that starts after `count` names issues no more names than
the limit and ends with a good result. -/
def Issues (start : CaptureNames) (limit count : Nat) {Result : Type}
    (step : Naming Result) (good : Nat → Result → Prop) : Prop :=
  ∃ result next, step (start.advance count) = (result, start.advance next) ∧
    count ≤ next ∧ next ≤ count + limit ∧ good next result

namespace Issues

variable {start : CaptureNames} {limit later count : Nat}
variable {Result Final : Type}

theorem pure {result : Result} {good : Nat → Result → Prop}
    (isGood : good count result) :
    start.Issues limit count (return result) good :=
  ⟨result, count, rfl, Nat.le_refl count, Nat.le_add_right count limit, isGood⟩

theorem bind {step : Naming Result} {rest : Result → Naming Final}
    {good : Nat → Result → Prop} {best : Nat → Final → Prop}
    (first : start.Issues limit count step good)
    (second : ∀ result next, count ≤ next → next ≤ count + limit →
      good next result → start.Issues later next (rest result) best) :
    start.Issues (later + limit) count (step >>= rest) best := by
  obtain ⟨result, next, ran, above, below, isGood⟩ := first
  obtain ⟨final, last, ranLater, aboveLater, belowLater, isBest⟩ :=
    second result next above below isGood
  refine ⟨final, last, ?_, Nat.le_trans above aboveLater, ?_,
    isBest⟩
  · simp only [Bind.bind, StateT.bind, ran, ranLater]
  · omega

theorem weaken {step : Naming Result} {good better : Nat → Result → Prop}
    (issues : start.Issues limit count step better) (more : limit ≤ later)
    (implies : ∀ next result, count ≤ next → next ≤ count + limit →
      better next result → good next result) :
    start.Issues later count step good := by
  obtain ⟨result, next, ran, above, below, isBetter⟩ := issues
  refine ⟨result, next, ran, above, ?_, implies next result above below isBetter⟩
  exact Nat.le_trans below (Nat.add_le_add_left more count)

/-- What a step does in each of several situations, it does in all of them. -/
theorem all {Index : Type} [Nonempty Index] {step : Naming Result}
    {good : Index → Nat → Result → Prop} (bounded : limit < UInt32.size)
    (each : ∀ index, start.Issues limit count step (good index)) :
    start.Issues limit count step fun next result =>
      ∀ index, good index next result := by
  obtain ⟨result, next, ran, above, below, -⟩ := each (Classical.arbitrary Index)
  refine ⟨result, next, ran, above, below, fun index => ?_⟩
  obtain ⟨other, last, ranAgain, aboveAgain, belowAgain, isGood⟩ := each index
  obtain ⟨rfl, sameNames⟩ := Prod.mk.inj (ran.symm.trans ranAgain)
  have sameWord : UInt32.ofNat next = UInt32.ofNat last :=
    (UInt32.add_right_inj _).mp (congrArg CaptureNames.issued sameNames)
  have sameCount := UInt32.toNat_inj.mpr sameWord
  simp only [UInt32.toNat_ofNat'] at sameCount
  -- The counts differ by less than a word can count.
  obtain rfl : next = last := by
    have size : UInt32.size = 2 ^ 32 := rfl
    omega
  exact isGood

theorem and {step : Naming Result} {good best : Nat → Result → Prop}
    (bounded : limit < UInt32.size) (first : start.Issues limit count step good)
    (second : start.Issues limit count step best) :
    start.Issues limit count step fun next result =>
      good next result ∧ best next result := by
  refine (all bounded fun isFirst : Bool =>
    (?_ : start.Issues limit count step (if isFirst then good else best))).weaken
      (Nat.le_refl limit) fun next result _ _ both => ⟨both true, both false⟩
  cases isFirst with
  | true => exact first
  | false => exact second

end Issues

end CaptureNames

theorem freshName_advance (start : CaptureNames) (count : Nat) :
    freshName (start.advance count) =
      (start.nth (count + 1), start.advance (count + 1)) := by
  have next : UInt32.ofNat (count + 1) = UInt32.ofNat count + 1 := by
    simp [UInt32.ofNat_add]
  simp [freshName, CaptureNames.advance, CaptureNames.nth, next,
    CaptureNames.name, UInt32.add_assoc]

/-- Issuing a name goes on to the next one. -/
theorem freshName_issues (start : CaptureNames) (count : Nat) :
    start.Issues 1 count freshName fun next name =>
      next = count + 1 ∧ name = start.nth (count + 1) :=
  ⟨_, _, freshName_advance start count, Nat.le_succ count,
    Nat.le_refl (count + 1), rfl, rfl⟩

/-! ## Tested operands -/

/-- A test of an operand, and the expression to use for it from then on. Both
`captureForFalseTest` and `captureForMissingTest` make such a test. -/
def captureTested (test : Expr → Expr) (operand : Operand) : Naming Capture :=
  if operand.isReusable then
    return ⟨test operand.expr, operand.expr⟩
  else do
    let captured ← captureAny operand.expr
    return ⟨captured.test.and (test captured.value), captured.value⟩

/-- An operand is tested as it stands, or by the name that it is bound to. -/
theorem captureTested_issues {start : CaptureNames} {count : Nat}
    {test : Expr → Expr} {operand : Operand} {good : Nat → Capture → Prop}
    (reusable : operand.isReusable = true →
      good count ⟨test operand.expr, operand.expr⟩)
    (captured : operand.isReusable = false →
      start.Issues 1 count (captureAny operand.expr) fun next capture =>
        good next ⟨capture.test.and (test capture.value), capture.value⟩) :
    start.Issues 1 count (captureTested test operand) good := by
  unfold captureTested
  split
  · next isReusable => exact .pure (reusable isReusable)
  · next notReusable =>
      exact (captured (Bool.of_not_eq_true notReusable)).bind
        fun _ _ _ _ isGood => .pure isGood

end BasicLowering.Lowering
