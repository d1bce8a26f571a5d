import BasicLowering.Options.Document
import BasicLowering.Proofs.Json.Parsing

/-!
# What options documents say

A document describes the options that it binds by their keys, or lists in their order,
the others having their defaults. It is read as what it describes: keys are compared by
what they stand for and not by how they are written, the members come in any order, and
those with other keys hold anything. Whether the prefix is a name is asked last, and a
document that binds an option twice is not read at all.
-/

namespace BasicLowering.Options

open Json (Spells)
open Text (units)

/-! ## Prefixes -/

/-- Whether a character is one of the letters A to Z, in either case. -/
def IsLetter (character : Char) : Prop :=
  ('a' ≤ character ∧ character ≤ 'z') ∨ ('A' ≤ character ∧ character ≤ 'Z')

/-- Whether a character is one of the digits 0 to 9. -/
def IsDigit (character : Char) : Prop :=
  '0' ≤ character ∧ character ≤ '9'

/-- Whether a text is a letter or an underscore with letters, digits and underscores
behind it. -/
def IsName (text : String) : Prop :=
  ∃ first rest, text.toList = first :: rest ∧ (IsLetter first ∨ first = '_') ∧
    ∀ character ∈ rest, IsLetter character ∨ IsDigit character ∨ character = '_'

theorem isAlpha_iff (character : Char) : character.isAlpha = true ↔ IsLetter character := by
  have isUpper : character.isUpper = true ↔ 'A' ≤ character ∧ character ≤ 'Z' :=
    decide_eq_true_iff
  have isLower : character.isLower = true ↔ 'a' ≤ character ∧ character ≤ 'z' :=
    (Bool.and_eq_true _ _).to_iff.trans (and_congr decide_eq_true_iff decide_eq_true_iff)
  have either : character.isAlpha = (character.isUpper || character.isLower) := rfl
  rw [either, Bool.or_eq_true, isUpper, isLower, IsLetter, or_comm]

theorem isDigit_iff (character : Char) : character.isDigit = true ↔ IsDigit character := by
  simp [Char.isDigit, IsDigit, Char.le_def]

theorem isIdentifier_iff (text : String) : isIdentifier text = true ↔ IsName text := by
  unfold isIdentifier IsName
  cases text.toList with
  | nil => simp
  | cons first rest =>
      simp [Char.isAlphanum, isAlpha_iff, isDigit_iff, or_assoc]

/-! ## Fields -/

namespace Field

/-- Whether a value is the one that an option has. -/
def Gives (options : BasicLowering.Options) : Field → Json.Value → Prop
  | capturePrefix, value =>
      ∃ written, value = .string written ∧
        Spells written (units options.capturePrefix.toList)
  | explicitNullableCasts, value => value = .boolean options.explicitNullableCasts
  | qualifyNames, value => value = .boolean options.qualifyNames
  | lowerNullableLogic, value => value = .boolean options.lowerNullableLogic
  | simplifyCheckedComparisons, value =>
      value = .boolean options.simplifyCheckedComparisons

/-- Whether an option is the same in both. -/
def SameIn (first second : BasicLowering.Options) : Field → Prop
  | capturePrefix => first.capturePrefix = second.capturePrefix
  | explicitNullableCasts => first.explicitNullableCasts = second.explicitNullableCasts
  | qualifyNames => first.qualifyNames = second.qualifyNames
  | lowerNullableLogic => first.lowerNullableLogic = second.lowerNullableLogic
  | simplifyCheckedComparisons =>
      first.simplifyCheckedComparisons = second.simplifyCheckedComparisons

/-- Whether the key of a member, as written, is the key of an option. -/
def IsKey (field : Field) (written : List Char) : Prop :=
  Spells written (units field.key.toList)

variable {options current : BasicLowering.Options} {field other : Field}
  {value : Json.Value}

theorem mem_all (field : Field) : field ∈ all := by
  cases field <;> decide

theorem eq_of_sameIn (same : ∀ field : Field, field.SameIn current options) :
    current = options := by
  have first := same capturePrefix
  have second := same explicitNullableCasts
  have third := same qualifyNames
  have fourth := same lowerNullableLogic
  have fifth := same simplifyCheckedComparisons
  cases current
  cases options
  simp_all [SameIn]

theorem unescape?_of_isKey {written : List Char} (isKey : field.IsKey written) :
    Json.unescape? written = some field.key.toList :=
  Json.unescape?_of_spells isKey rfl

theorem ofKey?_key (field : Field) : ofKey? field.key.toList = some field := by
  cases field <;> decide

theorem ofKey?_eq_none {key : List Char} (isUnknown : ∀ field : Field, key ≠ field.key.toList) :
    ofKey? key = none := by
  rw [ofKey?, List.find?_eq_none]
  intro field _ same
  exact isUnknown field (beq_iff_eq.mp same).symm

/-- Reading the value of an option changes that option and no other. -/
theorem assign?_of_gives (current : BasicLowering.Options) (gives : field.Gives options value) :
    ∃ next, field.assign? value current = some next ∧ field.SameIn next options ∧
      ∀ other ≠ field, other.SameIn current options → other.SameIn next options := by
  cases field with
  | capturePrefix =>
      obtain ⟨written, rfl, spells⟩ := gives
      refine ⟨{ current with capturePrefix := options.capturePrefix }, ?_, rfl, ?_⟩
      · rw [assign?, Json.unescape?_of_spells spells rfl, Option.map_some,
          String.ofList_toList]
      · intro other different same
        cases other <;> first | exact absurd rfl different | exact same
  | _ =>
      obtain rfl := gives
      refine ⟨_, rfl, rfl, ?_⟩
      intro other different same
      cases other <;> first | exact absurd rfl different | exact same

/-- Once an option has been read, only those that follow may differ. -/
theorem exists_assign? {fields : List Field} (gives : field.Gives options value)
    (same : ∀ other ∉ field :: fields, other.SameIn current options) :
    ∃ next, field.assign? value current = some next ∧
      ∀ other ∉ fields, other.SameIn next options := by
  obtain ⟨next, assigns, gave, kept⟩ := assign?_of_gives current gives
  refine ⟨next, assigns, fun other notLater => ?_⟩
  by_cases isField : other = field
  · rwa [isField]
  · exact kept other isField (same other (List.not_mem_cons_of_ne_of_not_mem isField notLater))

end Field

/-! ## Documents -/

section

variable (options : BasicLowering.Options)

/-- Whether the members of an object bind some fields, each once, to what they are in
some options. A member whose key is none of a field may hold anything. -/
inductive Binds : List (List Char × Json.Value) → List Field → Prop
  | nil : Binds [] []
  | unknown {written : List Char} {key : String} {value : Json.Value}
      {members : List (List Char × Json.Value)} {fields : List Field}
      (isKey : Spells written (units key.toList)) (isUnknown : ∀ field : Field, key ≠ field.key)
      (further : Binds members fields) : Binds ((written, value) :: members) fields
  | known {written : List Char} {value : Json.Value}
      {members : List (List Char × Json.Value)} {field : Field} {fields : List Field}
      (isKey : field.IsKey written) (isNew : field ∉ fields)
      (gives : field.Gives options value) (further : Binds members fields) :
      Binds ((written, value) :: members) (field :: fields)

/-- Whether a value describes some options: an object that binds fields by their keys, or
an array of the first ones in their order, where the other fields have their defaults. -/
def Describes : Json.Value → Prop
  | .object members =>
      ∃ fields, Binds options members fields ∧ ∀ field ∉ fields, field.SameIn {} options
  | .array items =>
      ∃ given others, Field.all = given ++ others ∧
        List.Forall₂ (Field.Gives options) given items ∧
        ∀ field ∈ others, field.SameIn {} options
  | _ => False

end

/-- Whether two members have the key of the same field. -/
def BindsTwice (members : List (List Char × Json.Value)) : Prop :=
  ∃ (field : Field) (first second : List Char × Json.Value),
    [first, second].Sublist members ∧ field.IsKey first.1 ∧ field.IsKey second.1

variable {options current : BasicLowering.Options} {seen fields given others : List Field}
  {members : List (List Char × Json.Value)} {items : List Json.Value}

theorem ofMembers?_known {field : Field} {written : List Char} {value : Json.Value}
    (isKey : field.IsKey written) :
    ofMembers? seen current ((written, value) :: members) =
      if field ∈ seen then none
      else (field.assign? value current).bind (ofMembers? (field :: seen) · members) := by
  rw [ofMembers?, Field.unescape?_of_isKey isKey]
  simp only [Option.bind_eq_bind, Option.bind_some, Field.ofKey?_key]

theorem ofMembers?_unknown {key : String} {written : List Char} {value : Json.Value}
    (isKey : Spells written (units key.toList)) (isUnknown : ∀ field : Field, key ≠ field.key) :
    ofMembers? seen current ((written, value) :: members) =
      ofMembers? seen current members := by
  have notField := Field.ofKey?_eq_none fun field same =>
    isUnknown field (String.toList_inj.mp same)
  rw [ofMembers?, Json.unescape?_of_spells isKey rfl]
  simp only [Option.bind_eq_bind, Option.bind_some, notField]

/-- Members that cannot be read whatever has been read before cannot be read behind one
more. -/
theorem ofMembers?_cons_eq_none {member : List Char × Json.Value}
    (fails : ∀ later current, seen ⊆ later → ofMembers? later current members = none) :
    ofMembers? seen current (member :: members) = none := by
  obtain ⟨written, value⟩ := member
  rw [ofMembers?, Option.bind_eq_bind, Option.bind_eq_none_iff]
  intro key _
  split
  · exact fails seen current (List.Subset.refl _)
  · next field _ =>
      split
      · rfl
      · rw [Option.bind_eq_bind, Option.bind_eq_none_iff]
        exact fun next _ => fails _ next (List.subset_cons_self _ _)

/-- Members are read into the options that they describe, behind others. Only the fields
that are still to come may differ until then. -/
theorem ofMembers?_of_binds (binds : Binds options members fields)
    (disjoint : ∀ field ∈ fields, field ∉ seen)
    (same : ∀ field ∉ fields, field.SameIn current options) :
    ofMembers? seen current members = some options := by
  induction binds generalizing seen current with
  | nil => rw [ofMembers?, Field.eq_of_sameIn fun field => same field List.not_mem_nil]
  | unknown isKey isUnknown _ ih =>
      rw [ofMembers?_unknown isKey isUnknown]
      exact ih disjoint same
  | @known written value members field fields isKey isNew gives _ ih =>
      obtain ⟨notSeen, others⟩ := List.forall_mem_cons.mp disjoint
      obtain ⟨next, assigns, same⟩ := Field.exists_assign? gives same
      rw [ofMembers?_known isKey, if_neg notSeen, assigns, Option.bind_some]
      refine ih (fun later isLater => ?_) same
      exact List.not_mem_cons_of_ne_of_not_mem (ne_of_mem_of_not_mem isLater isNew)
        (others later isLater)

/-- Items are read into the options that they describe. -/
theorem ofItems?_of_gives (gives : List.Forall₂ (Field.Gives options) given items)
    (same : ∀ field ∉ given, field.SameIn current options) :
    ofItems? current (given ++ others) items = some options := by
  induction gives generalizing current with
  | nil => rw [ofItems?, Field.eq_of_sameIn fun field => same field List.not_mem_nil]
  | cons first _ ih =>
      obtain ⟨next, assigns, same⟩ := Field.exists_assign? first same
      rw [List.cons_append, ofItems?, assigns]
      exact ih same

/-- A member with the key of a field that an earlier one has bound is not read. -/
theorem ofMembers?_of_seen {field : Field} {member : List Char × Json.Value}
    (isMember : member ∈ members) (isKey : field.IsKey member.1) (isSeen : field ∈ seen) :
    ofMembers? seen current members = none := by
  induction members generalizing seen current with
  | nil => cases isMember
  | cons first members ih =>
      obtain rfl | isMember := List.mem_cons.mp isMember
      · rw [ofMembers?_known isKey, if_pos isSeen]
      · exact ofMembers?_cons_eq_none fun later _ more => ih isMember (more isSeen)

theorem ofMembers?_of_bindsTwice (twice : BindsTwice members) :
    ofMembers? seen current members = none := by
  obtain ⟨field, first, second, inOrder, isKey, isAgain⟩ := twice
  induction members generalizing seen current with
  | nil => cases inOrder
  | cons member members ih =>
      obtain further | ⟨_, same, further⟩ := List.sublist_cons_iff.mp inOrder
      · exact ofMembers?_cons_eq_none fun _ _ _ => ih further
      · obtain ⟨rfl, rfl⟩ := List.cons.inj same
        rw [ofMembers?_known isKey]
        split
        · rfl
        · rw [Option.bind_eq_none_iff]
          exact fun _ _ => ofMembers?_of_seen (List.singleton_sublist.mp further) isAgain
            List.mem_cons_self

theorem ofValue?_of_describes {value : Json.Value} (describes : Describes options value) :
    ofValue? value = some options := by
  cases value with
  | object members =>
      obtain ⟨fields, binds, defaults⟩ := describes
      exact ofMembers?_of_binds binds (fun _ _ => List.not_mem_nil) defaults
  | array items =>
      obtain ⟨given, others, inOrder, gives, defaults⟩ := describes
      rw [ofValue?, inOrder]
      refine ofItems?_of_gives gives fun field notGiven => defaults field ?_
      exact (List.mem_append.mp (inOrder ▸ field.mem_all)).resolve_left notGiven
  | _ => cases describes

/-- A written form of a value that describes some options is read as these, if their
prefix is a name, and otherwise refused for their prefix. A document that binds a field
twice is malformed, whatever else it holds. -/
theorem ofText_document {text : String} {value : Json.Value}
    (isText : value.IsText text.toList) :
    (∀ options, Describes options value →
      (IsName options.capturePrefix → ofText text = .ok options) ∧
      (¬IsName options.capturePrefix →
        ofText text = .error (.invalidPrefix options.capturePrefix))) ∧
    ∀ members, value = .object members → BindsTwice members →
      ofText text = .error .malformed := by
  have parses := Json.parse?_eq_some_iff.mpr isText
  refine ⟨fun options describes => ?_, fun members isObject twice => ?_⟩
  · have reads : ofText text = options.validate := by
      rw [ofText, parses, Option.bind_some, ofValue?_of_describes describes]
    rw [reads, BasicLowering.Options.validate, ← isIdentifier_iff]
    exact ⟨fun isName => if_pos isName, fun noName => if_neg noName⟩
  · rw [ofText, parses, isObject, Option.bind_some, ofValue?, ofMembers?_of_bindsTwice twice]

/-- An object with blanks, with half of a surrogate pair below an unknown key and with an
escape in a known one, an array whose prefix is no name, and an object that binds a field
twice. -/
theorem ofText_three_documents :
    ofText "\x7b \"x\":[\"\\ud800\"],\"qualify\\u004eames\":false,\"tempNamePrefix\":\"v\"\x7d" =
        .ok { capturePrefix := "v", qualifyNames := false } ∧
      ofText "[\"1\",true]" = .error (.invalidPrefix "1") ∧
      ofText "\x7b\"qualifyNames\":0,\"qualifyNames\":true\x7d" = .error .malformed := by
  have isText (text : String) (value : Json.Value)
      (parses : Json.parse? text.toList = some value) : value.IsText text.toList :=
    Json.parse?_eq_some_iff.mp parses
  have plain (text : String) (isPlain : (text.toList.all fun character =>
      character ≠ '"' ∧ character ≠ '\\' ∧ ' ' ≤ character) = true) :
      Spells text.toList (units text.toList) :=
    Json.spells_plain (List.all_iff_forall_prop.mp isPlain)
  have isUnit : Text.IsHexNumber ['0', '0', '4', 'e'] 0x4e :=
    ⟨[0, 0, 4, 14], by simp [Text.IsHexDigit], rfl⟩
  have isEscapedKey : Field.qualifyNames.IsKey "qualify\\u004eames".toList :=
    Json.spells_append (plain "qualify" (by decide)) (.unit isUnit rfl (plain "ames" (by decide)))
  have notField : ∀ field : Field, "x" ≠ field.key := by
    intro field
    cases field <;> decide
  refine ⟨?_, ?_, ?_⟩
  · refine ((ofText_document (isText _ (.object
      [("x".toList, .array [.string "\\ud800".toList]),
        ("qualify\\u004eames".toList, .boolean false),
        ("tempNamePrefix".toList, .string "v".toList)]) rfl)).1
      { capturePrefix := "v", qualifyNames := false }
      ⟨[.qualifyNames, .capturePrefix], .unknown (plain "x" (by decide)) notField
        (.known isEscapedKey (by decide) rfl
          (.known (plain "tempNamePrefix" (by decide)) List.not_mem_nil
            ⟨_, rfl, plain "v" (by decide)⟩ .nil)), ?_⟩).1 ?_
    · intro field unbound
      cases field <;> first | rfl | exact absurd (by decide) unbound
    · exact ⟨'v', [], rfl, .inl (.inl (by decide)), List.forall_mem_nil _⟩
  · refine ((ofText_document (isText _ (.array [.string "1".toList, .boolean true]) rfl)).1
      { capturePrefix := "1" }
      ⟨[.capturePrefix, .explicitNullableCasts], _, rfl,
        .cons ⟨_, rfl, plain "1" (by decide)⟩ (.cons rfl .nil), ?_⟩).2 ?_
    · intro field isOther
      cases field <;> first | rfl | exact absurd isOther (by decide)
    · rw [← isIdentifier_iff]
      decide
  · exact (ofText_document (isText _ (.object
      [("qualifyNames".toList, .number "0".toList), ("qualifyNames".toList, .boolean true)])
      rfl)).2 _ rfl ⟨.qualifyNames, _, _, List.Sublist.refl _, plain "qualifyNames" (by decide),
        plain "qualifyNames" (by decide)⟩

end BasicLowering.Options
