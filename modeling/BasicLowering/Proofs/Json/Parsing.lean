import BasicLowering.Proofs.Json.Lexing
import BasicLowering.Proofs.Json.Readings

/-!
# Reading values

A value is put together from its tokens with the open containers in a list. The state
tells which tokens it has read, so a value is complete behind its own tokens and behind
no others, and a text denotes a value exactly if it is a written form of the value.
-/

namespace BasicLowering.Json

variable {tokens tail : List Token} {token : Token}

/-! ## Tokens of a value stand apart -/

theorem apart_cons (notBare : token.isBare = false) (apart : Apart tail) :
    Apart (token :: tail) :=
  List.isChain_cons.mpr ⟨fun _ _ => .inl notBare, apart⟩

theorem apart_bare (apart : Apart tail)
    (begins : ∀ next ∈ tail.head?, next.isBare = false) : Apart (token :: tail) :=
  List.isChain_cons.mpr ⟨fun next isNext => .inr (begins next isNext), apart⟩

namespace Value

mutual

theorem apart_tokens_append {tail : List Token} (apart : Apart tail)
    (begins : ∀ next ∈ tail.head?, next.isBare = false) :
    (value : Value) → Apart (value.tokens ++ tail)
  | null => apart_bare apart begins
  | boolean _ => apart_bare apart begins
  | number _ => apart_bare apart begins
  | string _ => apart_cons rfl apart
  | array [] => apart_cons rfl (apart_cons rfl apart)
  | array (first :: rest) => by
      obtain ⟨others, marked⟩ := apart_afterItem_append apart rest
      rw [tokens, List.cons_append, List.append_assoc]
      exact apart_cons rfl (apart_tokens_append others marked first)
  | object [] => apart_cons rfl (apart_cons rfl apart)
  | object ((_, first) :: rest) => by
      obtain ⟨others, marked⟩ := apart_afterMember_append apart rest
      rw [tokens, List.cons_append, List.cons_append, List.cons_append, List.append_assoc]
      exact apart_cons rfl (apart_cons rfl
        (apart_cons rfl (apart_tokens_append others marked first)))

theorem apart_afterItem_append {tail : List Token} (apart : Apart tail) :
    (rest : List Value) → Apart (afterItem rest ++ tail) ∧
      ∀ next ∈ (afterItem rest ++ tail).head?, next.isBare = false
  | [] => ⟨apart_cons rfl apart, by rintro _ ⟨⟩; rfl⟩
  | item :: rest => by
      obtain ⟨others, marked⟩ := apart_afterItem_append apart rest
      rw [afterItem, List.cons_append, List.append_assoc]
      exact ⟨apart_cons rfl (apart_tokens_append others marked item),
        by rintro _ ⟨⟩; rfl⟩

theorem apart_afterMember_append {tail : List Token} (apart : Apart tail) :
    (rest : List (List Char × Value)) → Apart (afterMember rest ++ tail) ∧
      ∀ next ∈ (afterMember rest ++ tail).head?, next.isBare = false
  | [] => ⟨apart_cons rfl apart, by rintro _ ⟨⟩; rfl⟩
  | (_, value) :: rest => by
      obtain ⟨others, marked⟩ := apart_afterMember_append apart rest
      rw [afterMember, List.cons_append, List.cons_append, List.cons_append,
        List.append_assoc]
      exact ⟨apart_cons rfl (apart_cons rfl
        (apart_cons rfl (apart_tokens_append others marked value))), by rintro _ ⟨⟩; rfl⟩

end

theorem apart_tokens (value : Value) : Apart value.tokens := by
  rw [← List.append_nil value.tokens]
  exact apart_tokens_append .nil (fun _ isNext => by cases isNext) value

end Value

/-! ## Putting a value together -/

namespace Assembly

variable {state next : Assembly} {outer : List Frame} {value : Value} {key : List Char}
  {items : List Value} {members : List (List Char × Value)}

/-- Whether a value may begin in a state, as the next one of some open containers. A
closing bracket begins no value, and closes an array that has just been opened. -/
def Awaits (state : Assembly) (outer : List Frame) : Prop :=
  ∀ token ≠ .rightBracket, state.step token = start? outer token

theorem awaits_awaitValue (outer : List Frame) : Awaits (.awaitValue outer) outer :=
  fun _ _ => rfl

theorem awaits_inArray : Awaits (.inArray outer) (.array [] :: outer) := by
  intro token notEnd
  cases token with
  | rightBracket => exact absurd rfl notEnd
  | _ => rfl

theorem step_firstKey :
    step (.inObject outer) (.string key) = some (.awaitColon [] key outer) :=
  rfl

theorem step_key :
    step (.awaitKey members outer) (.string key) = some (.awaitColon members key outer) :=
  rfl

theorem step_colon :
    step (.awaitColon members key outer) .colon =
      some (.awaitValue (.object members key :: outer)) :=
  rfl

theorem step_commaInArray :
    step (.complete value (.array items :: outer)) .comma =
      some (.awaitValue (.array (value :: items) :: outer)) :=
  rfl

theorem step_commaInObject :
    step (.complete value (.object members key :: outer)) .comma =
      some (.awaitKey ((key, value) :: members) outer) :=
  rfl

mutual

/-- A value is complete behind its tokens. -/
theorem read_tokens {state : Assembly} {outer : List Frame} (awaits : state.Awaits outer) :
    (value : Value) → value.tokens.foldlM step state = some (.complete value outer)
  | .null => read_cons (awaits _ Token.noConfusion) []
  | .boolean _ => read_cons (awaits _ Token.noConfusion) []
  | .number _ => read_cons (awaits _ Token.noConfusion) []
  | .string _ => read_cons (awaits _ Token.noConfusion) []
  | .array [] => by
      rw [Value.tokens, read_cons (awaits _ Token.noConfusion)]
      rfl
  | .array (first :: rest) => by
      rw [Value.tokens, read_cons (awaits _ Token.noConfusion), List.foldlM_append,
        read_tokens awaits_inArray first]
      exact read_afterItem first [] rest
  | .object [] => by
      rw [Value.tokens, read_cons (awaits _ Token.noConfusion)]
      rfl
  | .object ((key, first) :: rest) => by
      rw [Value.tokens, read_cons (awaits _ Token.noConfusion), read_cons step_firstKey,
        read_cons step_colon, List.foldlM_append, read_tokens (awaits_awaitValue _) first]
      exact read_afterMember key first [] rest

theorem read_afterItem {outer : List Frame} (last : Value) (before : List Value) :
    (rest : List Value) →
    (Value.afterItem rest).foldlM step (.complete last (.array before :: outer)) =
      some (.complete (.array ((last :: before).reverse ++ rest)) outer)
  | [] => by
      rw [List.append_nil]
      rfl
  | item :: rest => by
      rw [Value.afterItem, read_cons step_commaInArray, List.foldlM_append,
        read_tokens (awaits_awaitValue _) item, List.append_cons, ← List.reverse_cons]
      exact read_afterItem item (last :: before) rest

theorem read_afterMember {outer : List Frame} (key : List Char) (last : Value)
    (before : List (List Char × Value)) :
    (rest : List (List Char × Value)) →
    (Value.afterMember rest).foldlM step
        (.complete last (.object before key :: outer)) =
      some (.complete (.object (((key, last) :: before).reverse ++ rest)) outer)
  | [] => by
      rw [List.append_nil]
      rfl
  | (next, value) :: rest => by
      rw [Value.afterMember, read_cons step_commaInObject, read_cons step_key,
        read_cons step_colon, List.foldlM_append, read_tokens (awaits_awaitValue _) value,
        List.append_cons, ← List.reverse_cons]
      exact read_afterMember next value ((key, last) :: before) rest

end

/-! ## What has been read -/

/-- The tokens of an array up to where its next item begins, given the items before it,
the last one first. -/
def frontOfArray : (before : List Value) → List Token
  | [] => [.leftBracket]
  | last :: before => frontOfArray before ++ (last.tokens ++ [.comma])

/-- The tokens of an object up to where its next key begins, given the members before it,
the last one first. -/
def frontOfObject : (before : List (List Char × Value)) → List Token
  | [] => [.leftBrace]
  | (key, last) :: before =>
      frontOfObject before ++ .string key :: .colon :: (last.tokens ++ [.comma])

/-- The tokens of a container that is still open, up to where its next value begins. -/
def frontOfFrame : Frame → List Token
  | .array before => frontOfArray before
  | .object before key => frontOfObject before ++ [.string key, .colon]

/-- The tokens of the containers that are still open. -/
def front : (outer : List Frame) → List Token
  | [] => []
  | frame :: outer => front outer ++ frontOfFrame frame

/-- The tokens that have been read in a state. -/
def hasRead : Assembly → List Token
  | awaitValue outer => front outer
  | inArray outer => front outer ++ [.leftBracket]
  | inObject outer => front outer ++ [.leftBrace]
  | awaitKey before outer => front outer ++ frontOfObject before
  | awaitColon before key outer => front outer ++ (frontOfObject before ++ [.string key])
  | complete value outer => front outer ++ value.tokens

theorem tokens_array (last : Value) (before rest : List Value) :
    (Value.array ((last :: before).reverse ++ rest)).tokens =
      frontOfArray before ++ (last.tokens ++ Value.afterItem rest) := by
  induction before generalizing last rest with
  | nil => rfl
  | cons item before ih =>
      rw [List.reverse_cons, List.append_assoc, ih item ([last] ++ rest)]
      simp [frontOfArray, Value.afterItem]

theorem tokens_object (key : List Char) (last : Value)
    (before rest : List (List Char × Value)) :
    (Value.object (((key, last) :: before).reverse ++ rest)).tokens =
      frontOfObject before ++
        .string key :: .colon :: (last.tokens ++ Value.afterMember rest) := by
  induction before generalizing key last rest with
  | nil => rfl
  | cons member before ih =>
      obtain ⟨earlier, value⟩ := member
      rw [List.reverse_cons, List.append_assoc, ih earlier value ([(key, last)] ++ rest)]
      simp [frontOfObject, Value.afterMember]

theorem hasRead_start? (starts : start? outer token = some next) :
    next.hasRead = front outer ++ [token] := by
  cases token <;> cases starts <;> rfl

theorem hasRead_step (steps : state.step token = some next) :
    next.hasRead = state.hasRead ++ [token] := by
  cases state with
  | awaitValue outer => exact hasRead_start? steps
  | inArray outer =>
      by_cases isEnd : token = .rightBracket
      · subst isEnd
        cases steps
        simp [hasRead, Value.tokens]
      · rw [awaits_inArray token isEnd] at steps
        exact hasRead_start? steps
  | inObject outer =>
      cases token with
      | rightBrace =>
          cases steps
          simp [hasRead, Value.tokens]
      | string key =>
          cases steps
          exact (List.append_assoc ..).symm
      | _ => cases steps
  | awaitKey before outer =>
      cases token with
      | string key =>
          cases steps
          exact (List.append_assoc ..).symm
      | _ => cases steps
  | awaitColon before key outer =>
      cases token with
      | colon =>
          cases steps
          simp [hasRead, front, frontOfFrame]
      | _ => cases steps
  | complete value outer =>
      obtain _ | ⟨frame, outer⟩ := outer
      · cases steps
      cases frame with
      | array before =>
          cases token with
          | comma =>
              cases steps
              simp [hasRead, front, frontOfFrame, frontOfArray]
          | rightBracket =>
              cases steps
              simpa [hasRead, front, frontOfFrame, Value.afterItem]
                using tokens_array value before []
          | _ => cases steps
      | object before key =>
          cases token with
          | comma =>
              cases steps
              simp [hasRead, front, frontOfFrame, frontOfObject]
          | rightBrace =>
              cases steps
              simpa [hasRead, front, frontOfFrame, Value.afterMember]
                using tokens_object key value before []
          | _ => cases steps

theorem hasRead_foldlM (reads : tokens.foldlM step state = some next) :
    next.hasRead = state.hasRead ++ tokens := by
  have keeps {state next : Assembly} {read : List Token} {token : Token}
      (has : state.hasRead = read) (steps : state.step token = some next) :
      next.hasRead = read ++ [token] := by
    rw [hasRead_step steps, has]
  exact @foldlM_keeps _ _ _ (fun state read => state.hasRead = read) keeps _ _ _ _ rfl reads

end Assembly

/-- A text denotes a value exactly if it is a written form of the value. -/
theorem parse?_eq_some_iff {text : List Char} {value : Value} :
    parse? text = some value ↔ value.IsText text := by
  constructor
  · intro reads
    obtain ⟨tokens, lexes, reads⟩ := Option.bind_eq_some_iff.mp reads
    obtain ⟨state, assembles, ends⟩ := Option.bind_eq_some_iff.mp reads
    have same : value.tokens = tokens := by
      split at ends
      · cases ends
        exact Assembly.hasRead_foldlM assembles
      · cases ends
    rw [Value.IsText, same]
    exact spaced_of_tokens? lexes
  · intro isText
    have lexes := tokens?_of_spaced isText value.apart_tokens
    have assembles := Assembly.read_tokens (Assembly.awaits_awaitValue []) value
    simp [parse?, lexes, assembles]

end BasicLowering.Json
