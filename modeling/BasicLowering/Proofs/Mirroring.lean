/-!
# Steps that mirror each other

Two computations with a state that start from related states, end in related states and
have the same result but for a change. What holds of single steps is carried to whole
computations by the laws here, one for each way in which steps are put together.
-/

namespace BasicLowering

/-- Whether the second result is the changed first one, and the states are related. -/
def Alike {State Result Moved : Type} (related : State → State → Prop)
    (change : Result → Moved) (made : Result × State) (other : Moved × State) : Prop :=
  other.1 = change made.1 ∧ related made.2 other.2

/-- Whether two steps are alike from all related states on. -/
def Mirrors {State Result Moved : Type} (related : State → State → Prop)
    (change : Result → Moved) (step : StateM State Result) (other : StateM State Moved) :
    Prop :=
  ∀ first second, related first second →
    Alike related change (step first) (other second)

namespace Mirrors

variable {State Item Result Moved Final Last : Type} {related : State → State → Prop}
variable {change : Result → Moved} {changeLast : Final → Last}

theorem pure (result : Result) {moved : Moved} (same : moved = change result) :
    Mirrors related change (pure result) (pure moved) :=
  fun _ _ start => ⟨same, start⟩

theorem bind {step : StateM State Result} {other : StateM State Moved}
    {rest : Result → StateM State Final} {next : Moved → StateM State Last}
    (early : Mirrors related change step other)
    (late : ∀ result, Mirrors related changeLast (rest result) (next (change result))) :
    Mirrors related changeLast (step >>= rest) (other >>= next) := by
  intro first second start
  obtain ⟨same, between⟩ := early first second start
  have last := late (step first).1 _ _ between
  change Alike related changeLast _ (next (other second).1 (other second).2)
  rw [same]
  exact last

/-- Where related states are equal, the second step is the first one with its result
changed. -/
theorem eq_map {step : StateM State Result} {other : StateM State Moved}
    (mirrors : Mirrors Eq change step other) : other = change <$> step := by
  funext state
  obtain ⟨same, stays⟩ := mirrors state state rfl
  exact Prod.ext same stays.symm

/-- What is read from the states may decide how to go on. -/
theorem get {rest : State → StateM State Final} {next : State → StateM State Last}
    (late : ∀ first second, related first second →
      Mirrors related changeLast (rest first) (next second)) :
    Mirrors related changeLast (get >>= rest) (get >>= next) :=
  fun first second start => late first second start first second start

/-- Both steps decide in the same way. -/
theorem ite {condition other : Bool} {yes no : StateM State Result}
    {otherYes otherNo : StateM State Moved} (same : other = condition)
    (whenTrue : condition = true → Mirrors related change yes otherYes)
    (whenFalse : condition = false → Mirrors related change no otherNo) :
    Mirrors related change (if condition then yes else no)
      (if other then otherYes else otherNo) := by
  subst same
  cases other with
  | true => exact whenTrue rfl
  | false => exact whenFalse rfl

theorem mapM {step : Item → StateM State Result} {other : Item → StateM State Moved}
    {items : List Item}
    (each : ∀ item ∈ items, Mirrors related change (step item) (other item)) :
    Mirrors related (List.map change) (items.mapM step) (items.mapM other) := by
  induction items with
  | nil => exact .pure [] rfl
  | cons item rest ih =>
      rw [List.forall_mem_cons] at each
      rw [List.mapM_cons, List.mapM_cons]
      exact each.1.bind fun _ => (ih each.2).bind fun _ => .pure _ rfl

theorem foldlM {step : Result → Item → StateM State Result}
    {other : Moved → Item → StateM State Moved} {items : List Item}
    (each : ∀ result, ∀ item ∈ items,
      Mirrors related change (step result item) (other (change result) item))
    (start : Result) :
    Mirrors related change (items.foldlM step start)
      (items.foldlM other (change start)) := by
  induction items generalizing start with
  | nil => exact .pure start rfl
  | cons item rest ih =>
      rw [List.foldlM_cons, List.foldlM_cons]
      refine (each start item List.mem_cons_self).bind fun result => ih ?_ result
      exact fun result item isLater => each result item (List.mem_cons_of_mem _ isLater)

end Mirrors

end BasicLowering
