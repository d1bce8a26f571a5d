import BasicLowering.Source.Builder

/-!
# Growing arenas

Whoever builds on an arena adds nodes to it and changes none that was there, so
what has been found out about the earlier nodes stays true.
-/

namespace BasicLowering.Source

/-- Whether every node of one arena is found unchanged in another one. -/
def Arena.Grows (before after : Arena) : Prop :=
  ∀ slot node, before.node? slot = some node → after.node? slot = some node

theorem Arena.form?_of_nameText? {arena : Arena} {slot : Slot} {text : String}
    (isName : arena.nameText? slot = some text) :
    arena.form? slot = some (.identifier text) := by
  unfold Arena.nameText? at isName
  split at isName
  · next found => rw [found, Option.some.inj isName]
  · cases isName

theorem Arena.form?_setTrivia (arena : Arena) (target slot : Slot)
    (trivia : String) :
    (arena.setTrivia target trivia).form? slot = arena.form? slot := by
  rw [Arena.form?, Arena.node?_setTrivia]
  split
  · rw [Option.map_map]
    rfl
  · rfl

namespace Arena.Grows

variable {first second third : Arena} {slot : Slot}

theorem refl (arena : Arena) : arena.Grows arena :=
  fun _ _ found => found

theorem trans (early : first.Grows second) (late : second.Grows third) :
    first.Grows third :=
  fun slot node found => late slot node (early slot node found)

theorem form? {form : Form} (grows : first.Grows second)
    (found : first.form? slot = some form) : second.form? slot = some form := by
  obtain ⟨node, isNode, rfl⟩ := Option.map_eq_some_iff.mp found
  exact Option.map_eq_some_iff.mpr ⟨node, grows slot node isNode, rfl⟩

/-- Only what is new gets other trivia. -/
theorem setTrivia (grows : first.Grows second)
    (isNew : first.node? slot = none) (trivia : String) :
    first.Grows (second.setTrivia slot trivia) := by
  intro other node found
  rw [Arena.node?_setTrivia, if_neg, grows other node found]
  rintro rfl
  rw [isNew] at found
  cases found

theorem node?_eq_none (grows : first.Grows second)
    (missing : second.node? slot = none) : first.node? slot = none := by
  rw [Option.eq_none_iff_forall_ne_some] at missing ⊢
  exact fun node found => missing node (grows slot node found)

theorem trivia_eq {node : Node} (grows : first.Grows second)
    (isNode : first.node? slot = some node) :
    second.trivia slot = first.trivia slot := by
  rw [Arena.trivia, Arena.trivia, isNode, grows slot node isNode]

theorem nameText? {text : String} (grows : first.Grows second)
    (found : first.nameText? slot = some text) :
    second.nameText? slot = some text := by
  unfold Arena.nameText? at found ⊢
  split at found
  · next form => rw [grows.form? form]; exact found
  · cases found

end Arena.Grows

section

variable (arena : Arena)

/-- The position of the next node holds none. -/
theorem Arena.node?_next : arena.node? (some ⟨arena.size⟩) = none := by
  simp [Arena.node?, Arena.size]

theorem Arena.grows_add (node : Node) : arena.Grows (arena.add node).2 := by
  intro slot other found
  rw [Arena.node?_add, if_neg, found]
  rintro rfl
  rw [show (arena.add node).1 = ⟨arena.size⟩ from rfl, Arena.node?_next] at found
  cases found

theorem Arena.node?_add_self (node : Node) :
    (arena.add node).2.node? (some (arena.add node).1) = some node := by
  rw [Arena.node?_add, if_pos rfl]

end

/-! ## Steps that build -/

namespace Building

variable {Result Final : Type}

@[simp] theorem run_pure (result : Result) (arena : Arena) :
    (pure result : Building Result) arena = (result, arena) :=
  rfl

@[simp] theorem run_bind (step : Building Result)
    (rest : Result → Building Final) (arena : Arena) :
    (step >>= rest) arena = rest (step arena).1 (step arena).2 :=
  rfl

@[simp] theorem run_map (change : Result → Final) (step : Building Result)
    (arena : Arena) :
    (change <$> step) arena = (change (step arena).1, (step arena).2) :=
  rfl

@[simp] theorem run_get (arena : Arena) :
    (get : Building Arena) arena = (arena, arena) :=
  rfl

theorem grows_synthesize (origin : Slot) (form : Form) (arena : Arena) :
    arena.Grows (synthesize origin form arena).2 :=
  arena.grows_add _

theorem form?_synthesize (origin : Slot) (form : Form) (arena : Arena) :
    (synthesize origin form arena).2.form?
      (some (synthesize origin form arena).1) = some form := by
  rw [Arena.form?, synthesize, Arena.node?_add_self]
  rfl

theorem node?_synthesize {origin : Slot} {node : Node} {arena : Arena}
    (isNode : arena.node? origin = some node) (form : Form) :
    (synthesize origin form arena).2.node? (some (synthesize origin form arena).1) =
      some { span := node.span, origin, form } := by
  rw [synthesize, Arena.node?_add_self, isNode]

/-- A copy of the node in a slot with its trivia changed, or the slot itself where
there is nothing to copy or the trivia stay. -/
def copyUnless (stays : String → Prop) [DecidablePred stays]
    (change : String → String) (slot : Slot) : Building Slot :=
  fun arena =>
    match arena.node? slot with
    | none => (slot, arena)
    | some node =>
        if stays node.trivia then
          (slot, arena)
        else
          let (copy, arena) := arena.add
            { node with trivia := change node.trivia, origin := slot }
          (some copy, arena)

theorem withoutTrivia_eq (slot : Slot) :
    withoutTrivia slot = copyUnless (· = "") (fun _ => "") slot :=
  rfl

theorem withPrependedTrivia_eq (slot : Slot) (trivia : String) :
    withPrependedTrivia slot trivia =
      copyUnless (fun _ => trivia = "") (trivia ++ ·) slot :=
  rfl

/-- What comes of a slot that is copied with other trivia: it stays, or refers to
a copy from now on. -/
inductive Copies (arena : Arena) (slot : Slot) : Slot × Arena → Prop where
  | same : Copies arena slot (slot, arena)
  | copy {node : Node} (found : arena.node? slot = some node) (trivia : String) :
      Copies arena slot
        (some (arena.add { node with trivia, origin := slot }).1,
          (arena.add { node with trivia, origin := slot }).2)

theorem copies_copyUnless (stays : String → Prop) [DecidablePred stays]
    (change : String → String) (slot : Slot) (arena : Arena) :
    Copies arena slot (copyUnless stays change slot arena) := by
  unfold copyUnless
  split
  · exact .same
  · next node found =>
      split
      · exact .same
      · exact .copy found (change node.trivia)

theorem copies_withoutTrivia (slot : Slot) (arena : Arena) :
    Copies arena slot (withoutTrivia slot arena) := by
  rw [withoutTrivia_eq]
  exact copies_copyUnless ..

theorem copies_withPrependedTrivia (slot : Slot) (trivia : String) (arena : Arena) :
    Copies arena slot (withPrependedTrivia slot trivia arena) := by
  rw [withPrependedTrivia_eq]
  exact copies_copyUnless ..

theorem Copies.grows {arena : Arena} {slot : Slot} {made : Slot × Arena}
    (copies : Copies arena slot made) : arena.Grows made.2 := by
  cases copies with
  | same => exact .refl arena
  | copy => exact arena.grows_add _

/-- A copy has the text of the node. -/
theorem Copies.nameText?_eq {arena : Arena} {slot : Slot} {made : Slot × Arena}
    (copies : Copies arena slot made) :
    made.2.nameText? made.1 = arena.nameText? slot := by
  cases copies with
  | same => rfl
  | copy found =>
      simp only [Arena.nameText?, Arena.form?, Arena.node?_add_self, found]
      rfl

/-- A copy without trivia has none, nor has what needs no copy. -/
theorem trivia_withoutTrivia (arena : Arena) (slot : Slot) :
    (withoutTrivia slot arena).2.trivia (withoutTrivia slot arena).1 = "" := by
  unfold withoutTrivia
  split
  · next missing => simp [Arena.trivia, missing]
  · next node found =>
      split
      · next noTrivia => simpa [Arena.trivia, found] using noTrivia
      · simp [Arena.trivia, Arena.node?_add_self]

end Building

end BasicLowering.Source
