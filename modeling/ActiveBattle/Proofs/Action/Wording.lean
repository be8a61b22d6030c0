import ActiveBattle.Action.Choice

/-!
# The wording of messages

What a message says is for the player. `GameState.Paraphrases` says of two games that they differ in
the wording of their messages alone. Actions do not even ask whether a message is open
(`GameState.ResultIgnoresMessage`), so they come to the same in both.
-/

namespace ActiveBattle

set_option autoImplicit false

namespace MessageBox

/-- As many pages with nothing on them. -/
def blank (m : MessageBox) : MessageBox := ⟨m.pages.map fun _ => ""⟩

theorem blank_eq_iff {m m' : MessageBox} :
    m'.blank = m.blank ↔ m'.pages.length = m.pages.length := by
  simp only [blank, List.map_const', MessageBox.mk.injEq, List.replicate_inj, or_true, and_true]

@[simp] theorem isActive_blank (m : MessageBox) : m.blank.isActive = m.isActive := by
  simp only [blank, isActive, List.isEmpty_map]

theorem push_blank {m m' : MessageBox} (h : m'.blank = m.blank) (text text' : String) :
    (m'.push text').blank = (m.push text).blank := by
  rw [blank_eq_iff] at h ⊢
  simp only [push, List.length_append, h, List.length_cons]

theorem advance_blank {m m' : MessageBox} (h : m'.blank = m.blank) :
    m'.advance.blank = m.advance.blank := by
  rw [blank_eq_iff] at h ⊢
  simp only [advance, List.length_tail, h]

end MessageBox

namespace GameState

/-- The game with other messages. -/
def withMessage (g : GameState) (m : MessageBox) : GameState := { g with message := m }

/-- The game with nothing on the pages of its messages. -/
def withBlankMessage (g : GameState) : GameState := g.withMessage g.message.blank

/-- The games differ in the wording of their messages alone. -/
def Paraphrases (g g' : GameState) : Prop := g'.withBlankMessage = g.withBlankMessage

/-- Messages are neither read nor written. -/
def IgnoresMessage (f : GameState → GameState) : Prop :=
  ∀ g m, f (g.withMessage m) = (f g).withMessage m

/-- Messages are neither read nor written, for a result besides the game. -/
def ResultIgnoresMessage {α : Type} (f : GameState → α × GameState) : Prop :=
  ∀ g m, f (g.withMessage m) = ((f g).1, (f g).2.withMessage m)

theorem ResultIgnoresMessage.ignoresMessage {α : Type} {f : GameState → α × GameState}
    (hf : ResultIgnoresMessage f) : IgnoresMessage fun g => (f g).2 :=
  fun g m => congrArg Prod.snd (hf g m)

namespace Paraphrases

variable {g g' : GameState}

/-- What does not depend on the wording is the same of both. -/
theorem read (h : Paraphrases g g') {α : Type} (p : GameState → α) :
    p g'.withBlankMessage = p g.withBlankMessage := congrArg p h

theorem eq (h : Paraphrases g g') : g' = g.withMessage g'.message :=
  h.read (·.withMessage g'.message)

theorem blank_eq (h : Paraphrases g g') : g'.message.blank = g.message.blank := h.read (·.message)

theorem isActive_eq (h : Paraphrases g g') : g'.message.isActive = g.message.isActive := by
  rw [← MessageBox.isActive_blank, h.blank_eq, MessageBox.isActive_blank]

theorem of_withMessage {m : MessageBox} (h : m.blank = g.message.blank) :
    Paraphrases g (g.withMessage m) :=
  congrArg g.withMessage h

theorem ignoresMessage {f : GameState → GameState} (hf : IgnoresMessage f) (h : Paraphrases g g') :
    Paraphrases (f g) (f g') := by
  have hkept : (f g).message = g.message := congrArg (·.message) (hf g g.message)
  rw [h.eq, hf]
  apply of_withMessage
  rw [hkept, h.blank_eq]

theorem resultIgnoresMessage {α : Type} {f : GameState → α × GameState}
    (hf : ResultIgnoresMessage f) (h : Paraphrases g g') :
    (f g').1 = (f g).1 ∧ Paraphrases (f g).2 (f g').2 :=
  ⟨(congrArg (fun g => (f g).1) h.eq).trans (congrArg (·.1) (hf g g'.message)),
    h.ignoresMessage hf.ignoresMessage⟩

theorem showMessage (h : Paraphrases g g') (text text' : String) :
    Paraphrases (g.showMessage text) (g'.showMessage text') := by
  rw [h.eq]
  exact of_withMessage (MessageBox.push_blank h.blank_eq text text')

theorem advance (h : Paraphrases g g') :
    Paraphrases { g with message := g.message.advance }
      { g' with message := g'.message.advance } := by
  rw [h.eq]
  exact of_withMessage (MessageBox.advance_blank h.blank_eq)

theorem showMessages (h : Paraphrases g g') {texts texts' : List String}
    (hlength : texts'.length = texts.length) :
    Paraphrases (texts.foldl (·.showMessage ·) g) (texts'.foldl (·.showMessage ·) g') := by
  induction texts generalizing texts' g g' with
  | nil =>
    obtain rfl := List.eq_nil_of_length_eq_zero hlength
    exact h
  | cons text texts ih =>
    obtain ⟨text', texts', rfl⟩ := List.exists_cons_of_length_eq_add_one hlength
    exact ih (h.showMessage text text') (Nat.succ.inj hlength)

end Paraphrases

end GameState

namespace Action

open GameState (ResultIgnoresMessage IgnoresMessage)

theorem randomPresent_withMessage (side : Side) (g : GameState) (m : MessageBox) :
    (g.withMessage m).randomPresent side =
      ((g.randomPresent side).1, (g.randomPresent side).2.withMessage m) := by
  unfold GameState.randomPresent
  rw [show (g.withMessage m).roster = g.roster from rfl,
    show (g.withMessage m).dice = g.dice from rfl]
  generalize g.roster.randomPresent side g.dice = picked
  rfl

section Performing

variable (a : Action)

theorem retarget_resultIgnoresMessage : ResultIgnoresMessage a.retarget := by
  intro g m
  unfold retarget
  split
  · rfl
  · rw [show (g.withMessage m).roster = g.roster from rfl]
    split
    · rw [randomPresent_withMessage _ g m]
      rcases g.randomPresent _ with ⟨_ | replacement, g⟩ <;> rfl
    · rfl

theorem aim_resultIgnoresMessage : ResultIgnoresMessage a.aim := by
  intro g m
  unfold aim
  rw [show (g.withMessage m).database = g.database from rfl]
  split
  · exact a.retarget_resultIgnoresMessage g m
  · split <;> rfl

theorem payCost_ignoresMessage : IgnoresMessage a.payCost := by
  intro g m
  unfold payCost
  split
  · rfl
  · split <;> rfl
  · rfl

theorem start_resultIgnoresMessage : ResultIgnoresMessage a.start := by
  intro g m
  unfold start
  rw [aim_resultIgnoresMessage _ g m]
  exact Prod.ext rfl (payCost_ignoresMessage _ _ m)

theorem execute_resultIgnoresMessage : ResultIgnoresMessage a.execute := by
  intro g m
  unfold execute
  rw [show (g.withMessage m).roster = g.roster from rfl]
  split <;> rfl

theorem apply_resultIgnoresMessage : ResultIgnoresMessage a.apply := by
  intro g m
  unfold apply
  rw [show (g.withMessage m).roster = g.roster from rfl]
  split
  · rfl
  · split
    · rfl
    · split
      · rfl
      · split <;> rfl

theorem setSwitches_ignoresMessage : IgnoresMessage a.setSwitches := by
  intro g m
  unfold setSwitches
  split
  · rw [show (g.withMessage m).database = g.database from rfl]
    split <;> rfl
  · rfl

end Performing

section Choosing

variable (source : BattlerId)

theorem attackOn_resultIgnoresMessage (side : Side) :
    ResultIgnoresMessage (attackOn source side) := by
  intro g m
  unfold attackOn
  rw [randomPresent_withMessage side g m]
  rcases g.randomPresent side with ⟨_ | target, g⟩ <;> rfl

theorem pickFor_resultIgnoresMessage (scope : Scope) :
    ResultIgnoresMessage (pickFor source scope) := by
  intro g m
  unfold pickFor
  split
  · exact randomPresent_withMessage _ g m
  · exact randomPresent_withMessage _ g m
  · exact randomPresent_withMessage _ g m
  · exact randomPresent_withMessage _ g m
  · rfl

theorem ofEnemyAction_resultIgnoresMessage (kind : EnemyActionKind) :
    ResultIgnoresMessage (ofEnemyAction source kind) := by
  intro g m
  unfold ofEnemyAction
  split
  · exact attackOn_resultIgnoresMessage source .ally g m
  · rfl
  · dsimp only
    rw [show (g.withMessage m).database = g.database from rfl,
      pickFor_resultIgnoresMessage source _ g m]
    rfl
  · rfl

theorem chooseEnemy_resultIgnoresMessage : ResultIgnoresMessage (chooseEnemy source) := by
  intro g m
  unfold chooseEnemy
  rw [show (g.withMessage m).roster = g.roster from rfl,
    show (g.withMessage m).database = g.database from rfl]
  split
  · rfl
  · split
    · rfl
    · dsimp only
      rw [show (g.withMessage m).dice = g.dice from rfl]
      generalize g.dice.between _ _ = rolled
      split
      · exact ofEnemyAction_resultIgnoresMessage source .attack g m
      · exact ofEnemyAction_resultIgnoresMessage source _ { g with dice := rolled.2 } m

theorem restricted_withMessage (g : GameState) (m : MessageBox) :
    restricted source (g.withMessage m) = (restricted source g).map fun p =>
      (p.1, p.2.withMessage m) := by
  unfold restricted
  rw [show (g.withMessage m).roster = g.roster from rfl,
    show (g.withMessage m).database = g.database from rfl]
  split
  · rfl
  · split
    · rfl
    · rfl
    · exact congrArg some (attackOn_resultIgnoresMessage source _ g m)
    · exact congrArg some (attackOn_resultIgnoresMessage source _ g m)

theorem restricted_paraphrases {g g' : GameState} (h : g.Paraphrases g') :
    Option.Rel (fun p q => q.1 = p.1 ∧ p.2.Paraphrases q.2) (restricted source g)
      (restricted source g') := by
  have hkept : restricted source g = (restricted source g).map fun p =>
      (p.1, p.2.withMessage g.message) :=
    restricted_withMessage source g g.message
  rw [h.eq, restricted_withMessage]
  cases hrestricted : restricted source g with
  | none => exact .none
  | some p =>
    rw [hrestricted] at hkept
    have hmessage : p.2.message = g.message :=
      congrArg (fun p => p.2.message) (Option.some.inj hkept)
    exact .some ⟨rfl, .of_withMessage (by rw [h.blank_eq, hmessage])⟩

theorem chooseFor_resultIgnoresMessage (c : Chooser) :
    ResultIgnoresMessage (c.chooseFor source) := by
  intro g m
  have hchoose : ResultIgnoresMessage (c.choose source) := by
    cases c with
    | enemy => exact chooseEnemy_resultIgnoresMessage source
    | auto => exact attackOn_resultIgnoresMessage source _
  unfold Chooser.chooseFor
  rw [restricted_withMessage, hchoose g m]
  cases restricted source g <;> rfl

end Choosing

end Action

end ActiveBattle
