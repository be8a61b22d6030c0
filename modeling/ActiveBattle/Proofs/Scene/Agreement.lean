import ActiveBattle.Proofs.Script.Wording
import ActiveBattle.Scene.Frame
import Mathlib.Tactic.GCongr

/-!
# Battles that agree

Two battles can be told to agree in everything but what is set aside: the words that are shown, or
the clock. Whatever a step reads is the same of both (`Scene.Agrees.read`), and the steps that
scenes are made of keep up the agreement.
-/

namespace ActiveBattle

set_option autoImplicit false

/-- What two battles may differ in. -/
inductive Difference where
  /-- What is shown and said in words, and for how long numbers float. -/
  | words
  /-- Which frame it is, and what is counted and listed frame by frame. -/
  | clock

/-- Whether there is a text, without what it says. -/
def announced (text : String) : String := if text.isEmpty then "" else "!"

theorem isEmpty_announced (text : String) : (announced text).isEmpty = text.isEmpty := by
  unfold announced
  cases h : text.isEmpty <;> rfl

/-- The configuration with no words in it, except that the announcements of the opening are still
made or not. -/
def BattleConfig.plain (c : BattleConfig) : BattleConfig :=
  { c with
    invertAnimations := false
    floatTextFrames := 0
    terms :=
      { battleStart := announced c.terms.battleStart
        specialCombat := announced c.terms.specialCombat
        escapeFailure := ""
        miss := ""
        victory := ""
        defeat := ""
        expReceived := ""
        goldReceived := ""
        itemReceived := "" } }

/-- The menus with cursors that do not blink. -/
def Menus.still (m : Menus) : Menus := { m with cursorCycle := 0 }

def LogEntry.undated (e : LogEntry) : LogEntry := { e with frame := 0 }

namespace GameState

def without : Difference → GameState → GameState
  | .words, g => g.withBlankMessage
  | .clock, g => g

def Agrees (a : Difference) (g g' : GameState) : Prop := g'.without a = g.without a

namespace Agrees

variable {a : Difference} {g g' : GameState}

theorem paraphrases (h : Agrees a g g') : Paraphrases g g' := by
  cases a with
  | words => exact h
  | clock => exact congrArg withBlankMessage h

theorem ignoresMessage {f : GameState → GameState} (hf : IgnoresMessage f) (h : Agrees a g g') :
    Agrees a (f g) (f g') := by
  cases a with
  | words => exact Paraphrases.ignoresMessage hf h
  | clock => exact congrArg f h

theorem resultIgnoresMessage {α : Type} {f : GameState → α × GameState}
    (hf : ResultIgnoresMessage f) (h : Agrees a g g') :
    (f g').1 = (f g).1 ∧ Agrees a (f g).2 (f g').2 :=
  ⟨(h.paraphrases.resultIgnoresMessage hf).1, h.ignoresMessage hf.ignoresMessage⟩

theorem restricted (h : Agrees a g g') (source : BattlerId) :
    Option.Rel (fun p q => q.1 = p.1 ∧ Agrees a p.2 q.2) (Action.restricted source g)
      (Action.restricted source g') := by
  cases a with
  | words => exact Action.restricted_paraphrases source h
  | clock =>
    obtain rfl : g' = g := h
    cases Action.restricted source g' with
    | none => exact .none
    | some p => exact .some ⟨rfl, rfl⟩

end Agrees

end GameState

namespace World

variable {σ : Type}

def without : Difference → World σ → World σ
  | .words, w => w.withBlankMessage
  | .clock, w => w

def Agrees (a : Difference) (w w' : World σ) : Prop := w'.without a = w.without a

namespace Agrees

variable {a : Difference} {w w' : World σ}

theorem game (h : Agrees a w w') : w.game.Agrees a w'.game := by
  cases a <;> exact congrArg World.game h

theorem modifyGame (h : Agrees a w w') {f f' : GameState → GameState}
    (hf : (f w.game).Agrees a (f' w'.game)) :
    Agrees a (w.modifyGame f) (w'.modifyGame f') := by
  cases a with
  | words => exact World.Paraphrases.modifyGame h hf
  | clock =>
    obtain rfl : w' = w := h
    exact congrArg (fun game => { w' with game := game }) hf

theorem play (h : Agrees a w w') (se : SoundEffect) : Agrees a (w.play se) (w'.play se) := by
  cases a <;> exact congrArg (·.play se) h

theorem playSystem (h : Agrees a w w') (sound : SystemSound) :
    Agrees a (w.playSystem sound) (w'.playSystem sound) := by
  cases a <;> exact congrArg (·.playSystem sound) h

theorem concurs {α : Type} {f : World σ → α × World σ}
    (hf : ∀ {w w' : World σ}, Paraphrases w w' → (f w').1 = (f w).1 ∧ Paraphrases (f w).2 (f w').2)
    (h : Agrees a w w') : (f w').1 = (f w).1 ∧ Agrees a (f w).2 (f w').2 := by
  cases a with
  | words => exact hf h
  | clock =>
    obtain rfl : w' = w := h
    exact ⟨rfl, rfl⟩

end Agrees

end World

namespace Scene

variable {σ : Type}

/-- The scene without what is set aside. -/
def without : Difference → Scene σ → Scene σ
  | .words, s =>
    { s with
      config := s.config.plain
      world := s.world.withBlankMessage
      floatTexts := []
      notification := none }
  | .clock, s => { s with frame := 0, steps := [], log := s.log.map (·.undated), ui := s.ui.still }

/-- What is left of a scene when both is set aside. -/
def deeds (s : Scene σ) : Scene σ := (s.without .words).without .clock

/-- The scenes differ only in what is set aside. -/
def Agrees (a : Difference) (s t : Scene σ) : Prop := t.without a = s.without a

/-- The same comes of both, and the scenes differ only in what is set aside. -/
structure Concurs {α : Type} (a : Difference) (p q : α × Scene σ) : Prop where
  same : q.1 = p.1
  rest : Agrees a p.2 q.2

theorem Concurs.elim {α : Type} {a : Difference} {p q : α × Scene σ} (h : Concurs a p q) :
    ∃ x s t, p = (x, s) ∧ q = (x, t) ∧ Agrees a s t :=
  ⟨p.1, p.2, q.2, rfl, Prod.ext h.same rfl, h.rest⟩

/-- As `Concurs`, of a scene with something besides. -/
structure ConcursWith {α : Type} (a : Difference) (p q : Scene σ × α) : Prop where
  same : q.2 = p.2
  rest : Agrees a p.1 q.1

theorem ConcursWith.elim {α : Type} {a : Difference} {p q : Scene σ × α} (h : ConcursWith a p q) :
    ∃ s t x, p = (s, x) ∧ q = (t, x) ∧ Agrees a s t :=
  ⟨p.1, q.1, p.2, rfl, Prod.ext rfl h.same, h.rest⟩

theorem ConcursWith.either {α : Type} {a : Difference} {p : Prop} [Decidable p]
    {x x' y y' : Scene σ × α} (h : ConcursWith a x x') (h' : ConcursWith a y y') :
    ConcursWith a (if p then x else y) (if p then x' else y') := by
  split
  · exact h
  · exact h'

namespace Agrees

variable {a : Difference} {s t : Scene σ}

theorem deeds_eq (h : Agrees a s t) : t.deeds = s.deeds := by
  cases a with
  | words => exact congrArg (without .clock) h
  | clock => exact congrArg (without .words) h

/-- What is not set aside is the same of both. -/
theorem read (h : Agrees a s t) {α : Type} (p : Scene σ → α) : p t.deeds = p s.deeds :=
  congrArg p h.deeds_eq

theorem store (h : Agrees a s t) : t.store = s.store := h.read (·.store)

theorem director (h : Agrees a s t) : t.director = s.director := h.read (·.director)

theorem runners (h : Agrees a s t) : t.runners = s.runners := h.read (·.runners)

theorem state (h : Agrees a s t) : t.state = s.state := h.read (·.state)

theorem previousState (h : Agrees a s t) : t.previousState = s.previousState :=
  h.read (·.previousState)

theorem substate (h : Agrees a s t) : t.substate = s.substate := h.read (·.substate)

theorem queue (h : Agrees a s t) : t.queue = s.queue := h.read (·.queue)

theorem pending (h : Agrees a s t) : t.pending = s.pending := h.read (·.pending)

theorem activeActor (h : Agrees a s t) : t.activeActor = s.activeActor := h.read (·.activeActor)

theorem result (h : Agrees a s t) : t.result = s.result := h.read (·.result)

theorem roster (h : Agrees a s t) : t.roster = s.roster := h.read (·.roster)

theorem database (h : Agrees a s t) : t.database = s.database := h.read (·.database)

theorem condition (h : Agrees a s t) : t.condition = s.condition := h.read (·.condition)

/-- The same is done to both, apart from what is set aside. -/
theorem apart (h : Agrees a s t) {α : Type} (p : Scene σ → α) : p (t.without a) = p (s.without a) :=
  congrArg p h

theorem world (h : Agrees a s t) : s.world.Agrees a t.world := by
  cases a <;> exact h.apart Scene.world

theorem game (h : Agrees a s t) : s.game.Agrees a t.game := h.world.game

theorem isActive (h : Agrees a s t) : t.game.message.isActive = s.game.message.isActive :=
  h.game.paraphrases.isActive_eq

theorem withWorld (h : Agrees a s t) {w w' : World σ} (hw : w.Agrees a w') :
    Agrees a { s with world := w } { t with world := w' } := by
  cases a with
  | words =>
    change ({ t.without .words with world := w'.withBlankMessage } : Scene σ) =
      { s.without .words with world := w.withBlankMessage }
    rw [show t.without .words = s.without .words from h,
      show w'.withBlankMessage = w.withBlankMessage from hw]
  | clock =>
    obtain rfl : w' = w := hw
    exact congrArg (fun u : Scene σ => { u with world := w' }) h

theorem withDirector (h : Agrees a s t) (d : Director) :
    Agrees a { s with director := d } { t with director := d } := by
  cases a <;> exact h.apart fun u => { u with director := d }

theorem modifyWorld (h : Agrees a s t) {f f' : World σ → World σ}
    (hf : (f s.world).Agrees a (f' t.world)) :
    Agrees a (s.modifyWorld f) (t.modifyWorld f') :=
  h.withWorld hf

theorem modifyGame (h : Agrees a s t) {f f' : GameState → GameState}
    (hf : (f s.game).Agrees a (f' t.game)) :
    Agrees a (s.modifyGame f) (t.modifyGame f') :=
  h.modifyWorld (h.world.modifyGame hf)

theorem withGame (h : Agrees a s t) {g g' : GameState} (hg : g.Agrees a g') :
    Agrees a (s.modifyGame fun _ => g) (t.modifyGame fun _ => g') :=
  h.modifyGame hg

theorem ignoresMessage (h : Agrees a s t) {f : GameState → GameState}
    (hf : GameState.IgnoresMessage f) :
    Agrees a (s.modifyGame f) (t.modifyGame f) :=
  h.modifyGame (h.game.ignoresMessage hf)

theorem either {p : Prop} [Decidable p] {u v : Scene σ} (h : Agrees a s t) (h' : Agrees a u v) :
    Agrees a (if p then s else u) (if p then t else v) := by
  split
  · exact h
  · exact h'

theorem foldl {α : Type} {f f' : Scene σ → α → Scene σ}
    (hf : ∀ (x : α) {u v : Scene σ}, Agrees a u v → Agrees a (f u x) (f' v x)) (h : Agrees a s t)
    (l : List α) :
    Agrees a (l.foldl f s) (l.foldl f' t) := by
  induction l generalizing s t with
  | nil => exact h
  | cons x l ih => exact ih (hf x h)

theorem config (h : Agrees a s t) (ha : a = .clock) : t.config = s.config := by
  subst ha
  exact h.apart (·.config)

theorem battleStart (h : Agrees a s t) :
    t.config.terms.battleStart.isEmpty = s.config.terms.battleStart.isEmpty := by
  rw [← isEmpty_announced, ← isEmpty_announced s.config.terms.battleStart]
  exact h.read (·.config.terms.battleStart.isEmpty)

theorem specialCombat (h : Agrees a s t) :
    t.config.terms.specialCombat.isEmpty = s.config.terms.specialCombat.isEmpty := by
  rw [← isEmpty_announced, ← isEmpty_announced s.config.terms.specialCombat]
  exact h.read (·.config.terms.specialCombat.isEmpty)

@[gcongr] theorem goOn (h : Agrees a s t) : Concurs a s.goOn t.goOn := ⟨rfl, h⟩

@[gcongr] theorem yield (h : Agrees a s t) : Concurs a s.yield t.yield := ⟨rfl, h⟩

@[gcongr] theorem modifyRoster (h : Agrees a s t) (f : Roster → Roster) :
    Agrees a (s.modifyRoster f) (t.modifyRoster f) :=
  h.ignoresMessage fun _ _ => rfl

@[gcongr] theorem modifyBattler (h : Agrees a s t) (id : BattlerId) (f : Battler → Battler) :
    Agrees a (s.modifyBattler id f) (t.modifyBattler id f) :=
  h.ignoresMessage fun _ _ => rfl

@[gcongr] theorem modifyStatus (h : Agrees a s t) (f : BattleStatus → BattleStatus) :
    Agrees a (s.modifyStatus f) (t.modifyStatus f) :=
  h.ignoresMessage fun _ _ => rfl

@[gcongr] theorem modifyDirector (h : Agrees a s t) (f : Director → Director) :
    Agrees a (s.modifyDirector f) (t.modifyDirector f) := by
  cases a <;> exact h.apart (·.modifyDirector f)

@[gcongr] theorem modifyUi (h : Agrees a s t) {f : Menus → Menus}
    (hf : ∀ m, (f m).still = f m.still) :
    Agrees a (s.modifyUi f) (t.modifyUi f) := by
  cases a with
  | words => exact h.apart (·.modifyUi f)
  | clock =>
    have hstill (u : Scene σ) : (u.modifyUi f).without .clock = (u.without .clock).modifyUi f :=
      congrArg (fun ui => { u.without .clock with ui := ui }) (hf u.ui)
    unfold Agrees
    rw [hstill, hstill]
    exact h.apart (·.modifyUi f)

@[gcongr] theorem play (h : Agrees a s t) (se : SoundEffect) : Agrees a (s.play se) (t.play se) :=
  h.modifyWorld (h.world.play se)

@[gcongr] theorem playSystem (h : Agrees a s t) (sound : SystemSound) :
    Agrees a (s.playSystem sound) (t.playSystem sound) :=
  h.modifyWorld (h.world.playSystem sound)

@[gcongr] theorem note (h : Agrees a s t) (e : SceneEvent) : Agrees a (s.note e) (t.note e) := by
  cases a with
  | words => exact h.apart (·.note e)
  | clock =>
    have hnote (u : Scene σ) : (u.note e).without .clock = (u.without .clock).note e := by
      simp only [Scene.note, without, Array.map_push, LogEntry.undated]
    unfold Agrees
    rw [hnote, hnote]
    exact h.apart (·.note e)

@[gcongr] theorem mark (h : Agrees a s t) (step : FrameStep) :
    Agrees a (s.mark step) (t.mark step) := by
  cases a with
  | words => exact h.apart (·.mark step)
  | clock => exact h

@[gcongr] theorem setState (h : Agrees a s t) (state : SceneState) :
    Agrees a (s.setState state) (t.setState state) := by
  have hnoted := h.note (.stateChanged s.state state)
  unfold Scene.setState
  rw [h.state]
  cases a <;>
    exact hnoted.apart fun u => { u with previousState := s.state, state := state, substate := 0 }

@[gcongr] theorem setSubstate (h : Agrees a s t) (n : Nat) :
    Agrees a (s.setSubstate n) (t.setSubstate n) := by
  cases a <;> exact h.apart (·.setSubstate n)

@[gcongr] theorem setWait (h : Agrees a s t) (least most : Int) :
    Agrees a (s.setWait least most) (t.setWait least most) := by
  cases a <;> exact h.apart (·.setWait least most)

theorem checkWait (h : Agrees a s t) (input : InputState) :
    Concurs a (s.checkWait input) (t.checkWait input) := by
  have hleft (wait : Int) :
      Agrees a { s with wait := wait } { t with wait := wait, minWait := s.minWait } := by
    cases a <;> exact h.apart fun u => { u with wait := wait, minWait := s.minWait }
  unfold Scene.checkWait
  rw [show t.wait = s.wait from h.read (·.wait), show t.minWait = s.minWait from h.read (·.minWait)]
  split
  · exact ⟨rfl, h⟩
  · split
    · exact ⟨rfl, h⟩
    · dsimp only
      split
      · exact ⟨rfl, hleft _⟩
      · exact ⟨rfl, hleft _⟩

/-- The words may be others where words are set aside. -/
theorem showNotification (h : Agrees a s t) {text text' : String}
    (htext : a = .clock → text' = text) :
    Agrees a (s.showNotification text) (t.showNotification text') := by
  cases a with
  | words =>
    have hshown (u : Scene σ) (text : String) :
        (u.showNotification text).without .words = u.without .words := by
      unfold Scene.showNotification
      split <;> rfl
    exact (hshown t text').trans (h.trans (hshown s text).symm)
  | clock =>
    obtain rfl := htext rfl
    unfold Scene.showNotification
    split
    · exact h
    · exact h.apart fun u => { u with notification := some text' }

@[gcongr] theorem endNotification (h : Agrees a s t) :
    Agrees a s.endNotification t.endNotification := by
  cases a <;> exact h.apart (·.endNotification)

theorem addFloatText (h : Agrees a s t) (target : BattlerId) {text text' : String}
    (htext : a = .clock → text' = text) (heal : Bool) :
    Agrees a (s.addFloatText target text heal) (t.addFloatText target text' heal) := by
  cases a with
  | words => exact h
  | clock =>
    obtain rfl := htext rfl
    exact h.apart (·.addFloatText target text' heal)

@[gcongr] theorem addChangeText (h : Agrees a s t) (target : BattlerId) (change : Int) :
    Agrees a (s.addChangeText target change) (t.addChangeText target change) :=
  h.addFloatText target (fun _ => rfl) _

theorem triggered (h : Agrees a s t) (input : InputState) (button : Button) :
    t.triggered input button = s.triggered input button :=
  h.read (·.triggered input button)

@[gcongr] theorem endBattle (h : Agrees a s t) (result : BattleResult) :
    Agrees a (s.endBattle result) (t.endBattle result) := by
  unfold Scene.endBattle
  rw [h.result]
  split
  · exact h
  · have hidle := (h.modifyRoster fun r =>
      { r with
        actors := r.actors.map ({ · with actionQueued := false })
        enemies := r.enemies.map ({ · with actionQueued := false }) }).modifyDirector
          (·.modifyInterp (·.clear))
    apply note
    cases a <;> exact hidle.apart fun u =>
      { u with result := some result, queue := [], pending := none }

@[gcongr] theorem enqueue (h : Agrees a s t) (action : Action) :
    Agrees a (s.enqueue action) (t.enqueue action) := by
  have hmenu : t.isFromMenu action = s.isFromMenu action := h.read (·.isFromMenu action)
  have hcommand (actor : Int) : t.menuCommand actor = s.menuCommand actor :=
    h.read (·.menuCommand actor)
  have hlined {u v : Scene σ} (huv : Agrees a u v) :
      Agrees a
        { u with
          queue := u.queue ++ [action]
          firstStrike := u.firstStrike && !action.source.isAlly }
        { v with
          queue := v.queue ++ [action]
          firstStrike := v.firstStrike && !action.source.isAlly } := by
    cases a <;>
      exact huv.apart fun u =>
        { u with
          queue := u.queue ++ [action]
          firstStrike := u.firstStrike && !action.source.isAlly }
  unfold Scene.enqueue
  rw [h.roster]
  split
  · exact h
  · dsimp only
    rw [hmenu, hcommand, h.activeActor]
    have hqueued := hlined ((h.modifyBattler action.source fun b =>
      { b with
        gauge := 0
        actionQueued := true
        lastBattleAction :=
          if s.isFromMenu action then s.menuCommand (s.activeActor.getD 0)
            else b.lastBattleAction }).note
      (.actionQueued action.source action.kind))
    cases hfrom : s.isFromMenu action with
    | true =>
      rw [hfrom] at hqueued
      exact hqueued.setState .selectActor
    | false =>
      rw [hfrom] at hqueued
      exact hqueued

@[gcongr] theorem nextTurn (h : Agrees a s t) (id : BattlerId) :
    Agrees a (s.nextTurn id) (t.nextTurn id) := by
  have hcounted := h.modifyRoster fun r => r.incTurns.modify id (·.nextBattleTurn)
  unfold Scene.nextTurn
  dsimp only
  rw [hcounted.roster]
  gcongr

theorem checkBattleEnd (h : Agrees a s t) : Concurs a s.checkBattleEnd t.checkBattleEnd := by
  unfold Scene.checkBattleEnd
  rw [h.state, h.roster]
  split
  · split
    · exact ⟨rfl, h⟩
    · exact ⟨rfl, h.setState _⟩
  · split
    · split
      · exact ⟨rfl, h⟩
      · exact ⟨rfl, h.setState _⟩
    · exact ⟨rfl, h⟩

theorem checkEvents (h : Agrees a s t) (trigger : EventTrigger) (source : Option BattlerId) :
    Concurs a (s.checkEvents trigger source) (t.checkEvents trigger source) := by
  obtain ⟨decided, u, v, hu, hv, huv⟩ := h.checkBattleEnd.elim
  unfold Scene.checkEvents
  rw [h.director, h.isActive, hu, hv]
  split
  · exact ⟨rfl, h⟩
  · split
    · exact ⟨rfl, h⟩
    · cases decided with
      | true => exact ⟨rfl, huv⟩
      | false =>
        have hscheduled : v.director.schedule v.store v.game trigger.flags source =
            u.director.schedule u.store u.game trigger.flags source :=
          huv.read fun u => u.director.schedule u.store u.game trigger.flags source
        dsimp only
        rw [hscheduled]
        generalize u.director.schedule u.store u.game trigger.flags source = scheduled
        have hdirected := huv.withDirector scheduled.2
        split
        · exact ⟨rfl, hdirected.note _⟩
        · exact ⟨rfl, hdirected⟩

variable [AssetLoader σ]

@[gcongr] theorem fire (h : Agrees a s t) (kind : HookKind) (battler : BattlerId) (i j k l : Int) :
    Agrees a (s.fire kind battler i j k l) (t.fire kind battler i j k l) := by
  obtain ⟨hdirector, hworld⟩ := h.world.concurs
    (f := fun w => (s.director.trigger s.store kind #v[battler.codes.1, battler.codes.2, i,
      j, k, l] w).2)
    fun hw => Director.trigger_concurs hw s.director s.store kind _
  have hfired := (h.withWorld hworld).withDirector
    (s.director.trigger s.store kind #v[battler.codes.1, battler.codes.2, i, j, k, l] s.world).2.1
  unfold Scene.fire
  dsimp only
  rw [show t.director.trigger t.store = s.director.trigger s.store by rw [h.director, h.store],
    hdirector]
  exact hfired

end Agrees

end Scene

end ActiveBattle
