import Mathlib.Logic.Relation
import ActiveBattle.Battler.Basic

/-!
# What can happen to a battler

Relations between a battler before and after: where it stands and what its sprite does (`Posed`),
how the formation places it and how its gauge fills (`Arranged`), what is written down of it as its
actions come and go (`Marked`), what actions do to it (`Struck`), what scripts do to an enemy
(`Scripted`), and the combo they give an actor (`ComboGiven`). `Struck` and `Scripted` are chains of
single steps.
-/

namespace ActiveBattle.Battler

set_option autoImplicit false

/-- The battlers differ in where they stand and what their sprites do. -/
def Posed (b b' : Battler) : Prop :=
  b' = { b with
    position := b'.position
    flip := b'.flip
    pose := b'.pose
    poseFrames := b'.poseFrames
    deathTimer := b'.deathTimer
    blinkTimer := b'.blinkTimer }

namespace Posed

theorem refl (b : Battler) : Posed b b := rfl

theorem trans (a b c : Battler) (h : Posed a b) (h' : Posed b c) : Posed a c := by
  unfold Posed at *
  rw [h', h]

end Posed

/-- The battlers differ in where they stand and in their gauges. A gauge that changes is a living
battler's and, where gauges hold up to `max`, stays in range. -/
structure Arranged (max : Int) (b b' : Battler) : Prop where
  rest : b' = { b with position := b'.position, flip := b'.flip, row := b'.row, gauge := b'.gauge }
  gauge : 0 ≤ max → b'.gauge = b.gauge ∨
    (b.isDead = false ∧ (0 ≤ b.gauge → 0 ≤ b'.gauge) ∧ b'.gauge ≤ max)

namespace Arranged

variable {max : Int}

theorem refl (b : Battler) : Arranged max b b := ⟨rfl, fun _ => .inl rfl⟩

/-- Only where the battler stands has changed. -/
theorem of_place {b b' : Battler}
    (h : b' = { b with position := b'.position, flip := b'.flip, row := b'.row }) :
    Arranged max b b' := by
  have hgauge : b'.gauge = b.gauge := by rw [h]
  refine ⟨?_, fun _ => .inl hgauge⟩
  rw [hgauge]
  exact h

theorem of_gauge {b : Battler} {gauge : Int} (hlive : b.isDead = false)
    (hnonneg : 0 ≤ max → 0 ≤ b.gauge → 0 ≤ gauge) (hle : 0 ≤ max → gauge ≤ max) :
    Arranged max b { b with gauge := gauge } :=
  ⟨rfl, fun h => .inr ⟨hlive, hnonneg h, hle h⟩⟩

theorem trans (a b c : Battler) (h : Arranged max a b) (h' : Arranged max b c) :
    Arranged max a c := by
  constructor
  · rw [h'.rest, h.rest]
  · intro hmax
    have hdead : b.isDead = a.isDead := by
      rw [h.rest]
      rfl
    rcases h'.gauge hmax with hkept' | ⟨hlive', hnonneg', hle'⟩
    · rw [hkept']
      exact h.gauge hmax
    · right
      refine ⟨hdead ▸ hlive', fun hgauge => hnonneg' ?_, hle'⟩
      rcases h.gauge hmax with hkept | ⟨-, hnonneg, -⟩
      · rw [hkept]
        exact hgauge
      · exact hnonneg hgauge

end Arranged

/-- The battlers differ in what is written down as an action is queued, begun, dropped or over. A
gauge that changes starts over. -/
structure Marked (b b' : Battler) : Prop where
  rest : b' = { b with
    gauge := b'.gauge
    battleTurn := b'.battleTurn
    lastBattleAction := b'.lastBattleAction
    defending := b'.defending
    actionQueued := b'.actionQueued }
  gauge : b'.gauge = b.gauge ∨ b'.gauge = 0

namespace Marked

theorem refl (b : Battler) : Marked b b := ⟨rfl, .inl rfl⟩

theorem trans (a b c : Battler) (h : Marked a b) (h' : Marked b c) : Marked a c := by
  constructor
  · rw [h'.rest, h.rest]
  · rcases h'.gauge with hkept | hempty
    · rw [hkept]
      exact h.gauge
    · exact .inr hempty

theorem nextBattleTurn (b : Battler) : Marked b b.nextBattleTurn := ⟨rfl, .inl rfl⟩

theorem idle (b : Battler) : Marked b { b with actionQueued := false } := ⟨rfl, .inl rfl⟩

end Marked

/-- One thing an action does to a battler. -/
inductive ActionStep (db : Database) (b : Battler) : Battler → Prop
  | hp (delta : Int) (lethal : Bool) : ActionStep db b (b.changeHp delta lethal).2
  | sp (sp : Int) : ActionStep db b (b.setSp sp)
  | addState (state : Int) : ActionStep db b (b.addState state db).2
  | removeState (state : Int) : ActionStep db b (b.removeState state).2
  | defend : ActionStep db b { b with defending := true }

/-- What actions can make of a battler. -/
def Struck (db : Database) : Battler → Battler → Prop := Relation.ReflTransGen (ActionStep db)

namespace Struck

variable {db : Database}

theorem refl (b : Battler) : Struck db b b := Relation.ReflTransGen.refl

theorem trans (a b c : Battler) (h : Struck db a b) (h' : Struck db b c) : Struck db a c :=
  Relation.ReflTransGen.trans h h'

theorem single {b b' : Battler} (h : ActionStep db b b') : Struck db b b' :=
  Relation.ReflTransGen.single h

end Struck

/-- At most the toll its states take of a battler, which is not lethal. -/
def HurtByStates (b b' : Battler) : Prop := b' = b ∨ ∃ delta, b' = (b.changeHp delta false).2

theorem HurtByStates.refl (b : Battler) : HurtByStates b b := .inl rfl

theorem HurtByStates.struck (db : Database) {b b' : Battler} (h : HurtByStates b b') :
    Struck db b b' := by
  rcases h with rfl | ⟨delta, rfl⟩
  · exact .refl _
  · exact .single (.hp delta false)

/-- The battlers differ at most in SP. -/
def Paid (b b' : Battler) : Prop := b' = b ∨ ∃ sp, b' = b.setSp sp

theorem Paid.refl (b : Battler) : Paid b b := .inl rfl

theorem Paid.struck (db : Database) {b b' : Battler} (h : Paid b b') : Struck db b b' := by
  rcases h with rfl | ⟨sp, rfl⟩
  · exact .refl _
  · exact .single (.sp sp)

/-- One thing a script does to an enemy. -/
inductive ScriptStep (db : Database) (b : Battler) : Battler → Prop
  | hp (delta : Int) (lethal : Bool) : ScriptStep db b (b.changeHp delta lethal).2
  | sp (sp : Int) : ScriptStep db b (b.setSp sp)
  | addState (state : Int) : ScriptStep db b (b.addState state db).2
  | removeState (state : Int) : ScriptStep db b (b.removeState state).2
  | appear : ScriptStep db b { b with hidden := false }
  | vanish : ScriptStep db b { b with hidden := true }
  | fade : ScriptStep db b b.startDeathFade

/-- What scripts can make of an enemy. -/
def Scripted (db : Database) : Battler → Battler → Prop := Relation.ReflTransGen (ScriptStep db)

namespace Scripted

variable {db : Database}

theorem refl (b : Battler) : Scripted db b b := Relation.ReflTransGen.refl

theorem trans (a b c : Battler) (h : Scripted db a b) (h' : Scripted db b c) : Scripted db a c :=
  Relation.ReflTransGen.trans h h'

theorem single {b b' : Battler} (h : ScriptStep db b b') : Scripted db b b' :=
  Relation.ReflTransGen.single h

end Scripted

/-- The battlers differ at most in the combo a script gave: all that scripts do to an actor. -/
def ComboGiven (b b' : Battler) : Prop := b' = b ∨ ∃ command times, b' = b.setCombo command times

namespace ComboGiven

theorem refl (b : Battler) : ComboGiven b b := .inl rfl

theorem trans (a b c : Battler) (h : ComboGiven a b) (h' : ComboGiven b c) : ComboGiven a c := by
  rcases h' with rfl | ⟨command, times, rfl⟩
  · exact h
  · rcases h with rfl | ⟨command', times', rfl⟩ <;> exact .inr ⟨command, times, rfl⟩

end ComboGiven

/-- What neither actions nor scripts touch: who the battler is, and whether an action of it
waits. -/
structure Alike (b b' : Battler) : Prop where
  id : b'.id = b.id
  dbId : b'.dbId = b.dbId
  stats : b'.stats = b.stats
  controllable : b'.controllable = b.controllable
  actionQueued : b'.actionQueued = b.actionQueued

/-- What only scripts touch besides. -/
structure AlikeWithCombo (b b' : Battler) : Prop extends Alike b b' where
  combo : b'.combo = b.combo

namespace Alike

theorem refl (b : Battler) : Alike b b := ⟨rfl, rfl, rfl, rfl, rfl⟩

theorem trans (a b c : Battler) (h : Alike a b) (h' : Alike b c) : Alike a c :=
  ⟨h'.id.trans h.id, h'.dbId.trans h.dbId, h'.stats.trans h.stats,
    h'.controllable.trans h.controllable, h'.actionQueued.trans h.actionQueued⟩

end Alike

/-- Who the battler is, which nothing changes. -/
structure SameIdentity (b b' : Battler) : Prop where
  id : b'.id = b.id
  dbId : b'.dbId = b.dbId
  stats : b'.stats = b.stats
  controllable : b'.controllable = b.controllable

namespace SameIdentity

theorem refl (b : Battler) : SameIdentity b b := ⟨rfl, rfl, rfl, rfl⟩

theorem trans (a b c : Battler) (h : SameIdentity a b) (h' : SameIdentity b c) : SameIdentity a c :=
  ⟨h'.id.trans h.id, h'.dbId.trans h.dbId, h'.stats.trans h.stats,
    h'.controllable.trans h.controllable⟩

end SameIdentity

theorem Alike.sameIdentity {b b' : Battler} (h : Alike b b') : SameIdentity b b' :=
  ⟨h.id, h.dbId, h.stats, h.controllable⟩

/-- The battlers differ in HP, SP and states, and in what goes with these: all that actions do, and
scripts do to an enemy. -/
def Affected (b b' : Battler) : Prop :=
  b' = { b with
    hp := b'.hp
    sp := b'.sp
    states := b'.states
    hidden := b'.hidden
    gauge := b'.gauge
    defending := b'.defending
    deathTimer := b'.deathTimer
    emptyRange := b'.emptyRange }

namespace Affected

theorem refl (b : Battler) : Affected b b := rfl

theorem trans (a b c : Battler) (h : Affected a b) (h' : Affected b c) : Affected a c := by
  unfold Affected at *
  rw [h', h]

theorem alikeWithCombo {b b' : Battler} (h : Affected b b') : AlikeWithCombo b b' := by
  rw [h]
  exact ⟨⟨rfl, rfl, rfl, rfl, rfl⟩, rfl⟩

end Affected

theorem changeHp_affected (b : Battler) (delta : Int) (lethal : Bool) :
    Affected b (b.changeHp delta lethal).2 := by
  unfold changeHp
  split
  · exact .refl b
  · split
    · rfl
    · dsimp only
      split <;> rfl

theorem setSp_affected (b : Battler) (sp : Int) : Affected b (b.setSp sp) := by
  unfold setSp
  split <;> rfl

theorem addState_affected (b : Battler) (state : Int) (db : Database) :
    Affected b (b.addState state db).2 := by
  unfold addState
  split
  · exact .refl b
  · split
    · rfl
    · split <;> rfl

theorem removeState_affected (b : Battler) (state : Int) : Affected b (b.removeState state).2 := by
  unfold removeState
  split
  · dsimp only
    split <;> rfl
  · exact .refl b

theorem ActionStep.affected {db : Database} {b b' : Battler} (h : ActionStep db b b') :
    Affected b b' := by
  cases h with
  | hp delta lethal => exact b.changeHp_affected delta lethal
  | sp sp => exact b.setSp_affected sp
  | addState state => exact b.addState_affected state db
  | removeState state => exact b.removeState_affected state
  | defend => rfl

theorem ScriptStep.affected {db : Database} {b b' : Battler} (h : ScriptStep db b b') :
    Affected b b' := by
  cases h with
  | hp delta lethal => exact b.changeHp_affected delta lethal
  | sp sp => exact b.setSp_affected sp
  | addState state => exact b.addState_affected state db
  | removeState state => exact b.removeState_affected state
  | _ => rfl

theorem Struck.affected {db : Database} {b b' : Battler} (h : Struck db b b') : Affected b b' := by
  induction h with
  | refl => exact .refl b
  | tail _ hstep ih => exact .trans _ _ _ ih hstep.affected

theorem Scripted.affected {db : Database} {b b' : Battler} (h : Scripted db b b') :
    Affected b b' := by
  induction h with
  | refl => exact .refl b
  | tail _ hstep ih => exact .trans _ _ _ ih hstep.affected

theorem changeHp_alikeWithCombo (b : Battler) (delta : Int) (lethal : Bool) :
    AlikeWithCombo b (b.changeHp delta lethal).2 :=
  (b.changeHp_affected delta lethal).alikeWithCombo

theorem setSp_alikeWithCombo (b : Battler) (sp : Int) : AlikeWithCombo b (b.setSp sp) :=
  (b.setSp_affected sp).alikeWithCombo

theorem Posed.alikeWithCombo {b b' : Battler} (h : Posed b b') : AlikeWithCombo b b' := by
  rw [h]
  exact ⟨⟨rfl, rfl, rfl, rfl, rfl⟩, rfl⟩

theorem Arranged.alikeWithCombo {max : Int} {b b' : Battler} (h : Arranged max b b') :
    AlikeWithCombo b b' := by
  rw [h.rest]
  exact ⟨⟨rfl, rfl, rfl, rfl, rfl⟩, rfl⟩

theorem Struck.alikeWithCombo {db : Database} {b b' : Battler} (h : Struck db b b') :
    AlikeWithCombo b b' := h.affected.alikeWithCombo

theorem Scripted.alikeWithCombo {db : Database} {b b' : Battler} (h : Scripted db b b') :
    AlikeWithCombo b b' := h.affected.alikeWithCombo

theorem ComboGiven.alike {b b' : Battler} (h : ComboGiven b b') : Alike b b' := by
  rcases h with rfl | ⟨command, times, rfl⟩ <;> exact ⟨rfl, rfl, rfl, rfl, rfl⟩

/-- The same battler, after as many turns. -/
structure SameTurns (b b' : Battler) : Prop where
  dbId : b'.dbId = b.dbId
  battleTurn : b'.battleTurn = b.battleTurn

namespace SameTurns

theorem refl (b : Battler) : SameTurns b b := ⟨rfl, rfl⟩

theorem trans (a b c : Battler) (h : SameTurns a b) (h' : SameTurns b c) : SameTurns a c :=
  ⟨h'.dbId.trans h.dbId, h'.battleTurn.trans h.battleTurn⟩

end SameTurns

theorem Posed.sameTurns {b b' : Battler} (h : Posed b b') : SameTurns b b' := by
  rw [h]
  exact ⟨rfl, rfl⟩

theorem Arranged.sameTurns {max : Int} {b b' : Battler} (h : Arranged max b b') :
    SameTurns b b' := by
  rw [h.rest]
  exact ⟨rfl, rfl⟩

theorem Affected.sameTurns {b b' : Battler} (h : Affected b b') : SameTurns b b' := by
  rw [h]
  exact ⟨rfl, rfl⟩

theorem Struck.sameTurns {db : Database} {b b' : Battler} (h : Struck db b b') : SameTurns b b' :=
  h.affected.sameTurns

theorem Scripted.sameTurns {db : Database} {b b' : Battler} (h : Scripted db b b') :
    SameTurns b b' := h.affected.sameTurns

theorem ComboGiven.sameTurns {b b' : Battler} (h : ComboGiven b b') : SameTurns b b' := by
  rcases h with rfl | ⟨command, times, rfl⟩ <;> exact ⟨rfl, rfl⟩

/-- The same battler, present or not as it was. -/
structure KeepsPresence (b b' : Battler) : Prop where
  dbId : b'.dbId = b.dbId
  isPresent : b'.isPresent = b.isPresent

/-- The same battler with its combo, present or not as it was. -/
structure KeepsPresenceAndCombo (b b' : Battler) : Prop extends KeepsPresence b b' where
  combo : b'.combo = b.combo

namespace KeepsPresenceAndCombo

theorem refl (b : Battler) : KeepsPresenceAndCombo b b := ⟨⟨rfl, rfl⟩, rfl⟩

theorem trans (a b c : Battler) (h : KeepsPresenceAndCombo a b) (h' : KeepsPresenceAndCombo b c) :
    KeepsPresenceAndCombo a c :=
  ⟨⟨h'.dbId.trans h.dbId, h'.isPresent.trans h.isPresent⟩, h'.combo.trans h.combo⟩

end KeepsPresenceAndCombo

theorem ComboGiven.keepsPresence {b b' : Battler} (h : ComboGiven b b') : KeepsPresence b b' := by
  rcases h with rfl | ⟨command, times, rfl⟩ <;> exact ⟨rfl, rfl⟩

theorem Posed.keepsPresenceAndCombo {b b' : Battler} (h : Posed b b') :
    KeepsPresenceAndCombo b b' := by
  rw [h]
  exact ⟨⟨rfl, rfl⟩, rfl⟩

theorem Arranged.keepsPresenceAndCombo {max : Int} {b b' : Battler} (h : Arranged max b b') :
    KeepsPresenceAndCombo b b' := by
  rw [h.rest]
  exact ⟨⟨rfl, rfl⟩, rfl⟩

theorem Marked.keepsPresenceAndCombo {b b' : Battler} (h : Marked b b') :
    KeepsPresenceAndCombo b b' := by
  rw [h.rest]
  exact ⟨⟨rfl, rfl⟩, rfl⟩

theorem setSp_isPresent (b : Battler) (sp : Int) : (b.setSp sp).isPresent = b.isPresent := by
  unfold setSp
  split <;> rfl

theorem Paid.keepsPresenceAndCombo {b b' : Battler} (h : Paid b b') :
    KeepsPresenceAndCombo b b' := by
  rcases h with rfl | ⟨sp, rfl⟩
  · exact .refl _
  · have hwithCombo := b.setSp_alikeWithCombo sp
    exact ⟨⟨hwithCombo.dbId, b.setSp_isPresent sp⟩, hwithCombo.combo⟩

/-- The same battler, in front still if it was. -/
structure HoldsFront (b b' : Battler) : Prop where
  dbId : b'.dbId = b.dbId
  front : b.row = .front → b'.row = .front

namespace HoldsFront

theorem refl (b : Battler) : HoldsFront b b := ⟨rfl, fun h => h⟩

theorem trans (a b c : Battler) (h : HoldsFront a b) (h' : HoldsFront b c) : HoldsFront a c :=
  ⟨h'.dbId.trans h.dbId, fun hfront => h'.front (h.front hfront)⟩

end HoldsFront

theorem Posed.holdsFront {b b' : Battler} (h : Posed b b') : HoldsFront b b' := by
  rw [h]
  exact ⟨rfl, fun h => h⟩

theorem Marked.holdsFront {b b' : Battler} (h : Marked b b') : HoldsFront b b' := by
  rw [h.rest]
  exact ⟨rfl, fun h => h⟩

theorem Affected.holdsFront {b b' : Battler} (h : Affected b b') : HoldsFront b b' := by
  rw [h]
  exact ⟨rfl, fun h => h⟩

theorem ComboGiven.holdsFront {b b' : Battler} (h : ComboGiven b b') : HoldsFront b b' := by
  rcases h with rfl | ⟨command, times, rfl⟩ <;> exact ⟨rfl, fun h => h⟩

end ActiveBattle.Battler
