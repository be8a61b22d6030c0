import ActiveBattle.Proofs.Scene.History
import ActiveBattle.Proofs.Scene.Presence
import ActiveBattle.Proofs.Scene.Programs
import ActiveBattle.Proofs.Scene.Soundness

/-!
# Who starts to act

An action is taken up when its source is present. Until the first pass starts, states wear off and
take a toll that is not lethal, so whoever is gone by then was removed by a script, which only
happens to enemies. Later passes are those of combos, which only actors have: their sources may have
fallen in the pass before.
-/

namespace ActiveBattle

set_option autoImplicit false

namespace Battler

/-- The same battler with its combo, still present if it was. -/
structure Endures (b b' : Battler) : Prop where
  dbId : b'.dbId = b.dbId
  combo : b'.combo = b.combo
  stays : Stays b b'

theorem KeepsPresenceAndCombo.endures {b b' : Battler} (h : KeepsPresenceAndCombo b b') :
    Endures b b' :=
  ⟨h.dbId, h.combo, fun hb => h.isPresent.trans hb⟩

theorem isPresent_iff (b : Battler) : b.isPresent = true ↔ b.hidden = false ∧ b.isDead = false := by
  simp [isPresent]

theorem healStates_endures (b : Battler) (db : Database) : Endures b (b.healStates db).2 := by
  refine ⟨rfl, rfl, ?_⟩
  intro hb
  rw [isPresent_iff] at hb ⊢
  exact ⟨hb.1, Sound.healed_isDead hb.2 db⟩

theorem changeHp_isDead {max : Int} {b : Battler} (h : b.Sound max) (delta : Int)
    (hlive : b.isDead = false) :
    (b.changeHp delta false).2.isDead = false := by
  have hpos := h.hp_pos hlive
  have hmax := h.maxHp_pos
  unfold changeHp
  rw [hlive]
  simp only [Bool.false_eq_true, if_false]
  split
  · exact hlive
  · split
    · rename_i hzero
      -- A wound stops at the floor of one point, and nothing else takes any.
      unfold hpFloor clamp saturate clamp operandMin operandMax at hzero
      by_cases hdelta : delta ≥ 0
      · simp only [hdelta, decide_true, Bool.false_or, if_true] at hzero
        omega
      · simp only [hdelta, decide_false, Bool.or_self, Bool.false_eq_true, if_false] at hzero
        omega
    · exact hlive

theorem changeHp_hidden (b : Battler) (delta : Int) (lethal : Bool) :
    (b.changeHp delta lethal).2.hidden = b.hidden := by
  unfold changeHp
  split
  · rfl
  · split
    · rfl
    · dsimp only
      split <;> rfl

theorem HurtByStates.endures {max : Int} {b b' : Battler} (h : HurtByStates b b')
    (hb : b.Sound max) : Endures b b' := by
  rcases h with rfl | ⟨delta, rfl⟩
  · exact (KeepsPresenceAndCombo.refl _).endures
  · have hwithCombo := b.changeHp_alikeWithCombo delta false
    refine ⟨hwithCombo.dbId, hwithCombo.combo, ?_⟩
    intro hpresent
    rw [isPresent_iff] at hpresent ⊢
    exact ⟨(b.changeHp_hidden delta false).trans hpresent.1, changeHp_isDead hb delta hpresent.2⟩

end Battler

namespace Roster

theorem Pointwise.isPresent {r r' : Roster} (h : r.Pointwise Battler.Endures r') {id : BattlerId}
    (hid : r.isPresent id = true) : r'.isPresent id = true := by
  have hrelated := h.battler? (fun _ _ h => h.dbId) id
  unfold Roster.isPresent at hid ⊢
  generalize r.battler? id = found at hrelated hid
  generalize r'.battler? id = found' at hrelated ⊢
  cases hrelated with
  | none => exact hid
  | some h => exact h.stays hid

/-- An actor is present as long as the same actors are, an enemy as long as enemies stay. -/
theorem isPresent_of_stays {r r' : Roster} (hactors : r.SamePresentActors r') {id : BattlerId}
    (henemies : id.isAlly = false → List.Forall₂ Battler.Stays r.enemies r'.enemies)
    (hid : r.isPresent id = true) : r'.isPresent id = true := by
  cases id with
  | actor id =>
    unfold Roster.isPresent battler? at hid ⊢
    rw [hactors.isPresent_eq]
    exact hid
  | enemy index =>
    have hrelated := forall₂_getElem? (henemies rfl) index
    unfold Roster.isPresent battler? at hid ⊢
    dsimp only at hid ⊢
    generalize r.enemies[index]? = found at hrelated hid
    generalize r'.enemies[index]? = found' at hrelated ⊢
    cases hrelated with
    | none => exact hid
    | some h => exact h hid

end Roster

namespace Action

/-- The targets are gone through once. -/
structure Single (a : Action) : Prop where
  repeats : a.repeats ≤ 1
  repeatsDone : 0 ≤ a.repeatsDone

theorem Fresh.single {source : BattlerId} {a : Action} (h : a.Fresh source) : a.Single :=
  ⟨Int.le_of_eq h.repeats, Int.le_of_eq h.repeatsDone.symm⟩

theorem Continues.refl (a : Action) : Continues a a := (SamePass.refl a).continues

theorem Continues.single {a a' : Action} (h : Continues a a') (ha : a.Single) : a'.Single :=
  ⟨by rw [h.repeats]; exact ha.repeats, Int.le_trans ha.repeatsDone h.repeatsDone⟩

end Action

namespace Scene

variable {σ : Type}

/-! ### The stage of an action -/

/-- The next thing the pending action comes to is the start of a pass. -/
structure AtStart (s : Scene σ) : Prop where
  state : s.state = .battle
  substate : s.substate = preEvents ∨ s.substate = battleAction
  stage : s.actionState = .begin ∨ s.actionState = .startAlgo

/-- After a pass the combo of the source goes on. -/
def Chains (s t : Scene σ) : Prop :=
  ∃ a, s.pending = some a ∧ s.comboGoesOn a.source = true ∧ t.comboRepeat = s.comboRepeat + 1

/-- What a step makes of the actions and of the pass the pending one is in. -/
structure Stages (s t : Scene σ) : Prop where
  pending : ∀ a, t.pending = some a → ∃ a', s.pending = some a' ∧ a'.Continues a
  queue : ∀ a ∈ t.queue, a ∈ s.queue ∨ a.Fresh a.source
  round : t.comboRepeat = s.comboRepeat ∨ t.comboRepeat = 1 ∨ Chains s t
  start : t.AtStart → s.AtStart ∧ t.comboRepeat = s.comboRepeat ∨ Chains s t ∨
    ∃ a, s.pending = some a ∧ a.repeatsDone + 1 < a.repeats

namespace Stages

variable {s t : Scene σ}

theorem of_kept (hpending : t.pending = s.pending ∨ t.pending = none)
    (hqueue : ∀ a ∈ t.queue, a ∈ s.queue)
    (hround : t.comboRepeat = s.comboRepeat ∨ t.comboRepeat = 1 ∨ Chains s t)
    (hstart : t.AtStart → s.AtStart ∧ t.comboRepeat = s.comboRepeat ∨ Chains s t ∨
      ∃ a, s.pending = some a ∧ a.repeatsDone + 1 < a.repeats) :
    Stages s t := by
  refine ⟨?_, fun a ha => .inl (hqueue a ha), hround, hstart⟩
  intro a ha
  rcases hpending with h | h
  · exact ⟨a, by rw [← h]; exact ha, .refl a⟩
  · rw [h] at ha
    contradiction

theorem of_course (h : t.course = s.course) : Stages s t := by
  have hround : t.comboRepeat = s.comboRepeat := congrArg Course.comboRepeat h
  apply of_kept
  · exact .inl (congrArg Course.pending h)
  · intro a ha
    rw [← show t.queue = s.queue from congrArg Course.queue h]
    exact ha
  · exact .inl hround
  · intro hstart
    have hstate : t.state = s.state := congrArg Course.state h
    have hsubstate : t.substate = s.substate := congrArg Course.substate h
    have hstage : t.actionState = s.actionState := congrArg Course.actionState h
    exact .inl ⟨⟨hstate ▸ hstart.state, hsubstate ▸ hstart.substate, hstage ▸ hstart.stage⟩, hround⟩

theorem of_away (hpending : t.pending = s.pending) (hqueue : t.queue = s.queue)
    (hround : t.comboRepeat = s.comboRepeat) (haway : ¬t.AtStart) : Stages s t := by
  apply of_kept
  · exact .inl hpending
  · intro a ha
    rwa [← hqueue]
  · exact .inl hround
  · intro hstart
    exact absurd hstart haway

end Stages

theorem not_atStart_of_substate {s : Scene σ} (h : s.substate ≤ 1 ∨ battleAction < s.substate) :
    ¬s.AtStart := by
  intro hstart
  have hsub := hstart.substate
  simp only [preEvents, battleAction] at h hsub
  omega

theorem setState_stages (s : Scene σ) (next : SceneState) : Stages s (s.setState next) :=
  .of_away rfl rfl rfl (not_atStart_of_substate (.inl (Nat.zero_le 1)))

theorem enqueue_stages {s : Scene σ} {a : Action} (ha : a.Fresh a.source) :
    Stages s (s.enqueue a) := by
  have hqueue : ∀ b ∈ (s.enlist a).queue, b ∈ s.queue ∨ b.Fresh b.source := by
    intro b hb
    rcases List.mem_append.mp hb with hb | hb
    · exact .inl hb
    · rw [List.mem_singleton.mp hb]
      exact .inr ha
  rcases s.enqueue_cases a with ⟨-, h⟩ | ⟨b, -, ⟨-, h⟩ | ⟨-, h⟩⟩
  · rw [h]
    exact .of_course rfl
  · rw [h]
    refine ⟨fun b hb => ⟨b, hb, .refl b⟩, hqueue, .inl rfl, ?_⟩
    intro hstart
    exact absurd hstart (not_atStart_of_substate (.inl (Nat.zero_le 1)))
  · rw [h]
    refine ⟨fun b hb => ⟨b, hb, .refl b⟩, hqueue, .inl rfl, ?_⟩
    intro hstart
    exact .inl ⟨⟨hstart.state, hstart.substate, hstart.stage⟩, rfl⟩

theorem endBattle_stages (s : Scene σ) (result : BattleResult) : Stages s (s.endBattle result) := by
  unfold endBattle
  split
  · exact .of_course rfl
  · apply Stages.of_kept
    · exact .inr rfl
    · intro a ha
      contradiction
    · exact .inl rfl
    · intro hstart
      exact .inl ⟨⟨hstart.state, hstart.substate, hstart.stage⟩, rfl⟩

theorem Advances.stages {s : Scene σ} {n : Nat} (h : Advances s n) :
    Stages s (s.setSubstate n) := by
  have elsewhere (hstate : s.state ≠ .battle) : Stages s (s.setSubstate n) :=
    .of_away rfl rfl rfl fun hstart => hstate hstart.state
  have away (hn : n ≤ 1 ∨ battleAction < n) : Stages s (s.setSubstate n) :=
    .of_away rfl rfl rfl (not_atStart_of_substate hn)
  cases h with
  | opening _ h => exact elsewhere (by simp [h])
  | window _ h =>
    apply elsewhere
    intro hbattle
    simp [hbattle, SceneState.isActorMenu] at h
  | ending _ h =>
    apply elsewhere
    intro hbattle
    simp [hbattle] at h
  | prepared hstate hsub =>
    apply Stages.of_kept
    · exact .inl rfl
    · intro a ha
      exact ha
    · exact .inl rfl
    · intro hstart
      exact .inl ⟨⟨hstate, .inl hsub, hstart.stage⟩, rfl⟩
  | resolved _ _ => exact away (.inr (by decide))
  | released _ _ => exact away (.inl (by decide))
  | exhausted _ _ _ => exact away (.inr (by decide))
  | caught hstate _ _ => exact elsewhere (by simp [hstate])

theorem Passes.stages {s t : Scene σ} (h : Passes s t) (hstate : s.state = .battle)
    (hsub : s.substate = battleAction) : Stages s t := by
  cases h with
  | begun h =>
    refine .of_kept (.inl rfl) (fun _ ha => ha) (.inl rfl) ?_
    intro _
    exact .inl ⟨⟨hstate, .inr hsub, .inl h⟩, rfl⟩
  | shown _ hnext =>
    refine .of_away rfl rfl rfl ?_
    intro hstart
    rcases hnext with rfl | rfl <;> rcases hstart.stage with h | h <;> contradiction
  | again a hpending _ hleft =>
    refine .of_kept (.inl rfl) (fun _ ha => ha) (.inl rfl) ?_
    intro _
    exact .inr (.inr ⟨a, hpending, hleft⟩)
  | combo a hpending _ hcombo =>
    have hchains :
        Chains s ({ s with comboRepeat := s.comboRepeat + 1 }.setActionState .startAlgo) :=
      ⟨a, hpending, hcombo, rfl⟩
    refine .of_kept (.inl rfl) (fun _ ha => ha) (.inr (.inr hchains)) ?_
    intro _
    exact .inr (.inl hchains)
  | passed _ =>
    refine .of_away rfl rfl rfl ?_
    intro hstart
    rcases hstart.stage with h | h <;> contradiction
  | finished h =>
    refine .of_kept (.inl rfl) (fun _ ha => ha) (.inr (.inl rfl)) ?_
    intro hstart
    have hstage : s.actionState = .begin ∨ s.actionState = .startAlgo := hstart.stage
    rw [h] at hstage
    rcases hstage with h | h <;> contradiction

theorem Deed.stages {s t : Scene σ} (h : Deed s t) : Stages s t := by
  cases h with
  | effect h => exact .of_course h.course_eq
  | go h => exact s.setState_stages _
  | advance h => exact h.stages
  | command id _ _ => exact .of_away rfl rfl rfl (not_atStart_of_substate (.inl (Nat.zero_le 1)))
  | leave _ => exact .of_away rfl rfl rfl (not_atStart_of_substate (.inl (Nat.zero_le 1)))
  | order a actor _ _ hfresh =>
    apply enqueue_stages
    rw [hfresh.source]
    exact hfresh
  | discard a rest hstate hsub hqueue _ =>
    have hcourse := s.discard_course a.source
    apply Stages.of_kept
    · exact .inl (congrArg Course.pending hcourse)
    · intro b hb
      rw [hqueue]
      exact List.mem_cons_of_mem a hb
    · exact .inl (congrArg Course.comboRepeat hcourse)
    · intro hstart
      have hsub' : (s.discard a.source).substate = s.substate := congrArg Course.substate hcourse
      exact absurd hstart (not_atStart_of_substate (.inl (Nat.le_trans (Nat.le_of_eq hsub') hsub)))
  | pass hstate hsub h => exact h.stages hstate hsub
  | rework a a' h hcontinues =>
    refine ⟨?_, fun b hb => .inl hb, .inl rfl, ?_⟩
    · intro b hb
      obtain rfl := Option.some.inj hb
      exact ⟨a, h, hcontinues⟩
    · intro hstart
      exact .inl ⟨⟨hstart.state, hstart.substate, hstart.stage⟩, rfl⟩
  | away hstate _ =>
    refine .of_away rfl rfl rfl ?_
    intro hstart
    have hbattle : s.state = .battle := hstart.state
    rw [hstate] at hbattle
    contradiction
  | release a _ h =>
    rw [releasePending_eq h]
    refine .of_kept (.inr rfl) (fun _ hb => hb) (.inl rfl) ?_
    intro hstart
    exact .inl ⟨⟨hstart.state, hstart.substate, hstart.stage⟩, rfl⟩

theorem Outcome.stages {s t : Scene σ} (h : Outcome s t) : Stages s t := by
  cases h with
  | done => exact .of_course rfl
  | decided h => cases h <;> exact s.setState_stages _
  | launched a a' _ _ _ hpending hsame =>
    constructor
    · intro b hb
      obtain rfl := Option.some.inj hb
      exact ⟨a, hpending, hsame.continues⟩
    · intro b hb
      exact .inl hb
    · exact .inl rfl
    · intro hstart
      rcases hstart.stage with h | h <;> contradiction
  | ended _ => exact s.endBattle_stages _

theorem Interlude.stages {s t : Scene σ} (h : Interlude s t) : Stages s t := by
  cases h with
  | background h => exact .of_course h.course_eq
  | flee _ _ => exact s.setState_stages _
  | decided h => cases h <;> exact s.setState_stages _
  | overturn _ _ => exact s.setState_stages _
  | choose a _ _ hfresh => exact enqueue_stages hfresh
  | finish result _ => exact s.endBattle_stages result

theorem Step.stages {s t : Scene σ} (h : Step s t) : Stages s t := by
  cases h with
  | deed h => exact h.stages
  | close h => exact h.stages
  | interlude h => exact h.stages

/-! ### Who is there -/

theorem healStates_endures (s : Scene σ) (ids : List BattlerId) :
    s.roster.Pointwise Battler.Endures (s.healStates ids).roster := by
  have hrefl (b : Battler) : Battler.Endures b b := (Battler.KeepsPresenceAndCombo.refl b).endures
  have htrans (a b c : Battler) (h : Battler.Endures a b) (h' : Battler.Endures b c) :
      Battler.Endures a c :=
    ⟨h'.dbId.trans h.dbId, h'.combo.trans h.combo, .trans _ _ _ h.stays h'.stays⟩
  exact s.healStates_pointwise hrefl htrans Battler.healStates_endures ids

/-- Whoever a step does away with falls to a script or to the blow of an action. -/
theorem Step.endures {s t : Scene σ} (h : Step s t) (hs : Sound s) :
    s.roster.Pointwise Battler.Endures t.roster ∨ Ran s t ∨
      s.actionState = .apply ∧ s.roster.Pointwise (Battler.Struck s.database) t.roster := by
  rcases h.presence with hrests | hran | ⟨-, rfl | hhurt | hstruck⟩
  · exact .inl (hrests.imp fun _ _ h => h.endures)
  · exact .inr (.inl hran)
  · exact .inl (s.healStates_endures _)
  · left
    have hactors := (List.forall₂_and_left _ _).mpr ⟨hs.battlers.1, hhurt.actors⟩
    have henemies := (List.forall₂_and_left _ _).mpr ⟨hs.battlers.2, hhurt.enemies⟩
    exact ⟨hactors.imp fun _ _ h => h.2.endures h.1,
      henemies.imp fun _ _ h => h.2.endures h.1, hhurt.party⟩
  · exact .inr (.inr hstruck)

/-- Nothing gives an enemy a combo. -/
theorem Step.enemyCombos {s t : Scene σ} (h : Step s t) (hs : Sound s) :
    List.Forall₂ (fun b b' => b'.combo = b.combo) s.roster.enemies t.roster.enemies := by
  rcases h.endures hs with hkept | hran | ⟨-, hstruck⟩
  · exact hkept.enemies.imp fun _ _ h => h.combo
  · exact hran.game.enemies.imp fun _ _ h => h.alikeWithCombo.combo
  · exact hstruck.enemies.imp fun _ _ h => h.alikeWithCombo.combo

theorem Step.actorCombos {P : Repertoire} {s t : Scene σ} (h : Step s t) (hs : Sound s)
    (hwithin : s.Within P) (hP : ∀ inst, P.any inst → inst.enablesCombo = false) :
    List.Forall₂ (fun b b' => b'.combo = b.combo) s.roster.actors t.roster.actors := by
  rcases h.endures hs with hkept | hran | ⟨-, hstruck⟩
  · exact hkept.actors.imp fun _ _ h => h.combo
  · have hsame : t.roster.actors = s.roster.actors := (hran.within P hwithin).2.combos hP
    rw [hsame]
    exact List.forall₂_same.mpr fun _ _ => rfl
  · exact hstruck.actors.imp fun _ _ h => h.alikeWithCombo.combo

theorem combos_none {l l' : List Battler} (h : List.Forall₂ (fun b b' => b'.combo = b.combo) l l')
    (hl : ∀ b ∈ l, b.combo = none) : ∀ b ∈ l', b.combo = none :=
  forall_mem_of_forall₂ (h.imp fun _ _ h hb => h.trans hb) hl

/-- A battler can be at the start of a pass: it is there, or it is in a combo, or scripts can remove
it. -/
def MayStart (P : Repertoire) (s : Scene σ) (id : BattlerId) : Prop :=
  s.roster.isPresent id = true ∨ id.isAlly = true ∧ 1 < s.comboRepeat ∨
    id.isAlly = false ∧ ¬∀ inst, P.any inst → inst.removesEnemies = false

/-- What keeps up until the pending action starts a pass. -/
structure Poised (P : Repertoire) (s : Scene σ) : Prop where
  queue : ∀ a ∈ s.queue, a.Single
  pending : ∀ a, s.pending = some a → a.Single ∧ (s.roster.battler? a.source).isSome = true
  enemies : ∀ b ∈ s.roster.enemies, b.combo = none
  round : 1 ≤ s.comboRepeat
  plain : (∀ inst, P.any inst → inst.enablesCombo = false) →
    s.comboRepeat = 1 ∧ ∀ b ∈ s.roster.actors, b.combo = none
  ready : ∀ a, s.pending = some a → s.AtStart → MayStart P s a.source

namespace Poised

variable {P : Repertoire} {s t : Scene σ}

/-- Combos are the actors', and scripts gave them. -/
theorem isAlly_of_comboGoesOn (hs : Poised P s) {id : BattlerId} (h : s.comboGoesOn id = true) :
    id.isAlly = true ∧ ¬∀ inst, P.any inst → inst.enablesCombo = false := by
  obtain ⟨b, hfound, hcombo⟩ := (Option.any_eq_true _ _).mp h
  obtain ⟨combo, hsome, -⟩ := (Option.any_eq_true _ _).mp hcombo
  cases id with
  | actor id =>
    refine ⟨rfl, ?_⟩
    intro hP
    have hnone := (hs.plain hP).2 b (List.mem_of_find?_eq_some hfound)
    rw [hnone] at hsome
    contradiction
  | enemy index =>
    have hnone := hs.enemies b (List.mem_of_getElem? hfound)
    rw [hnone] at hsome
    contradiction

end Poised

theorem Setting.found {s t : Scene σ} (h : Setting s t) (id : BattlerId) :
    (t.roster.battler? id).isSome = (s.roster.battler? id).isSome := by
  have hrelated := h.battlers.battler? (fun _ _ h => h.dbId) id
  generalize s.roster.battler? id = found at hrelated ⊢
  generalize t.roster.battler? id = found' at hrelated ⊢
  cases hrelated <;> rfl

theorem MayStart.of_step {P : Repertoire} {s t : Scene σ} (h : Step s t) (hsound : Sound s)
    (hwithin : s.Within P) (hstart : s.AtStart) (hround : t.comboRepeat = s.comboRepeat)
    {id : BattlerId} (hid : MayStart P s id) :
    MayStart P t id := by
  rcases hid with hpresent | ⟨hally, hcombo⟩ | hgone
  · rcases h.endures hsound with hkept | hran | ⟨hstage, -⟩
    · exact .inl (hkept.isPresent hpresent)
    · by_cases hP : id.isAlly = false ∧ ¬∀ inst, P.any inst → inst.removesEnemies = false
      · exact .inr (.inr hP)
      · left
        refine Roster.isPresent_of_stays hran.samePresentActors ?_ hpresent
        intro henemy
        exact (hran.within P hwithin).2.enemies (by_contra fun h => hP ⟨henemy, h⟩)
    · -- At the start of a pass nobody is struck.
      have happly := hstart.stage
      rw [hstage] at happly
      rcases happly with h | h <;> contradiction
  · exact .inr (.inl ⟨hally, by rw [hround]; exact hcombo⟩)
  · exact .inr (.inr hgone)

theorem Step.poised {P : Repertoire} {s t : Scene σ} (h : Step s t) (hsound : Sound s)
    (hwithin : s.Within P) (hs : Poised P s) : Poised P t := by
  have hstages := h.stages
  constructor
  · intro a ha
    rcases hstages.queue a ha with ha | hfresh
    · exact hs.queue a ha
    · exact hfresh.single
  · intro a ha
    obtain ⟨b, hb, hcontinues⟩ := hstages.pending a ha
    obtain ⟨hsingle, hfound⟩ := hs.pending b hb
    rw [h.setting.found, hcontinues.source]
    exact ⟨hcontinues.single hsingle, hfound⟩
  · exact combos_none (h.enemyCombos hsound) hs.enemies
  · have hround := hs.round
    rcases hstages.round with h | h | ⟨-, -, -, h⟩
    · omega
    · omega
    · omega
  · intro hP
    obtain ⟨hround, hactors⟩ := hs.plain hP
    refine ⟨?_, combos_none (h.actorCombos hsound hwithin hP) hactors⟩
    rcases hstages.round with h | h | ⟨a, -, hcombo, -⟩
    · rw [h]
      exact hround
    · exact h
    · exact absurd hP (hs.isAlly_of_comboGoesOn hcombo).2
  · intro a ha hstart
    obtain ⟨b, hb, hcontinues⟩ := hstages.pending a ha
    rw [hcontinues.source]
    rcases hstages.start hstart with ⟨hstart, hround⟩ | ⟨c, hc, hcombo, hround⟩ | ⟨c, hc, hleft⟩
    · exact (hs.ready b hb hstart).of_step h hsound hwithin hstart hround
    · obtain rfl := Option.some.inj (hb.symm.trans hc)
      have hfirst := hs.round
      exact .inr (.inl ⟨(hs.isAlly_of_comboGoesOn hcombo).1, by omega⟩)
    · -- No action of a battle goes through its targets twice.
      have hsingle := (hs.pending c hc).1
      have hdone := hsingle.repeatsDone
      have honce := hsingle.repeats
      omega

theorem Take.poised {P : Repertoire} {s t : Scene σ} (h : Take s t) (hs : Poised P s) :
    Poised P t := by
  cases h with
  | mk a a' rest hstate hsub hqueue hact hsame =>
    have hpresent : s.roster.isPresent a.source = true := (Bool.and_eq_true_iff.mp hact).1
    have hsource : a'.source = a.source := by
      rcases hsame with rfl | hfresh
      · rfl
      · exact hfresh.source
    have hqueued : ∀ b ∈ a :: rest, b.Single := by
      rw [← hqueue]
      exact hs.queue
    constructor
    · intro b hb
      exact hqueued b (List.mem_cons_of_mem a hb)
    · intro b hb
      obtain rfl := Option.some.inj hb
      constructor
      · rcases hsame with rfl | hfresh
        · exact hqueued a' List.mem_cons_self
        · exact hfresh.single
      · rw [hsource]
        exact Option.isSome_of_any hpresent
    · exact hs.enemies
    · exact hs.round
    · exact hs.plain
    · intro b hb _
      obtain rfl := Option.some.inj hb
      rw [hsource]
      exact .inl hpresent

theorem Path.poised {P : Repertoire} {s t : Scene σ} {lost : List BattlerId}
    (h : Path Step s lost t) (hsound : Sound s) (hwithin : s.Within P) (hs : Poised P s) :
    Poised P t := by
  induction h with
  | refl => exact hs
  | step hpath hstep ih => exact hstep.poised (hpath.sound hsound) (hpath.within hwithin) ih
  | take _ htake ih => exact htake.poised ih

theorem ofSetup_poised {P : Repertoire} (config : BattleConfig) (database : Database)
    (setup : BattleSetup) (assets : σ) : Poised P (ofSetup config database setup assets) := by
  have hplain {b : Battler} (hb : b ∈ (ofSetup config database setup assets).roster.actors ∨
      b ∈ (ofSetup config database setup assets).roster.enemies) : b.combo = none := by
    rcases Roster.mem_ofSetup hb with ⟨d, -, rfl⟩ | ⟨i, d, member, -, rfl⟩ <;> rfl
  constructor
  · intro a ha
    contradiction
  · intro a ha
    contradiction
  · intro b hb
    exact hplain (.inr hb)
  · exact Int.le_refl 1
  · intro _
    exact ⟨rfl, fun b hb => hplain (.inl hb)⟩
  · intro a ha
    contradiction

/-! ### Passes that start -/

/-- A pass that starts: whose it is, which round of a combo, and its battler at that moment. -/
structure Start where
  source : BattlerId
  round : Int
  battler : Option Battler
deriving DecidableEq

namespace Start

def isPresent (p : Start) : Bool := p.battler.any (·.isPresent)

end Start

/-- The passes that the log tells of. -/
def starters (s : Scene σ) : List (BattlerId × Int) := s.events.filterMap (·.starter?)

theorem Logs.starters_eq {s t : Scene σ} (h : Uneventful s t) : t.starters = s.starters := by
  obtain ⟨es, hes, hminor⟩ := h
  unfold starters
  rw [hes, List.filterMap_append, List.filterMap_eq_nil_iff.mpr fun e he => (hminor e he).starter,
    List.append_nil]

theorem Interlude.starters_eq {s t : Scene σ} (h : Interlude s t) : t.starters = s.starters := by
  have goes (s : Scene σ) (next : SceneState) : (s.setState next).starters = s.starters := by
    unfold starters
    rw [setState_events, List.filterMap_append]
    exact List.append_nil _
  cases h with
  | background h => exact h.logs.uneventful.starters_eq
  | flee _ _ => exact goes s _
  | decided h => exact h.uneventful.starters_eq
  | overturn _ _ => exact goes s _
  | choose a _ _ _ =>
    have henlist := (s.enlist_uneventful a).starters_eq
    rcases s.enqueue_cases a with ⟨-, h⟩ | ⟨b, -, ⟨-, h⟩ | ⟨-, h⟩⟩
    · rw [h]
    · rw [h, goes, henlist]
    · rw [h, henlist]
  | finish result _ => exact (s.endBattle_logs result).uneventful.starters_eq

theorem Interludes.starters_eq {s t : Scene σ} (h : Interludes s t) : t.starters = s.starters := by
  induction h with
  | refl => rfl
  | tail _ hstep ih => exact hstep.starters_eq.trans ih

/-- At most one pass starts in a turn, the last thing that happens in it. -/
theorem Turned.started {s t : Scene σ} {lost : List BattlerId} (h : Turned s lost t)
    (hs : Routed s) :
    ∃ es, t.events = s.events ++ es ∧ (es.filterMap (·.starter?) = [] ∨
      ∃ u a, Path Deed s lost u ∧ u.AtStart ∧ u.pending = some a ∧ t.roster = u.roster ∧
        es.filterMap (·.starter?) = [(a.source, u.comboRepeat)]) := by
  obtain ⟨u, hdeeds, houtcome⟩ := h
  obtain ⟨es, hes, hminor⟩ := (hdeeds.uneventful hs).1
  have hnone : es.filterMap (·.starter?) = [] :=
    List.filterMap_eq_nil_iff.mpr fun e he => (hminor e he).starter
  have quietly (hu : Uneventful u t) :
      ∃ es, t.events = s.events ++ es ∧ es.filterMap (·.starter?) = [] := by
    obtain ⟨es', hes', hminor'⟩ := hu
    refine ⟨es ++ es', by rw [hes', hes, List.append_assoc], ?_⟩
    rw [List.filterMap_append, hnone,
      List.filterMap_eq_nil_iff.mpr fun e he => (hminor' e he).starter]
    rfl
  cases houtcome with
  | done => exact ⟨es, hes, .inl hnone⟩
  | decided h =>
    obtain ⟨es', hes', hnone'⟩ := quietly h.uneventful
    exact ⟨es', hes', .inl hnone'⟩
  | ended _ =>
    obtain ⟨es', hes', hnone'⟩ := quietly (u.endBattle_logs _).uneventful
    exact ⟨es', hes', .inl hnone'⟩
  | launched a a' hstate hsub hstage hpending hsame =>
    -- The turn ends with the launch, so `u` is the scene at the start of the pass.
    refine ⟨es ++ [.actionStarted a'.source a'.kind u.comboRepeat], ?_,
      .inr ⟨u, a, hdeeds, ?_, hpending, rfl, ?_⟩⟩
    · rw [launch_events, hes, List.append_assoc]
    · exact ⟨hstate, .inr hsub, .inr hstage⟩
    · rw [List.filterMap_append, hnone, hsame.source]
      rfl

section Run

variable [AssetLoader σ]

/-- The passes that start in a turn. Nothing is left of the turn then but to go on to the animation,
so the battlers are those at its end. -/
def starts (m : Moment σ) : List Start :=
  let t := (m.1.processState m.2).2
  ((t.events.drop m.1.events.length).filterMap (·.starter?)).map fun (source, round) =>
    ⟨source, round, t.roster.battler? source⟩

def startsIn (s : Scene σ) (inputs : List InputState) : List Start :=
  (s.turnsIn inputs).flatMap starts

/-- Each pass that starts is the pending action's, which has come to its start. -/
theorem starts_cases {m : Moment σ} (hs : Routed m.1) (hopen : m.1.result = none) :
    (m.1.processState m.2).2.starters =
      m.1.starters ++ (starts m).map (fun p => (p.source, p.round)) ∧
      ∀ p ∈ starts m, ∃ u a, Reaches m.1 u ∧ u.AtStart ∧ u.pending = some a ∧
        p = ⟨a.source, u.comboRepeat, u.roster.battler? a.source⟩ := by
  obtain ⟨es, hes, hstarted⟩ := (m.1.processState_turned m.2 hopen).started hs
  have hstarts : starts m = (es.filterMap (·.starter?)).map fun p =>
      ⟨p.1, p.2, (m.1.processState m.2).2.roster.battler? p.1⟩ := by
    unfold starts
    dsimp only
    rw [hes, List.drop_left]
  constructor
  · rw [hstarts, List.map_map]
    unfold starters
    rw [hes, List.filterMap_append]
    exact congrArg _ (List.map_id _).symm
  · intro p hp
    rw [hstarts] at hp
    rcases hstarted with hnone | ⟨u, a, hdeeds, hstart, hpending, hroster, hone⟩
    · rw [hnone] at hp
      contradiction
    · rw [hone, List.map_singleton, List.mem_singleton] at hp
      refine ⟨u, a, ⟨_, hdeeds.mono fun _ _ => .deed⟩, hstart, hpending, ?_⟩
      rw [hp, hroster]

/-- The log of a run tells of the passes that started in it. -/
theorem after_starters {s : Scene σ} (hrouted : Routed s) (hnone : s.starters = [])
    (inputs : List InputState) :
    (s.after inputs).starters = (s.startsIn inputs).map fun p => (p.source, p.round) := by
  have routed {t u : Scene σ} {lost : List BattlerId} (h : Path Step t lost u) (ht : Routed t) :
      Routed u :=
    h.routed (fun _ _ => Step.routed) ht
  refine (after_history (P := fun _ turns t =>
    Routed t ∧ t.starters = (turns.flatMap starts).map fun p => (p.source, p.round)) ?_ ?_ ?_
      ⟨hrouted, hnone⟩ inputs).2
  · rintro input frames turns t ⟨ht, hstarters⟩
    have hprelude := t.prelude_interludes input
    exact ⟨routed hprelude.path ht, hprelude.starters_eq.trans hstarters⟩
  · rintro input frames turns t ⟨ht, hstarters⟩
    have hwaited := (t.checkWait_effects input).deeds.path.uneventful ht
    exact ⟨hwaited.2, hwaited.1.starters_eq.trans hstarters⟩
  · rintro input frames turns t ⟨ht, hstarters⟩ hopen
    refine ⟨routed (t.processState_turned input hopen).path ht, ?_⟩
    rw [(starts_cases (m := (t, input)) ht hopen).1, hstarters, List.flatMap_append,
      List.flatMap_singleton, List.map_append]

/-- The battler whose pass starts is one of the battle, and it is there, unless it is an actor in a
later round of a combo that a script gave, or an enemy in a battle whose scripts can remove
enemies. -/
theorem starters_present {config : BattleConfig} {database : Database} {setup : BattleSetup}
    {assets : σ} {s : Scene σ} (h : create config database setup assets = .ok s)
    (hactors : ∀ d ∈ database.actors, 1 ≤ d.stats.maxHp ∧ 0 ≤ d.stats.maxSp)
    (henemies : ∀ d ∈ database.enemies, 1 ≤ d.stats.maxHp ∧ 0 ≤ d.stats.maxSp)
    (inputs : List InputState) :
    (s.after inputs).starters = (s.startsIn inputs).map (fun p => (p.source, p.round)) ∧
      (∀ p ∈ s.startsIn inputs, p.battler.isSome = true) ∧
      (∀ p ∈ s.startsIn inputs, p.isPresent = false →
        p.source.isAlly = true ∧ 1 < p.round ∧ ¬s.store.Lacks (·.enablesCombo) ∨
          p.source.isAlly = false ∧ ¬s.store.Lacks (·.removesEnemies)) ∧
      (s.store.Lacks (·.enablesCombo) → s.store.Lacks (·.removesEnemies) →
        ∀ p ∈ s.startsIn inputs, p.isPresent = true) := by
  obtain ⟨hvalid, rfl⟩ := create_eq_ok h
  have hrouted := ofSetup_routed config database setup assets
  have hsound := ofSetup_sound setup assets (Int.le_of_lt hvalid.gauge_pos) hactors henemies
  have hwithin := ofSetup_withinStore config database setup assets
  have hturns := ((ofSetup config database setup assets).reaches_history inputs).2.1
  have start {p : Start} (hp : p ∈ (ofSetup config database setup assets).startsIn inputs) :
      ∃ (u : Scene σ) (a : Action),
        Poised (.ofStore (ofSetup config database setup assets).store) u ∧
        u.AtStart ∧ u.pending = some a ∧
          p = ⟨a.source, u.comboRepeat, u.roster.battler? a.source⟩ := by
    obtain ⟨m, hm, hp⟩ := List.mem_flatMap.mp hp
    obtain ⟨⟨lost, hpath⟩, hopen⟩ := hturns m hm
    have hm := hpath.routed (fun _ _ => Step.routed) hrouted
    obtain ⟨u, a, ⟨lost', hpath'⟩, hstart, hpending, hp⟩ := (starts_cases hm hopen).2 p hp
    exact ⟨u, a, (hpath.trans hpath').poised hsound hwithin
      (ofSetup_poised config database setup assets), hstart, hpending, hp⟩
  have missing : ∀ p ∈ (ofSetup config database setup assets).startsIn inputs, p.isPresent = false →
      p.source.isAlly = true ∧ 1 < p.round ∧
          ¬(ofSetup config database setup assets).store.Lacks (·.enablesCombo) ∨
        p.source.isAlly = false ∧
          ¬(ofSetup config database setup assets).store.Lacks (·.removesEnemies) := by
    intro p hp hgone
    obtain ⟨u, a, hpoised, hstart, hpending, rfl⟩ := start hp
    rcases hpoised.ready a hpending hstart with hpresent | ⟨hally, hround⟩ | ⟨henemy, hremoved⟩
    · exact absurd hpresent (by rw [show u.roster.isPresent a.source = false from hgone]; decide)
    · refine .inl ⟨hally, hround, fun hlacks => ?_⟩
      have hfirst :=
        (hpoised.plain (hlacks.of_any fun inst hcode =>
          by simp [Instruction.enablesCombo, hcode])).1
      have hround : 1 < u.comboRepeat := hround
      omega
    · refine .inr ⟨henemy, fun hlacks => hremoved ?_⟩
      exact hlacks.of_any fun inst hcode => by simp [Instruction.removesEnemies, hcode]
  refine ⟨after_starters hrouted rfl inputs, ?_, missing, ?_⟩
  · intro p hp
    obtain ⟨u, a, hpoised, -, hpending, rfl⟩ := start hp
    exact (hpoised.pending a hpending).2
  · intro hcombo hremove p hp
    by_contra hgone
    rcases missing p hp (Bool.not_eq_true _ ▸ hgone) with ⟨-, -, h⟩ | ⟨-, h⟩
    · exact h hcombo
    · exact h hremove

end Run

/-! ### An action of a dead enemy -/

namespace Ambush

def config : BattleConfig where
  battleType := .traditional
  maxAtbGauge := 1
  atbFillFrames := 1
  terms := { battleStart := "", specialCombat := "" }

def database : Database where
  actors := [{ id := 1, name := "A" }]
  enemies := [{ id := 1, name := "E", preemptive := true, actions := [⟨.attack, 1⟩] }]

/-- Runs before the first action of the first enemy. -/
def page (program : Program) : TroopPage where
  condition := { flags := .ofList [.turnEnemy], turnEnemyA := 1 }
  instructions := program

def setup (program : Program) : BattleSetup where
  party := [1]
  troop := { members := [{ enemyId := 1 }, { enemyId := 1 }], pages := [page program] }

def scene (program : Program) : Scene InstantAssets := ofSetup config database (setup program) {}

def killing : Program := [{ opcode := .changeMonsterHp, params := [0, 1, 0, 999, 1] }]

end Ambush

theorem starters_present_of_no_program :
    create Ambush.config Ambush.database (Ambush.setup []) {} = .ok (Ambush.scene []) ∧
      ∀ p ∈ (Ambush.scene []).startsIn [{}, {}, {}], p.isPresent = true := by
  have hcreated : create Ambush.config Ambush.database (Ambush.setup []) {} =
      .ok (Ambush.scene []) :=
    rfl
  have hactors : ∀ d ∈ Ambush.database.actors, 1 ≤ d.stats.maxHp ∧ 0 ≤ d.stats.maxSp := by decide
  have henemies : ∀ d ∈ Ambush.database.enemies, 1 ≤ d.stats.maxHp ∧ 0 ≤ d.stats.maxSp := by decide
  have hlacks (p : Instruction → Bool) : (Ambush.scene []).store.Lacks p := by
    refine ⟨fun e he => ?_, fun page hpage inst hinst => ?_⟩
    · contradiction
    · rw [List.mem_singleton.mp hpage] at hinst
      contradiction
  exact ⟨hcreated, (starters_present hcreated hactors henemies [{}, {}, {}]).2.2.2
    (hlacks _) (hlacks _)⟩

-- The page kills the enemy between its turn and its attack, and nothing looks at the enemy again.
set_option maxRecDepth 100000 in
theorem not_present_of_ambush :
    create Ambush.config Ambush.database (Ambush.setup Ambush.killing) {} =
      .ok (Ambush.scene Ambush.killing) ∧
      ∃ p ∈ (Ambush.scene Ambush.killing).startsIn [{}, {}, {}],
        p.source = .enemy 0 ∧ p.round = 1 ∧ p.isPresent = false := by
  refine ⟨rfl, ?_⟩
  decide +kernel

end Scene

end ActiveBattle
