import ActiveBattle.Proofs.Roster.Placing
import ActiveBattle.Proofs.Scene.Queueing

/-!
# Where enemies stand

Until everyone is placed a battle does nothing but ask for its backdrop (`after_polls`), so what is
placed then is the roster of the setup. Enemies get the slots of the troop by place, and one that
comes after a member the database does not know gets the slot of another member (`atOwnSlots_iff`).
-/

namespace ActiveBattle.Scene

set_option autoImplicit false

variable {σ : Type}

section Placed

theorem Outcome.isPlaced_eq {s t : Scene σ} (h : Outcome s t) : t.isPlaced = s.isPlaced := by
  cases h with
  | done => rfl
  | decided h => cases h <;> rfl
  | launched a a' _ _ _ _ _ => rfl
  | ended _ => exact s.endBattle_isPlaced _

/-- Nobody is taken from their place. -/
theorem Step.isPlaced {s t : Scene σ} (h : Step s t) (hs : s.isPlaced = true) :
    t.isPlaced = true := by
  cases h with
  | deed h => exact h.isPlaced_eq.trans hs
  | close h => exact h.isPlaced_eq.trans hs
  | interlude h => exact h.isPlaced hs

theorem Path.isPlaced {s t : Scene σ} {lost : List BattlerId} (h : Path Step s lost t)
    (hs : s.isPlaced = true) :
    t.isPlaced = true := by
  induction h with
  | refl => exact hs
  | step _ hstep ih => exact hstep.isPlaced ih
  | take _ htake ih =>
    cases htake
    exact ih

end Placed

/-- Nothing happens but that an asset is asked for and polled. -/
structure Polls (s t : Scene σ) : Prop where
  rest : t = { s with
    world := { s.world with assets := t.world.assets }
    inputConsumed := t.inputConsumed
    started := t.started
    pendingAsset := t.pendingAsset
    frame := t.frame
    steps := t.steps
    log := t.log }

namespace Polls

variable {s t u : Scene σ}

theorem refl (s : Scene σ) : Polls s s := ⟨rfl⟩

theorem trans (h : Polls s t) (h' : Polls t u) : Polls s u := by
  constructor
  rw [h'.rest, h.rest]

theorem game (h : Polls s t) : t.game = s.game := by
  rw [h.rest]
  rfl

theorem slots (h : Polls s t) : t.slots = s.slots := by rw [h.rest]

theorem result (h : Polls s t) : t.result = s.result := by rw [h.rest]

end Polls

/-- A battle that is not placed waits for its backdrop. -/
theorem pending_of_unplaced {s : Scene σ} (hstarted : s.started = true)
    (hplaced : s.isPlaced = false) :
    ∃ request, s.pendingAsset = some ⟨request, .finishStart⟩ := by
  unfold isPlaced at hplaced
  rw [hstarted] at hplaced
  generalize s.pendingAsset = pending at hplaced ⊢
  obtain _ | ⟨request, continuation⟩ := pending
  · contradiction
  · have hbackdrop : continuation = .finishStart := by simpa using hplaced
    exact ⟨request, by rw [hbackdrop]⟩

section Slots

variable {s : Scene σ}

/-- Where the enemy at a place belongs if it has the slot of a member. -/
def slotPosition (s : Scene σ) (member : TroopMember) (place : Nat) : Point :=
  Formation.enemyPosition member.position (Formation.layoutIndex s.roster.enemies place) s.condition

/-- Every enemy stands at the slot of the member of the troop it was built from. -/
def AtOwnSlots (members : List TroopMember) (s : Scene σ) : Prop :=
  ∀ place b, s.roster.enemies[place]? = some b →
    ∃ own origin, (Roster.knownMembers s.database members)[place]? = some own ∧
      Roster.built? s.database place own = some origin ∧
      Formation.Posted origin b (s.slotPosition own place)

/-- Every enemy stands at the slot of the member that has its place in the troop. -/
def AtSlotsByPlace (members : List TroopMember) (s : Scene σ) : Prop :=
  ∀ place own, (Roster.knownMembers s.database members)[place]? = some own → ∃ origin b other,
    Roster.built? s.database place own = some origin ∧ s.roster.enemies[place]? = some b ∧
      members[place]? = some other ∧ Formation.Posted origin b (s.slotPosition other place)

/-- Whose slot an enemy has makes no difference to where it stands. -/
def SlotsCoincide (members : List TroopMember) (s : Scene σ) : Prop :=
  ∀ place own other, (Roster.knownMembers s.database members)[place]? = some own →
    members[place]? = some other → s.slotPosition own place = s.slotPosition other place

theorem finishStart_atSlotsByPlace {members : List TroopMember}
    (hslots : s.slots = members.map (·.position))
    (henemies : s.roster.enemies = Roster.enemiesOf s.database 0 members) :
    AtSlotsByPlace members s.finishStart := by
  intro place own hown
  obtain ⟨origin, horigin⟩ := Option.isSome_iff_exists.mp (Roster.built?_isSome hown)
  have hbuilt : s.roster.enemies[place]? = some origin := by
    rw [henemies, Roster.getElem?_enemiesOf, Nat.zero_add]
    exact Option.bind_eq_some_iff.mpr ⟨own, hown, horigin⟩
  obtain ⟨b, hb, hposted⟩ :=
    Formation.getElem?_arrange hbuilt s.database s.slots s.condition s.firstStrike
    s.config.maxAtbGauge
  have hlt : place < members.length :=
    Nat.lt_of_lt_of_le (List.getElem?_eq_some_iff.mp hown).1 (List.length_filter_le _ _)
  refine ⟨origin, b, members[place], horigin, hb, List.getElem?_eq_getElem hlt, ?_⟩
  have hslot : s.slots.getD place origin.position = members[place].position := by
    rw [hslots, List.getD_eq_getElem?_getD, List.getElem?_map, List.getElem?_eq_getElem hlt]
    rfl
  have hlayout : Formation.layoutIndex s.finishStart.roster.enemies place =
      Formation.layoutIndex s.roster.enemies place :=
    Formation.layoutIndex_congr (Formation.map_hidden_arrange ..) place
  rw [hslot] at hposted
  unfold slotPosition
  rw [hlayout]
  exact hposted

theorem AtSlotsByPlace.own_iff {members : List TroopMember} (h : AtSlotsByPlace members s)
    (hlength : s.roster.enemies.length = (Roster.knownMembers s.database members).length) :
    AtOwnSlots members s ↔ SlotsCoincide members s := by
  constructor
  · intro hown place own other hplace hother
    obtain ⟨origin, b, other', -, hb, hother', hposted⟩ := h place own hplace
    obtain rfl := Option.some.inj (hother.symm.trans hother')
    obtain ⟨own', _, hplace', -, hposted'⟩ := hown place b hb
    obtain rfl := Option.some.inj (hplace.symm.trans hplace')
    rw [← hposted.position, hposted'.position]
  · intro hcoincide place b hb
    have hlt : place < (Roster.knownMembers s.database members).length := by
      rw [← hlength]
      exact (List.getElem?_eq_some_iff.mp hb).1
    have hplace := List.getElem?_eq_getElem hlt
    obtain ⟨origin, b', other, horigin, hb', hother, hposted⟩ := h place _ hplace
    obtain rfl := Option.some.inj (hb.symm.trans hb')
    refine ⟨_, origin, hplace, horigin, hposted.same, ?_⟩
    rw [hposted.position, hcoincide place _ other hplace hother]

theorem finishStart_enemies_length (s : Scene σ) :
    s.finishStart.roster.enemies.length = s.roster.enemies.length :=
  s.finishStart_arranged.enemies.length_eq.symm

theorem slotsCoincide_of_known_first {members : List TroopMember}
    (h : (Roster.knownMembers s.database members).map (·.position) <+: members.map (·.position)) :
    SlotsCoincide members s := by
  intro place own other hown hother
  have hposition : own.position = other.position := by
    have hsame := List.prefix_iff_getElem?.mp h place
      (by rw [List.length_map]; exact (List.getElem?_eq_some_iff.mp hown).1)
    rw [List.getElem?_map, hother, List.getElem_map, (List.getElem?_eq_some_iff.mp hown).2] at hsame
    exact (Option.some.inj hsame).symm
  unfold slotPosition
  rw [hposition]

end Slots

section Run

variable [AssetLoader σ]

theorem requestBackdrop_polls (s : Scene σ) : Polls s s.requestBackdrop := by
  unfold requestBackdrop
  split <;> exact ⟨rfl⟩

theorem requestBackdrop_isPlaced {s : Scene σ} (h : s.isPlaced = false) :
    s.requestBackdrop.isPlaced = false := by
  unfold requestBackdrop
  split
  · exact h
  · rfl

theorem enter_of_open {s : Scene σ} (hopen : s.result = none) :
    s.enter =
      ({ s with
        steps := []
        inputConsumed := false
        frame := s.frame + 1 }).requestBackdrop.awaitAsset :=
  if_neg fun h => by simp [hopen] at h

/-- A frame of a battle in which nobody is placed yet: the backdrop is not there, or everyone is
placed. -/
theorem enter_of_unplaced {s : Scene σ} (hplaced : s.isPlaced = false) (hopen : s.result = none) :
    ∃ t, Polls s t ∧ (s.enter = (false, t) ∧ t.isPlaced = false ∨
      s.enter = (true, t.finishStart)) := by
  have hcounted : Polls s { s with steps := [], inputConsumed := false, frame := s.frame + 1 } :=
    ⟨rfl⟩
  have hasked := hcounted.trans (requestBackdrop_polls _)
  have hwaits :=
    requestBackdrop_isPlaced
      (s := { s with steps := [], inputConsumed := false, frame := s.frame + 1 }) hplaced
  obtain ⟨request, hpending⟩ := pending_of_unplaced (requestBackdrop_started _) hwaits
  rw [enter_of_open hopen]
  generalize requestBackdrop (σ := σ) _ = u at hasked hwaits hpending ⊢
  have hnone : u.result.isNone = true := by rw [hasked.result, hopen, Option.isNone_none]
  unfold awaitAsset
  rw [hpending]
  dsimp only
  split
  · refine ⟨({ u with world := (u.world.isReady request).2, pendingAsset := none } : Scene σ).mark
      .assetContinuation, hasked.trans ⟨rfl⟩, .inr (Prod.ext ?_ rfl)⟩
    change (u.result.isNone && true) = true
    rw [hnone, Bool.and_true]
  · exact ⟨_, hasked.trans ⟨rfl⟩, .inl ⟨rfl, by simp [isPlaced]⟩⟩

theorem update_eq_enter (s : Scene σ) (input : InputState) : s.update input =
    match s.enter with
    | (true, t) => t.updateFrame input
    | (false, t) => t := by
  unfold update enter
  dsimp only
  split <;> rfl

theorem updateFrame_isPlaced {s : Scene σ} (hs : s.isPlaced = true) (input : InputState) :
    (s.updateFrame input).isPlaced = true := by
  have hbattle := (s.updateBattle_interludes input).isPlaced hs
  unfold updateFrame
  generalize s.updateBattle input = updated at hbattle ⊢
  obtain ⟨_ | _, t⟩ := updated
  · exact hbattle
  · exact (dispatchFrom_path (t.mark .dispatch) input maxActionsPerFrame).isPlaced hbattle

theorem update_of_unplaced {s : Scene σ} (hopen : s.result = none) {input : InputState}
    (hplaced : (s.update input).isPlaced = false) : Polls s (s.update input) := by
  have hbefore : s.isPlaced = false := by
    by_contra h
    rw [(s.update_path input).isPlaced (Bool.not_eq_false _ ▸ h)] at hplaced
    contradiction
  obtain ⟨t, ht, ⟨henter, -⟩ | henter⟩ := enter_of_unplaced hbefore hopen
  · rw [update_eq_enter, henter]
    exact ht
  · rw [update_eq_enter, henter] at hplaced
    rw [updateFrame_isPlaced (enter_isPlaced henter) input] at hplaced
    contradiction

/-- A battle in which nobody is placed has done nothing yet. -/
theorem after_polls {s : Scene σ} (hopen : s.result = none) (inputs : List InputState)
    (hplaced : (s.after inputs).isPlaced = false) : Polls s (s.after inputs) := by
  induction inputs generalizing s with
  | nil => exact .refl s
  | cons input rest ih =>
    have hfirst : (s.update input).isPlaced = false := by
      by_contra h
      rw [show s.after (input :: rest) = (s.update input).after rest from rfl,
        ((s.update input).after_path rest).isPlaced (Bool.not_eq_false _ ▸ h)] at hplaced
      contradiction
    have hpolled := update_of_unplaced hopen hfirst
    exact hpolled.trans (ih (hpolled.result.trans hopen) hplaced)

variable {config : BattleConfig} {database : Database} {setup : BattleSetup} {assets : σ}
  {s t : Scene σ}

/-- Everyone is placed as the setup has them. -/
theorem finishStart_of_enter (hopen : s.result = none) (inputs : List InputState)
    (hplaced : (s.after inputs).isPlaced = false) (henter : (s.after inputs).enter = (true, t)) :
    ∃ u, Polls s u ∧ t = u.finishStart := by
  have hpolled := after_polls hopen inputs hplaced
  obtain ⟨u, hu, ⟨hwaits, -⟩ | hgoes⟩ := enter_of_unplaced hplaced (hpolled.result.trans hopen)
  · rw [hwaits] at henter
    simp at henter
  · exact ⟨u, hpolled.trans hu, (Prod.mk.inj (henter.symm.trans hgoes)).2⟩

/-- Once everyone is placed, each enemy stands at the slot that has its place in the troop, under
the condition the battle begins in. That is the slot of the member it was built from whenever the
members the database does not know come last, and else only where it makes no difference. -/
theorem atOwnSlots_iff (h : create config database setup assets = .ok s) (inputs : List InputState)
    (hplaced : (s.after inputs).isPlaced = false) (henter : (s.after inputs).enter = (true, t)) :
    t.condition = Formation.resolve setup.condition config.placement
        (Roster.ofSetup database setup.party setup.troop) ∧
      AtSlotsByPlace setup.troop.members t ∧
      (AtOwnSlots setup.troop.members t ↔ SlotsCoincide setup.troop.members t) ∧
      ((Roster.knownMembers database setup.troop.members).map (·.position) <+:
        setup.troop.members.map (·.position) → AtOwnSlots setup.troop.members t) := by
  obtain ⟨-, rfl⟩ := create_eq_ok h
  obtain ⟨u, hu, rfl⟩ := finishStart_of_enter rfl inputs hplaced henter
  have hgame : u.game = (ofSetup config database setup assets).game := hu.game
  have hdatabase : u.finishStart.database = database := congrArg GameState.database hgame
  have henemies : u.roster.enemies = Roster.enemiesOf u.database 0 setup.troop.members := by
    unfold Scene.roster Scene.database
    rw [show u.world.game = _ from hgame]
    rfl
  have hplace : AtSlotsByPlace setup.troop.members u.finishStart :=
    finishStart_atSlotsByPlace hu.slots henemies
  have hiff := hplace.own_iff (by
    rw [finishStart_enemies_length, henemies, Roster.length_enemiesOf]
    rfl)
  refine ⟨congrArg (·.status.condition) hgame, hplace, hiff,
    fun hprefix => hiff.mpr (slotsCoincide_of_known_first ?_)⟩
  rw [hdatabase]
  exact hprefix

end Run

/-! ### A troop with a stranger in it -/

namespace Vacancy

def database : Database where
  enemies := [{ id := 1, name := "E" }]

/-- A troop in which somebody the database does not know stands at the origin. -/
def setup (members : List TroopMember) : BattleSetup where
  troop := { members := members }

def stranger : TroopMember := { enemyId := 2 }

def member : TroopMember := { enemyId := 1, position := ⟨200, 100⟩ }

def scene (members : List TroopMember) : Scene InstantAssets :=
  ofSetup {} database (setup members) {}

/-- The scene as everyone is placed. -/
def placed (members : List TroopMember) : Scene InstantAssets := (scene members).enter.2

end Vacancy

theorem atOwnSlots_of_stranger_last :
    create {} Vacancy.database (Vacancy.setup [Vacancy.member, Vacancy.stranger]) {} =
        .ok (Vacancy.scene [Vacancy.member, Vacancy.stranger]) ∧
      AtOwnSlots [Vacancy.member, Vacancy.stranger]
        (Vacancy.placed [Vacancy.member, Vacancy.stranger]) := by
  have hcreated : create {} Vacancy.database (Vacancy.setup [Vacancy.member, Vacancy.stranger]) {} =
    .ok (Vacancy.scene [Vacancy.member, Vacancy.stranger]) := rfl
  refine ⟨hcreated,
    (atOwnSlots_iff hcreated [] rfl (t := Vacancy.placed [Vacancy.member, Vacancy.stranger])
    rfl).2.2.2 ?_⟩
  decide

/-- The enemy gets the slot of the stranger before it. -/
theorem not_atOwnSlots_of_stranger :
    create {} Vacancy.database (Vacancy.setup [Vacancy.stranger, Vacancy.member]) {} =
        .ok (Vacancy.scene [Vacancy.stranger, Vacancy.member]) ∧
      (Vacancy.scene [Vacancy.stranger, Vacancy.member]).isPlaced = false ∧
      (Vacancy.scene [Vacancy.stranger, Vacancy.member]).enter =
        (true, Vacancy.placed [Vacancy.stranger, Vacancy.member]) ∧
      ¬AtOwnSlots [Vacancy.stranger,
        Vacancy.member] (Vacancy.placed [Vacancy.stranger, Vacancy.member]) := by
  refine ⟨rfl, rfl, rfl, fun hown => ?_⟩
  obtain ⟨own, _, hknown, -, hposted⟩ := hown 0 _ rfl
  obtain rfl := Option.some.inj hknown
  exact absurd hposted.position (by decide)

end ActiveBattle.Scene
