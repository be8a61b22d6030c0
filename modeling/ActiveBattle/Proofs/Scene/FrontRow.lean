import ActiveBattle.Proofs.Roster.Ranks
import ActiveBattle.Proofs.Scene.Placing

/-!
# The front row

From the moment everyone is placed somebody of the party stands in front (`someone_in_front`). The
formation sees to it that somebody does: the back row joins the front when nobody there can fight
(`finishStart_hasFront`). From then on only the row command moves anybody back, and never the last
one in front (`HasFront.swap`). Who can fight is asked once, as everyone is placed; the row command
counts the dead and the disabled as it counts everybody else.
-/

namespace ActiveBattle

set_option autoImplicit false

namespace Roster

variable {r r' : Roster}

/-- Somebody of the party stands in front. -/
def HasFront (r : Roster) : Prop := ∃ id ∈ r.party, ∃ a, r.actor? id = some a ∧ a.row = .front

instance (r : Roster) : Decidable r.HasFront :=
  decidable_of_iff (∃ id ∈ r.party,
    (r.actor? id).any (·.row = .front) = true) (by simp [HasFront, Option.any_eq_true])

theorem HasFront.of_pointwise (h : r.HasFront) (hheld : r.Pointwise Battler.HoldsFront r') :
    r'.HasFront := by
  obtain ⟨id, hid, a, ha, hfront⟩ := h
  have hfound : r.battler? (.actor id) = some a := ha
  obtain ⟨a', ha', hstill⟩ := hheld.exists_battler? (fun _ _ h => h.dbId) hfound
  exact ⟨id, hheld.party ▸ hid, a', ha', hstill.front hfront⟩

/-- Members that are told of are counted by their ids. -/
theorem length_filter_partyMembers (r : Roster) (p : Battler → Bool) :
    (r.partyMembers.filter p).length = (r.party.filter fun id => (r.actor? id).any p).length := by
  have hseen (id : Int) : ((r.actor? id).filter p).isSome = (r.actor? id).any p := by
    cases r.actor? id with
    | none => rfl
    | some a => cases h : p a <;> simp [Option.filter, h]
  unfold partyMembers
  rw [List.filter_filterMap, List.length_filterMap_eq_countP, List.countP_eq_length_filter]
  simp only [hseen]

/-- Of two members in front one is somebody else. -/
theorem exists_front_of_two (hparty : r.party.Nodup)
    (htwo : 2 ≤ (r.partyMembers.filter (·.row = .front)).length) (actor : Int) :
    ∃ id ∈ r.party, id ≠ actor ∧ ∃ a, r.actor? id = some a ∧ a.row = .front := by
  rw [length_filter_partyMembers] at htwo
  have hids := hparty.filter fun id => (r.actor? id).any (·.row = .front)
  generalize hfronts : r.party.filter (fun id => (r.actor? id).any (·.row = .front)) =
    fronts at htwo hids
  have hothers : fronts ≠ [actor] := by
    rintro rfl
    simp at htwo
  rcases (hids.ne_singleton_iff actor).mp hothers with rfl | ⟨id, hid, hne⟩
  · simp at htwo
  rw [← hfronts] at hid
  obtain ⟨hmember, hfront⟩ := List.mem_filter.mp hid
  obtain ⟨a, ha, hrow⟩ := (Option.any_eq_true _ _).mp hfront
  exact ⟨id, hmember, hne, a, ha, of_decide_eq_true hrow⟩

/-- Whoever may change rows leaves somebody in front. -/
theorem HasFront.swap (h : r.HasFront) (hparty : r.party.Nodup) {actor : Int} {a : Battler}
    (ha : r.actor? actor = some a)
    (hfree : ¬(a.row = .front ∧ (r.partyMembers.filter (·.row = .front)).length < 2))
    {f : Battler → Battler} (hf : ∀ b, (f b).dbId = b.dbId) : (r.modifyActor actor f).HasFront := by
  obtain ⟨id, hid, hne, b, hb, hfront⟩ :
      ∃ id ∈ r.party, id ≠ actor ∧ ∃ b, r.actor? id = some b ∧ b.row = .front := by
    by_cases hrow : a.row = .front
    · exact exists_front_of_two hparty (Nat.le_of_not_lt fun hfew => hfree ⟨hrow, hfew⟩) actor
    · obtain ⟨id, hid, b, hb, hfront⟩ := h
      refine ⟨id, hid, ?_, b, hb, hfront⟩
      rintro rfl
      obtain rfl := Option.some.inj (ha.symm.trans hb)
      exact hrow hfront
  refine ⟨id, hid, b, ?_, hfront⟩
  rw [r.modifyActor_actor? actor id hf, if_neg hne]
  exact hb

theorem ofSetup_actor? (db : Database) (party : List Int) (troop : Troop) (id : Int) :
    (ofSetup db party troop).actor? id = (db.actor? id).map Battler.ofActor := by
  unfold actor? ofSetup Database.actor?
  rw [List.find?_map]
  rfl

theorem ofSetup_party {db : Database} {party : List Int}
    (hknown : ∀ id ∈ party, (db.actor? id).isSome = true) (troop : Troop) :
    (ofSetup db party troop).party = party :=
  List.filter_eq_self.mpr hknown

end Roster

namespace Formation

theorem seedGauge_holdsFront (db : Database) (condition : BattleCondition) (firstStrike : Bool)
    (preempt ambush max : Int) (b : Battler) :
    Battler.HoldsFront b (seedGauge db condition firstStrike preempt ambush max b) := by
  unfold seedGauge
  split
  · exact .refl b
  · exact ⟨rfl, fun h => h⟩

/-- The formation sends nobody back. -/
theorem arrange_holdsFront (r : Roster) (db : Database) (slots : List Point)
    (condition : BattleCondition) (firstStrike : Bool) (max : Int) :
    r.Pointwise Battler.HoldsFront
      (seedGauges (placeActors (placeEnemies r slots condition) db condition) db condition
      firstStrike max) :=
  arrange_pointwise Battler.HoldsFront.refl Battler.HoldsFront.trans
    (fun _ _ _ => ⟨rfl, fun h => h⟩)
    (fun _ => ⟨rfl, fun _ => rfl⟩) (seedGauge_holdsFront db condition firstStrike 0 max max)
    (seedGauge_holdsFront db condition firstStrike max 0 max) r slots

/-- Whoever is placed in front stands there. -/
theorem placeActors_hasFront {r : Roster} (hparty : r.party.Nodup)
    (hmembers : ∃ id ∈ r.party, (r.actor? id).isSome = true) (db : Database)
    (condition : BattleCondition) : (placeActors r db condition).HasFront := by
  obtain ⟨id, hid, a, ha, hrow⟩ :
      ∃ id ∈ r.party, ∃ a, r.actor? id = some a ∧ placedRow r db a = .front := by
    unfold placedRow
    cases hfront : frontCanFight r db with
    | true =>
      obtain ⟨a, ha, hfights⟩ := List.any_eq_true.mp hfront
      obtain ⟨id, hid, ha⟩ := List.mem_filterMap.mp ha
      simp only [Bool.and_eq_true, decide_eq_true_eq] at hfights
      exact ⟨id, hid, a, ha, hfights.1.1⟩
    | false =>
      obtain ⟨id, hid, hsome⟩ := hmembers
      obtain ⟨a, ha⟩ := Option.isSome_iff_exists.mp hsome
      exact ⟨id, hid, a, ha, rfl⟩
  obtain ⟨place, hplace⟩ := List.mem_iff_getElem?.mp hid
  have hplaced := placeActors_actor? r db condition hparty hplace
  rw [ha, Option.map_some] at hplaced
  exact ⟨id, placeActors_party r db condition ▸ hid, _, hplaced, hrow⟩

end Formation

namespace Scene

variable {σ : Type}

/-! ### One step -/

section Step

variable {s t : Scene σ}

/-- Scripts move nobody between the rows. -/
theorem Ran.holdsFront (h : Ran s t) : s.roster.Pointwise Battler.HoldsFront t.roster :=
  h.game.battlers (fun _ _ h => h.holdsFront) fun _ _ h => h.affected.holdsFront

/-- Only the row command may send somebody back. -/
theorem Effect.hasFront (h : Effect s t) (hparty : s.roster.party.Nodup) (hs : s.roster.HasFront) :
    t.roster.HasFront := by
  have modified (actor : Int) (f : Battler → Battler) (hf : ∀ b, Battler.HoldsFront b (f b)) :
      (s.roster.modifyActor actor f).HasFront :=
    hs.of_pointwise (.modifyActor Battler.HoldsFront.refl s.roster actor f fun b _ => hf b)
  cases h with
  | quiet h =>
    rw [show t.roster = s.roster from congrArg Core.roster h]
    exact hs
  | hook hran _ => exact hs.of_pointwise hran.holdsFront
  | page trigger source _ =>
    rw [show (s.schedulePage trigger source).roster = s.roster from
      congrArg GameState.roster (s.schedulePage_game trigger source)]
    exact hs
  | pose hroster _ => exact hs.of_pointwise (hroster.battlers.imp fun _ _ h => h.holdsFront)
  | wear _ =>
    exact hs.of_pointwise (s.healStates_pointwise Battler.HoldsFront.refl Battler.HoldsFront.trans
      (fun _ _ => ⟨rfl, fun h => h⟩) _)
  | ache _ hroster _ =>
    exact hs.of_pointwise (hroster.battlers.imp fun _ _ h =>
      (h.struck s.database).affected.holdsFront)
  | pay hroster _ =>
    exact hs.of_pointwise (hroster.battlers.imp fun _ _ h =>
      (h.struck s.database).affected.holdsFront)
  | strike _ _ hroster _ =>
    exact hs.of_pointwise (hroster.battlers.imp fun _ _ h => h.affected.holdsFront)
  | consume item => exact hs
  | reward _ _ =>
    exact hs.of_pointwise (s.grantRewards_battlers Battler.HoldsFront.refl Battler.HoldsFront.trans)
  | turn id => exact hs.of_pointwise ((s.nextTurn_marks id).imp fun _ _ h => h.holdsFront)
  | announce a _ => exact hs
  | swapRow actor index a ha hfree => exact hs.swap hparty ha hfree fun _ => rfl
  | forget actor => exact modified actor _ fun _ => ⟨rfl, fun h => h⟩
  | spend actor => exact modified actor _ fun _ => ⟨rfl, fun h => h⟩

theorem Background.holdsFront (h : Background s t) :
    s.roster.Pointwise Battler.HoldsFront t.roster := by
  cases h with
  | quiet h =>
    rw [show t.roster = s.roster from congrArg Core.roster h]
    exact .refl Battler.HoldsFront.refl _
  | opened backdrop => exact .refl Battler.HoldsFront.refl s.roster
  | script hran _ => exact hran.holdsFront
  | pose hroster _ => exact hroster.battlers.imp fun _ _ h => h.holdsFront
  | placed => exact Formation.arrange_holdsFront _ _ _ _ _ _
  | fill =>
    exact Roster.fillGauges_pointwise Battler.HoldsFront.refl Battler.HoldsFront.trans _ _ _ _
      (fun _ _ => ⟨rfl, fun h => h⟩) _ _
  | tick => exact .refl Battler.HoldsFront.refl s.roster

theorem Step.hasFront (h : Step s t) (hparty : s.roster.party.Nodup) (hs : s.roster.HasFront) :
    t.roster.HasFront := by
  rcases h.effect_or_background_or_marks with heffect | hbackground | hmarks
  · exact heffect.hasFront hparty hs
  · exact hs.of_pointwise hbackground.holdsFront
  · exact hs.of_pointwise (hmarks.imp fun _ _ h => h.holdsFront)

theorem Path.hasFront {lost : List BattlerId} (h : Path Step s lost t)
    (hparty : s.roster.party.Nodup) (hs : s.roster.HasFront) : t.roster.HasFront := by
  induction h with
  | refl => exact hs
  | step hpath hstep ih => exact hstep.hasFront (hpath.setting.battlers.party ▸ hparty) ih
  | take _ htake ih =>
    cases htake
    exact ih

theorem Reaches.hasFront (h : Reaches s t) (hparty : s.roster.party.Nodup)
    (hs : s.roster.HasFront) :
    t.roster.HasFront :=
  h.elim fun _ hpath => hpath.hasFront hparty hs

/-- Everyone is placed, and somebody of the party in front. -/
theorem finishStart_hasFront (hparty : s.roster.party.Nodup)
    (hmembers : ∃ id ∈ s.roster.party, (s.roster.actor? id).isSome = true) :
    s.finishStart.roster.HasFront := by
  have hplaced :=
    Formation.placeActors_hasFront (r := Formation.placeEnemies s.roster s.slots s.condition)
      hparty hmembers s.database s.condition
  exact hplaced.of_pointwise
    (Formation.seedGauges_pointwise_of Battler.HoldsFront.refl Battler.HoldsFront.trans
    (Formation.seedGauge_holdsFront _ _ _ _ _ _) (Formation.seedGauge_holdsFront _ _ _ _ _ _) _)

end Step

/-! ### A run -/

section Run

variable [AssetLoader σ]

/-- What follows the prelude of a frame is reached from there. -/
theorem reaches_of_prelude {s t : Scene σ} {input : InputState} {goes : Bool}
    (h : s.prelude input = (goes, t)) :
    Reaches t (s.update input) ∧ ∀ m ∈ s.turnsBy input, Reaches t m.1 := by
  rw [update_eq]
  unfold turnsBy
  rw [h]
  cases goes with
  | false => exact ⟨⟨[], .refl t⟩, fun _ hm => absurd hm List.not_mem_nil⟩
  | true =>
    refine @dispatchFrom_history σ _ (fun _ turns u => Reaches t u ∧
      ∀ m ∈ turns, Reaches t m.1) input ?_ ?_
      maxActionsPerFrame [] [] t ⟨⟨[], .refl t⟩, fun _ hm => absurd hm List.not_mem_nil⟩
    · rintro - turns u ⟨hu, hturns⟩
      exact ⟨hu.trans ((u.checkWait_effects input).deeds.path.mono fun _ _ => .deed), hturns⟩
    · rintro - turns u ⟨hu, hturns⟩ hopen
      refine ⟨hu.trans (u.processState_turned input hopen).path, fun m hm => ?_⟩
      rcases List.mem_append.mp hm with hm | hm
      · exact hturns m hm
      · rwa [List.mem_singleton.mp hm]

/-- A frame of a battle in which nobody is placed yet does nothing, or goes on from everyone's being
placed. -/
theorem frame_of_unplaced {s : Scene σ} (hplaced : s.isPlaced = false) (input : InputState) :
    Polls s (s.update input) ∧ (s.update input).isPlaced = false ∧ s.turnsBy input = [] ∨
      ∃ u, Polls s u ∧ Reaches u.finishStart (s.update input) ∧
        ∀ m ∈ s.turnsBy input, Reaches u.finishStart m.1 := by
  have waits {u : Scene σ} (hu : Polls s u) (hstill : u.isPlaced = false)
    (henter : s.enter = (false, u)) :
      Polls s (s.update input) ∧ (s.update input).isPlaced = false ∧ s.turnsBy input = [] := by
    unfold turnsBy prelude
    rw [update_eq_enter, henter]
    exact ⟨hu, hstill, rfl⟩
  cases hresult : s.result with
  | some result =>
    exact .inl (waits (u := { s with steps := [], inputConsumed := false }) ⟨rfl⟩ hplaced
      (if_pos (by simp [hresult])))
  | none =>
    obtain ⟨u, hu, ⟨henter, hstill⟩ | henter⟩ := enter_of_unplaced hplaced hresult
    · exact .inl (waits hu hstill henter)
    · have hbegun : Reaches u.finishStart (s.prelude input).2 := by
        have hbattle := (u.finishStart.updateBattle_interludes input).path
        unfold prelude
        rw [henter]
        dsimp only
        generalize u.finishStart.updateBattle input = updated at hbattle ⊢
        obtain ⟨_ | _, v⟩ := updated
        · exact ⟨_, hbattle⟩
        · exact ⟨_, hbattle.trans (v.mark_backgrounds .dispatch).interludes.path⟩
      obtain ⟨⟨_, hupdate⟩, hturns⟩ := reaches_of_prelude (t := (s.prelude input).2) rfl
      exact .inr ⟨u, hu, hbegun.trans hupdate,
        fun m hm => (hturns m hm).elim fun _ hpath => hbegun.trans hpath⟩

/-- Once everyone is placed, and whenever an outer state takes its turn, somebody of the party
stands in front. -/
theorem after_hasFront {s : Scene σ} (hplaced : s.isPlaced = false) (hparty : s.roster.party.Nodup)
    (hmembers : ∃ id ∈ s.roster.party, (s.roster.actor? id).isSome = true)
    (inputs : List InputState) :
    ((s.after inputs).isPlaced = true → (s.after inputs).roster.HasFront) ∧
      ∀ m ∈ s.turnsIn inputs, m.1.roster.HasFront := by
  induction inputs generalizing s with
  | nil =>
    exact ⟨fun h => absurd (hplaced.symm.trans h) Bool.false_ne_true,
      fun _ hm => absurd hm List.not_mem_nil⟩
  | cons input rest ih =>
    unfold turnsIn
    rcases frame_of_unplaced hplaced input with ⟨hpolled, hstill, hnone⟩ | ⟨u, hu, hupdate, hturns⟩
    · have hsame : (s.update input).roster = s.roster := congrArg GameState.roster hpolled.game
      rw [hnone]
      rw [← hsame] at hparty hmembers
      exact ih hstill hparty hmembers
    · have hsame : u.roster = s.roster := congrArg GameState.roster hu.game
      have hstart : u.finishStart.roster.HasFront :=
        finishStart_hasFront (hsame ▸ hparty) (hsame ▸ hmembers)
      have hids : u.finishStart.roster.party.Nodup := by
        rw [u.finishStart_arranged.party, hsame]
        exact hparty
      obtain ⟨-, hlater, hafter⟩ := (s.update input).reaches_history rest
      have front {t : Scene σ} (h : Reaches (s.update input) t) : t.roster.HasFront :=
        (h.elim fun _ hpath => hupdate.trans hpath).hasFront hids hstart
      refine ⟨fun _ => front hafter, fun m hm => ?_⟩
      rcases List.mem_append.mp hm with hm | hm
      · exact (hturns m hm).hasFront hids hstart
      · exact front (hlater m hm).1

/-- From the moment everyone is placed, a party in which somebody is, nobody twice and everybody
known keeps somebody in front, after every frame and whenever an outer state takes its turn within
one. -/
theorem someone_in_front {config : BattleConfig} {database : Database} {setup : BattleSetup}
    {assets : σ} {s : Scene σ} (h : create config database setup assets = .ok s)
    (hsomeone : setup.party ≠ []) (hids : setup.party.Nodup)
    (hknown : ∀ id ∈ setup.party, (database.actor? id).isSome = true) (inputs : List InputState) :
    ((s.after inputs).isPlaced = true →
        (s.after inputs).roster.party = setup.party ∧ (s.after inputs).roster.HasFront) ∧
      ∀ m ∈ s.turnsIn inputs, m.1.roster.party = setup.party ∧ m.1.roster.HasFront := by
  obtain ⟨-, rfl⟩ := create_eq_ok h
  have hparty : (ofSetup config database setup assets).roster.party = setup.party :=
    Roster.ofSetup_party hknown setup.troop
  have hmembers : ∃ id ∈ (ofSetup config database setup assets).roster.party,
      ((ofSetup config database setup assets).roster.actor? id).isSome = true := by
    obtain ⟨id, hid⟩ := List.exists_mem_of_ne_nil _ hsomeone
    refine ⟨id, hparty.symm ▸ hid, ?_⟩
    rw [show (ofSetup config database setup assets).roster.actor? id = _ from
      Roster.ofSetup_actor? database setup.party setup.troop id, Option.isSome_map]
    exact hknown id hid
  have members {t : Scene σ} (h : Reaches (ofSetup config database setup assets) t) :
      t.roster.party = setup.party :=
    h.elim fun _ hpath => hpath.setting.battlers.party.trans hparty
  obtain ⟨hfront, hturns⟩ := after_hasFront rfl (hparty.symm ▸ hids) hmembers inputs
  obtain ⟨-, hreached, hafter⟩ := (ofSetup config database setup assets).reaches_history inputs
  exact ⟨fun hplaced => ⟨members hafter, hfront hplaced⟩,
    fun m hm => ⟨members (hreached m hm).1, hturns m hm⟩⟩

end Run

/-! ### Two actors who are sent back one after the other -/

namespace Rearguard

def config : BattleConfig where
  battleType := .traditional
  terms := { battleStart := "", specialCombat := "" }

/-- Actors who have the row command only. -/
def database : Database where
  actors := [{ id := 1, name := "A" }, { id := 2, name := "B" }]
  enemies := [{ id := 1, name := "E" }]

def setup (party : List Int) : BattleSetup where
  party := party
  troop := { members := [{ enemyId := 1 }] }
  firstStrike := true

def scene (party : List Int) : Scene InstantAssets := ofSetup config database (setup party) {}

/-- The row command of whoever's window opens. -/
def orders (frames : Nat) : List InputState := List.replicate frames { triggered := [.decision] }

def row? (s : Scene InstantAssets) (actor : Int) : Option Row := (s.roster.actor? actor).map (·.row)

end Rearguard

-- The first actor goes, and the second, whose window is open, asks in vain.
set_option maxRecDepth 100000 in
theorem someone_in_front_of_rearguard :
    create Rearguard.config Rearguard.database (Rearguard.setup [1, 2]) {} =
      .ok (Rearguard.scene [1, 2]) ∧
      (Rearguard.setup [1, 2]).party ≠ [] ∧ (Rearguard.setup [1, 2]).party.Nodup ∧
      (∀ id ∈ (Rearguard.setup [1, 2]).party, (Rearguard.database.actor? id).isSome = true) ∧
      ∃ s, (Rearguard.scene [1, 2]).after (Rearguard.orders 40) = s ∧ s.isPlaced = true ∧
        s.activeActor = some 2 ∧
        Rearguard.row? s 1 = some .back ∧ Rearguard.row? s 2 = some .front ∧
        s.roster.party = [1, 2] ∧ s.roster.HasFront := by
  have hcreated : create Rearguard.config Rearguard.database (Rearguard.setup [1, 2]) {} =
      .ok (Rearguard.scene [1, 2]) := rfl
  have hsomeone : (Rearguard.setup [1, 2]).party ≠ [] := by decide
  have hids : (Rearguard.setup [1, 2]).party.Nodup := by decide
  have hknown : ∀ id ∈ (Rearguard.setup [1, 2]).party,
    (Rearguard.database.actor? id).isSome = true := by decide
  have hreached : ((Rearguard.scene [1, 2]).after (Rearguard.orders 40)).isPlaced = true ∧
      ((Rearguard.scene [1, 2]).after (Rearguard.orders 40)).activeActor = some 2 ∧
      Rearguard.row? ((Rearguard.scene [1, 2]).after (Rearguard.orders 40)) 1 = some .back ∧
      Rearguard.row? ((Rearguard.scene [1, 2]).after (Rearguard.orders 40)) 2 = some .front := by
    decide +kernel
  have hfront := (someone_in_front hcreated hsomeone hids hknown (Rearguard.orders 40)).1 hreached.1
  exact ⟨hcreated, hsomeone, hids, hknown, _, rfl, hreached.1, hreached.2.1, hreached.2.2.1,
    hreached.2.2.2, hfront⟩

-- A member listed twice counts as two in front and goes as one.
set_option maxRecDepth 100000 in
example : ¬((Rearguard.scene [1, 1]).after (Rearguard.orders 2)).roster.HasFront := by
  decide +kernel

end Scene

end ActiveBattle
