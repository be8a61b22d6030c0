import ActiveBattle.Proofs.Scene.Usage

/-!
# Items used up

In a turn the first pass of an ally's item action takes one of the item from the stock, which has
it, and no other pass takes any (`Consumes.balanced`). So over a battle no more items are used than
there were and than victories have brought (`uses_paid`).
-/

namespace ActiveBattle.Scene

set_option autoImplicit false

variable {σ : Type}

section Turns

/-- Outside the battle and the windows. -/
theorem staged_spendsNoItem {s t : Scene σ}
    (hstaged : s.state = .start ∨ s.state = .victory ∨ s.state = .defeat ∨ s.state = .escape)
    (hstate : t.state = s.state) (hqueue : t.queue = s.queue)
    (hitems : t.roster.items = s.roster.items) (hlog : t.log = s.log) : SpendsNoItem s t := by
  have haims {u : Scene σ} (h : u.state = s.state) : u.aimed? = none := by
    rw [aimed?_of_ne] <;> rcases hstaged with h' | h' | h' | h' <;> simp [h, h']
  have hne : s.state ≠ .battle := by rcases hstaged with h | h | h | h <;> simp [h]
  exact .elsewhere hne hstate hqueue hitems (.of_log hlog) ((haims hstate).trans (haims rfl).symm)

theorem processStart_spendsNoItem (s : Scene σ) (hstate : s.state = .start) :
    SpendsNoItem s s.processStart.2 := by
  unfold processStart
  split
  · refine staged_spendsNoItem (.inl hstate) ?_ ?_ ?_ ?_ <;>
      dsimp only [announceBattle, showNotification, goOn] <;> split <;> rfl
  · refine staged_spendsNoItem (.inl hstate) ?_ ?_ ?_ ?_ <;>
      dsimp only [announceFormation, showNotification, goOn] <;> (repeat' split) <;> rfl
  · have hturned : s.roster.Differs Battler.Posed s.endNotification.turnBattlers.roster :=
      .trans Battler.Posed.trans (turnEnemies_posed s.roster s.condition)
        (turnActorsFrom_posed _ _ _ _ _)
    exact staged_spendsNoItem (.inl hstate) rfl rfl
      (Roster.items_eq_of_goods_eq hturned.goods_eq) rfl
  · have hchecked := s.checkEvents_spendsNoItem .all none
    split
    · rename_i t ht
      rw [ht] at hchecked
      exact hchecked.trans (t.setState_closed rfl)
    · rename_i t ht
      rw [ht] at hchecked
      exact hchecked

theorem poseParty_items (s : Scene σ) (pose : Battler → Pose) :
    (s.poseParty pose).roster.items = s.roster.items := by
  apply Roster.foldl_kept (·.items)
  intro _ _
  rfl

theorem processDefeat_spendsNoItem (s : Scene σ) (hstate : s.state = .defeat) :
    SpendsNoItem s s.processDefeat.2 := by
  unfold processDefeat
  split
  · exact staged_spendsNoItem (.inr (.inr (.inl hstate))) rfl rfl rfl rfl
  · exact staged_spendsNoItem (.inr (.inr (.inl hstate))) rfl rfl rfl rfl
  · exact s.endBattle_spendsNoItem .defeat

theorem attemptEscape_kept (s : Scene σ) :
    s.attemptEscape.2.state = s.state ∧ s.attemptEscape.2.queue = s.queue ∧
    s.attemptEscape.2.roster = s.roster ∧ s.attemptEscape.2.log = s.log := by
  unfold attemptEscape tryEscape
  dsimp only
  repeat' split
  all_goals exact ⟨rfl, rfl, rfl, rfl⟩

theorem processEscape_spendsNoItem (s : Scene σ) (hstate : s.state = .escape) :
    SpendsNoItem s s.processEscape.2 := by
  obtain ⟨htstate, htqueue, htroster, htlog⟩ := s.attemptEscape_kept
  have hended : SpendsNoItem s s.endNotification := .of_course rfl rfl (.of_log rfl) rfl
  unfold processEscape
  split
  · dsimp only
    split
    · rename_i t ht
      rw [ht] at htstate htqueue htroster htlog
      refine staged_spendsNoItem (.inr (.inr (.inr hstate))) htstate htqueue ?_ htlog
      exact (poseParty_items (t.playSystem .escape) _).trans (congrArg Roster.items htroster)
    · rename_i t ht
      rw [ht] at htstate htqueue htroster htlog
      refine staged_spendsNoItem (.inr (.inr (.inr hstate))) ?_ ?_ ?_ ?_ <;>
        dsimp only [showNotification, goOn] <;> split
      · exact htstate
      · exact htstate
      · exact htqueue
      · exact htqueue
      · exact congrArg Roster.items htroster
      · exact congrArg Roster.items htroster
      · exact htlog
      · exact htlog
  · exact hended.trans (setState_closed _ rfl)
  · exact hended.trans (endBattle_spendsNoItem _ .escape)

/-- In the queue no action has come through a pass, and no pass counts less than nothing. -/
structure Counted (s : Scene σ) : Prop where
  queue : ∀ a ∈ s.queue, a.repeatsDone = 0
  pending : ∀ a, s.pending = some a → 0 ≤ a.repeatsDone

theorem Step.counted {s t : Scene σ} (h : Step s t) (hs : Counted s) : Counted t := by
  have hstages := h.stages
  refine ⟨fun a ha => ?_, fun a ha => ?_⟩
  · rcases hstages.queue a ha with hqueued | hfresh
    · exact hs.queue a hqueued
    · exact hfresh.repeatsDone
  · obtain ⟨b, hb, hcontinues⟩ := hstages.pending a ha
    exact Int.le_trans (hs.pending b hb) hcontinues.repeatsDone

theorem Take.counted {s t : Scene σ} (h : Take s t) (hs : Counted s) : Counted t := by
  cases h with
  | mk a a' rest _ _ hqueue _ hsame =>
    have hqueued : ∀ b ∈ a :: rest, b.repeatsDone = 0 := by
      rw [← hqueue]
      exact hs.queue
    refine ⟨fun b hb => hqueued b (List.mem_cons_of_mem a hb), fun b hb => ?_⟩
    obtain rfl := Option.some.inj hb
    rcases hsame with rfl | hfresh
    · exact Int.le_of_eq (hqueued a' List.mem_cons_self).symm
    · exact Int.le_of_eq hfresh.repeatsDone.symm

theorem Path.counted {s t : Scene σ} {lost : List BattlerId} (h : Path Step s lost t)
    (hs : Counted s) : Counted t := by
  induction h with
  | refl => exact hs
  | step _ hstep ih => exact hstep.counted ih
  | take _ htake ih => exact htake.counted ih

/-- The victory is rewarded. -/
structure Rewards (s t : Scene σ) : Prop where
  due : s.state = .victory ∧ s.substate = 1
  items : t.roster.items = (s.roster.grant s.reward).items
  logs : Logs (·.use? = none) s t

theorem Rewards.itemCount_eq {s t : Scene σ} (h : Rewards s t) (hs : s.Stocked) (id : Int) :
    t.roster.itemCount id = min 99 (s.roster.itemCount id + s.dropReward.count id) :=
  (congrArg (·.getD id 0) h.items).trans (s.roster.grant_itemCount s.reward id (hs.bounds id))

/-- Who owed something owes it still, and a stack that grows holds no less. -/
theorem Rewards.stocked {s t : Scene σ} (h : Rewards s t) (hstate : t.state = s.state)
    (hqueue : t.queue = s.queue) (hs : s.Stocked) : t.Stocked := by
  have hwon : t.state = .victory := hstate.trans h.due.1
  have hcount := h.itemCount_eq hs
  have howed : t.owed = s.owed := by
    unfold owed
    rw [unstarted_of_state (by simp [hwon]), unstarted_of_state (by simp [h.due.1]), hqueue]
  refine ⟨fun id => ?_, howed ▸ hs.single, fun id hid => ?_, fun hbrowses => ?_, fun id haims => ?_,
    fun hresolving => ?_⟩
  · have hbounds := hs.bounds id
    have hgrown := hcount id
    omega
  · have hstock := hs.covered id (howed ▸ hid)
    have hgrown := hcount id
    omega
  · simp [browses, hwon, SceneState.isActorMenu] at hbrowses
  · rw [aimed?_of_ne (by simp [hwon]) (by simp [hwon])] at haims
    contradiction
  · exact absurd (hwon.symm.trans hresolving.state) (by simp)

theorem processVictory_cases (s : Scene σ) (hs : s.Stocked) (hstate : s.state = .victory) :
    SpendsNoItem s s.processVictory.2 ∨
      Rewards s s.processVictory.2 ∧ s.processVictory.2.Stocked := by
  have hstaged : s.state = .start ∨ s.state = .victory ∨ s.state = .defeat ∨ s.state = .escape :=
    .inr (.inl hstate)
  unfold processVictory
  split
  · exact .inl (staged_spendsNoItem hstaged rfl rfl (s.poseParty_items _) rfl)
  · rename_i hsub
    obtain ⟨message, hshown⟩ := showMessages_eq s.rewardPages s.game
    right
    have hrewards : Rewards s
        ((s.modifyGame fun g => s.rewardPages.foldl (·.showMessage ·) g).grantRewards.setSubstate
          2) := by
      have hsame : (s.modifyGame fun g => s.rewardPages.foldl (·.showMessage ·) g) =
          s.modifyGame fun _ => { s.game with message := message } := by
        rw [← hshown]
        rfl
      rw [hsame]
      exact ⟨⟨hstate, hsub⟩, rfl, .of_log rfl⟩
    exact ⟨hrewards, hrewards.stocked rfl rfl hs⟩
  · exact .inl (s.endBattle_spendsNoItem .victory)

theorem checkWait_spendsNoItem (s : Scene σ) (input : InputState) :
    SpendsNoItem s (s.checkWait input).2 := by
  unfold checkWait
  split
  · exact .refl s
  · split
    · exact .refl s
    · dsimp only
      split <;> exact .of_course rfl rfl (.of_log rfl) rfl

variable [AssetLoader σ]

/-- Taking up an action starts no pass yet. -/
theorem processBattle_serves {s : Scene σ} (hs : s.Stocked) (hrouted : Routed s)
    (hcounted : Counted s) (hstate : s.state = .battle) (hopen : s.result = none) :
    s.processBattle.2.Stocked ∧ Unspent s s.processBattle.2 ∨ Serves s s.processBattle.2 := by
  have goes : (if s.takeAction.substate = preEvents then s.takeAction.processPrepared
      else s.takeAction.goOn).2.Stocked ∧ Unspent s (if s.takeAction.substate = preEvents then
        s.takeAction.processPrepared else s.takeAction.goOn).2 := by
    obtain ⟨hstocked, hunspent, hprepared⟩ := takeAction_stocked hs hstate hcounted.queue
    split
    · rename_i hsub
      obtain ⟨hstage, hfirst⟩ := hprepared hsub
      have hserves := s.takeAction.processPrepared_serves (s.takeAction_state.trans hstate) hsub
        (s.takeAction_result.trans hopen) fun a ha => Int.le_of_eq (hfirst a ha).symm
      have hspends := hserves.spendsNoItem (by rw [hstage]; simp)
      exact ⟨hspends.stocked hstocked, hunspent.trans hspends.unspent⟩
    · exact ⟨hstocked, hunspent⟩
  unfold processBattle
  split
  · rename_i hsub
    exact .inr (s.processPrepared_serves hstate hsub hopen hcounted.pending)
  · rename_i hsub
    exact .inr (s.processAction_serves ⟨hstate, .inr hsub⟩ hopen hcounted.pending)
  · exact .inr (.saves s.afterAction_spendsNoItem)
  · rename_i hsub
    have hafter : s.stateAfterBattle ≠ .selectEnemyTarget ∧
        s.stateAfterBattle ≠ .selectAllyTarget := by
      unfold stateAfterBattle
      split
      · rcases hrouted.battle hstate with h | h | h <;> simp [h]
      · split <;> simp
    refine .inr (.saves (s.setState_spendsNoItem (fun _ => .inl ?_) fun id haims => ?_))
    · simp [browses, hstate, hsub]
    · rw [aimed?_of_ne hafter.1 hafter.2] at haims
      contradiction
  · exact .inl goes
  · exact .inl goes
  · exact .inr (.saves (.refl s))

/-- What becomes of the stock in a turn: nothing, or it is used up by a pass that starts, or there
is a reward. -/
inductive Consumes (s t : Scene σ) : Prop
  | unspent (h : Unspent s t)
  | launches {a : Action} {u : Scene σ} (h : SpendsNoItem s u) (h' : Launches a u t)
  | rewards (h : Rewards s t)

theorem processState_consumes {s : Scene σ} (input : InputState) (hs : s.Stocked)
    (hrouted : Routed s) (hcounted : Counted s) (hopen : s.result = none) :
    Consumes s (s.processState input).2 ∧ (s.processState input).2.Stocked := by
  have hdropped := s.dropGoneActor_spendsNoItem
  have hstocked := hdropped.stocked hs
  have hsame : s.dropGoneActor.state = .battle ∨ s.dropGoneActor.state = .victory →
      s.dropGoneActor = s := by
    unfold dropGoneActor
    split
    · exact fun _ => rfl
    · dsimp only
      split
      · rintro (h | h) <;> contradiction
      · exact fun _ => rfl
  unfold processState
  dsimp only
  generalize s.dropGoneActor = t at hdropped hstocked hsame ⊢
  have saved {u : Scene σ} (h : SpendsNoItem t u) : Consumes s u ∧ u.Stocked :=
    ⟨.unspent (hdropped.trans h).unspent, h.stocked hstocked⟩
  have spent {u : Scene σ} (h : u.Stocked ∧ Unspent t u) : Consumes s u ∧ u.Stocked :=
    ⟨.unspent (hdropped.unspent.trans h.2), h.1⟩
  split
  · rename_i h
    exact saved (t.processStart_spendsNoItem h)
  · rename_i h
    exact saved (t.processOption_spendsNoItem input h)
  · rename_i h
    exact saved (t.processActor_spendsNoItem input false (.inl h))
  · rename_i h
    exact saved (t.processActor_spendsNoItem input true (.inr h))
  · rename_i h
    exact saved (t.processCommand_spendsNoItem input h)
  · rename_i h
    exact spent (processItem_unspent hstocked input h)
  · rename_i h
    exact spent (processSkill_unspent hstocked input h)
  · rename_i h
    exact spent (processTarget_unspent hstocked input true (.inl h))
  · rename_i h
    exact spent (processTarget_unspent hstocked input false (.inr h))
  · rename_i h
    obtain rfl := hsame (.inl h)
    rcases processBattle_serves hs hrouted hcounted h hopen with hspent | hserves
    · exact spent hspent
    · generalize t.processBattle.2 = u at hserves
      cases hserves with
      | saves hspends => exact saved hspends
      | launches hspends _ hlaunches =>
        exact ⟨.launches hspends hlaunches, hlaunches.stocked (hspends.stocked hs)⟩
  · rename_i h
    obtain rfl := hsame (.inr h)
    rcases t.processVictory_cases hs h with hspends | ⟨hrewards, hrewarded⟩
    · exact saved hspends
    · exact ⟨.rewards hrewards, hrewarded⟩
  · rename_i h
    exact saved (t.processDefeat_spendsNoItem h)
  · rename_i h
    exact saved (t.processEscape_spendsNoItem h)

/-- The items that allies' actions use in the passes that start in a turn. -/
def usesAt (m : Moment σ) : List Int :=
  ((m.1.processState m.2).2.events.drop m.1.events.length).filterMap (·.use?)

/-- Those of them whose pass is the first one of its action. -/
def firstUsesAt (m : Moment σ) : List Int := if m.1.underway then [] else usesAt m

/-- The items for which the log tells of a pass. -/
def uses (s : Scene σ) : List Int := s.events.filterMap (·.use?)

/-- A use takes one of the item, which is there, if its pass is the first one, and nothing
otherwise. -/
structure PaysFor (id : Int) (m : Moment σ) : Prop where
  first : m.1.underway = false → 1 ≤ m.1.roster.itemCount id ∧
    ∀ other, (m.1.processState m.2).2.roster.itemCount other =
      m.1.roster.itemCount other - if other = id then 1 else 0
  later : m.1.underway = true →
    ∀ other, (m.1.processState m.2).2.roster.itemCount other = m.1.roster.itemCount other

theorem usesAt_eq {m : Moment σ} {es : List SceneEvent}
    (h : (m.1.processState m.2).2.events = m.1.events ++ es) :
    usesAt m = es.filterMap (·.use?) := by
  unfold usesAt
  rw [h, List.drop_left]

theorem usesAt_eq_nil {m : Moment σ} (h : Logs (·.use? = none) m.1 (m.1.processState m.2).2) :
    usesAt m = [] := by
  obtain ⟨es, hes, hnone⟩ := h
  rw [usesAt_eq hes, List.filterMap_eq_nil_iff]
  exact hnone

/-- A turn's uses are paid for, and nothing else is taken from the stock. -/
structure Balanced (m : Moment σ) : Prop where
  paid : ∀ id ∈ usesAt m, PaysFor id m
  balance : ∀ id, ((firstUsesAt m).count id : Int) + (m.1.processState m.2).2.roster.itemCount id ≤
    m.1.roster.itemCount id + ((payments m).flatMap (·.drops)).count id

/-- Nothing is to be paid where nothing is used, nor for a later pass. -/
theorem Balanced.of_kept {m : Moment σ}
    (hitems : (m.1.processState m.2).2.roster.items = m.1.roster.items)
    (huses : usesAt m = [] ∨ m.1.underway = true) : Balanced m := by
  have hcount := SpendsNoItem.itemCount_eq hitems
  have hfirst : firstUsesAt m = [] := by
    unfold firstUsesAt
    rcases huses with hnone | hlater
    · rw [hnone, ite_self]
    · rw [if_pos hlater]
  refine ⟨fun id hid => ⟨fun hidle => ?_, fun _ => hcount⟩, fun id => ?_⟩
  · rcases huses with hnone | hlater
    · exact absurd (hnone ▸ hid) List.not_mem_nil
    · simp [hidle] at hlater
  · rw [hfirst, hcount, List.count_nil]
    omega

theorem Balanced.of_rewards {m : Moment σ} (h : Rewards m.1 (m.1.processState m.2).2)
    (hs : m.1.Stocked) :
    Balanced m := by
  have hnone : usesAt m = [] := usesAt_eq_nil h.logs
  have hfirst : firstUsesAt m = [] := by
    unfold firstUsesAt
    rw [hnone, ite_self]
  have hpaid : payments m = [m.1.reward] := if_pos h.due
  refine ⟨fun id hid => absurd (hnone ▸ hid) List.not_mem_nil, fun id => ?_⟩
  rw [hfirst, h.itemCount_eq hs, hpaid, List.flatMap_singleton, List.count_nil,
    Int.natCast_zero, Int.zero_add]
  exact Int.min_le_right _ _

theorem Balanced.of_paid {m : Moment σ} {item : Int} (huses : usesAt m = [item])
    (hfirst : m.1.underway = false) (hstock : 1 ≤ m.1.roster.itemCount item)
    (hpaid : ∀ other, (m.1.processState m.2).2.roster.itemCount other =
      m.1.roster.itemCount other - if other = item then 1 else 0) :
    Balanced m := by
  refine ⟨fun id hid => ?_, fun id => ?_⟩
  · obtain rfl : id = item := List.mem_singleton.mp (huses ▸ hid)
    exact ⟨fun _ => ⟨hstock, hpaid⟩, fun hlater => by simp [hfirst] at hlater⟩
  · unfold firstUsesAt
    rw [if_neg (by simp [hfirst]), huses, hpaid, List.count_singleton]
    by_cases hid : id = item
    · rw [if_pos hid, if_pos (by rw [hid]; exact beq_self_eq_true item)]
      omega
    · rw [if_neg hid, if_neg (by simpa using Ne.symm hid)]
      omega

/-- A turn that comes to a pass uses what the action of the pass does. -/
theorem Launches.usesAt {m : Moment σ} {a : Action} {u : Scene σ} (hspends : SpendsNoItem m.1 u)
    (h : Launches a u (m.1.processState m.2).2) : Scene.usesAt m = a.item?.toList := by
  obtain ⟨es, hes, hnone⟩ := hspends.logs.useless
  obtain ⟨round, hevents⟩ := h.events
  rw [hes, List.append_assoc] at hevents
  rw [usesAt_eq hevents, List.filterMap_append, List.filterMap_eq_nil_iff.mpr hnone,
    List.nil_append]
  cases hitem : a.item? with
  | none => simp [Action.use?_actionStarted, hitem]
  | some id => simp [Action.use?_actionStarted, hitem]

theorem Consumes.balanced {m : Moment σ} (h : Consumes m.1 (m.1.processState m.2).2)
    (hs : m.1.Stocked) :
    Balanced m := by
  cases h with
  | unspent h => exact .of_kept h.items (.inl (usesAt_eq_nil h.logs))
  | rewards h => exact .of_rewards h hs
  | @launches a u hspends hlaunches =>
    have hstocked := hspends.stocked hs
    have hunderway : u.underway = m.1.underway := hspends.logs.underway_eq
    have hcount : ∀ id, u.roster.itemCount id = m.1.roster.itemCount id :=
      SpendsNoItem.itemCount_eq hspends.items
    have huses := hlaunches.usesAt hspends
    cases hitem : a.item? with
    | none =>
      rw [hitem] at huses
      exact .of_kept ((hlaunches.kept (.inl hitem) hstocked).trans hspends.items) (.inl huses)
    | some item =>
      rw [hitem] at huses
      cases hpass : m.1.underway with
      | true =>
        have hlater := hunderway.trans hpass
        exact .of_kept ((hlaunches.kept (.inr hlater) hstocked).trans hspends.items) (.inr hpass)
      | false =>
        obtain ⟨hstock, hpaid⟩ := hlaunches.paid hitem (hunderway.trans hpass) hstocked
        refine .of_paid huses hpass (hcount item ▸ hstock) fun other => ?_
        rw [hpaid, hcount]

end Turns

section Run

variable [AssetLoader σ]

/-- The scene with a stock of items. -/
def withItems (s : Scene σ) (stock : Table Int) : Scene σ :=
  s.modifyRoster ({ · with items := stock })

/-- What turns have done with a stock. -/
structure Audited (stock : Table Int) (turns : List (Moment σ)) (s : Scene σ) : Prop where
  routed : Routed s
  counted : Counted s
  stocked : s.Stocked
  uses : s.uses = turns.flatMap usesAt
  paid : ∀ m ∈ turns, ∀ id ∈ usesAt m, PaysFor id m
  total : ∀ id, ((turns.flatMap firstUsesAt).count id : Int) + s.roster.itemCount id ≤
    stock.getD id 0 + ((turns.flatMap payments).flatMap (·.drops)).count id

namespace Audited

variable {stock : Table Int} {turns : List (Moment σ)} {s t : Scene σ}

theorem of_spendsNoItem (hs : Audited stock turns s) (h : SpendsNoItem s t)
    (hpath : ∃ lost, Path Step s lost t) :
    Audited stock turns t := by
  obtain ⟨lost, hpath⟩ := hpath
  obtain ⟨es, hes, hnone⟩ := h.logs.useless
  refine ⟨hpath.routed (fun _ _ => Step.routed) hs.routed, hpath.counted hs.counted,
    h.stocked hs.stocked, ?_, hs.paid, fun id => ?_⟩
  · rw [← hs.uses]
    unfold Scene.uses
    rw [hes, List.filterMap_append, List.filterMap_eq_nil_iff.mpr hnone, List.append_nil]
  · rw [SpendsNoItem.itemCount_eq h.items]
    exact hs.total id

theorem turn (hs : Audited stock turns s) (input : InputState) (hopen : s.result = none) :
    Audited stock (turns ++ [(s, input)]) (s.processState input).2 := by
  have hpath := (s.processState_turned input hopen).path
  obtain ⟨hconsumes, hstocked⟩ := processState_consumes input hs.stocked hs.routed hs.counted hopen
  obtain ⟨hpaid, hbalance⟩ := Consumes.balanced (m := (s, input)) hconsumes hs.stocked
  refine ⟨hpath.routed (fun _ _ => Step.routed) hs.routed, hpath.counted hs.counted, hstocked, ?_,
    ?_, fun id => ?_⟩
  · obtain ⟨es, hes⟩ : ∃ es, (s.processState input).2.events = s.events ++ es := by
      obtain ⟨es, hes, -⟩ := (s.processState_turned input hopen).started hs.routed
      exact ⟨es, hes⟩
    rw [List.flatMap_append, List.flatMap_singleton, usesAt_eq (m := (s, input)) hes, ← hs.uses]
    unfold Scene.uses
    rw [hes, List.filterMap_append]
  · intro m hm
    rcases List.mem_append.mp hm with hm | hm
    · exact hs.paid m hm
    · rw [List.mem_singleton.mp hm]
      exact hpaid
  · have hbefore := hs.total id
    have hturn : ((firstUsesAt (s, input)).count id : Int) +
      (s.processState input).2.roster.itemCount id ≤
        s.roster.itemCount id + ((payments (s, input)).flatMap (·.drops)).count id := hbalance id
    rw [List.flatMap_append, List.flatMap_append, List.flatMap_singleton, List.flatMap_singleton,
      List.flatMap_append, List.count_append, List.count_append]
    omega

end Audited

theorem after_audited {stock : Table Int} {s : Scene σ} (hs : Audited stock [] s)
    (inputs : List InputState) :
    Audited stock (s.turnsIn inputs) (s.after inputs) := by
  refine after_history (P := fun _ turns t => Audited stock turns t) ?_ ?_ ?_ hs inputs
  · intro input frames turns t ht
    exact ht.of_spendsNoItem (t.prelude_spendsNoItem input) ⟨_, (t.prelude_interludes input).path⟩
  · intro input frames turns t ht
    exact ht.of_spendsNoItem (t.checkWait_spendsNoItem input)
      ⟨_, (t.checkWait_effects input).deeds.path.mono fun _ _ => .deed⟩
  · intro input frames turns t ht hopen
    exact ht.turn input hopen

theorem ofSetup_audited (config : BattleConfig) (database : Database) (setup : BattleSetup)
    (assets : σ) {stock : Table Int} (hstock : ∀ id, 0 ≤ stock.getD id 0 ∧ stock.getD id 0 ≤ 99) :
    Audited stock [] ((ofSetup config database setup assets).withItems stock) := by
  have howed : ((ofSetup config database setup assets).withItems stock).owed = [] := rfl
  refine ⟨(ofSetup_routed config database setup assets).of_course rfl rfl, ⟨?_, ?_⟩,
    ⟨hstock, ?_, ?_, fun _ => howed, ?_, ?_⟩, rfl, ?_, ?_⟩
  · exact fun a ha => absurd ha List.not_mem_nil
  · exact fun a ha =>
      absurd ha (by simp [withItems, ofSetup, modifyRoster, modifyGame, modifyWorld])
  · exact Nat.zero_le 1
  · exact fun id hid => absurd hid List.not_mem_nil
  · exact fun id haims => by cases haims
  · exact fun h => by cases h.state
  · exact fun m hm => absurd hm List.not_mem_nil
  · intro id
    simp [withItems, modifyRoster, modifyGame, modifyWorld, World.modifyGame, roster,
      Roster.itemCount, GameState.modifyRoster]

/-- Items are paid for. The first pass of an ally's item action takes one of its item from the
stock, which has it, and a later pass takes nothing. So there are no more first passes than there
were items and than victories brought. -/
theorem uses_paid {config : BattleConfig} {database : Database} {setup : BattleSetup} {assets : σ}
    {s : Scene σ} (h : create config database setup assets = .ok s) {stock : Table Int}
    (hstock : ∀ id, 0 ≤ stock.getD id 0 ∧ stock.getD id 0 ≤ 99) (inputs : List InputState) :
    ((s.withItems stock).after inputs).uses = ((s.withItems stock).turnsIn inputs).flatMap usesAt ∧
      (∀ m ∈ (s.withItems stock).turnsIn inputs, ∀ id ∈ usesAt m, PaysFor id m) ∧
      ∀ id, 0 ≤ ((s.withItems stock).after inputs).roster.itemCount id ∧
        ((((s.withItems stock).turnsIn inputs).flatMap firstUsesAt).count id : Int) +
            ((s.withItems stock).after inputs).roster.itemCount id ≤
          stock.getD id 0 + (((s.withItems stock).paymentsIn inputs).flatMap (·.drops)).count
            id := by
  obtain ⟨-, rfl⟩ := create_eq_ok h
  have haudited := after_audited (ofSetup_audited config database setup assets hstock) inputs
  exact ⟨haudited.uses, haudited.paid,
    fun id => ⟨(haudited.stocked.bounds id).1, haudited.total id⟩⟩

end Run

/-! ### The last item -/

namespace Larder

def config : BattleConfig where
  battleType := .traditional
  terms := { battleStart := "", specialCombat := "" }

def database : Database where
  actors := [{ id := 1, name := "A", commands := [1] }]
  enemies := [{ id := 1, name := "E" }]
  items := [{ id := 1, name := "I", scope := .user }]
  commands := [{ id := 1, name := "Item", kind := .item }]

/-- The actor has its gauge full at the start. -/
def setup : BattleSetup where
  party := [1]
  troop := { members := [{ enemyId := 1 }] }
  firstStrike := true

def stock : Table Int := ⟨[(1, 1)]⟩

def scene : Scene InstantAssets := ofSetup config database setup {}

/-- Everything is decided at once. -/
def inputs : List InputState :=
  List.replicate 13 { triggered := [.decision], pressed := [.decision] }

end Larder

set_option maxRecDepth 100000 in
theorem uses_paid_of_larder :
    create Larder.config Larder.database Larder.setup {} = .ok Larder.scene ∧
      (∀ id, 0 ≤ Larder.stock.getD id 0 ∧ Larder.stock.getD id 0 ≤ 99) ∧
      ((Larder.scene.withItems Larder.stock).after Larder.inputs).uses = [1] ∧
      ∃ m ∈ (Larder.scene.withItems Larder.stock).turnsIn Larder.inputs, m.1.underway = false ∧
        PaysFor 1 m := by
  have hcreated : create Larder.config Larder.database Larder.setup {} = .ok Larder.scene := rfl
  have hstock : ∀ id, 0 ≤ Larder.stock.getD id 0 ∧ Larder.stock.getD id 0 ≤ 99 := by
    intro id
    by_cases h : 1 = id
    · subst h
      decide
    · simp [Larder.stock, Table.getD, Table.get?, Table.lookup, h]
  have hused : ((Larder.scene.withItems Larder.stock).after Larder.inputs).uses = [1] := by
    decide +kernel
  have hfirst : ∃ m ∈ (Larder.scene.withItems Larder.stock).turnsIn Larder.inputs,
      m.1.underway = false ∧ 1 ∈ usesAt m := by decide +kernel
  obtain ⟨m, hm, hidle, hid⟩ := hfirst
  exact ⟨hcreated, hstock, hused, m,
    hm, hidle, (uses_paid hcreated hstock Larder.inputs).2.1 m hm 1 hid⟩

end ActiveBattle.Scene
