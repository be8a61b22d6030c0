import ActiveBattle.Proofs.Scene.Ordering

/-!
# Passes that use items

To resolve the pending action leaves the stock alone, but for a pass that starts: the first one of
an item action takes one of the item, which the party has since it was owed (`Launches.paid`). An
action is taken from the queue with what it owes (`takeAction_stocked`).
-/

namespace ActiveBattle.Scene

set_option autoImplicit false

variable {σ : Type}

section Holdings

/-- The stock and the log. -/
def holdings (s : Scene σ) : Table Int × Array LogEntry := (s.roster.items, s.log)

theorem modifyBattler_holdings (s : Scene σ) (id : BattlerId) (f : Battler → Battler) :
    (s.modifyBattler id f).holdings = s.holdings :=
  congrArg (·, s.log) (s.roster.modify_items id f)

theorem foldl_holdings {α : Type} (f : Scene σ → α → Scene σ)
    (hf : ∀ t a, (f t a).holdings = t.holdings) (l : List α) (s : Scene σ) :
    (l.foldl f s).holdings = s.holdings := by
  apply List.foldlRecOn (motive := fun t : Scene σ => t.holdings = s.holdings)
  · rfl
  · intro t ht a _
    exact (hf t a).trans ht

theorem beginAction_holdings (s : Scene σ) (a : Action) :
    (s.beginAction a).holdings = s.holdings := by
  have hworn (ids : List BattlerId) : (s.healStates ids).holdings = s.holdings :=
    foldl_holdings _ (fun t id => t.modifyBattler_holdings id _) ids s
  have hannounced (t : Scene σ) : (t.announce a).holdings = t.holdings := by
    dsimp only [announce, showNotification]
    split
    · rfl
    · split <;> rfl
  have hhurt (t : Scene σ) (ids : List BattlerId) :
      (t.applyConditions ids).holdings = t.holdings := by
    refine foldl_holdings _ (fun u id => ?_) ids t
    dsimp only
    split
    · rfl
    · split
      · exact u.modifyBattler_holdings id _
      · exact u.modifyBattler_holdings id _
  unfold beginAction
  dsimp only
  split
  · exact (hhurt _ _).trans ((hannounced _).trans (hworn _))
  · exact hworn _

theorem playAnimation_holdings (s : Scene σ) (a : Action) (targets : List BattlerId) :
    (s.playAnimation a targets).holdings = s.holdings := by
  dsimp only [playAnimation]
  split
  · rfl
  · split
    · rfl
    · split <;> rfl

theorem animateReflection_holdings (s : Scene σ) (a : Action) :
    (s.animateReflection a).holdings = s.holdings := by
  dsimp only [animateReflection]
  split <;> rfl

theorem finishAction_holdings (s : Scene σ) (a : Action) :
    (s.finishAction a).holdings = s.holdings := by
  unfold finishAction Action.setSwitches
  dsimp only [modifyGame, modifyWorld, World.modifyGame]
  split
  · split <;> rfl
  · rfl

theorem faceOpponent_holdings (s : Scene σ) (a : Action) :
    (s.faceOpponent a).holdings = s.holdings := by
  unfold faceOpponent
  split
  · split
    · exact s.modifyBattler_holdings _ _
    · rfl
  · rfl

theorem showWound_holdings (s : Scene σ) (target : BattlerId) (wasDead : Bool) :
    (s.showWound target wasDead).holdings = s.holdings := by
  cases target with
  | enemy index =>
    dsimp only [showWound]
    split <;> rfl
  | actor id => rfl

/-- To roll for an action and to apply it leaves the stock alone. -/
theorem applyGame_items (a : Action) (g : GameState) :
    ((a.execute g).1.apply (a.execute g).2).2.roster.items = g.roster.items := by
  rw [← (a.execute_rolled g).2.roster]
  rcases (a.execute g).1.apply_cases (a.execute g).2 with h | ⟨id, f, -, h⟩
  · rw [h]
  · rw [h]
    exact Roster.modify_items _ id f

variable [AssetLoader σ]

theorem fire_holdings (s : Scene σ) (kind : HookKind) (battler : BattlerId) (a b c d : Int) :
    (s.fire kind battler a b c d).holdings = s.holdings :=
  congrArg (·, s.log) (s.fire_ran kind battler a b c d).game.items

theorem showSuccess_holdings (s : Scene σ) (a : Action) (target : BattlerId)
    (sounds : List SoundEffect) :
    (s.showSuccess a target sounds).1.holdings = s.holdings := by
  have hflashed : (if a.isCriticalHit then s.modifyStatus (·.flashOnce criticalFlash)
      else s).holdings = s.holdings := by
    split <;> rfl
  unfold showSuccess
  dsimp only
  generalize (if a.isCriticalHit then s.modifyStatus (·.flashOnce criticalFlash) else s) =
    t at hflashed
  split
  · refine (fire_holdings _ _ _ _ _ _ _).trans ?_
    split <;> exact hflashed
  · exact hflashed

theorem applyToTarget_holdings (s : Scene σ) (a : Action) (target : BattlerId)
    (sounds : List SoundEffect) :
    (s.applyToTarget a target sounds).1.holdings = s.holdings := by
  have happlied : (s.modifyGame fun _ =>
      ((a.execute s.game).1.apply (a.execute s.game).2).2).holdings = s.holdings :=
    congrArg (·, s.log) (applyGame_items a s.game)
  unfold applyToTarget
  dsimp only
  generalize (a.execute s.game).1 = b at happlied ⊢
  generalize b.apply (a.execute s.game).2 = applied at happlied ⊢
  refine (foldl_holdings _ (fun t _ => t.fire_holdings _ _ _ _ _ _) _ _).trans ?_
  have hwounded : (if b.isSuccess && decide (b.affectedHp < 0) then
      (s.modifyGame fun _ => applied.2).showWound target ((s.roster.battler? target).any (·.isDead))
      else s.modifyGame fun _ => applied.2).holdings = s.holdings := by
    split
    · exact (showWound_holdings _ _ _).trans happlied
    · exact happlied
  split
  · exact (showSuccess_holdings _ _ _ _).trans hwounded
  · exact hwounded

theorem applyToTargets_holdings (s : Scene σ) (a : Action) (sounds : List SoundEffect)
    (left : Nat) :
    (s.applyToTargets a sounds left).1.holdings = s.holdings := by
  induction left generalizing s a sounds with
  | zero => rfl
  | succ left ih =>
    unfold applyToTargets
    split
    · rfl
    · rename_i target _
      have happlied := s.applyToTarget_holdings a target sounds
      dsimp only
      split
      · exact (ih _ _ _).trans happlied
      · exact happlied

theorem applyAction_holdings (s : Scene σ) (a : Action) :
    (s.applyAction a).1.holdings = s.holdings := by
  have hpassed (t : Scene σ) (b : Action) : (t.afterPass b).1.holdings = t.holdings := by
    unfold afterPass
    split
    · rfl
    · split <;> rfl
  unfold applyAction
  split
  · refine (hpassed _ _).trans ?_
    refine Eq.trans ?_ (s.applyToTargets_holdings a [] a.targets.length)
    exact foldl_holdings (fun t se => t.play se) (fun _ _ => rfl) _ _
  · rfl

/-- A pass that starts is noted, and pays for its action. -/
theorem startAction_holdings (s : Scene σ) (a : Action) :
    ∃ frame round, (s.startAction a).1.holdings =
    ((a.start s.game).2.roster.items,
      s.log.push ⟨frame, .actionStarted a.source a.kind round⟩) := by
  have hsame := a.start_samePass s.game
  have hkind : (a.start s.game).1.kind = a.kind :=
    ({ a with current := 0, outcome := {} }.aim_rolled s.game).2.1
  have noted (t : Scene σ) (e : SceneEvent) : ((t.note e).setActionState .animation).holdings =
      (t.holdings.1, t.holdings.2.push ⟨t.frame, e⟩) := rfl
  have posed (t : Scene σ) (b : Action) : (t.strikePose b).holdings = t.holdings :=
    t.modifyBattler_holdings _ _
  unfold startAction
  dsimp only
  generalize (a.start s.game).2 = g
  generalize (a.start s.game).1 = b at hsame hkind
  have haimed : (if a.isTargetingParty s.database then s.modifyGame fun _ => g
      else (s.modifyGame fun _ => g).faceOpponent b).holdings = (g.roster.items, s.log) := by
    split
    · rfl
    · exact faceOpponent_holdings _ b
  rw [noted, fire_holdings, posed, haimed, hsame.source, hkind]
  exact ⟨_, _, rfl⟩

end Holdings

section Battle

theorem aimed?_of_battle {s : Scene σ} (h : s.state = .battle) : s.aimed? = none :=
  aimed?_of_ne (by simp [h]) (by simp [h])

theorem underway_of_event {s t : Scene σ} {e : SceneEvent} {starts : Bool}
    (he : e.pass? = some starts) (h : t.events = s.events ++ [e]) : t.underway = starts := by
  unfold underway
  rw [h, List.filterMap_append, List.filterMap_cons_some he]
  simp

theorem unstarted_of_idle {s : Scene σ} (h : s.pending = none) : s.unstarted = [] := by
  unfold unstarted
  rw [h]
  exact ite_self _

theorem schedulePage_spendsNoItem (s : Scene σ) (trigger : EventTrigger)
    (source : Option BattlerId) :
    SpendsNoItem s (s.schedulePage trigger source) := by
  have hlogs : Logs (·.pass? = none) s (s.schedulePage trigger source) :=
    schedulePage_logs (fun _ _ => rfl) s trigger source
  unfold schedulePage at hlogs ⊢
  dsimp only at hlogs ⊢
  split at hlogs
  · rename_i h
    rw [if_pos h]
    exact .of_course rfl rfl hlogs rfl
  · rename_i h
    rw [if_neg h]
    exact .of_course rfl rfl hlogs rfl

theorem checkEvents_spendsNoItem (s : Scene σ) (trigger : EventTrigger)
    (source : Option BattlerId) :
    SpendsNoItem s (s.checkEvents trigger source).2 := by
  have hended := s.checkBattleEnd_spendsNoItem
  unfold checkEvents
  split
  · exact .refl s
  · split
    · exact .refl s
    · split
      · rename_i t ht
        rw [ht] at hended
        exact hended
      · rename_i t ht
        obtain rfl := checkBattleEnd_of_false ht
        exact schedulePage_spendsNoItem _ trigger source

/-- A step away from the pending action. -/
theorem leave_spendsNoItem (s : Scene σ) {n : Nat} (hn : n = preAction ∨ n = postEvents) :
    SpendsNoItem s (s.setSubstate n) := by
  have haway : ¬(s.setSubstate n).Resolving := by
    rintro ⟨-, h⟩
    rcases hn with rfl | rfl <;>
      simp [setSubstate, preAction, preEvents, battleAction, postEvents] at h
  refine ⟨rfl, .of_log rfl, ?_, fun h => .inl ?_, fun id h => .inl h, fun h => absurd h haway⟩
  · unfold owed
    rw [unstarted_of_not fun h => haway ((atStart_iff _).mp h).1]
    exact (List.sublist_append_right _ _).filterMap _
  · unfold browses at h ⊢
    rcases hn with rfl | rfl <;>
      simpa [setSubstate, preAction, postEvents, afterBattle] using Or.inl h

theorem releasePending_spendsNoItem (s : Scene σ) : SpendsNoItem s s.releasePending := by
  cases hpending : s.pending with
  | none =>
    have hkept : s.releasePending = s := by simp only [releasePending, hpending]
    rw [hkept]
    exact .refl s
  | some a =>
    have hunstarted : s.releasePending.unstarted = [] := by
      rw [releasePending_eq hpending]
      exact unstarted_of_idle rfl
    have howed : s.releasePending.owed.Sublist s.owed := by
      unfold owed
      rw [hunstarted, releasePending_eq hpending]
      exact (List.sublist_append_right _ _).filterMap _
    rw [releasePending_eq hpending] at howed ⊢
    refine ⟨s.roster.modify_items a.source _, .of_log rfl, howed, .inl, fun _ => .inl, fun h => ?_⟩
    exact ⟨⟨h.state, h.substate⟩,
      fun b hb => absurd hb (by simp [modifyBattler, modifyGame, modifyWorld])⟩

theorem enemyActionDone_spendsNoItem (s : Scene σ) : SpendsNoItem s s.enemyActionDone.2 := by
  unfold enemyActionDone
  split
  · exact .refl s
  · split
    · exact .refl s
    · exact s.checkEvents_spendsNoItem _ _

theorem afterAction_spendsNoItem (s : Scene σ) : SpendsNoItem s s.afterAction.2 := by
  have hdone := s.enemyActionDone_spendsNoItem
  unfold afterAction
  split
  · rename_i t ht
    rw [ht] at hdone
    exact hdone
  · rename_i t ht
    rw [ht] at hdone
    have hended := (hdone.trans t.releasePending_spendsNoItem).trans (checkBattleEnd_spendsNoItem _)
    split
    · rename_i u hu
      rw [hu] at hended
      exact hended
    · rename_i u hu
      rw [hu] at hended
      exact hended.trans (u.leave_spendsNoItem (.inl rfl))

/-- What comes before an action leads up to it or ends the turn, and leaves it alone. -/
def Progress.Precedes (s : Scene σ) : Progress σ → Prop
  | .stop _ t => SpendsNoItem s t
  | .next t => SpendsNoItem s t ∧ t.course = { s.course with substate := battleAction }

theorem beforeAction_precedes (s : Scene σ) (hstate : s.state = .battle)
    (hsub : s.substate = preEvents) :
    s.beforeAction.Precedes s := by
  unfold beforeAction
  split
  · exact s.leave_spendsNoItem (.inl rfl)
  · rename_i a _
    have hannounced : SpendsNoItem s (s.announceActor a) := .of_course rfl rfl (.of_log rfl) rfl
    have hchecked := hannounced.trans (checkEvents_spendsNoItem _ .beforeAction (some a.source))
    split
    · rename_i t ht
      rw [ht] at hchecked
      have hcourse : t.course = s.course := (checkEvents_effects ht).course_eq
      have hresolving : t.Resolving := by
        refine ⟨(congrArg Course.state hcourse).trans hstate,
          .inl ((congrArg Course.substate hcourse).trans hsub)⟩
      have hengaged : (t.setSubstate battleAction).Resolving := ⟨hresolving.state, .inr rfl⟩
      have hunstarted : (t.setSubstate battleAction).unstarted = t.unstarted := by
        refine unstarted_congr ?_ rfl
        rw [atStart_iff, atStart_iff]
        exact and_congr_left fun _ => ⟨fun _ => hresolving, fun _ => hengaged⟩
      have howed : (t.setSubstate battleAction).owed = t.owed := by
        unfold owed
        rw [hunstarted]
        rfl
      refine ⟨hchecked.trans ⟨rfl, .of_log rfl, howed ▸ .refl _, fun h => .inl ?_, fun id => .inl,
        fun _ => ?_⟩, ?_⟩
      · have hmenu : t.state.isActorMenu = true := by
          simpa [browses, setSubstate, battleAction, afterBattle] using h
        simp [browses, hmenu]
      · exact ⟨hresolving, fun b hb => ⟨b, hb, by rw [hunstarted]⟩⟩
      · exact congrArg (fun c : Course => { c with substate := battleAction }) hcourse
    · rename_i t ht
      rw [ht] at hchecked
      exact hchecked

/-- The pending action starts a pass. -/
structure Launches (a : Action) (s t : Scene σ) : Prop where
  resolving : s.Resolving
  stage : s.actionState = .startAlgo
  pending : s.pending = some a
  items : t.roster.items = (a.start s.game).2.roster.items
  events : ∃ round, t.events = s.events ++ [.actionStarted a.source a.kind round]
  course : t.course = { s.course with pending := t.pending, actionState := .animation }

namespace Launches

variable {a : Action} {s t : Scene σ}

theorem atStart (h : Launches a s t) : s.AtStart := (atStart_iff s).mpr ⟨h.resolving, .inr h.stage⟩

/-- A pass is the first one of its action if none has started since the action was taken up. -/
theorem underway_iff (h : Launches a s t) (hs : s.Stocked) :
    s.underway = false ↔ a.repeatsDone = 0 := by
  rw [hs.resolving h.resolving a h.pending, mem_unstarted]
  exact ⟨fun h' => h'.2.2, fun h' => ⟨h.atStart, h.pending, h'⟩⟩

theorem unstarted_eq (h : Launches a s t) :
    s.unstarted = if a.repeatsDone = 0 then [a] else [] := by
  unfold unstarted
  rw [if_pos h.atStart, h.pending]
  split
  · rename_i h
    simp [h]
  · rename_i h
    simp [h]

theorem kept (h : Launches a s t) (hnone : a.item? = none ∨ s.underway = true) (hs : s.Stocked) :
    t.roster.items = s.roster.items := by
  rw [h.items, Action.start_items]
  rcases hnone with hnone | hlater
  · rw [hnone]
    rfl
  · have hdone : a.repeatsDone ≠ 0 := fun hfirst => by
      simp [(h.underway_iff hs).mpr hfirst] at hlater
    cases a.item? with
    | none => rfl
    | some id => exact if_neg hdone

/-- The first pass takes one of its item, which is there. -/
theorem paid (h : Launches a s t) {id : Int} (hid : a.item? = some id) (hfirst : s.underway = false)
    (hs : s.Stocked) :
    1 ≤ s.roster.itemCount id ∧
      ∀ other, t.roster.itemCount other =
        s.roster.itemCount other - if other = id then 1 else 0 := by
  have hdone := (h.underway_iff hs).mp hfirst
  have howed : id ∈ s.owed := by
    unfold owed
    rw [h.unstarted_eq, if_pos hdone, List.singleton_append, List.filterMap_cons_some hid]
    exact List.mem_cons_self
  have hstock := hs.covered id howed
  refine ⟨hstock, fun other => ?_⟩
  have hcount : t.roster.itemCount other = (s.roster.addItem id (-1)).itemCount other := by
    refine congrArg (·.getD other 0) (h.items.trans ?_)
    rw [Action.start_items, hid]
    exact if_pos hdone
  have hbounds := hs.bounds id
  rw [hcount, Roster.addItem_itemCount]
  split
  · rename_i h
    rw [h]
    unfold clamp
    omega
  · omega

/-- Nothing that is pending after the start of a pass is still to start one for the first time. -/
theorem unstarted_after (h : Launches a s t) : t.unstarted = [] := by
  refine unstarted_of_not fun hstart => ?_
  have hshown : t.actionState = .animation := congrArg Course.actionState h.course
  rcases hstart.stage with h' | h' <;> simp [hshown] at h'

/-- What was owed is owed still, except for what a first pass pays. -/
theorem owed_eq (h : Launches a s t) :
    s.owed = (if a.repeatsDone = 0 then [a] else []).filterMap (·.item?) ++ t.owed := by
  have hqueue : t.queue = s.queue := congrArg Course.queue h.course
  unfold owed
  rw [h.unstarted_eq, h.unstarted_after, hqueue, List.nil_append, List.filterMap_append]

theorem bounds (h : Launches a s t) (hs : s.Stocked) (id : Int) :
    0 ≤ t.roster.itemCount id ∧ t.roster.itemCount id ≤ 99 := by
  have hbounds := hs.bounds id
  by_cases hkept : a.item? = none ∨ s.underway = true
  · rwa [SpendsNoItem.itemCount_eq (h.kept hkept hs)]
  · obtain ⟨hitem, hfirst⟩ := not_or.mp hkept
    obtain ⟨item, hitem⟩ := Option.ne_none_iff_exists'.mp hitem
    obtain ⟨hstock, hcount⟩ := h.paid hitem (Bool.eq_false_iff.mpr hfirst) hs
    rw [hcount id]
    split
    · rename_i hid
      rw [hid] at hbounds ⊢
      omega
    · omega

/-- A first pass pays the only item that is owed, so nothing is owed after it. -/
theorem covered (h : Launches a s t) (hs : s.Stocked) {id : Int} (hid : id ∈ t.owed) :
    1 ≤ t.roster.itemCount id := by
  have howed := h.owed_eq
  by_cases hkept : a.item? = none ∨ s.underway = true
  · rw [SpendsNoItem.itemCount_eq (h.kept hkept hs)]
    exact hs.covered id (howed ▸ List.mem_append_right _ hid)
  · obtain ⟨hitem, hfirst⟩ := not_or.mp hkept
    obtain ⟨item, hitem⟩ := Option.ne_none_iff_exists'.mp hitem
    have hdone := (h.underway_iff hs).mp (Bool.eq_false_iff.mpr hfirst)
    rw [if_pos hdone, List.filterMap_cons_some hitem, List.filterMap_nil] at howed
    have hsingle := hs.single
    rw [howed, List.length_append, List.length_singleton] at hsingle
    have hlength := List.length_pos_of_mem hid
    omega

theorem stocked (h : Launches a s t) (hs : s.Stocked) : t.Stocked := by
  have hstate : t.state = .battle := (congrArg Course.state h.course).trans h.resolving.state
  have hsub : t.substate = s.substate := congrArg Course.substate h.course
  have hless : t.owed.length ≤ s.owed.length := by
    rw [h.owed_eq, List.length_append]
    exact Nat.le_add_left _ _
  refine ⟨h.bounds hs, Nat.le_trans hless hs.single, fun id => h.covered hs, fun hbrowses => ?_,
    fun id haims => ?_, fun _ b _ => ?_⟩
  · rcases h.resolving.substate with h' | h' <;>
      simp [Scene.browses, hstate, hsub, h', SceneState.isActorMenu, preEvents, battleAction,
        afterBattle] at hbrowses
  · rw [aimed?_of_battle hstate] at haims
    contradiction
  · obtain ⟨round, hevents⟩ := h.events
    rw [h.unstarted_after, underway_of_event rfl hevents]
    simp

end Launches

/-- The pending action goes on from one of its states to another one, and starts no pass. -/
structure ChangesStage (s t : Scene σ) (a : Action) : Prop where
  course : t.course = { s.course with actionState := t.actionState, comboRepeat := t.comboRepeat }
  holdings : t.holdings = s.holdings
  unstarted : ({ t with pending := some a } : Scene σ).unstarted = s.unstarted

theorem ChangesStage.spendsNoItem {s t : Scene σ} {a a' : Action} (h : ChangesStage s t a')
    (hpending : s.pending = some a) (hstate : s.state = .battle) :
    SpendsNoItem s { t with pending := some a' } := by
  have htstate : t.state = s.state := congrArg Course.state h.course
  have htsub : t.substate = s.substate := congrArg Course.substate h.course
  have howed : ({ t with pending := some a' } : Scene σ).owed = s.owed := by
    unfold owed
    rw [h.unstarted, show ({ t with pending := some a' } : Scene σ).queue = s.queue from
      congrArg Course.queue h.course]
  refine ⟨congrArg Prod.fst h.holdings, .of_log (congrArg Prod.snd h.holdings), howed ▸ .refl _,
    fun hbrowses => .inl ?_,
    fun id haims => ?_, fun hresolving =>
      ⟨⟨hstate, htsub ▸ hresolving.substate⟩, fun b hb => ⟨a, hpending, ?_⟩⟩⟩
  · unfold browses at hbrowses ⊢
    rwa [← htstate, ← htsub]
  · have hnone : ({ t with pending := some a' } : Scene σ).aimed? = none :=
      aimed?_of_battle (htstate.trans hstate)
    rw [hnone] at haims
    contradiction
  · obtain rfl := Option.some.inj hb
    rw [h.unstarted]
    constructor
    · intro ha'
      obtain rfl := Option.some.inj ((mem_unstarted.mp ha').2.1.symm.trans hpending)
      exact ha'
    · intro ha
      rw [← h.unstarted] at ha
      obtain rfl := Option.some.inj (mem_unstarted.mp ha).2.1
      exact h.unstarted ▸ ha

/-- An action that has come past its start, and does not come to the start of its first pass. -/
theorem ChangesStage.of_started {s t : Scene σ} {a' : Action} (hbefore : ¬s.AtStart)
    (hcourse : t.course =
      { s.course with actionState := t.actionState, comboRepeat := t.comboRepeat })
    (hholdings : t.holdings = s.holdings)
    (hafter : t.actionState = .begin ∨ t.actionState = .startAlgo → 0 < a'.repeatsDone) :
    ChangesStage s t a' := by
  refine ⟨hcourse, hholdings, ?_⟩
  rw [unstarted_of_not hbefore, List.eq_nil_iff_forall_not_mem]
  intro b hb
  obtain ⟨hstart, hpending, hfirst⟩ := mem_unstarted.mp hb
  obtain rfl := Option.some.inj hpending
  have hdone := hafter hstart.stage
  omega

/-- A turn that leaves the items alone, apart from the pass it may end with. -/
inductive Serves (s : Scene σ) : Scene σ → Prop
  | saves {t : Scene σ} (h : SpendsNoItem s t) : Serves s t
  | launches {u t : Scene σ} {a : Action} (h : SpendsNoItem s u)
    (hstage : s.actionState = .startAlgo) (h' : Launches a u t) : Serves s t

namespace Serves

variable {s t u : Scene σ}

theorem after (h : SpendsNoItem s t) (hstage : t.actionState = s.actionState) (h' : Serves t u) :
    Serves s u := by
  cases h' with
  | saves h' => exact .saves (h.trans h')
  | launches h' hstage' hlaunches => exact .launches (h.trans h') (hstage ▸ hstage') hlaunches

/-- A turn that begins before the start of an action's pass. -/
theorem spendsNoItem (h : Serves s t) (hstage : s.actionState ≠ .startAlgo) : SpendsNoItem s t := by
  cases h with
  | saves h => exact h
  | launches _ hstage' _ => exact absurd hstage' hstage

end Serves

variable [AssetLoader σ]

/-- A pass that is over counts, so the next one is not the first. -/
theorem applyAction_stage (s : Scene σ) (a : Action) (hstate : s.state = .battle)
    (hstage : s.actionState = .apply) (hdone : 0 ≤ a.repeatsDone) :
    (s.applyAction a).1.actionState = .finished ∨ 0 < (s.applyAction a).2.repeatsDone := by
  have counted (t : Scene σ) (b : Action) : (t.afterPass b).2.repeatsDone = b.repeatsDone + 1 := by
    have hnext := b.nextRepeat_eq.2.2.2
    unfold afterPass
    generalize b.nextRepeat = next at hnext
    obtain ⟨_ | _, c⟩ := next
    · dsimp only
      split <;> exact hnext
    · exact hnext
  unfold applyAction
  split
  · right
    have hsame := (s.applyToTargets_effects a [] a.targets.length hstate hstage).2.repeatsDone
    dsimp only
    rw [counted, hsame]
    omega
  · exact .inl rfl

theorem stepAction_cases (s : Scene σ) (a : Action) (hresolving : s.Resolving)
    (hpending : s.pending = some a) (hdone : 0 ≤ a.repeatsDone) :
    s.actionState = .startAlgo ∧ s.stepAction a = (.sameFrame, s.startAction a) ∨
      ChangesStage s (s.stepAction a).2.1 (s.stepAction a).2.2 := by
  have hstate := hresolving.state
  have hwaits : ChangesStage s s a :=
    ⟨rfl, rfl, unstarted_congr (atStart_congr rfl rfl rfl) hpending.symm⟩
  have started {stage : ActionState}
    (hstage : s.actionState = stage) (hne : stage ≠ .begin ∧ stage ≠ .startAlgo) :
      ¬s.AtStart := by
    intro hstart
    rcases hstart.stage with h | h
    · exact hne.1 (hstage ▸ h)
    · exact hne.2 (hstage ▸ h)
  unfold stepAction
  split
  · exact .inr hwaits
  · split
    · exact .inr hwaits
    · split
      · rename_i hstage
        refine .inr ⟨(s.beginAction_passing a hstate hstage).course_eq,
          s.beginAction_holdings a, ?_⟩
        have hcourse := (s.beginAction_passing a hstate hstage).course_eq
        refine unstarted_congr ?_ hpending.symm
        refine ⟨fun _ => ?_, fun _ => ?_⟩
        · exact (atStart_iff s).mpr ⟨hresolving, .inl hstage⟩
        · refine (atStart_iff _).mpr ⟨⟨?_, ?_⟩, .inr rfl⟩
          · exact (congrArg Course.state hcourse).trans hstate
          · rw [show (s.beginAction a).substate = s.substate from congrArg Course.substate hcourse]
            exact hresolving.substate
      · rename_i hstage
        exact .inl ⟨hstage, rfl⟩
      · rename_i hstage
        have hcourse := (s.animateAction_passing a hstage).1.course_eq
        refine .inr (.of_started (started hstage (by simp)) hcourse
          (s.playAnimation_holdings a a.targets) ?_)
        intro h
        dsimp only [animateAction, setActionState] at h
        split at h <;> simp at h
      · rename_i hstage
        have hcourse := (s.animateReflection_passing a hstage).course_eq
        refine .inr (.of_started (started hstage (by simp)) hcourse
          (s.animateReflection_holdings a) ?_)
        intro h
        simp [animateReflection, setActionState] at h
      · rename_i hstage
        have hcourse := (s.applyAction_passing a hstate hstage hpending).1.course_eq
        refine .inr (.of_started (started hstage (by simp)) hcourse (s.applyAction_holdings a) ?_)
        intro h
        rcases s.applyAction_stage a hstate hstage hdone with hfinished | hlater
        · simp [hfinished] at h
        · exact hlater
      · rename_i hstage
        have hcourse := (s.finishAction_passing a hstage).course_eq
        refine .inr (.of_started (started hstage (by simp)) hcourse (s.finishAction_holdings a) ?_)
        intro h
        have hkept : s.actionState = .begin ∨ s.actionState = .startAlgo := h
        simp [hstage] at hkept

theorem startAction_launches {s : Scene σ} {a : Action} (hresolving : s.Resolving)
    (hstage : s.actionState = .startAlgo) (hpending : s.pending = some a) :
    Launches a s { (s.startAction a).1 with pending := some (s.startAction a).2 } := by
  obtain ⟨frame, round, hholdings⟩ := s.startAction_holdings a
  obtain ⟨u, heffects, hstarted⟩ := s.startAction_effects a
  refine ⟨hresolving, hstage, hpending, congrArg Prod.fst hholdings, ⟨round, ?_⟩, ?_⟩
  · have hlog := congrArg Prod.snd hholdings
    unfold events
    rw [show ({ (s.startAction a).1 with pending := some (s.startAction a).2 } : Scene σ).log =
      _ from hlog]
    simp
  · rw [hstarted]
    exact congrArg (fun c : Course => { c with
      pending := some (a.start s.game).1
      actionState := .animation }) heffects.course_eq

theorem resolvePending_serves (s : Scene σ) (hresolving : s.Resolving) (hopen : s.result = none)
    (hdone : ∀ a, s.pending = some a → 0 ≤ a.repeatsDone) :
    SpendsNoItem s s.resolvePending.2 ∨ s.resolvePending.1 = .sameFrame ∧
      ∃ a, Launches a s s.resolvePending.2 := by
  have hquiet : SpendsNoItem s s.endNotification := .of_course rfl rfl (.of_log rfl) rfl
  unfold resolvePending
  dsimp only
  split
  · exact .inl hquiet
  · rename_i a hpending
    have hresolving' : s.endNotification.Resolving := ⟨hresolving.state, hresolving.substate⟩
    rcases s.endNotification.stepAction_cases a hresolving' hpending (hdone a hpending)
      with ⟨hstage, hstarts⟩ | hchanges
    · have hlaunches := startAction_launches hresolving' hstage hpending
      have hresult : (s.endNotification.startAction a).1.result = none :=
        (congrArg Course.result hlaunches.course).trans hopen
      rw [hstarts]
      dsimp only
      rw [if_pos (Option.isNone_iff_eq_none.mpr hresult)]
      exact .inr ⟨rfl, a, hresolving, hstage, hpending, hlaunches.items, hlaunches.events,
        hlaunches.course⟩
    · have hresult : (s.endNotification.stepAction a).2.1.result = none :=
        (congrArg Course.result hchanges.course).trans hopen
      rw [if_pos (Option.isNone_iff_eq_none.mpr hresult)]
      exact .inl (hquiet.trans (hchanges.spendsNoItem hpending hresolving.state))

theorem processAction_serves (s : Scene σ) (hresolving : s.Resolving) (hopen : s.result = none)
    (hdone : ∀ a, s.pending = some a → 0 ≤ a.repeatsDone) : Serves s s.processAction.2 := by
  have hresolved := s.resolvePending_serves hresolving hopen hdone
  unfold processAction duringAction
  generalize s.resolvePending = resolved at hresolved ⊢
  obtain ⟨pace, t⟩ := resolved
  rcases hresolved with hspends | ⟨rfl, a, hlaunches⟩
  · cases pace with
    | sameFrame => exact .saves hspends
    | nextFrame => exact .saves hspends
    | finished =>
      exact .saves ((hspends.trans (t.leave_spendsNoItem (.inr rfl))).trans
        (afterAction_spendsNoItem _))
  · exact .launches (.refl s) hlaunches.stage hlaunches

theorem processPrepared_serves (s : Scene σ) (hstate : s.state = .battle)
    (hsub : s.substate = preEvents) (hopen : s.result = none)
    (hdone : ∀ a, s.pending = some a → 0 ≤ a.repeatsDone) : Serves s s.processPrepared.2 := by
  have hbefore := s.beforeAction_precedes hstate hsub
  unfold processPrepared
  split
  · rename_i hstops
    rw [hstops] at hbefore
    exact .saves hbefore
  · rename_i t hgoes
    rw [hgoes] at hbefore
    obtain ⟨hspends, hcourse⟩ := hbefore
    have hpending : t.pending = s.pending := congrArg Course.pending hcourse
    refine .after hspends (congrArg Course.actionState hcourse) (t.processAction_serves ?_ ?_ ?_)
    · exact ⟨(congrArg Course.state hcourse).trans hstate, .inr (congrArg Course.substate hcourse)⟩
    · exact (congrArg Course.result hcourse).trans hopen
    · rw [hpending]
      exact hdone

end Battle

section Taking

theorem nextTurn_items (s : Scene σ) (id : BattlerId) :
    (s.nextTurn id).roster.items = s.roster.items :=
  s.roster.incTurns.modify_items id _

theorem discard_unspent (s : Scene σ) (source : BattlerId) : Unspent s (s.discard source) := by
  refine ⟨?_, discard_logs_of (fun _ _ => rfl) (fun _ => rfl) s source⟩
  unfold discard
  dsimp only
  split
  · exact ((s.nextTurn source).roster.modify_items source _).trans (s.nextTurn_items source)
  · exact s.roster.modify_items source _

theorem discardStale_unspent (s : Scene σ) (queue : List Action) :
    Unspent s (s.discardStale queue) ∧ (s.discardStale queue).queue <:+ queue := by
  induction queue generalizing s with
  | nil => exact ⟨⟨rfl, .of_log rfl⟩, List.suffix_refl _⟩
  | cons a rest ih =>
    unfold discardStale
    split
    · exact ⟨⟨rfl, .of_log rfl⟩, List.suffix_refl _⟩
    · obtain ⟨hunspent, hsuffix⟩ := ih (s.discard a.source)
      exact ⟨(s.discard_unspent a.source).trans hunspent, hsuffix.trans (List.suffix_cons a rest)⟩

/-- Whoever acts otherwise than ordered uses no item. -/
theorem prepare_item? (s : Scene σ) (a : Action) :
    (s.prepare a).1 = a ∨ (s.prepare a).1.item? = none := by
  unfold prepare
  split
  · exact .inl rfl
  · split
    · exact .inr rfl
    · split
      · split
        · rename_i h
          exact .inr (Action.restricted_item? a.source s.game h)
        · exact .inl rfl
      · split
        · rename_i h
          exact .inr (Action.restricted_item? a.source s.game h)
        · exact .inl rfl
      · exact .inl rfl

/-- Nothing is owed when the queue is exhausted. -/
theorem Stocked.exhausted {s t : Scene σ} (hs : s.Stocked)
    (hitems : t.roster.items = s.roster.items) (hstate : t.state = .battle)
    (hsub : t.substate = afterBattle) (hqueue : t.queue = []) : t.Stocked := by
  have haway : ¬t.Resolving := by
    rintro ⟨-, h | h⟩ <;> simp [hsub, afterBattle, preEvents, battleAction] at h
  have howed : t.owed = [] := by
    unfold owed
    rw [unstarted_of_not fun h => haway ((atStart_iff t).mp h).1, hqueue]
    rfl
  refine ⟨fun id => ?_, ?_, ?_, fun _ => howed, fun id haims => ?_, fun h => absurd h haway⟩
  · rw [SpendsNoItem.itemCount_eq hitems]
    exact hs.bounds id
  · rw [howed]
    exact Nat.zero_le 1
  · rw [howed]
    exact fun id hid => absurd hid List.not_mem_nil
  · rw [aimed?_of_battle hstate] at haims
    contradiction

/-- An action is taken up with what it owes. -/
theorem Stocked.taken {s t : Scene σ} {a : Action} (hs : s.Stocked)
    (hitems : t.roster.items = s.roster.items) (hstate : t.state = .battle)
    (hsub : t.substate = preEvents) (hstage : t.actionState = .begin)
    (hpending : t.pending = some a) (hfirst : a.repeatsDone = 0)
    (howes : ((a :: t.queue).filterMap (·.item?)).Sublist s.owed) (hidle : t.underway = false) :
    t.Stocked := by
  have hunstarted : t.unstarted = [a] := by
    unfold unstarted
    rw [if_pos ⟨hstate, .inl hsub, .inl hstage⟩, hpending]
    simp [hfirst]
  have howed : t.owed.Sublist s.owed := by
    unfold owed
    rw [hunstarted]
    exact howes
  refine ⟨fun id => ?_, Nat.le_trans howed.length_le hs.single, fun id hid => ?_,
    fun hbrowses => ?_, fun id haims => ?_, fun _ b hb => ?_⟩
  · rw [SpendsNoItem.itemCount_eq hitems]
    exact hs.bounds id
  · rw [SpendsNoItem.itemCount_eq hitems]
    exact hs.covered id (howed.subset hid)
  · simp [Scene.browses, hstate, hsub, SceneState.isActorMenu, preEvents, afterBattle] at hbrowses
  · rw [aimed?_of_battle hstate] at haims
    contradiction
  · obtain rfl := Option.some.inj (hpending.symm.trans hb)
    rw [hunstarted]
    exact ⟨fun _ => List.mem_singleton_self a, fun _ => hidle⟩

theorem takeAction_stocked {s : Scene σ} (hs : s.Stocked) (hstate : s.state = .battle)
    (hfirst : ∀ a ∈ s.queue, a.repeatsDone = 0) :
    s.takeAction.Stocked ∧ Unspent s s.takeAction ∧ (s.takeAction.substate = preEvents →
      s.takeAction.actionState = .begin ∧ ∀ a, s.takeAction.pending = some a →
        a.repeatsDone = 0) := by
  obtain ⟨hunspent, hsuffix⟩ := s.discardStale_unspent s.queue
  have hcourse := s.discardStale_course s.queue
  unfold takeAction
  generalize s.discardStale s.queue = t at hunspent hsuffix hcourse ⊢
  have htstate : t.state = .battle := (congrArg Course.state hcourse).trans hstate
  dsimp only
  cases hqueue : t.queue with
  | nil =>
    refine ⟨hs.exhausted hunspent.items htstate rfl hqueue,
      hunspent.trans ⟨rfl, .of_log rfl⟩, fun h => ?_⟩
    exact absurd (show afterBattle = preEvents from h) (by decide)
  | cons a rest =>
    obtain ⟨hsame, g, hrolled, hprepared⟩ := ({ t with queue := rest } : Scene σ).prepare_cases a
    have hitem := ({ t with queue := rest } : Scene σ).prepare_item? a
    have hroster : g.roster = t.roster := hrolled.roster
    dsimp only
    generalize ({ t with queue := rest } : Scene σ).prepare a = prepared at hsame hprepared hitem ⊢
    obtain ⟨a', u⟩ := prepared
    obtain rfl : u = _ := hprepared
    have hqueued : a ∈ s.queue := hsuffix.subset (by rw [hqueue]; exact List.mem_cons_self)
    have hfirst' : a'.repeatsDone = 0 := by
      rcases hsame with rfl | hfresh
      · exact hfirst a' hqueued
      · exact hfresh.repeatsDone
    have howes : ((a' :: rest).filterMap (·.item?)).Sublist s.owed := by
      have hbefore : ((a :: rest).filterMap (·.item?)).Sublist s.owed := by
        unfold owed
        exact ((hqueue ▸ hsuffix).sublist.trans (List.sublist_append_right _ _)).filterMap _
      rcases hitem with rfl | hnone
      · exact hbefore
      · rw [List.filterMap_cons_none hnone]
        exact ((List.sublist_cons_self a rest).filterMap _).trans hbefore
    have hitems : (((({ ({ t with queue := rest } : Scene σ).modifyGame fun _ => g with
        pending := some a', actionState := .begin } : Scene σ).setSubstate preEvents).nextTurn
          a'.source).roster.items) =
        s.roster.items := by
      refine (nextTurn_items _ _).trans ?_
      change g.roster.items = _
      rw [hroster]
      exact hunspent.items
    refine ⟨hs.taken hitems htstate rfl
      rfl rfl hfirst' howes (underway_of_event rfl (note_events _ _)), ⟨hitems, ?_⟩,
      fun _ => ⟨rfl, fun b hb => ?_⟩⟩
    · exact hunspent.logs.trans (.of_events rfl (note_events _ _))
    · obtain rfl := Option.some.inj hb
      exact hfirst'

end Taking

end ActiveBattle.Scene
