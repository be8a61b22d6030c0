import ActiveBattle.Proofs.Roster.Goods
import ActiveBattle.Proofs.Scene.Admission
import ActiveBattle.Proofs.Scene.History

/-!
# Actions that nobody chose in a window

Enemies choose their actions themselves, and so do party members that the player does not command or
leaves to themselves. Such actions are no matter of the windows: they are put into the queue
(`Scene.put`) and everything else stays as it is. The exception is the actor whose windows are open;
its own choice is taken for the player's and closes them (`unbidden_iff`).
-/

namespace ActiveBattle

set_option autoImplicit false

/-- The gauge of a battler that acts starts over, and an action of it waits. -/
def Battler.acting (b : Battler) : Battler := { b with gauge := 0, actionQueued := true }

/-- Battlers that act several times over are no different from those that act once. -/
theorem Roster.foldl_acting_battler? (r : Roster) (actions : List Action) (id : BattlerId) :
    (actions.foldl (fun r a => r.modify a.source (·.acting)) r).battler? id =
      if id ∈ actions.map (·.source) then (r.battler? id).map (·.acting) else r.battler? id := by
  induction actions generalizing r with
  | nil => rfl
  | cons a rest ih =>
    rw [List.foldl_cons, ih, r.battler?_modify a.source id (·.acting) fun _ => rfl, List.map_cons]
    by_cases ha : id = a.source
    · subst ha
      cases r.battler? a.source <;> simp [Battler.acting]
    · simp [ha]

namespace Scene

variable {σ : Type}

/-- The scene with more actions in the queue: their sources act, the log tells, and an ally among
them ends the first strike. -/
def put (s : Scene σ) (actions : List Action) (dice : Dice) : Scene σ :=
  { s.modifyGame fun g =>
      { g with
        dice := dice
        roster := actions.foldl (fun r a => r.modify a.source (·.acting)) g.roster } with
    queue := s.queue ++ actions
    firstStrike := s.firstStrike && actions.all (!·.source.isAlly)
    log := s.log ++ (actions.map fun a => ⟨s.frame, .actionQueued a.source a.kind⟩).toArray }

/-- A party member that the player leaves to itself or does not command. -/
def isLeftAlone (autoBattle : Bool) (s : Scene σ) (id : BattlerId) : Bool :=
  !(s.isControllable id && !autoBattle)

/-- Who acts on its own, were it asked now: enemies first, and each battler once. -/
def unbidden (s : Scene σ) : List BattlerId :=
  (s.roster.enemyIds.filter s.isIdleAndFull).eraseDups ++
    (s.roster.partyIds.filter fun id =>
      s.isIdleAndFull id && s.isLeftAlone (decide (s.state = .autoBattle)) id).eraseDups

theorem put_nil (s : Scene σ) : s.put [] s.game.dice = s := by
  simp [put, modifyGame, modifyWorld, World.modifyGame, game]

theorem put_put (s : Scene σ) (actions more : List Action) (dice dice' : Dice) :
    (s.put actions dice).put more dice' = s.put (actions ++ more) dice' := by
  simp [put, modifyGame, modifyWorld, World.modifyGame, List.foldl_append, List.append_assoc,
    Bool.and_assoc, Array.append_assoc]

section Put

variable (s : Scene σ) (actions : List Action) (dice : Dice) (id : BattlerId)

theorem put_battler? : (s.put actions dice).roster.battler? id =
    if id ∈ actions.map (·.source) then (s.roster.battler? id).map (·.acting)
      else s.roster.battler? id :=
  s.roster.foldl_acting_battler? actions id

/-- What a battler did last is not changed. -/
theorem put_found {b : Battler} (hb : s.roster.battler? id = some b) :
    ∃ b', (s.put actions dice).roster.battler? id = some b' ∧
      b'.lastBattleAction = b.lastBattleAction := by
  rw [put_battler?, hb]
  split
  · exact ⟨b.acting, rfl, rfl⟩
  · exact ⟨b, rfl, rfl⟩

/-- Who has acted does not act again. -/
theorem put_isIdleAndFull : (s.put actions dice).isIdleAndFull id =
    (s.isIdleAndFull id && !decide (id ∈ actions.map (·.source))) := by
  unfold isIdleAndFull
  rw [put_battler?]
  by_cases h : id ∈ actions.map (·.source)
  · rw [if_pos h, decide_eq_true h]
    cases s.roster.battler? id <;> simp [Battler.acting]
  · rw [if_neg h, decide_eq_false h, Bool.not_false, Bool.and_true]
    rfl

theorem put_isControllable : (s.put actions dice).isControllable id = s.isControllable id := by
  unfold isControllable
  rw [put_battler?]
  split
  · cases s.roster.battler? id <;> rfl
  · rfl

theorem put_isLeftAlone (autoBattle : Bool) :
    isLeftAlone autoBattle (s.put actions dice) id = isLeftAlone autoBattle s id := by
  unfold isLeftAlone
  rw [put_isControllable]

theorem put_partyIds : (s.put actions dice).roster.partyIds = s.roster.partyIds := by
  refine congrArg (·.map BattlerId.actor)
    (Roster.foldl_kept (·.party) _ (fun r (a : Action) => ?_) actions s.roster)
  cases a.source <;> rfl

theorem put_menuCommand (actor : Int) :
    (s.put actions dice).menuCommand actor = s.menuCommand actor := by
  have hcommands : Menus.actorCommands (s.put actions dice).roster
    (s.put actions dice).database actor = Menus.actorCommands s.roster s.database actor := by
    have hactor : (s.put actions dice).roster.actor? actor =
        if .actor actor ∈ actions.map (·.source) then (s.roster.actor? actor).map (·.acting)
        else s.roster.actor? actor := s.put_battler? actions dice (.actor actor)
    unfold Menus.actorCommands
    rw [hactor]
    cases s.roster.actor? actor <;> split_ifs <;> rfl
  unfold menuCommand
  dsimp only
  rw [hcommands]
  rfl

end Put

/-- The choice of a battler whose windows are not open is put into the queue. -/
theorem enqueueChoice_eq_put {s : Scene σ} (chooser : Chooser) {id : BattlerId}
    (hready : s.isIdleAndFull id = true)
    (hclosed : ∀ actor, s.activeActor = some actor → id ≠ .actor actor) :
    ∃ a dice, a.source = id ∧ s.enqueueChoice chooser id = s.put [a] dice := by
  obtain ⟨a, dice, hfresh, ⟨hmenu, -⟩ | ⟨hmenu, h⟩⟩ := enqueueChoice_of_ready chooser hready
  · exfalso
    cases id with
    | enemy i => simp [isFromMenu, hfresh.source] at hmenu
    | actor actor =>
      rw [s.isFromMenu_eq hfresh.source] at hmenu
      exact hclosed actor (of_decide_eq_true hmenu) rfl
  · refine ⟨a, dice, hfresh.source, ?_⟩
    have hmarking : (s.modifyGame ({ · with dice := dice })).marking a = (·.acting) := by
      unfold marking
      rw [show (s.modifyGame ({ · with dice := dice })).isFromMenu a = false from hmenu]
      rfl
    rw [h]
    unfold enlist
    rw [hmarking]
    simp [put, modifyGame, modifyWorld,
      World.modifyGame, modifyBattler, GameState.modifyBattler, note]

/-- The choice of the actor whose windows are open is taken for the player's, and closes them. -/
theorem enqueueChoice_eq_setState {s : Scene σ} (chooser : Chooser) {actor : Int}
    (hready : s.isIdleAndFull (.actor actor) = true) (hopen : s.activeActor = some actor) :
    ∃ a dice, a.source = .actor actor ∧
      s.enqueueChoice chooser (.actor actor) =
        ((s.put [] dice).enlist a).setState .selectActor := by
  obtain ⟨a, dice, hfresh, ⟨-, h⟩ | ⟨hmenu, -⟩⟩ := enqueueChoice_of_ready chooser hready
  · refine ⟨a, dice, hfresh.source, ?_⟩
    rw [h, show s.modifyGame ({ · with dice := dice }) = s.put [] dice from ?_]
    simp [put, modifyGame, modifyWorld, World.modifyGame]
  · rw [s.isFromMenu_eq hfresh.source] at hmenu
    exact absurd hopen (of_decide_eq_false hmenu)

section Choosing

variable (chooser : Scene σ → Chooser) (wanted : Scene σ → BattlerId → Bool)

/-- The battlers of a list choose one after the other, those that are ready and wanted. -/
def chooseAmong (s : Scene σ) (ids : List BattlerId) : Scene σ :=
  ids.foldl (fun s id => if s.isIdleAndFull id && wanted s id then
    s.enqueueChoice (chooser s) id else s) s

/-- Those of a list that choose. -/
def choosers (s : Scene σ) (ids : List BattlerId) : List BattlerId :=
  ids.filter fun id => s.isIdleAndFull id && wanted s id

variable {wanted}
variable (hwanted : ∀ s actions dice id, wanted (put s actions dice) id = wanted s id)
include hwanted

/-- Who has acted is no longer among those that choose. -/
theorem choosers_put (s : Scene σ) (actions : List Action) (dice : Dice) (ids : List BattlerId) :
    choosers wanted (s.put actions dice) ids =
      (choosers wanted s ids).filter fun id => !decide (id ∈ actions.map (·.source)) := by
  unfold choosers
  rw [List.filter_filter]
  refine List.filter_congr fun id _ => ?_
  rw [put_isIdleAndFull, hwanted]
  cases s.isIdleAndFull id <;> cases wanted s id <;>
    cases decide (id ∈ actions.map (·.source)) <;> rfl

theorem chooseAmong_eq_put {s : Scene σ} {ids : List BattlerId}
    (hclosed : ∀ actor, s.activeActor = some actor → .actor actor ∉ choosers wanted s ids) :
    ∃ actions dice, actions.map (·.source) = (choosers wanted s ids).eraseDups ∧
      chooseAmong chooser wanted s ids = s.put actions dice := by
  induction ids generalizing s with
  | nil => exact ⟨[], s.game.dice, rfl, s.put_nil.symm⟩
  | cons id rest ih =>
    by_cases hgoes : (s.isIdleAndFull id && wanted s id) = true
    · have hchoosers : choosers wanted s (id :: rest) = id :: choosers wanted s rest :=
        List.filter_cons_of_pos hgoes
      rw [hchoosers] at hclosed
      obtain ⟨a, dice, hsource, hput⟩ :=
        enqueueChoice_eq_put (chooser s) (Bool.and_eq_true_iff.mp hgoes).1
        fun actor hactor heq => hclosed actor hactor (List.mem_cons.mpr (.inl heq.symm))
      -- The rest choose as they would have before, but the battler that has acted does not choose
      -- again.
      have hleft := choosers_put hwanted s [a] dice rest
      have hothers : ∀ actor, (s.put [a] dice).activeActor = some actor →
          .actor actor ∉ choosers wanted (s.put [a] dice) rest := by
        intro actor hactor hmem
        rw [hleft] at hmem
        exact hclosed actor hactor (List.mem_cons_of_mem _ (List.mem_filter.mp hmem).1)
      obtain ⟨actions, dice', hsources, hchosen⟩ := ih hothers
      refine ⟨a :: actions, dice', ?_, ?_⟩
      · rw [hchoosers, List.eraseDups_cons, List.map_cons, hsource, hsources, hleft, hsource.symm]
        simp [BEq.beq]
      · unfold chooseAmong at hchosen ⊢
        rw [List.foldl_cons, if_pos hgoes, hput, hchosen, put_put]
        rfl
    · have hchoosers : choosers wanted s (id :: rest) = choosers wanted s rest :=
        List.filter_cons_of_neg hgoes
      rw [hchoosers] at hclosed ⊢
      obtain ⟨actions, dice, hsources, hchosen⟩ := ih hclosed
      refine ⟨actions, dice, hsources, ?_⟩
      unfold chooseAmong at hchosen ⊢
      rw [List.foldl_cons, if_neg hgoes, hchosen]

/-- The actor whose windows are open closes them with its choice; everybody else's is put into the
queue. -/
theorem chooseAmong_eq_of_open {s : Scene σ} {ids : List BattlerId} {actor : Int}
    (hopen : s.activeActor = some actor) (hmem : .actor actor ∈ choosers wanted s ids) :
    ∃ before a after dice dice', a.source = .actor actor ∧
      chooseAmong chooser wanted s ids =
        (((s.put before dice).enlist a).setState .selectActor).put after dice' := by
  obtain ⟨hin, hgoes⟩ := List.mem_filter.mp hmem
  obtain ⟨front, rest, rfl, hfirst⟩ := List.eq_append_cons_of_mem hin
  have hclosed : ∀ other, s.activeActor = some other → .actor other ∉ choosers wanted s front := by
    intro other hother hchooses
    obtain rfl := Option.some.inj (hopen.symm.trans hother)
    exact hfirst (List.mem_filter.mp hchooses).1
  obtain ⟨before, dice, hsources, hfront⟩ := chooseAmong_eq_put chooser hwanted hclosed
  have hfresh : BattlerId.actor actor ∉ before.map (·.source) := by
    rw [hsources, List.mem_eraseDups]
    exact fun hchooses => hfirst (List.mem_filter.mp hchooses).1
  have hgoes' : ((s.put before dice).isIdleAndFull (.actor actor) &&
      wanted (s.put before dice) (.actor actor)) = true := by
    rw [put_isIdleAndFull, hwanted, decide_eq_false hfresh, Bool.not_false, Bool.and_true]
    exact hgoes
  obtain ⟨a, dice', hsource, hchoice⟩ :=
    enqueueChoice_eq_setState (chooser (s.put before dice)) (Bool.and_eq_true_iff.mp hgoes').1 hopen
  rw [put_put, List.append_nil] at hchoice
  -- The actor has acted, so nobody among the rest has open windows.
  have hacted : (((s.put before dice').enlist a).setState .selectActor).isIdleAndFull
      (.actor actor) = false := by
    refine Bool.eq_false_iff.mpr fun hidle => ?_
    have hready : (s.put before dice').isIdleAndFull (.actor actor) = true :=
      (Bool.and_eq_true_iff.mp hgoes').1
    obtain ⟨b, hb, -⟩ := (Option.any_eq_true _ _).mp hready
    have hmarked : (((s.put before dice').enlist a).setState .selectActor).roster.isMarked
        (.actor actor) = true :=
      (enlist_isMarked (hsource ▸ hb) (.actor actor)).trans (by rw [hsource, if_pos rfl])
    rw [isMarked_of_isIdleAndFull hidle] at hmarked
    contradiction
  have hrest : ∀ other,
    (((s.put before dice').enlist a).setState .selectActor).activeActor = some other →
      .actor other ∉ choosers wanted
        (((s.put before dice').enlist a).setState .selectActor) rest := by
    intro other hother hchooses
    obtain rfl := Option.some.inj (hopen.symm.trans hother)
    have hready := (Bool.and_eq_true_iff.mp (List.mem_filter.mp hchooses).2).1
    rw [hacted] at hready
    contradiction
  obtain ⟨after, dice'', -, hafter⟩ := chooseAmong_eq_put chooser hwanted hrest
  refine ⟨before, a, after, dice', dice'', hsource, ?_⟩
  unfold chooseAmong at hfront hafter ⊢
  rw [List.foldl_append, hfront, List.foldl_cons, if_pos hgoes', hchoice, hafter]

end Choosing

theorem createEnemyActions_eq (s : Scene σ) :
    s.createEnemyActions = chooseAmong (·.enemyChooser) (fun _ _ => true) s s.roster.enemyIds := by
  unfold createEnemyActions chooseAmong
  simp only [Bool.and_true]

theorem createEnemyActions_eq_put (s : Scene σ) : ∃ actions dice,
    actions.map (·.source) = (s.roster.enemyIds.filter s.isIdleAndFull).eraseDups ∧
      s.createEnemyActions = s.put actions dice := by
  have hchoosers : choosers (fun _ _ => true) s s.roster.enemyIds =
      s.roster.enemyIds.filter s.isIdleAndFull := by
    unfold choosers
    simp only [Bool.and_true]
  rw [createEnemyActions_eq, ← hchoosers]
  -- Enemies have no windows.
  refine chooseAmong_eq_put (·.enemyChooser) (fun _ _ _ _ => rfl) fun actor _ hmem => ?_
  obtain ⟨index, -, heq⟩ := List.mem_map.mp (List.mem_filter.mp hmem).1
  contradiction

/-- The party members choose after the enemies, and those do that would have chosen before. -/
theorem createActions_eq_chooseAmong (s : Scene σ) : ∃ actions dice,
    actions.map (·.source) = (s.roster.enemyIds.filter s.isIdleAndFull).eraseDups ∧
      s.createEnemyActions.createAutoActions = chooseAmong (·.autoChooser)
        (isLeftAlone (decide (s.state = .autoBattle))) (s.put actions dice) s.roster.partyIds ∧
      choosers (isLeftAlone (decide (s.state = .autoBattle))) (s.put actions dice)
        s.roster.partyIds =
        s.roster.partyIds.filter fun id =>
          s.isIdleAndFull id && s.isLeftAlone (decide (s.state = .autoBattle)) id := by
  obtain ⟨actions, dice, hsources, henemies⟩ := s.createEnemyActions_eq_put
  refine ⟨actions, dice, hsources, ?_, ?_⟩
  · rw [henemies, ← s.put_partyIds actions dice]
    rfl
  · rw [choosers_put fun s actions dice id => s.put_isLeftAlone actions dice id _]
    refine List.filter_eq_self.mpr fun id hid => ?_
    obtain ⟨actor, -, rfl⟩ := List.mem_map.mp (List.mem_filter.mp hid).1
    rw [hsources, Bool.not_eq_true', decide_eq_false_iff_not, List.mem_eraseDups]
    intro hmem
    obtain ⟨index, -, heq⟩ := List.mem_map.mp (List.mem_filter.mp hmem).1
    contradiction

theorem mem_unbidden_actor {s : Scene σ} {actor : Int} : .actor actor ∈ s.unbidden ↔
    .actor actor ∈ s.roster.partyIds.filter fun id =>
      s.isIdleAndFull id && s.isLeftAlone (decide (s.state = .autoBattle)) id := by
  unfold unbidden
  rw [List.mem_append, List.mem_eraseDups, List.mem_eraseDups]
  refine ⟨fun h => h.resolve_left fun hmem => ?_, .inr⟩
  obtain ⟨index, -, heq⟩ := List.mem_map.mp (List.mem_filter.mp hmem).1
  contradiction

theorem createActions_eq_put {s : Scene σ}
    (hclosed : ∀ actor, s.activeActor = some actor → .actor actor ∉ s.unbidden) :
    ∃ actions dice, actions.map (·.source) = s.unbidden ∧
      s.createEnemyActions.createAutoActions = s.put actions dice := by
  obtain ⟨actions, dice, hsources, hcreated, hparty⟩ := s.createActions_eq_chooseAmong
  obtain ⟨more, dice', hmore, hchosen⟩ :=
    chooseAmong_eq_put (·.autoChooser) (s := s.put actions dice)
    (fun s actions dice id => s.put_isLeftAlone actions dice id _) fun actor hactor hmem =>
      hclosed actor hactor (mem_unbidden_actor.mpr (hparty ▸ hmem))
  refine ⟨actions ++ more, dice', ?_,
    hcreated.trans (hchosen.trans (s.put_put actions more dice dice'))⟩
  rw [List.map_append, hsources, hmore, hparty]
  rfl

theorem createActions_eq_of_open {s : Scene σ} {actor : Int} (hopen : s.activeActor = some actor)
    (hmem : .actor actor ∈ s.unbidden) : ∃ before a after dice dice', a.source = .actor actor ∧
      s.createEnemyActions.createAutoActions =
        (((s.put before dice).enlist a).setState .selectActor).put after dice' := by
  obtain ⟨actions, dice, -, hcreated, hparty⟩ := s.createActions_eq_chooseAmong
  have hchooses := mem_unbidden_actor.mp hmem
  rw [← hparty] at hchooses
  obtain ⟨before, a, after, dice', dice'', hsource, hchosen⟩ :=
    chooseAmong_eq_of_open (·.autoChooser)
    (fun s actions dice id => s.put_isLeftAlone actions dice id _) (s := s.put actions dice)
      hopen hchooses
  exact ⟨actions ++ before, a, after,
    dice', dice'', hsource, hcreated.trans (by rw [hchosen, put_put])⟩

/-- What is left of such a choice: it stands for the command that the cursor pointed at. -/
theorem closed_of_open {s : Scene σ} {before after : List Action} {a : Action} {dice dice' : Dice}
    {actor : Int} {b : Battler} (hopen : s.activeActor = some actor)
    (hsource : a.source = .actor actor) (hb : s.roster.actor? actor = some b) :
    ∃ b', ((((s.put before dice).enlist a).setState .selectActor).put after dice').roster.actor?
      actor = some b' ∧
      b'.lastBattleAction = s.menuCommand actor := by
  obtain ⟨c, hc, -⟩ := s.put_found before dice (.actor actor) hb
  have hmenu : (s.put before dice).isFromMenu a = true := by
    unfold isFromMenu
    rw [hsource]
    exact decide_eq_true hopen
  have hlisted : (((s.put before dice).enlist a).setState .selectActor).roster.battler?
    (.actor actor) = some ((s.put before dice).marking a c) := by
    rw [← hsource] at hc ⊢
    have hmodified := (s.put before dice).roster.battler?_modify a.source a.source
      ((s.put before dice).marking a) fun _ => rfl
    rw [if_pos rfl, hc] at hmodified
    exact hmodified
  obtain ⟨b', hb', hkept⟩ := put_found _ after dice' _ hlisted
  refine ⟨b', hb', hkept.trans ?_⟩
  unfold marking
  rw [hmenu, if_pos rfl, put_menuCommand,
    show (s.put before dice).activeActor = some actor from hopen, Option.getD_some]

/-- Closing windows is one line more in the log than putting actions into the queue. -/
theorem put_ne_of_open {s : Scene σ} {before after actions : List Action} {a : Action}
    {dice dice' dice'' : Dice} :
    (((s.put before dice).enlist a).setState .selectActor).put after dice' ≠
      s.put actions dice'' := by
  intro heq
  have hlog := congrArg (fun t : Scene σ => t.log.size) heq
  have hqueue := congrArg (fun t : Scene σ => t.queue.length) heq
  simp only [put, enlist, setState, note, modifyBattler, modifyGame, modifyWorld, Array.size_append,
    Array.size_push,
    List.size_toArray, List.length_map, List.length_append, List.length_singleton] at hlog hqueue
  omega

theorem endBattle_activeActor (s : Scene σ) (result : BattleResult) :
    (s.endBattle result).activeActor = s.activeActor := by
  unfold endBattle
  split <;> rfl

/-- Windows are opened only for actors that are ready. -/
theorem Step.activeActor_cases {s t : Scene σ} (h : Step s t) : t.activeActor = s.activeActor ∨
    t.activeActor = none ∨ ∃ actor, s.isReady actor = true ∧ t.activeActor = some actor := by
  cases h with
  | deed h =>
    cases h with
    | effect h => exact .inl (congrArg Course.activeActor h.course_eq)
    | command id hid _ => exact .inr (.inr ⟨id, hid, rfl⟩)
    | leave _ => exact .inr (.inl rfl)
    | order a _ _ _ _ => exact .inl (s.enqueue_pendingSource a).2
    | discard a rest _ _ _ _ => exact .inl (congrArg Course.activeActor (s.discard_course a.source))
    | pass _ _ h => cases h <;> exact .inl rfl
    | release a _ h =>
      rw [releasePending_eq h]
      dsimp only [modifyBattler, modifyGame, modifyWorld]
      split
      · exact .inr (.inl rfl)
      · exact .inl rfl
    | _ => exact .inl rfl
  | close h =>
    cases h with
    | decided h => cases h <;> exact .inl rfl
    | ended _ => exact .inl (endBattle_activeActor s _)
    | _ => exact .inl rfl
  | interlude h =>
    cases h with
    | background h => exact .inl (congrArg Course.activeActor h.course_eq)
    | decided h => cases h <;> exact .inl rfl
    | choose a _ _ _ => exact .inl (s.enqueue_pendingSource a).2
    | finish result _ => exact .inl (endBattle_activeActor s result)
    | _ => exact .inl rfl

/-- Windows are open only for actors under control. -/
def ControlledWindows (s : Scene σ) : Prop :=
  ∀ actor b, s.activeActor = some actor → s.roster.actor? actor = some b → b.controllable = true

theorem ControlledWindows.of_setting {s t : Scene σ} (hs : s.ControlledWindows) (h : Setting s t)
    (hactor : ∀ actor, t.activeActor = some actor → s.activeActor = some actor) :
    t.ControlledWindows := by
  intro actor b hopen hb
  obtain ⟨a, ha, hkept⟩ := h.controllable hb
  exact hkept.trans (hs actor a (hactor actor hopen) ha)

theorem Step.controlledWindows {s t : Scene σ} (h : Step s t) (hs : s.ControlledWindows) :
    t.ControlledWindows := by
  rcases h.activeActor_cases with hkept | hnone | ⟨id, hready, hopened⟩
  · exact hs.of_setting h.setting fun actor hopen => hkept ▸ hopen
  · intro actor b hopen
    rw [hnone] at hopen
    contradiction
  · intro actor b hopen hb
    obtain rfl := Option.some.inj (hopened.symm.trans hopen)
    obtain ⟨a, ha, hkept⟩ := h.setting.controllable hb
    have hcontrolled : s.isControllable (.actor id) = true := (Bool.and_eq_true_iff.mp hready).1
    rw [isControllable, show s.roster.battler? (.actor id) = some a from ha, Option.any_some]
      at hcontrolled
    exact hkept.trans (Bool.and_eq_true_iff.mp hcontrolled).1

theorem Path.controlledWindows {s t : Scene σ} {lost : List BattlerId} (h : Path Step s lost t)
    (hs : s.ControlledWindows) : t.ControlledWindows := by
  induction h with
  | refl => exact hs
  | step _ hstep ih => exact hstep.controlledWindows ih
  | take _ htake ih =>
    cases htake
    exact ih

/-- An actor with open windows chooses for itself under a state that restricts it, or when all are
left to themselves. -/
theorem restricted_of_mem_unbidden {s : Scene σ} (hs : s.ControlledWindows) {actor : Int}
    (hopen : s.activeActor = some actor) (hmem : .actor actor ∈ s.unbidden) :
    ∃ b, s.roster.actor? actor = some b ∧
      (b.restriction s.database ≠ .normal ∨ s.state = .autoBattle) := by
  obtain ⟨hidle, hleft⟩ :=
    Bool.and_eq_true_iff.mp (List.mem_filter.mp (mem_unbidden_actor.mp hmem)).2
  obtain ⟨b, hb, -⟩ := (Option.any_eq_true _ _).mp hidle
  refine ⟨b, hb, ?_⟩
  by_cases hrestricted : b.restriction s.database = .normal
  · right
    simpa [isLeftAlone, isControllable, hb, hs actor b hopen hb, hrestricted] using hleft
  · exact .inl hrestricted

/-- In every scene that a battle gets to, the actions that enemies and party members choose for
themselves are put into the queue, and nothing else happens, exactly when no actor with open windows
is among those that choose. Such an actor closes its windows, whatever the state, and its choice
stands for the command its cursor points at. It takes a state that restricts the actor, or windows
that stayed open when all were left to themselves. -/
theorem unbidden_iff {config : BattleConfig} {database : Database} {setup : BattleSetup}
    {assets : σ} {s u : Scene σ} (h : create config database setup assets = .ok s)
    (hu : Reaches s u) :
    ((∃ actions dice, actions.map (·.source) = u.unbidden ∧ u.createEnemyActions.createAutoActions =
      u.put actions dice) ↔
        ∀ actor, u.activeActor = some actor → .actor actor ∉ u.unbidden) ∧
      ∀ actor, u.activeActor = some actor → .actor actor ∈ u.unbidden →
        (u.createEnemyActions.createAutoActions.state = .selectActor ∧
          u.createEnemyActions.createAutoActions.previousState = u.state ∧
          u.createEnemyActions.createAutoActions.substate = 0 ∧
          ∃ b, u.createEnemyActions.createAutoActions.roster.actor? actor = some b ∧
            b.lastBattleAction = u.menuCommand actor) ∧
        ∃ b, u.roster.actor? actor = some b ∧
          (b.restriction u.database ≠ .normal ∨ u.state = .autoBattle) := by
  obtain ⟨-, rfl⟩ := create_eq_ok h
  obtain ⟨lost, hpath⟩ := hu
  have hcontrolledWindows : u.ControlledWindows :=
    hpath.controlledWindows fun actor b hopen => by cases hopen
  refine ⟨⟨?_, fun hclosed => createActions_eq_put hclosed⟩, ?_⟩
  · rintro ⟨actions, dice, -, hput⟩ actor hopen hmem
    obtain ⟨before, a, after, dice', dice'', -, hchosen⟩ := createActions_eq_of_open hopen hmem
    exact put_ne_of_open (hchosen.symm.trans hput)
  · intro actor hopen hmem
    obtain ⟨b, hb, hrestricted⟩ := restricted_of_mem_unbidden hcontrolledWindows hopen hmem
    obtain ⟨before, a, after, dice, dice', hsource, hchosen⟩ := createActions_eq_of_open hopen hmem
    rw [hchosen]
    exact ⟨⟨rfl, rfl, rfl, closed_of_open hopen hsource hb⟩, b, hb, hrestricted⟩

theorem unbidden_iff_second_frame :
    create Provocation.config Provocation.database Provocation.setup {} = .ok Provocation.scene ∧
      Reaches Provocation.scene (Provocation.scene.after [{}, {}]) ∧
      ((∃ actions dice, actions.map (·.source) = (Provocation.scene.after [{}, {}]).unbidden ∧
          (Provocation.scene.after [{}, {}]).createEnemyActions.createAutoActions =
            (Provocation.scene.after [{}, {}]).put actions dice) ↔
        ∀ actor, (Provocation.scene.after [{}, {}]).activeActor = some actor →
          .actor actor ∉ (Provocation.scene.after [{}, {}]).unbidden) :=
  have hcreated : create Provocation.config Provocation.database Provocation.setup {} =
      .ok Provocation.scene :=
    rfl
  have hreached := (Provocation.scene.reaches_history [{}, {}]).2.2
  ⟨hcreated, hreached, (unbidden_iff hcreated hreached).1⟩

-- The skill of the enemy has just provoked the actor, whose command window is open and will be
-- again after the enemy's turn. The actor's attack is taken for a command, and the enemy's turn
-- ends there and then.
set_option maxRecDepth 100000 in
theorem not_unbidden_of_provocation :
    create Provocation.config Provocation.database Provocation.setup {} = .ok Provocation.scene ∧
      (Provocation.scene.after (List.replicate 14 {})).state = .battle ∧
      (Provocation.scene.after (List.replicate 14 {})).substate = battleAction ∧
      (Provocation.scene.after (List.replicate 14 {})).createEnemyActions.createAutoActions.state =
        .selectActor ∧
      (Provocation.scene.after (List.replicate 14
        {})).createEnemyActions.createAutoActions.substate = 0 := by
  have hstates : (Provocation.scene.after (List.replicate 14 {})).state = .battle ∧
      (Provocation.scene.after (List.replicate 14 {})).substate = battleAction ∧
      (Provocation.scene.after (List.replicate 14 {})).createEnemyActions.createAutoActions.state =
        .selectActor ∧
      (Provocation.scene.after (List.replicate 14
        {})).createEnemyActions.createAutoActions.substate = 0 := by
    decide +kernel
  exact ⟨rfl, hstates⟩

end Scene

end ActiveBattle
