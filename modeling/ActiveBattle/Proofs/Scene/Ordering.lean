import ActiveBattle.Proofs.Scene.Provisions

/-!
# Items ordered in the windows

The windows of an actor open when nothing is owed, and an item is offered only if it is there. It
may wait for its target for as long as the player likes: whatever happens meanwhile, the party has
it still when the action is put into the queue.
-/

namespace ActiveBattle.Scene

set_option autoImplicit false

variable {σ : Type}

/-- Away from the battle sounds are played, cursors move, battlers turn and windows are gone on
with. -/
theorem browse_spendsNoItem {s t : Scene σ} (hstate : s.state ≠ .battle)
    (h : t =
      { s with world := t.world, ui := t.ui, substate := t.substate, activeActor := t.activeActor })
    (hitems : t.roster.items = s.roster.items) (haims : t.aimed? = s.aimed?) :
    SpendsNoItem s t := by
  refine .elsewhere hstate ?_ ?_ hitems (.of_log ?_) haims <;> rw [h]

theorem owed_of_idle {s : Scene σ} (hstate : s.state ≠ .battle) (hqueue : s.queue = []) :
    s.owed = [] := by
  unfold owed
  rw [unstarted_of_state hstate, hqueue]
  rfl

theorem dropGoneActor_spendsNoItem (s : Scene σ) : SpendsNoItem s s.dropGoneActor := by
  unfold dropGoneActor
  split
  · exact .refl s
  · dsimp only
    split
    · rename_i h
      have hmenu : s.state.isActorMenu = true := (Bool.and_eq_true_iff.mp h).2
      have hstate : s.state ≠ .battle :=
        fun hbattle => by simp [hbattle, SceneState.isActorMenu] at hmenu
      have hleft : SpendsNoItem s { s with activeActor := none } :=
        browse_spendsNoItem hstate rfl rfl rfl
      exact hleft.trans (setState_closed _ rfl)
    · exact .refl s

theorem processOption_spendsNoItem (s : Scene σ) (input : InputState)
    (hstate : s.state = .selectOption) :
    SpendsNoItem s (s.processOption input).2 := by
  have hne : s.state ≠ .battle := by simp [hstate]
  unfold processOption
  split
  · split
    · exact s.setState_closed rfl
    · dsimp only
      split
      · exact browse_spendsNoItem hne rfl rfl rfl
      · exact browse_spendsNoItem hne rfl rfl rfl
  · split
    · split
      · exact (browse_spendsNoItem (t := (s.playSystem .decision).modifyUi (·.moveWindows)) hne rfl
          rfl rfl).trans (setState_closed _ rfl)
      · have hmoved : SpendsNoItem s ((s.modifyUi (·.moveWindows)).setState .autoBattle) :=
          (browse_spendsNoItem (t := s.modifyUi (·.moveWindows)) hne rfl rfl rfl).trans
            (setState_closed _ rfl)
        exact hmoved.trans (browse_spendsNoItem (by simp [setState]) rfl rfl rfl)
      · split
        · exact (browse_spendsNoItem (t := s.playSystem .decision) hne rfl rfl rfl).trans
            (setState_closed _ rfl)
        · exact browse_spendsNoItem hne rfl rfl rfl
    · exact .refl s

theorem openCommands_spendsNoItem (s : Scene σ) (hstate : s.state ≠ .battle) (hqueue : s.queue = [])
    (id : Int) :
    SpendsNoItem s (s.openCommands id) := by
  have hopened : SpendsNoItem s { s with activeActor := some id } :=
    browse_spendsNoItem hstate rfl rfl rfl
  refine hopened.trans
    (setState_spendsNoItem _ (fun _ => .inr (owed_of_idle hstate hqueue)) fun item haims => ?_)
  rw [aimed?_of_ne (by simp [setState]) (by simp [setState])] at haims
  contradiction

theorem takeFirstReady_spendsNoItem {s : Scene σ} (hstate : s.state ≠ .battle)
    (hqueue : s.queue = []) :
    SpendsNoItem s s.takeFirstReady := by
  unfold takeFirstReady
  split
  · exact .refl s
  · rename_i id _ _
    have hpointed : SpendsNoItem s (s.pointAtActor id) := browse_spendsNoItem hstate rfl rfl rfl
    exact hpointed.trans ((s.pointAtActor id).openCommands_spendsNoItem hstate hqueue id)

theorem readyAtCursor?_browses {s t : Scene σ} {id : Int} (h : s.readyAtCursor? = some (id, t)) :
    t = s ∨ t = s.pointAtActor id := by
  unfold readyAtCursor? at h
  split at h
  · contradiction
  · split at h
    · split at h
      · exact .inl (Prod.mk.inj (Option.some.inj h)).2.symm
      · obtain ⟨rfl, rfl⟩ := Prod.mk.inj (Option.some.inj h)
        exact .inr rfl
    · obtain ⟨rfl, rfl⟩ := Prod.mk.inj (Option.some.inj h)
      exact .inr rfl

theorem processActor_spendsNoItem (s : Scene σ) (input : InputState) (autoBattle : Bool)
    (hstate : s.state = .selectActor ∨ s.state = .autoBattle) :
    SpendsNoItem s (s.processActor input autoBattle).2 := by
  have hne : s.state ≠ .battle := by rcases hstate with h | h <;> simp [h]
  unfold processActor
  split
  · exact browse_spendsNoItem hne rfl rfl rfl
  · have hopened : SpendsNoItem s (if s.substate = 0 then s.setSubstate 1 else s) := by
      split
      · exact browse_spendsNoItem hne rfl rfl rfl
      · exact .refl s
    have hkept : (if s.substate = 0 then s.setSubstate 1 else s).state ≠ .battle := by
      split
      · exact hne
      · exact hne
    dsimp only
    generalize (if s.substate = 0 then s.setSubstate 1 else s) = t at hopened hkept
    refine hopened.trans ?_
    split
    · exact t.setState_closed rfl
    · rename_i hqueue
      have hqueue : t.queue = [] := by simpa using hqueue
      split
      · exact takeFirstReady_spendsNoItem hkept hqueue
      · split
        · exact (browse_spendsNoItem (t := t.playSystem .cancel) hkept rfl rfl rfl).trans
            (setState_closed _ rfl)
        · split
          · exact .refl t
          · split
            · exact .refl t
            · rename_i id u hready
              have hcursor : SpendsNoItem t u ∧ u.state ≠ .battle ∧ u.queue = [] := by
                rcases readyAtCursor?_browses hready with rfl | rfl
                · exact ⟨.refl _, hkept, hqueue⟩
                · exact ⟨browse_spendsNoItem hkept rfl rfl rfl, hkept, hqueue⟩
              obtain ⟨hpointed, hustate, huqueue⟩ := hcursor
              split
              · exact hpointed.trans (u.openCommands_spendsNoItem hustate huqueue id)
              · exact hpointed

theorem browses_of_isActorMenu {s : Scene σ} (h : s.state.isActorMenu = true) :
    s.browses = true := by
  simp [browses, h]

theorem ne_battle_of_isActorMenu {s : Scene σ} (h : s.state.isActorMenu = true) :
    s.state ≠ .battle := fun hbattle => by
  simp [hbattle, SceneState.isActorMenu] at h

/-- From one window of an actor to another one, which is no target window. -/
theorem setState_browsing (s : Scene σ) (hmenu : s.state.isActorMenu = true) {next : SceneState}
    (henemy : next ≠ .selectEnemyTarget) (hally : next ≠ .selectAllyTarget) :
    SpendsNoItem s (s.setState next) := by
  refine s.setState_spendsNoItem (fun _ => .inl (browses_of_isActorMenu hmenu)) fun id haims => ?_
  rw [aimed?_of_ne henemy hally] at haims
  contradiction

/-- From a window of an actor to a target window, for a selection of which there is enough. -/
theorem setState_aiming (s : Scene σ) (hmenu : s.state.isActorMenu = true) (next : SceneState)
    (hselection : ∀ id, s.ui.selection = some (.item id) → 1 ≤ s.roster.itemCount id) :
    SpendsNoItem s (s.setState next) := by
  refine s.setState_spendsNoItem (fun _ => .inl (browses_of_isActorMenu hmenu)) fun id haims =>
    .inr (hselection id ?_)
  unfold aimed? at haims
  split at haims
  · split at haims
    · rename_i item hitem
      obtain rfl := Option.some.inj haims
      exact hitem
    · contradiction
  · contradiction

theorem selectRow_spendsNoItem (s : Scene σ) (actor : Int) (hmenu : s.state.isActorMenu = true) :
    SpendsNoItem s (s.selectRow actor) := by
  have hne := ne_battle_of_isActorMenu hmenu
  unfold selectRow
  split
  · exact .refl s
  · dsimp only
    split
    · exact browse_spendsNoItem hne rfl rfl rfl
    · refine .trans ?_ (enqueue_spendsNoItem rfl)
      exact browse_spendsNoItem hne rfl rfl rfl

theorem selectCommand_spendsNoItem (s : Scene σ) (actor id : Int) (kind : BattleCommandKind)
    (hstate : s.state = .selectCommand) : SpendsNoItem s (s.selectCommand actor id kind) := by
  have hmenu : s.state.isActorMenu = true := by rw [hstate]; rfl
  have hne := ne_battle_of_isActorMenu hmenu
  have haims {t : Scene σ} (h : t.state = s.state) : t.aimed? = s.aimed? := by
    rw [aimed?_of_ne (by simp [h, hstate]) (by simp [h, hstate]),
      aimed?_of_ne (by simp [hstate]) (by simp [hstate])]
  have hplayed (sound : SystemSound) : SpendsNoItem s (s.playSystem sound) :=
    browse_spendsNoItem hne rfl rfl rfl
  cases kind with
  | attack =>
    have hselected :
        SpendsNoItem s ((s.playSystem .decision).modifyUi ({ · with selection := some .attack })) :=
      browse_spendsNoItem hne rfl rfl (haims rfl)
    refine hselected.trans (setState_aiming _ ?_ .selectEnemyTarget ?_)
    · exact hmenu
    · intro id h
      cases h
  | defense => exact (hplayed .decision).trans (enqueue_spendsNoItem rfl)
  | escape =>
    dsimp only [selectCommand]
    split
    · have hspent : SpendsNoItem s
          ((s.playSystem .decision).modifyRoster (·.modifyActor actor ({ · with gauge := 0 }))) :=
        browse_spendsNoItem hne rfl rfl rfl
      exact hspent.trans (setState_closed _ rfl)
    · exact hplayed .buzzer
  | item =>
    exact (hplayed .decision).trans
      ((s.playSystem .decision).setState_browsing hmenu (by simp) (by simp))
  | skill =>
    have hselected : SpendsNoItem s
        ((s.playSystem .decision).modifyUi ({ · with skillSubset := 0 })) :=
      browse_spendsNoItem hne rfl rfl rfl
    refine hselected.trans (setState_browsing _ ?_ (by simp) (by simp))
    exact hmenu
  | special => exact (hplayed .decision).trans (enqueue_spendsNoItem rfl)
  | subskill =>
    have hselected : SpendsNoItem s
        ((s.playSystem .decision).modifyUi ({ · with skillSubset := id })) :=
      browse_spendsNoItem hne rfl rfl rfl
    refine hselected.trans (setState_browsing _ ?_ (by simp) (by simp))
    exact hmenu

theorem processCommand_spendsNoItem (s : Scene σ) (input : InputState)
    (hstate : s.state = .selectCommand) :
    SpendsNoItem s (s.processCommand input).2 := by
  have hne : s.state ≠ .battle := by simp [hstate]
  have hopened : SpendsNoItem s (if s.substate = 0 then
        (if s.previousState = .selectActor ∨ s.previousState = .autoBattle then
          s.modifyUi ({ · with commandIndex := 0 }) else s).setSubstate 1 else s) ∧
      (if s.substate = 0 then
        (if s.previousState = .selectActor ∨ s.previousState = .autoBattle then
          s.modifyUi ({ · with commandIndex := 0 }) else s).setSubstate 1 else s).state =
            s.state := by
    split
    · split <;> exact ⟨browse_spendsNoItem hne rfl rfl rfl, rfl⟩
    · exact ⟨.refl s, rfl⟩
  dsimp only [processCommand]
  generalize (if s.substate = 0 then
        (if s.previousState = .selectActor ∨ s.previousState = .autoBattle then
          s.modifyUi ({ · with commandIndex := 0 }) else s).setSubstate 1 else s) = t at hopened
  obtain ⟨hsteps, htstate⟩ := hopened
  rw [← htstate] at hstate
  have hmenu : t.state.isActorMenu = true := by rw [hstate]; rfl
  refine hsteps.trans ?_
  split
  · exact t.setState_closed rfl
  · split
    · exact t.setState_closed rfl
    · split
      · split
        · exact t.selectCommand_spendsNoItem _ _ _ hstate
        · exact t.selectRow_spendsNoItem _ hmenu
        · exact .refl t
      · split
        · unfold leaveCommands
          dsimp only
          refine .trans ?_ (setState_closed _ rfl)
          exact browse_spendsNoItem (ne_battle_of_isActorMenu hmenu) rfl rfl rfl
        · exact .refl t

/-- An order of an actor at whose windows nothing is owed yet, for an item that is there if it is
for one. -/
theorem order_unspent {s : Scene σ} (hs : s.Stocked) (hmenu : s.state.isActorMenu = true)
    {actor : Int} (hactor : s.activeActor = some actor) {a : Action}
    (hsource : a.source = .actor actor)
    (hitem : ∀ id, a.item? = some id → 1 ≤ s.roster.itemCount id) :
    (s.enqueue a).Stocked ∧ Unspent s (s.enqueue a) := by
  cases hid : a.item? with
  | none =>
    have hspends := enqueue_spendsNoItem (s := s) hid
    exact ⟨hspends.stocked hs, hspends.unspent⟩
  | some id =>
    rcases s.enqueue_cases a with ⟨-, h⟩ | ⟨b, -, ⟨-, h⟩ | ⟨hother, -⟩⟩
    · rw [h]
      exact ⟨hs, (SpendsNoItem.refl s).unspent⟩
    · have hitems : ((s.enlist a).setState .selectActor).roster.items = s.roster.items :=
        s.roster.modify_items a.source _
      have howes : ((s.enlist a).setState .selectActor).owed = [id] := by
        have hnone := hs.browses (browses_of_isActorMenu hmenu)
        unfold owed at hnone ⊢
        rw [unstarted_of_state (ne_battle_of_isActorMenu hmenu), List.nil_append] at hnone
        rw [unstarted_of_state (by simp [setState]), List.nil_append]
        change (s.queue ++ [a]).filterMap (·.item?) = [id]
        rw [List.filterMap_append, hnone, List.filterMap_cons_some hid]
        rfl
      have hstock := hitem id hid
      rw [← SpendsNoItem.itemCount_eq hitems] at hstock
      rw [h]
      refine ⟨⟨fun other => ?_, ?_, fun other hother => ?_, fun hbrowses => ?_,
        fun other haims => ?_, fun hresolving => ?_⟩, hitems, ?_⟩
      · rw [SpendsNoItem.itemCount_eq hitems]
        exact hs.bounds other
      · rw [howes]
        exact Nat.le_refl 1
      · rw [howes, List.mem_singleton] at hother
        rwa [hother]
      · contradiction
      · rw [aimed?_of_ne (by simp [setState]) (by simp [setState])] at haims
        contradiction
      · exact absurd hresolving (not_resolving_setState _ _)
      · have hlisted : Logs (·.use? = none) s (s.enlist a) := .of_events rfl (note_events _ _)
        exact hlisted.trans (setState_pass _ _).useless
    · simp [isFromMenu, hsource, hactor] at hother

theorem actionOf?_item? {selection : Selection} {source : BattlerId} {targets : List BattlerId}
    {a : Action} {id : Int} (h : actionOf? selection source targets = some a)
    (hid : a.item? = some id) : selection = .item id := by
  cases selection with
  | attack =>
    obtain ⟨target, -, rfl⟩ := Option.map_eq_some_iff.mp h
    contradiction
  | skill skill =>
    obtain rfl := Option.some.inj h
    contradiction
  | item item =>
    obtain rfl := Option.some.inj h
    unfold Action.item? at hid
    cases source with
    | actor actor =>
      obtain rfl := Option.some.inj hid
      rfl
    | enemy index => contradiction

/-- An item is offered only if it is there. -/
theorem itemCount_of_usableItem? {s : Scene σ} {selection : Selection} {scope : Scope}
    (h : s.usableItem? = some (selection, scope)) {id : Int} (hid : selection = .item id) :
    1 ≤ s.roster.itemCount id := by
  unfold usableItem? at h
  obtain ⟨item, -, h⟩ := Option.bind_eq_some_iff.mp h
  obtain ⟨d, hd, h⟩ := Option.bind_eq_some_iff.mp h
  split at h
  · rename_i hstock
    obtain ⟨rfl, -⟩ := Prod.mk.inj (Option.some.inj h)
    have hknown : d.id = item := by simpa using List.find?_some hd
    obtain rfl : d.id = id := Selection.item.inj hid
    rw [hknown]
    exact hstock
  · contradiction

theorem usableSkill?_ne_item {s : Scene σ} {actor : Int} {selection : Selection} {scope : Scope}
    (h : s.usableSkill? actor = some (selection, scope)) (id : Int) : selection ≠ .item id := by
  unfold usableSkill? at h
  obtain ⟨skill, -, h⟩ := Option.bind_eq_some_iff.mp h
  obtain ⟨d, -, h⟩ := Option.bind_eq_some_iff.mp h
  dsimp only at h
  split at h
  · obtain ⟨rfl, -⟩ := Prod.mk.inj (Option.some.inj h)
    simp
  · contradiction

theorem chooseEffect_unspent {s : Scene σ} (hs : s.Stocked)
    (hstate : s.state = .selectItem ∨ s.state = .selectSkill) {actor : Int}
    (hactor : s.activeActor = some actor) {choice : Option (Selection × Scope)}
    (hchoice : ∀ selection scope, choice = some (selection, scope) → ∀ id, selection = .item id →
      1 ≤ s.roster.itemCount id) :
    (s.chooseEffect choice (.actor actor)).Stocked ∧
      Unspent s (s.chooseEffect choice (.actor actor)) := by
  have hmenu : s.state.isActorMenu = true := by rcases hstate with h | h <;> rw [h] <;> rfl
  have hne := ne_battle_of_isActorMenu hmenu
  have spendsNoItem {t : Scene σ} (h : SpendsNoItem s t) : t.Stocked ∧ Unspent s t :=
    ⟨h.stocked hs, h.unspent⟩
  have hplayed (sound : SystemSound) : SpendsNoItem s (s.playSystem sound) :=
    browse_spendsNoItem hne rfl rfl rfl
  unfold chooseEffect
  split
  · rename_i selection scope
    have hstock := hchoice selection scope rfl
    have haims {t : Scene σ} (h : t.state = s.state) : t.aimed? = s.aimed? := by
      rw [aimed?_of_ne, aimed?_of_ne]
      · rcases hstate with h' | h' <;> simp [h']
      · rcases hstate with h' | h' <;> simp [h']
      · rcases hstate with h' | h' <;> simp [h, h']
      · rcases hstate with h' | h' <;> simp [h, h']
    have hselected :
        SpendsNoItem s ((s.playSystem .decision).modifyUi
          ({ · with selection := some selection })) :=
      browse_spendsNoItem hne rfl rfl (haims rfl)
    have haimed (next : SceneState) : SpendsNoItem s
        (((s.playSystem .decision).modifyUi ({ · with selection := some selection })).setState
          next) := by
      refine hselected.trans (setState_aiming _ ?_ next ?_)
      · exact hmenu
      · exact fun id h => hstock id (Option.some.inj h)
    unfold chooseTargets
    split
    · exact spendsNoItem (haimed .selectEnemyTarget)
    · exact spendsNoItem (haimed .selectAllyTarget)
    · split
      · rename_i a ha
        obtain ⟨hstocked, hunspent⟩ :=
          order_unspent (s := s.playSystem .decision) ((hplayed .decision).stocked hs) hmenu
          hactor (actionOf?_fresh ha).source fun id hid => hstock id (actionOf?_item? ha hid)
        exact ⟨hstocked, (hplayed .decision).unspent.trans hunspent⟩
      · exact spendsNoItem (hplayed .decision)
  · exact spendsNoItem (hplayed .buzzer)

theorem backToCommands_spendsNoItem (s : Scene σ) (hmenu : s.state.isActorMenu = true) :
    SpendsNoItem s s.backToCommands := by
  have hplayed : SpendsNoItem s (s.playSystem .cancel) :=
    browse_spendsNoItem (ne_battle_of_isActorMenu hmenu) rfl rfl rfl
  exact hplayed.trans ((s.playSystem .cancel).setState_browsing hmenu (by simp) (by simp))

/-- The first step of a window settles its cursor. -/
theorem opened_spendsNoItem (s : Scene σ) (f : Menus → Menus) (hmenu : s.state.isActorMenu = true)
    (hf : (f s.ui).selection = s.ui.selection) :
    SpendsNoItem s (if s.substate = 0 then (s.modifyUi f).setSubstate 1 else s) := by
  split
  · exact browse_spendsNoItem (ne_battle_of_isActorMenu hmenu) rfl rfl (aimed?_congr rfl hf)
  · exact .refl s

theorem processItem_unspent {s : Scene σ} (hs : s.Stocked) (input : InputState)
    (hstate : s.state = .selectItem) :
    (s.processItem input).2.Stocked ∧ Unspent s (s.processItem input).2 := by
  have hmenu : s.state.isActorMenu = true := by rw [hstate]; rfl
  have hopened := s.opened_spendsNoItem
    (fun m => { m with itemIndex := min m.itemIndex ((Menus.itemList s.roster).length - 1) }) hmenu
      rfl
  obtain ⟨-, htstate, -⟩ := s.opened_chores
    (fun m => { m with itemIndex := min m.itemIndex ((Menus.itemList s.roster).length - 1) }) hmenu
  unfold processItem
  revert hopened htstate
  generalize (if s.substate = 0 then _ else s) = t
  intro hopened htstate
  rw [← htstate] at hstate hmenu
  have spendsNoItem {u : Scene σ} (h : SpendsNoItem t u) : u.Stocked ∧ Unspent s u :=
    ⟨(hopened.trans h).stocked hs, (hopened.trans h).unspent⟩
  dsimp only
  split
  · exact spendsNoItem (t.setState_closed rfl)
  · rename_i actor hactor
    split
    · obtain ⟨hstocked, hunspent⟩ := chooseEffect_unspent (hopened.stocked hs) (.inl hstate) hactor
        fun selection scope h id => itemCount_of_usableItem? h
      exact ⟨hstocked, hopened.unspent.trans hunspent⟩
    · split
      · exact spendsNoItem (t.backToCommands_spendsNoItem hmenu)
      · exact spendsNoItem (.refl t)

theorem processSkill_unspent {s : Scene σ} (hs : s.Stocked) (input : InputState)
    (hstate : s.state = .selectSkill) :
    (s.processSkill input).2.Stocked ∧ Unspent s (s.processSkill input).2 := by
  have hmenu : s.state.isActorMenu = true := by rw [hstate]; rfl
  unfold processSkill
  split
  · exact ⟨(s.setState_closed rfl).stocked hs, (s.setState_closed rfl).unspent⟩
  · rename_i actor hactor
    have hopened := s.opened_spendsNoItem (fun m =>
      let count := (Menus.skillList s.roster s.database actor s.ui.skillSubset).length
      { m with skillIndex := min m.skillIndex (count - 1) }) hmenu rfl
    obtain ⟨-, htstate, htactor⟩ := s.opened_chores (fun m =>
      let count := (Menus.skillList s.roster s.database actor s.ui.skillSubset).length
      { m with skillIndex := min m.skillIndex (count - 1) }) hmenu
    revert hopened htstate htactor
    generalize (if s.substate = 0 then _ else s) = t
    intro hopened htstate htactor
    rw [← htstate] at hstate hmenu
    have spendsNoItem {u : Scene σ} (h : SpendsNoItem t u) : u.Stocked ∧ Unspent s u :=
      ⟨(hopened.trans h).stocked hs, (hopened.trans h).unspent⟩
    dsimp only
    split
    · obtain ⟨hstocked, hunspent⟩ :=
        chooseEffect_unspent (hopened.stocked hs) (.inr hstate) (htactor.trans hactor)
        fun selection scope h id hid => absurd hid (usableSkill?_ne_item h id)
      exact ⟨hstocked, hopened.unspent.trans hunspent⟩
    · split
      · exact spendsNoItem (t.backToCommands_spendsNoItem hmenu)
      · exact spendsNoItem (.refl t)

theorem selectTarget_unspent {s : Scene σ} (hs : s.Stocked) {actor : Int} (target : BattlerId)
    {selection : Selection} (enemies : Bool) (hmenu : s.state.isActorMenu = true)
    (hactor : s.activeActor = some actor)
    (hstock : ∀ id, selection = .item id → 1 ≤ s.roster.itemCount id) :
    (s.selectTarget actor target selection enemies).Stocked ∧
      Unspent s (s.selectTarget actor target selection enemies) := by
  have hne := ne_battle_of_isActorMenu hmenu
  -- The actor may turn to its target, which changes nothing that counts.
  have ordered {t : Scene σ} (hturned : SpendsNoItem s t) (htmenu : t.state.isActorMenu = true)
      (htactor : t.activeActor = some actor) {a : Action}
        (ha : actionOf? selection (.actor actor) [target] = some a) :
      (t.enqueue a).Stocked ∧ Unspent s (t.enqueue a) := by
    obtain ⟨hstocked, hunspent⟩ :=
      order_unspent (hturned.stocked hs) htmenu htactor (actionOf?_fresh ha).source fun id hid => by
        rw [SpendsNoItem.itemCount_eq hturned.items]
        exact hstock id (actionOf?_item? ha hid)
    exact ⟨hstocked, hturned.unspent.trans hunspent⟩
  have hplayed : SpendsNoItem s (s.playSystem .decision) := browse_spendsNoItem hne rfl rfl rfl
  have hturned (position : Point) : SpendsNoItem s ((s.playSystem .decision).modifyRoster
      (·.modifyActor actor (Formation.faceTarget · position))) :=
    browse_spendsNoItem hne rfl rfl rfl
  unfold selectTarget
  dsimp only
  split
  · rename_i a ha
    split
    · exact ordered (hturned _) hmenu hactor ha
    · exact ordered hplayed hmenu hactor ha
  · split
    · exact ⟨(hturned _).stocked hs, (hturned _).unspent⟩
    · exact ⟨hplayed.stocked hs, hplayed.unspent⟩

theorem settleTargetCursor_spendsNoItem (s : Scene σ) (count : Nat)
    (hmenu : s.state.isActorMenu = true) :
    SpendsNoItem s (s.settleTargetCursor count) := by
  have hopened := s.opened_spendsNoItem ({ · with targetIndex := 0 }) hmenu rfl
  obtain ⟨-, htstate, -⟩ := s.opened_chores ({ · with targetIndex := 0 }) hmenu
  unfold settleTargetCursor
  revert hopened htstate
  generalize (if s.substate = 0 then _ else s) = t
  intro hopened htstate
  rw [← htstate] at hmenu
  dsimp only
  split
  · exact hopened.trans (browse_spendsNoItem (ne_battle_of_isActorMenu hmenu) rfl rfl rfl)
  · exact hopened

theorem processTarget_unspent {s : Scene σ} (hs : s.Stocked) (input : InputState) (enemies : Bool)
    (hstate : s.state = .selectEnemyTarget ∨ s.state = .selectAllyTarget) :
    (s.processTarget input enemies).2.Stocked ∧ Unspent s (s.processTarget input enemies).2 := by
  have hmenu : s.state.isActorMenu = true := by rcases hstate with h | h <;> rw [h] <;> rfl
  unfold processTarget
  dsimp only
  generalize (if enemies then Menus.enemyTargets s.roster else Menus.allyTargets s.roster) = targets
  have hopened := s.settleTargetCursor_spendsNoItem targets.length hmenu
  obtain ⟨-, htstate⟩ := s.settleTargetCursor_chores targets.length hmenu
  generalize s.settleTargetCursor targets.length = t at hopened htstate ⊢
  rw [← htstate] at hstate hmenu
  have hne := ne_battle_of_isActorMenu hmenu
  have hstocked := hopened.stocked hs
  have spendsNoItem {u : Scene σ} (h : SpendsNoItem t u) : u.Stocked ∧ Unspent s u :=
    ⟨h.stocked hstocked, (hopened.trans h).unspent⟩
  have hplayed (sound : SystemSound) : SpendsNoItem t (t.playSystem sound) :=
    browse_spendsNoItem hne rfl rfl rfl
  split
  · exact spendsNoItem (t.setState_closed rfl)
  · rename_i actor hactor
    split
    · split
      · rename_i target selection _ hselection
        have hstock : ∀ id, selection = .item id → 1 ≤ t.roster.itemCount id := by
          rintro id rfl
          refine hstocked.aims id ?_
          unfold aimed?
          rw [if_pos hstate, hselection]
        obtain ⟨hordered, hunspent⟩ :=
          selectTarget_unspent hstocked target enemies hmenu hactor hstock
        exact ⟨hordered, hopened.unspent.trans hunspent⟩
      · exact spendsNoItem (hplayed .buzzer)
    · split
      · refine spendsNoItem
          ((hplayed .cancel).trans (setState_spendsNoItem _ ?_ fun id haims => .inr ?_))
        · exact fun _ => .inl (browses_of_isActorMenu hmenu)
        · -- The window before this one may be a target window again, for the same selection.
          refine hstocked.aims id ?_
          unfold aimed? at haims ⊢
          rw [if_pos hstate]
          split at haims
          · exact haims
          · contradiction
      · exact spendsNoItem (.refl t)

end ActiveBattle.Scene
