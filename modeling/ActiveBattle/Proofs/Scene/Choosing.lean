import ActiveBattle.Proofs.Scene.Step

/-!
# What is done in the windows

What the player does in the windows is a chain of chores, cursors and rows among them, and then one
deed at most that leads out of the window: to another state, or to an action put together for the
actor whose windows they are.
-/

namespace ActiveBattle.Scene

set_option autoImplicit false

variable {σ : Type}

theorem playSystem_chores (s : Scene σ) (sound : SystemSound) : Chores s (s.playSystem sound) :=
  .quiet rfl

theorem modifyUi_chores (s : Scene σ) (f : Menus → Menus) : Chores s (s.modifyUi f) := .quiet rfl

theorem go_moves {s t : Scene σ} {next : SceneState} (h : t.core = s.core) (hleads : Leads t next) :
    Moves s (t.setState next) :=
  .after (.quiet h) (.go hleads)

theorem processOption_moves (s : Scene σ) (input : InputState) (hstate : s.state = .selectOption) :
    Moves s (s.processOption input).2 := by
  have hwindow : Chores s (s.setSubstate 1) := .advance (.window 1 (.inl hstate))
  unfold processOption
  split
  · split
    · exact .single (.go (.fight hstate))
    · dsimp only
      split
      · exact .of_chores ((s.modifyUi_chores (·.moveWindows)).trans
          (.advance (.window 1 (.inl hstate))))
      · exact .of_chores hwindow
  · split
    · split
      · exact go_moves (t := (s.playSystem .decision).modifyUi (·.moveWindows)) rfl (.fight hstate)
      · exact go_moves (t := (s.modifyUi (·.moveWindows)).playSystem .decision) rfl (.auto hstate)
      · split
        · rename_i hescape
          simp only [canEscapeAtOnce, Bool.and_eq_true] at hescape
          exact go_moves (t := s.playSystem .decision) rfl (.escape (.inl hstate) hescape.1.1)
        · exact .of_chores (.quiet rfl)
    · exact .of_chores (.refl s)

theorem pointAtActor_core (s : Scene σ) (id : Int) : (s.pointAtActor id).core = s.core := rfl

theorem isReady_of_mem {s : Scene σ} {id : Int} (h : id ∈ s.readyActors) : s.isReady id = true :=
  (List.mem_filter.mp h).2

theorem takeFirstReady_moves (s : Scene σ)
    (hstate : s.state = .selectActor ∨ s.state = .autoBattle) :
    Moves s s.takeFirstReady := by
  unfold takeFirstReady
  split
  · exact .of_chores (.refl s)
  · rename_i id rest hready
    have hid : s.isReady id = true := isReady_of_mem (hready ▸ List.mem_cons_self)
    exact .after (.quiet (s.pointAtActor_core id)) (.command id hid hstate)

/-- The actor that the cursor settles on is ready. -/
theorem readyAtCursor?_core {s t : Scene σ} {id : Int} (h : s.readyAtCursor? = some (id, t)) :
    t.core = s.core ∧ t.isReady id = true := by
  unfold readyAtCursor? at h
  split at h
  · contradiction
  · rename_i first rest hready
    have hfirst : s.isReady first = true := isReady_of_mem (hready ▸ List.mem_cons_self)
    split at h
    · split at h
      · rename_i hid
        obtain ⟨rfl, rfl⟩ := Prod.mk.inj (Option.some.inj h)
        have hmem := List.contains_iff_mem.mp hid
        exact ⟨rfl, isReady_of_mem (hready ▸ hmem)⟩
      · obtain ⟨rfl, rfl⟩ := Prod.mk.inj (Option.some.inj h)
        exact ⟨rfl, hfirst⟩
    · obtain ⟨rfl, rfl⟩ := Prod.mk.inj (Option.some.inj h)
      exact ⟨rfl, hfirst⟩

theorem processActor_moves (s : Scene σ) (input : InputState) (autoBattle : Bool)
    (hstate : s.state = .selectActor ∨ s.state = .autoBattle) :
    Moves s (s.processActor input autoBattle).2 := by
  have hwindow (n : Nat) : Chores s (s.setSubstate n) :=
    .advance (.window n (.inr (hstate.elim .inl (.inr ∘ .inl))))
  unfold processActor
  split
  · exact .of_chores (hwindow 2)
  · have hopened : Chores s (if s.substate = 0 then s.setSubstate 1 else s) ∧
        (if s.substate = 0 then s.setSubstate 1 else s).state = s.state := by
      split
      · exact ⟨hwindow 1, rfl⟩
      · exact ⟨.refl s, rfl⟩
    dsimp only
    generalize (if s.substate = 0 then s.setSubstate 1 else s) = t at hopened
    obtain ⟨hsteps, htstate⟩ := hopened
    rw [← htstate] at hstate
    refine .trans_chores hsteps ?_
    split
    · rename_i hqueue
      exact .single (.go (.battle (hstate.elim .inl (.inr ∘ .inl)) (by simpa using hqueue)))
    · split
      · exact t.takeFirstReady_moves hstate
      · split
        · exact go_moves (t := t.playSystem .cancel) rfl (.options hstate)
        · split
          · exact .of_chores (.refl t)
          · split
            · exact .of_chores (.refl t)
            · rename_i id u hready
              obtain ⟨hcore, hid⟩ := readyAtCursor?_core hready
              split
              · have hustate : u.state = t.state := congrArg (·.state) hcore
                exact .after (.quiet hcore) (.command id hid (hustate ▸ hstate))
              · exact .of_chores (.quiet hcore)

/-- An order given in the windows, after chores that keep them open. -/
theorem order_moves {s t : Scene σ} {a : Action} {actor : Int} (h : Chores s t)
    (hactor : t.activeActor = some actor) (hmenu : t.state.isActorMenu = true)
    (hfresh : a.Fresh (.actor actor)) : Moves s (t.enqueue a) :=
  .after h (.order a actor hactor hmenu hfresh)

theorem selectRow_moves (s : Scene σ) (actor : Int) (hmenu : s.state.isActorMenu = true)
    (hactor : s.activeActor = some actor) : Moves s (s.selectRow actor) := by
  unfold selectRow
  split
  · exact .of_chores (.refl s)
  · rename_i a ha
    dsimp only
    split
    · exact .of_chores (s.playSystem_chores _)
    · rename_i hfront
      have hswapped := Effects.single (.swapRow (s := s.playSystem .decision) actor
        ((s.roster.partyIndex? actor).getD 0) a ha hfront)
      exact order_moves ((s.playSystem_chores _).trans hswapped.chores) hactor hmenu ⟨rfl, rfl, rfl⟩

theorem selectCommand_moves (s : Scene σ) (actor id : Int) (kind : BattleCommandKind)
    (hstate : s.state = .selectCommand) (hactor : s.activeActor = some actor) :
    Moves s (s.selectCommand actor id kind) := by
  have hmenu : s.state.isActorMenu = true := by rw [hstate]; rfl
  cases kind with
  | attack => exact go_moves rfl (.window hmenu rfl fun _ => .inl hstate)
  | defense =>
    exact order_moves (t := s.playSystem .decision) (.quiet rfl) hactor hmenu ⟨rfl, rfl, rfl⟩
  | escape =>
    dsimp only [selectCommand]
    split
    · rename_i hescape
      have hleft : Deed (s.playSystem .decision) ((s.playSystem .decision).setState .escape) :=
        .go (.escape (.inr hstate) (Bool.and_eq_true_iff.mp hescape).1)
      exact ⟨_, s.playSystem_chores .decision,
        .land hleft (by simp [setState]) (.single (.spend actor rfl))⟩
    · exact .of_chores (.quiet rfl)
  | item => exact go_moves rfl (.window hmenu rfl fun _ => .inl hstate)
  | skill => exact go_moves rfl (.window hmenu rfl fun _ => .inl hstate)
  | special =>
    exact order_moves (t := s.playSystem .decision) (.quiet rfl) hactor hmenu ⟨rfl, rfl, rfl⟩
  | subskill => exact go_moves rfl (.window hmenu rfl fun _ => .inl hstate)

theorem leaveCommands_moves (s : Scene σ) (actor : Int) (hmenu : s.state.isActorMenu = true) :
    Moves s (s.leaveCommands actor) := by
  have hforgotten := Effects.single (.forget (s := s.playSystem .cancel) actor)
  exact .after ((s.playSystem_chores _).trans hforgotten.chores) (.leave hmenu)

theorem window_chores (s : Scene σ) (n : Nat) (hmenu : s.state.isActorMenu = true) :
    Chores s (s.setSubstate n) :=
  .advance (.window n (.inr (.inr (.inr hmenu))))

/-- The first step of a window settles its cursor. -/
theorem opened_chores (s : Scene σ) (f : Menus → Menus) (hmenu : s.state.isActorMenu = true) :
    Chores s (if s.substate = 0 then (s.modifyUi f).setSubstate 1 else s) ∧
      (if s.substate = 0 then (s.modifyUi f).setSubstate 1 else s).state = s.state ∧
      (if s.substate = 0 then (s.modifyUi f).setSubstate 1 else s).activeActor = s.activeActor := by
  split
  · exact ⟨(s.modifyUi_chores f).trans (window_chores _ 1 hmenu), rfl, rfl⟩
  · exact ⟨.refl s, rfl, rfl⟩

theorem processCommand_moves (s : Scene σ) (input : InputState)
    (hstate : s.state = .selectCommand) :
    Moves s (s.processCommand input).2 := by
  have hmenu : s.state.isActorMenu = true := by rw [hstate]; rfl
  have hopened : Chores s (if s.substate = 0 then
        (if s.previousState = .selectActor ∨ s.previousState = .autoBattle then
          s.modifyUi ({ · with commandIndex := 0 }) else s).setSubstate 1 else s) ∧
      (if s.substate = 0 then
        (if s.previousState = .selectActor ∨ s.previousState = .autoBattle then
          s.modifyUi ({ · with commandIndex := 0 }) else s).setSubstate 1 else s).state =
            s.state := by
    split
    · split
      · exact ⟨(s.modifyUi_chores _).trans (window_chores _ 1 hmenu), rfl⟩
      · exact ⟨s.window_chores 1 hmenu, rfl⟩
    · exact ⟨.refl s, rfl⟩
  dsimp only [processCommand]
  generalize (if s.substate = 0 then
        (if s.previousState = .selectActor ∨ s.previousState = .autoBattle then
          s.modifyUi ({ · with commandIndex := 0 }) else s).setSubstate 1 else s) = t at hopened
  obtain ⟨hsteps, htstate⟩ := hopened
  rw [← htstate] at hstate hmenu
  refine .trans_chores hsteps ?_
  split
  · rename_i hqueue
    exact .single (.go (.battle (.inr (.inr ⟨hstate, hqueue.1⟩)) (by simpa using hqueue.2)))
  · split
    · rename_i hactor
      exact .single (.go (.noActor hmenu hactor))
    · rename_i actor hactor
      split
      · split
        · exact t.selectCommand_moves actor _ _ hstate hactor
        · exact t.selectRow_moves actor hmenu hactor
        · exact .of_chores (.refl t)
      · split
        · exact t.leaveCommands_moves actor hmenu
        · exact .of_chores (.refl t)

theorem actionOf?_fresh {selection : Selection} {source : BattlerId} {targets : List BattlerId}
    {a : Action} (h : actionOf? selection source targets = some a) : a.Fresh source := by
  cases selection with
  | attack =>
    obtain ⟨target, -, rfl⟩ := Option.map_eq_some_iff.mp h
    exact ⟨rfl, rfl, rfl⟩
  | skill id =>
    obtain rfl := Option.some.inj h
    exact ⟨rfl, rfl, rfl⟩
  | item id =>
    obtain rfl := Option.some.inj h
    exact ⟨rfl, rfl, rfl⟩

theorem chooseEffect_moves (s : Scene σ) (choice : Option (Selection × Scope)) (actor : Int)
    (hstate : s.state = .selectItem ∨ s.state = .selectSkill)
    (hactor : s.activeActor = some actor) :
    Moves s (s.chooseEffect choice (.actor actor)) := by
  have hmenu : s.state.isActorMenu = true := by
    rcases hstate with h | h <;> rw [h] <;> rfl
  unfold chooseEffect
  split
  · unfold chooseTargets
    split
    · exact go_moves rfl (.window hmenu rfl fun _ => .inr hstate)
    · exact go_moves rfl (.window hmenu rfl fun _ => .inr hstate)
    · split
      · rename_i a ha
        exact order_moves (t := s.playSystem .decision) (.quiet rfl) hactor hmenu
          (actionOf?_fresh ha)
      · exact .of_chores (.quiet rfl)
  · exact .of_chores (.quiet rfl)

theorem backToCommands_moves (s : Scene σ) (hmenu : s.state.isActorMenu = true) :
    Moves s s.backToCommands :=
  go_moves rfl (.window hmenu rfl fun h => by simp at h)

theorem processItem_moves (s : Scene σ) (input : InputState) (hstate : s.state = .selectItem) :
    Moves s (s.processItem input).2 := by
  have hmenu : s.state.isActorMenu = true := by rw [hstate]; rfl
  obtain ⟨hsteps, htstate, -⟩ := s.opened_chores
    (fun m => { m with itemIndex := min m.itemIndex ((Menus.itemList s.roster).length - 1) }) hmenu
  unfold processItem
  revert hsteps htstate
  generalize (if s.substate = 0 then _ else s) = t
  intro hsteps htstate
  rw [← htstate] at hstate hmenu
  refine .trans_chores hsteps ?_
  dsimp only
  split
  · rename_i hactor
    exact .single (.go (.noActor hmenu hactor))
  · rename_i actor hactor
    split
    · exact t.chooseEffect_moves _ actor (.inl hstate) hactor
    · split
      · exact t.backToCommands_moves hmenu
      · exact .of_chores (.refl t)

theorem processSkill_moves (s : Scene σ) (input : InputState) (hstate : s.state = .selectSkill) :
    Moves s (s.processSkill input).2 := by
  have hmenu : s.state.isActorMenu = true := by rw [hstate]; rfl
  unfold processSkill
  split
  · rename_i hactor
    exact .single (.go (.noActor hmenu hactor))
  · rename_i actor hactor
    obtain ⟨hsteps, htstate, htactor⟩ := s.opened_chores (fun m =>
      let count := (Menus.skillList s.roster s.database actor s.ui.skillSubset).length
      { m with skillIndex := min m.skillIndex (count - 1) }) hmenu
    revert hsteps htstate htactor
    generalize (if s.substate = 0 then _ else s) = t
    intro hsteps htstate htactor
    rw [← htstate] at hstate hmenu
    refine .trans_chores hsteps ?_
    dsimp only
    split
    · exact t.chooseEffect_moves _ actor (.inr hstate) (htactor.trans hactor)
    · split
      · exact t.backToCommands_moves hmenu
      · exact .of_chores (.refl t)

theorem selectTarget_moves (s : Scene σ) (actor : Int) (target : BattlerId) (selection : Selection)
    (enemies : Bool) (hmenu : s.state.isActorMenu = true) (hactor : s.activeActor = some actor) :
    Moves s (s.selectTarget actor target selection enemies) := by
  have turned (position : Point) : Chores (s.playSystem .decision)
      ((s.playSystem .decision).modifyRoster
        (·.modifyActor actor (Formation.faceTarget · position))) := by
    apply Effects.chores
    refine .single (.pose (.modifyActor Battler.Posed.refl _ _ _ ?_) rfl)
    intro b _
    unfold Formation.faceTarget
    split <;> rfl
  unfold selectTarget
  refine .trans_chores (s.playSystem_chores .decision) ?_
  dsimp only
  split
  · rename_i a ha
    split
    · rename_i b _
      exact order_moves (turned b.position) hactor hmenu (actionOf?_fresh ha)
    · exact order_moves (.refl _) hactor hmenu (actionOf?_fresh ha)
  · split
    · rename_i b _
      exact .of_chores (turned b.position)
    · exact .of_chores (.refl _)

theorem settleTargetCursor_chores (s : Scene σ) (count : Nat) (hmenu : s.state.isActorMenu = true) :
    Chores s (s.settleTargetCursor count) ∧ (s.settleTargetCursor count).state = s.state := by
  obtain ⟨hsteps, htstate, -⟩ := s.opened_chores ({ · with targetIndex := 0 }) hmenu
  unfold settleTargetCursor
  revert hsteps htstate
  generalize (if s.substate = 0 then _ else s) = t
  intro hsteps htstate
  dsimp only
  split
  · exact ⟨hsteps.trans (t.modifyUi_chores _), htstate⟩
  · exact ⟨hsteps, htstate⟩

theorem processTarget_moves (s : Scene σ) (input : InputState) (enemies : Bool)
    (hstate : s.state = .selectEnemyTarget ∨ s.state = .selectAllyTarget) :
    Moves s (s.processTarget input enemies).2 := by
  have hmenu : s.state.isActorMenu = true := by
    rcases hstate with h | h <;> rw [h] <;> rfl
  unfold processTarget
  dsimp only
  generalize (if enemies then Menus.enemyTargets s.roster else Menus.allyTargets s.roster) = targets
  obtain ⟨hsteps, htstate⟩ := s.settleTargetCursor_chores targets.length hmenu
  generalize s.settleTargetCursor targets.length = t at hsteps htstate ⊢
  rw [← htstate] at hstate hmenu
  refine .trans_chores hsteps ?_
  split
  · rename_i hactor
    exact .single (.go (.noActor hmenu hactor))
  · rename_i actor hactor
    split
    · split
      · exact t.selectTarget_moves actor _ _ enemies hmenu hactor
      · exact .of_chores (t.playSystem_chores _)
    · split
      · exact .after (t.playSystem_chores .cancel) (.go (.cancel hstate))
      · exact .of_chores (.refl t)

end ActiveBattle.Scene
