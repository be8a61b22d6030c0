import ActiveBattle.Proofs.Scene.Rewarding
import ActiveBattle.Proofs.Scene.Starting

/-!
# Items that are spoken for

The item window asks whether an item is there, and the action that uses it up starts many frames
later. In between the item is owed: by the target window, by the queue, or by the pending action.
Nothing but the windows makes the party owe an item, and they are shut until the item has been used
up or given back (`Stocked`).
-/

namespace ActiveBattle

set_option autoImplicit false

namespace Roster

theorem items_eq_of_goods_eq {r r' : Roster} (h : r'.goods = r.goods) : r'.items = r.items :=
  show r'.goods.items = r.goods.items from congrArg items h

theorem modify_items (r : Roster) (id : BattlerId) (f : Battler → Battler) :
    (r.modify id f).items = r.items :=
  items_eq_of_goods_eq (r.modify_goods id f)

end Roster

namespace SceneEvent

/-- Whether a pass is under way after an event that tells: none is when a turn is counted, one is
when it starts. -/
def pass? : SceneEvent → Option Bool
  | .turnAdvanced _ _ => some false
  | .actionStarted _ _ _ => some true
  | _ => none

/-- The item that a pass of an ally's action uses. -/
def use? : SceneEvent → Option Int
  | .actionStarted (.actor _) (.item id) _ => some id
  | _ => none

theorem use?_eq_none {e : SceneEvent} (h : e.pass? = none) : e.use? = none := by
  cases e <;> first | rfl | contradiction

end SceneEvent

namespace Action

/-- The item that an ally's action uses. -/
def item? (a : Action) : Option Int :=
  match a.kind, a.source with
  | .item id, .actor _ => some id
  | _, _ => none

theorem item?_congr {a b : Action} (hkind : b.kind = a.kind) (hsource : b.source = a.source) :
    b.item? = a.item? := by
  unfold item?
  rw [hkind, hsource]

theorem use?_actionStarted (a : Action) (round : Int) :
    (SceneEvent.actionStarted a.source a.kind round).use? = a.item? := by
  unfold item?
  cases a.kind <;> cases a.source <;> rfl

section Choice

variable (source : BattlerId) (g : GameState)

theorem attackOn_item? (side : Side) : (attackOn source side g).1.item? = none := by
  unfold attackOn
  split <;> rfl

theorem restricted_item? {forced : Action × GameState} (h : restricted source g = some forced) :
    forced.1.item? = none := by
  unfold restricted at h
  split at h
  · contradiction
  · split at h <;> simp only [Option.some.injEq, reduceCtorEq] at h <;> subst h
    · rfl
    · exact attackOn_item? source g _
    · exact attackOn_item? source g _

theorem ofEnemyAction_item? (kind : EnemyActionKind) :
    (ofEnemyAction source kind g).1.item? = none := by
  cases kind with
  | attack => exact attackOn_item? source g _
  | skill id =>
    dsimp only [ofEnemyAction]
    split <;> rfl
  | _ => rfl

theorem chooseEnemy_item? : (chooseEnemy source g).1.item? = none := by
  unfold chooseEnemy
  split
  · rfl
  · split
    · rfl
    · dsimp only
      split
      · exact ofEnemyAction_item? source g _
      · exact ofEnemyAction_item? source _ _

end Choice

/-- A pass uses up one of the item on the first pass, and nothing of the stock otherwise. -/
theorem start_items (a : Action) (g : GameState) : (a.start g).2.roster.items =
    match a.item? with
    | some id => if a.repeatsDone = 0 then (g.roster.addItem id (-1)).items else g.roster.items
    | none => g.roster.items := by
  obtain ⟨hsame, hkind, hrolled⟩ := { a with current := 0, outcome := {} }.aim_rolled g
  unfold start
  dsimp only
  generalize { a with current := 0, outcome := {} }.aim g = aimed at hsame hkind hrolled
  obtain ⟨b, g'⟩ := aimed
  have hsource : b.source = a.source := hsame.source
  have hdone : b.repeatsDone = a.repeatsDone := hsame.repeatsDone
  rw [← item?_congr (a := a) (b := b) hkind hsource, ← hdone, ← hrolled.roster]
  unfold payCost item?
  dsimp only
  cases b.kind with
  | skill id =>
    exact g'.roster.modify_items b.source _
  | item id =>
    cases b.source with
    | actor actor =>
      simp only [BattlerId.isAlly, and_true]
      split <;> rfl
    | enemy index => simp [BattlerId.isAlly]
  | _ => rfl

end Action

theorem Chooser.chooseFor_item? (c : Chooser) (source : BattlerId) (g : GameState) :
    (c.chooseFor source g).1.item? = none := by
  unfold Chooser.chooseFor
  cases h : Action.restricted source g with
  | some forced => exact Action.restricted_item? source g h
  | none =>
    cases c with
    | enemy => exact Action.chooseEnemy_item? source g
    | auto => exact Action.attackOn_item? source g _

namespace Scene

variable {σ : Type}

/-- A pass has started since the last turn was counted. -/
def underway (s : Scene σ) : Bool := ((s.events.filterMap (·.pass?)).getLast?).getD false

/-- The pending action is between the events before it and its end. -/
structure Resolving (s : Scene σ) : Prop where
  state : s.state = .battle
  substate : s.substate = preEvents ∨ s.substate = battleAction

theorem atStart_iff (s : Scene σ) :
    s.AtStart ↔ s.Resolving ∧ (s.actionState = .begin ∨ s.actionState = .startAlgo) :=
  ⟨fun h => ⟨⟨h.state, h.substate⟩, h.stage⟩, fun h => ⟨h.1.state, h.1.substate, h.2⟩⟩

instance (s : Scene σ) : Decidable s.Resolving :=
  decidable_of_iff (s.state = .battle ∧ (s.substate = preEvents ∨ s.substate = battleAction))
    ⟨fun h => ⟨h.1, h.2⟩, fun h => ⟨h.state, h.substate⟩⟩

instance (s : Scene σ) : Decidable s.AtStart := decidable_of_iff _ s.atStart_iff.symm

/-- The pending action, if it has not started its first pass. -/
def unstarted (s : Scene σ) : List Action :=
  if s.AtStart then s.pending.toList.filter (·.repeatsDone = 0) else []

/-- The items that the actions of allies have yet to use up. -/
def owed (s : Scene σ) : List Int := (s.unstarted ++ s.queue).filterMap (·.item?)

/-- The item that the open window is to find a target for. -/
def aimed? (s : Scene σ) : Option Int :=
  if s.state = .selectEnemyTarget ∨ s.state = .selectAllyTarget then
    match s.ui.selection with
    | some (.item id) => some id
    | _ => none
  else none

/-- The windows of an actor are open, or the queue is done and they are about to be. -/
def browses (s : Scene σ) : Bool :=
  s.state.isActorMenu || (decide (s.state = .battle) && decide (s.substate = afterBattle))

theorem mem_unstarted {s : Scene σ} {a : Action} :
    a ∈ s.unstarted ↔ s.AtStart ∧ s.pending = some a ∧ a.repeatsDone = 0 := by
  unfold unstarted
  split
  · rename_i h
    simp [h]
  · rename_i h
    simp [h]

theorem aimed?_congr {s t : Scene σ} (hstate : t.state = s.state)
    (hselection : t.ui.selection = s.ui.selection) :
    t.aimed? = s.aimed? := by
  unfold aimed?
  rw [hstate, hselection]

theorem aimed?_of_ne {s : Scene σ} (henemy : s.state ≠ .selectEnemyTarget)
    (hally : s.state ≠ .selectAllyTarget) :
    s.aimed? = none :=
  if_neg fun h => h.elim henemy hally

theorem unstarted_of_not {s : Scene σ} (h : ¬s.AtStart) : s.unstarted = [] := if_neg h

theorem unstarted_of_state {s : Scene σ} (h : s.state ≠ .battle) : s.unstarted = [] :=
  unstarted_of_not fun hstart => h hstart.state

theorem unstarted_congr {s t : Scene σ} (hstart : t.AtStart ↔ s.AtStart)
    (hpending : t.pending = s.pending) :
    t.unstarted = s.unstarted := by
  unfold unstarted
  rw [hpending]
  by_cases h : s.AtStart
  · rw [if_pos h, if_pos (hstart.mpr h)]
  · rw [if_neg h, if_neg (mt hstart.mp h)]

theorem atStart_congr {s t : Scene σ} (hstate : t.state = s.state) (hsub : t.substate = s.substate)
    (hstage : t.actionState = s.actionState) : t.AtStart ↔ s.AtStart := by
  rw [atStart_iff, atStart_iff, hstage]
  refine and_congr_left fun _ => ⟨fun h => ⟨hstate ▸ h.state, hsub ▸ h.substate⟩, fun h => ⟨?_, ?_⟩⟩
  · rw [hstate]
    exact h.state
  · rw [hsub]
    exact h.substate

namespace Logs

variable {s t : Scene σ}

theorem underway_eq (h : Logs (·.pass? = none) s t) : t.underway = s.underway := by
  obtain ⟨es, hes, hkind⟩ := h
  unfold underway
  rw [hes, List.filterMap_append, List.filterMap_eq_nil_iff.mpr hkind, List.append_nil]

theorem useless (h : Logs (·.pass? = none) s t) : Logs (·.use? = none) s t :=
  h.mono fun _ => SceneEvent.use?_eq_none

end Logs

/-- No item is used up, and the party owes none that it has not owed before. -/
structure SpendsNoItem (s t : Scene σ) : Prop where
  items : t.roster.items = s.roster.items
  logs : Logs (·.pass? = none) s t
  owed : t.owed.Sublist s.owed
  browses : t.browses = true → s.browses = true ∨ t.owed = []
  aims : ∀ id, t.aimed? = some id → s.aimed? = some id ∨ 1 ≤ t.roster.itemCount id
  resolving : t.Resolving → s.Resolving ∧
    ∀ b, t.pending = some b → ∃ a, s.pending = some a ∧ (b ∈ t.unstarted ↔ a ∈ s.unstarted)

namespace SpendsNoItem

variable {s t u : Scene σ}

theorem itemCount_eq (h : t.roster.items = s.roster.items) (id : Int) :
    t.roster.itemCount id = s.roster.itemCount id :=
  congrArg (·.getD id 0) h

theorem trans (h : SpendsNoItem s t) (h' : SpendsNoItem t u) : SpendsNoItem s u where
  items := h'.items.trans h.items
  logs := h.logs.trans h'.logs
  owed := h'.owed.trans h.owed
  browses hu := by
    rcases h'.browses hu with ht | hnone
    · rcases h.browses ht with hs | hnone
      · exact .inl hs
      · exact .inr (List.eq_nil_of_sublist_nil (hnone ▸ h'.owed))
    · exact .inr hnone
  aims id hu := by
    rcases h'.aims id hu with ht | hstock
    · rw [itemCount_eq h'.items]
      exact h.aims id ht
    · exact .inr hstock
  resolving hu := by
    obtain ⟨ht, hpending'⟩ := h'.resolving hu
    obtain ⟨hs, hpending⟩ := h.resolving ht
    refine ⟨hs, fun c hc => ?_⟩
    obtain ⟨b, hb, hcb⟩ := hpending' c hc
    obtain ⟨a, ha, hba⟩ := hpending b hb
    exact ⟨a, ha, hcb.trans hba⟩

/-- The course goes on as before, and the window that is open has the same aim. -/
theorem of_course (h : t.course = s.course) (hitems : t.roster.items = s.roster.items)
    (hlogs : Logs (·.pass? = none) s t) (haims : t.aimed? = s.aimed?) : SpendsNoItem s t := by
  have hstate : t.state = s.state := congrArg Course.state h
  have hsub : t.substate = s.substate := congrArg Course.substate h
  have hpending : t.pending = s.pending := congrArg Course.pending h
  have hunstarted :=
    unstarted_congr (atStart_congr hstate hsub (congrArg Course.actionState h)) hpending
  have howed : t.owed = s.owed := by
    unfold Scene.owed
    rw [hunstarted, show t.queue = s.queue from congrArg Course.queue h]
  refine ⟨hitems, hlogs, howed ▸ .refl _, fun hbrowses => .inl ?_, fun id hid => .inl (haims ▸ hid),
    fun hresolving => ?_⟩
  · unfold Scene.browses at hbrowses ⊢
    rwa [hstate, hsub] at hbrowses
  · refine ⟨⟨hstate ▸ hresolving.state, hsub ▸ hresolving.substate⟩,
      fun b hb => ⟨b, hpending ▸ hb, ?_⟩⟩
    rw [hunstarted]

theorem refl (s : Scene σ) : SpendsNoItem s s := of_course rfl rfl (.refl s) rfl

/-- Away from the battle no action is pending that counts. -/
theorem elsewhere (hstate : s.state ≠ .battle) (hkept : t.state = s.state)
    (hqueue : t.queue = s.queue) (hitems : t.roster.items = s.roster.items)
    (hlogs : Logs (·.pass? = none) s t) (haims : t.aimed? = s.aimed?) : SpendsNoItem s t := by
  have howed : t.owed = s.owed := by
    unfold Scene.owed
    rw [unstarted_of_state hstate, unstarted_of_state (hkept ▸ hstate), hqueue]
  refine ⟨hitems, hlogs, howed ▸ .refl _, fun hbrowses => .inl ?_, fun id hid => .inl (haims ▸ hid),
    fun hresolving => ?_⟩
  · unfold Scene.browses at hbrowses ⊢
    simpa [hkept, hstate] using hbrowses
  · exact absurd (hkept ▸ hresolving.state) hstate

end SpendsNoItem

theorem setState_owed_sublist (s : Scene σ) (next : SceneState) :
    (s.setState next).owed.Sublist s.owed := by
  unfold owed
  rw [unstarted_of_not (not_atStart_of_substate (.inl (Nat.zero_le 1)))]
  exact (List.sublist_append_right _ _).filterMap _

theorem setState_pass (s : Scene σ) (next : SceneState) :
    Logs (·.pass? = none) s (s.setState next) :=
  .of_events rfl (s.setState_events next)

theorem not_resolving_setState (s : Scene σ) (next : SceneState) :
    ¬(s.setState next).Resolving := by
  rintro ⟨-, h | h⟩ <;> contradiction

/-- A state is left for another one, in which there is nothing to browse unless there was before. -/
theorem setState_spendsNoItem (s : Scene σ) {next : SceneState}
    (hbrowses : next.isActorMenu = true → s.browses = true ∨ s.owed = [])
    (haims : ∀ id, (s.setState next).aimed? = some id →
      s.aimed? = some id ∨ 1 ≤ s.roster.itemCount id) :
    SpendsNoItem s (s.setState next) := by
  refine ⟨rfl, s.setState_pass next, s.setState_owed_sublist next, fun h => ?_, haims, fun h => ?_⟩
  · have hmenu : next.isActorMenu = true := by
      simpa [browses, setState, afterBattle] using h
    rcases hbrowses hmenu with hbefore | hnone
    · exact .inl hbefore
    · have howed := s.setState_owed_sublist next
      rw [hnone] at howed
      exact .inr (List.eq_nil_of_sublist_nil howed)
  · exact absurd h (s.not_resolving_setState next)

/-- A state without windows is entered. -/
theorem setState_closed (s : Scene σ) {next : SceneState} (hmenu : next.isActorMenu = false) :
    SpendsNoItem s (s.setState next) := by
  refine s.setState_spendsNoItem (fun h => absurd h (by simp [hmenu])) fun id haims => ?_
  rw [aimed?_of_ne] at haims
  · contradiction
  · rintro (rfl : next = _)
    contradiction
  · rintro (rfl : next = _)
    contradiction

/-- The party owes one item at most, and has it. -/
structure Stocked (s : Scene σ) : Prop where
  bounds : ∀ id, 0 ≤ s.roster.itemCount id ∧ s.roster.itemCount id ≤ 99
  single : s.owed.length ≤ 1
  covered : ∀ id ∈ s.owed, 1 ≤ s.roster.itemCount id
  browses : s.browses = true → s.owed = []
  aims : ∀ id, s.aimed? = some id → 1 ≤ s.roster.itemCount id
  resolving : s.Resolving → ∀ a, s.pending = some a → (s.underway = false ↔ a ∈ s.unstarted)

theorem SpendsNoItem.stocked {s t : Scene σ} (h : SpendsNoItem s t) (hs : s.Stocked) :
    t.Stocked where
  bounds id := by
    rw [itemCount_eq h.items]
    exact hs.bounds id
  single := Nat.le_trans h.owed.length_le hs.single
  covered id hid := by
    rw [itemCount_eq h.items]
    exact hs.covered id (h.owed.subset hid)
  browses hbrowses := by
    rcases h.browses hbrowses with hbefore | hnone
    · have howed := h.owed
      rw [hs.browses hbefore] at howed
      exact List.eq_nil_of_sublist_nil howed
    · exact hnone
  aims id haims := by
    rcases h.aims id haims with hbefore | hstock
    · rw [itemCount_eq h.items]
      exact hs.aims id hbefore
    · exact hstock
  resolving hresolving b hb := by
    obtain ⟨hbefore, hpending⟩ := h.resolving hresolving
    obtain ⟨a, ha, hba⟩ := hpending b hb
    rw [h.logs.underway_eq, hs.resolving hbefore a ha, hba]

/-- No item is used up, and no action of an ally that uses one starts a pass. -/
structure Unspent (s t : Scene σ) : Prop where
  items : t.roster.items = s.roster.items
  logs : Logs (·.use? = none) s t

theorem SpendsNoItem.unspent {s t : Scene σ} (h : SpendsNoItem s t) : Unspent s t :=
  ⟨h.items, h.logs.useless⟩

theorem Unspent.trans {s t u : Scene σ} (h : Unspent s t) (h' : Unspent t u) : Unspent s u :=
  ⟨h'.items.trans h.items, h.logs.trans h'.logs⟩

/-- An action that uses no item is put into the queue. -/
theorem enqueue_spendsNoItem {s : Scene σ} {a : Action} (ha : a.item? = none) :
    SpendsNoItem s (s.enqueue a) := by
  have hlisted : SpendsNoItem s (s.enlist a) := by
    have hunstarted : (s.enlist a).unstarted = s.unstarted :=
      unstarted_congr (atStart_congr rfl rfl rfl) rfl
    have howed : (s.enlist a).owed = s.owed := by
      unfold owed
      rw [hunstarted, show (s.enlist a).queue = s.queue ++ [a] from rfl, ← List.append_assoc,
        List.filterMap_append, List.filterMap_cons_none ha, List.filterMap_nil, List.append_nil]
    refine ⟨s.roster.modify_items a.source _, .of_events rfl (note_events _ _), howed ▸ .refl _,
      .inl, fun _ => .inl, ?_⟩
    intro h
    exact ⟨⟨h.state, h.substate⟩, fun b hb => ⟨b, hb, by rw [hunstarted]⟩⟩
  rcases s.enqueue_cases a with ⟨-, h⟩ | ⟨b, -, ⟨-, h⟩ | ⟨-, h⟩⟩
  · rw [h]
    exact .refl s
  · rw [h]
    exact hlisted.trans (setState_closed _ rfl)
  · rw [h]
    exact hlisted

theorem endBattle_spendsNoItem (s : Scene σ) (result : BattleResult) :
    SpendsNoItem s (s.endBattle result) := by
  unfold endBattle
  split
  · exact .refl s
  · dsimp only
    refine ⟨rfl, .of_events rfl (note_events _ _), ?_, .inl, fun _ => .inl,
      fun h => ⟨⟨h.state, h.substate⟩, ?_⟩⟩
    · unfold owed unstarted
      split <;> exact List.nil_sublist _
    · intro b hb
      contradiction

section Prelude

theorem Backgrounds.items_eq {s t : Scene σ} (h : Backgrounds s t) :
    t.roster.items = s.roster.items := by
  induction h with
  | refl => rfl
  | tail _ hstep ih => exact (Roster.items_eq_of_goods_eq hstep.goods_eq).trans ih

theorem Backgrounds.pass {s t : Scene σ} (h : Backgrounds s t) : Logs (·.pass? = none) s t := by
  induction h with
  | refl => exact .refl s
  | tail _ hstep ih => exact ih.trans (hstep.logs_of fun _ => rfl)

/-- Around the outer states nothing is done with the items. -/
theorem Backgrounds.spendsNoItem {s t : Scene σ} (h : Backgrounds s t)
    (hselection : t.ui.selection = s.ui.selection) :
    SpendsNoItem s t :=
  .of_course h.course_eq h.items_eq
    h.pass (aimed?_congr (congrArg Course.state h.course_eq) hselection)

theorem updateWindows_selection (m : Menus) : m.updateWindows.selection = m.selection := by
  unfold Menus.updateWindows
  split <;> rfl

theorem moveCursor_selection (m : Menus) (state : SceneState) (len : Nat) (down : Bool) :
    (m.moveCursor state len down).selection = m.selection := by
  unfold Menus.moveCursor
  split
  · rfl
  · split <;> rfl

theorem updateUi_selection (s : Scene σ) (input : InputState) :
    (s.updateUi input).ui.selection = s.ui.selection := by
  have hslid : (s.modifyUi (·.updateWindows)).ui.selection = s.ui.selection :=
    updateWindows_selection s.ui
  unfold updateUi
  generalize s.modifyUi (·.updateWindows) = t at hslid
  dsimp only [updateMessage, updateCursor]
  split
  · split <;> exact hslid
  · split
    · exact hslid
    · split
      · exact (moveCursor_selection _ _ _ _).trans hslid
      · split
        · exact (moveCursor_selection _ _ _ _).trans hslid
        · exact hslid

theorem updatePresentation_spendsNoItem (s : Scene σ) (input : InputState) :
    SpendsNoItem s (s.updatePresentation input) := by
  refine (s.updatePresentation_backgrounds input).spendsNoItem ?_
  unfold updatePresentation
  dsimp only
  rw [updateUi_selection]
  unfold updateRunningAway
  split <;> rfl

theorem startForeground_selection (s : Scene σ) :
    s.startForeground.ui.selection = s.ui.selection := by
  unfold startForeground
  split
  · rfl
  · split <;> rfl

theorem checkForceFlee_spendsNoItem (s : Scene σ) : SpendsNoItem s s.checkForceFlee := by
  unfold checkForceFlee
  split
  · exact s.setState_closed rfl
  · exact .refl s

theorem checkBattleEnd_spendsNoItem (s : Scene σ) : SpendsNoItem s s.checkBattleEnd.2 := by
  unfold checkBattleEnd
  split
  · split
    · exact .refl s
    · exact s.setState_closed rfl
  · split
    · split
      · exact .refl s
      · exact s.setState_closed rfl
    · exact .refl s

theorem mark_spendsNoItem (s : Scene σ) (step : FrameStep) : SpendsNoItem s (s.mark step) :=
  (s.mark_backgrounds step).spendsNoItem rfl

theorem checkDirector_spendsNoItem (s : Scene σ) : SpendsNoItem s s.checkDirector.2 := by
  unfold checkDirector
  split
  · exact .refl s
  · exact s.endBattle_spendsNoItem _
  · exact (s.ask_backgrounds _ (by simp)).spendsNoItem rfl

theorem showNotices_spendsNoItem (s : Scene σ) : SpendsNoItem s s.showNotices := by
  refine s.showNotices_backgrounds.spendsNoItem ?_
  unfold showNotices
  apply List.foldlRecOn (motive := fun t : Scene σ => t.ui.selection = s.ui.selection)
  · rfl
  · intro t ht _ _
    exact ht

theorem checkEnds_spendsNoItem (s : Scene σ) (input : InputState) :
    SpendsNoItem s (s.checkEnds input).2 := by
  have hchecked := s.checkDirector_spendsNoItem
  unfold checkEnds
  split
  · rename_i t ht
    rw [ht] at hchecked
    exact hchecked
  · rename_i t ht
    rw [ht] at hchecked
    have hticked : SpendsNoItem s (t.showNotices.mark .timers).updateTimers.2 :=
      (hchecked.trans (t.showNotices_spendsNoItem.trans (mark_spendsNoItem _ .timers))).trans
        ((updateTimers_backgrounds _).spendsNoItem rfl)
    split
    · rename_i u hu
      rw [hu] at hticked
      exact hticked.trans (u.endBattle_spendsNoItem .abort)
    · rename_i u hu
      rw [hu] at hticked
      have hmarked := hticked.trans (u.mark_spendsNoItem .debugMenu)
      dsimp only
      split
      · exact hmarked.trans (Backgrounds.spendsNoItem (.quiet rfl) rfl)
      · exact hmarked

/-- Nobody who chooses for itself uses an item. -/
theorem enqueueChoice_spendsNoItem (s : Scene σ) (chooser : Chooser) (id : BattlerId) :
    SpendsNoItem s (s.enqueueChoice chooser id) := by
  have hrolled := (chooser.chooseFor_fresh id s.game).2
  have hchosen : SpendsNoItem s (s.modifyGame fun _ => (chooser.chooseFor id s.game).2) := by
    generalize (chooser.chooseFor id s.game).2 = g at hrolled
    have hgame : g = { s.game with dice := g.dice } := hrolled
    rw [hgame]
    exact Backgrounds.spendsNoItem (.quiet rfl) rfl
  exact hchosen.trans (enqueue_spendsNoItem (chooser.chooseFor_item? id s.game))

theorem createEnemyActions_spendsNoItem (s : Scene σ) : SpendsNoItem s s.createEnemyActions := by
  unfold createEnemyActions
  apply List.foldlRecOn (motive := SpendsNoItem s)
  · exact .refl s
  · intro t ht id _
    split
    · exact ht.trans (t.enqueueChoice_spendsNoItem _ id)
    · exact ht

theorem createAutoActions_spendsNoItem (s : Scene σ) : SpendsNoItem s s.createAutoActions := by
  unfold createAutoActions
  apply List.foldlRecOn (motive := SpendsNoItem s)
  · exact .refl s
  · intro t ht id _
    split
    · exact ht.trans (t.enqueueChoice_spendsNoItem _ id)
    · exact ht

variable [AssetLoader σ]

theorem updateRunnersFrom_selection (s : Scene σ) (index left : Nat) :
    (s.updateRunnersFrom index left).2.ui.selection = s.ui.selection := by
  induction left generalizing s index with
  | zero => rfl
  | succ left ih =>
    unfold updateRunnersFrom
    split
    · rfl
    · dsimp only
      split
      · rfl
      · exact ih _ _

theorem runScripts_spendsNoItem (s : Scene σ) : SpendsNoItem s s.runScripts.2 := by
  refine s.runScripts_backgrounds.spendsNoItem ?_
  unfold runScripts
  dsimp only
  rw [updateRunnersFrom_selection]
  exact startForeground_selection _

theorem fillGauges_spendsNoItem (s : Scene σ) : SpendsNoItem s s.fillGauges := by
  refine s.fillGauges_backgrounds.spendsNoItem ?_
  unfold fillGauges
  dsimp only
  apply List.foldlRecOn (motive := fun t : Scene σ => t.ui.selection = s.ui.selection)
  · rfl
  · intro t ht _ _
    exact ht

theorem updateCourse_spendsNoItem (s : Scene σ) : SpendsNoItem s s.updateCourse := by
  have hended := (s.mark_spendsNoItem .endCheck).trans (checkBattleEnd_spendsNoItem _)
  have hcharged (t : Scene σ) : SpendsNoItem t t.updateAtb := by
    unfold updateAtb
    split
    · exact .refl t
    · have hfilled : SpendsNoItem t (if t.isAccumulating then t.fillGauges else t) := by
        split
        · exact t.fillGauges_spendsNoItem
        · exact .refl t
      exact (hfilled.trans (createEnemyActions_spendsNoItem _)).trans
        (createAutoActions_spendsNoItem _)
  exact ((hended.trans (mark_spendsNoItem _ .atb)).trans (hcharged _)).trans
    (s.updateCourse_backgrounds.spendsNoItem rfl)

theorem updateBattle_spendsNoItem (s : Scene σ) (input : InputState) :
    SpendsNoItem s (s.updateBattle input).2 := by
  rw [updateBattle_eq]
  split
  · exact Backgrounds.spendsNoItem (.quiet rfl) rfl
  · have hran :=
      ((s.updatePresentation_spendsNoItem input).trans (mark_spendsNoItem _ .events)).trans
      (runScripts_spendsNoItem _)
    split
    · rename_i t ht
      rw [ht] at hran
      exact hran
    · rename_i t ht
      rw [ht] at hran
      have hchecked :=
        (hran.trans t.checkForceFlee_spendsNoItem).trans (checkEnds_spendsNoItem _ input)
      split
      · rename_i u hu
        rw [hu] at hchecked
        exact hchecked
      · rename_i u hu
        rw [hu] at hchecked
        exact hchecked.trans u.updateCourse_spendsNoItem

theorem resume_spendsNoItem (s : Scene σ) (continuation : Continuation) :
    SpendsNoItem s (s.resume continuation) := by
  cases continuation with
  | finishStart =>
    exact .of_course rfl (Roster.items_eq_of_goods_eq s.finishStart_goods) (.of_log rfl) rfl
  | resumeDirector =>
    exact ((s.updateDirector_backgrounds false).spendsNoItem rfl).trans
      (checkDirector_spendsNoItem _)
  | resumeEvent index =>
    unfold resume
    dsimp only
    split
    · exact .refl s
    · rename_i runner hrunner
      have hran := (s.updateRunner_backgrounds hrunner true).spendsNoItem rfl
      split
      · exact hran.trans ((ask_backgrounds _ _ (by simp)).spendsNoItem rfl)
      · exact hran

theorem requestBackdrop_spendsNoItem (s : Scene σ) : SpendsNoItem s s.requestBackdrop := by
  refine s.requestBackdrop_backgrounds.spendsNoItem ?_
  unfold requestBackdrop
  split <;> rfl

theorem awaitAsset_spendsNoItem (s : Scene σ) : SpendsNoItem s s.awaitAsset.2 := by
  unfold awaitAsset
  split
  · exact .refl s
  · dsimp only
    split
    · refine .trans ?_ (resume_spendsNoItem _ _)
      exact .of_course rfl rfl (.of_log rfl) rfl
    · exact .of_course rfl rfl (.of_log rfl) rfl

theorem enter_spendsNoItem (s : Scene σ) : SpendsNoItem s s.enter.2 := by
  unfold enter
  dsimp only
  split
  · exact .of_course rfl rfl (.of_log rfl) rfl
  · have hcounted :
        SpendsNoItem s { s with steps := [], inputConsumed := false, frame := s.frame + 1 } :=
      .of_course rfl rfl (.of_log rfl) rfl
    exact (hcounted.trans (requestBackdrop_spendsNoItem _)).trans (awaitAsset_spendsNoItem _)

theorem prelude_spendsNoItem (s : Scene σ) (input : InputState) :
    SpendsNoItem s (s.prelude input).2 := by
  have hentered := s.enter_spendsNoItem
  unfold prelude
  generalize s.enter = entered at hentered ⊢
  obtain ⟨_ | _, t⟩ := entered
  · exact hentered
  · have hupdated := hentered.trans (t.updateBattle_spendsNoItem input)
    dsimp only
    generalize t.updateBattle input = updated at hupdated ⊢
    obtain ⟨_ | _, u⟩ := updated
    · exact hupdated
    · exact hupdated.trans (u.mark_spendsNoItem .dispatch)

end Prelude

end Scene

end ActiveBattle
