import ActiveBattle.Proofs.Roster.Goods
import ActiveBattle.Proofs.Scene.History
import ActiveBattle.Proofs.Scene.Turning

/-!
# Dropping stale actions

The next action is taken from a queue after the stale ones at its front are dropped. Which ones are
dropped is told without the loop: the longest prefix of actions whose battlers are gone. What that
leaves of the scene is told battler by battler (`Lapses`): whose turns have passed, and whose
actions are no longer queued.
-/

namespace ActiveBattle

set_option autoImplicit false

/-- What turns of its own and the loss of an action leave of a battler. -/
def Battler.afterTurns (turns : Nat) (dropped : Bool) (b : Battler) : Battler :=
  { b with
    battleTurn := b.battleTurn + turns
    defending := b.defending && turns = 0
    actionQueued := b.actionQueued && !dropped }

theorem Battler.afterTurns_zero : afterTurns 0 false = fun b => b := by
  funext b
  simp [afterTurns]

theorem Battler.afterTurns_one : afterTurns 1 false = nextBattleTurn := by
  funext b
  simp [afterTurns, nextBattleTurn]

theorem Battler.afterTurns_dropped :
    afterTurns 0 true = fun b => { b with actionQueued := false } := by
  funext b
  simp [afterTurns]

theorem Battler.afterTurns_add (b : Battler) (m n : Nat) (c d : Bool) :
    (b.afterTurns m c).afterTurns n d = b.afterTurns (m + n) (c || d) := by
  simp [afterTurns, Int.add_assoc, Bool.and_assoc]

namespace Roster

/-- A battler whose action is stale: missing, hidden, dead, or an actor outside the party. -/
def Gone (r : Roster) (id : BattlerId) : Prop :=
  r.battler? id = none ∨ (∃ b, r.battler? id = some b ∧ (b.hidden = true ∨ b.isDead = true)) ∨
    ∃ actor, id = .actor actor ∧ actor ∉ r.party

/-- The battlers among some that are in the party. A stale action costs these a turn. -/
def members (r : Roster) (ids : List BattlerId) : List BattlerId := ids.filter r.isInParty

theorem members_cons (r : Roster) (id : BattlerId) (rest : List BattlerId) :
    r.members (id :: rest) = r.members [id] ++ r.members rest :=
  List.filter_append [id] rest

/-- What the log tells when the actions of some battlers are dropped, from a count of turns on. -/
def dropEvents (r : Roster) : Int → List BattlerId → List SceneEvent
  | _, [] => []
  | turn, id :: rest =>
    if r.isInParty id then .turnAdvanced id (turn + 1) :: .actionDiscarded id ::
      r.dropEvents (turn + 1) rest
    else .actionDiscarded id :: r.dropEvents turn rest

theorem dropEvents_cons (r : Roster) (turn : Int) (id : BattlerId) (rest : List BattlerId) :
    r.dropEvents turn (id :: rest) =
      r.dropEvents turn [id] ++ r.dropEvents (turn + (r.members [id]).length) rest := by
  unfold members
  rw [dropEvents, dropEvents]
  cases hparty : r.isInParty id <;> simp [hparty, dropEvents]

end Roster

namespace Scene

variable {σ : Type}

theorem canStillAct_iff (s : Scene σ) (id : BattlerId) :
    s.canStillAct id = true ↔ ¬s.roster.Gone id := by
  unfold canStillAct Roster.Gone Roster.isPresent Battler.isPresent
  cases hb : s.roster.battler? id <;> cases id <;>
    simp [BattlerId.isAlly, Roster.isInParty, Roster.isActorInParty]

/-- Turns have passed and queued actions have lapsed, and no battler is otherwise touched. The scene
differs besides in what it has queued, pending and logged, in the step it is at, and in the dice; a
turn lets every page run again. -/
structure Lapses (turned dropped : List BattlerId) (s t : Scene σ) : Prop where
  battlers : ∀ id, t.roster.battler? id =
    (s.roster.battler? id).map (Battler.afterTurns (turned.count id) (decide (id ∈ dropped)))
  roster : t.roster.bare = { s.roster.bare with turns := s.roster.turns + turned.length }
  director : t.director = if turned = [] then s.director else s.director.resetPages
  rest : t = { s with
    queue := t.queue
    pending := t.pending
    actionState := t.actionState
    substate := t.substate
    log := t.log
    director := t.director
    world := { s.world with game := { s.game with roster := t.roster, dice := t.game.dice } } }

namespace Lapses

variable {s t u : Scene σ} {turned turned' dropped dropped' : List BattlerId}

theorem refl (s : Scene σ) : Lapses [] [] s s := by
  refine ⟨fun id => ?_, ?_, rfl, rfl⟩
  · exact (Battler.afterTurns_zero ▸ Option.map_id').symm
  · simp [Roster.bare]

theorem trans (h : Lapses turned dropped s t) (h' : Lapses turned' dropped' t u) :
    Lapses (turned ++ turned') (dropped ++ dropped') s u := by
  refine ⟨fun id => ?_, ?_, ?_, ?_⟩
  · rw [h'.battlers, h.battlers, Option.map_map, List.count_append]
    refine congrArg (fun f => (s.roster.battler? id).map f) (funext fun b => ?_)
    rw [Function.comp_apply, Battler.afterTurns_add]
    simp
  · have hturns : t.roster.turns = s.roster.turns + turned.length :=
      show t.roster.bare.turns = _ by rw [h.roster]
    rw [h'.roster, h.roster, hturns, List.length_append, Int.natCast_add, Int.add_assoc]
  · rw [h'.director, h.director]
    by_cases hturned : turned = [] <;> by_cases hturned' : turned' = [] <;>
      simp [hturned, hturned', Director.resetPages]
  · rw [h'.rest, h.rest]
    rfl

/-- The turn of a battler passes. -/
theorem nextTurn (s : Scene σ) (id : BattlerId) : Lapses [id] [] s (s.nextTurn id) := by
  refine ⟨fun other => ?_, ?_, rfl, rfl⟩
  · have hfound : (s.nextTurn id).roster.battler? other =
        if other = id then (s.roster.battler? id).map (·.nextBattleTurn)
          else s.roster.battler? other :=
      s.roster.incTurns.battler?_modify id other (·.nextBattleTurn) fun _ => rfl
    rw [hfound]
    by_cases hother : other = id
    · subst hother
      rw [if_pos rfl, List.count_singleton_self, decide_eq_false List.not_mem_nil,
        Battler.afterTurns_one]
    · rw [if_neg hother, List.count_singleton, if_neg (by simpa using Ne.symm hother),
        decide_eq_false List.not_mem_nil, Battler.afterTurns_zero, Option.map_id']
  · exact (s.roster.incTurns.modify_bare id _).trans rfl

/-- The action of a battler is no longer queued. -/
theorem unqueue (s : Scene σ) (id : BattlerId) (e : SceneEvent) :
    Lapses [] [id] s ((s.modifyBattler id ({ · with actionQueued := false })).note e) := by
  refine ⟨fun other => ?_, ?_, rfl, rfl⟩
  · have hfound :
        ((s.modifyBattler id ({ · with actionQueued := false })).note e).roster.battler? other =
        if other = id then (s.roster.battler? id).map ({ · with actionQueued := false })
        else s.roster.battler? other :=
      s.roster.battler?_modify id other ({ · with actionQueued := false }) fun _ => rfl
    rw [hfound]
    by_cases hother : other = id
    · subst hother
      rw [if_pos rfl, List.count_nil, decide_eq_true (List.mem_singleton_self other),
        Battler.afterTurns_dropped]
    · rw [if_neg hother, List.count_nil,
        decide_eq_false (by simpa using hother), Battler.afterTurns_zero, Option.map_id']
  · refine (s.roster.modify_bare id _).trans ?_
    simp [Roster.bare]

/-- Only what is queued or pending, the step, and the dice differ. -/
theorem of_roster {s t : Scene σ}
    (hroster : t.roster = s.roster) (hdirector : t.director = s.director)
    (hrest : t = { s with
      queue := t.queue
      pending := t.pending
      actionState := t.actionState
      substate := t.substate
      log := t.log
      director := t.director
      world := { s.world with game := { s.game with roster := t.roster, dice := t.game.dice } } }) :
    Lapses [] [] s t := by
  refine ⟨fun id => ?_, ?_, hdirector, hrest⟩
  · rw [hroster]
    exact (refl s).battlers id
  · rw [hroster]
    exact (refl s).roster

/-- Who is gone stays gone, and nobody goes. -/
theorem gone_iff (h : Lapses turned dropped s t) (id : BattlerId) :
    t.roster.Gone id ↔ s.roster.Gone id := by
  have hparty : t.roster.party = s.roster.party :=
    show t.roster.bare.party = _ by rw [h.roster]; rfl
  unfold Roster.Gone
  rw [h.battlers, hparty]
  cases s.roster.battler? id with
  | none => simp
  | some b => simp [Battler.afterTurns, Battler.isDead, Battler.hasState]

theorem isInParty (h : Lapses turned dropped s t) (id : BattlerId) :
    t.roster.isInParty id = s.roster.isInParty id := by
  have hparty : t.roster.party = s.roster.party :=
    show t.roster.bare.party = _ by rw [h.roster]; rfl
  unfold Roster.isInParty Roster.isActorInParty
  rw [hparty]

theorem turns (h : Lapses turned dropped s t) : t.roster.turns = s.roster.turns + turned.length :=
  show t.roster.bare.turns = _ by rw [h.roster]

/-- A stale action is dropped; its battler loses a turn if it is in the party. -/
theorem discard (s : Scene σ) (id : BattlerId) :
    Lapses (s.roster.members [id]) [id] s (s.discard id) := by
  unfold Scene.discard Roster.members
  cases hparty : s.roster.isInParty id with
  | true =>
    simp only [if_true, List.filter_cons, hparty, List.filter_nil]
    exact (nextTurn s id).trans (unqueue _ id _)
  | false =>
    simp only [List.filter_cons, hparty, List.filter_nil]
    exact unqueue s id _

end Lapses

theorem discard_events (s : Scene σ) (id : BattlerId) :
    (s.discard id).events = s.events ++ s.roster.dropEvents s.roster.turns [id] := by
  unfold discard Roster.dropEvents
  rw [note_events]
  cases hparty : s.roster.isInParty id with
  | true =>
    have hturn : (s.nextTurn id).events =
        s.events ++ [.turnAdvanced id (s.nextTurn id).roster.turns] :=
      note_events _ _
    rw [(Lapses.nextTurn s id).turns] at hturn
    exact (congrArg (· ++ [.actionDiscarded id]) hturn).trans (List.append_assoc _ _ _)
  | false => rfl

namespace Lapses

variable {s t : Scene σ} {turned dropped : List BattlerId}

theorem members_eq (h : Lapses turned dropped s t) (ids : List BattlerId) :
    t.roster.members ids = s.roster.members ids :=
  List.filter_congr fun id _ => h.isInParty id

theorem dropEvents_eq (h : Lapses turned dropped s t) (turn : Int) (ids : List BattlerId) :
    t.roster.dropEvents turn ids = s.roster.dropEvents turn ids := by
  induction ids generalizing turn with
  | nil => rfl
  | cons id rest ih => rw [Roster.dropEvents, Roster.dropEvents, h.isInParty, ih, ih]

end Lapses

/-- The longest prefix of stale actions is dropped. -/
theorem discardStale_lapses (s : Scene σ) (queue : List Action) :
    ∃ stale left, queue = stale ++ left ∧ (∀ a ∈ stale, s.roster.Gone a.source) ∧
      (∀ a ∈ left.head?, ¬s.roster.Gone a.source) ∧
      Lapses (s.roster.members (stale.map (·.source))) (stale.map (·.source)) s
        (s.discardStale queue) ∧
      (s.discardStale queue).queue = left ∧
      (s.discardStale queue).events =
        s.events ++ s.roster.dropEvents s.roster.turns (stale.map (·.source)) := by
  induction queue generalizing s with
  | nil =>
    refine ⟨[], [], rfl, by simp, by simp, .of_roster rfl rfl rfl, rfl, ?_⟩
    exact (List.append_nil _).symm
  | cons a rest ih =>
    unfold discardStale
    split
    · rename_i hact
      refine ⟨[], a :: rest, rfl, by simp, ?_, .of_roster rfl rfl rfl, rfl,
        (List.append_nil _).symm⟩
      intro b hb
      obtain rfl := Option.some.inj hb
      exact (s.canStillAct_iff _).mp hact
    · rename_i hstale
      rw [canStillAct_iff, not_not] at hstale
      have hone := Lapses.discard s a.source
      obtain ⟨stale, left, hsplit, hgone, hleft, hlapses, hqueue, hevents⟩ :=
        ih (s.discard a.source)
      refine ⟨a :: stale, left, by rw [hsplit, List.cons_append], ?_, ?_, ?_, hqueue, ?_⟩
      · intro b hb
        rcases List.mem_cons.mp hb with rfl | hb
        · exact hstale
        · exact (hone.gone_iff _).mp (hgone b hb)
      · exact fun b hb hbgone => hleft b hb ((hone.gone_iff _).mpr hbgone)
      · rw [List.map_cons, Roster.members_cons, ← hone.members_eq (stale.map (·.source))]
        exact hone.trans hlapses
      · rw [hevents, discard_events, hone.dropEvents_eq, hone.turns, List.append_assoc,
          List.map_cons, Roster.dropEvents_cons s.roster _ a.source (stale.map (·.source))]

/-- An action is taken from the queue: it is pending, as it was prepared after the stale ones were
dropped, which rolls no dice, and the turn of its battler passes. -/
structure Takes (stale : List BattlerId) (a : Action) (rest : List Action) (s t : Scene σ) :
    Prop where
  able : ¬s.roster.Gone a.source
  lapses : Lapses (s.roster.members stale ++ [a.source]) stale s t
  events : t.events =
    s.events ++ s.roster.dropEvents s.roster.turns stale ++ [.turnAdvanced a.source t.roster.turns]
  queue : t.queue = rest
  pending : ∃ u, Lapses (s.roster.members stale) stale s u ∧ u.game.dice = s.game.dice ∧
    u.queue = rest ∧ (u.prepare a).1.source = a.source ∧ t.pending = some (u.prepare a).1 ∧
    t.game.dice = (u.prepare a).2.game.dice
  begins : t.actionState = .begin
  step : t.substate = preEvents

/-- No action is left, and the next step of the scene leaves the state. (Where a battle gets by
itself, it entered the state from another one: `Routed.battle`.) -/
structure Exhausts [AssetLoader σ] (stale : List BattlerId) (s t : Scene σ) : Prop where
  lapses : Lapses (s.roster.members stale) stale s t
  events : t.events = s.events ++ s.roster.dropEvents s.roster.turns stale
  queue : t.queue = []
  pending : t.pending = s.pending
  stage : t.actionState = s.actionState
  dice : t.game.dice = s.game.dice
  step : t.substate = afterBattle
  leaves : t.processBattle = (t.setState t.stateAfterBattle).yield
  elsewhere : s.previousState ≠ .battle → t.stateAfterBattle ≠ .battle

theorem prepare_source (s : Scene σ) (a : Action) : (s.prepare a).1.source = a.source := by
  rcases (s.prepare_cases a).1 with h | h
  · rw [h]
  · exact h.source

theorem stateAfterBattle_ne {s : Scene σ} (h : s.previousState ≠ .battle) :
    s.stateAfterBattle ≠ .battle := by
  unfold stateAfterBattle
  split
  · exact h
  · split <;> decide

theorem discardStale_kept (s : Scene σ) (queue : List Action) :
    (s.discardStale queue).pending = s.pending ∧ (s.discardStale queue).actionState =
      s.actionState ∧
      (s.discardStale queue).game.dice = s.game.dice := by
  have hone (s : Scene σ) (id : BattlerId) : (s.discard id).pending = s.pending ∧
      (s.discard id).actionState = s.actionState ∧ (s.discard id).game.dice = s.game.dice := by
    unfold discard
    dsimp only
    split <;> exact ⟨rfl, rfl, rfl⟩
  induction queue generalizing s with
  | nil => exact ⟨rfl, rfl, rfl⟩
  | cons a rest ih =>
    unfold discardStale
    split
    · exact ⟨rfl, rfl, rfl⟩
    · obtain ⟨hpending, hstage, hdice⟩ := ih (s.discard a.source)
      obtain ⟨hpending', hstage', hdice'⟩ := hone s a.source
      exact ⟨hpending.trans hpending', hstage.trans hstage', hdice.trans hdice'⟩

theorem takeAction_nil {s : Scene σ} (h : (s.discardStale s.queue).queue = []) :
    s.takeAction = (s.discardStale s.queue).setSubstate afterBattle := by
  unfold takeAction
  dsimp only
  rw [h]

theorem takeAction_cons {s : Scene σ} {a : Action} {rest : List Action}
    (h : (s.discardStale s.queue).queue = a :: rest) :
    s.takeAction =
      ({ (({ s.discardStale s.queue with queue := rest } : Scene σ).prepare a).2 with
          pending := some (({ s.discardStale s.queue with queue := rest } : Scene σ).prepare a).1
          actionState := .begin }.setSubstate preEvents).nextTurn
        (({ s.discardStale s.queue with queue := rest } : Scene σ).prepare a).1.source := by
  unfold takeAction
  dsimp only
  rw [h]

theorem processBattle_of_le [AssetLoader σ] {s : Scene σ} (h : s.substate ≤ 1) : s.processBattle =
    if s.takeAction.substate = preEvents then s.takeAction.processPrepared
      else s.takeAction.goOn := by
  have hstep : s.substate = 0 ∨ s.substate = 1 := by omega
  unfold processBattle
  rcases hstep with hstep | hstep <;> rw [hstep] <;> rfl

theorem processBattle_of_afterBattle [AssetLoader σ] {s : Scene σ} (h : s.substate = afterBattle) :
    s.processBattle = (s.setState s.stateAfterBattle).yield := by
  unfold processBattle
  rw [h]
  rfl

section Outcomes

variable [AssetLoader σ] {s : Scene σ} {stale : List BattlerId}

theorem takeAction_exhausts
    (hlapses : Lapses (s.roster.members stale) stale s (s.discardStale s.queue))
    (hevents : (s.discardStale s.queue).events =
      s.events ++ s.roster.dropEvents s.roster.turns stale)
    (hqueue : (s.discardStale s.queue).queue = []) : Exhausts stale s s.takeAction := by
  obtain ⟨hpending, hstage, hdice⟩ := s.discardStale_kept s.queue
  have hprevious : (s.discardStale s.queue).previousState = s.previousState :=
    congrArg Course.previousState (s.discardStale_course s.queue)
  have hmoved :=
    hlapses.trans (.of_roster (t := (s.discardStale s.queue).setSubstate afterBattle) rfl rfl rfl)
  rw [List.append_nil, List.append_nil] at hmoved
  rw [takeAction_nil hqueue]
  exact
    { lapses := hmoved
      events := hevents
      queue := hqueue
      pending := hpending
      stage := hstage
      dice := hdice
      step := rfl
      leaves := processBattle_of_afterBattle rfl
      elsewhere := fun h => stateAfterBattle_ne (hprevious.trans_ne h) }

omit [AssetLoader σ] in
theorem takeAction_takes {a : Action} {rest : List Action}
    (hlapses : Lapses (s.roster.members stale) stale s (s.discardStale s.queue))
    (hevents : (s.discardStale s.queue).events =
      s.events ++ s.roster.dropEvents s.roster.turns stale)
    (hqueue : (s.discardStale s.queue).queue = a :: rest) (hable : ¬s.roster.Gone a.source) :
    Takes stale a rest s s.takeAction := by
  have hrequeued := hlapses.trans
    (.of_roster (t := ({ s.discardStale s.queue with queue := rest } : Scene σ)) rfl rfl rfl)
  rw [List.append_nil, List.append_nil] at hrequeued
  rw [takeAction_cons hqueue]
  change ({ s.discardStale s.queue with queue := rest } : Scene σ).events = _ at hevents
  have hrest : ({ s.discardStale s.queue with queue := rest } : Scene σ).queue = rest := rfl
  have hdice : ({ s.discardStale s.queue with queue := rest } : Scene σ).game.dice = s.game.dice :=
    (s.discardStale_kept s.queue).2.2
  generalize ({ s.discardStale s.queue with queue := rest } : Scene σ) =
    u at hrequeued hevents hrest hdice ⊢
  -- Preparing rolls dice at most, so the battlers it leaves are those of `u`.
  obtain ⟨-, g, hrolled, hprepared⟩ := u.prepare_cases a
  have hsource := u.prepare_source a
  have htaken : Lapses [] [] u ({ (u.prepare a).2 with
      pending := some (u.prepare a).1, actionState := .begin }.setSubstate preEvents) := by
    rw [hprepared]
    have hgame : g = { u.game with roster := g.roster, dice := g.dice } := by
      rw [hrolled.roster]
      exact hrolled
    refine .of_roster hrolled.roster rfl ?_
    exact congrArg (fun game => ({ u with
      pending := some (u.prepare a).1
      actionState := .begin
      substate := preEvents
      world := { u.world with game := game } } : Scene σ)) hgame
  have hturned := (hrequeued.trans htaken).trans (.nextTurn _ (u.prepare a).1.source)
  rw [List.append_nil, List.append_nil, List.append_nil, hsource] at hturned
  refine
    { able := hable
      lapses := ?_
      events := ?_
      queue := ?_
      pending := ⟨u, hrequeued, hdice, hrest, hsource, rfl, rfl⟩
      begins := rfl
      step := rfl }
  · rw [hsource]
    exact hturned
  · rw [← hevents, hsource]
    refine (note_events _ _).trans (congrArg (· ++ _) (events_eq_of_log ?_))
    change (u.prepare a).2.log = u.log
    rw [hprepared]
    rfl
  · exact (congrArg Scene.queue hprepared).trans hrest

end Outcomes

/-- The stale actions at the front of the queue are dropped, no more and no fewer; the first of the
others, if there is one, is taken, and the rest stays queued. -/
theorem takeAction_drops [AssetLoader σ] (s : Scene σ) :
    ∃ stale left, s.queue = stale ++ left ∧ (∀ a ∈ stale, s.roster.Gone a.source) ∧
      ((left = [] ∧ Exhausts (stale.map (·.source)) s s.takeAction ∧
          (s.substate ≤ 1 → s.processBattle = s.takeAction.goOn)) ∨
        ∃ a rest, left = a :: rest ∧ Takes (stale.map (·.source)) a rest s s.takeAction ∧
          (s.substate ≤ 1 → s.processBattle = s.takeAction.processPrepared)) := by
  obtain ⟨stale, left, hsplit, hgone, hleft, hlapses, hqueue, hevents⟩ :=
    s.discardStale_lapses s.queue
  refine ⟨stale, left, hsplit, hgone, ?_⟩
  cases left with
  | nil =>
    have hexhausts := takeAction_exhausts hlapses hevents hqueue
    refine .inl ⟨rfl, hexhausts, fun hsub => ?_⟩
    rw [processBattle_of_le hsub, hexhausts.step, if_neg (by decide)]
  | cons a rest =>
    have htakes := takeAction_takes hlapses hevents hqueue (hleft a rfl)
    refine .inr ⟨a, rest, rfl, htakes, fun hsub => ?_⟩
    rw [processBattle_of_le hsub, if_pos htakes.step]

end Scene

end ActiveBattle
