import ActiveBattle.Proofs.Roster.Goods
import ActiveBattle.Proofs.Roster.Setup
import ActiveBattle.Proofs.Scene.History
import ActiveBattle.Proofs.Script.Scheduling

/-!
# Turns and pages in the log

A battle keeps books in two places: the roster counts turns and the director remembers which pages
ran, while the log has a line for each of them. A step puts down nothing, a page, or a turn
(`Booking`), so the two never disagree: between two turns no page runs twice, and all turns of all
battlers are in the log.
-/

namespace ActiveBattle

set_option autoImplicit false

namespace SceneEvent

/-- The troop page that is scheduled. -/
def page? : SceneEvent → Option Nat
  | .pageScheduled page _ => some page
  | _ => none

/-- The battler whose turn begins, or is lost. -/
def turn? : SceneEvent → Option BattlerId
  | .turnAdvanced id _ => some id
  | _ => none

end SceneEvent

theorem Roster.Differs.bare_eq {R : Battler → Battler → Prop} {r r' : Roster} (h : r.Differs R r') :
    r'.bare = r.bare := by
  rw [h.rest]
  rfl

namespace Director

/-- What the director does about pages: it goes to one that has not run, or to none. -/
theorem schedule_cases (d : Director) (store : ProgramStore) (g : GameState)
    (required : ConditionFlags) (source : Option BattlerId)
    (hwhole : d.executed.length = store.pageCount) :
    ((d.schedule store g required source).1 = 0 ∧
        (d.schedule store g required source).2.executed = d.executed) ∨
      ∃ index, (d.schedule store g required source).1 = index + 1 ∧
        d.executed[index]? = some false ∧
        (d.schedule store g required source).2.executed = d.executed.set index true := by
  -- The ledger spans all pages, so nothing of it is cut off or filled in.
  have hledger : d.ledger store.troop.pages.length = d.executed := by
    have hlength : store.troop.pages.length = d.executed.length := hwhole.symm
    unfold ledger
    rw [hlength, List.take_left' rfl]
  unfold schedule
  split
  · exact .inl ⟨rfl, rfl⟩
  · dsimp only
    rw [hledger]
    split
    · rename_i index page hnext
      refine .inr ⟨index, rfl, ?_, rfl⟩
      obtain ⟨i, hfound, hpage⟩ := Option.bind_eq_some_iff.mp hnext
      obtain ⟨page', hpage', heq⟩ := Option.map_eq_some_iff.mp hpage
      obtain ⟨rfl, -⟩ := Prod.mk.inj heq
      rw [hledger] at hfound
      obtain ⟨hlt, heligible, -⟩ := List.findIdx?_eq_some_iff_getElem.mp hfound
      rw [List.getElem_zip] at heligible
      have hlt' : i < d.executed.length := by
        rw [List.length_zip] at hlt
        omega
      rw [List.getElem?_eq_getElem hlt']
      simp only [isEligible, Bool.and_eq_true, Bool.not_eq_true'] at heligible
      rw [heligible.1.1]
    · exact .inl ⟨rfl, rfl⟩

end Director

namespace Scene

variable {σ : Type}

/-- Whose turns have begun or were lost, as the log tells. -/
def turnsTaken (s : Scene σ) : List BattlerId := s.events.filterMap (·.turn?)

/-- Neither a page nor a turn is put down. -/
structure Unbooked (s t : Scene σ) : Prop where
  store : t.store = s.store
  executed : t.director.executed = s.director.executed
  turns : t.roster.turns = s.roster.turns
  battlers : s.roster.Pointwise Battler.SameTurns t.roster
  events : t.events = s.events ∨ ∃ e : SceneEvent, e.page? = none ∧ e.turn? = none ∧
    t.events = s.events ++ [e]

/-- What a step puts down: nothing, a page, or a turn. -/
inductive Booking (s : Scene σ) : Scene σ → Prop
  | none {t : Scene σ} (h : Unbooked s t) : Booking s t
  | page (trigger : EventTrigger) (source : Option BattlerId) : Booking s
    (s.schedulePage trigger source)
  | turn (id : BattlerId) : Booking s (s.nextTurn id)

def Bookings : Scene σ → Scene σ → Prop := Relation.ReflTransGen Booking

namespace Unbooked

variable {s t : Scene σ}

theorem of_roster_eq (hstore : t.store = s.store)
    (hexecuted : t.director.executed = s.director.executed) (hroster : t.roster = s.roster)
    (hevents : t.events = s.events ∨ ∃ e : SceneEvent, e.page? = none ∧ e.turn? = none ∧
      t.events = s.events ++ [e]) :
    Unbooked s t := by
  refine ⟨hstore, hexecuted, congrArg Roster.turns hroster, ?_, hevents⟩
  rw [hroster]
  exact .refl Battler.SameTurns.refl _

theorem note (s : Scene σ) {e : SceneEvent} (hpage : e.page? = none) (hturn : e.turn? = none) :
    Unbooked s (s.note e) :=
  of_roster_eq rfl rfl rfl (.inr ⟨e, hpage, hturn, s.note_events e⟩)

/-- Only the battlers change, and none of them in the turns it has had. -/
theorem of_battlers (hstore : t.store = s.store) (hdirector : t.director = s.director)
    (hlog : t.log = s.log) (hbare : t.roster.bare = s.roster.bare)
    (hbattlers : s.roster.Pointwise Battler.SameTurns t.roster) :
    Unbooked s t :=
  ⟨hstore, congrArg Director.executed hdirector, Roster.turns_eq_of_bare_eq hbare, hbattlers,
    .inl (events_eq_of_log hlog)⟩

theorem of_differs {R : Battler → Battler → Prop} (hroster : s.roster.Differs R t.roster)
    (hR : ∀ b b', R b b' → Battler.SameTurns b b')
    (h : t.core = { s.core with roster := t.roster }) :
    Unbooked s t :=
  .of_battlers (congrArg (Course.store ∘ Core.toCourse) h) (congrArg Core.director h)
    (congrArg Core.log h) hroster.bare_eq (hroster.battlers.imp hR)

theorem of_ran (hran : Ran s t) (hstore : t.store = s.store) (hlog : t.log = s.log) :
    Unbooked s t :=
  ⟨hstore, hran.ledger, hran.game.turns,
    hran.game.battlers (fun _ _ h => h.sameTurns) fun _ _ h => h.sameTurns,
    .inl (events_eq_of_log hlog)⟩

end Unbooked

theorem modifyBattler_unbooked (s : Scene σ) (id : BattlerId) (f : Battler → Battler)
    (h : ∀ b, Battler.SameTurns b (f b)) : Unbooked s (s.modifyBattler id f) :=
  .of_battlers rfl rfl rfl (s.roster.modify_bare id f)
    (.modify Battler.SameTurns.refl s.roster id f fun b _ => h b)

theorem healStates_bookings (s : Scene σ) (ids : List BattlerId) :
    Bookings s (s.healStates ids) := by
  induction ids generalizing s with
  | nil => exact .refl
  | cons id rest ih =>
    refine .trans (.single (.none (s.modifyBattler_unbooked id _ fun b => ?_))) (ih _)
    exact ⟨rfl, rfl⟩

theorem grantRewards_unbooked (s : Scene σ) : Unbooked s s.grantRewards :=
  ⟨rfl, rfl, s.roster.grant_turns ⟨s.roster.party, s.expReward, s.goldReward, s.dropReward⟩,
    s.grantRewards_battlers Battler.SameTurns.refl Battler.SameTurns.trans, .inl rfl⟩

theorem Effect.bookings {s t : Scene σ} (h : Effect s t) : Bookings s t := by
  have modified (actor : Int) (f : Battler → Battler) (hf : ∀ b, Battler.SameTurns b (f b)) :
      Bookings s (s.modifyRoster (·.modifyActor actor f)) :=
    .single (.none (s.modifyBattler_unbooked (.actor actor) f hf))
  cases h with
  | quiet h =>
    exact .single
      (.none (.of_battlers (congrArg (Course.store ∘ Core.toCourse) h) (congrArg Core.director h)
      (congrArg Core.log h) (congrArg (Roster.bare ∘ Core.roster) h)
      (by
        rw [show t.roster = s.roster from congrArg Core.roster h]
        exact .refl Battler.SameTurns.refl _)))
  | hook hran h =>
    exact .single
      (.none (.of_ran hran (congrArg (Course.store ∘ Core.toCourse) h) (congrArg Core.log h)))
  | page trigger source _ => exact .single (.page trigger source)
  | pose hroster h => exact .single (.none (.of_differs hroster (fun _ _ h => h.sameTurns) h))
  | wear _ => exact s.healStates_bookings _
  | ache _ hroster h =>
    exact .single (.none (.of_differs hroster (fun _ _ h => (h.struck s.database).sameTurns) h))
  | pay hroster h =>
    exact .single (.none (.of_differs hroster (fun _ _ h => (h.struck s.database).sameTurns) h))
  | strike _ _ hroster h => exact .single (.none (.of_differs hroster (fun _ _ h => h.sameTurns) h))
  | consume item =>
    exact .single (.none ⟨rfl, rfl, rfl, .of_goods Battler.SameTurns.refl rfl rfl rfl, .inl rfl⟩)
  | reward _ _ => exact .single (.none s.grantRewards_unbooked)
  | turn id => exact .single (.turn id)
  | announce a _ => exact .single (.none (.of_roster_eq rfl rfl rfl (.inl rfl)))
  | swapRow actor index a _ _ => exact modified actor _ fun _ => ⟨rfl, rfl⟩
  | forget actor => exact modified actor _ fun _ => ⟨rfl, rfl⟩
  | spend actor => exact modified actor _ fun _ => ⟨rfl, rfl⟩

theorem finishStart_unbooked (s : Scene σ) : Unbooked s s.finishStart :=
  .of_battlers rfl rfl rfl (Formation.arrange_bare _ _ _ _ _ _)
    (s.finishStart_arranged.imp fun _ _ h => h.sameTurns)

theorem Background.bookings {s t : Scene σ} (h : Background s t) : Bookings s t := by
  cases h with
  | quiet h =>
    exact .single (.none (.of_roster_eq (congrArg (Course.store ∘ Core.toCourse) h)
      (congrArg (Director.executed ∘ Core.director) h) (congrArg Core.roster h)
      (.inl (events_eq_of_log (congrArg Core.log h)))))
  | opened backdrop => exact .single (.none (.note s rfl rfl))
  | script hran h =>
    exact .single
      (.none (.of_ran hran (congrArg (Course.store ∘ Core.toCourse) h) (congrArg Core.log h)))
  | pose hroster h => exact .single (.none (.of_differs hroster (fun _ _ h => h.sameTurns) h))
  | placed => exact .single (.none s.finishStart_unbooked)
  | fill =>
    exact .single (.none (.of_battlers rfl rfl rfl (Roster.fillGauges_bare _ _ _ _ _ _)
      ((s.roster.updateGauges_arranged _ _ _).imp fun _ _ h => h.sameTurns)))
  | tick => exact .single (.none (.of_roster_eq rfl rfl rfl (.inl rfl)))

theorem setState_unbooked (s : Scene σ) (next : SceneState) : Unbooked s (s.setState next) :=
  .of_roster_eq rfl rfl rfl (.inr ⟨.stateChanged s.state next, rfl, rfl, s.setState_events next⟩)

theorem enlist_unbooked (s : Scene σ) (a : Action) : Unbooked s (s.enlist a) := by
  have hmarked := s.modifyBattler_unbooked a.source (s.marking a) fun _ => ⟨rfl, rfl⟩
  exact ⟨rfl, rfl, hmarked.turns, hmarked.battlers,
    .inr ⟨.actionQueued a.source a.kind, rfl, rfl, note_events _ _⟩⟩

theorem enqueue_bookings (s : Scene σ) (a : Action) : Bookings s (s.enqueue a) := by
  have hlisted : Bookings s (s.enlist a) := .single (.none (s.enlist_unbooked a))
  rcases s.enqueue_cases a with ⟨-, h⟩ | ⟨b, -, ⟨-, h⟩ | ⟨-, h⟩⟩
  · rw [h]
    exact .refl
  · rw [h]
    exact hlisted.tail (.none (setState_unbooked _ _))
  · rw [h]
    exact hlisted

theorem endBattle_bookings (s : Scene σ) (result : BattleResult) :
    Bookings s (s.endBattle result) := by
  unfold endBattle
  split
  · exact .refl
  · have hidle : s.roster.Pointwise Battler.SameTurns
        { s.roster with
          actors := s.roster.actors.map ({ · with actionQueued := false })
          enemies := s.roster.enemies.map ({ · with actionQueued := false }) } :=
      .map s.roster _ _ (fun _ _ => ⟨rfl, rfl⟩) fun _ _ => ⟨rfl, rfl⟩
    exact .single (.none ⟨rfl, rfl,
      rfl, hidle, .inr ⟨.battleEnded result, rfl, rfl, note_events _ _⟩⟩)

/-- A party member whose action is dropped loses its turn, which counts. -/
theorem discard_bookings (s : Scene σ) (source : BattlerId) : Bookings s (s.discard source) := by
  have dropped (t : Scene σ) : Bookings t
      ((t.modifyBattler source ({ · with actionQueued := false })).note
        (.actionDiscarded source)) := by
    have hunmarked :=
      t.modifyBattler_unbooked source ({ · with actionQueued := false }) fun _ => ⟨rfl, rfl⟩
    exact .single (.none ⟨rfl, rfl, hunmarked.turns, hunmarked.battlers,
      .inr ⟨.actionDiscarded source, rfl, rfl, note_events _ _⟩⟩)
  unfold discard
  dsimp only
  split
  · exact .head (.turn source) (dropped _)
  · exact dropped s

theorem Deed.bookings {s t : Scene σ} (h : Deed s t) : Bookings s t := by
  have still {u : Scene σ} (hexecuted : u.director.executed = s.director.executed)
    (hstore : u.store = s.store)
      (hroster : u.roster = s.roster) (hlog : u.log = s.log) : Bookings s u :=
    .single (.none (.of_roster_eq hstore hexecuted hroster (.inl (events_eq_of_log hlog))))
  cases h with
  | effect h => exact h.bookings
  | go _ => exact .single (.none (s.setState_unbooked _))
  | command id _ _ =>
    exact .single (.none (.of_roster_eq rfl rfl rfl (.inr ⟨_, rfl, rfl, setState_events _ _⟩)))
  | leave _ =>
    exact .single (.none (.of_roster_eq rfl rfl rfl (.inr ⟨_, rfl, rfl, setState_events _ _⟩)))
  | order a _ _ _ _ => exact s.enqueue_bookings a
  | discard a rest _ _ _ _ =>
    exact (s.discard_bookings a.source).tail (.none (.of_roster_eq rfl rfl rfl (.inl rfl)))
  | pass _ _ h => cases h <;> exact still rfl rfl rfl rfl
  | release a _ h =>
    rw [releasePending_eq h]
    have hunmarked :=
      s.modifyBattler_unbooked a.source ({ · with actionQueued := false }) fun _ => ⟨rfl, rfl⟩
    exact .single (.none ⟨rfl, rfl, hunmarked.turns, hunmarked.battlers, .inl rfl⟩)
  | _ => exact still rfl rfl rfl rfl

theorem Verdict.bookings {s t : Scene σ} (h : Verdict s t) : Bookings s t := by
  cases h <;> exact .single (.none (s.setState_unbooked _))

theorem Step.bookings {s t : Scene σ} (h : Step s t) : Bookings s t := by
  cases h with
  | deed h => exact h.bookings
  | close h =>
    cases h with
    | done => exact .refl
    | decided h => exact h.bookings
    | launched a a' _ _ _ _ _ =>
      exact .single (.none (.of_roster_eq rfl rfl rfl (.inr ⟨_, rfl, rfl, s.launch_events a'⟩)))
    | ended _ => exact s.endBattle_bookings _
  | interlude h =>
    cases h with
    | background h => exact h.bookings
    | decided h => exact h.bookings
    | choose a _ _ _ => exact s.enqueue_bookings a
    | finish result _ => exact s.endBattle_bookings result
    | flee _ _ => exact .single (.none (s.setState_unbooked _))
    | overturn _ _ => exact .single (.none (s.setState_unbooked _))

theorem Path.bookings {s t : Scene σ} {lost : List BattlerId} (h : Path Step s lost t) :
    Bookings s t := by
  induction h with
  | refl => exact .refl
  | step _ hstep ih => exact ih.trans hstep.bookings
  | take _ htake ih =>
    cases htake
    exact ih.tail (.none (.of_roster_eq rfl rfl rfl (.inl rfl)))

/-- No page is scheduled twice in a turn: a stretch of the log in which no turn begins has no page
twice. -/
def OncePerTurn (log : List SceneEvent) : Prop :=
  ∀ stretch, stretch <:+: log → (∀ e ∈ stretch, e.turn? = none) →
    (stretch.filterMap (·.page?)).Nodup

/-- The pages that the log has since the last turn all ran. -/
def RanSince (ran : Nat → Bool) (log : List SceneEvent) : Prop :=
  ∀ stretch, stretch <:+ log → (∀ e ∈ stretch, e.turn? = none) →
    ∀ page ∈ stretch.filterMap (·.page?), ran page = true

section Log

variable {log stretch : List SceneEvent} {e : SceneEvent} {ran ran' : Nat → Bool}

/-- A stretch at the end of a longer log is empty or ends with the event that was added. -/
theorem turnless_concat (h : stretch <:+ log ++ [e]) (hturnless : ∀ x ∈ stretch, x.turn? = none) :
    stretch = [] ∨ ∃ front, front <:+ log ∧ (∀ x ∈ front, x.turn? = none) ∧ e.turn? = none ∧
      stretch.filterMap (·.page?) = front.filterMap (·.page?) ++ e.page?.toList := by
  rcases List.suffix_concat_iff.mp h with rfl | ⟨front, rfl, hfront⟩
  · exact .inl rfl
  · refine .inr ⟨front, hfront, fun x hx => hturnless x (List.mem_append_left _ hx),
      hturnless e (List.mem_append_right _ (List.mem_singleton_self e)), ?_⟩
    rw [List.filterMap_append]
    cases hpage : e.page? <;> simp [hpage]

/-- A page may be scheduled that has not run since the last turn. -/
theorem OncePerTurn.concat (h : OncePerTurn log) (hran : RanSince ran log)
    (he : ∀ page, e.page? = some page → ran page = false) : OncePerTurn (log ++ [e]) := by
  intro stretch hstretch hturnless
  -- Only the stretches that end with the new event are new.
  rcases List.infix_concat_iff.mp hstretch with hsuffix | hinfix
  · rcases turnless_concat hsuffix hturnless with rfl | ⟨front, hfront, hquiet, -, hpages⟩
    · exact List.nodup_nil
    · have hnodup := h front hfront.isInfix hquiet
      rw [hpages]
      cases hpage : e.page? with
      | none => simpa using hnodup
      | some page =>
        refine List.nodup_append.mpr ⟨hnodup, List.pairwise_singleton _ _,
          fun page' hpage' q hq heq => ?_⟩
        rw [heq, List.mem_singleton.mp hq] at hpage'
        have hold := hran front hfront hquiet page hpage'
        rw [he page hpage] at hold
        contradiction
  · exact h stretch hinfix hturnless

theorem RanSince.concat (h : RanSince ran log) (hmono : ∀ page, ran page = true → ran' page = true)
    (he : ∀ page, e.page? = some page → ran' page = true) : RanSince ran' (log ++ [e]) := by
  intro stretch hstretch hturnless page hpage
  rcases turnless_concat hstretch hturnless with rfl | ⟨front, hfront, hquiet, -, hpages⟩
  · contradiction
  · rw [hpages] at hpage
    rcases List.mem_append.mp hpage with hpage | hpage
    · exact hmono page (h front hfront hquiet page hpage)
    · exact he page (Option.mem_toList.mp hpage)

/-- A turn has no pages at its beginning. -/
theorem RanSince.of_turn (ran : Nat → Bool) (log : List SceneEvent) {id : BattlerId}
    (he : e.turn? = some id) :
    RanSince ran (log ++ [e]) := by
  intro stretch hstretch hturnless page hpage
  rcases turnless_concat hstretch hturnless with rfl | ⟨_, _, _, hturn, _⟩
  · contradiction
  · rw [he] at hturn
    contradiction

end Log

/-- The books agree with the log. -/
structure Booked (s : Scene σ) : Prop where
  whole : s.director.executed.length = s.store.pageCount
  once : OncePerTurn s.events
  ran : RanSince s.director.isPageExecuted s.events
  turns : s.roster.turns = s.turnsTaken.length
  ownTurns : ∀ (id : BattlerId) (b : Battler), s.roster.battler? id = some b →
    b.battleTurn = s.turnsTaken.count id

theorem turnsTaken_concat {s t : Scene σ} {e : SceneEvent} (h : t.events = s.events ++ [e]) :
    t.turnsTaken = s.turnsTaken ++ e.turn?.toList := by
  unfold turnsTaken
  rw [h, List.filterMap_append]
  cases hturn : e.turn? <;> simp [hturn]

namespace Booked

variable {s t : Scene σ}

theorem unbooked (hs : s.Booked) (h : Unbooked s t) : t.Booked := by
  have hexecuted : t.director.isPageExecuted = s.director.isPageExecuted := by
    funext page
    unfold Director.isPageExecuted
    rw [h.executed]
  have hlog : OncePerTurn t.events ∧
      RanSince s.director.isPageExecuted t.events ∧ t.turnsTaken = s.turnsTaken := by
    rcases h.events with hevents | ⟨e, hpage, hturn, hevents⟩
    · unfold turnsTaken
      rw [hevents]
      exact ⟨hs.once, hs.ran, rfl⟩
    · have htaken := turnsTaken_concat hevents
      rw [hturn, Option.toList_none, List.append_nil] at htaken
      rw [hevents]
      refine ⟨hs.once.concat hs.ran ?_, hs.ran.concat (fun _ => id) ?_, htaken⟩ <;>
        simp [hpage]
  refine ⟨?_, hlog.1, ?_, ?_, fun id b hb => ?_⟩
  · rw [h.executed, h.store]
    exact hs.whole
  · rw [hexecuted]
    exact hlog.2.1
  · rw [h.turns, hlog.2.2]
    exact hs.turns
  · have hrel := h.battlers.battler? (fun _ _ h => h.dbId) id
    rw [hb] at hrel
    generalize hfound : s.roster.battler? id = found at hrel
    cases hrel with
    | some hab => rw [hab.battleTurn, hs.ownTurns id _ hfound, hlog.2.2]

/-- A page that is scheduled has not run since the last turn. -/
theorem schedulePage (hs : s.Booked) (trigger : EventTrigger) (source : Option BattlerId) :
    (s.schedulePage trigger source).Booked := by
  have hcases := s.director.schedule_cases s.store s.game trigger.flags source hs.whole
  unfold Scene.schedulePage
  dsimp only
  rcases hcases with ⟨hnone, hkept⟩ | ⟨index, hpage, hfree, hset⟩
  · rw [hnone, if_neg (Nat.lt_irrefl 0)]
    exact hs.unbooked (.of_roster_eq rfl hkept rfl (.inl rfl))
  · rw [hpage, if_pos (Nat.succ_pos index)]
    generalize (s.director.schedule s.store s.game trigger.flags source).2 = director at hset
    have hexecuted := Director.isPageExecuted_of_set (List.getElem?_eq_some_iff.mp hfree).1 hset
    have hevents :
        ({ s with director := director }.note (.pageScheduled (index + 1) trigger)).events =
        s.events ++ [.pageScheduled (index + 1) trigger] := note_events _ _
    have htaken := (turnsTaken_concat hevents).trans (List.append_nil _)
    refine ⟨?_, ?_, ?_, ?_, fun id b hb => ?_⟩
    · exact (congrArg List.length hset).trans ((List.length_set ..).trans hs.whole)
    · -- The page was free in the ledger, and the ledger has all that ran since the last turn.
      rw [hevents]
      refine hs.once.concat hs.ran fun page hpage => ?_
      obtain rfl := Option.some.inj hpage
      rw [Director.isPageExecuted, List.getD_eq_getElem?_getD, hfree, Option.getD_some]
    · rw [hevents]
      refine hs.ran.concat (fun page hran => ?_) fun page hpage => ?_
      · exact (hexecuted page).trans (by rw [hran, Bool.or_true])
      · obtain rfl := Option.some.inj hpage
        exact (hexecuted (index + 1)).trans (by rw [decide_eq_true rfl, Bool.true_or])
    · rw [htaken]
      exact hs.turns
    · rw [htaken]
      exact hs.ownTurns id b hb

/-- A turn is counted for the party and for its battler, and lets every page run again. -/
theorem nextTurn (hs : s.Booked) (id : BattlerId) : (s.nextTurn id).Booked := by
  have hevents : (s.nextTurn id).events =
      s.events ++ [.turnAdvanced id (s.nextTurn id).roster.turns] :=
    note_events _ _
  have htaken : (s.nextTurn id).turnsTaken = s.turnsTaken ++ [id] := turnsTaken_concat hevents
  refine ⟨(List.length_map _).trans hs.whole, ?_, ?_, ?_, fun other b hb => ?_⟩
  · rw [hevents]
    exact hs.once.concat hs.ran fun _ h => nomatch h
  · rw [hevents]
    exact .of_turn _ _ rfl
  · have hturns : (s.nextTurn id).roster.turns = s.roster.turns + 1 :=
      Roster.turns_eq_of_bare_eq (s.roster.incTurns.modify_bare id _)
    rw [hturns, htaken, hs.turns, List.length_append]
    rfl
  · have hfound : (s.nextTurn id).roster.battler? other =
        if other = id then (s.roster.battler? id).map (·.nextBattleTurn)
          else s.roster.battler? other :=
      s.roster.incTurns.battler?_modify id other (·.nextBattleTurn) fun _ => rfl
    rw [hfound] at hb
    rw [htaken, List.count_append, List.count_singleton]
    split at hb
    · rename_i heq
      obtain ⟨a, ha, rfl⟩ := Option.map_eq_some_iff.mp hb
      rw [heq, Battler.nextBattleTurn, hs.ownTurns id a ha]
      simp
    · rename_i hne
      rw [hs.ownTurns other b hb]
      simp [Ne.symm hne]

theorem bookings (hs : s.Booked) (h : Bookings s t) : t.Booked := by
  induction h with
  | refl => exact hs
  | tail _ hbooking ih =>
    cases hbooking with
    | none h => exact ih.unbooked h
    | page trigger source => exact ih.schedulePage trigger source
    | turn id => exact ih.nextTurn id

end Booked

theorem ofSetup_booked (config : BattleConfig) (database : Database) (setup : BattleSetup)
    (assets : σ) :
    (ofSetup config database setup assets).Booked := by
  refine ⟨List.length_replicate, fun stretch hstretch _ => ?_,
    fun stretch hstretch _ page hpage => ?_, rfl, fun id b hb => ?_⟩
  · rw [List.infix_nil.mp hstretch]
    exact List.nodup_nil
  · rw [List.suffix_nil.mp hstretch] at hpage
    contradiction
  · rcases Roster.mem_ofSetup (Roster.mem_of_battler? hb) with ⟨d, -, rfl⟩ | ⟨i, d,
      member, -, rfl⟩ <;> rfl

end Scene

/-- Where no two actors share an id, a battler is the one its own reference leads to. -/
theorem Roster.Indexed.battler?_id {r : Roster} (h : r.Indexed)
    (hids : (r.actors.map (·.dbId)).Nodup) {b : Battler} (hb : b ∈ r.actors ∨ b ∈ r.enemies) :
    r.battler? b.id = some b := by
  rcases hb with hb | hb
  · rw [h.actors b hb]
    exact Roster.actor?_of_mem hids hb
  · obtain ⟨i, hi⟩ := List.mem_iff_getElem?.mp hb
    rw [h.enemies i b hi]
    exact hi

theorem Roster.Pointwise.dbIds_eq {r r' : Roster} (h : r.Pointwise Battler.SameIdentity r') :
    r'.actors.map (·.dbId) = r.actors.map (·.dbId) :=
  h.map_dbId fun _ _ hidentity => hidentity.dbId

namespace Scene

section Run

variable {σ : Type} [AssetLoader σ]

/-- Between two turns no page is scheduled twice, the roster has counted the turns that the log
tells, and every battler has counted those that are its own. Counters of 32 bits say so for the
first 2147483647 turns. -/
theorem after_turns_and_pages {config : BattleConfig} {database : Database} {setup : BattleSetup}
    {assets : σ} {s : Scene σ} (h : create config database setup assets = .ok s)
    (hids : (database.actors.map (·.id)).Nodup) (inputs : List InputState) :
    OncePerTurn (s.after inputs).events ∧
      (s.after inputs).roster.turns = (s.after inputs).turnsTaken.length ∧
      ∀ b, b ∈ (s.after inputs).roster.actors ∨ b ∈ (s.after inputs).roster.enemies →
        b.battleTurn = (s.after inputs).turnsTaken.count b.id := by
  obtain ⟨-, rfl⟩ := create_eq_ok h
  obtain ⟨lost, hpath⟩ := (reaches_history (ofSetup config database setup assets) inputs).2.2
  have hbooked := (ofSetup_booked config database setup assets).bookings hpath.bookings
  have hidentity := hpath.setting.battlers
  have hindexed := (Roster.ofSetup_indexed database setup.party setup.troop).of_kin hidentity
  -- Of actors with one id a reference finds the first only; here every battler is found by its own.
  have hdbIds :
      (((ofSetup config database setup assets).after inputs).roster.actors.map (·.dbId)).Nodup := by
    rw [hidentity.dbIds_eq]
    have hactors : (ofSetup config database setup assets).roster.actors.map (·.dbId) =
        database.actors.map (·.id) :=
      (List.map_map ..).trans rfl
    rw [hactors]
    exact hids
  exact ⟨hbooked.once, hbooked.turns,
    fun b hb => hbooked.ownTurns b.id b (hindexed.battler?_id hdbIds hb)⟩

end Run

namespace Rounds

def config : BattleConfig where
  battleType := .traditional
  maxAtbGauge := 1
  atbFillFrames := 1
  terms := { battleStart := "", specialCombat := "" }

def database : Database where
  actors := [{ id := 1, name := "A" }]
  enemies := [{ id := 1, name := "E", preemptive := true, actions := [⟨.attack, 1⟩] }]

def setup : BattleSetup where
  party := [1]
  troop :=
    { members := [{ enemyId := 1 }]
      pages := [{ condition := { flags := .ofList [.turn], turnB := 1 }, instructions := [] }] }

def scene : Scene InstantAssets := ofSetup config database setup {}

end Rounds

/-- A page for every turn: it runs at the start and again in the first turn. -/
theorem after_turns_and_pages_of_rounds :
    create Rounds.config Rounds.database Rounds.setup {} = .ok Rounds.scene ∧
      (Rounds.database.actors.map (·.id)).Nodup ∧
      (Rounds.scene.after [{}, {}, {}]).events.filterMap (·.page?) = [1, 1] ∧
      OncePerTurn (Rounds.scene.after [{}, {}, {}]).events ∧
      (Rounds.scene.after [{}, {}, {}]).roster.turns =
        (Rounds.scene.after [{}, {}, {}]).turnsTaken.length ∧
      ∀ b, b ∈ (Rounds.scene.after [{}, {}, {}]).roster.actors ∨
        b ∈ (Rounds.scene.after [{}, {}, {}]).roster.enemies →
        b.battleTurn = (Rounds.scene.after [{}, {}, {}]).turnsTaken.count b.id := by
  have hcreated : create Rounds.config Rounds.database Rounds.setup {} = .ok Rounds.scene := rfl
  have hids : (Rounds.database.actors.map (·.id)).Nodup := by decide
  exact ⟨hcreated, hids, by decide +kernel, after_turns_and_pages hcreated hids [{}, {}, {}]⟩

end Scene

end ActiveBattle
