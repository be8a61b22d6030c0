import Mathlib.Data.List.Nodup
import ActiveBattle.Proofs.Roster.Setup
import ActiveBattle.Proofs.Scene.Routing

/-!
# Admitting actions

A battler is marked while an action of it waits in the queue or is being resolved. The marks and the
actions agree as long as no pending action gives way to another one (`accounted_iff`): the battlers
that lost a pending action stay marked for good, and every other mark stands for exactly one action.
-/

namespace ActiveBattle

set_option autoImplicit false

namespace Roster

/-- An action of the battler is said to wait. -/
def isMarked (r : Roster) (id : BattlerId) : Bool := (r.battler? id).any (·.actionQueued)

theorem Alike.isMarked_eq {r r' : Roster} (h : r.Alike r') (id : BattlerId) :
    r'.isMarked id = r.isMarked id := by
  have hrel := h.battler? (fun _ _ hab => hab.dbId) id
  unfold isMarked
  generalize r.battler? id = found at hrel ⊢
  generalize r'.battler? id = found' at hrel ⊢
  cases hrel with
  | none => rfl
  | some hab => exact hab.actionQueued

theorem isMarked_modify (r : Roster) (id other : BattlerId) (f : Battler → Battler) (mark : Bool)
    (hf : ∀ b, (f b).dbId = b.dbId) (hmark : ∀ b, (f b).actionQueued = mark) :
    (r.modify id f).isMarked other =
      if other = id then (r.battler? id).isSome && mark else r.isMarked other := by
  unfold isMarked
  rw [battler?_modify r id other f hf]
  split
  · cases r.battler? id with
    | none => rfl
    | some b => exact hmark b
  · rfl

theorem isMarked_iff {r : Roster} {id : BattlerId} :
    r.isMarked id = true ↔ ∃ b, r.battler? id = some b ∧ b.actionQueued = true := by
  unfold isMarked
  cases r.battler? id <;> simp

end Roster

namespace Scene

variable {σ : Type}

/-- Whose actions are under way, in the queue or pending. -/
def sources (s : Scene σ) : List BattlerId := (s.queue ++ s.pending.toList).map (·.source)

theorem sources_eq (s : Scene σ) :
    s.sources = s.queue.map (·.source) ++ s.pendingSource.toList := by
  unfold sources pendingSource
  cases s.pending <;> simp

/-- No battler has two actions under way, and exactly those are marked that have one. -/
def Accounted (s : Scene σ) : Prop :=
  (∀ id, s.sources.count id ≤ 1) ∧
    ∀ id b, s.roster.battler? id = some b → (b.actionQueued = true ↔ s.sources.count id = 1)

/-- The marks agree with the actions under way and with the battlers that lost theirs; the actor
whose windows are open, or wait to be, has none. -/
structure Admitted (lost : List BattlerId) (s : Scene σ) : Prop where
  routed : Routed s
  once : s.sources.Nodup
  apart : ∀ id ∈ lost, id ∉ s.sources
  marked : ∀ id, s.roster.isMarked id = true ↔ id ∈ s.sources ∨ id ∈ lost
  window : ∀ actor, s.activeActor = some actor → s.showsMenu = true →
    s.roster.isMarked (.actor actor) = false

/-- The same actions and marks, and no window that was closed. -/
theorem Admitted.transfer {lost : List BattlerId} {s t : Scene σ} (h : Admitted lost s)
    (hrouted : Routed t) (hsources : t.sources = s.sources)
    (hmarked : ∀ id, t.roster.isMarked id = s.roster.isMarked id)
    (hactor : t.activeActor = s.activeActor) (hshows : t.showsMenu = true → s.showsMenu = true) :
    Admitted lost t := by
  refine ⟨hrouted, ?_, ?_, ?_, ?_⟩
  · rw [hsources]
    exact h.once
  · rw [hsources]
    exact h.apart
  · intro id
    rw [hmarked, hsources]
    exact h.marked id
  · intro actor hopen hshown
    rw [hmarked]
    exact h.window actor (hactor ▸ hopen) (hshows hshown)

/-- The mark of one battler is taken away together with its action. -/
theorem Admitted.unmark {lost : List BattlerId} {s t : Scene σ} (source : BattlerId)
    (h : Admitted lost s) (hrouted : Routed t) (hsources : s.sources.Perm (source :: t.sources))
    (hmarked : ∀ id, t.roster.isMarked id = if id = source then false else s.roster.isMarked id)
    (hactor : ∀ actor, t.activeActor = some actor → s.activeActor = some actor)
    (hshows : t.showsMenu = true → s.showsMenu = true) : Admitted lost t := by
  have honce := hsources.nodup_iff.mp h.once
  have hmem (id : BattlerId) : id ∈ s.sources ↔ id = source ∨ id ∈ t.sources := by
    rw [hsources.mem_iff, List.mem_cons]
  refine ⟨hrouted, (List.nodup_cons.mp honce).2, ?_, ?_, ?_⟩
  · exact fun id hid hin => h.apart id hid ((hmem id).mpr (.inr hin))
  · intro id
    rw [hmarked]
    by_cases hid : id = source
    · subst hid
      rw [if_pos rfl]
      refine ⟨fun h => absurd h (by simp), ?_⟩
      intro hin
      rcases hin with hin | hin
      · exact absurd hin (List.nodup_cons.mp honce).1
      · exact absurd ((hmem id).mpr (.inl rfl)) (h.apart id hin)
    · rw [if_neg hid, h.marked, hmem]
      simp [hid]
  · intro actor hopen hshown
    rw [hmarked]
    split
    · rfl
    · exact h.window actor (hactor actor hopen) (hshows hshown)

section Enlist

variable {s : Scene σ} {a : Action}

theorem enlist_sources (s : Scene σ) (a : Action) :
    (s.enlist a).sources.Perm (a.source :: s.sources) := by
  unfold sources
  rw [show (s.enlist a).queue = s.queue ++ [a] from rfl,
    show (s.enlist a).pending = s.pending from rfl, List.append_assoc, List.singleton_append]
  exact List.Perm.map (fun x : Action => x.source) List.perm_middle

theorem enlist_isMarked {b : Battler} (hb : s.roster.battler? a.source = some b) (id : BattlerId) :
    (s.enlist a).roster.isMarked id = if id = a.source then true else s.roster.isMarked id := by
  have hmarked :=
    s.roster.isMarked_modify a.source id (s.marking a) true (fun _ => rfl) (fun _ => rfl)
  rw [hb] at hmarked
  exact hmarked

/-- Queueing an action for a battler that has none; the windows that stay open are another
actor's. -/
theorem Admitted.enlist {lost : List BattlerId} {b : Battler} {t : Scene σ} (h : Admitted lost s)
    (hb : s.roster.battler? a.source = some b) (hfree : s.roster.isMarked a.source = false)
    (hrouted : Routed t) (hroster : t.roster = (s.enlist a).roster)
    (hsources : t.sources = (s.enlist a).sources) (hactor : t.activeActor = s.activeActor)
    (hshows : t.showsMenu = true → s.isFromMenu a = false ∧ s.showsMenu = true) :
    Admitted lost t := by
  have hout : ¬(a.source ∈ s.sources ∨ a.source ∈ lost) := fun hin => by
    rw [(h.marked a.source).mpr hin] at hfree
    contradiction
  have hmem (id : BattlerId) : id ∈ t.sources ↔ id = a.source ∨ id ∈ s.sources := by
    rw [hsources, (s.enlist_sources a).mem_iff, List.mem_cons]
  refine ⟨hrouted, ?_, ?_, ?_, ?_⟩
  · rw [hsources]
    exact (s.enlist_sources a).nodup_iff.mpr
      (List.nodup_cons.mpr ⟨fun hin => hout (.inl hin), h.once⟩)
  · intro id hid hin
    rcases (hmem id).mp hin with rfl | hin
    · exact hout (.inr hid)
    · exact h.apart id hid hin
  · intro id
    rw [hroster, enlist_isMarked hb, hmem]
    split
    · rename_i hid
      simp [hid]
    · rename_i hid
      rw [h.marked]
      simp [hid]
  · intro actor hopen hshown
    obtain ⟨hmenu, hbefore⟩ := hshows hshown
    rw [hactor] at hopen
    rw [hroster, enlist_isMarked hb, if_neg]
    · exact h.window actor hopen hbefore
    · intro hsource
      simp [isFromMenu, ← hsource, hopen] at hmenu

theorem Admitted.enqueue {lost : List BattlerId} (h : Admitted lost s)
    (hfree : s.roster.isMarked a.source = false) : Admitted lost (s.enqueue a) := by
  have hrouted := enqueue_routed h.routed a
  rcases s.enqueue_cases a with ⟨-, henqueue⟩ | ⟨b, hb, ⟨-, henqueue⟩ | ⟨hmenu, henqueue⟩⟩
  · rw [henqueue]
    exact h
  · rw [henqueue] at hrouted ⊢
    apply h.enlist hb hfree hrouted rfl rfl rfl
    intro hshows
    simp [showsMenu, setState, SceneState.isActorMenu] at hshows
  · rw [henqueue] at hrouted ⊢
    exact h.enlist hb hfree hrouted rfl rfl rfl fun hshows => ⟨hmenu, hshows⟩

end Enlist

theorem isFromMenu_eq (s : Scene σ) {a : Action} {actor : Int} (hsource : a.source = .actor actor) :
    s.isFromMenu a = decide (s.activeActor = some actor) := by
  unfold isFromMenu
  rw [hsource]

/-- The action of a battler that is ready is not refused; at its windows it closes them. -/
theorem enqueueChoice_of_ready {s : Scene σ} (chooser : Chooser) {id : BattlerId}
    (hready : s.isIdleAndFull id = true) :
    ∃ a dice, a.Fresh id ∧
      ((s.isFromMenu a = true ∧ s.enqueueChoice chooser id =
          ((s.modifyGame ({ · with dice := dice })).enlist a).setState .selectActor) ∨
        s.isFromMenu a = false ∧ s.enqueueChoice chooser id =
          (s.modifyGame ({ · with dice := dice })).enlist a) := by
  obtain ⟨a, dice, hfresh, heq⟩ := s.enqueueChoice_eq chooser id
  refine ⟨a, dice, hfresh, ?_⟩
  rw [heq]
  rcases (s.modifyGame ({ · with dice := dice })).enqueue_cases a with ⟨hnone, -⟩ | ⟨b, -, hqueued⟩
  · have hmissing : s.roster.battler? id = none := hfresh.source ▸ hnone
    simp [isIdleAndFull, hmissing] at hready
  · exact hqueued

theorem isMarked_of_isIdleAndFull {s : Scene σ} {id : BattlerId} (h : s.isIdleAndFull id = true) :
    s.roster.isMarked id = false := by
  unfold isIdleAndFull at h
  unfold Roster.isMarked
  cases hb : s.roster.battler? id with
  | none => simp [hb] at h
  | some b =>
    simp only [hb, Option.any_some, Bool.and_eq_true, Bool.not_eq_true'] at h
    exact h.2

theorem isMarked_of_isReady {s : Scene σ} {id : Int} (h : s.isReady id = true) :
    s.roster.isMarked (.actor id) = false := by
  unfold isReady at h
  change (s.roster.actor? id).any (·.actionQueued) = false
  cases ha : s.roster.actor? id with
  | none => rfl
  | some b =>
    simp only [ha, Option.any_some, Bool.and_eq_true, Bool.not_eq_true'] at h
    exact h.2.2

theorem discard_isMarked (s : Scene σ) (source id : BattlerId) :
    (s.discard source).roster.isMarked id = if id = source then false
      else s.roster.isMarked id := by
  have hunmarked (t : Scene σ) : ((t.modifyBattler source ({ · with actionQueued := false })).note
      (.actionDiscarded source)).roster.isMarked id =
        if id = source then false else t.roster.isMarked id := by
    have h := t.roster.isMarked_modify source id ({ · with actionQueued := false }) false
      (fun _ => rfl) (fun _ => rfl)
    rw [Bool.and_false] at h
    exact h
  have hturned : (s.nextTurn source).roster.isMarked id = s.roster.isMarked id :=
    (Effect.turn source).alike.isMarked_eq id
  unfold discard
  dsimp only
  rw [hunmarked]
  split
  · rfl
  · split
    · exact hturned
    · rfl

theorem enqueue_result (s : Scene σ) (a : Action) : (s.enqueue a).result = s.result := by
  obtain ⟨-, h⟩ | ⟨b, -, ⟨-, h⟩ | ⟨-, h⟩⟩ := s.enqueue_cases a <;> rw [h] <;> rfl

theorem Deed.result_eq {s t : Scene σ} (h : Deed s t) : t.result = s.result := by
  cases h with
  | effect h => exact congrArg Course.result h.course_eq
  | order a _ _ _ _ => exact s.enqueue_result a
  | discard a rest _ _ _ _ => exact congrArg Course.result (s.discard_course a.source)
  | pass _ _ h => exact congrArg Course.result h.course_eq
  | release a _ h =>
    rw [releasePending_eq h]
    rfl
  | _ => rfl

theorem endBattle_result (s : Scene σ) (result : BattleResult) :
    (s.endBattle result).result ≠ none := by
  unfold endBattle
  split
  · rename_i h
    exact Option.isSome_iff_ne_none.mp h
  · exact fun h => by cases h

theorem Verdict.result_eq {s t : Scene σ} (h : Verdict s t) : t.result = s.result := by
  cases h <;> rfl

theorem Interlude.result_isNone {s t : Scene σ} (h : Interlude s t) (ht : t.result = none) :
    s.result = none := by
  cases h with
  | background h => exact (congrArg Course.result h.course_eq).symm.trans ht
  | decided h => exact h.result_eq.symm.trans ht
  | choose a _ _ _ => exact (s.enqueue_result a).symm.trans ht
  | finish result _ => exact absurd ht (s.endBattle_result result)
  | flee _ _ => exact ht
  | overturn _ _ => exact ht

/-- Once the battle is over it stays so. -/
theorem Step.result_isNone {s t : Scene σ} (h : Step s t) (ht : t.result = none) :
    s.result = none := by
  cases h with
  | deed h => exact h.result_eq.symm.trans ht
  | close h =>
    cases h with
    | done => exact ht
    | decided h => exact h.result_eq.symm.trans ht
    | launched a a' _ _ _ _ _ => exact ht
    | ended _ => exact absurd ht (s.endBattle_result _)
  | interlude h => exact h.result_isNone ht

theorem Admitted.of_background {lost : List BattlerId} {s t : Scene σ} (hs : Admitted lost s)
    (hrouted : Routed t) (hcourse : t.course = s.course)
    (halike : s.roster.Alike t.roster) : Admitted lost t := by
  refine hs.transfer hrouted ?_ halike.isMarked_eq (congrArg Course.activeActor hcourse) ?_
  · unfold sources
    rw [show t.queue = s.queue from congrArg Course.queue hcourse,
      show t.pending = s.pending from congrArg Course.pending hcourse]
  · unfold showsMenu
    rw [show t.state = s.state from congrArg Course.state hcourse,
      show t.previousState = s.previousState from congrArg Course.previousState hcourse]
    exact id

theorem Deed.admitted {s t : Scene σ} {lost : List BattlerId} (h : Deed s t)
    (hs : Admitted lost s) :
    Admitted lost t := by
  have hrouted := h.routed hs.routed
  cases h with
  | effect h => exact hs.of_background hrouted h.course_eq h.alike
  | go h => exact hs.transfer hrouted rfl (fun _ => rfl) rfl (h.routed hs.routed).2
  | advance _ => exact hs.transfer hrouted rfl (fun _ => rfl) rfl id
  | command id hid _ =>
    refine ⟨hrouted, hs.once, hs.apart, hs.marked, ?_⟩
    intro actor hactor _
    obtain rfl := Option.some.inj hactor
    exact isMarked_of_isReady hid
  | leave _ =>
    refine ⟨hrouted, hs.once, hs.apart, hs.marked, ?_⟩
    intro actor hactor _
    contradiction
  | order a actor hactor hstate hfresh =>
    apply hs.enqueue
    rw [hfresh.source]
    exact hs.window actor hactor (by simp [showsMenu, hstate])
  | discard a rest _ _ hqueue _ =>
    have hcourse := s.discard_course a.source
    have hactor : (s.discard a.source).activeActor = s.activeActor :=
      congrArg Course.activeActor hcourse
    refine Admitted.unmark a.source hs
      hrouted ?_ (s.discard_isMarked a.source) (fun actor h => hactor ▸ h) ?_
    · unfold sources
      rw [hqueue, show (s.discard a.source).pending = s.pending from
        congrArg Course.pending hcourse]
      exact .refl _
    · unfold showsMenu
      dsimp only
      rw [show (s.discard a.source).state = s.state from congrArg Course.state hcourse,
        show (s.discard a.source).previousState = s.previousState from
          congrArg Course.previousState hcourse]
      exact id
  | pass _ _ h =>
    cases h <;> exact hs.transfer hrouted rfl (fun _ => rfl) rfl id
  | rework a a' hpending hcontinues =>
    refine hs.transfer hrouted ?_ (fun _ => rfl) rfl id
    rw [sources_eq, sources_eq]
    exact congrArg (s.queue.map (·.source) ++ ·)
      (by simp [pendingSource, hpending, hcontinues.source])
  | away _ _ => exact hs.transfer hrouted rfl (fun _ => rfl) rfl id
  | release a hstate h =>
    rw [releasePending_eq h] at hrouted ⊢
    refine Admitted.unmark a.source hs hrouted ?_ (?_) (?_) ?_
    · have hbefore : s.sources = s.queue.map (·.source) ++ [a.source] := by
        rw [sources_eq, pendingSource, h]
        rfl
      rw [hbefore, sources_eq]
      refine (List.perm_append_singleton _ _).trans (.of_eq ?_)
      exact congrArg (a.source :: ·) (List.append_nil _).symm
    · intro id
      have hunmarked :=
        s.roster.isMarked_modify a.source id ({ · with actionQueued := false }) false
        (fun _ => rfl) (fun _ => rfl)
      rw [Bool.and_false] at hunmarked
      exact hunmarked
    · intro actor hactor
      dsimp only [modifyBattler, modifyGame, modifyWorld] at hactor
      split at hactor
      · contradiction
      · exact hactor
    · exact id

/-- A state that opens no window. -/
theorem Admitted.setState {lost : List BattlerId} {s : Scene σ} (hs : Admitted lost s)
    {next : SceneState} (henemy : next ≠ .selectEnemyTarget) (hally : next ≠ .selectAllyTarget)
    (hbattle : next ≠ .battle) (hmenu : next.isActorMenu = false) :
    Admitted lost (s.setState next) := by
  refine hs.transfer (s.setState_plain henemy hally hbattle) rfl (fun _ => rfl) rfl ?_
  intro h
  simp [showsMenu, Scene.setState, hmenu, hbattle] at h

theorem Verdict.admitted {s t : Scene σ} {lost : List BattlerId} (h : Verdict s t)
    (hs : Admitted lost s) :
    Admitted lost t := by
  cases h with
  | lose _ _ => exact hs.setState (by simp) (by simp) (by simp) rfl
  | win _ _ _ => exact hs.setState (by simp) (by simp) (by simp) rfl

theorem Outcome.admitted {s t : Scene σ} {lost : List BattlerId} (h : Outcome s t)
    (hopen : t.result = none) (hs : Admitted lost s) : Admitted lost t := by
  have hrouted := h.routed hs.routed
  cases h with
  | done => exact hs
  | decided h => exact h.admitted hs
  | launched a a' _ _ _ hpending hsame =>
    refine hs.transfer hrouted ?_ (fun _ => rfl) rfl id
    rw [sources_eq, sources_eq]
    exact congrArg (s.queue.map (·.source) ++ ·)
      (by simp [launch, pendingSource, hpending, hsame.source])
  | ended _ => exact absurd hopen (s.endBattle_result _)

theorem Interlude.admitted {s t : Scene σ} {lost : List BattlerId} (h : Interlude s t)
    (hopen : t.result = none) (hs : Admitted lost s) : Admitted lost t := by
  have hrouted := h.routed hs.routed
  cases h with
  | background h => exact hs.of_background hrouted h.course_eq h.alike
  | choose a hready _ _ => exact hs.enqueue (isMarked_of_isIdleAndFull hready)
  | flee _ _ => exact hs.setState (by simp) (by simp) (by simp) rfl
  | decided h => exact h.admitted hs
  | overturn _ _ => exact hs.setState (by simp) (by simp) (by simp) rfl
  | finish result _ => exact absurd hopen (s.endBattle_result result)

theorem Step.admitted {s t : Scene σ} {lost : List BattlerId} (h : Step s t)
    (hopen : t.result = none) (hs : Admitted lost s) : Admitted lost t := by
  cases h with
  | deed h => exact h.admitted hs
  | close h => exact h.admitted hopen hs
  | interlude h => exact h.admitted hopen hs

theorem Take.admitted {s t : Scene σ} {lost : List BattlerId} (h : Take s t)
    (hs : Admitted lost s) :
    Admitted (lost ++ s.pendingSource.toList) t := by
  have hrouted := h.routed hs.routed
  cases h with
  | mk a a' rest _ _ hqueue _ hsame =>
    have hsource : a'.source = a.source := by
      rcases hsame with rfl | hfresh
      · rfl
      · exact hfresh.source
    have hbefore : s.sources = a.source :: rest.map (·.source) ++ s.pendingSource.toList := by
      rw [sources_eq, hqueue, List.map_cons]
    have hafter : (({ s with queue := rest, pending := some a', actionState := .begin } :
        Scene σ).setSubstate preEvents).sources = rest.map (·.source) ++ [a.source] := by
      rw [sources_eq, ← hsource]
      rfl
    have honce := hs.once
    rw [hbefore] at honce
    refine ⟨hrouted, ?_, ?_, ?_, hs.window⟩
    · rw [hafter]
      exact (List.perm_append_singleton _ _).nodup_iff.mpr (List.nodup_append.mp honce).1
    · intro id hid hin
      rw [hafter] at hin
      have hin' : id ∈ a.source :: rest.map (·.source) :=
        (List.perm_append_singleton _ _).mem_iff.mp hin
      rcases List.mem_append.mp hid with hid | hid
      · apply hs.apart id hid
        rw [hbefore]
        exact List.mem_append_left _ hin'
      · exact (List.nodup_append.mp honce).2.2 id hin' id hid rfl
    · intro id
      rw [hafter]
      apply (hs.marked id).trans
      rw [hbefore]
      simp only [List.cons_append, List.mem_cons, List.mem_append, List.not_mem_nil, or_false]
      tauto

theorem Path.admitted {s t : Scene σ} {lost : List BattlerId} (h : Path Step s lost t)
    (hs : Admitted [] s) (hopen : t.result = none) : Admitted lost t := by
  induction h with
  | refl => exact hs
  | step _ hstep ih => exact hstep.admitted hopen (ih (hstep.result_isNone hopen))
  | take _ htake ih =>
    refine htake.admitted (ih ?_)
    cases htake
    exact hopen

/-- Nobody has acted before the first frame. -/
theorem ofSetup_admitted (config : BattleConfig) (database : Database) (setup : BattleSetup)
    (assets : σ) :
    Admitted [] (ofSetup config database setup assets) := by
  have hidle (id : BattlerId) :
      (ofSetup config database setup assets).roster.isMarked id = false := by
    apply Bool.eq_false_iff.mpr
    intro hmarked
    obtain ⟨b, hb, hqueued⟩ := Roster.isMarked_iff.mp hmarked
    rcases Roster.mem_ofSetup (Roster.mem_of_battler? hb) with ⟨d, -, rfl⟩ | ⟨i, d, member, -, rfl⟩
    · contradiction
    · contradiction
  refine ⟨ofSetup_routed config database setup assets, .nil,
    fun id h => absurd h (List.not_mem_nil), ?_, fun actor h => by cases h⟩
  intro id
  rw [hidle]
  simp [sources, ofSetup]

section Unrestricted

/-- Where an action can be pending: while it is resolved, or while the battle comes to its end. -/
def HoldsPending (s : Scene σ) : Prop :=
  (s.state = .battle ∧ preEvents ≤ s.substate ∧ s.substate ≤ postEvents) ∨ s.state = .victory ∨
    s.state = .defeat ∨ (s.state = .escape ∧
      ((s.substate = 0 ∧ s.director.script.forceFlee = true) ∨ 2 ≤ s.substate))

/-- An action is pending only where it can be, and windows are open only for actors the player
commands. -/
structure Held (s : Scene σ) : Prop where
  pending : s.pendingSource ≠ none → s.HoldsPending
  commanded : ∀ actor b, s.activeActor = some actor → s.roster.actor? actor = some b →
    b.controllable = true

theorem Effect.forceFlee {s t : Scene σ} (h : Effect s t)
    (hforced : s.director.script.forceFlee = true) : t.director.script.forceFlee = true := by
  have same (h : t.director = s.director) : t.director.script.forceFlee = true := by rw [h, hforced]
  cases h with
  | quiet h => exact same (congrArg Core.director h)
  | hook hran _ => exact hran.kept.forceFlee hforced
  | page trigger source hrunning =>
    have hscript : (s.schedulePage trigger source).director.script = s.director.script := by
      unfold schedulePage Director.schedule
      simp only [hrunning, Bool.false_eq_true, if_false]
      split <;> split <;> rfl
    rw [hscript, hforced]
  | pose _ h => exact same (congrArg Core.director h)
  | ache _ _ h => exact same (congrArg Core.director h)
  | pay _ h => exact same (congrArg Core.director h)
  | strike _ _ _ h => exact same (congrArg Core.director h)
  | wear _ =>
    have hkept (ids : List BattlerId) :
        ∀ s : Scene σ, (s.healStates ids).director = s.director := by
      induction ids with
      | nil => exact fun _ => rfl
      | cons id rest ih => exact fun s => ih _
    rw [hkept, hforced]
  | _ => exact hforced

theorem Background.forceFlee {s t : Scene σ} (h : Background s t)
    (hforced : s.director.script.forceFlee = true) : t.director.script.forceFlee = true := by
  have same (h : t.director = s.director) : t.director.script.forceFlee = true := by rw [h, hforced]
  cases h with
  | quiet h => exact same (congrArg Core.director h)
  | script hran _ => exact hran.kept.forceFlee hforced
  | pose _ h => exact same (congrArg Core.director h)
  | _ => exact hforced

/-- What keeps the course and the flight a script forces keeps the place of the pending action. -/
theorem HoldsPending.of_course {s t : Scene σ} (hs : s.HoldsPending) (hstate : t.state = s.state)
    (hsub : t.substate = s.substate)
    (hforced : s.director.script.forceFlee = true → t.director.script.forceFlee = true) :
    t.HoldsPending := by
  unfold HoldsPending at *
  rw [hstate, hsub]
  rcases hs with hs | hs | hs | ⟨hs, hs' | hs'⟩
  · exact .inl hs
  · exact .inr (.inl hs)
  · exact .inr (.inr (.inl hs))
  · exact .inr (.inr (.inr ⟨hs, .inl ⟨hs'.1, hforced hs'.2⟩⟩))
  · exact .inr (.inr (.inr ⟨hs, .inr hs'⟩))

/-- The windows are no place for a pending action. -/
theorem Held.pendingSource_eq_none {s : Scene σ} (h : Held s) (hstate : ¬s.HoldsPending) :
    s.pendingSource = none :=
  Decidable.not_not.mp fun hpending => hstate (h.pending hpending)

theorem not_holdsPending {s : Scene σ} (hbattle : s.state ≠ .battle) (hvictory : s.state ≠ .victory)
    (hdefeat : s.state ≠ .defeat) (hescape : s.state ≠ .escape) : ¬s.HoldsPending := by
  rintro (h | h | h | h)
  · exact hbattle h.1
  · exact hvictory h
  · exact hdefeat h
  · exact hescape h.1

theorem not_holdsPending_of_isActorMenu {s : Scene σ} (h : s.state.isActorMenu = true) :
    ¬s.HoldsPending := by
  apply not_holdsPending <;> intro hstate <;> rw [hstate] at h <;> contradiction

theorem restriction_of_unrestricted {db : Database} (h : ∀ d ∈ db.states, d.restriction = .normal)
    (b : Battler) : b.restriction db = .normal := by
  have hnone : (b.stateDefs db).filter (·.restriction ≠ .normal) = [] := by
    apply List.filter_eq_nil_iff.mpr
    intro d hd
    obtain ⟨active, -, hactive⟩ := List.mem_filterMap.mp hd
    simp [h d (List.mem_of_find?_eq_some hactive)]
  unfold Battler.restriction
  rw [hnone]
  rfl

/-- Going on leaves a pending action only where one can be. -/
theorem Leads.pendingSource {s : Scene σ} {next : SceneState} (h : Leads s next) (hs : Held s) :
    s.pendingSource ≠ none → (s.setState next).HoldsPending := by
  intro hpending
  have hheld := hs.pending hpending
  unfold HoldsPending at hheld ⊢
  cases h with
  | window h _ _ => exact absurd hheld (not_holdsPending_of_isActorMenu h)
  | noActor h _ => exact absurd hheld (not_holdsPending_of_isActorMenu h)
  | cancel h => rcases h with h | h <;> simp [h] at hheld
  | battle h _ => rcases h with h | h | h <;> simp [h] at hheld
  | options h => rcases h with h | h <;> simp [h] at hheld
  | escape h => rcases h with h | h <;> simp [h] at hheld
  | resume h hsub => simp [h, hsub, afterBattle, postEvents] at hheld
  | failed h hsub => simp [h, hsub] at hheld
  | opened h => simp [h] at hheld
  | fight h => simp [h] at hheld
  | auto h => simp [h] at hheld

theorem Advances.pendingSource {s : Scene σ} {n : Nat} (h : Advances s n) (hs : Held s) :
    s.pendingSource ≠ none → (s.setSubstate n).HoldsPending := by
  intro hpending
  have hheld := hs.pending hpending
  unfold HoldsPending at hheld ⊢
  cases h with
  | opening n h => simp [h] at hheld
  | window n h =>
    rcases h with h | h | h | h
    · simp [h] at hheld
    · simp [h] at hheld
    · simp [h] at hheld
    · exact absurd hheld (not_holdsPending_of_isActorMenu h)
  | ending n h => exact h.elim (.inr ∘ .inl) (.inr ∘ .inr ∘ .inl)
  | prepared h _ => exact .inl ⟨h, Nat.le_succ 2, Nat.le_succ 3⟩
  | resolved h _ => exact .inl ⟨h, Nat.le_add_right 2 2, Nat.le_refl 4⟩
  | released _ h => simp [Scene.pendingSource, h] at hpending
  | exhausted h hsub _ =>
    simp only [h, preEvents, reduceCtorEq, false_and, or_false, true_and] at hheld
    omega
  | caught h hsub hforced => simp [h, hsub, hforced] at hheld

theorem Held.of_closed {s t : Scene σ} (hs : Held s) (hclosed : ¬s.HoldsPending)
    (hpending : t.pendingSource = s.pendingSource)
    (hcommanded : ∀ actor b, t.activeActor = some actor → t.roster.actor? actor = some b →
      b.controllable = true) : Held t :=
  ⟨fun h => absurd (hpending.trans (hs.pendingSource_eq_none hclosed)) h, hcommanded⟩

/-- Who is under control does not change. -/
theorem Setting.controllable {s t : Scene σ} (h : Setting s t) {actor : Int} {b : Battler}
    (hb : t.roster.actor? actor = some b) :
    ∃ a, s.roster.actor? actor = some a ∧ b.controllable = a.controllable := by
  have hrel := h.battlers.actor? (fun _ _ hab => hab.dbId) actor
  rw [hb] at hrel
  generalize ha : s.roster.actor? actor = found at hrel
  cases hrel with
  | some hab => exact ⟨_, rfl, hab.controllable⟩

theorem Held.commanded_of {s t : Scene σ} (hs : Held s) (h : Setting s t)
    (hactor : ∀ actor, t.activeActor = some actor → s.activeActor = some actor) (actor : Int)
    (b : Battler) (hopen : t.activeActor = some actor) (hb : t.roster.actor? actor = some b) :
    b.controllable = true := by
  obtain ⟨a, ha, hkept⟩ := h.controllable hb
  exact hkept.trans (hs.commanded actor a (hactor actor hopen) ha)

theorem enqueue_pendingSource (s : Scene σ) (a : Action) :
    (s.enqueue a).pendingSource = s.pendingSource ∧ (s.enqueue a).activeActor = s.activeActor := by
  obtain ⟨-, h⟩ | ⟨b, -, ⟨-, h⟩ | ⟨-, h⟩⟩ := s.enqueue_cases a <;> rw [h] <;> exact ⟨rfl, rfl⟩

theorem Held.of_course {s t : Scene σ} (hs : Held s) (hsetting : Setting s t)
    (hcourse : t.course = s.course)
    (hforced : s.director.script.forceFlee = true → t.director.script.forceFlee = true) :
    Held t := by
  have hpending : t.pendingSource = s.pendingSource :=
    congrArg (fun c : Course => c.pending.map Action.source) hcourse
  have hactor : t.activeActor = s.activeActor := congrArg Course.activeActor hcourse
  refine ⟨fun h => (hs.pending (hpending ▸ h)).of_course (congrArg Course.state hcourse)
    (congrArg Course.substate hcourse) hforced, hs.commanded_of hsetting fun actor h => hactor ▸ h⟩

theorem Deed.held {s t : Scene σ} (h : Deed s t) (hs : Held s) : Held t := by
  have hsetting := h.setting
  have hcommanded := hs.commanded_of hsetting
  cases h with
  | effect h => exact hs.of_course hsetting h.course_eq h.forceFlee
  | go h => exact ⟨h.pendingSource hs, hs.commanded⟩
  | advance h => exact ⟨h.pendingSource hs, hs.commanded⟩
  | command id hid hstate =>
    have hclosed : ¬s.HoldsPending := by
      rcases hstate with h | h <;>
        exact not_holdsPending (by simp [h]) (by simp [h]) (by simp [h]) (by simp [h])
    refine hs.of_closed hclosed rfl ?_
    intro actor b hactor hb
    obtain rfl := Option.some.inj hactor
    have hcontrolled : (s.roster.actor? id).any
        (fun b => b.controllable && decide (b.restriction s.database = .normal)) = true :=
      (Bool.and_eq_true_iff.mp hid).1
    rw [show s.roster.actor? id = some b from hb] at hcontrolled
    exact (Bool.and_eq_true_iff.mp hcontrolled).1
  | leave hstate =>
    exact hs.of_closed (not_holdsPending_of_isActorMenu hstate) rfl fun actor b hactor => by
      cases hactor
  | order a actor hactor hstate _ =>
    obtain ⟨hpending, hkept⟩ := s.enqueue_pendingSource a
    exact hs.of_closed (not_holdsPending_of_isActorMenu hstate) hpending
      (hcommanded fun actor h => hkept ▸ h)
  | discard a rest hstate hsub _ _ =>
    have hclosed : ¬s.HoldsPending := by
      simp only [HoldsPending, hstate, preEvents, reduceCtorEq, false_and, or_false, true_and]
      omega
    have hcourse := s.discard_course a.source
    have hpending : (s.discard a.source).pendingSource = s.pendingSource :=
      congrArg (fun c : Course => c.pending.map Action.source) hcourse
    have hactor : (s.discard a.source).activeActor = s.activeActor :=
      congrArg Course.activeActor hcourse
    exact hs.of_closed hclosed hpending (hcommanded fun actor h => hactor ▸ h)
  | pass _ _ h => cases h <;> exact ⟨hs.pending, hs.commanded⟩
  | rework a a' hpending hcontinues =>
    refine ⟨fun _ => hs.pending ?_, hs.commanded⟩
    simp [pendingSource, hpending]
  | away hstate _ =>
    exact ⟨fun _ => .inr (.inr (.inr ⟨hstate, .inr (Nat.le_refl 2)⟩)), hs.commanded⟩
  | release a hstate h =>
    rw [releasePending_eq h] at hcommanded ⊢
    refine ⟨fun h' => absurd rfl h', hcommanded ?_⟩
    intro actor hactor
    dsimp only [modifyBattler, modifyGame, modifyWorld] at hactor
    split at hactor
    · contradiction
    · exact hactor

theorem endBattle_held {s : Scene σ} (result : BattleResult) (hs : Held s) :
    Held (s.endBattle result) := by
  have hcommanded := hs.commanded_of (s.endBattle_setting result)
  unfold endBattle at hcommanded ⊢
  split
  · exact hs
  · rename_i hgoes
    rw [if_neg hgoes] at hcommanded
    exact ⟨fun h' => absurd rfl h', hcommanded fun _ h => h⟩

theorem Verdict.held {s t : Scene σ} (h : Verdict s t) (hs : Held s) : Held t := by
  cases h with
  | lose _ _ => exact ⟨fun _ => .inr (.inr (.inl rfl)), hs.commanded⟩
  | win _ _ _ => exact ⟨fun _ => .inr (.inl rfl), hs.commanded⟩

theorem Outcome.held {s t : Scene σ} (h : Outcome s t) (hs : Held s) : Held t := by
  cases h with
  | done => exact hs
  | decided h => exact h.held hs
  | launched a a' hstate hsub _ hpending hsame =>
    refine ⟨fun _ => .inl ⟨hstate, ?_, ?_⟩, hs.commanded⟩
    · exact Nat.le_trans (Nat.le_succ 2) (Nat.le_of_eq hsub.symm)
    · exact Nat.le_trans (Nat.le_of_eq hsub) (Nat.le_succ 3)
  | ended _ => exact endBattle_held _ hs

/-- An actor with open windows obeys the player, who alone would act for it. -/
theorem choose_held {s : Scene σ} {a : Action}
    (hleft : a.source.isAlly = true → s.isControllable a.source = false ∨ s.state = .autoBattle ∨
      s.state = .selectActor)
    (hfree : ∀ d ∈ s.database.states, d.restriction = .normal) (hs : Held s) :
    Held (s.enqueue a) := by
  obtain ⟨hpending, hkept⟩ := s.enqueue_pendingSource a
  refine ⟨?_, hs.commanded_of (s.enqueue_setting a) fun actor h => hkept ▸ h⟩
  intro h
  have hheld := hs.pending (hpending ▸ h)
  rcases s.enqueue_cases a with ⟨-, henqueue⟩ | ⟨b, hb, ⟨hmenu, -⟩ | ⟨-, henqueue⟩⟩
  · rw [henqueue]
    exact hheld
  · exfalso
    cases hsource : a.source with
    | enemy i => simp [isFromMenu, hsource] at hmenu
    | actor id =>
      rw [hsource] at hleft hb
      have hactor : s.activeActor = some id := by simpa [isFromMenu, hsource] using hmenu
      have hcontrolled : s.isControllable (.actor id) = true := by
        simp only [isControllable, hb, Option.any_some, hs.commanded id b hactor hb,
          restriction_of_unrestricted hfree, Bool.true_and, decide_true]
      rcases hleft rfl with h | h | h
      · rw [hcontrolled] at h
        contradiction
      · simp [HoldsPending, h] at hheld
      · simp [HoldsPending, h] at hheld
  · rw [henqueue]
    exact hheld

theorem Interlude.held {s t : Scene σ} (h : Interlude s t)
    (hfree : ∀ d ∈ s.database.states, d.restriction = .normal) (hs : Held s) : Held t := by
  cases h with
  | background h => exact hs.of_course h.setting h.course_eq h.forceFlee
  | decided h => exact h.held hs
  | flee hforced _ => exact ⟨fun _ => .inr (.inr (.inr ⟨rfl, .inl ⟨rfl, hforced⟩⟩)), hs.commanded⟩
  | overturn _ _ => exact ⟨fun _ => .inr (.inr (.inl rfl)), hs.commanded⟩
  | choose a _ hleft _ => exact choose_held hleft hfree hs
  | finish result _ => exact endBattle_held result hs

theorem Step.held {s t : Scene σ} (h : Step s t)
    (hfree : ∀ d ∈ s.database.states, d.restriction = .normal) (hs : Held s) : Held t := by
  cases h with
  | deed h => exact h.held hs
  | close h => exact h.held hs
  | interlude h => exact h.held hfree hs

/-- Where no state restricts anybody, no pending action gives way to another. -/
theorem Path.eq_nil_of_unrestricted {s t : Scene σ} {lost : List BattlerId} (h : Path Step s lost t)
    (hfree : ∀ d ∈ s.database.states, d.restriction = .normal) (hs : Held s) :
    lost = [] ∧ Held t := by
  induction h with
  | refl => exact ⟨rfl, hs⟩
  | step hpath hstep ih =>
    rw [← hpath.setting.database] at hfree
    exact ⟨ih.1, hstep.held hfree ih.2⟩
  | take _ htake ih =>
    obtain ⟨rfl, hheld⟩ := ih
    cases htake with
    | mk a a' rest hstate hsub _ _ _ =>
      refine ⟨?_, fun _ => .inl ⟨hstate, Nat.le_refl 2, Nat.le_add_right 2 2⟩, hheld.commanded⟩
      rw [hheld.pendingSource_eq_none]
      · rfl
      · simp only [HoldsPending, hstate, preEvents, reduceCtorEq, false_and, or_false, true_and]
        omega

end Unrestricted

theorem ofSetup_held (config : BattleConfig) (database : Database) (setup : BattleSetup)
    (assets : σ) :
    Held (ofSetup config database setup assets) :=
  ⟨fun h => absurd rfl h, fun actor b h => by cases h⟩

/-- The marks and the actions under way agree in every scene of an open battle in which no pending
action gave way to another one, and in no other. A battler that lost its action so stays marked;
nobody is the source of two actions, and each other mark stands for one. It takes a state that
restricts its bearer to bring this about. -/
theorem accounted_iff [AssetLoader σ] {config : BattleConfig} {database : Database}
    {setup : BattleSetup} {assets : σ} {s : Scene σ}
    (h : create config database setup assets = .ok s) (inputs : List InputState)
    (hopen : (s.after inputs).result = none) :
    ((s.after inputs).Accounted ↔ s.overtakenIn inputs = []) ∧
      (∀ id, (s.after inputs).sources.count id ≤ 1) ∧
      (∀ id b, (s.after inputs).roster.battler? id = some b → (b.actionQueued = true ↔
        (s.after inputs).sources.count id = 1 ∨ id ∈ s.overtakenIn inputs)) ∧
      ((∀ d ∈ database.states, d.restriction = .normal) → s.overtakenIn inputs = []) := by
  obtain ⟨-, rfl⟩ := create_eq_ok h
  have hpath := (ofSetup config database setup assets).after_path inputs
  have hadmitted := hpath.admitted (ofSetup_admitted config database setup assets) hopen
  generalize (ofSetup config database setup assets).after inputs = t at hpath hadmitted ⊢
  have hcount (id : BattlerId) : t.sources.count id = 1 ↔ id ∈ t.sources :=
    ⟨fun h => List.count_pos_iff.mp (by omega), fun h => List.count_eq_one_of_mem hadmitted.once h⟩
  have honce (id : BattlerId) : t.sources.count id ≤ 1 :=
    List.nodup_iff_count_le_one.mp hadmitted.once id
  have hmarked (id : BattlerId) (b : Battler) (hb : t.roster.battler? id = some b) :
      b.actionQueued = true ↔ t.sources.count id = 1 ∨ id ∈
        (ofSetup config database setup assets).overtakenIn inputs := by
    rw [hcount, ← hadmitted.marked id, Roster.isMarked, hb, Option.any_some]
  refine ⟨⟨?_, fun hnone => ⟨honce, ?_⟩⟩, honce, hmarked,
    fun hfree => (hpath.eq_nil_of_unrestricted hfree (ofSetup_held config database setup assets)).1⟩
  · intro haccounted
    refine List.eq_nil_iff_forall_not_mem.mpr fun id hid => hadmitted.apart id hid ?_
    obtain ⟨b, hb, hqueued⟩ := Roster.isMarked_iff.mp ((hadmitted.marked id).mpr (.inr hid))
    exact (hcount id).mp ((haccounted.2 id b hb).mp hqueued)
  · intro id b hb
    rw [hmarked id b hb, hnone]
    simp

/-! ### An actor provoked while its windows are open -/

namespace Provocation

def config : BattleConfig where
  battleType := .traditional
  maxAtbGauge := 1
  atbFillFrames := 1
  terms := { battleStart := "", specialCombat := "" }

/-- The enemy's only skill makes its target attack the enemies. -/
def database : Database where
  actors := [{ id := 1, name := "A", preemptive := true }]
  enemies := [{ id := 1, name := "E", actions := [⟨.skill 1, 1⟩] }]
  skills := [{ id := 1, name := "", power := 0, addStates := [2] }]
  states := [{ id := 2, name := "S", restriction := .attackEnemy }]

def setup : BattleSetup where
  party := [1]
  troop := { members := [{ enemyId := 1 }] }

def scene : Scene InstantAssets := ofSetup config database setup {}

end Provocation

theorem accounted_iff_second_frame :
    create Provocation.config Provocation.database Provocation.setup {} = .ok Provocation.scene ∧
      (Provocation.scene.after [{}, {}]).result = none ∧
      ((Provocation.scene.after [{}, {}]).Accounted ↔
        Provocation.scene.overtakenIn [{}, {}] = []) :=
  have hcreated : create Provocation.config Provocation.database Provocation.setup {} =
      .ok Provocation.scene :=
    rfl
  have hopen : (Provocation.scene.after [{}, {}]).result = none := by decide +kernel
  ⟨hcreated, hopen, (accounted_iff hcreated [{}, {}] hopen).1⟩

-- The actor is provoked while the enemy acts, and its attack is taken as if the player had chosen
-- it: the queue is served again before the enemy's action is done with, and what the enemy was
-- doing is gone.
set_option maxRecDepth 100000 in
theorem not_accounted_of_provocation :
    create Provocation.config Provocation.database Provocation.setup {} = .ok Provocation.scene ∧
      (Provocation.scene.after (List.replicate 43 {})).result = none ∧
      ¬(Provocation.scene.after (List.replicate 43 {})).Accounted := by
  have hmark : (Provocation.scene.after (List.replicate 43 {})).roster.isMarked (.enemy 0) = true ∧
      (Provocation.scene.after (List.replicate 43 {})).sources.count (.enemy 0) = 0 ∧
        (Provocation.scene.after (List.replicate 43 {})).result = none := by
    decide +kernel
  obtain ⟨hmarked, hcount, hopen⟩ := hmark
  refine ⟨rfl, hopen, ?_⟩
  intro haccounted
  obtain ⟨b, hb, hqueued⟩ := Roster.isMarked_iff.mp hmarked
  have hone := (haccounted.2 (.enemy 0) b hb).mp hqueued
  omega

end Scene

end ActiveBattle
