import ActiveBattle.Proofs.Roster.Arranging
import ActiveBattle.Proofs.Scene.Step

/-!
# Who takes part

No effect changes who the battlers are, nor whether an action of theirs waits. The first half holds
of every step, and a step that is neither an effect nor background does no more to a battler than to
write down how its actions stand.
-/

namespace ActiveBattle

set_option autoImplicit false

namespace Roster

/-- The same battlers, each with its mark. -/
abbrev Alike (r r' : Roster) : Prop := r.Pointwise Battler.Alike r'

theorem Alike.refl (r : Roster) : r.Alike r := Pointwise.refl Battler.Alike.refl r

theorem Alike.trans {r r' r'' : Roster} (h : r.Alike r') (h' : r'.Alike r'') : r.Alike r'' :=
  Pointwise.trans Battler.Alike.trans h h'

theorem modify_alike (r : Roster) (id : BattlerId) (f : Battler → Battler)
    (h : ∀ b, Battler.Alike b (f b)) : r.Alike (r.modify id f) :=
  .modify Battler.Alike.refl r id f fun b _ => h b

theorem modifyActor_alike (r : Roster) (id : Int) (f : Battler → Battler)
    (h : ∀ b, Battler.Alike b (f b)) : r.Alike (r.modifyActor id f) :=
  .modifyActor Battler.Alike.refl r id f fun b _ => h b

/-- Other goods for the same battlers. -/
theorem Pointwise.of_goods {R : Battler → Battler → Prop} {r r' : Roster} (hrefl : ∀ b, R b b)
    (hactors : r'.actors = r.actors) (henemies : r'.enemies = r.enemies)
    (hparty : r'.party = r.party) :
    r.Pointwise R r' := by
  refine ⟨?_, ?_, hparty⟩
  · rw [hactors]
    exact List.forall₂_same.mpr fun b _ => hrefl b
  · rw [henemies]
    exact List.forall₂_same.mpr fun b _ => hrefl b

end Roster

namespace Scene

variable {σ : Type}

/-- What wearing off its states does to a battler, it does to every battler. -/
theorem healStates_pointwise {R : Battler → Battler → Prop} (hrefl : ∀ b, R b b)
    (htrans : ∀ a b c, R a b → R b c → R a c) (hheal : ∀ (b : Battler) db, R b (b.healStates db).2)
    (s : Scene σ) (ids : List BattlerId) :
    s.roster.Pointwise R (s.healStates ids).roster := by
  induction ids generalizing s with
  | nil => exact .refl hrefl _
  | cons id rest ih =>
    have hworn : s.roster.Pointwise R
        (s.modifyBattler id fun b => (b.healStates s.database).2).roster :=
      .modify hrefl s.roster id _ fun b _ => hheal b s.database
    exact hworn.trans htrans (ih _)

theorem healStates_alike (s : Scene σ) (ids : List BattlerId) :
    s.roster.Alike (s.healStates ids).roster :=
  s.healStates_pointwise Battler.Alike.refl Battler.Alike.trans
    (fun _ _ => ⟨rfl, rfl, rfl, rfl, rfl⟩) ids

/-- The rewards go to the party, not to any battler. -/
theorem grantRewards_battlers {R : Battler → Battler → Prop} (hrefl : ∀ b, R b b)
    (htrans : ∀ a b c, R a b → R b c → R a c) (s : Scene σ) :
    s.roster.Pointwise R s.grantRewards.roster := by
  have hexp : s.roster.Pointwise R
      (s.roster.party.foldl (fun r id => r.gainExp id s.expReward) s.roster) :=
    .foldl hrefl htrans (fun r id => r.gainExp id s.expReward)
      (fun _ _ => .of_goods hrefl rfl rfl rfl) _ _
  have hgold (r : Roster) (amount : Int) : r.Pointwise R (r.gainGold amount) :=
    .of_goods hrefl rfl rfl rfl
  have hdrops (r : Roster) (drops : List Int) :
      r.Pointwise R (drops.foldl (fun r item => r.addItem item 1) r) :=
    .foldl hrefl htrans (fun r item => r.addItem item 1)
      (fun _ _ => .of_goods hrefl rfl rfl rfl) _ _
  exact .trans htrans (.trans htrans hexp (hgold _ _)) (hdrops _ _)

theorem finishStart_arranged (s : Scene σ) :
    s.roster.Pointwise (Battler.Arranged s.config.maxAtbGauge) s.finishStart.roster :=
  Formation.arrange_arranged s.roster
    s.database s.slots s.condition s.firstStrike s.config.maxAtbGauge

theorem schedulePage_game (s : Scene σ) (trigger : EventTrigger) (source : Option BattlerId) :
    (s.schedulePage trigger source).game = s.game := by
  unfold schedulePage
  dsimp only
  split <;> rfl

/-- Scripts cue actors and change enemies, but take nobody in or out. -/
theorem Ran.alike {s t : Scene σ} (h : Ran s t) : s.roster.Alike t.roster :=
  h.game.battlers (fun _ _ hgiven => hgiven.alike) fun _ _ hscripted =>
    hscripted.alikeWithCombo.toAlike

/-- Effects keep who takes part and whose actions wait. -/
theorem Effect.alike {s t : Scene σ} (h : Effect s t) : s.roster.Alike t.roster := by
  cases h with
  | quiet h =>
    rw [show t.roster = s.roster from congrArg Core.roster h]
    exact .refl _
  | hook hran _ => exact hran.alike
  | page trigger source _ =>
    rw [show (s.schedulePage trigger source).roster = s.roster from
      congrArg GameState.roster (s.schedulePage_game trigger source)]
    exact .refl _
  | pose hroster _ => exact hroster.battlers.imp fun _ _ hposed => hposed.alikeWithCombo.toAlike
  | wear _ => exact s.healStates_alike _
  | ache _ hroster _ =>
    exact hroster.battlers.imp fun _ _ hhurt => (hhurt.struck s.database).alikeWithCombo.toAlike
  | pay hroster _ =>
    exact hroster.battlers.imp fun _ _ hpaid => (hpaid.struck s.database).alikeWithCombo.toAlike
  | strike _ _ hroster _ =>
    exact hroster.battlers.imp fun _ _ hstruck => hstruck.alikeWithCombo.toAlike
  | consume item => exact .of_goods Battler.Alike.refl rfl rfl rfl
  | reward _ _ => exact s.grantRewards_battlers Battler.Alike.refl Battler.Alike.trans
  | turn id =>
    have hcounted : s.roster.Alike s.roster.incTurns := .of_goods Battler.Alike.refl rfl rfl rfl
    exact hcounted.trans (s.roster.incTurns.modify_alike id _ fun _ => ⟨rfl, rfl, rfl, rfl, rfl⟩)
  | announce a _ => exact .refl s.roster
  | swapRow actor index a _ _ =>
    exact s.roster.modifyActor_alike actor _ fun _ => ⟨rfl, rfl, rfl, rfl, rfl⟩
  | forget actor => exact s.roster.modifyActor_alike actor _ fun _ => ⟨rfl, rfl, rfl, rfl, rfl⟩
  | spend actor => exact s.roster.modifyActor_alike actor _ fun _ => ⟨rfl, rfl, rfl, rfl, rfl⟩

theorem Background.alike {s t : Scene σ} (h : Background s t) : s.roster.Alike t.roster := by
  cases h with
  | quiet h =>
    rw [show t.roster = s.roster from congrArg Core.roster h]
    exact .refl _
  | opened backdrop => exact .refl s.roster
  | script hran _ => exact hran.alike
  | pose hroster _ => exact hroster.battlers.imp fun _ _ hposed => hposed.alikeWithCombo.toAlike
  | placed => exact s.finishStart_arranged.imp fun _ _ harranged => harranged.alikeWithCombo.toAlike
  | fill => exact (s.roster.updateGauges_arranged _ _ _).imp fun _ _ harranged =>
    harranged.alikeWithCombo.toAlike
  | tick => exact .refl s.roster

def marking (s : Scene σ) (a : Action) (b : Battler) : Battler :=
  { b with
    gauge := 0
    actionQueued := true
    lastBattleAction :=
      if s.isFromMenu a then s.menuCommand (s.activeActor.getD 0) else b.lastBattleAction }

/-- The scene with one more action in the queue, still in its state. -/
def enlist (s : Scene σ) (a : Action) : Scene σ :=
  { (s.modifyBattler a.source (s.marking a)).note (.actionQueued a.source a.kind) with
    queue := s.queue ++ [a]
    firstStrike := s.firstStrike && !a.source.isAlly }

/-- Only actions of battlers that exist are queued, and those from a window close it. -/
theorem enqueue_cases (s : Scene σ) (a : Action) :
    (s.roster.battler? a.source = none ∧ s.enqueue a = s) ∨
      ∃ b, s.roster.battler? a.source = some b ∧
        ((s.isFromMenu a = true ∧ s.enqueue a = (s.enlist a).setState .selectActor) ∨
          (s.isFromMenu a = false ∧ s.enqueue a = s.enlist a)) := by
  cases hb : s.roster.battler? a.source with
  | none => exact .inl ⟨rfl, by simp only [enqueue, hb]⟩
  | some b =>
    have henqueue : s.enqueue a =
        if s.isFromMenu a then (s.enlist a).setState .selectActor else s.enlist a := by
      unfold enqueue
      rw [hb]
      rfl
    refine .inr ⟨b, rfl, ?_⟩
    rw [henqueue]
    cases hmenu : s.isFromMenu a with
    | true => exact .inl ⟨rfl, rfl⟩
    | false => exact .inr ⟨rfl, rfl⟩

theorem marking_kin (s : Scene σ) (a : Action) (b : Battler) :
    Battler.SameIdentity b (s.marking a b) :=
  ⟨rfl, rfl, rfl, rfl⟩

theorem releasePending_eq {s : Scene σ} {a : Action} (h : s.pending = some a) :
    s.releasePending = { s with
      activeActor := if s.isFromMenu a then none else s.activeActor
      pending := none }.modifyBattler a.source ({ · with actionQueued := false }) := by
  simp only [releasePending, h]

/-! ### What is written down of a battler -/

theorem enqueue_marks (s : Scene σ) (a : Action) :
    s.roster.Pointwise Battler.Marked (s.enqueue a).roster := by
  have henlist : s.roster.Pointwise Battler.Marked (s.enlist a).roster :=
    .modify Battler.Marked.refl s.roster a.source _ fun _ _ => ⟨rfl, .inr rfl⟩
  rcases s.enqueue_cases a with ⟨-, h⟩ | ⟨b, -, ⟨-, h⟩ | ⟨-, h⟩⟩
  · rw [h]
    exact .refl Battler.Marked.refl _
  · rw [h]
    exact henlist
  · rw [h]
    exact henlist

theorem nextTurn_marks (s : Scene σ) (id : BattlerId) :
    s.roster.Pointwise Battler.Marked (s.nextTurn id).roster := by
  have hcounted : s.roster.Pointwise Battler.Marked s.roster.incTurns :=
    .of_goods Battler.Marked.refl rfl rfl rfl
  exact hcounted.trans Battler.Marked.trans
    (.modify Battler.Marked.refl s.roster.incTurns id _ fun b _ => .nextBattleTurn b)

theorem discard_marks (s : Scene σ) (source : BattlerId) :
    s.roster.Pointwise Battler.Marked (s.discard source).roster := by
  have hunmarked (r : Roster) :
      r.Pointwise Battler.Marked (r.modify source ({ · with actionQueued := false })) :=
    .modify Battler.Marked.refl r source _ fun b _ => .idle b
  unfold discard
  dsimp only
  split
  · exact (s.nextTurn_marks source).trans Battler.Marked.trans (hunmarked _)
  · exact hunmarked _

theorem endBattle_marks (s : Scene σ) (result : BattleResult) :
    s.roster.Pointwise Battler.Marked (s.endBattle result).roster := by
  unfold endBattle
  split
  · exact .refl Battler.Marked.refl _
  · exact .map s.roster _ _ (fun b _ => .idle b) fun b _ => .idle b

theorem Deed.effect_or_marks {s t : Scene σ} (h : Deed s t) :
    Effect s t ∨ s.roster.Pointwise Battler.Marked t.roster := by
  cases h with
  | effect h => exact .inl h
  | order a _ _ _ _ => exact .inr (s.enqueue_marks a)
  | discard a rest _ _ _ _ => exact .inr (s.discard_marks a.source)
  | pass _ _ h => cases h <;> exact .inr (.refl Battler.Marked.refl s.roster)
  | release a _ h =>
    rw [releasePending_eq h]
    exact .inr (.modify Battler.Marked.refl s.roster a.source _ fun b _ => .idle b)
  | _ => exact .inr (.refl Battler.Marked.refl s.roster)

theorem Outcome.marks {s t : Scene σ} (h : Outcome s t) :
    s.roster.Pointwise Battler.Marked t.roster := by
  cases h with
  | done => exact .refl Battler.Marked.refl _
  | decided h => cases h <;> exact .refl Battler.Marked.refl s.roster
  | launched a a' _ _ _ _ _ => exact .refl Battler.Marked.refl s.roster
  | ended _ => exact s.endBattle_marks _

theorem Interlude.background_or_marks {s t : Scene σ} (h : Interlude s t) :
    Background s t ∨ s.roster.Pointwise Battler.Marked t.roster := by
  cases h with
  | background h => exact .inl h
  | decided h => cases h <;> exact .inr (.refl Battler.Marked.refl s.roster)
  | choose a _ _ _ => exact .inr (s.enqueue_marks a)
  | finish result _ => exact .inr (s.endBattle_marks result)
  | flee _ _ => exact .inr (.refl Battler.Marked.refl s.roster)
  | overturn _ _ => exact .inr (.refl Battler.Marked.refl s.roster)

/-- Whatever else a step does to a battler, an effect or the background did. -/
theorem Step.effect_or_background_or_marks {s t : Scene σ} (h : Step s t) :
    Effect s t ∨ Background s t ∨ s.roster.Pointwise Battler.Marked t.roster := by
  cases h with
  | deed h => exact h.effect_or_marks.imp_right .inr
  | close h => exact .inr (.inr h.marks)
  | interlude h => exact .inr h.background_or_marks

/-! ### What was settled before the first frame -/

/-- What was settled before the first frame. -/
structure Setting (s t : Scene σ) : Prop where
  config : t.config = s.config
  database : t.database = s.database
  battlers : s.roster.Pointwise Battler.SameIdentity t.roster

theorem Setting.refl (s : Scene σ) : Setting s s := ⟨rfl, rfl, .refl Battler.SameIdentity.refl _⟩

theorem Setting.trans {s t u : Scene σ} (h : Setting s t) (h' : Setting t u) : Setting s u :=
  ⟨h'.config.trans h.config, h'.database.trans h.database,
    h.battlers.trans Battler.SameIdentity.trans h'.battlers⟩

/-- Neither the log nor the course is part of the setting. -/
theorem Setting.of_eq {s t u : Scene σ} (h : Setting s t) (hconfig : u.config = t.config)
    (hdatabase : u.database = t.database) (hroster : u.roster = t.roster) : Setting s u :=
  ⟨hconfig.trans h.config, hdatabase.trans h.database, by rw [hroster]; exact h.battlers⟩

theorem modifyBattler_setting (s : Scene σ) (id : BattlerId) (f : Battler → Battler)
    (h : ∀ b, Battler.SameIdentity b (f b)) : Setting s (s.modifyBattler id f) :=
  ⟨rfl, rfl, .modify Battler.SameIdentity.refl s.roster id f fun b _ => h b⟩

theorem Effect.setting {s t : Scene σ} (h : Effect s t) : Setting s t :=
  ⟨congrArg Course.config h.course_eq, congrArg Course.database h.course_eq,
    h.alike.imp fun _ _ => Battler.Alike.sameIdentity⟩

theorem Background.setting {s t : Scene σ} (h : Background s t) : Setting s t :=
  ⟨congrArg Course.config h.course_eq, congrArg Course.database h.course_eq,
    h.alike.imp fun _ _ => Battler.Alike.sameIdentity⟩

theorem enqueue_setting (s : Scene σ) (a : Action) : Setting s (s.enqueue a) := by
  have henlist := s.modifyBattler_setting a.source _ (s.marking_kin a)
  rcases s.enqueue_cases a with ⟨-, h⟩ | ⟨b, -, ⟨-, h⟩ | ⟨-, h⟩⟩
  · rw [h]
    exact .refl s
  · rw [h]
    exact henlist.of_eq rfl rfl rfl
  · rw [h]
    exact henlist.of_eq rfl rfl rfl

theorem endBattle_setting (s : Scene σ) (result : BattleResult) :
    Setting s (s.endBattle result) := by
  unfold endBattle
  split
  · exact .refl s
  · exact ⟨rfl, rfl, .map s.roster _ _ (fun _ _ => ⟨rfl, rfl, rfl, rfl⟩) fun _ _ =>
      ⟨rfl, rfl, rfl, rfl⟩⟩

theorem discard_setting (s : Scene σ) (source : BattlerId) : Setting s (s.discard source) := by
  have hunmarked (t : Scene σ) :
      Setting t (t.modifyBattler source ({ · with actionQueued := false })) :=
    t.modifyBattler_setting source _ fun _ => ⟨rfl, rfl, rfl, rfl⟩
  unfold discard
  dsimp only
  split
  · exact ((Effect.turn source).setting.trans (hunmarked (s.nextTurn source))).of_eq rfl rfl rfl
  · exact (hunmarked s).of_eq rfl rfl rfl

theorem Passes.setting {s t : Scene σ} (h : Passes s t) : Setting s t := by
  cases h <;> exact (Setting.refl s).of_eq rfl rfl rfl

theorem Deed.setting {s t : Scene σ} (h : Deed s t) : Setting s t := by
  cases h with
  | effect h => exact h.setting
  | order a _ _ _ _ => exact s.enqueue_setting a
  | discard a rest _ _ _ _ => exact (s.discard_setting a.source).of_eq rfl rfl rfl
  | pass _ _ h => exact h.setting
  | release a _ h =>
    have hunmarked := s.modifyBattler_setting a.source ({ · with actionQueued := false })
      fun _ => ⟨rfl, rfl, rfl, rfl⟩
    rw [releasePending_eq h]
    exact hunmarked.of_eq rfl rfl rfl
  | _ => exact (Setting.refl s).of_eq rfl rfl rfl

theorem Verdict.setting {s t : Scene σ} (h : Verdict s t) : Setting s t := by
  cases h <;> exact (Setting.refl s).of_eq rfl rfl rfl

theorem Outcome.setting {s t : Scene σ} (h : Outcome s t) : Setting s t := by
  cases h with
  | done => exact .refl s
  | decided h => exact h.setting
  | launched a a' _ _ _ _ _ => exact (Setting.refl s).of_eq rfl rfl rfl
  | ended _ => exact s.endBattle_setting _

theorem Interlude.setting {s t : Scene σ} (h : Interlude s t) : Setting s t := by
  cases h with
  | background h => exact h.setting
  | decided h => exact h.setting
  | choose a _ _ _ => exact s.enqueue_setting a
  | finish result _ => exact s.endBattle_setting result
  | flee _ _ => exact (Setting.refl s).of_eq rfl rfl rfl
  | overturn _ _ => exact (Setting.refl s).of_eq rfl rfl rfl

theorem Step.setting {s t : Scene σ} (h : Step s t) : Setting s t := by
  cases h with
  | deed h => exact h.setting
  | close h => exact h.setting
  | interlude h => exact h.setting

theorem Path.setting {s t : Scene σ} {lost : List BattlerId} (h : Path Step s lost t) :
    Setting s t := by
  induction h with
  | refl => exact .refl _
  | step _ hstep ih => exact ih.trans hstep.setting
  | take _ htake ih =>
    cases htake with
    | mk a a' rest _ _ _ _ _ => exact ih.of_eq rfl rfl rfl

end Scene

end ActiveBattle
