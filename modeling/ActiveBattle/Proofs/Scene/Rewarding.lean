import ActiveBattle.Proofs.Roster.Goods
import ActiveBattle.Proofs.Scene.Relapse

/-!
# The rewards of a victory

A victory pays in the middle of its sequence, while its messages are still to come, and it counts
when the sequence ends. A payment is forfeit when a frame takes its victory away in between. So the
payments of a run are one for the victory that stands at its end, if one does, and one for each
forfeit (`after_settles`).
-/

namespace ActiveBattle

set_option autoImplicit false

theorem Roster.Differs.goods_eq {R : Battler → Battler → Prop} {r r' : Roster}
    (h : r.Differs R r') : r'.goods = r.goods := by
  rw [h.rest]
  rfl

namespace Scene

variable {σ : Type}

def reward (s : Scene σ) : Reward where
  party := s.roster.party
  exp := s.expReward
  gold := s.goldReward
  drops := s.dropReward

/-- No reward is paid from one scene to the other. -/
def Unpaid (s t : Scene σ) : Prop :=
  ∀ (r : Roster) (paid : List Reward), r.Traded paid s.roster → r.Traded paid t.roster

namespace Unpaid

variable {s t u : Scene σ}

theorem of_goods (h : t.roster.goods = s.roster.goods) : Unpaid s t :=
  fun _ _ htraded => htraded.keep h

theorem of_roster (h : t.roster = s.roster) : Unpaid s t := of_goods (congrArg Roster.goods h)

theorem refl (s : Scene σ) : Unpaid s s := of_goods rfl

theorem trans (h : Unpaid s t) (h' : Unpaid t u) : Unpaid s u :=
  fun r paid htraded => h' r paid (h r paid htraded)

theorem of_differs {R : Battler → Battler → Prop} (h : s.roster.Differs R t.roster) : Unpaid s t :=
  of_goods h.goods_eq

theorem of_core {c : Core} (h : t.core = c) (hroster : c.roster = s.roster) : Unpaid s t :=
  of_roster ((congrArg Core.roster h).trans hroster)

end Unpaid

theorem modifyBattler_unpaid (s : Scene σ) (id : BattlerId) (f : Battler → Battler) :
    Unpaid s (s.modifyBattler id f) :=
  .of_goods (s.roster.modify_goods id f)

theorem healStates_unpaid (s : Scene σ) (ids : List BattlerId) : Unpaid s (s.healStates ids) := by
  induction ids generalizing s with
  | nil => exact .refl s
  | cons id rest ih => exact (s.modifyBattler_unpaid id _).trans (ih _)

theorem schedulePage_unpaid (s : Scene σ) (trigger : EventTrigger) (source : Option BattlerId) :
    Unpaid s (s.schedulePage trigger source) :=
  .of_roster (congrArg GameState.roster (s.schedulePage_game trigger source))

theorem finishStart_goods (s : Scene σ) : s.finishStart.roster.goods = s.roster.goods :=
  Roster.goods_eq_of_bare_eq (Formation.arrange_bare _ _ _ _ _ _)

theorem Effect.unpaid {s t : Scene σ} (h : Effect s t) (hstate : s.state ≠ .victory) :
    Unpaid s t := by
  cases h with
  | quiet h => exact .of_core h rfl
  | hook hran _ => exact .of_goods (Roster.goods_of_scripted hran.game)
  | page trigger source _ => exact s.schedulePage_unpaid trigger source
  | pose hroster _ => exact .of_differs hroster
  | wear _ => exact s.healStates_unpaid _
  | ache _ hroster _ => exact .of_differs hroster
  | pay hroster _ => exact .of_differs hroster
  | strike _ _ hroster _ => exact .of_differs hroster
  | consume item => exact fun _ _ htraded => htraded.use item
  | reward h _ => exact absurd h hstate
  | turn id => exact .of_goods (s.roster.incTurns.modify_goods id _)
  | _ => exact .of_goods rfl

theorem Background.goods_eq {s t : Scene σ} (h : Background s t) :
    t.roster.goods = s.roster.goods := by
  cases h with
  | quiet h => exact congrArg (fun c : Core => c.roster.goods) h
  | script hran _ => exact Roster.goods_of_scripted hran.game
  | pose hroster _ => exact hroster.goods_eq
  | placed => exact s.finishStart_goods
  | fill => exact Roster.goods_eq_of_bare_eq (Roster.fillGauges_bare _ _ _ _ _ _)
  | _ => rfl

theorem Background.unpaid {s t : Scene σ} (h : Background s t) : Unpaid s t := .of_goods h.goods_eq

theorem enqueue_unpaid (s : Scene σ) (a : Action) : Unpaid s (s.enqueue a) := by
  have hlisted : Unpaid s (s.enlist a) := .of_goods (s.roster.modify_goods a.source _)
  rcases s.enqueue_cases a with ⟨-, h⟩ | ⟨b, -, ⟨-, h⟩ | ⟨-, h⟩⟩
  · rw [h]
    exact .refl s
  · rw [h]
    exact hlisted
  · rw [h]
    exact hlisted

theorem endBattle_unpaid (s : Scene σ) (result : BattleResult) : Unpaid s (s.endBattle result) := by
  unfold endBattle
  split
  · exact .refl s
  · exact .of_goods rfl

theorem discard_unpaid (s : Scene σ) (source : BattlerId) : Unpaid s (s.discard source) := by
  have hturned : Unpaid s (s.nextTurn source) := .of_goods (s.roster.incTurns.modify_goods source _)
  unfold discard
  dsimp only
  split
  · exact hturned.trans (modifyBattler_unpaid (s.nextTurn source) source _)
  · exact s.modifyBattler_unpaid source _

theorem Deed.unpaid {s t : Scene σ} (h : Deed s t) (hstate : s.state ≠ .victory) : Unpaid s t := by
  cases h with
  | effect h => exact h.unpaid hstate
  | order a _ _ _ _ => exact s.enqueue_unpaid a
  | discard a rest _ _ _ _ => exact s.discard_unpaid a.source
  | pass _ _ h => cases h <;> exact .of_roster rfl
  | release a _ h =>
    rw [releasePending_eq h]
    exact .of_goods (s.roster.modify_goods a.source _)
  | _ => exact .of_roster rfl

theorem Verdict.unpaid {s t : Scene σ} (h : Verdict s t) : Unpaid s t := by
  cases h <;> exact .of_roster rfl

theorem Outcome.unpaid {s t : Scene σ} (h : Outcome s t) : Unpaid s t := by
  cases h with
  | done => exact .refl s
  | decided h => exact h.unpaid
  | launched a a' _ _ _ _ _ => exact .of_roster rfl
  | ended _ => exact s.endBattle_unpaid _

theorem Interlude.unpaid {s t : Scene σ} (h : Interlude s t) : Unpaid s t := by
  cases h with
  | background h => exact h.unpaid
  | flee _ _ => exact .of_roster rfl
  | decided h => exact h.unpaid
  | overturn _ _ => exact .of_roster rfl
  | choose a _ _ _ => exact s.enqueue_unpaid a
  | finish result _ => exact s.endBattle_unpaid result

theorem Interludes.unpaid {s t : Scene σ} (h : Interludes s t) : Unpaid s t := by
  induction h with
  | refl => exact .refl s
  | tail _ hstep ih => exact ih.trans hstep.unpaid

/-! ### Victories that stand -/

/-- The victory is paid for, and the battle is won by it or still can be. -/
def stands (s : Scene σ) : Bool :=
  match s.result with
  | none => decide (s.state = .victory) && decide (2 ≤ s.substate)
  | some result => decide (result = .victory)

theorem stands_of_course_eq {s t : Scene σ} (h : t.course = s.course) : t.stands = s.stands := by
  unfold stands
  rw [show t.result = s.result from congrArg Course.result h,
    show t.state = s.state from congrArg Course.state h,
    show t.substate = s.substate from congrArg Course.substate h]

theorem Halts.eq_abort {P : Repertoire} {s : Scene σ} {result : BattleResult} (h : s.Halts result)
    (hs : s.Within P) :
    result = .abort := by
  rcases h with h | h
  · exact h
  · have hraised := hs.director.interp.op
    rw [h] at hraised
    exact hraised.1

theorem endBattle_cases (s : Scene σ) (result : BattleResult) :
    s.endBattle result = s ∨ s.result = none ∧ (s.endBattle result).result = some result := by
  unfold endBattle
  split
  · exact .inl rfl
  · rename_i h
    exact .inr ⟨by simpa using h, rfl⟩

theorem Outcome.not_stands {s t : Scene σ} (h : Outcome s t) (hopen : s.result = none)
    (hstate : s.state ≠ .victory) :
    t.stands = false := by
  have undecided {u : Scene σ} (hresult : u.result = none) (h : u.state ≠ .victory ∨
    u.substate = 0) :
      u.stands = false := by
    unfold stands
    rw [hresult]
    rcases h with h | h <;> simp [h]
  cases h with
  | done => exact undecided hopen (.inl hstate)
  | decided h =>
    refine undecided (h.result_eq.trans hopen) (.inr ?_)
    cases h <;> rfl
  | launched a a' _ _ _ _ _ => exact undecided hopen (.inl hstate)
  | ended h =>
    rename_i result
    rcases s.endBattle_cases result with hkept | ⟨-, hresult⟩
    · rw [hkept]
      exact undecided hopen (.inl hstate)
    · unfold stands
      rw [hresult]
      cases h with
      | victory hvictory _ => exact absurd hvictory hstate
      | defeat _ => rfl
      | escape _ => rfl

theorem Path.unpaid {s t : Scene σ} {lost : List BattlerId} (h : Path Deed s lost t) (hs : Routed s)
    (hstate : s.state ≠ .victory) :
    (Routed t ∧ t.state ≠ .victory) ∧ t.result = s.result ∧ Unpaid s t := by
  induction h with
  | refl => exact ⟨⟨hs, hstate⟩, rfl, .refl _⟩
  | step _ hstep ih =>
    obtain ⟨⟨hrouted, hopen⟩, hresult, hunpaid⟩ := ih
    refine ⟨⟨hstep.routed hrouted, ?_⟩,
      hstep.result_eq.trans hresult, hunpaid.trans (hstep.unpaid hopen)⟩
    rcases hstep.state_cases hrouted with h | ⟨-, h⟩
    · rw [h]
      exact hopen
    · intro hvictory
      rw [hvictory] at h
      contradiction
  | take _ htake ih =>
    obtain ⟨⟨hrouted, hopen⟩, hresult, hunpaid⟩ := ih
    refine ⟨⟨htake.routed hrouted, ?_⟩, ?_, hunpaid.trans ?_⟩
    · cases htake
      exact hopen
    · cases htake
      exact hresult
    · cases htake
      exact .of_roster rfl

theorem Turned.unpaid {s t : Scene σ} {lost : List BattlerId} (h : Turned s lost t) (hs : Routed s)
    (hopen : s.result = none) (hstate : s.state ≠ .victory) : Unpaid s t ∧ t.stands = false := by
  obtain ⟨u, hdeeds, houtcome⟩ := h
  obtain ⟨⟨-, hstate'⟩, hresult, hunpaid⟩ := hdeeds.unpaid hs hstate
  exact ⟨hunpaid.trans houtcome.unpaid, houtcome.not_stands (hresult.trans hopen) hstate'⟩

/-- What a turn of the outer states pays. -/
def payments (m : Moment σ) : List Reward :=
  if m.1.state = .victory ∧ m.1.substate = 1 then [m.1.reward] else []

/-- The rewards of a list were paid from one scene to the other, and each is for a victory that
stands. -/
structure Pays (paid : List Reward) (s t : Scene σ) : Prop where
  traded : ∀ (r : Roster) (before : List Reward), r.Traded before s.roster →
    r.Traded (before ++ paid) t.roster
  stands : t.stands.toNat = s.stands.toNat + paid.length

theorem Pays.of_unpaid {s t : Scene σ} (h : Unpaid s t) (hstands : t.stands = s.stands) :
    Pays [] s t := by
  refine ⟨fun r before htraded => ?_, by rw [hstands]; rfl⟩
  rw [List.append_nil]
  exact h r before htraded

/-- Victory pays at its second step and ends the battle after it. -/
theorem processVictory_pays {s : Scene σ} (input : InputState) (hstate : s.state = .victory)
    (hopen : s.result = none) :
    Pays (payments (s, input)) s s.processVictory.2 := by
  have hstands (t : Scene σ) (hstate : t.state = .victory) (hresult : t.result = none) :
      t.stands = decide (2 ≤ t.substate) := by
    simp [stands, hstate, hresult]
  match hsub : s.substate with
  | 0 =>
    -- The party poses.
    have hnone : payments (s, input) = [] := by simp [payments, hsub]
    have hposed : Unpaid s (s.poseParty fun _ => .victory) := by
      apply Unpaid.of_goods
      apply Roster.foldl_kept
      intro _ _
      rfl
    have hprocessed : s.processVictory.2 =
        ((s.poseParty fun _ => .victory).setWait 30 30).setSubstate 1 := by
      unfold processVictory
      rw [hsub]
      rfl
    rw [hnone, hprocessed]
    apply Pays.of_unpaid
    · exact hposed.trans (.of_roster rfl)
    · rw [hstands s hstate hopen, hsub]
      exact hstands _ hstate hopen
  | 1 =>
    -- The reward is paid while its messages are shown.
    have hone : payments (s, input) = [s.reward] := by simp [payments, hstate, hsub]
    obtain ⟨message, hshown⟩ := showMessages_eq s.rewardPages s.game
    have hprocessed : s.processVictory.2 =
        ((s.modifyGame fun _ => { s.game with message := message }).grantRewards).setSubstate
          2 := by
      unfold processVictory
      rw [hsub]
      dsimp only
      rw [← hshown]
      rfl
    have hpaid : s.processVictory.2.stands = true := by
      rw [hprocessed]
      exact hstands _ hstate hopen
    constructor
    · intro r before htraded
      rw [hone, hprocessed]
      exact htraded.pay s.reward
    · rw [hone, hpaid, hstands s hstate hopen, hsub]
      rfl
  | n + 2 =>
    -- The messages are gone.
    have hnone : payments (s, input) = [] := by simp [payments, hsub]
    have hprocessed : s.processVictory.2 = s.endBattle .victory := by
      unfold processVictory
      rw [hsub]
      rfl
    rw [hnone, hprocessed]
    apply Pays.of_unpaid
    · exact s.endBattle_unpaid .victory
    · rcases s.endBattle_cases .victory with h | ⟨-, h⟩
      · rw [h]
      · rw [hstands s hstate hopen, hsub]
        simp [stands, h]

theorem checkWait_pays (s : Scene σ) (input : InputState) : Pays [] s (s.checkWait input).2 := by
  have hroster : (s.checkWait input).2.roster = s.roster := by
    unfold checkWait
    split
    · rfl
    · split
      · rfl
      · dsimp only
        split <;> rfl
  exact .of_unpaid (.of_roster hroster) (stands_of_course_eq (s.checkWait_effects input).course_eq)

/-! ### What takes a victory away -/

/-- What becomes of a paid victory from one scene to the other: it stands unless a decided state was
left or the battle was aborted. -/
structure Fate (s t : Scene σ) : Prop where
  departures : s.departures.length ≤ t.departures.length
  result : t.result = s.result ∨ s.result = none ∧ t.result = some .abort
  standing : s.result ≠ some .victory → (t.stands = true ↔
    s.stands = true ∧ t.departures.length = s.departures.length ∧ t.result ≠ some .abort)

namespace Fate

variable {s t u : Scene σ}

theorem result_kept (h : Fate s t) {result : BattleResult} (hs : s.result = some result) :
    t.result = some result := by
  rcases h.result with hkept | ⟨hopen, -⟩
  · exact hkept.trans hs
  · rw [hs] at hopen
    contradiction

theorem trans (h : Fate s t) (h' : Fate t u) : Fate s u := by
  have hkept : t.result = some .abort → u.result = some .abort := h'.result_kept
  refine ⟨Nat.le_trans h.departures h'.departures, ?_, fun hs => ?_⟩
  · rcases h.result with hsame | ⟨hopen, habort⟩
    · rw [← hsame]
      exact h'.result
    · exact .inr ⟨hopen, hkept habort⟩
  · have ht : t.result ≠ some .victory := by
      rcases h.result with hsame | ⟨-, habort⟩
      · rwa [hsame]
      · rw [habort]
        decide
    rw [h'.standing ht, h.standing hs]
    have hbefore := h.departures
    have hafter := h'.departures
    constructor
    · rintro ⟨⟨hstands, hfirst, -⟩, hsecond, hunaborted⟩
      exact ⟨hstands, hsecond.trans hfirst, hunaborted⟩
    · rintro ⟨hstands, hboth, hunaborted⟩
      exact ⟨⟨hstands, by omega, fun h => hunaborted (hkept h)⟩, by omega, hunaborted⟩

theorem of_uneventful (h : Uneventful s t) (hstands : t.stands = s.stands)
    (hresult : t.result = s.result) : Fate s t := by
  refine ⟨Nat.le_of_eq (by rw [h.departures_eq]), .inl hresult, fun _ => ?_⟩
  rw [hstands, h.departures_eq, hresult]
  refine ⟨fun hstands => ⟨hstands, rfl, fun habort => ?_⟩, And.left⟩
  unfold stands at hstands
  rw [habort] at hstands
  contradiction

theorem refl (s : Scene σ) : Fate s s := of_uneventful (.refl s) rfl rfl

theorem setState (s : Scene σ) (next : SceneState) : Fate s (s.setState next) := by
  -- Whichever state is entered, its first step has not paid yet.
  have hentered (hs : s.result ≠ some .victory) : (s.setState next).stands = false := by
    unfold stands
    rw [show (s.setState next).result = s.result from rfl]
    cases hended : s.result with
    | none => simp [Scene.setState]
    | some result => exact decide_eq_false fun h => hs (by rw [hended, h])
  cases hdecided : s.state.isDecided with
  | true =>
    have hgrown : (s.setState next).departures.length = s.departures.length + 1 := by
      rw [s.setState_departures hdecided, List.length_append]
      rfl
    refine ⟨by omega, .inl rfl, fun hs => ?_⟩
    rw [hentered hs]
    refine ⟨fun h => absurd h Bool.false_ne_true, ?_⟩
    rintro ⟨-, hsame, -⟩
    omega
  | false =>
    have hsame := (s.setState_uneventful hdecided next).departures_eq
    refine ⟨Nat.le_of_eq (by rw [hsame]), .inl rfl, fun hs => ?_⟩
    rw [hentered hs]
    refine ⟨fun h => absurd h Bool.false_ne_true, ?_⟩
    rintro ⟨hstands, -, -⟩
    unfold stands at hstands
    cases hended : s.result with
    | none =>
      rw [hended] at hstands
      have hvictory : s.state = .victory := of_decide_eq_true (Bool.and_eq_true_iff.mp hstands).1
      rw [hvictory] at hdecided
      contradiction
    | some result =>
      rw [hended] at hstands
      rw [hended, of_decide_eq_true hstands] at hs
      contradiction

theorem abort (s : Scene σ) : Fate s (s.endBattle .abort) := by
  rcases s.endBattle_cases .abort with h | ⟨hopen, hended⟩
  · rw [h]
    exact refl s
  · have hsame := (s.endBattle_logs .abort).uneventful.departures_eq
    refine ⟨Nat.le_of_eq (by rw [hsame]), .inr ⟨hopen, hended⟩, fun _ => ?_⟩
    unfold stands
    rw [hended]
    refine ⟨fun h => absurd h Bool.false_ne_true, ?_⟩
    rintro ⟨-, -, hunaborted⟩
    contradiction

end Fate

theorem enqueue_fate (s : Scene σ) (a : Action) : Fate s (s.enqueue a) := by
  have hlisted : Fate s (s.enlist a) := .of_uneventful (s.enlist_uneventful a) rfl rfl
  rcases s.enqueue_cases a with ⟨-, h⟩ | ⟨b, -, ⟨-, h⟩ | ⟨-, h⟩⟩
  · rw [h]
    exact .refl s
  · rw [h]
    exact hlisted.trans (.setState _ _)
  · rw [h]
    exact hlisted

theorem Interlude.fate {P : Repertoire} {s t : Scene σ} (h : Interlude s t) (hs : s.Within P) :
    Fate s t := by
  cases h with
  | background h =>
    exact .of_uneventful h.logs.uneventful (stands_of_course_eq h.course_eq)
      (congrArg Course.result h.course_eq)
  | flee _ _ => exact .setState s _
  | decided h => cases h <;> exact .setState s _
  | overturn _ _ => exact .setState s _
  | choose a _ _ _ => exact s.enqueue_fate a
  | finish result h =>
    rw [h.eq_abort hs]
    exact .abort s

theorem Interludes.fate {P : Repertoire} {s t : Scene σ} (h : Interludes s t) (hs : s.Within P) :
    Fate s t := by
  induction h with
  | refl => exact .refl s
  | tail hbefore hstep ih => exact ih.trans (hstep.fate ((Interludes.path hbefore).within hs))

section Run

variable [AssetLoader σ]

theorem processState_pays {s : Scene σ} (input : InputState) (hs : Routed s)
    (hopen : s.result = none) :
    Pays (payments (s, input)) s (s.processState input).2 := by
  by_cases hstate : s.state = .victory
  · have hprocessed : s.processState input = s.processVictory := by
      unfold processState
      dsimp only
      rw [dropGoneActor_of_closed (by rw [hstate]; rfl)]
      simp only [hstate]
    rw [hprocessed]
    exact processVictory_pays input hstate hopen
  · obtain ⟨hunpaid, hstands⟩ := (s.processState_turned input hopen).unpaid hs hopen hstate
    have hnone : payments (s, input) = [] := by simp [payments, hstate]
    have hnot : s.stands = false := by simp [stands, hopen, hstate]
    rw [hnone]
    exact .of_unpaid hunpaid (hstands.trans hnot.symm)

/-- The rewards a run pays, each as it stood when it was paid. -/
def paymentsIn (s : Scene σ) (inputs : List InputState) : List Reward :=
  (s.turnsIn inputs).flatMap payments

/-- A paid victory is taken away before the outer states take their turns: its state is left, or the
battle is aborted. -/
def isForfeit (m : Moment σ) : Bool :=
  m.1.stands && (!(relapses m).isEmpty || decide ((m.1.prelude m.2).2.result = some .abort))

/-- The frames of a run that take a paid victory away. -/
def forfeitsIn (s : Scene σ) (inputs : List InputState) : List (Moment σ) :=
  (s.framesIn inputs).filter isForfeit

theorem enter_of_ended {s : Scene σ} (h : s.result.isSome = true) :
    s.enter = (false, { s with steps := [], inputConsumed := false }) := by
  unfold enter
  dsimp only
  rw [if_pos h]

theorem relapses_of_ended {s : Scene σ} (input : InputState) (h : s.result.isSome = true) :
    relapses (s, input) = [] := by
  unfold relapses choosing? scripted?
  rw [enter_of_ended h]
  rfl

/-- A paid victory still stands after the bookkeeping of a frame exactly when the frame is no
forfeit. -/
theorem prelude_stands_iff {P : Repertoire} {s : Scene σ} (input : InputState) (hrouted : Routed s)
    (hs : Settled s) (hwithin : s.Within P) :
    (s.prelude input).2.stands = true ↔ s.stands = true ∧ isForfeit (s, input) = false := by
  have hfate := (s.prelude_interludes input).fate hwithin
  unfold isForfeit
  dsimp only
  cases hresult : s.result with
  | some result =>
    -- Nothing happens any more to a battle that is over.
    have hended : s.result.isSome = true := by rw [hresult]; rfl
    have hsame : (s.prelude input).2.stands = s.stands := by
      unfold prelude
      rw [enter_of_ended hended]
      rfl
    rw [hsame, relapses_of_ended input hended, hfate.result_kept hresult]
    unfold stands
    rw [hresult]
    dsimp only
    cases result <;> decide
  | none =>
    rw [hfate.standing (by rw [hresult]; decide), prelude_departures input hrouted hs,
      List.length_append]
    cases hstands : s.stands <;> simp [List.isEmpty_iff]

theorem prelude_stands {P : Repertoire} {s : Scene σ} (input : InputState) (hrouted : Routed s)
    (hs : Settled s) (hwithin : s.Within P) :
    s.stands.toNat = (s.prelude input).2.stands.toNat + ([(s, input)].filter isForfeit).length := by
  have hiff := prelude_stands_iff input hrouted hs hwithin
  have hpaid : isForfeit (s, input) = true → s.stands = true :=
    fun h => (Bool.and_eq_true_iff.mp h).1
  rw [List.filter_singleton]
  cases hbefore : s.stands <;> cases hlost : isForfeit (s, input) <;> simp_all

/-- The frames and turns that led from one scene to another have paid and taken away as they
tell. -/
structure Settles (s : Scene σ) (frames turns : List (Moment σ)) (t : Scene σ) : Prop where
  reached : Reaches s t
  traded : s.roster.Traded (turns.flatMap payments) t.roster
  standing : (turns.flatMap payments).length = t.stands.toNat + (frames.filter isForfeit).length
  taken : ∀ m ∈ frames.filter isForfeit, relapses m ≠ [] ∨ t.result = some .abort

namespace Settles

variable {P : Repertoire} {s t : Scene σ} {frames turns : List (Moment σ)}

theorem prelude (h : Settles s frames turns t) (input : InputState) (hrouted : Routed s)
    (hs : Settled s) (hwithin : s.Within P) :
    Settles s (frames ++ [(t, input)]) turns (t.prelude input).2 := by
  obtain ⟨lost, hpath⟩ := h.reached
  have hkept := hpath.settled hrouted hs
  have hwithin := hpath.within hwithin
  have hinterludes := t.prelude_interludes input
  have hfate := hinterludes.fate hwithin
  refine ⟨h.reached.trans hinterludes.path, hinterludes.unpaid _ _ h.traded, ?_, ?_⟩
  · rw [h.standing, prelude_stands input hkept.2 hkept.1 hwithin, List.filter_append,
      List.length_append]
    omega
  · intro m hm
    rw [List.filter_append] at hm
    rcases List.mem_append.mp hm with hm | hm
    · exact (h.taken m hm).imp_right hfate.result_kept
    · obtain ⟨hm, hforfeit⟩ := List.mem_filter.mp hm
      rw [List.mem_singleton.mp hm] at hforfeit ⊢
      rcases Bool.or_eq_true_iff.mp (Bool.and_eq_true_iff.mp hforfeit).2 with hrelapses | habort
      · exact .inl (by simpa [List.isEmpty_iff] using hrelapses)
      · exact .inr (of_decide_eq_true habort)

theorem pays (h : Settles s frames turns t) {u : Scene σ} {more : List (Moment σ)}
    (hreached : Reaches s u) (hpays : Pays (more.flatMap payments) t u)
    (hresult : t.result = some .abort → u.result = some .abort) :
    Settles s frames (turns ++ more) u := by
  refine ⟨hreached, ?_, ?_, fun m hm => (h.taken m hm).imp_right hresult⟩
  · rw [List.flatMap_append]
    exact hpays.traded _ _ h.traded
  · rw [List.flatMap_append, List.length_append, h.standing, hpays.stands]
    omega

end Settles

/-- A run pays for the victory that stands at its end, if one does, and for those that were taken
away. -/
theorem after_settles {P : Repertoire} {s : Scene σ} (hrouted : Routed s) (hs : Settled s)
    (hwithin : s.Within P) (hopen : s.stands = false) (inputs : List InputState) :
    Settles s (s.framesIn inputs) (s.turnsIn inputs) (s.after inputs) := by
  refine after_history (P := Settles s) ?_ ?_ ?_ ⟨⟨[], .refl s⟩, .refl, ?_, ?_⟩ inputs
  · intro input frames turns t h
    exact h.prelude input hrouted hs hwithin
  · intro input frames turns t h
    have hwaited := (t.checkWait_effects input)
    rw [← List.append_nil turns]
    apply h.pays
    · exact h.reached.trans (hwaited.deeds.path.mono fun _ _ => .deed)
    · exact t.checkWait_pays input
    · exact hwaited.result_eq.trans
  · intro input frames turns t h hresult
    have hpath := (t.processState_turned input hresult).path
    apply h.pays
    · exact h.reached.trans hpath
    · rw [List.flatMap_singleton]
      exact processState_pays input
        (h.reached.elim fun _ hpath => (hpath.settled hrouted hs).2) hresult
    · intro habort
      rw [hresult] at habort
      contradiction
  · rw [hopen]
    rfl
  · intro m hm
    contradiction

/-- The goods after a run are those its payments make: the gold and the experience exactly, both
with their ways to outgrow the operands, of an item at most. -/
theorem after_goods {config : BattleConfig} {database : Database} {setup : BattleSetup} {assets : σ}
    {s : Scene σ} (h : create config database setup assets = .ok s) (inputs : List InputState) :
    (s.after inputs).roster.gold =
      (s.paymentsIn inputs).foldl (fun gold p => max (saturate (gold + p.gold)) 0) 0 ∧
      (∀ id, (s.after inputs).roster.exp.getD id 0 =
        wrapOperand ((s.paymentsIn inputs).map fun p => (p.party.count id : Int) * p.exp).sum) ∧
      ∀ item, (s.after inputs).roster.itemCount item ≤
        min 99 (((s.paymentsIn inputs).flatMap (·.drops)).count item) := by
  obtain ⟨-, rfl⟩ := create_eq_ok h
  have htraded := (after_settles (ofSetup_routed config database setup assets) (.of_undecided rfl)
    (ofSetup_withinStore config database setup assets) rfl inputs).traded
  refine ⟨htraded.gold_eq, fun id => ?_, fun item => ?_⟩
  · have hnone : (ofSetup config database setup assets).roster.exp.getD id 0 = 0 := rfl
    have hexp := htraded.exp_eq id (by rw [hnone]; exact ⟨by decide, by decide⟩)
    rwa [hnone, Int.zero_add] at hexp
  · have hnone : (ofSetup config database setup assets).roster.itemCount item = 0 := rfl
    have hstock : 0 ≤ (ofSetup config database setup assets).roster.itemCount item ∧
        (ofSetup config database setup assets).roster.itemCount item ≤ 99 := by omega
    have hitem := htraded.itemCount_le hstock
    unfold paymentsIn
    omega

/-- A reward is paid once for a victory, and not at all for another result. -/
def AllOrNothing (result : BattleResult) (paid : List Reward) : Prop :=
  paid.length = if result = .victory then 1 else 0

instance (result : BattleResult) (paid : List Reward) : Decidable (AllOrNothing result paid) :=
  inferInstanceAs (Decidable (paid.length = _))

/-- Rewards are all or nothing exactly when no frame takes a paid victory away. It is taken away by
a flight that a script forces, by an actor that acts on its own, or by aborting the battle; whatever
becomes of the victories, goods change by the rewards and by the items that are used up. -/
theorem allOrNothing_iff {config : BattleConfig} {database : Database} {setup : BattleSetup}
    {assets : σ} {s : Scene σ} (h : create config database setup assets = .ok s)
    (inputs : List InputState) :
    (∀ result, (s.after inputs).result = some result →
      (AllOrNothing result (s.paymentsIn inputs) ↔ s.forfeitsIn inputs = [])) ∧
      s.roster.Traded (s.paymentsIn inputs) (s.after inputs).roster ∧
      (s.paymentsIn inputs).length = (s.after inputs).stands.toNat + (s.forfeitsIn inputs).length ∧
      (∀ m ∈ s.forfeitsIn inputs, relapses m ≠ [] ∨ (s.after inputs).result = some .abort) ∧
      (s.store.Lacks (·.fleesParty) → (∀ d ∈ database.states, d.restriction = .normal) →
        (s.after inputs).result ≠ some .abort → s.forfeitsIn inputs = []) := by
  obtain ⟨-, rfl⟩ := create_eq_ok h
  have hrouted := ofSetup_routed config database setup assets
  have hsettled : Settled (ofSetup config database setup assets) := .of_undecided rfl
  have hsettles :=
    after_settles hrouted hsettled (ofSetup_withinStore config database setup assets) rfl inputs
  refine ⟨?_, hsettles.traded, hsettles.standing, hsettles.taken, ?_⟩
  · intro result hresult
    have hstands : ((ofSetup config database setup assets).after inputs).stands =
        decide (result = .victory) := by
      unfold stands
      rw [hresult]
    have hcount := hsettles.standing
    rw [hstands] at hcount
    unfold AllOrNothing
    rw [← List.length_eq_zero_iff]
    change List.length (List.flatMap payments _) = _ ↔ List.length (List.filter isForfeit _) = 0
    by_cases hvictory : result = .victory
    · simp only [hvictory, decide_true, Bool.toNat_true, if_true] at hcount ⊢
      omega
    · simp only [hvictory, decide_false, Bool.toNat_false, if_false] at hcount ⊢
      omega
  · intro hlacks hfree hunaborted
    refine List.eq_nil_iff_forall_not_mem.mpr fun m hm => ?_
    obtain ⟨lost, hpath⟩ :=
      ((ofSetup config database setup assets).reaches_history inputs).1 m (List.mem_filter.mp hm).1
    have hsteadfast := hpath.steadfast ⟨ofSetup_within hlacks.1 hlacks.2 fun _ => trivial, rfl⟩
    obtain ⟨hheld, hfree'⟩ := hpath.held (ofSetup_held config database setup assets) hfree
    obtain ⟨hsettled', hrouted'⟩ := hpath.settled hrouted hsettled
    rcases hsettles.taken m hm with hrelapses | habort
    · obtain ⟨d, hd⟩ := List.exists_mem_of_ne_nil _ hrelapses
      have hescape := relapses_of_steadfast hsteadfast hd
      have hactor := relapses_of_held hheld hfree' hd
      rcases relapses_kinds hrouted' hsettled' hd with rfl | rfl | rfl
      · exact hescape rfl
      · exact hescape rfl
      · exact hactor rfl
    · exact hunaborted habort

end Run

/-! ### Rewards of a battle that was fled -/

namespace Plunder

def config : BattleConfig := {}

def database : Database where
  actors := [{ id := 1, name := "A" }]
  enemies := [{ id := 1, name := "E", gold := 10 }]

def event (rest : Program) : CommonEvent where
  id := 1
  trigger := .parallel
  instructions := { opcode := .changeMonsterHp, params := [0, 1, 0, 999, 1] } :: rest

def setup (rest : Program) : BattleSetup where
  party := [1]
  troop := { members := [{ enemyId := 1 }, { enemyId := 1, hidden := true }] }
  commonEvents := [event rest]

def scene (rest : Program) : Scene InstantAssets := ofSetup config database (setup rest) {}

/-- After the reward, shows the other enemy and has the party flee from it. -/
def flight : Program :=
  [{ opcode := .wait, params := [5] }, { opcode := .showHiddenMonster, params := [1] },
    { opcode := .forceFlee, params := [0, 0, 1] }]

/-- Every message is dismissed at once. -/
def inputs : List InputState :=
  List.replicate 41 { triggered := [.decision], pressed := [.decision] }

end Plunder

set_option maxRecDepth 100000 in
theorem allOrNothing_of_victory :
    create Plunder.config Plunder.database (Plunder.setup []) {} = .ok (Plunder.scene []) ∧
      ((Plunder.scene []).after Plunder.inputs).result = some .victory ∧
      AllOrNothing .victory ((Plunder.scene []).paymentsIn Plunder.inputs) := by
  have hcreated : create Plunder.config Plunder.database (Plunder.setup []) {} =
      .ok (Plunder.scene []) :=
    rfl
  have hlacks : (Plunder.scene []).store.Lacks (·.fleesParty) := by
    constructor
    · intro e he inst hinst
      rw [List.mem_singleton.mp he] at hinst
      rw [List.mem_singleton.mp hinst]
      rfl
    · intro page hpage
      contradiction
  have hfree : ∀ d ∈ Plunder.database.states, d.restriction = .normal := by decide
  have hwon : ((Plunder.scene []).after Plunder.inputs).result = some .victory := by decide +kernel
  have h := allOrNothing_iff hcreated Plunder.inputs
  refine ⟨hcreated, hwon, (h.1 .victory hwon).mpr (h.2.2.2.2 hlacks hfree ?_)⟩
  rw [hwon]
  decide

-- The reward is paid; then there is an enemy again, and the party flees from it with the gold.
set_option maxRecDepth 100000 in
theorem not_allOrNothing_of_flight :
    create Plunder.config Plunder.database (Plunder.setup Plunder.flight) {} =
      .ok (Plunder.scene Plunder.flight) ∧
      ((Plunder.scene Plunder.flight).after Plunder.inputs).result = some .escape ∧
      ((Plunder.scene Plunder.flight).after Plunder.inputs).roster.gold = 10 ∧
      ¬AllOrNothing .escape ((Plunder.scene Plunder.flight).paymentsIn Plunder.inputs) := by
  refine ⟨rfl, ?_⟩
  decide +kernel

end Scene

end ActiveBattle
