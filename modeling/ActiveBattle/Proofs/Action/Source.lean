import ActiveBattle.Action.Choice
import ActiveBattle.Proofs.Battler.Change

/-!
# What an action leaves alone

No step of an action changes whose action it is, and only the end of a pass counts one. Aiming,
rolling and choosing consume dice and nothing else; paying and applying reach one battler, or the
stock of an item.
-/

namespace ActiveBattle

set_option autoImplicit false

/-- The game differs at most in its dice. -/
def GameState.Rolled (g g' : GameState) : Prop := g' = { g with dice := g'.dice }

namespace GameState.Rolled

theorem refl (g : GameState) : Rolled g g := rfl

theorem dice (g : GameState) (dice : Dice) : Rolled g { g with dice := dice } := rfl

theorem trans {g g' g'' : GameState} (h : Rolled g g') (h' : Rolled g' g'') : Rolled g g'' := by
  unfold Rolled at *
  rw [h', h]

theorem roster {g g' : GameState} (h : Rolled g g') : g'.roster = g.roster := by
  rw [h]

end GameState.Rolled

theorem GameState.randomPresent_rolled (g : GameState) (side : Side) :
    Rolled g (g.randomPresent side).2 := rfl

namespace Action

/-- A new action of a battler, for one pass. -/
structure Fresh (source : BattlerId) (a : Action) : Prop where
  source : a.source = source
  repeats : a.repeats = 1
  repeatsDone : a.repeatsDone = 0

/-- The same action in the same pass. -/
structure SamePass (a a' : Action) : Prop where
  source : a'.source = a.source
  repeats : a'.repeats = a.repeats
  repeatsDone : a'.repeatsDone = a.repeatsDone

namespace SamePass

theorem refl (a : Action) : SamePass a a := ⟨rfl, rfl, rfl⟩

theorem trans {a b c : Action} (h : SamePass a b) (h' : SamePass b c) : SamePass a c :=
  ⟨h'.source.trans h.source, h'.repeats.trans h.repeats, h'.repeatsDone.trans h.repeatsDone⟩

end SamePass

/-- The same action, in the same pass or a later one. -/
structure Continues (a a' : Action) : Prop where
  source : a'.source = a.source
  repeats : a'.repeats = a.repeats
  repeatsDone : a.repeatsDone ≤ a'.repeatsDone

theorem SamePass.continues {a a' : Action} (h : SamePass a a') : Continues a a' :=
  ⟨h.source, h.repeats, Int.le_of_eq h.repeatsDone.symm⟩

section Choice

variable (source : BattlerId) (g : GameState)

theorem attackOn_fresh (side : Side) : (attackOn source side g).1.Fresh source := by
  unfold attackOn
  split <;> exact ⟨rfl, rfl, rfl⟩

theorem attackOn_rolled (side : Side) : GameState.Rolled g (attackOn source side g).2 := by
  have h := g.randomPresent_rolled side
  unfold attackOn
  split <;> simp_all only

theorem pickFor_rolled (scope : Scope) : GameState.Rolled g (pickFor source scope g).2 := by
  unfold pickFor
  split <;> first | exact g.randomPresent_rolled _ | exact .refl g

theorem restricted_fresh {a : Action} {g' : GameState} (h : restricted source g = some (a, g')) :
    a.Fresh source ∧ GameState.Rolled g g' := by
  unfold restricted at h
  split at h
  · contradiction
  · split at h <;> simp only [Option.some.injEq, reduceCtorEq] at h
    · obtain ⟨rfl, rfl⟩ := Prod.mk.inj h
      exact ⟨⟨rfl, rfl, rfl⟩, .refl g⟩
    · have hfresh := attackOn_fresh source g source.side
      have hrolled := attackOn_rolled source g source.side
      rw [h] at hfresh hrolled
      exact ⟨hfresh, hrolled⟩
    · have hfresh := attackOn_fresh source g source.side.opposite
      have hrolled := attackOn_rolled source g source.side.opposite
      rw [h] at hfresh hrolled
      exact ⟨hfresh, hrolled⟩

theorem ofEnemyAction_fresh (kind : EnemyActionKind) :
    (ofEnemyAction source kind g).1.Fresh source ∧
    GameState.Rolled g (ofEnemyAction source kind g).2 := by
  cases kind with
  | attack => exact ⟨attackOn_fresh source g _, attackOn_rolled source g _⟩
  | defend => exact ⟨⟨rfl, rfl, rfl⟩, .refl g⟩
  | skill id =>
    refine ⟨?_, pickFor_rolled source g _⟩
    dsimp only [ofEnemyAction]
    split <;> exact ⟨rfl, rfl, rfl⟩
  | nothing => exact ⟨⟨rfl, rfl, rfl⟩, .refl g⟩

theorem chooseEnemy_fresh : (chooseEnemy source g).1.Fresh source ∧
    GameState.Rolled g (chooseEnemy source g).2 := by
  unfold chooseEnemy
  split
  · exact ⟨⟨rfl, rfl, rfl⟩, .refl g⟩
  · split
    · exact ⟨⟨rfl, rfl, rfl⟩, .refl g⟩
    · dsimp only
      split
      · exact ofEnemyAction_fresh source g _
      · obtain ⟨hfresh, hrolled⟩ := ofEnemyAction_fresh source { g with dice := _ } _
        exact ⟨hfresh, GameState.Rolled.trans (.dice g _) hrolled⟩

end Choice

end Action

/-- A chooser chooses for the battler it is asked about. -/
theorem Chooser.chooseFor_fresh (c : Chooser) (source : BattlerId) (g : GameState) :
    (c.chooseFor source g).1.Fresh source ∧ GameState.Rolled g (c.chooseFor source g).2 := by
  unfold Chooser.chooseFor
  cases h : Action.restricted source g with
  | some forced => exact Action.restricted_fresh source g h
  | none =>
    cases c with
    | enemy => exact Action.chooseEnemy_fresh source g
    | auto => exact ⟨Action.attackOn_fresh source g _, Action.attackOn_rolled source g _⟩

namespace Action

variable (a : Action) (g : GameState)

theorem retarget_rolled : a.SamePass (a.retarget g).1 ∧ (a.retarget g).1.kind = a.kind ∧
    GameState.Rolled g (a.retarget g).2 := by
  unfold retarget
  split
  · exact ⟨.refl a, rfl, .refl g⟩
  · rename_i first _ _
    have h := g.randomPresent_rolled first.side
    split
    · split
      · simp_all only [and_true]
        exact ⟨rfl, rfl, rfl⟩
      · simp_all only [and_true]
        exact .refl a
    · exact ⟨.refl a, rfl, .refl g⟩

theorem aim_rolled : a.SamePass (a.aim g).1 ∧ (a.aim g).1.kind = a.kind ∧
    GameState.Rolled g (a.aim g).2 := by
  unfold aim
  split
  · exact a.retarget_rolled g
  · split <;> exact ⟨⟨rfl, rfl, rfl⟩, rfl, .refl g⟩

theorem start_samePass : a.SamePass (a.start g).1 :=
  have h := ({ a with current := 0, outcome := {} }.aim_rolled g).1
  ⟨h.source, h.repeats, h.repeatsDone⟩

theorem reflect_samePass : a.SamePass (a.reflect g).2 := by
  unfold reflect
  split
  · split
    · split <;> exact ⟨rfl, rfl, rfl⟩
    · exact .refl a
  · exact .refl a

theorem execute_rolled : a.SamePass (a.execute g).1 ∧ GameState.Rolled g (a.execute g).2 := by
  unfold execute
  split
  · exact ⟨⟨rfl, rfl, rfl⟩, .dice g _⟩
  · exact ⟨⟨rfl, rfl, rfl⟩, .refl g⟩

theorem nextTarget_samePass : a.SamePass a.nextTarget.2 := by
  unfold nextTarget
  split <;> exact ⟨rfl, rfl, rfl⟩

/-- The end of a pass counts it, and there is another one while some are left. -/
theorem nextRepeat_eq : (a.nextRepeat.1 = true ↔ a.repeatsDone + 1 < a.repeats) ∧
    a.nextRepeat.2.source = a.source ∧ a.nextRepeat.2.repeats = a.repeats ∧
    a.nextRepeat.2.repeatsDone = a.repeatsDone + 1 := by
  dsimp only [nextRepeat]
  split
  · rename_i h
    exact ⟨⟨fun _ => h, fun _ => rfl⟩, rfl, rfl, rfl⟩
  · rename_i h
    exact ⟨⟨fun h' => absurd h' (by simp), fun h' => absurd h' h⟩, rfl, rfl, rfl⟩

theorem addStates_struck (db : Database) (states : List Int) (b : Battler) :
    Battler.Struck db b (addStates db states b).2 := by
  induction states generalizing b with
  | nil => exact .refl b
  | cons state rest ih => exact Battler.Struck.trans _ _ _ (.single (.addState state)) (ih _)

theorem removeStates_struck (db : Database) (states : List Int) (b : Battler) :
    Battler.Struck db b (states.foldl (fun b state => (b.removeState state).2) b) := by
  apply List.foldlRecOn (motive := Battler.Struck db b)
  · exact .refl b
  · intro b' h state _
    exact .trans _ _ _ h (.single (.removeState state))

theorem affect_struck (db : Database) (target : Battler) :
    Battler.Struck db target (a.affect db target).2 := by
  unfold affect
  refine .trans _ _ _ ?_ (.trans _ _ _ (removeStates_struck db _ _) (addStates_struck db _ _))
  split
  · exact .single (.hp _ _)
  · exact .refl target

/-- An outcome reaches one battler at most. -/
theorem apply_cases : (a.apply g).2 = g ∨
    ∃ id f, (∀ b, g.roster.battler? id = some b → Battler.Struck g.database b (f b)) ∧
      (a.apply g).2 = g.modifyBattler id f := by
  unfold apply
  split
  · exact .inl rfl
  · split
    · exact .inl rfl
    · split
      · exact .inr ⟨_, _, fun b _ => .single .defend, rfl⟩
      · split
        · exact .inl rfl
        · rename_i target htarget
          refine .inr ⟨_, fun _ => (a.affect g.database target).2, ?_, rfl⟩
          intro b hb
          obtain rfl : target = b := Option.some.inj (htarget.symm.trans hb)
          exact a.affect_struck g.database target

/-- A pass costs its source SP, or the party one of an item. -/
theorem payCost_cases : a.payCost g = g ∨
    (∃ cost, a.payCost g = g.modifyBattler a.source fun b => b.setSp (b.sp - cost)) ∨
    ∃ item, a.payCost g = g.modifyRoster (·.addItem item (-1)) := by
  unfold payCost
  split
  · exact .inr (.inl ⟨_, rfl⟩)
  · split
    · exact .inr (.inr ⟨_, rfl⟩)
    · exact .inl rfl
  · exact .inl rfl

end Action

end ActiveBattle
