import Mathlib.Algebra.Ring.Int.Defs
import ActiveBattle.Proofs.Script.Effect
import ActiveBattle.Roster.Formation
import ActiveBattle.Roster.Gauge

/-!
# The goods of a party

Gold, items and experience change by the rewards that are paid and by the items that are used up
(`Roster.Traded`). From the rewards alone follow the gold and the experience of everybody, and the
most there can be of an item.
-/

namespace ActiveBattle

set_option autoImplicit false

/-- What a victory pays: experience to each actor of a party, gold, and one of each drop. -/
structure Reward where
  party : List Int
  exp : Int
  gold : Int
  drops : List Int
deriving DecidableEq

namespace Roster

/-- The roster without its battlers. -/
def bare (r : Roster) : Roster := { r with actors := [], enemies := [] }

/-- The goods without anybody to own them. -/
def goods (r : Roster) : Roster := { items := r.items, gold := r.gold, exp := r.exp }

def grant (r : Roster) (p : Reward) : Roster :=
  p.drops.foldl (fun r item => r.addItem item 1)
    ((p.party.foldl (fun r id => r.gainExp id p.exp) r).gainGold p.gold)

/-- What every step of a fold keeps, the fold keeps. -/
theorem foldl_kept {α β : Type} (p : Roster → β) (f : Roster → α → Roster)
    (hf : ∀ r a, p (f r a) = p r) (l : List α) (r : Roster) : p (l.foldl f r) = p r := by
  apply List.foldlRecOn (motive := fun r' => p r' = p r)
  · rfl
  · intro r' h a _
    exact (hf r' a).trans h

theorem goods_eq_of_bare_eq {r r' : Roster} (h : r'.bare = r.bare) : r'.goods = r.goods :=
  show r'.bare.goods = r.bare.goods from congrArg goods h

theorem turns_eq_of_bare_eq {r r' : Roster} (h : r'.bare = r.bare) : r'.turns = r.turns :=
  show r'.bare.turns = r.bare.turns from congrArg turns h

theorem modify_bare (r : Roster) (id : BattlerId) (f : Battler → Battler) :
    (r.modify id f).bare = r.bare := by
  cases id <;> rfl

theorem modify_goods (r : Roster) (id : BattlerId) (f : Battler → Battler) :
    (r.modify id f).goods = r.goods :=
  goods_eq_of_bare_eq (r.modify_bare id f)

theorem fillGauges_bare (db : Database) (max base average : Int) (ids : List BattlerId)
    (r : Roster) :
    (fillGauges db max base average ids r).2.bare = r.bare := by
  induction ids generalizing r with
  | nil => rfl
  | cons id rest ih =>
    unfold fillGauges
    split
    · exact ih r
    · split
      · exact (ih _).trans (r.modify_bare id _)
      · exact ih r

theorem goods_of_scripted {g g' : GameState} (h : GameState.Scripted g g') :
    g'.roster.goods = g.roster.goods := by
  unfold goods
  rw [h.items, h.gold, h.exp]

section Grant

variable (r : Roster) (p : Reward)

theorem gainExp_getD (id first exp : Int) : (r.gainExp first exp).exp.getD id 0 =
    if id = first then wrapOperand (r.exp.getD id 0 + exp) else r.exp.getD id 0 := by
  unfold gainExp
  dsimp only
  rw [Table.getD_update]
  split
  · rename_i h
    rw [h]
  · rfl

theorem foldl_gainExp_getD (exp : Int) (ids : List Int) (id : Int)
    (hoperand : IsOperand (r.exp.getD id 0)) :
    (ids.foldl (fun r id => r.gainExp id exp) r).exp.getD id 0 =
      wrapOperand (r.exp.getD id 0 + ids.count id * exp) := by
  induction ids generalizing r with
  | nil => simp [wrapOperand_of_isOperand hoperand]
  | cons first rest ih =>
    have hgained := r.gainExp_getD id first exp
    rw [List.foldl_cons, List.count_cons]
    by_cases h : id = first
    · have hcount : exp + rest.count id * exp = ((rest.count id + 1 : Nat) : Int) * exp := by
        rw [Int.natCast_add, Int.add_mul, Int.add_comm]
        simp
      rw [if_pos h] at hgained
      rw [ih _ (by rw [hgained]; exact isOperand_wrapOperand _), hgained, wrapOperand_add,
        Int.add_assoc, hcount]
      simp [h]
    · rw [if_neg h] at hgained
      rw [ih _ (by rwa [hgained]), hgained]
      simp [Ne.symm h]

theorem addItem_itemCount (used count item : Int) : (r.addItem used count).itemCount item =
    if item = used then clamp 0 99 (r.itemCount item + count) else r.itemCount item := by
  unfold itemCount addItem
  dsimp only
  rw [Table.getD_update]
  split
  · rename_i hitem
    rw [hitem]
  · rfl

/-- Within the cap of a stack, an item comes on top of those that are there. -/
theorem foldl_addItem_itemCount (drops : List Int) (item : Int)
    (hstock : 0 ≤ r.itemCount item ∧ r.itemCount item ≤ 99) :
    (drops.foldl (fun r item => r.addItem item 1) r).itemCount item =
      min 99 (r.itemCount item + drops.count item) := by
  induction drops generalizing r with
  | nil =>
    simp only [List.foldl_nil, List.count_nil]
    omega
  | cons first rest ih =>
    have hadded : (r.addItem first 1).itemCount item =
        if item = first then min 99 (r.itemCount item + 1) else r.itemCount item := by
      rw [addItem_itemCount]
      unfold clamp
      split
      · omega
      · rfl
    have hstock' : 0 ≤ (r.addItem first 1).itemCount item ∧
        (r.addItem first 1).itemCount item ≤ 99 := by
      rw [hadded]
      split <;> omega
    rw [List.foldl_cons, ih _ hstock', hadded, List.count_cons]
    by_cases h : item = first
    · simp only [h, if_true, beq_self_eq_true]
      omega
    · simp [h, Ne.symm h]

theorem grant_gold : (r.grant p).gold = max (saturate (r.gold + p.gold)) 0 := by
  unfold grant
  rw [foldl_kept (·.gold)]
  · unfold gainGold
    rw [foldl_kept (·.gold)]
    intro _ _
    rfl
  · intro _ _
    rfl

theorem grant_exp (id : Int) (hoperand : IsOperand (r.exp.getD id 0)) :
    (r.grant p).exp.getD id 0 = wrapOperand (r.exp.getD id 0 + p.party.count id * p.exp) := by
  unfold grant
  rw [foldl_kept (·.exp)]
  · exact foldl_gainExp_getD r p.exp p.party id hoperand
  · intro _ _
    rfl

theorem grant_itemCount (item : Int) (hstock : 0 ≤ r.itemCount item ∧ r.itemCount item ≤ 99) :
    (r.grant p).itemCount item = min 99 (r.itemCount item + p.drops.count item) := by
  have hsame : ((p.party.foldl (fun r id => r.gainExp id p.exp) r).gainGold p.gold).itemCount item =
      r.itemCount item := by
    unfold itemCount gainGold
    rw [foldl_kept (·.items)]
    intro _ _
    rfl
  unfold grant
  rw [foldl_addItem_itemCount _ _ _ (by rw [hsame]; exact hstock), hsame]

theorem grant_turns : (r.grant p).turns = r.turns := by
  unfold grant
  rw [foldl_kept (·.turns)]
  · unfold gainGold
    rw [foldl_kept (·.turns)]
    intro _ _
    rfl
  · intro _ _
    rfl

end Grant

/-- From one roster to the other, rewards were paid in this order, items were used up, and nothing
else was done with the goods. -/
inductive Traded (r : Roster) : List Reward → Roster → Prop
  | refl : Traded r [] r
  | keep {paid : List Reward} {r' r'' : Roster} (h : Traded r paid r')
    (hgoods : r''.goods = r'.goods) : Traded r paid r''
  | use {paid : List Reward} {r' : Roster} (h : Traded r paid r') (item : Int) : Traded r paid
    (r'.addItem item (-1))
  | pay {paid : List Reward} {r' : Roster} (h : Traded r paid r') (p : Reward) : Traded r
    (paid ++ [p]) (r'.grant p)

namespace Traded

variable {r r' : Roster} {paid : List Reward}

theorem gold_eq (h : Traded r paid r') :
    r'.gold = paid.foldl (fun gold p => max (saturate (gold + p.gold)) 0) r.gold := by
  induction h with
  | refl => rfl
  | keep _ hgoods ih => exact (congrArg Roster.gold hgoods).trans ih
  | use _ _ ih => exact ih
  | pay _ p ih => rw [grant_gold, ih, List.foldl_append, List.foldl_cons, List.foldl_nil]

theorem exp_eq (h : Traded r paid r') (id : Int) (hoperand : IsOperand (r.exp.getD id 0)) :
    r'.exp.getD id 0 = wrapOperand
      (r.exp.getD id 0 + (paid.map fun p => (p.party.count id : Int) * p.exp).sum) := by
  induction h with
  | refl => simp [wrapOperand_of_isOperand hoperand]
  | keep _ hgoods ih => exact (congrArg (fun r : Roster => r.exp.getD id 0) hgoods).trans ih
  | use _ _ ih => exact ih
  | pay _ p ih =>
    rw [grant_exp _ _ _ (by rw [ih]; exact isOperand_wrapOperand _), ih, wrapOperand_add,
      List.map_append, List.sum_append]
    simp [Int.add_assoc]

/-- A stack stays within its bounds, and grows by drops alone. -/
theorem itemCount_le (h : Traded r paid r') {item : Int}
    (hstock : 0 ≤ r.itemCount item ∧ r.itemCount item ≤ 99) :
    (0 ≤ r'.itemCount item ∧ r'.itemCount item ≤ 99) ∧
      r'.itemCount item ≤ r.itemCount item + (paid.flatMap (·.drops)).count item := by
  induction h with
  | refl => exact ⟨hstock, by simp⟩
  | @keep paid r' r'' _ hgoods ih =>
    have hsame : r''.itemCount item = r'.itemCount item := by
      change r''.goods.itemCount item = r'.goods.itemCount item
      rw [hgoods]
    rw [hsame]
    exact ih
  | @use paid r' _ used ih =>
    rw [addItem_itemCount]
    unfold clamp
    split <;> omega
  | pay _ p ih =>
    rw [grant_itemCount _ _ _ ih.1, List.flatMap_append, List.flatMap_singleton, List.count_append]
    omega

end Traded

end Roster

namespace Formation

theorem placeActorsFrom_bare (condition : BattleCondition) (index : Nat) (ids : List Int)
    (r : Roster) :
    (placeActorsFrom condition index ids r).bare = r.bare := by
  induction ids generalizing index r with
  | nil => rfl
  | cons id rest ih => exact ih (index + 1) _

theorem placeActors_bare (r : Roster) (db : Database) (condition : BattleCondition) :
    (placeActors r db condition).bare = r.bare := by
  have hclosed : (closeRanks r).bare = r.bare := by
    unfold closeRanks
    apply Roster.foldl_kept
    intro _ _
    rfl
  unfold placeActors
  dsimp only
  split
  · exact placeActorsFrom_bare condition 0 _ r
  · exact (placeActorsFrom_bare condition 0 _ _).trans hclosed

theorem seedGauges_bare (r : Roster) (db : Database) (condition : BattleCondition)
    (firstStrike : Bool) (max : Int) :
    (seedGauges r db condition firstStrike max).bare = r.bare := by
  unfold seedGauges
  dsimp only
  rw [Roster.foldl_kept (·.bare)]
  · rfl
  · intro _ _
    rfl

/-- The formation a battle starts in is made of the battlers alone. -/
theorem arrange_bare (r : Roster) (db : Database) (slots : List Point) (condition : BattleCondition)
    (firstStrike : Bool) (max : Int) :
    (seedGauges (placeActors (placeEnemies r slots condition) db condition) db condition
      firstStrike max).bare =
      r.bare :=
  (seedGauges_bare _ _ _ _ _).trans (placeActors_bare _ _ _)

end Formation

end ActiveBattle
