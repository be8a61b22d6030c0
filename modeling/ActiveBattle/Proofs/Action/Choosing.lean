import Mathlib.Algebra.Order.BigOperators.Group.List
import Mathlib.Algebra.Order.Group.Int
import Mathlib.Algebra.Ring.Int.Defs
import ActiveBattle.Proofs.Action.Aiming

/-!
# What an enemy chooses

The entries an enemy can choose lie end to end, each as long as its rating. The scan of a roll stops
at the entry the roll falls on (`stopsAt?_eq_some_iff`), every roll below the sum falls on one
(`exists_fallsOn`), and as many stop at an entry as its rating says (`countP_stopsAt`).
-/

namespace ActiveBattle

set_option autoImplicit false

/-- An entry that an enemy with so much SP can choose. -/
structure EnemyAction.Eligible (db : Database) (sp : Int) (a : EnemyAction) : Prop where
  rating : 0 < a.rating
  skill : ∀ id, a.kind = .skill id → ∃ skill, db.skill? id = some skill ∧ skill.spCost ≤ sp

namespace Action

theorem isUsable_iff (db : Database) (sp : Int) (a : EnemyAction) :
    isUsable db sp a = true ↔ a.Eligible db sp := by
  unfold isUsable
  rw [Bool.and_eq_true, decide_eq_true_eq]
  constructor
  · rintro ⟨hrating, hkind⟩
    refine ⟨hrating, fun id hid => ?_⟩
    simpa [hid, Option.any_eq_true] using hkind
  · rintro ⟨hrating, hskill⟩
    refine ⟨hrating, ?_⟩
    cases hkind : a.kind with
    | skill id => simpa [Option.any_eq_true] using hskill id hkind
    | _ => rfl

/-- The ratings before an entry, summed. -/
def leadTo (entries : List EnemyAction) (i : Nat) : Int := ((entries.take i).map (·.rating)).sum

/-- A roll falls on the stretch of an entry. -/
def FallsOn (entries : List EnemyAction) (roll : Int) (i : Nat) : Prop :=
  ∃ a, entries[i]? = some a ∧ leadTo entries i ≤ roll ∧ roll < leadTo entries i + a.rating

/-- The place where the scan of a roll stops; none when it runs past the last entry. -/
def stopsAt? : List EnemyAction → Int → Option Nat
  | [], _ => none
  | a :: rest, roll =>
    if roll < a.rating then some 0 else (stopsAt? rest (roll - a.rating)).map (· + 1)

/-- The scan gives the kind of the entry it stops at, and nothing past the last one. -/
theorem chosenBy_eq (entries : List EnemyAction) (roll : Int) :
    chosenBy entries roll = ((stopsAt? entries roll).bind (entries[·]?)).elim .nothing
      (·.kind) := by
  induction entries generalizing roll with
  | nil => rfl
  | cons a rest ih =>
    unfold chosenBy stopsAt?
    split
    · rfl
    · rw [ih, Option.bind_map]
      rfl

theorem stopsAt?_of_lt {a : EnemyAction} {roll : Int} (h : roll < a.rating)
    (rest : List EnemyAction) :
    stopsAt? (a :: rest) roll = some 0 := if_pos h

theorem stopsAt?_of_le {a : EnemyAction} {roll : Int} (h : a.rating ≤ roll)
    (rest : List EnemyAction) :
    stopsAt? (a :: rest) roll = (stopsAt? rest (roll - a.rating)).map (· + 1) :=
  if_neg (Int.not_lt.mpr h)

section Weights

variable {entries : List EnemyAction}

theorem leadTo_zero (entries : List EnemyAction) : leadTo entries 0 = 0 := by
  simp [leadTo]

theorem leadTo_succ (a : EnemyAction) (rest : List EnemyAction) (i : Nat) :
    leadTo (a :: rest) (i + 1) = a.rating + leadTo rest i := by
  simp [leadTo]

theorem leadTo_nonneg (hpos : ∀ a ∈ entries, 0 < a.rating) (i : Nat) : 0 ≤ leadTo entries i :=
  List.sum_nonneg (List.forall_mem_map.mpr fun b hb =>
    Int.le_of_lt (hpos b (List.mem_of_mem_take hb)))

theorem fallsOn_zero (a : EnemyAction) (rest : List EnemyAction) (roll : Int) :
    FallsOn (a :: rest) roll 0 ↔ 0 ≤ roll ∧ roll < a.rating := by
  simp [FallsOn, leadTo_zero]

/-- On a later entry falls what falls on it once the first one is taken away. -/
theorem fallsOn_succ (a : EnemyAction) (rest : List EnemyAction) (roll : Int) (i : Nat) :
    FallsOn (a :: rest) roll (i + 1) ↔ FallsOn rest (roll - a.rating) i := by
  unfold FallsOn
  rw [leadTo_succ, List.getElem?_cons_succ]
  refine exists_congr fun b => and_congr_right fun _ => ?_
  omega

/-- The scan stops exactly where the roll falls. -/
theorem stopsAt?_eq_some_iff (hpos : ∀ a ∈ entries, 0 < a.rating) {roll : Int} (hroll : 0 ≤ roll)
    (i : Nat) :
    stopsAt? entries roll = some i ↔ FallsOn entries roll i := by
  induction entries generalizing roll i with
  | nil => simp [stopsAt?, FallsOn]
  | cons a rest ih =>
    have hrest : ∀ b ∈ rest, 0 < b.rating := fun b hb => hpos b (List.mem_cons_of_mem a hb)
    by_cases hstop : roll < a.rating
    · rw [stopsAt?_of_lt hstop]
      cases i with
      | zero => simp [fallsOn_zero, hroll, hstop]
      | succ i =>
        -- the stretch of a later entry begins after the first one ends
        have hlead := leadTo_nonneg hrest i
        rw [fallsOn_succ]
        refine iff_of_false (by simp) fun ⟨_, _, hle, _⟩ => ?_
        omega
    · rw [stopsAt?_of_le (Int.not_lt.mp hstop)]
      cases i with
      | zero => simp [fallsOn_zero, hstop]
      | succ i =>
        rw [fallsOn_succ, ← ih hrest (by omega) i]
        simp

/-- Every roll below the sum of the ratings falls on an entry. -/
theorem exists_fallsOn {roll : Int} (hroll : 0 ≤ roll) (hlt : roll < (entries.map (·.rating)).sum) :
    ∃ i, FallsOn entries roll i := by
  induction entries generalizing roll with
  | nil =>
    simp at hlt
    omega
  | cons a rest ih =>
    by_cases hstop : roll < a.rating
    · exact ⟨0, (fallsOn_zero a rest roll).mpr ⟨hroll, hstop⟩⟩
    · rw [List.map_cons, List.sum_cons] at hlt
      have hrest : 0 ≤ roll - a.rating := by omega
      obtain ⟨i, hi⟩ := ih hrest (by omega)
      exact ⟨i + 1, (fallsOn_succ a rest roll i).mpr hi⟩

/-- As many rolls stop at an entry as its rating says. -/
theorem countP_stopsAt (hpos : ∀ a ∈ entries, 0 < a.rating) {i : Nat} {a : EnemyAction}
    (ha : entries[i]? = some a) :
    (((List.range (entries.map EnemyAction.rating).sum.toNat).countP fun roll : Nat =>
      stopsAt? entries roll = some i : Nat) : Int) = a.rating := by
  induction entries generalizing i with
  | nil => simp at ha
  | cons b rest ih =>
    have hfirst : 0 < b.rating := hpos b List.mem_cons_self
    have hrest : ∀ c ∈ rest, 0 < c.rating := fun c hc => hpos c (List.mem_cons_of_mem b hc)
    have hothers : 0 ≤ (rest.map (·.rating)).sum :=
      List.sum_nonneg (List.forall_mem_map.mpr fun c hc => Int.le_of_lt (hrest c hc))
    have hlength : (b.rating + (rest.map (·.rating)).sum).toNat =
        b.rating.toNat + (rest.map EnemyAction.rating).sum.toNat :=
      Int.toNat_add (Int.le_of_lt hfirst) hothers
    have hbefore : ∀ roll ∈ List.range b.rating.toNat,
        stopsAt? (b :: rest) (roll : Nat) = some 0 := by
      intro roll hroll
      rw [List.mem_range] at hroll
      exact stopsAt?_of_lt (by omega) rest
    have hafter (roll : Nat) : stopsAt? (b :: rest) ((b.rating.toNat + roll : Nat) : Int) =
        (stopsAt? rest roll).map (· + 1) := by
      rw [stopsAt?_of_le (by omega) rest]
      congr 2
      omega
    -- the rolls of the first entry come first, then those of the others
    rw [List.map_cons, List.sum_cons, hlength, List.range_add, List.countP_append, List.countP_map]
    cases i with
    | zero =>
      obtain rfl : b = a := by simpa using ha
      have hall : (List.range b.rating.toNat).countP
        (fun roll : Nat => stopsAt? (b :: rest) roll = some 0) = b.rating.toNat := by
        rw [List.countP_eq_length.mpr fun roll hroll => decide_eq_true (hbefore roll hroll),
          List.length_range]
      have hnone : (List.range (rest.map EnemyAction.rating).sum.toNat).countP
          ((fun roll : Nat => decide (stopsAt? (b :: rest) roll = some 0)) ∘ (b.rating.toNat + ·)) =
            0 := by
        refine List.countP_eq_zero.mpr fun roll _ => ?_
        rw [Function.comp_apply, hafter]
        simp
      rw [hall, hnone]
      omega
    | succ i =>
      rw [List.getElem?_cons_succ] at ha
      have hnone : (List.range b.rating.toNat).countP (fun roll : Nat => stopsAt? (b :: rest) roll =
        some (i + 1)) = 0 := by
        refine List.countP_eq_zero.mpr fun roll hroll => ?_
        rw [hbefore roll hroll]
        simp
      have hshift : ((fun roll : Nat => decide (stopsAt? (b :: rest) roll = some (i + 1))) ∘
        (b.rating.toNat + ·)) = fun roll : Nat => decide (stopsAt? rest roll = some i) := by
        funext roll
        rw [Function.comp_apply, hafter]
        simp
      rw [hnone, hshift, Nat.zero_add]
      exact ih hrest ha

end Weights

/-- An attack on somebody of the side, or nothing when nobody is there. -/
theorem attackOn_cases (source : BattlerId) (side : Side) (g : GameState) :
    (∃ target ∈ g.roster.presentOn side, (attackOn source side g).1 = attack source target) ∨
      g.roster.presentOn side = [] ∧ (attackOn source side g).1 = idle source := by
  unfold attackOn
  rcases g.randomPresent_cases side with ⟨hempty, g', hpick⟩ | ⟨target, hthere, g', hpick⟩
  · rw [hpick]
    exact .inr ⟨hempty, rfl⟩
  · rw [hpick]
    exact .inl ⟨target, hthere, rfl⟩

section Choice

variable {source : BattlerId} {g : GameState} {enemy : Battler} {d : EnemyDef}

theorem rating_pos_of_mem_usable {db : Database} {sp : Int} :
    ∀ a ∈ d.actions.filter (isUsable db sp), 0 < a.rating :=
  fun a ha => ((isUsable_iff db sp a).mp (List.mem_filter.mp ha).2).rating

/-- What can be chosen weighs no more than all entries with a positive rating. -/
theorem sum_usable_le (db : Database) (sp : Int) (d : EnemyDef) :
    ((d.actions.filter (isUsable db sp)).map (·.rating)).sum ≤
      ((d.actions.filter (0 < ·.rating)).map (·.rating)).sum := by
  have hmore : ∀ a, isUsable db sp a = true → decide (0 < a.rating) = true := fun a ha =>
    decide_eq_true ((isUsable_iff db sp a).mp ha).rating
  refine List.Sublist.sum_le_sum ((List.monotone_filter_right _ hmore).map _)
    (List.forall_mem_map.mpr fun a ha => ?_)
  exact Int.le_of_lt (of_decide_eq_true (List.mem_filter.mp ha).2)

theorem chooseEnemy_eq (henemy : g.roster.battler? source = some enemy)
    (hd : g.database.enemy? enemy.dbId = some d) : chooseEnemy source g =
      let usable := d.actions.filter (isUsable g.database enemy.sp)
      let weight := wrapOperand (usable.map (·.rating)).sum
      if weight ≤ 0 then ofEnemyAction source .attack g
      else
        ofEnemyAction source (chosenBy usable (g.dice.between 0 (weight - 1)).1)
          { g with dice := (g.dice.between 0 (weight - 1)).2 } := by
  unfold chooseEnemy
  simp only [henemy, hd, List.sum_eq_foldl]

/-- An enemy chooses among the entries it can choose, each with as many rolls as its rating, and
attacks when there is none. -/
theorem chooseEnemy_weighted (henemy : g.roster.battler? source = some enemy)
    (hd : g.database.enemy? enemy.dbId = some d)
    (hsum : ((d.actions.filter (0 < ·.rating)).map (·.rating)).sum ≤ operandMax) :
    let usable := d.actions.filter (isUsable g.database enemy.sp)
    let weight := (usable.map (·.rating)).sum
    let draw := g.dice.between 0 (weight - 1)
    (∀ a, a ∈ usable ↔ a ∈ d.actions ∧ a.Eligible g.database enemy.sp) ∧
      (usable = [] → chooseEnemy source g = attackOn source .ally g ∧
        ((∃ target ∈ g.roster.presentOn .ally, (chooseEnemy source g).1 = attack source target) ∨
          g.roster.presentOn .ally = [] ∧ (chooseEnemy source g).1 = idle source)) ∧
      (usable ≠ [] → 0 ≤ draw.1 ∧ draw.1 < weight ∧
        chooseEnemy source g = ofEnemyAction source (chosenBy usable draw.1)
          { g with dice := draw.2 }) ∧
      (∀ roll, 0 ≤ roll → roll < weight →
        ∃ i a, usable[i]? = some a ∧ stopsAt? usable roll = some i ∧
        chosenBy usable roll = a.kind ∧ ∀ j, FallsOn usable roll j ↔ j = i) ∧
      ∀ i a, usable[i]? = some a →
        (((List.range weight.toNat).countP fun roll : Nat =>
          stopsAt? usable roll = some i : Nat) : Int) = a.rating := by
  intro usable weight draw
  have hpos : ∀ a ∈ usable, 0 < a.rating := rating_pos_of_mem_usable
  have hleast : 0 ≤ weight :=
    List.sum_nonneg (List.forall_mem_map.mpr fun a ha => Int.le_of_lt (hpos a ha))
  have hmost : weight ≤ operandMax := Int.le_trans (sum_usable_le g.database enemy.sp d) hsum
  have hkept : wrapOperand weight = weight :=
    wrapOperand_of_isOperand ⟨Int.le_trans (by decide) hleast, hmost⟩
  have hchoice : chooseEnemy source g =
      if weight ≤ 0 then ofEnemyAction source .attack g
      else ofEnemyAction source (chosenBy usable draw.1) { g with dice := draw.2 } := by
    rw [chooseEnemy_eq henemy hd]
    dsimp only
    rw [hkept]
  refine ⟨fun a => ?_, fun hempty => ?_, fun hsome => ?_, fun roll hroll hlt => ?_,
    fun i a ha => countP_stopsAt hpos ha⟩
  · rw [List.mem_filter, isUsable_iff]
  · have hweight : weight = 0 :=
      congrArg (fun entries => (entries.map EnemyAction.rating).sum) hempty
    have hattack : chooseEnemy source g = attackOn source .ally g :=
      hchoice.trans (if_pos (Int.le_of_eq hweight))
    rw [hattack]
    exact ⟨rfl, attackOn_cases source .ally g⟩
  · have hweight : 0 < weight :=
      List.sum_pos _ (List.forall_mem_map.mpr hpos) (by simpa using hsome)
    have hrange : 0 ≤ weight - 1 := by omega
    have hsize : weight - 1 - 0 + 1 < 4294967296 := by
      unfold operandMax at hmost
      omega
    obtain ⟨hroll, hlt⟩ := Dice.between_mem hrange hsize g.dice
    exact ⟨hroll, Int.lt_of_le_sub_one hlt, hchoice.trans (if_neg (Int.not_le.mpr hweight))⟩
  · obtain ⟨i, hi⟩ := exists_fallsOn hroll hlt
    have hstops := (stopsAt?_eq_some_iff hpos hroll i).mpr hi
    obtain ⟨a, ha, -⟩ := hi
    refine ⟨i, a, ha, hstops, ?_, fun j => ?_⟩
    · rw [chosenBy_eq, hstops, Option.bind_some, ha]
      rfl
    · rw [← stopsAt?_eq_some_iff hpos hroll j, hstops, Option.some.injEq, eq_comm]

end Choice

/-- An enemy with a spell beyond its means, one within them, a defence and an entry without
weight. -/
def prowler : EnemyDef where
  id := 1
  name := ""
  actions := [⟨.skill 9, 10⟩, ⟨.skill 8, 3⟩, ⟨.defend, 2⟩, ⟨.attack, 0⟩]

def lair : GameState where
  roster := { enemies := [.ofEnemy 0 prowler { enemyId := 1 }] }
  database :=
    { enemies := [prowler]
      skills := [{ id := 8, name := "", spCost := 5 }, { id := 9, name := "", spCost := 50 }] }

/-- Two of the five rolls in the lair are for the defence. -/
theorem chooseEnemy_weighted_of_lair :
    lair.roster.battler? (.enemy 0) = some (.ofEnemy 0 prowler { enemyId := 1 }) ∧
      lair.database.enemy? 1 = some prowler ∧
      ((prowler.actions.filter (0 < ·.rating)).map (·.rating)).sum ≤ operandMax ∧
      prowler.actions.filter (isUsable lair.database 20) = [⟨.skill 8, 3⟩, ⟨.defend, 2⟩] ∧
      (lair.dice.between 0 4).1 < 5 ∧
      ((List.range 5).countP fun roll : Nat => stopsAt? [⟨.skill 8, 3⟩, ⟨.defend, 2⟩] roll =
        some 1) = 2 := by
  have henemy : lair.roster.battler? (.enemy 0) = some (.ofEnemy 0 prowler { enemyId := 1 }) := rfl
  have hd : lair.database.enemy? 1 = some prowler := rfl
  have hsum : ((prowler.actions.filter (0 < ·.rating)).map (·.rating)).sum ≤ operandMax := by decide
  have husable : prowler.actions.filter (isUsable lair.database 20) =
      [⟨.skill 8, 3⟩, ⟨.defend, 2⟩] := by
    decide
  obtain ⟨-, -, hdraw, -, hcount⟩ := chooseEnemy_weighted henemy hd hsum
  have hsp : (Battler.ofEnemy 0 prowler { enemyId := 1 }).sp = 20 := rfl
  rw [hsp, husable] at hdraw hcount
  exact ⟨henemy, hd, hsum, husable, (hdraw (List.cons_ne_nil _ _)).2.1,
    Int.ofNat.inj (hcount 1 ⟨.defend, 2⟩ rfl)⟩

end Action

end ActiveBattle
