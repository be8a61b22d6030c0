import Mathlib.Data.Rat.Floor
import ActiveBattle.Proofs.Action.Damage
import ActiveBattle.Scene.Ending

/-!
# Escaping

Whether an attempt to escape succeeds is settled by one roll against a chance that is not held
between 0 and 100. The chance comes from the mean agilities of the two sides, and every failure adds
ten points to it. So where the agilities stay as they are only so many attempts can fail before one
succeeds, whatever is rolled (`escape_bounded`).
-/

namespace ActiveBattle

set_option autoImplicit false

theorem Roster.le_mean (least : Int) (values : List Int) : least ≤ mean least values := by
  unfold mean
  split
  · exact Int.le_refl least
  · exact Int.le_max_left _ _

/-- A greater share of a greater number. -/
theorem ediv_le_ediv_of_le {a b p q : Int} (ha : 0 ≤ a) (hab : a ≤ b) (hp : 0 < p) (hpq : p ≤ q) :
    a / q ≤ b / p := by
  rw [Int.le_ediv_iff_mul_le hp]
  have hshare : 0 ≤ a / q := Int.ediv_nonneg ha (by omega)
  calc a / q * p ≤ a / q * q := Int.mul_le_mul_of_nonneg_left hpq hshare
    _ ≤ a := Int.ediv_mul_le a (by omega)
    _ ≤ b := hab

/-- What a generator gives for a percentage. -/
def IsPercentage (roll : Int) : Prop := 0 ≤ roll ∧ roll < 100

theorem Dice.isPercentage (d : Dice) : IsPercentage d.percent.1 := by
  obtain ⟨hleast, hmost⟩ : 0 ≤ d.percent.1 ∧ d.percent.1 ≤ 99 :=
    between_mem (by decide) (by decide) d
  exact ⟨hleast, Int.lt_of_le_of_lt hmost (by decide)⟩

namespace Scene

variable {σ : Type} {s t : Scene σ} {roll : Int}

theorem presentAgility_pos (battlers : List Battler) : 1 ≤ presentAgility battlers :=
  Roster.le_mean 1 _

/-- The agility of the party that is there. -/
def partyAgility (s : Scene σ) : Int := presentAgility s.roster.partyMembers

def enemyAgility (s : Scene σ) : Int := presentAgility s.roster.enemies

/-- The chance of the next attempt, in percent. -/
def chance (s : Scene σ) : Int := escapeChance s.roster s.escapeAttempts

/-- Both sides' agilities are positive, so truncation comes to the floor. -/
theorem chance_eq (s : Scene σ) :
    s.chance = 150 - 100 * s.enemyAgility / s.partyAgility + 10 * s.escapeAttempts := by
  have hside : 0 ≤ 100 * presentAgility s.roster.enemies := by
    have hpos := presentAgility_pos s.roster.enemies
    omega
  unfold chance escapeChance
  rw [Int.tdiv_eq_ediv_of_nonneg hside]
  rfl

/-- What an attempt comes to for a roll. -/
def escapeOn (roll : Int) (s : Scene σ) : Bool × Scene σ :=
  if roll < s.chance then (true, s) else (false, { s with escapeAttempts := s.escapeAttempts + 1 })

theorem tryEscape_eq (s : Scene σ) :
    s.tryEscape = (s.modifyGame ({ · with dice := s.game.dice.percent.2 })).escapeOn
        s.game.dice.percent.1 :=
  rfl

theorem escapeOn_succeeds_iff : (s.escapeOn roll).1 = true ↔ roll < s.chance := by
  unfold escapeOn
  split <;> simp_all

theorem escapeOn_of_success (h : (s.escapeOn roll).1 = true) : (s.escapeOn roll).2 = s := by
  unfold escapeOn
  rw [if_pos (escapeOn_succeeds_iff.mp h)]

theorem escapeOn_of_failure (h : (s.escapeOn roll).1 = false) :
    (s.escapeOn roll).2 = { s with escapeAttempts := s.escapeAttempts + 1 } := by
  unfold escapeOn
  rw [if_neg fun hlt => Bool.false_ne_true (h.symm.trans (escapeOn_succeeds_iff.mpr hlt))]

/-- A failure makes the next attempt easier by ten points. -/
theorem chance_of_failure (h : (s.escapeOn roll).1 = false) :
    (s.escapeOn roll).2.chance = s.chance + 10 := by
  rw [escapeOn_of_failure h, chance_eq, chance_eq]
  dsimp only [partyAgility, enemyAgility, roster]
  omega

/-- Against slower enemies, or with a quicker party, the chance is no worse. -/
theorem chance_le (hattempts : t.escapeAttempts = s.escapeAttempts)
    (henemies : t.enemyAgility ≤ s.enemyAgility) (hparty : s.partyAgility ≤ t.partyAgility) :
    s.chance ≤ t.chance := by
  have hpos : 1 ≤ t.enemyAgility := presentAgility_pos _
  have hratio : 100 * t.enemyAgility / t.partyAgility ≤ 100 * s.enemyAgility / s.partyAgility :=
    ediv_le_ediv_of_le (by omega) (by omega) (presentAgility_pos _) hparty
  rw [chance_eq, chance_eq, hattempts]
  omega

/-- An attempt that fails on a percentage comes before the count at which none can fail. -/
theorem attempts_lt_of_failure (hroll : IsPercentage roll) (h : (s.escapeOn roll).1 = false) :
    s.escapeAttempts < ⌈((100 * s.enemyAgility / s.partyAgility - 50 : Int) : ℚ) / 10⌉ := by
  have hchance : s.chance ≤ roll :=
    Int.not_lt.mp fun hlt => Bool.false_ne_true (h.symm.trans (escapeOn_succeeds_iff.mpr hlt))
  have hshort : s.escapeAttempts * 10 < 100 * s.enemyAgility / s.partyAgility - 50 := by
    have hmost := hroll.2
    rw [chance_eq] at hchance
    omega
  rw [Int.lt_ceil, lt_div_iff₀ (by norm_num)]
  exact_mod_cast hshort

/-- Attempts that follow one another: failures are counted, and both sides stay as agile. What else
happens to the scene in between is left open. -/
structure Attempts (rolls : Nat → Int) (scenes : Nat → Scene σ) : Prop where
  counted : ∀ k, (scenes (k + 1)).escapeAttempts = ((scenes k).escapeOn (rolls k)).2.escapeAttempts
  party : ∀ k, (scenes (k + 1)).partyAgility = (scenes k).partyAgility
  enemies : ∀ k, (scenes (k + 1)).enemyAgility = (scenes k).enemyAgility

namespace Attempts

variable {rolls : Nat → Int} {scenes : Nat → Scene σ}

theorem partyAgility_eq (h : Attempts rolls scenes) (k : Nat) :
    (scenes k).partyAgility = (scenes 0).partyAgility := by
  induction k with
  | zero => rfl
  | succ k ih => exact (h.party k).trans ih

theorem enemyAgility_eq (h : Attempts rolls scenes) (k : Nat) :
    (scenes k).enemyAgility = (scenes 0).enemyAgility := by
  induction k with
  | zero => rfl
  | succ k ih => exact (h.enemies k).trans ih

theorem escapeAttempts_eq (h : Attempts rolls scenes) {k : Nat}
    (hfails : ∀ j < k, ((scenes j).escapeOn (rolls j)).1 = false) :
    (scenes k).escapeAttempts = (scenes 0).escapeAttempts + k := by
  induction k with
  | zero => simp
  | succ k ih =>
    rw [h.counted, escapeOn_of_failure (hfails k (Nat.lt_succ_self k))]
    dsimp only
    rw [ih fun j hj => hfails j (Nat.lt_succ_of_lt hj)]
    omega

/-- Where this many fail, the count of failures has not come to where none can fail. -/
theorem lt_of_failures (h : Attempts rolls scenes) (hrolls : ∀ k, IsPercentage (rolls k)) {k : Nat}
    (hfails : ∀ j ≤ k, ((scenes j).escapeOn (rolls j)).1 = false) :
    (scenes 0).escapeAttempts + k <
      ⌈((100 * (scenes 0).enemyAgility / (scenes 0).partyAgility - 50 : Int) : ℚ) / 10⌉ := by
  have hlt := attempts_lt_of_failure (hrolls k) (hfails k (Nat.le_refl k))
  rwa [h.escapeAttempts_eq fun j hj => hfails j (Nat.le_of_lt hj), h.partyAgility_eq,
    h.enemyAgility_eq] at hlt

/-- No more of them fail in a row than the agilities and the failures before allow. -/
theorem exists_success (h : Attempts rolls scenes) (hrolls : ∀ k, IsPercentage (rolls k)) :
    ∃ k : Nat, (k : Int) ≤
      max 0 (⌈((100 * (scenes 0).enemyAgility / (scenes 0).partyAgility - 50 : Int) : ℚ) / 10⌉ -
        (scenes 0).escapeAttempts) ∧
      (∀ j < k, ((scenes j).escapeOn (rolls j)).1 = false) ∧
        ((scenes k).escapeOn (rolls k)).1 = true := by
  have hsome : ∃ k : Nat, ((scenes k).escapeOn (rolls k)).1 = true := by
    by_contra hnone
    simp only [not_exists, Bool.not_eq_true] at hnone
    have hlt := h.lt_of_failures hrolls
      (k := (⌈((100 * (scenes 0).enemyAgility / (scenes 0).partyAgility - 50 : Int) :
      ℚ) / 10⌉ - (scenes 0).escapeAttempts).toNat) fun j _ => hnone j
    omega
  have hfails : ∀ j < Nat.find hsome, ((scenes j).escapeOn (rolls j)).1 = false := fun j hj =>
    Bool.eq_false_iff.mpr (Nat.find_min hsome hj)
  refine ⟨Nat.find hsome, ?_, hfails, Nat.find_spec hsome⟩
  generalize Nat.find hsome = first at hfails
  cases first with
  | zero => exact Int.le_max_left _ _
  | succ last =>
    have hlt := h.lt_of_failures hrolls fun j hj => hfails j (Nat.lt_succ_of_le hj)
    omega

end Attempts

/-- Attempts with nothing in between. -/
def attempting (rolls : Nat → Int) (s : Scene σ) : Nat → Scene σ
  | 0 => s
  | k + 1 => ((attempting rolls s k).escapeOn (rolls k)).2

theorem escapeOn_game (roll : Int) (s : Scene σ) : (s.escapeOn roll).2.game = s.game := by
  unfold escapeOn
  split <;> rfl

theorem attempts_attempting (rolls : Nat → Int) (s : Scene σ) :
    Attempts rolls (attempting rolls s) where
  counted _ := rfl
  party k :=
  congrArg (fun g : GameState => presentAgility g.roster.partyMembers) (escapeOn_game (rolls k) _)
  enemies k :=
  congrArg (fun g : GameState => presentAgility g.roster.enemies) (escapeOn_game (rolls k) _)

/-- Attempts to escape do not fail for ever. Each is settled by a percentage from the dice against
the chance. With the mean agilities `e` of the enemies and `p` of the party, both at least 1, and
after `n` failures, no more than `⌈(100 * e / p - 50) / 10⌉ - n` further ones come before a success,
whatever is rolled. Each failure adds ten points to the chance, a success changes nothing, and
slower enemies or a quicker party never spoil one. -/
theorem escape_bounded {rolls : Nat → Int} {scenes : Nat → Scene σ}
    (hrolls : ∀ k, IsPercentage (rolls k)) (hattempts : Attempts rolls scenes) :
    (∀ s : Scene σ, IsPercentage s.game.dice.percent.1 ∧
      s.tryEscape = (s.modifyGame ({ · with dice := s.game.dice.percent.2 })).escapeOn
        s.game.dice.percent.1) ∧
    (∀ s : Scene σ, 1 ≤ s.partyAgility ∧ 1 ≤ s.enemyAgility) ∧
    (∃ k : Nat, (k : Int) ≤
      max 0 (⌈((100 * (scenes 0).enemyAgility / (scenes 0).partyAgility - 50 : Int) : ℚ) / 10⌉ -
        (scenes 0).escapeAttempts) ∧
      (∀ j < k, ((scenes j).escapeOn (rolls j)).1 = false) ∧
        ((scenes k).escapeOn (rolls k)).1 = true) ∧
    (∀ (s : Scene σ) roll, ((s.escapeOn roll).1 = true ↔ roll < s.chance) ∧
      ((s.escapeOn roll).1 = false → (s.escapeOn roll).2.chance = s.chance + 10) ∧
      ((s.escapeOn roll).1 = true → (s.escapeOn roll).2 = s)) ∧
    ∀ (s t : Scene σ) roll, t.escapeAttempts = s.escapeAttempts → t.enemyAgility ≤ s.enemyAgility →
      s.partyAgility ≤ t.partyAgility →
        (s.escapeOn roll).1 = true → (t.escapeOn roll).1 = true := by
  refine ⟨fun s => ⟨s.game.dice.isPercentage, s.tryEscape_eq⟩,
    fun s => ⟨presentAgility_pos _, presentAgility_pos _⟩, hattempts.exists_success hrolls,
    fun s roll => ⟨escapeOn_succeeds_iff, chance_of_failure, escapeOn_of_success⟩, ?_⟩
  intro s t roll hcount henemies hparty hsuccess
  rw [escapeOn_succeeds_iff] at hsuccess ⊢
  exact Int.lt_of_lt_of_le hsuccess (chance_le hcount henemies hparty)

/-- A party against enemies three times as quick, two failures behind it. -/
def hunted : Scene InstantAssets :=
  { ofSetup {}
      { actors := [{ id := 1, name := "" }]
        enemies := [{ id := 1, name := "", stats := { agility := 60 } }] }
      { party := [1], troop := { members := [{ enemyId := 1 }] } } {} with
    escapeAttempts := 2 }

/-- Rolling the worst, it fails as often as it can. -/
theorem escape_bounded_of_hunted :
    (∀ _ : Nat, IsPercentage 99) ∧ Attempts (fun _ => 99) (attempting (fun _ => 99) hunted) ∧
      100 * hunted.enemyAgility / hunted.partyAgility = 300 ∧
      (∃ k : Nat, (k : Int) ≤ 23 ∧
        (∀ j < k, ((attempting (fun _ => 99) hunted j).escapeOn 99).1 = false) ∧
        ((attempting (fun _ => 99) hunted k).escapeOn 99).1 = true) ∧
      ∀ j < 23, ((attempting (fun _ => 99) hunted j).escapeOn 99).1 = false := by
  have hrolls : ∀ _ : Nat, IsPercentage 99 := fun _ => ⟨by decide, by decide⟩
  have hattempts := attempts_attempting (fun _ => 99) hunted
  obtain ⟨-, -, ⟨k, hk, hfails, hescapes⟩, -⟩ := escape_bounded hrolls hattempts
  have hratio : 100 * (attempting (fun _ => 99) hunted 0).enemyAgility /
      (attempting (fun _ => 99) hunted 0).partyAgility = 300 := by decide
  have hcount : (attempting (fun _ => 99) hunted 0).escapeAttempts = 2 := rfl
  rw [hratio, hcount] at hk
  refine ⟨hrolls, hattempts, hratio, ⟨k, hk.trans ?_, hfails, hescapes⟩, by decide⟩
  norm_num

end Scene

end ActiveBattle
