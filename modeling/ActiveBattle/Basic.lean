/-!
# Basic nouns

Sides, battler references, results and screen points, together with the integer bounds that stored
values are held in.

Stored numbers are operands of 32 bits, but most arithmetic here is on integers without bound. It is
wrapped where waits, rewards, experience, means and weights are computed (`wrapOperand`), and
saturates where scripts write. That turn counters, gauge gains, the powers of attacks and
coordinates outgrow the operands is left out.
-/

namespace ActiveBattle

set_option autoImplicit false

/-- `n` held between `lo` and `hi`; the lower bound wins when the bounds cross. -/
def clamp (lo hi n : Int) : Int := max lo (min n hi)

theorem clamp_of_mem {lo hi n : Int} (hlo : lo ≤ n) (hhi : n ≤ hi) : clamp lo hi n = n := by
  unfold clamp; omega

theorem le_clamp (lo hi n : Int) : lo ≤ clamp lo hi n := by
  unfold clamp; omega

theorem clamp_le {lo hi : Int} (h : lo ≤ hi) (n : Int) : clamp lo hi n ≤ hi := by
  unfold clamp; omega

/-- The least and the greatest value of a script operand. -/
def operandMin : Int := -2147483648

@[inherit_doc operandMin]
def operandMax : Int := 2147483647

def IsOperand (n : Int) : Prop := operandMin ≤ n ∧ n ≤ operandMax

instance (n : Int) : Decidable (IsOperand n) :=
  inferInstanceAs (Decidable (operandMin ≤ n ∧ n ≤ operandMax))

/-- Operand arithmetic stops at the ends of the operand range. -/
def saturate (n : Int) : Int := clamp operandMin operandMax n

/-- The operand with the same 32 low bits: what is left of a sum or a product that outgrows the
operands. -/
def wrapOperand (n : Int) : Int := n.bmod 4294967296

theorem isOperand_wrapOperand (n : Int) : IsOperand (wrapOperand n) := by
  have hlo : -(4294967296 / 2 : Int) ≤ wrapOperand n := Int.le_bmod (by decide)
  have hhi : wrapOperand n < (4294967296 + 1) / 2 := Int.bmod_lt (by decide)
  unfold IsOperand operandMin operandMax
  omega

theorem wrapOperand_of_isOperand {n : Int} (h : IsOperand n) : wrapOperand n = n := by
  obtain ⟨hlo, hhi⟩ := h
  unfold operandMin at hlo
  unfold operandMax at hhi
  unfold wrapOperand
  rw [Int.bmod_eq_of_le] <;> omega

theorem wrapOperand_natCast {n : Nat} (h : (n : Int) ≤ operandMax) : wrapOperand n = n :=
  wrapOperand_of_isOperand ⟨Int.le_trans (by decide) (Int.natCast_nonneg n), h⟩

/-- Sums may be wrapped as they are added up. -/
theorem wrapOperand_add (a b : Int) : wrapOperand (wrapOperand a + b) = wrapOperand (a + b) :=
  Int.bmod_add_bmod

inductive Side where
  | ally
  | enemy
deriving DecidableEq

def Side.opposite : Side → Side
  | .ally => .enemy
  | .enemy => .ally

@[simp] theorem Side.opposite_opposite (s : Side) : s.opposite.opposite = s := by
  cases s <;> rfl

/-- A reference to a combatant: actors by database id, enemies by their place in the troop. -/
inductive BattlerId where
  | actor (id : Int)
  | enemy (index : Nat)
deriving DecidableEq

namespace BattlerId

def side : BattlerId → Side
  | actor _ => .ally
  | enemy _ => .enemy

def isAlly : BattlerId → Bool
  | actor _ => true
  | enemy _ => false

/-- The text the scene log uses for a battler. -/
def describe : BattlerId → String
  | actor id => s!"Actor({id})"
  | enemy index => s!"Enemy({index})"

/-- The reference as a script sees it: a side code (0 ally, 1 enemy) and a number. A script keeps of
a place what fits an operand. -/
def codes : BattlerId → Int × Int
  | actor id => (0, id)
  | enemy index => (1, wrapOperand index)

theorem isAlly_iff_side (b : BattlerId) : b.isAlly = true ↔ b.side = .ally := by
  cases b <;> simp [isAlly, side]

end BattlerId

/-- How a battle ended; a script or a countdown ends it by `abort`. -/
inductive BattleResult where
  | victory
  | escape
  | defeat
  | abort
deriving DecidableEq

def BattleResult.describe : BattleResult → String
  | victory => "Victory"
  | escape => "Escape"
  | defeat => "Defeat"
  | abort => "Abort"

structure Point where
  x : Int := 0
  y : Int := 0
deriving DecidableEq

end ActiveBattle
