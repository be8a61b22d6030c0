import ActiveBattle.Basic

/-!
# The battle's dice

A counter-mode generator: word `n` of a seed depends on nothing but the seed and `n`. Words come
from the eight-round ChaCha block function, keyed by eight words expanded from the seed. Ranged
draws multiply a word by the size of the range and reject the words that would make some outcomes
likelier than others.
-/

namespace ActiveBattle

set_option autoImplicit false

/-- A seed and the number of words drawn from it so far. -/
structure Dice where
  seed : UInt64
  drawn : Nat := 0
deriving DecidableEq

namespace Dice

/-- The state of the seed expander before it gives key word `i`. -/
def expanderState (seed : UInt64) : Nat → UInt64
  | 0 => seed * 6364136223846793005 + 11634580027462260723
  | i + 1 => expanderState seed i * 6364136223846793005 + 11634580027462260723

def rotateRight (x : UInt32) (k : UInt32) : UInt32 :=
  (x >>> k) ||| (x <<< ((32 - k) &&& 31))

def rotateLeft (x : UInt32) (k : UInt32) : UInt32 :=
  (x <<< k) ||| (x >>> (32 - k))

/-- Key word `i`: the high bits of the expander's state, folded and rotated by its top five bits. -/
def keyWord (seed : UInt64) (i : Nat) : UInt32 :=
  let s := expanderState seed i
  rotateRight (((s >>> 18) ^^^ s) >>> 27).toUInt32 (s >>> 59).toUInt32

abbrev Block := Vector UInt32 16

def quarterRound (a b c d : Fin 16) (s : Block) : Block :=
  let x := s[a] + s[b]
  let w := rotateLeft (s[d] ^^^ x) 16
  let z := s[c] + w
  let y := rotateLeft (s[b] ^^^ z) 12
  let x := x + y
  let w := rotateLeft (w ^^^ x) 8
  let z := z + w
  let y := rotateLeft (y ^^^ z) 7
  (((s.set a x).set b y).set c z).set d w

/-- A round over the columns, then one over the diagonals. -/
def doubleRound (s : Block) : Block :=
  s |> quarterRound 0 4 8 12 |> quarterRound 1 5 9 13 |> quarterRound 2 6 10 14
    |> quarterRound 3 7 11 15 |> quarterRound 0 5 10 15 |> quarterRound 1 6 11 12
    |> quarterRound 2 7 8 13 |> quarterRound 3 4 9 14

/-- Constants, key, block counter and an empty nonce. -/
def startBlock (seed : UInt64) (counter : Nat) : Block :=
  #v[0x61707865, 0x3320646e, 0x79622d32, 0x6b206574,
    keyWord seed 0, keyWord seed 1, keyWord seed 2, keyWord seed 3,
    keyWord seed 4, keyWord seed 5, keyWord seed 6, keyWord seed 7,
    counter.toUInt32, (counter / 4294967296).toUInt32, 0, 0]

def block (seed : UInt64) (counter : Nat) : Block :=
  let start := startBlock seed counter
  let mixed := start |> doubleRound |> doubleRound |> doubleRound |> doubleRound
  start.zipWith (· + ·) mixed

def word (seed : UInt64) (n : Nat) : UInt32 :=
  (block seed (n / 16)).get ⟨n % 16, Nat.mod_lt n (by decide)⟩

/-- The next word, not consumed. -/
def peek (d : Dice) : UInt32 := word d.seed d.drawn

def next (d : Dice) : Nat × Dice := (d.peek.toNat, { d with drawn := d.drawn + 1 })

/-- Draws two words as one number, the low half first. -/
def nextDouble (d : Dice) : Nat × Dice :=
  let (low, d) := d.next
  let (high, d) := d.next
  (high * 4294967296 + low, d)

/-- The number of words of a width. -/
def wordCount (width : Nat) : Nat := Nat.pow 2 width

theorem wordCount_pos (width : Nat) : 0 < wordCount width := Nat.two_pow_pos width

/-- The greatest low half that a draw of `width` bits over `n` outcomes accepts. -/
def acceptLimit (width n : Nat) : Nat := n * wordCount (width - 1 - Nat.log2 n) - 1

/-- Redraws until a word is accepted. At least half of all words are, so the bound on the redraws is
out of reach; past it the first outcome is taken. -/
def accept (width n : Nat) (draw : Dice → Nat × Dice) : Nat → Dice → Nat × Dice
  | 0, d => (0, d)
  | attempts + 1, d =>
    let (v, d) := draw d
    let product := v * n
    if product % wordCount width ≤ acceptLimit width n then (product / wordCount width, d)
    else accept width n draw attempts d

/-- Redraws allowed before the first outcome is taken. -/
def maxAttempts : Nat := 512

/-- A uniform operand in `lo..=hi`. A range that spans every operand takes the word as it is. -/
def between (lo hi : Int) (d : Dice) : Int × Dice :=
  let size := ((hi - lo + 1) % 4294967296).toNat
  if size = 0 then
    let (v, d) := d.next
    (wrapOperand v, d)
  else
    let (v, d) := accept 32 size next maxAttempts d
    (lo + v, d)

def index (n : Nat) (d : Dice) : Nat × Dice := accept 64 n nextDouble maxAttempts d

/-- A uniform percentage roll in `0..100`. -/
def percent (d : Dice) : Int × Dice := d.between 0 99

theorem accept_lt {width n : Nat} {draw : Dice → Nat × Dice} (hn : 0 < n)
    (hdraw : ∀ d, (draw d).1 < wordCount width) (attempts : Nat) (d : Dice) :
    (accept width n draw attempts d).1 < n := by
  induction attempts generalizing d with
  | zero => exact hn
  | succ k ih =>
    simp only [accept]
    split
    · have h := hdraw d
      exact (Nat.div_lt_iff_lt_mul (wordCount_pos width)).2
        (by rw [Nat.mul_comm n]; exact Nat.mul_lt_mul_of_pos_right h hn)
    · exact ih _

theorem next_lt (d : Dice) : d.next.1 < wordCount 32 := d.peek.toNat_lt

theorem nextDouble_lt (d : Dice) : d.nextDouble.1 < wordCount 64 := by
  have h1 : d.next.1 < 4294967296 := next_lt d
  have h2 : d.next.2.next.1 < 4294967296 := next_lt d.next.2
  change d.next.2.next.1 * 4294967296 + d.next.1 < 18446744073709551616
  omega

end Dice

end ActiveBattle
