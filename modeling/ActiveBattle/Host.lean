import ActiveBattle.Game

/-!
# The host of a battle

What a battle needs from outside: sounds it plays, assets it asks for and polls, and the buttons of
a frame. A loader is any state that can number a request and say, poll by poll, whether one is
ready.
-/

namespace ActiveBattle

set_option autoImplicit false

/-- What a script or a scene can ask to be loaded. -/
inductive AssetKind where
  | picture
  | battler
  | backdrop
  | system
deriving DecidableEq

structure AssetRequest where
  number : Nat
deriving DecidableEq

/-- A state that answers requests for assets. -/
class AssetLoader (σ : Type) where
  request : σ → AssetKind → String → AssetRequest × σ
  isReady : σ → AssetRequest → Bool × σ

/-- A loader whose assets are always at hand. -/
structure InstantAssets where
  requested : Nat := 0
deriving DecidableEq

instance : AssetLoader InstantAssets where
  request a _ _ := (⟨a.requested + 1⟩, ⟨a.requested + 1⟩)
  isReady a _ := (true, a)

/-- A loader that finishes a load after a fixed number of polls. -/
structure DeferredAssets where
  latency : Nat
  requested : Nat := 0
  /-- Polls left for each load. -/
  pending : List (AssetRequest × Nat) := []
deriving DecidableEq

namespace DeferredAssets

/-- Polls the first load of a handle; an unknown one counts as done. -/
def poll (request : AssetRequest) : List (AssetRequest × Nat) → Bool × List (AssetRequest × Nat)
  | [] => (true, [])
  | (r, left) :: rest =>
    if r = request then (left = 0, (r, left - 1) :: rest)
    else
      let (ready, rest) := poll request rest
      (ready, (r, left) :: rest)

instance : AssetLoader DeferredAssets where
  request a _ _ :=
    let request : AssetRequest := ⟨a.requested + 1⟩
    (request,
      { a with requested := a.requested + 1, pending := a.pending ++ [(request, a.latency)] })
  isReady a request :=
    let (ready, pending) := poll request a.pending
    (ready, { a with pending := pending })

end DeferredAssets

inductive Button where
  | decision
  | cancel
  | shift
  | up
  | down
  | left
  | right
  | debugMenu
deriving DecidableEq

def Button.all : List Button := [.decision, .cancel, .shift, .up, .down, .left, .right, .debugMenu]

/-- The buttons of a frame: those pushed in this very frame and those held down. -/
structure InputState where
  triggered : List Button := []
  pressed : List Button := []
deriving DecidableEq

namespace InputState

def isTriggered (i : InputState) (b : Button) : Bool := i.triggered.contains b

def isPressed (i : InputState) (b : Button) : Bool := i.pressed.contains b

def press (i : InputState) (b : Button) : InputState := ⟨i.triggered.insert b, i.pressed.insert b⟩

/-- Keeps a button down without a new push. -/
def hold (i : InputState) (b : Button) : InputState := { i with pressed := i.pressed.insert b }

/-- The next frame: pushes are over, buttons stay down. -/
def nextFrame (i : InputState) : InputState := { i with triggered := [] }

def release : InputState := {}

end InputState

/-- A game together with what it has played and the loader it asks. -/
structure World (σ : Type) where
  game : GameState
  /-- Sounds played so far. -/
  sounds : Array SoundEffect := #[]
  assets : σ

namespace World

variable {σ : Type}

def modifyGame (w : World σ) (f : GameState → GameState) : World σ := { w with game := f w.game }

def play (w : World σ) (se : SoundEffect) : World σ := { w with sounds := w.sounds.push se }

def playSystem (w : World σ) (sound : SystemSound) : World σ :=
  w.play (w.game.database.systemSounds.get sound)

variable [AssetLoader σ]

def request (w : World σ) (kind : AssetKind) (name : String) : AssetRequest × World σ :=
  let (request, assets) := AssetLoader.request w.assets kind name
  (request, { w with assets := assets })

def isReady (w : World σ) (request : AssetRequest) : Bool × World σ :=
  let (ready, assets) := AssetLoader.isReady w.assets request
  (ready, { w with assets := assets })

end World

end ActiveBattle
