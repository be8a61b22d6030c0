import ActiveBattle.Action.Performance
import ActiveBattle.Main
import ActiveBattle.Proofs.Scene.Relapse
import ActiveBattle.Proofs.Scene.Restoring
import ActiveBattle.Proofs.Scene.Soundness
import ActiveBattle.Proofs.Scene.Rewarding
import ActiveBattle.Proofs.Scene.Starting
import ActiveBattle.Proofs.Scene.Suspension
import ActiveBattle.Proofs.Scene.Waiting
import ActiveBattle.Proofs.Script.LoopExit
import ActiveBattle.Proofs.Script.Structured
import ActiveBattle.Proofs.Scene.Ledger
import ActiveBattle.Proofs.Scene.Unbidden
import ActiveBattle.Proofs.Scene.Charging
import ActiveBattle.Proofs.Scene.Queueing
import ActiveBattle.Proofs.Script.Delivery
import ActiveBattle.Proofs.Scene.Finishing
import ActiveBattle.Proofs.Scene.Striking
import ActiveBattle.Proofs.Scene.Provisions
import ActiveBattle.Proofs.Scene.Ordering
import ActiveBattle.Proofs.Scene.Usage
import ActiveBattle.Proofs.Scene.Consumption
import ActiveBattle.Proofs.Script.Flight
import ActiveBattle.Proofs.Scene.Causes
import ActiveBattle.Proofs.Scene.Placing
import ActiveBattle.Proofs.Scene.Presentation
import ActiveBattle.Proofs.Scene.Interrupting
import ActiveBattle.Proofs.Script.Conditions
import ActiveBattle.Proofs.Roster.Filling
import ActiveBattle.Proofs.Scene.Discarding
import ActiveBattle.Proofs.Scene.Combos
import ActiveBattle.Proofs.Battler.Expiry
import ActiveBattle.Proofs.Battler.Wounds
import ActiveBattle.Proofs.Script.Surviving
import ActiveBattle.Proofs.Scene.Holding
import ActiveBattle.Proofs.Roster.Gains
import ActiveBattle.Proofs.Scene.Rows
import ActiveBattle.Proofs.Action.Choosing
import ActiveBattle.Proofs.Action.Damage
import ActiveBattle.Proofs.Action.Purpose
import ActiveBattle.Proofs.Script.Cells
import ActiveBattle.Proofs.Scene.Escaping
import ActiveBattle.Proofs.Roster.Seeding
import ActiveBattle.Proofs.Script.Extending
import ActiveBattle.Proofs.Script.Draining
import ActiveBattle.Proofs.Script.HookFlag
import ActiveBattle.Proofs.Scene.FrontRow
