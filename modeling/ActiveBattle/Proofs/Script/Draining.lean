import ActiveBattle.Proofs.Script.CallTree
import ActiveBattle.Proofs.Script.Repertoire
import ActiveBattle.Proofs.Script.Yielding

/-!
# Draining

A program that goes forward, and calls without cycles, comes to its end under any host that reads
what it is told and takes loads as done (`Execution.drains`). What it performs on the way is bounded
by its call tree (`length_hostedLines_le`), and while there are frames left it does not wait for
ever (`exists_more_lines`).
-/

namespace ActiveBattle

set_option autoImplicit false

/-- Takes the running frame back. -/
def Instruction.goesBack (inst : Instruction) : Bool :=
  inst.opcode = .endLoop || inst.opcode = .jumpToLabel

theorem Instruction.isForward_of {inst : Instruction} (hback : inst.goesBack = false)
    (hends : inst.opcode ≠ .terminateBattle) : inst.opcode.isForward = true := by
  unfold goesBack at hback
  cases hcode : inst.opcode <;> simp [hcode, Opcode.isForward] at hback hends ⊢

namespace ProgramStore

/-- The program is that of an event or of a page. -/
def Holds (store : ProgramStore) (program : Program) : Prop :=
  (∃ e ∈ store.events, program = e.instructions) ∨
    ∃ page ∈ store.troop.pages, program = page.instructions

variable {store : ProgramStore} {program q : Program}

theorem Lacks.of_holds {p : Instruction → Bool} (h : store.Lacks p)
    (hprogram : store.Holds program) :
    ∀ inst ∈ program, p inst = false := by
  obtain ⟨e, he, rfl⟩ | ⟨page, hpage, rfl⟩ := hprogram
  · exact h.1 e he
  · exact h.2 page hpage

theorem Reaches.holds (hprogram : store.Holds program) (h : store.Reaches program q) :
    store.Holds q := by
  cases h with
  | start => exact hprogram
  | calls _ _ hcalls => exact .inl ⟨_, List.mem_of_find?_eq_some hcalls.2, rfl⟩

theorem forwards_of_lacks (hback : store.Lacks (·.goesBack)) (hprogram : store.Holds program)
    (hends : ∀ q, store.Reaches program q → ∀ inst ∈ q, inst.opcode ≠ .terminateBattle) :
    store.Forwards (store.Reaches program) where
  forward q hq inst hinst :=
    Instruction.isForward_of (hback.of_holds (hq.holds hprogram) inst hinst) (hends q hq inst hinst)
  calls _ hq _ hinst _ hcalls := hq.calls hinst hcalls

end ProgramStore

/-- Sooner or later the host reads a message that is open, and takes a load that is pending as
done. -/
structure Visits.Serves {σ : Type} (v : Visits) (y : Nat → Execution BattleScript σ) : Prop where
  reads : ∀ n, (y n).game.message.isActive = true → ∃ k, n ≤ k ∧ 0 < (v k).dismissed
  loads : ∀ n, (y n).interp.isAsyncPending = true → ∃ k, n ≤ k ∧ (v k).allowSuspend = false

namespace Execution

/-- A program on an interpreter that has run nothing yet. -/
def launched {σ : Type} (config : BattleConfig) (program : Program) (owner : OwnerTag)
    (s : BattleScript) (w : World σ) :
    Execution BattleScript σ := ⟨(Interpreter.ofConfig config).push program owner, s, w⟩

variable {σ : Type} [AssetLoader σ] {c : CommandSet} {store : ProgramStore} {v : Visits}
  {x : Execution BattleScript σ} {P : Program → Prop}

theorem hosted_passage (hP : store.Forwards P) (hx : x.interp.Flows P) (n : Nat) :
    Passage store x.interp.stack (x.hostedLines c store v n) (x.hosted c store v n).interp.stack ∧
      (x.hosted c store v n).interp.Flows P := by
  induction n with
  | zero => exact ⟨.start, hx⟩
  | succ n ih =>
    obtain ⟨hpassage, hflows⟩ := ih
    obtain ⟨hvisit, hafter⟩ := (hosted_runs c store v x n).passage hP hflows trivial
    exact ⟨hpassage.trans hvisit, hafter⟩

/-- However often the host comes by, no more lines are performed than the program takes. -/
theorem length_hostedLines_le (hP : store.Forwards P) (hx : x.interp.Flows P) {bound : Nat}
    (howes : Owes store x.interp.stack bound) (n : Nat) :
    (x.hostedLines c store v n).length ≤ bound := by
  obtain ⟨left, hleft, -⟩ := (hosted_passage hP hx n).1.owes howes
  exact Nat.le_trans (Nat.le_add_right _ left) hleft

theorem hosted_stack_nil (hP : store.Forwards P) (hx : x.interp.Flows P) {m n : Nat} (hmn : m ≤ n)
    (hdone : (x.hosted c store v m).interp.stack = []) :
    (x.hosted c store v n).interp.stack = [] := by
  induction n, hmn using Nat.le_induction with
  | base => exact hdone
  | succ n _ ih =>
    have hvisit := ((hosted_runs c store v x n).passage hP (hosted_passage hP hx n).2 trivial).1
    exact hvisit.of_nil ih

/-- While there are frames left, another line comes. -/
theorem exists_more_lines (hP : store.Forwards P) (hx : x.interp.Flows P)
    (hlimit : 0 < x.interp.loopLimit) (hserves : v.Serves (x.hosted c store v))
    (hleft : ∀ n, (x.hosted c store v n).interp.stack ≠ []) (N : Nat) :
    ∃ n, (x.hostedLines c store v N).length < (x.hostedLines c store v n).length := by
  by_contra hstuck
  have hloaded : (x.hosted c store v N).interp.asyncOp = .none ∨
      ∃ k, N ≤ k ∧ (v k).allowSuspend = false := by
    by_cases hpending : (x.hosted c store v N).interp.isAsyncPending = true
    · exact .inr (hserves.loads N hpending)
    · exact .inl (by simpa [Interpreter.isAsyncPending] using hpending)
  apply not_waits_forever hloaded hserves.reads
  intro n hn
  have hrun := hosted_runs c store v x n
  rw [added_eq_nil (fun _ => rfl) hstuck hn] at hrun
  apply hrun.waits_of_silent
  · rw [hosted_loopLimit]
    exact hlimit
  · exact (hosted_passage hP hx n).2.goesOn
  · exact hleft (n + 1)

/-- Since there are but so many lines, the frames run out. -/
theorem exists_drained (hP : store.Forwards P) (hx : x.interp.Flows P)
    (hlimit : 0 < x.interp.loopLimit) (hserves : v.Serves (x.hosted c store v)) {bound : Nat}
    (howes : Owes store x.interp.stack bound) :
    ∃ N, (x.hosted c store v N).interp.stack = [] := by
  by_contra hnever
  have hleft (n : Nat) : (x.hosted c store v n).interp.stack ≠ [] := by
    intro hdone
    exact hnever ⟨n, hdone⟩
  have hgrows (k : Nat) : ∃ n, k ≤ (x.hostedLines c store v n).length := by
    induction k with
    | zero => exact ⟨0, Nat.zero_le _⟩
    | succ k ih =>
      obtain ⟨n, hn⟩ := ih
      obtain ⟨m, hm⟩ := exists_more_lines hP hx hlimit hserves hleft n
      exact ⟨m, Nat.lt_of_le_of_lt hn hm⟩
  obtain ⟨n, hn⟩ := hgrows (bound + 1)
  exact absurd (length_hostedLines_le hP hx howes n) (Nat.not_le_of_lt hn)

/-- A program of a store where nothing goes back and no event calls itself drains: under a host that
reads messages and takes loads as done, the stack becomes empty and stays so. The frames that there
are at any time are what the lines performed until then have made of the first, and each frame goes
through its program in order, performing no line twice. The battle stops where a change raises the
flag `emptyRange` of a battler, which sound battlers never raise, and all of this with it. -/
theorem drains (c : CommandSet) {config : BattleConfig} (hconfig : config.Valid)
    (hback : store.Lacks (·.goesBack)) (hacyclic : store.Acyclic) {program : Program}
    (hprogram : store.Holds program)
    (hends : ∀ q, store.Reaches program q → ∀ inst ∈ q, inst.opcode ≠ .terminateBattle)
    (owner : OwnerTag) (s : BattleScript) (w : World σ)
    (hserves : v.Serves ((launched config program owner s w).hosted c store v)) :
    (∃ N, ∀ n, N ≤ n → ((launched config program owner s w).hosted c store v n).interp.stack = []) ∧
      ∀ n, Passage store [⟨owner, program, 0, []⟩]
        ((launched config program owner s w).hostedLines c store v n)
          ((launched config program owner s w).hosted c store v n).interp.stack ∧
        InOrder ((launched config program owner s w).hostedLines c store v n) := by
  have hP := ProgramStore.forwards_of_lacks hback hprogram hends
  have hx : (launched config program owner s w).interp.Flows (store.Reaches program) := by
    refine ⟨?_, nofun⟩
    intro f hf
    rw [List.mem_singleton.mp hf]
    exact .start
  obtain ⟨bound, htakes⟩ := hacyclic.exists_takes program
  have howes : Owes store (launched config program owner s w).interp.stack (bound + 0) :=
    .cons htakes .nil
  obtain ⟨N, hdone⟩ := exists_drained hP hx hconfig.limit_pos hserves howes
  constructor
  · exact ⟨N, fun n hn => hosted_stack_nil hP hx hn hdone⟩
  · intro n
    obtain ⟨hpassage, -⟩ := hosted_passage (c := c) (v := v) hP hx n
    exact ⟨hpassage, hpassage.inOrder⟩

/-- A page that calls two events and breaks out of no loop. -/
def brokenPage : Program :=
  [{ opcode := .callCommonEvent, params := [1] }, { opcode := .callEvent, params := [2] },
    { opcode := .breakLoop }, { opcode := .wait }]

/-- Of the events one calls the other, which has a branch with no end. -/
def brokenTale : ProgramStore := .ofEvents
  [{ id := 1
     instructions :=
       [{ opcode := .showMessage, text := some "" }, { opcode := .callEvent, params := [2] },
         { opcode := .wait, params := [1] }] },
    { id := 2
      instructions :=
        [{ opcode := .showPicture, text := some "" }, { opcode := .conditionalBranch },
          { opcode := .wait }] }]
  { pages := [{ instructions := brokenPage }] }

/-- A host that reads a page at every other visit, and at every fourth goes on without what is not
loaded. -/
def dawdler : Visits := fun n => { dismissed := n % 2, allowSuspend := decide (n % 4 ≠ 3) }

/-- Two instructions an update, and pictures that come late. -/
def telling : Execution BattleScript DeferredAssets :=
  launched { interpreterLoopLimit := 2 } brokenPage (.ofPage 1) (.ofConfig {})
    { game := {}, assets := { latency := 9 } }

theorem drains_of_telling :
    BattleConfig.Valid { interpreterLoopLimit := 2 } ∧ brokenTale.Lacks (·.goesBack) ∧
      brokenTale.Acyclic ∧
      brokenTale.Holds brokenPage ∧
      (∀ q, brokenTale.Reaches brokenPage q → ∀ inst ∈ q, inst.opcode ≠ .terminateBattle) ∧
      dawdler.Serves (telling.hosted .battle brokenTale dawdler) ∧
      (∃ N, ∀ n, N ≤ n → (telling.hosted .battle brokenTale dawdler n).interp.stack = []) ∧
      (∀ n, Passage brokenTale [⟨.ofPage 1, brokenPage, 0, []⟩]
        (telling.hostedLines .battle brokenTale dawdler n)
          (telling.hosted .battle brokenTale dawdler n).interp.stack ∧
        InOrder (telling.hostedLines .battle brokenTale dawdler n)) ∧
      (telling.hosted .battle brokenTale dawdler 3).interp.stack.map (·.cursor) = [1, 2, 1] ∧
      ((telling.hostedLines .battle brokenTale dawdler 16).map fun l => (l.depth, l.inst.opcode)) =
        [(1, .callCommonEvent), (2, .showMessage), (2, .callEvent), (3, .showPicture),
        (3, .conditionalBranch),
          (2, .wait), (1, .callEvent), (2, .showPicture), (2, .conditionalBranch),
            (1, .breakLoop)] := by
  have hconfig : BattleConfig.Valid { interpreterLoopLimit := 2 } := by constructor <;> decide
  have hback : brokenTale.Lacks (·.goesBack) := by
    unfold ProgramStore.Lacks ProgramStore.EventsWithin ProgramStore.PagesWithin
    decide
  have hlacks : brokenTale.Lacks (·.opcode = .terminateBattle) := by
    unfold ProgramStore.Lacks ProgramStore.EventsWithin ProgramStore.PagesWithin
    decide
  have hcalls : ∀ caller ∈ brokenTale.events, ∀ inst ∈ caller.instructions,
      ∀ callee ∈ brokenTale.event? (inst.param 0), (2 - callee.id).toNat < (2 - caller.id).toNat ∨
        ¬(inst.opcode = .callEvent ∨ inst.opcode = .callCommonEvent) := by
    decide
  have hacyclic : brokenTale.Acyclic := by
    apply ProgramStore.acyclic_of_rank fun e => (2 - e.id).toNat
    rintro caller callee ⟨hcaller, inst, hinst, hcode, hcallee⟩
    exact (hcalls caller hcaller inst hinst callee hcallee).resolve_right (not_not_intro hcode)
  have hpage : brokenTale.Holds brokenPage := .inr ⟨_, List.mem_singleton_self _, rfl⟩
  have hends : ∀ q, brokenTale.Reaches brokenPage q →
      ∀ inst ∈ q, inst.opcode ≠ .terminateBattle := by
    intro q hq inst hinst
    exact of_decide_eq_false (hlacks.of_holds (hq.holds hpage) inst hinst)
  have hserves : dawdler.Serves (telling.hosted .battle brokenTale dawdler) := by
    constructor
    · intro n _
      exact ⟨2 * n + 1, by omega, by simp [dawdler]⟩
    · intro n _
      exact ⟨4 * n + 3, by omega, by simp [dawdler]⟩
  obtain ⟨hdone, hpassages⟩ :=
    drains .battle hconfig hback hacyclic hpage hends (.ofPage 1) (.ofConfig {}) _ hserves
  exact ⟨hconfig, hback, hacyclic, hpage, hends, hserves, hdone, hpassages, by decide +kernel,
    by decide +kernel⟩

end Execution

end ActiveBattle
