import ActiveBattle.Proofs.Scene.Frames
import ActiveBattle.Proofs.Script.Waiting

/-!
# How long the scripts of a scene wait

A wait holds its interpreter for so many updates, which is a matter of updates and not of frames.
Whoever waits is not waiting for an asset, so its one update in a frame is its turn in the round of
all scripts, and a wait that begins in a round lasts its frames (`waits_last`). An update for an
asset is followed by the round of the same frame, and hooks are updated as often as they are called.
A wait whose length wraps below zero holds nobody.
-/

namespace ActiveBattle

set_option autoImplicit false

namespace Scene

namespace Scripts

variable {σ : Type} [AssetLoader σ] {a b : Scripts} {seat : Seat} {pump : Option Pump} {p : Pump}
  {n : Int}

/-- The interpreter of a seat rests, or the battle is over. -/
def Rests (a : Scripts) (seat : Seat) (n : Int) : Prop :=
  a.ended = true ∨ ∃ i, a.interp? seat = some i ∧ i.Rests n

/-- Nothing suspends the interpreter of a seat, or the battle is over. -/
def Free (a : Scripts) (seat : Seat) : Prop :=
  a.ended = true ∨ ∃ i, a.interp? seat = some i ∧ i.isSuspended = false

theorem Entered.framesPerSecond {i j : Interpreter} (h : a.Entered i seat j) :
    j.framesPerSecond = i.framesPerSecond := by
  cases h with
  | event hrunner =>
    unfold EventRunner.started
    split <;> rfl
  | _ => rfl

theorem Entered.waitFrames {i j : Interpreter} (h : a.Entered i seat j) :
    j.waitFrames = i.waitFrames := by
  cases h with
  | event hrunner =>
    unfold EventRunner.started
    split <;> rfl
  | _ => rfl

theorem Entered.rests {i j : Interpreter} (h : a.Entered i seat j) (hi : i.Rests n) :
    j.Rests n := by
  cases h with
  | main => exact hi
  | hooks => exact hi
  | event hrunner =>
    have hrunning : i.isRunning = true := by simpa [Interpreter.isRunning] using hi.stack
    unfold EventRunner.started
    rw [if_pos hrunning]
    exact hi
  | call hevent program => exact ⟨hi.async, hi.wait, List.cons_ne_nil _ _⟩

theorem rated_kept (σ : Type) [AssetLoader σ] (store : ProgramStore) (events : List CommonEvent)
    (rate : Seat → Int) :
    Kept σ store events fun seat i => i.framesPerSecond = rate seat where
  page _ _ _ h _ := h
  starts _ _ _ h _ _ := h
  ends _ h := h
  restarts _ _ _ h _ _ := h
  calls _ _ _ _ h _ := h
  updates _ _ _ _ _ hruns h :=
  (hruns.upheld (Interpreter.settings_upheld store _ _) ⟨rfl, h⟩ trivial).1.2

/-- Who waits is not updated for an asset, and each of its updates counts. -/
theorem Beat.rests (h : Beat σ a (some p) b) (ha : a.Rests p.seat n) :
    p.occasion ≠ .asset ∧ (0 < n → p.lines = [] ∧ b.Rests p.seat (n - 1)) := by
  cases h with
  | @pump seat occasion i x y log hopen hi hentered hasset hruns =>
    rcases ha with hended | ⟨j, hj, hrests⟩
    · exact absurd (hopen.symm.trans hended) nofun
    · obtain rfl := Option.some.inj (hi.symm.trans hj)
      have hoccasion : occasion ≠ .asset := by
        intro hload
        have hwaits := hasset hload
        rw [hrests.async] at hwaits
        contradiction
      refine ⟨hoccasion, fun hn => ?_⟩
      have hsuspends : occasion.allowsSuspend = true := by
        cases occasion <;> first | rfl | contradiction
      rw [hsuspends] at hruns
      obtain ⟨rfl, hleft⟩ := hruns.rests (hentered.rests hrests) hn
      exact ⟨rfl, .inr ⟨y.interp, interp?_put_self hi _, hleft⟩⟩

theorem Beat.rests_of_ne (h : Beat σ a pump b) (hseat : ∀ p ∈ pump, p.seat ≠ seat)
    (ha : a.Rests seat n) :
    b.Rests seat n := by
  have hmain (i : Interpreter) (hidle : a.main.stack = []) :
      ({ a with main := i } : Scripts).Rests seat n := by
    rcases ha with hended | ⟨j, hj, hrests⟩
    · exact .inl hended
    · cases seat with
      | main =>
        obtain rfl := Option.some.inj hj
        exact absurd hidle hrests.stack
      | event index => exact .inr ⟨j, hj, hrests⟩
      | hooks => exact .inr ⟨j, hj, hrests⟩
  cases h with
  | page _ hidle _ => exact hmain _ hidle
  | starts _ hidle _ => exact hmain _ hidle
  | ends _ => exact .inl rfl
  | @pump other occasion i x y log hopen hi hentered hasset hruns =>
    rcases ha with hended | ⟨j, hj, hrests⟩
    · exact absurd (hopen.symm.trans hended) nofun
    · exact .inr ⟨j, (interp?_put_of_ne (Ne.symm (hseat _ rfl)) _).trans hj, hrests⟩

theorem Beat.waits {rate : Seat → Int} (h : Beat σ a (some p) b)
    (ha : a.All fun seat i => i.framesPerSecond = rate seat) {before after : List Instruction}
    {inst : Instruction} (hlines : p.lines = before ++ inst :: after) (hwait : inst.opcode = .wait)
    (hlength : 0 ≤ waitLength (rate p.seat) (inst.param 0)) :
    after = [] ∧ b.Rests p.seat (waitLength (rate p.seat) (inst.param 0)) := by
  cases h with
  | @pump seat occasion i x y log hopen hi hentered hasset hruns =>
    obtain ⟨lines, rest, rfl, rfl, hrest⟩ := List.map_eq_append_iff.mp hlines
    obtain ⟨line, last, rfl, rfl, rfl⟩ := List.map_eq_cons_iff.mp hrest
    have hsame : x.interp.framesPerSecond = rate seat :=
      hentered.framesPerSecond.trans (ha seat i hi)
    have hlast := hruns.wait_last trivial rfl hwait (by rw [hsame]; exact hlength)
    rw [hsame] at hlast
    obtain ⟨rfl, hrests⟩ := hlast
    exact ⟨rfl, .inr ⟨y.interp, interp?_put_self hi _, hrests⟩⟩

theorem Beat.free_of_wait {rate : Seat → Int} (h : Beat σ a (some p) b)
    (ha : a.All fun seat i => i.framesPerSecond = rate seat) {before : List Instruction}
    {inst : Instruction} (hlines : p.lines = before ++ [inst])
    (hneg : inst.IsNegativeWait (rate p.seat)) : b.Free p.seat := by
  cases h with
  | @pump seat occasion i x y log hopen hi hentered hasset hruns =>
    obtain ⟨lines, rest, rfl, rfl, hrest⟩ := List.map_eq_append_iff.mp hlines
    obtain ⟨line, last, rfl, rfl, hnone⟩ := List.map_eq_cons_iff.mp hrest
    obtain rfl := List.map_eq_nil_iff.mp hnone
    have hsame : x.interp.framesPerSecond = rate seat :=
      hentered.framesPerSecond.trans (ha seat i hi)
    obtain ⟨hasync, hcounter⟩ := hruns.last_wait trivial rfl hneg.1
    rw [hsame] at hcounter
    have hpending : y.interp.isAsyncPending = false := by simp [Interpreter.isAsyncPending, hasync]
    have hwaiting : y.interp.isWaiting = false := by
      refine decide_eq_false (Int.not_lt.mpr ?_)
      rw [hcounter]
      exact Int.le_of_lt hneg.2
    exact .inr ⟨y.interp, interp?_put_self hi _, Interpreter.isSuspended_eq_false hpending hwaiting⟩

/-- As long as it is not updated, nothing comes to suspend it. -/
theorem Beat.free_of_ne (h : Beat σ a pump b) (hseat : ∀ p ∈ pump, p.seat ≠ seat)
    (ha : a.Free seat) :
    b.Free seat := by
  have hmain {i : Interpreter} (hi : a.main.isSuspended = false → i.isSuspended = false) :
      ({ a with main := i } : Scripts).Free seat := by
    rcases ha with hended | ⟨j, hj, hfree⟩
    · exact .inl hended
    · cases seat with
      | main =>
        obtain rfl := Option.some.inj hj
        exact .inr ⟨i, rfl, hi hfree⟩
      | event index => exact .inr ⟨j, hj, hfree⟩
      | hooks => exact .inr ⟨j, hj, hfree⟩
  cases h with
  | page _ _ _ => exact hmain fun _ => rfl
  | starts _ _ _ => exact hmain id
  | ends _ => exact .inl rfl
  | @pump other occasion i x y log hopen hi hentered hasset hruns =>
    rcases ha with hended | ⟨j, hj, hfree⟩
    · exact absurd (hopen.symm.trans hended) nofun
    · exact .inr ⟨j, (interp?_put_of_ne (Ne.symm (hseat _ rfl)) _).trans hj, hfree⟩

theorem Beats.free_of_ne {pumps : List Pump} (h : Beats σ a pumps b)
    (hseat : ∀ p ∈ pumps, p.seat ≠ seat) (ha : a.Free seat) : b.Free seat := by
  induction h with
  | refl => exact ha
  | @tail pumps b c pump _ hbeat ih =>
    obtain ⟨hbefore, hlast⟩ := List.forall_mem_append.mp hseat
    exact hbeat.free_of_ne (fun p hp => hlast p (Option.mem_toList.mpr hp)) (ih hbefore)

/-- What brings the counter of a seat below zero is a wait of negative length that the seat
performs. -/
theorem Beat.wait_nonneg {rate : Seat → Int} (h : Beat σ a pump b)
    (hrate : a.All fun seat i => i.framesPerSecond = rate seat)
    (ha : ∀ i ∈ a.interp? seat, 0 ≤ i.waitFrames)
    (hpump : ∀ p ∈ pump, p.seat = seat → ∀ inst ∈ p.lines, ¬inst.IsNegativeWait (rate seat)) :
    ∀ i ∈ b.interp? seat, 0 ≤ i.waitFrames := by
  have hmain (i : Interpreter) (hi : 0 ≤ a.main.waitFrames → 0 ≤ i.waitFrames) (ended : Bool) :
      ∀ j ∈ ({ a with main := i, ended := ended } : Scripts).interp? seat, 0 ≤ j.waitFrames := by
    intro j hj
    cases seat with
    | main =>
      obtain rfl := Option.some.inj hj
      exact hi (ha a.main rfl)
    | event index => exact ha j hj
    | hooks => exact ha j hj
  cases h with
  | page _ _ _ => exact hmain _ (fun _ => Int.le_refl 0) a.ended
  | @starts _ event _ _ _ => exact hmain (a.main.pushEvent event) id a.ended
  | ends _ => exact hmain _ (fun _ => Int.le_refl 0) true
  | @pump other occasion i x y log hopen hi hentered hasset hruns =>
    intro j hj
    by_cases hseat : seat = other
    · subst hseat
      obtain rfl := Option.some.inj ((interp?_put_self hi _).symm.trans hj)
      have hsame : x.interp.framesPerSecond = rate seat :=
        hentered.framesPerSecond.trans (hrate seat i hi)
      have hx : 0 ≤ x.interp.waitFrames := by
        rw [hentered.waitFrames]
        exact ha i hi
      refine hruns.wait_nonneg trivial hx fun line hline => ?_
      rw [hsame]
      exact hpump _ rfl rfl line.inst (List.mem_map_of_mem hline)
    · rw [interp?_put_of_ne hseat] at hj
      exact ha j hj

namespace Beats

theorem wait_nonneg {rate : Seat → Int} {pumps : List Pump} (h : Beats σ a pumps b)
    (hrate : a.All fun seat i => i.framesPerSecond = rate seat)
    (ha : ∀ i ∈ a.interp? seat, 0 ≤ i.waitFrames)
    (hpumps : ∀ p ∈ pumps, p.seat = seat → ∀ inst ∈ p.lines, ¬inst.IsNegativeWait (rate seat)) :
    ∀ i ∈ b.interp? seat, 0 ≤ i.waitFrames := by
  induction h with
  | refl => exact ha
  | @tail pumps b c pump h hbeat ih =>
    obtain ⟨hbefore, hlast⟩ := List.forall_mem_append.mp hpumps
    have hkept := h.all (rated_kept σ a.store _ rate) rfl rfl hrate
    exact hbeat.wait_nonneg hkept (ih hbefore) fun p hp => hlast p (Option.mem_toList.mpr hp)

theorem split {pumps before after : List Pump} (h : Beats σ a pumps b)
    (hpumps : pumps = before ++ p :: after) :
    ∃ c d, Beats σ a before c ∧ Beat σ c (some p) d ∧ Beats σ d after b := by
  induction h generalizing after with
  | refl => simp at hpumps
  | @tail pumps b c pump h hbeat ih =>
    cases pump with
    | none =>
      rw [Option.toList_none, List.append_nil] at hpumps
      obtain ⟨d, e, hbefore, hp, hafter⟩ := ih hpumps
      refine ⟨d, e, hbefore, hp, ?_⟩
      rw [← List.append_nil after]
      exact hafter.tail hbeat
    | some q =>
      rcases List.eq_nil_or_concat after with rfl | ⟨rest, last, rfl⟩
      · obtain ⟨rfl, hlast⟩ := List.append_inj' hpumps rfl
        obtain rfl := List.singleton_inj.mp hlast
        exact ⟨b, c, h, hbeat, .refl⟩
      · rw [List.concat_eq_append] at hpumps ⊢
        rw [← List.cons_append, ← List.append_assoc] at hpumps
        obtain ⟨hinit, hlast⟩ := List.append_inj' hpumps rfl
        obtain rfl := List.singleton_inj.mp hlast
        obtain ⟨d, e, hbefore, hp, hafter⟩ := ih hinit
        exact ⟨d, e, hbefore, hp, hafter.tail hbeat⟩

theorem split_append {before after : List Pump} (h : Beats σ a (before ++ after) b) :
    ∃ c, Beats σ a before c ∧ Beats σ c after b := by
  cases after with
  | nil =>
    rw [List.append_nil] at h
    exact ⟨b, h, .refl⟩
  | cons p rest =>
    obtain ⟨c, d, hbefore, hp, hrest⟩ := h.split rfl
    exact ⟨c, hbefore, (single hp).trans hrest⟩

end Beats

end Scripts

/-- Updates of a seat for an asset do not count down its waits, all others do. -/
def Pump.counts (seat : Seat) (p : Pump) : Bool :=
  decide (p.seat = seat) && decide (p.occasion ≠ .asset)

/-- As long as the wait has not run out, the script performs nothing. -/
theorem Scripts.Beats.rests {σ : Type} [AssetLoader σ] {a b : Scripts} {seat : Seat} {n : Int}
    {pumps : List Pump} (h : Beats σ a pumps b) (ha : a.Rests seat n)
    (hn : (pumps.countP (Pump.counts seat) : Int) ≤ n) :
    (∀ p ∈ pumps, p.seat = seat → p.lines = []) ∧
      b.Rests seat (n - pumps.countP (Pump.counts seat)) := by
  induction h with
  | refl => exact ⟨nofun, by simpa using ha⟩
  | @tail pumps b c pump h hbeat ih =>
    rw [List.countP_append] at hn ⊢
    obtain ⟨hquiet, hrests⟩ := ih (by omega)
    cases pump with
    | none =>
      rw [Option.toList_none, List.append_nil, List.countP_nil, Nat.add_zero]
      exact ⟨hquiet, hbeat.rests_of_ne nofun hrests⟩
    | some p =>
      by_cases hseat : p.seat = seat
      · subst hseat
        obtain ⟨hoccasion, hleft⟩ := hbeat.rests hrests
        have hcounts : [p].countP (Pump.counts p.seat) = 1 := by simp [Pump.counts, hoccasion]
        rw [Option.toList_some, hcounts] at hn ⊢
        obtain ⟨hlines, hrests⟩ := hleft (by omega)
        refine ⟨fun q hq hsame => ?_, ?_⟩
        · rcases List.mem_append.mp hq with hq | hq
          · exact hquiet q hq hsame
          · rw [List.mem_singleton.mp hq]
            exact hlines
        · rw [show n - ((pumps.countP (Pump.counts p.seat) + 1 : Nat) : Int) =
            n - pumps.countP (Pump.counts p.seat) - 1 by omega]
          exact hrests
      · have hcounts : [p].countP (Pump.counts seat) = 0 := by simp [Pump.counts, hseat]
        rw [Option.toList_some, hcounts, Nat.add_zero]
        refine ⟨fun q hq hsame => ?_, hbeat.rests_of_ne (fun q hq => ?_) hrests⟩
        · rcases List.mem_append.mp hq with hq | hq
          · exact hquiet q hq hsame
          · rw [List.mem_singleton.mp hq] at hsame
            exact absurd hsame hseat
        · obtain rfl := Option.some.inj hq
          exact hseat

/-! ### One round in a frame -/

section Rounds

variable {σ : Type} [AssetLoader σ] {seat : Seat}

omit [AssetLoader σ] in
theorem countP_ofCalls (hseat : seat ≠ .hooks) (logs : List (List (Line σ))) :
    (Pump.ofCalls logs).countP (Pump.counts seat) = 0 := by
  rw [List.countP_eq_zero]
  intro p hp
  obtain ⟨log, -, rfl⟩ := List.mem_map.mp hp
  simp [Pump.counts, Pump.ofLog, Ne.symm hseat]

omit [AssetLoader σ] in
theorem countP_withCalls (hseat : seat ≠ .hooks) (other : Seat) (occasion : Occasion)
    (log : List (Line σ)) :
    (Pump.withCalls other occasion log).countP (Pump.counts seat) =
      if other = seat ∧ occasion ≠ .asset then 1 else 0 := by
  unfold Pump.withCalls
  rw [List.countP_cons, countP_ofCalls hseat, Nat.zero_add]
  by_cases hother : other = seat <;> by_cases hoccasion : occasion = .asset <;>
    simp [Pump.counts, Pump.ofLog, hother, hoccasion]

theorem countP_runnerPumps (hseat : seat ≠ .hooks) (s : Scene σ) (runner : EventRunner)
    (index : Nat) (occasion : Occasion) :
    (s.runnerPumps runner index occasion).countP (Pump.counts seat) ≤
      if .event index = seat ∧ occasion ≠ .asset then 1 else 0 := by
  unfold runnerPumps
  split
  · split
    · exact Nat.zero_le _
    · exact Nat.le_of_eq (countP_withCalls hseat _ _ _)
  · exact Nat.zero_le _

theorem countP_enterPumps (hseat : seat ≠ .hooks) (s : Scene σ) :
    s.enterPumps.countP (Pump.counts seat) = 0 := by
  have hresumed (s : Scene σ) (k : Continuation) :
      (s.resumePumps k).countP (Pump.counts seat) = 0 := by
    cases k with
    | finishStart => rfl
    | resumeDirector =>
      unfold resumePumps mainPumps
      rw [countP_withCalls hseat]
      simp
    | resumeEvent index =>
      unfold resumePumps
      dsimp only
      split
      · rfl
      · rename_i runner _
        have hle := countP_runnerPumps hseat s runner index .asset
        simpa using hle
  unfold enterPumps awaitPumps
  dsimp only
  split
  · rfl
  · split
    · rfl
    · split
      · exact hresumed _ _
      · rfl

/-- Events before the first of the round are not updated in it. -/
theorem countP_runnerPumpsFrom_of_lt (hseat : seat ≠ .hooks) {index : Nat}
    (hindex : ∀ i, seat = .event i → i < index) (s : Scene σ) (left : Nat) :
    (s.runnerPumpsFrom index left).countP (Pump.counts seat) = 0 := by
  induction left generalizing s index with
  | zero => rfl
  | succ left ih =>
    unfold runnerPumpsFrom
    split
    · rfl
    · rename_i runner _
      have hother : Seat.event index ≠ seat := fun h => Nat.lt_irrefl _ (hindex index h.symm)
      have hfirst := countP_runnerPumps hseat s runner index .round
      rw [if_neg (fun h => hother h.1), Nat.le_zero] at hfirst
      rw [List.countP_append, hfirst, Nat.zero_add]
      split
      · rfl
      · exact ih (fun i hi => Nat.lt_succ_of_lt (hindex i hi)) _

theorem countP_runnerPumpsFrom (hseat : seat ≠ .hooks) (s : Scene σ) (index left : Nat) :
    (s.runnerPumpsFrom index left).countP (Pump.counts seat) ≤ 1 := by
  induction left generalizing s index with
  | zero => exact Nat.zero_le _
  | succ left ih =>
    unfold runnerPumpsFrom
    split
    · exact Nat.zero_le _
    · rename_i runner _
      have hfirst := countP_runnerPumps hseat s runner index .round
      rw [List.countP_append]
      by_cases hsame : Seat.event index = seat
      · have hrest (s : Scene σ) :
            (s.runnerPumpsFrom (index + 1) left).countP (Pump.counts seat) = 0 := by
          refine countP_runnerPumpsFrom_of_lt hseat (fun i hi => ?_) s left
          obtain rfl := Seat.event.inj (hsame.trans hi)
          exact Nat.lt_succ_self _
        rw [if_pos ⟨hsame, nofun⟩] at hfirst
        split
        · simpa using hfirst
        · rw [hrest]
          exact hfirst
      · rw [if_neg (fun h => hsame h.1), Nat.le_zero] at hfirst
        rw [hfirst, Nat.zero_add]
        split
        · exact Nat.zero_le _
        · exact ih _ _

theorem countP_scriptPumps (hseat : seat ≠ .hooks) (s : Scene σ) :
    s.scriptPumps.countP (Pump.counts seat) ≤ 1 := by
  have hhooks : s.hookPumps.countP (Pump.counts seat) = 0 := by
    unfold hookPumps
    split
    · simp [Pump.counts, Pump.ofLog, Ne.symm hseat]
    · rfl
  unfold scriptPumps
  dsimp only
  rw [List.countP_append, List.countP_append, hhooks, Nat.zero_add]
  unfold mainPumps
  rw [countP_withCalls hseat]
  by_cases hmain : seat = .main
  · subst hmain
    refine Nat.le_of_eq ?_
    rw [countP_runnerPumpsFrom_of_lt hseat nofun, if_pos ⟨rfl, nofun⟩]
  · rw [if_neg (fun h => hmain h.1.symm), Nat.zero_add]
    exact countP_runnerPumpsFrom hseat _ _ _

/-- In a frame the main interpreter and every parallel event have at most one turn. -/
theorem countP_framePumps (hseat : seat ≠ .hooks) (s : Scene σ) (input : InputState) :
    (s.framePumps input).countP (Pump.counts seat) ≤ 1 := by
  have hbattle (s : Scene σ) : (s.battlePumps input).countP (Pump.counts seat) ≤ 1 := by
    unfold battlePumps
    split
    · exact Nat.zero_le _
    · dsimp only
      rw [List.countP_append]
      have hscripts := countP_scriptPumps hseat ((s.updatePresentation input).mark .events)
      split
      · simpa using hscripts
      · split
        · simpa using hscripts
        · rw [countP_ofCalls hseat]
          exact hscripts
  have hprelude : (s.preludePumps input).countP (Pump.counts seat) ≤ 1 := by
    unfold preludePumps
    rw [List.countP_append, countP_enterPumps hseat, Nat.zero_add]
    split
    · exact hbattle _
    · exact Nat.zero_le _
  unfold framePumps
  rw [List.countP_append]
  split
  · rw [countP_ofCalls hseat]
    exact hprelude
  · simpa using hprelude

end Rounds

/-! ### Waits in a run -/

/-- The rate at which the interpreter of a seat waits. -/
def Seat.rate (config : BattleConfig) (seat : Seat) : Int := (seat.made config).framesPerSecond

theorem Seat.rate_nonneg {config : BattleConfig} (h : 0 ≤ config.framesPerSecond) (seat : Seat) :
    0 ≤ seat.rate config := by
  cases seat with
  | event index => exact (by decide : (0 : Int) ≤ 60)
  | main => exact h
  | hooks => exact h

theorem ofSetup_rated {σ : Type} (config : BattleConfig) (database : Database) (setup : BattleSetup)
    (assets : σ) :
    (ofSetup config database setup assets).scripts.All fun seat i =>
      i.framesPerSecond = seat.rate config := by
  intro seat i hi
  cases seat with
  | main =>
    obtain rfl := Option.some.inj hi
    rfl
  | hooks =>
    obtain rfl := Option.some.inj hi
    rfl
  | event index =>
    obtain ⟨runner, hrunner, hinterp⟩ := Option.bind_eq_some_iff.mp hi
    obtain ⟨e, -, rfl⟩ := List.mem_map.mp (List.mem_of_getElem? hrunner)
    obtain ⟨-, hi⟩ := Option.ite_none_right_eq_some.mp hinterp
    obtain rfl := Option.some.inj hi
    rfl

section Run

variable {σ : Type} [AssetLoader σ]

theorem le_of_mem_pumpsFrom {s : Scene σ} {frame g : Nat} {q : Pump} {inputs : List InputState}
    (h : (g, q) ∈ s.pumpsFrom frame inputs) : frame ≤ g := by
  induction inputs generalizing s frame with
  | nil => contradiction
  | cons input rest ih =>
    rcases List.mem_append.mp h with h | h
    · obtain ⟨p, -, hp⟩ := List.mem_map.mp h
      exact Nat.le_of_eq (Prod.mk.inj hp).1
    · exact Nat.le_of_succ_le (ih h)

/-- Who has a wait before it at the beginning of a frame performs nothing for so many frames. -/
theorem lines_eq_nil_of_rests {s : Scene σ} (hs : s.Tended) {seat : Seat} (hseat : seat ≠ .hooks)
    {n : Int} (hrests : s.scripts.Rests seat n) {frame g : Nat} {q : Pump}
    {inputs : List InputState} (hq : (g, q) ∈ s.pumpsFrom frame inputs) (hsame : q.seat = seat)
    (hg : (g : Int) < frame + n) : q.lines = [] := by
  induction inputs generalizing s frame n with
  | nil => contradiction
  | cons input rest ih =>
    have hle := le_of_mem_pumpsFrom hq
    have hcount := countP_framePumps hseat s input
    obtain ⟨hquiet, hleft⟩ := (update_beats hs.linked input).rests hrests (by omega)
    rcases List.mem_append.mp hq with hq | hq
    · obtain ⟨p, hp, hpair⟩ := List.mem_map.mp hq
      obtain ⟨-, rfl⟩ := Prod.mk.inj hpair
      exact hquiet p hp hsame
    · exact ih (hs.update input) hleft hq (by omega)

/-- The frame of an update, in a run. -/
theorem exists_frame {s : Scene σ} (hs : s.Tended) {frame g : Nat} {p : Pump}
    {inputs : List InputState} {before later : List (Nat × Pump)}
    (h : s.pumpsFrom frame inputs = before ++ (g, p) :: later) :
    ∃ (t : Scene σ) (input : InputState) (rest : List InputState) (earlier first last : List Pump),
      t.Tended ∧ Scripts.Beats σ s.scripts earlier t.scripts ∧
        t.framePumps input = first ++ p :: last ∧
        later = last.map (g, ·) ++ (t.update input).pumpsFrom (g + 1) rest := by
  induction inputs generalizing s frame before with
  | nil => simp [pumpsFrom] at h
  | cons input rest ih =>
    have further {before : List (Nat × Pump)}
        (h : (s.update input).pumpsFrom (frame + 1) rest = before ++ (g, p) :: later) :
        ∃ (t : Scene σ) (input : InputState) (rest : List InputState)
          (earlier first last : List Pump),
          t.Tended ∧ Scripts.Beats σ s.scripts earlier t.scripts ∧
            t.framePumps input = first ++ p :: last ∧
            later = last.map (g, ·) ++ (t.update input).pumpsFrom (g + 1) rest := by
      obtain ⟨t, input', rest', earlier, first, last, ht, hearlier, hframe, hlater⟩ :=
        ih (hs.update input) h
      exact ⟨t, input', rest', _, first, last, ht, (update_beats hs.linked input).trans hearlier,
        hframe, hlater⟩
    rcases List.append_eq_append_iff.mp h with ⟨more, -, hmore⟩ | ⟨more, hmore, hlater⟩
    · exact further hmore
    · cases more with
      | nil =>
        have hall : (s.update input).pumpsFrom (frame + 1) rest = [] ++ (g, p) :: later :=
          hlater.symm
        exact further hall
      | cons entry more =>
        obtain ⟨rfl, rfl⟩ := List.cons.inj hlater
        obtain ⟨first, second, hframe, -, hsecond⟩ := List.map_eq_append_iff.mp hmore
        obtain ⟨q, last, rfl, hq, rfl⟩ := List.map_eq_cons_iff.mp hsecond
        obtain ⟨rfl, rfl⟩ := Prod.mk.inj hq
        exact ⟨s, input, rest, [], first, last, hs, .refl, hframe, rfl⟩

/-- Who has a wait before it after an update of a frame performs nothing until it is over, where the
update counts for the frame unless it was for an asset. -/
theorem Tended.lines_eq_nil {t : Scene σ} (ht : t.Tended) {input : InputState}
    {first last : List Pump} {p : Pump} (hpumps : t.framePumps input = first ++ p :: last)
    (hseat : p.seat ≠ .hooks) {n : Int} (hn : 0 ≤ n) {d : Scripts} (hrests : d.Rests p.seat n)
    (hremaining : Scripts.Beats σ d last (t.update input).scripts) {frame : Nat}
    {inputs : List InputState} {q : Nat × Pump}
    (hq : q ∈ last.map (frame, ·) ++ (t.update input).pumpsFrom (frame + 1) inputs)
    (hsame : q.2.seat = p.seat)
    (hframe : (q.1 : Int) < frame + n + (if p.occasion = .asset then 0 else 1)) :
    q.2.lines = [] := by
  have hround : (last.countP (Pump.counts p.seat) : Int) ≤
      if p.occasion = .asset then 1 else 0 := by
    have hcount := countP_framePumps hseat t input
    rw [hpumps, List.countP_append, List.countP_cons] at hcount
    by_cases hasset : p.occasion = .asset
    · rw [if_pos hasset]
      omega
    · rw [if_neg hasset]
      have hcounts : Pump.counts p.seat p = true := by simp [Pump.counts, hasset]
      rw [if_pos hcounts] at hcount
      omega
  have hle : frame ≤ q.1 := by
    rcases List.mem_append.mp hq with hnow | hlater
    · obtain ⟨_, -, rfl⟩ := List.mem_map.mp hnow
      exact Nat.le_refl _
    · exact Nat.le_of_succ_le (le_of_mem_pumpsFrom hlater)
  have hlong : (last.countP (Pump.counts p.seat) : Int) ≤ n := by
    split at hround <;> split at hframe <;> omega
  obtain ⟨hquiet, hleft⟩ := hremaining.rests hrests hlong
  rcases List.mem_append.mp hq with hnow | hlater
  · obtain ⟨r, hr, rfl⟩ := List.mem_map.mp hnow
    exact hquiet r hr hsame
  · refine lines_eq_nil_of_rests (ht.update input) hseat hleft hlater hsame ?_
    split at hround <;> split at hframe <;> omega

end Run

/-- In a run, an interpreter that performs no wait of negative length has no negative counter. -/
theorem after_wait_nonneg {σ : Type} [AssetLoader σ] {config : BattleConfig} {database : Database}
    {setup : BattleSetup} {assets : σ} {inputs : List InputState} {seat : Seat} {i : Interpreter}
    (hi : ((ofSetup config database setup assets).after inputs).scripts.interp? seat = some i)
    (hpumps : ∀ q ∈ (ofSetup config database setup assets).pumpsFrom 1 inputs, q.2.seat = seat →
      ∀ inst ∈ q.2.lines, ¬inst.IsNegativeWait (seat.rate config)) :
    0 ≤ i.waitFrames := by
  obtain ⟨hbeats, -⟩ := after_beats (ofSetup_tended config database setup assets) 1 inputs
  have hmade : ∀ i ∈ (ofSetup config database setup assets).scripts.interp? seat,
      0 ≤ i.waitFrames := by
    intro i hi
    cases seat with
    | main =>
      obtain rfl := Option.some.inj hi
      exact Int.le_refl 0
    | hooks =>
      obtain rfl := Option.some.inj hi
      exact Int.le_refl 0
    | event index =>
      obtain ⟨runner, hrunner, hinterp⟩ := Option.bind_eq_some_iff.mp hi
      obtain ⟨e, -, rfl⟩ := List.mem_map.mp (List.mem_of_getElem? hrunner)
      obtain ⟨-, hi⟩ := Option.ite_none_right_eq_some.mp hinterp
      obtain rfl := Option.some.inj hi
      exact Int.le_refl 0
  refine hbeats.wait_nonneg (ofSetup_rated config database setup assets) hmade (fun p hp => ?_) i hi
  obtain ⟨entry, hentry, rfl⟩ := List.mem_map.mp hp
  exact hpumps entry hentry

/-- How many updates of a run count down the waits of a seat. -/
def counted (seat : Seat) (pumps : List (Nat × Pump)) : Nat :=
  (pumps.map (·.2)).countP (Pump.counts seat)

/-- A wait lasts its tenths of a second at the rate of the interpreter, as long as their product
does not wrap. It is then the last instruction of its update. The interpreter performs nothing in as
many updates as the wait lasts, and has all that is not yet counted down still to wait. An update of
the main interpreter or of a parallel event that is not for an asset counts once in a frame, so from
the end of its round on such a wait lasts its frames. A product that wraps to something negative
suspends nobody, not even until the next frame. -/
theorem waits_last {σ : Type} [AssetLoader σ] {config : BattleConfig} {database : Database}
    {setup : BattleSetup} {assets : σ} {s : Scene σ}
    (h : create config database setup assets = .ok s) {inputs : List InputState}
    {before later : List (Nat × Pump)} {frame : Nat} {p : Pump}
    (hrun : s.pumpsFrom 1 inputs = before ++ (frame, p) :: later) {lines rest : List Instruction}
    {inst : Instruction} (hlines : p.lines = lines ++ inst :: rest) (hwait : inst.opcode = .wait) :
    let product := max (inst.param 0) 0 * p.seat.rate config
    let length := waitLength (p.seat.rate config) (inst.param 0)
    (product ≤ operandMax → length = product / 10 ∧ 0 ≤ length) ∧
      (0 ≤ length → rest = [] ∧
        (∀ soon more, later = soon ++ more → (counted p.seat soon : Int) ≤ length →
          (∀ q ∈ soon, q.2.seat = p.seat → q.2.lines = []) ∧
            (more = [] → (s.after inputs).scripts.Rests p.seat (length - counted p.seat soon))) ∧
        (p.seat ≠ .hooks → ∀ q ∈ later, q.2.seat = p.seat →
          (q.1 : Int) < frame + length + (if p.occasion = .asset then 0 else 1) → q.2.lines = [])) ∧
      (length < 0 → rest = [] → (∀ q ∈ later, q.2.seat ≠ p.seat) →
        (s.after inputs).scripts.Free p.seat) := by
  obtain ⟨hsound, rfl⟩ := create_eq_ok h
  have hrate := Seat.rate_nonneg (Int.le_of_lt hsound.rate_pos) p.seat
  have htended := ofSetup_tended config database setup assets
  -- Every interpreter keeps the rate it has been given.
  have rated {earlier : List Pump} {a : Scripts}
      (h : Scripts.Beats σ (ofSetup config database setup assets).scripts earlier a) :
      a.All fun seat i => i.framesPerSecond = seat.rate config :=
    h.all (Scripts.rated_kept σ _ _ (Seat.rate config)) rfl rfl
      (ofSetup_rated config database setup assets)
  obtain ⟨hbeats, -⟩ := after_beats htended 1 inputs
  obtain ⟨a, b, hearlier, hbeat, hlater⟩ :=
    hbeats.split (by rw [hrun, List.map_append, List.map_cons])
  refine ⟨fun hfits => ⟨waitLength_eq hrate hfits, waitLength_nonneg hrate hfits⟩,
    fun hlength => ?held, ?free⟩
  case held =>
    obtain ⟨hlast, hrests⟩ := hbeat.waits (rated hearlier) hlines hwait hlength
    refine ⟨hlast, fun soon more hsoon hcount => ?_, fun hseat q hq hsame hframe => ?_⟩
    · subst hsoon
      rw [List.map_append] at hlater
      obtain ⟨c, hsoon, -⟩ := hlater.split_append
      refine ⟨fun q hq => (hsoon.rests hrests hcount).1 q.2 (List.mem_map_of_mem hq),
        fun hmore => ?_⟩
      rw [hmore, List.map_nil, List.append_nil] at hlater
      exact (hlater.rests hrests hcount).2
    · obtain ⟨t, input, others, earlier, first, last, ht, hbefore, hpumps, hafter⟩ :=
        exists_frame htended hrun
      rw [hafter] at hq
      obtain ⟨c, d, hfirst, hturn, hremaining⟩ := (update_beats ht.linked input).split hpumps
      obtain ⟨-, hrests⟩ := hturn.waits (rated (hbefore.trans hfirst)) hlines hwait hlength
      exact ht.lines_eq_nil hpumps hseat hlength hrests hremaining hq hsame hframe
  case free =>
    rintro hneg rfl hothers
    have hfree := hbeat.free_of_wait (rated hearlier) hlines ⟨hwait, hneg⟩
    refine hlater.free_of_ne (fun q hq => ?_) hfree
    obtain ⟨entry, hentry, rfl⟩ := List.mem_map.mp hq
    exact hothers entry hentry

/-! ### A parallel event that waits at its own rate -/

/-- Who waits performs nothing more in that frame, nor in as many frames after it as its tenths of a
second have at a rate. -/
def KeepsWaits (rate : Int) (pumps : List (Nat × Pump)) : Prop :=
  ∀ (before later : List (Nat × Pump)) (frame : Nat) (p : Pump),
    pumps = before ++ (frame, p) :: later →
    ∀ (lines rest : List Instruction) (inst : Instruction), p.lines = lines ++ inst :: rest →
      inst.opcode = .wait → rest = [] ∧ ∀ q ∈ later, q.2.seat = p.seat → q.2.lines ≠ [] →
        (frame : Int) + 1 + max (inst.param 0) 0 * rate / 10 ≤ q.1

namespace Hurried

def config : BattleConfig := { framesPerSecond := 120 }

def database : Database where
  actors := [{ id := 1, name := "A" }]
  enemies := [{ id := 1, name := "E" }]

def delay : Instruction := { opcode := .wait, params := [1] }

def setup : BattleSetup where
  party := [1]
  troop := { members := [{ enemyId := 1 }] }
  commonEvents :=
    [{ id := 1
       trigger := .parallel
       instructions := [delay, { opcode := .controlSwitches, params := [0, 1, 1, 0] }] }]

def scene : Scene InstantAssets := ofSetup config database setup {}

/-- The updates of the first eight frames: in each the main interpreter, which has nothing to run,
and the event. -/
def timeline : List (Nat × Pump) := scene.pumpsFrom 1 (List.replicate 8 {})

set_option maxRecDepth 100000 in
theorem timeline_eq :
    timeline = timeline.take 1 ++ (1, ⟨.event 0, .round, [delay]⟩) :: timeline.drop 2 := by
  decide +kernel

end Hurried

theorem waits_last_at_sixty :
    create Hurried.config Hurried.database Hurried.setup {} = .ok Hurried.scene ∧
      ∀ q ∈ Hurried.timeline.drop 2, q.2.seat = .event 0 → q.1 < 8 → q.2.lines = [] := by
  have hcreated : create Hurried.config Hurried.database Hurried.setup {} = .ok Hurried.scene := rfl
  have hlines : [Hurried.delay] = [] ++ Hurried.delay :: [] := rfl
  have hlength : waitLength (Seat.rate Hurried.config (.event 0)) (Hurried.delay.param 0) = 6 := by
    decide
  have hlaw := (waits_last hcreated Hurried.timeline_eq hlines rfl).2.1 (by rw [hlength]; decide)
  refine ⟨hcreated, fun q hq hseat hframe => hlaw.2.2 nofun q hq hseat ?_⟩
  rw [hlength, if_neg nofun]
  omega

-- In frame 8 the event goes on, although its tenth of a second lasts twelve frames at the rate of
-- the configuration.
set_option maxRecDepth 100000 in
theorem not_keepsWaits_of_hurry :
    create Hurried.config Hurried.database Hurried.setup {} = .ok Hurried.scene ∧
      ¬KeepsWaits Hurried.config.framesPerSecond
        (Hurried.scene.pumpsFrom 1 (List.replicate 8 {})) := by
  refine ⟨rfl, fun h => ?_⟩
  have hearly : ∃ q ∈ Hurried.timeline.drop 2, q.2.seat = .event 0 ∧ q.2.lines ≠ [] ∧ q.1 = 8 := by
    decide +kernel
  obtain ⟨q, hq, hseat, hlines, hframe⟩ := hearly
  have hlate := (h _ _ _ _ Hurried.timeline_eq [] [] Hurried.delay rfl rfl).2 q hq hseat hlines
  rw [hframe] at hlate
  exact absurd hlate (by decide)

end Scene

end ActiveBattle
