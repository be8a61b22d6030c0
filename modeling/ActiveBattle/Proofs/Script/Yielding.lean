import Mathlib.Logic.Function.Iterate
import ActiveBattle.Proofs.Script.Course

/-!
# Yielding

A host comes by again and again, reads some of the message and updates the interpreter. Whatever it
does, the interpreter keeps to its course (`visited_onCourse`). Where messages are read and loads
are taken as done, it does not wait for ever (`not_waits_forever`), so what there is to perform gets
performed (`exists_performed_longer`). The loop limit decides no more than how much of the course a
visit performs (`visits_agree`).
-/

namespace ActiveBattle

set_option autoImplicit false

namespace Execution

variable {σ : Type}

/-- Reads so many pages of the message. -/
def dismiss (pages : Nat) (x : Execution BattleScript σ) : Execution BattleScript σ :=
  x.modifyGame fun g => { g with message := MessageBox.advance^[pages] g.message }

def limited (limit : Nat) (x : Execution BattleScript σ) : Execution BattleScript σ :=
  x.modifyInterp ({ · with loopLimit := limit })

end Execution

theorem MessageBox.length_advance (n : Nat) (m : MessageBox) :
    (advance^[n] m).pages.length = m.pages.length - n := by
  induction n generalizing m with
  | zero => rfl
  | succ n ih =>
    rw [Function.iterate_succ_apply, ih]
    unfold advance
    rw [List.length_tail]
    omega

/-- What a host does when it comes by: it reads some pages of the message, then it updates the
interpreter. -/
structure Visit where
  dismissed : Nat := 0
  allowSuspend : Bool := true

/-- A host that comes by again and again. -/
abbrev Visits := Nat → Visit

namespace Visits

/-- It never stops reading messages. -/
def Attends (v : Visits) : Prop := ∀ n, ∃ k, n ≤ k ∧ 0 < (v k).dismissed

/-- It never stops taking loads as done. -/
def Resumes (v : Visits) : Prop := ∀ n, ∃ k, n ≤ k ∧ (v k).allowSuspend = false

/-- It never takes a load as done. -/
def Patient (v : Visits) : Prop := ∀ n, (v n).allowSuspend = true

end Visits

namespace Execution

section Hosted

variable {σ : Type} [AssetLoader σ] (c : CommandSet) (store : ProgramStore) (v : Visits)
  (x : Execution BattleScript σ)

/-- The execution after so many visits, with the commands of a set. -/
def hosted : Nat → Execution BattleScript σ
  | 0 => x
  | n + 1 => ((hosted n).dismiss (v n).dismissed).update c.commands store (v n).allowSuspend

/-- The lines of a visit. -/
def linesAt (n : Nat) : List (Line σ) :=
  c.transcript store (v n).allowSuspend ((x.hosted c store v n).dismiss (v n).dismissed)

/-- The lines of so many visits. -/
def hostedLines : Nat → List (Line σ)
  | 0 => []
  | n + 1 => hostedLines n ++ x.linesAt c store v n

theorem hosted_runs (n : Nat) :
    Runs store c (.update (v n).allowSuspend) ((x.hosted c store v n).dismiss (v n).dismissed)
    (x.linesAt c store v n) (x.hosted c store v (n + 1)) := Runs.transcript c store _ _

theorem hosted_loopLimit (n : Nat) :
    (x.hosted c store v n).interp.loopLimit = x.interp.loopLimit := by
  induction n with
  | zero => rfl
  | succ n ih =>
    have hrun := hosted_runs c store v x n
    exact (hrun.upheld (Interpreter.settings_upheld store _ _) ⟨rfl, rfl⟩ trivial).1.1.trans ih

end Hosted

variable {σ : Type} [AssetLoader σ] (store : ProgramStore) (v : Visits)
  (x : Execution BattleScript σ)

/-- The execution after so many visits. -/
def visited : Nat → Execution BattleScript σ
  | 0 => x
  | n + 1 => ((visited n).dismiss (v n).dismissed).update noCommands store (v n).allowSuspend

theorem visited_eq_hosted (n : Nat) : x.visited store v n = x.hosted .base store v n := by
  induction n with
  | zero => rfl
  | succ n ih =>
    rw [visited, ih]
    rfl

/-- What it performs at a visit. -/
def deedsAt (n : Nat) : List (Deed σ) :=
  ((x.visited store v n).dismiss (v n).dismissed).deeds store (v n).allowSuspend

/-- What it has performed after so many visits. -/
def performed : Nat → List (Deed σ)
  | 0 => []
  | n + 1 => performed n ++ x.deedsAt store v n

/-- Whoever visits it, an execution keeps to its course. -/
theorem visited_onCourse (n : Nat) :
    OnCourse store x (x.performed store v n) (x.visited store v n) := by
  induction n with
  | zero => exact .of_freed rfl
  | succ n ih =>
    have hread : OnCourse store (x.visited store v n) []
        ((x.visited store v n).dismiss (v n).dismissed) :=
      .of_freed rfl
    exact ih.trans (hread.trans (update_onCourse store _ _).1)

theorem visited_loopLimit (n : Nat) :
    (x.visited store v n).interp.loopLimit = x.interp.loopLimit := by
  rw [visited_eq_hosted]
  exact hosted_loopLimit .base store v x n

theorem deedsAt_unheld (n : Nat) :
    Unheld ((x.visited store v n).woken (v n).allowSuspend).interp.asyncOp
    (x.deedsAt store v n) (x.visited store v (n + 1)).interp.asyncOp := by
  have hread : (((x.visited store v n).dismiss (v n).dismissed).woken (v n).allowSuspend).interp =
      ((x.visited store v n).woken (v n).allowSuspend).interp := by
    cases (v n).allowSuspend <;> rfl
  rw [← hread]
  exact (update_onCourse store _ _).2

variable {v}

/-- A patient host leaves only the last deed with a load behind. -/
theorem visited_unheld (hpatient : v.Patient) (n : Nat) :
    Unheld x.interp.asyncOp (x.performed store v n) (x.visited store v n).interp.asyncOp := by
  induction n with
  | zero => exact .nil _
  | succ n ih =>
    have hheld := deedsAt_unheld store v x n
    rw [hpatient n] at hheld
    exact ih.trans hheld

omit [AssetLoader σ] in
theorem woken_asyncOp (allowSuspend : Bool) (y : Execution BattleScript σ) :
    (y.woken allowSuspend).interp.asyncOp = .none ∨
      (y.woken allowSuspend).interp.asyncOp = y.interp.asyncOp := by
  cases allowSuspend with
  | true => exact .inr rfl
  | false =>
    cases hop : y.interp.asyncOp <;> simp [woken, modifyInterp, Interpreter.resume, hop]

variable (v) {x}

/-- What is pending was left by the last deed. -/
theorem visited_pending (hfree : x.interp.asyncOp = .none) (n : Nat) :
    (x.visited store v n).interp.asyncOp = .none ∨
    ∃ init d, x.performed store v n = init ++ [d] ∧ (x.visited store v n).interp.asyncOp =
      d.asyncOp := by
  induction n with
  | zero => exact .inl hfree
  | succ n ih =>
    rcases (deedsAt_unheld store v x n).last with ⟨hnothing, hop⟩ | ⟨init, d, hdeeds, hop⟩
    · rw [performed, hnothing, List.append_nil, hop]
      rcases woken_asyncOp (v n).allowSuspend (x.visited store v n) with hnone | hsame
      · exact .inl hnone
      · rw [hsame]
        exact ih
    · exact .inr ⟨x.performed store v n ++ init, d,
        by rw [performed, hdeeds, List.append_assoc], hop⟩

theorem visited_loads (hfree : x.interp.asyncOp = .none) (n : Nat) (result : BattleResult) :
    (x.visited store v n).interp.asyncOp ≠ .terminateBattle result := by
  induction n generalizing result with
  | zero => simp [visited, hfree]
  | succ n ih =>
    apply (deedsAt_unheld store v x n).loads
    rcases woken_asyncOp (v n).allowSuspend (x.visited store v n) with hnone | hsame
    · simp [hnone]
    · rw [hsame]
      exact ih

variable {store v}

def pagesLeft (y : Execution BattleScript σ) : Nat := y.game.message.pages.length

def framesLeft (y : Execution BattleScript σ) : Nat := y.interp.waitFrames.toNat

omit [AssetLoader σ] in
theorem woken_asyncOp_of {allowSuspend : Bool} {y : Execution BattleScript σ}
    (hloads : ∀ result, y.interp.asyncOp ≠ .terminateBattle result)
    (h : y.interp.asyncOp = .none ∨ allowSuspend = false) :
    (y.woken allowSuspend).interp.asyncOp = .none := by
  cases allowSuspend with
  | true => simpa [woken] using h
  | false =>
    cases hop : y.interp.asyncOp with
    | none => simp [woken, modifyInterp, Interpreter.resume, hop]
    | loadAsset _ _ _ => simp [woken, modifyInterp, Interpreter.resume, hop]
    | terminateBattle result => exact absurd hop (hloads result)

omit [AssetLoader σ] in
theorem woken_framesLeft (allowSuspend : Bool) (y : Execution BattleScript σ) :
    (y.woken allowSuspend).framesLeft ≤ y.framesLeft := by
  cases allowSuspend with
  | true => exact Nat.le_refl _
  | false => exact Nat.zero_le _

/-- A visit at which nothing is performed brings the execution closer to its next instruction. -/
structure Waits (visit : Visit) (y z : Execution BattleScript σ) : Prop where
  pages : z.pagesLeft = y.pagesLeft - visit.dismissed
  loaded : y.interp.asyncOp = .none ∨ visit.allowSuspend = false → z.interp.asyncOp = .none
  frames : z.interp.asyncOp = .none → z.framesLeft ≤ y.framesLeft - 1
  held : y.interp.asyncOp = .none → y.framesLeft = 0 → 0 < z.pagesLeft

end Execution

namespace Runs

variable {σ : Type} [AssetLoader σ] {store : ProgramStore} {c : CommandSet}
  {x y z : Execution BattleScript σ}

/-- A loop that performs nothing has come to an end, or a message stops it. -/
theorem loop_of_silent {limit performed : Nat} (h : Runs store c (.loop limit performed) x [] y)
    (hlimit : performed < limit) :
    y.interp.stack = [] ∨ x.game.message.isActive = true ∧ y = x := by
  generalize hstage : Stage.loop limit performed = stage at h
  generalize hlog : ([] : List (Line σ)) = log at h
  induction h with
  | empty hstack => exact .inl hstack
  | messageOpen hmessage => exact .inr ⟨hmessage, rfl⟩
  | pops hmessage _ _ _ ih =>
    rcases ih hstage hlog with hdone | ⟨hactive, -⟩
    · exact .inl hdone
    · exact absurd (hmessage.symm.trans hactive) Bool.false_ne_true
  | spent _ _ hspent =>
    cases hstage
    omega
  | suspends _ _ _ hline _ _ =>
    obtain ⟨-, pumped, rfl⟩ := hline.performs
    contradiction
  | yields _ _ _ hline _ _ _ =>
    obtain ⟨-, pumped, rfl⟩ := hline.performs
    contradiction
  | goes _ _ _ hline _ _ _ _ _ =>
    obtain ⟨-, pumped, rfl⟩ := hline.performs
    contradiction
  | _ => contradiction

/-- A visit at which nothing is performed though there is something left to perform is spent
waiting. -/
theorem waits_of_silent {visit : Visit}
    (h : Runs store c (.update visit.allowSuspend) (y.dismiss visit.dismissed) [] z)
    (hlimit : 0 < y.interp.loopLimit)
    (hloads : ∀ result, y.interp.asyncOp ≠ .terminateBattle result) (hnext : z.interp.stack ≠ []) :
    Execution.Waits visit y z := by
  have hread : (y.dismiss visit.dismissed).pagesLeft = y.pagesLeft - visit.dismissed :=
    MessageBox.length_advance visit.dismissed y.game.message
  have hpages : ((y.dismiss visit.dismissed).woken visit.allowSuspend).pagesLeft =
      y.pagesLeft - visit.dismissed := by
    rw [← hread]
    cases visit.allowSuspend <;> rfl
  have hwoken (h : y.interp.asyncOp = .none ∨ visit.allowSuspend = false) :
      ((y.dismiss visit.dismissed).woken visit.allowSuspend).interp.asyncOp = .none :=
    Execution.woken_asyncOp_of hloads h
  have hframes : ((y.dismiss visit.dismissed).woken visit.allowSuspend).framesLeft ≤ y.framesLeft :=
    Execution.woken_framesLeft visit.allowSuspend (y.dismiss visit.dismissed)
  unfold Execution.framesLeft at hframes
  cases h with
  | held hpending =>
    have hheld := of_decide_eq_true hpending
    exact ⟨hpages, fun h => absurd (hwoken h) hheld, fun h => absurd h hheld,
      fun h => absurd (hwoken (.inl h)) hheld⟩
  | waits _ hwaiting =>
    have hcounts := of_decide_eq_true hwaiting
    refine ⟨hpages, hwoken, fun _ => ?_, fun _ hzero => ?_⟩
    · change (((y.dismiss visit.dismissed).woken visit.allowSuspend).interp.waitFrames - 1).toNat ≤
        y.framesLeft - 1
      unfold Execution.framesLeft
      omega
    · unfold Execution.framesLeft at hzero
      omega
  | begins _ hwaiting hloop =>
    have hcount : 0 < ((y.dismiss visit.dismissed).woken visit.allowSuspend).interp.loopLimit := by
      rw [Execution.woken_loopLimit]
      exact hlimit
    rcases hloop.loop_of_silent hcount with hdone | ⟨hactive, rfl⟩
    · contradiction
    · have hdone : ((y.dismiss visit.dismissed).woken visit.allowSuspend).interp.waitFrames ≤
          0 := by
        simpa [Interpreter.isWaiting] using hwaiting
      refine ⟨hpages, hwoken, fun _ => ?_, fun _ _ => ?_⟩
      · unfold Execution.framesLeft
        omega
      · simpa [MessageBox.isActive, Execution.pagesLeft, List.length_pos_iff] using hactive

end Runs

/-- What never grows and goes down again and again runs out. -/
theorem exists_runsOut {f : Nat → Nat} {N : Nat} (hfalls : ∀ n, N ≤ n → f (n + 1) ≤ f n)
    (hagain : ∀ n, N ≤ n → ∃ k, n ≤ k ∧ f (k + 1) ≤ f k - 1) :
    ∃ K, N ≤ K ∧ ∀ n, K ≤ n → f n = 0 := by
  have hle {m n : Nat} (hm : N ≤ m) (hmn : m ≤ n) : f n ≤ f m := by
    induction n, hmn using Nat.le_induction with
    | base => exact Nat.le_refl _
    | succ n hmn ih => exact Nat.le_trans (hfalls n (Nat.le_trans hm hmn)) ih
  generalize hleft : f N = left
  induction left using Nat.strong_induction_on generalizing N with
  | h left ih =>
    by_cases hzero : left = 0
    · exact ⟨N, Nat.le_refl N, fun n hn => by have := hle (Nat.le_refl N) hn; omega⟩
    · obtain ⟨k, hk, hlower⟩ := hagain N (Nat.le_refl N)
      have hbelow := hle (Nat.le_refl N) hk
      have hN : N ≤ k + 1 := by omega
      obtain ⟨K, hK, hout⟩ := ih (f (k + 1)) (by omega) (fun n hn => hfalls n (Nat.le_trans hN hn))
        (fun n hn => hagain n (Nat.le_trans hN hn)) (fun hm => hle (Nat.le_trans hN hm)) rfl
      exact ⟨K, Nat.le_trans hN hK, hout⟩

/-- A log that gets no longer is added nothing to. -/
theorem added_eq_nil {α : Type} {log added : Nat → List α}
    (hlog : ∀ n, log (n + 1) = log n ++ added n) {N : Nat}
    (hstuck : ¬∃ n, (log N).length < (log n).length) {n : Nat} (hn : N ≤ n) : added n = [] := by
  have hmono : log N <+: log n := by
    induction n, hn using Nat.le_induction with
    | base => exact List.prefix_rfl
    | succ n _ ih =>
      rw [hlog]
      exact ih.trans (List.prefix_append _ _)
  have hlonger := hmono.length_le
  have hbound := Nat.le_of_not_lt fun h => hstuck ⟨n + 1, h⟩
  rw [hlog, List.length_append] at hbound
  exact List.length_eq_zero_iff.mp (by omega)

namespace Execution

variable {σ : Type} [AssetLoader σ] {store : ProgramStore} {v v' : Visits}
  {x : Execution BattleScript σ}

theorem freed_visited_of_silent {n : Nat} (hsilent : x.deedsAt store v n = []) :
    (x.visited store v (n + 1)).freed = (x.visited store v n).freed := by
  have hends :=
    (update_onCourse store (v n).allowSuspend
      ((x.visited store v n).dismiss (v n).dismissed)).1.ends
  unfold deedsAt at hsilent
  rw [hsilent] at hends
  exact hends

section Waiting

omit [AssetLoader σ]

variable {y : Nat → Execution BattleScript σ} {N : Nat}

/-- A load once done stays done. -/
theorem exists_free_from (hwaits : ∀ n, N ≤ n → Waits (v n) (y n) (y (n + 1)))
    (hloaded : (y N).interp.asyncOp = .none ∨ ∃ k, N ≤ k ∧ (v k).allowSuspend = false) :
    ∃ A, N ≤ A ∧ ∀ n, A ≤ n → (y n).interp.asyncOp = .none := by
  have hstays {m : Nat} (hm : N ≤ m) (hnone : (y m).interp.asyncOp = .none) (n : Nat) (hn : m ≤ n) :
      (y n).interp.asyncOp = .none := by
    induction n, hn using Nat.le_induction with
    | base => exact hnone
    | succ n hn ih => exact (hwaits n (Nat.le_trans hm hn)).loaded (.inl ih)
  rcases hloaded with hnone | ⟨k, hk, hflag⟩
  · exact ⟨N, Nat.le_refl N, hstays (Nat.le_refl N) hnone⟩
  · exact ⟨k + 1, Nat.le_succ_of_le hk,
      hstays (Nat.le_succ_of_le hk) ((hwaits k hk).loaded (.inr hflag))⟩

/-- If the load is ever taken as done and messages are read, the waiting ends. -/
theorem not_waits_forever
    (hloaded : (y N).interp.asyncOp = .none ∨ ∃ k, N ≤ k ∧ (v k).allowSuspend = false)
    (hreads : ∀ n, (y n).game.message.isActive = true → ∃ k, n ≤ k ∧ 0 < (v k).dismissed) :
    ¬∀ n, N ≤ n → Waits (v n) (y n) (y (n + 1)) := by
  intro hwaits
  obtain ⟨A, hA, hfree⟩ := exists_free_from hwaits hloaded
  have hframes (n : Nat) (hn : A ≤ n) : (y (n + 1)).framesLeft ≤ (y n).framesLeft - 1 :=
    (hwaits n (Nat.le_trans hA hn)).frames (hfree (n + 1) (Nat.le_succ_of_le hn))
  have hpages (n : Nat) (hn : A ≤ n) : (y (n + 1)).pagesLeft = (y n).pagesLeft - (v n).dismissed :=
    (hwaits n (Nat.le_trans hA hn)).pages
  obtain ⟨B, hB, hwaited⟩ := exists_runsOut (f := fun n => (y n).framesLeft) (N := A)
    (fun n hn => Nat.le_trans (hframes n hn) (Nat.sub_le _ _))
      (fun n hn => ⟨n, Nat.le_refl n, hframes n hn⟩)
  have hfalls (n : Nat) (hn : B ≤ n) : (y (n + 1)).pagesLeft ≤ (y n).pagesLeft := by
    rw [hpages n (Nat.le_trans hB hn)]
    exact Nat.sub_le _ _
  have hagain (n : Nat) (hn : B ≤ n) :
      ∃ k, n ≤ k ∧ (y (k + 1)).pagesLeft ≤ (y k).pagesLeft - 1 := by
    by_cases hactive : (y n).game.message.isActive = true
    · obtain ⟨k, hk, hsome⟩ := hreads n hactive
      have hlower := hpages k (Nat.le_trans hB (Nat.le_trans hn hk))
      exact ⟨k, hk, by omega⟩
    · have hnothing : (y n).pagesLeft = 0 := by
        simpa [MessageBox.isActive, pagesLeft] using hactive
      have hlower := hfalls n hn
      exact ⟨n, Nat.le_refl n, by omega⟩
  obtain ⟨C, hC, hread⟩ := exists_runsOut (f := fun n => (y n).pagesLeft) (N := B) hfalls hagain
  -- once the load, the wait and the message are all gone, nothing holds it up
  have hheld := (hwaits C (Nat.le_trans hA (Nat.le_trans hB hC))).held
    (hfree C (Nat.le_trans hB hC)) (hwaited C hC)
  rw [hread (C + 1) (Nat.le_succ C)] at hheld
  exact absurd hheld (Nat.lt_irrefl 0)

end Waiting

/-- An execution that has something left to perform does not wait for ever. -/
theorem exists_performed_longer (hfree : x.interp.asyncOp = .none) (hlimit : 0 < x.interp.loopLimit)
    (hattends : v.Attends) {N : Nat}
    (hgoes : v.Resumes ∨ (x.visited store v N).interp.asyncOp = .none)
    (hnext : (x.visited store v N).freed.interp.current? ≠ none) :
    ∃ n, (x.performed store v N).length < (x.performed store v n).length := by
  by_contra hstuck
  have hsilent (n : Nat) (hn : N ≤ n) : x.deedsAt store v n = [] :=
    added_eq_nil (fun _ => rfl) hstuck hn
  have hends (n : Nat) (hn : N ≤ n) :
      (x.visited store v n).freed = (x.visited store v N).freed := by
    induction n, hn using Nat.le_induction with
    | base => rfl
    | succ n hn ih => exact (freed_visited_of_silent (hsilent n hn)).trans ih
  have hloaded := hgoes.symm.imp_right fun hresumes => hresumes N
  refine not_waits_forever hloaded (fun n _ => hattends n) fun n hn => ?_
  have hrun :=
    Runs.transcript .base store (v n).allowSuspend ((x.visited store v n).dismiss (v n).dismissed)
  rw [List.map_eq_nil_iff.mp (hsilent n hn)] at hrun
  refine hrun.waits_of_silent ?_ (visited_loads store v hfree n) fun hdone => ?_
  · rwa [visited_loopLimit]
  · -- with no frame left there is nothing to perform
    have hleft : (x.visited store v (n + 1)).interp.stack = [] := hdone
    rw [← hends (n + 1) (Nat.le_succ_of_le hn)] at hnext
    exact hnext
      (by simp [freed, bare, modifyInterp, Interpreter.dropComplete, Interpreter.current?, hleft])

omit [AssetLoader σ] in
/-- The execution stands where a deed left it, up to the pages read and the finished frames gone
since. -/
structure StandsAt (d : Deed σ) (y : Execution BattleScript σ) : Prop where
  stack : y.interp.stack.dropWhile (·.isComplete) = d.stack.dropWhile (·.isComplete)
  world : y.world.modifyGame ({ · with message := {} }) =
    d.world.modifyGame ({ · with message := {} })

theorem performed_standsAt {n : Nat} {d : Deed σ} (h : (x.performed store v n).getLast? = some d) :
    (x.visited store v n).StandsAt d := by
  obtain ⟨hperforms, hends⟩ := visited_onCourse store v x n
  obtain ⟨init, hinit⟩ := List.getLast?_eq_some_iff.mp h
  obtain ⟨hstack, hworld⟩ := course_last (hperforms.symm.trans hinit)
  rw [← hends] at hstack hworld
  exact ⟨hstack, hworld⟩

variable (store v v' x)

/-- Whatever the limit, what is performed is a first part of one course. -/
theorem performed_limited (limit n : Nat) : (x.limited limit).performed store v n =
    (course store ((x.limited limit).performed store v n).length x).1 := by
  have hfreed : (x.limited limit).freed = x.freed := rfl
  rw [← course_congr hfreed]
  exact (visited_onCourse store v (x.limited limit) n).performs

theorem performed_prefix_of_le {limit limit' n n' : Nat}
    (h : ((x.limited limit).performed store v n).length ≤
      ((x.limited limit').performed store v' n').length) :
    (x.limited limit).performed store v n <+: (x.limited limit').performed store v' n' := by
  obtain ⟨k, hk⟩ := Nat.exists_eq_add_of_le h
  rw [performed_limited store v x limit n, performed_limited store v' x limit' n', hk]
  exact course_mono _ k x

variable {store v v' x}

/-- An execution that has performed less than another has more to come. -/
theorem exists_performed_of_lt (hfree : x.interp.asyncOp = .none) {limit limit' n n' : Nat}
    (hlimit : 0 < limit') (hattends : v'.Attends) (hgoes : v'.Resumes ∨ v.Patient)
    (hlt : ((x.limited limit').performed store v' n').length <
      ((x.limited limit).performed store v n).length) :
    ∃ m, ((x.limited limit').performed store v' n').length <
      ((x.limited limit').performed store v' m).length := by
  refine exists_performed_longer (x := x.limited limit') hfree hlimit hattends
    (hgoes.imp_right fun hpatient => ?_) ?_
  · -- a load that it waits for was not waited for on the other side
    rcases visited_pending store v' (x := x.limited limit') hfree n'
      with hnone | ⟨init, d, hlast, hop⟩
    · exact hnone
    · obtain ⟨rest, hrest⟩ := performed_prefix_of_le store v' v x (Nat.le_of_lt hlt)
      cases rest with
      | nil =>
        rw [← hrest, List.append_nil] at hlt
        exact absurd hlt (Nat.lt_irrefl _)
      | cons e rest =>
        have hunheld := visited_unheld store (x.limited limit) hpatient n
        rw [← hrest, hlast, List.append_assoc] at hunheld
        exact hop.trans hunheld.before
  · have hends := (visited_onCourse store v' (x.limited limit') n').ends
    have hfreed : (x.limited limit').freed = x.freed := rfl
    rw [hends, course_congr hfreed]
    apply course_next (k := ((x.limited limit).performed store v n).length)
    rwa [← performed_limited]

/-- The loop limit decides no more than where updates return. With two hosts that read messages and
update, and under two limits, an execution performs the same instructions to the same effect, and
for a host that keeps reading all of them. -/
theorem visits_agree (store : ProgramStore) (v v' : Visits) {x : Execution BattleScript σ}
    (hfree : x.interp.asyncOp = .none) (limit : Nat) {limit' : Nat} (hlimit : 0 < limit') :
    (∀ n n', (x.limited limit).performed store v n <+: (x.limited limit').performed store v' n' ∨
      (x.limited limit').performed store v' n' <+: (x.limited limit).performed store v n) ∧
    (∀ n d, ((x.limited limit).performed store v n).getLast? = some d →
      ((x.limited limit).visited store v n).StandsAt d) ∧
    (v'.Attends → v'.Resumes ∨ v.Patient →
      ∀ n, ∃ n', (x.limited limit).performed store v n <+: (x.limited limit').performed
        store v' n') := by
  refine ⟨fun n n' => ?_, fun n d => performed_standsAt, fun hattends hgoes n => ?_⟩
  · exact (Nat.le_total _ _).imp (performed_prefix_of_le store v v' x)
      (performed_prefix_of_le store v' v x)
  · have hreaches (k : Nat) (hk : k ≤ ((x.limited limit).performed store v n).length) :
        ∃ n', k ≤ ((x.limited limit').performed store v' n').length := by
      induction k with
      | zero => exact ⟨0, Nat.zero_le _⟩
      | succ k ih =>
        obtain ⟨n', hn'⟩ := ih (Nat.le_of_succ_le hk)
        by_cases hmore : k < ((x.limited limit').performed store v' n').length
        · exact ⟨n', hmore⟩
        · have hless : ((x.limited limit').performed store v' n').length <
              ((x.limited limit).performed store v n).length := by omega
          obtain ⟨m, hm⟩ := exists_performed_of_lt hfree hlimit hattends hgoes hless
          exact ⟨m, by omega⟩
    obtain ⟨n', hn'⟩ := hreaches _ (Nat.le_refl _)
    exact ⟨n', performed_prefix_of_le store v v' x hn'⟩

/-- A message and a wait of no length, in a loop without end. -/
def vigil : Execution BattleScript InstantAssets where
  interp := ({} : Interpreter).push
    [{ opcode := .loop }, { opcode := .showMessage, indent := 1, text := some "" },
    { opcode := .wait, indent := 1 }, { opcode := .endLoop }] .synthetic
  table := {}
  world := { game := {}, assets := {} }

/-- A host that reads a page at every visit. -/
def reader : Visits := fun _ => { dismissed := 1 }

/-- What the vigil performs at one instruction a visit, it performs at four a visit. -/
theorem visits_agree_of_vigil :
    vigil.interp.asyncOp = .none ∧ 0 < 4 ∧ reader.Attends ∧ reader.Patient ∧
      ((vigil.limited 1).performed {} reader 6).map (·.inst.opcode) =
        [.loop, .showMessage, .wait, .endLoop, .showMessage, .wait] ∧
      ∃ n, (vigil.limited 1).performed {} reader 6 <+: (vigil.limited 4).performed {} reader n := by
  have hfree : vigil.interp.asyncOp = .none := rfl
  have hattends : reader.Attends := fun n => ⟨n, Nat.le_refl n, Nat.one_pos⟩
  have hpatient : reader.Patient := fun _ => rfl
  have hlimit : 0 < 4 := by decide
  obtain ⟨-, -, hreaches⟩ := visits_agree {} reader reader hfree 1 hlimit
  exact ⟨hfree, hlimit, hattends, hpatient, by decide +kernel, hreaches hattends (.inr hpatient) 6⟩

end Execution

end ActiveBattle
