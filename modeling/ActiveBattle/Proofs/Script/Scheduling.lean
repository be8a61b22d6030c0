import ActiveBattle.Proofs.Script.Discipline
import ActiveBattle.Proofs.Script.Effect
import ActiveBattle.Proofs.Script.Restoring
import Mathlib.Order.Bounds.Basic

/-!
# Scheduling pages

The director looks for the first page that may run: one that has not run since the ledger was
cleared, that is asked for and whose condition is met. What it finds takes over the interpreter and
is struck off the ledger, and nothing else changes (`schedule_first`).
-/

namespace ActiveBattle

set_option autoImplicit false

/-- The tag of a page is its number, as far as tags count. -/
theorem OwnerTag.value_ofPage {number : Nat} (h : (number : Int) ≤ operandMax) :
    (OwnerTag.ofPage number).value = number := by
  unfold OwnerTag.ofPage
  rw [wrapOperand_natCast h]

namespace Director

/-- A page reacts to one of the required categories, and its condition is met. -/
def Answers (d : Director) (store : ProgramStore) (g : GameState) (required : ConditionFlags)
    (source : Option BattlerId) (number : Nat) : Prop :=
  ∃ page, store.page? number = some page ∧ page.condition.flags.intersects required = true ∧
    page.condition.isMet g source d.script.rpg2k3 = true

/-- Such a page may run when it has not run since the ledger was cleared. -/
def MayRun (d : Director) (store : ProgramStore) (g : GameState) (required : ConditionFlags)
    (source : Option BattlerId) (number : Nat) : Prop :=
  d.Answers store g required source number ∧ d.isPageExecuted number = false

section Ledger

theorem isPageExecuted_succ (d : Director) (n : Nat) :
    d.isPageExecuted (n + 1) = d.executed[n]?.getD false := rfl

/-- The ledger has an entry for each page, that of the page where there was one. -/
theorem getElem?_ledger (d : Director) (pageCount index : Nat) :
    (d.ledger pageCount)[index]? =
      if index < pageCount then some (d.isPageExecuted (index + 1)) else none := by
  unfold ledger
  rw [isPageExecuted_succ, List.getElem?_take]
  split
  · rename_i hlt
    rw [List.getElem?_append]
    split
    · rename_i hold
      rw [List.getElem?_eq_getElem hold]
      rfl
    · rename_i hnew
      rw [List.getElem?_replicate, if_pos (by omega), List.getElem?_eq_none (by omega)]
      rfl
  · rfl

theorem length_ledger (d : Director) (pageCount : Nat) :
    (d.ledger pageCount).length = pageCount := by
  unfold ledger
  rw [List.length_take, List.length_append, List.length_replicate]
  omega

/-- A page that is struck off the ledger joins those that ran. -/
theorem isPageExecuted_of_set {d d' : Director} {index : Nat} (hlt : index < d.executed.length)
    (h : d'.executed = d.executed.set index true) (page : Nat) :
    d'.isPageExecuted page = (decide (page = index + 1) || d.isPageExecuted page) := by
  cases page with
  | zero => rfl
  | succ n =>
    rw [isPageExecuted_succ, isPageExecuted_succ, h, List.getElem?_set]
    by_cases hn : index = n
    · simp [hn, hn ▸ hlt]
    · simp [hn, Ne.symm hn]

/-- Cut to the pages of a troop, the ledger says of them what it said before. -/
theorem isPageExecuted_of_ledger {d d' : Director} {pageCount page : Nat}
    (h : d'.executed = d.ledger pageCount) (hpage : page ≤ pageCount) :
    d'.isPageExecuted page = d.isPageExecuted page := by
  cases page with
  | zero => rfl
  | succ n =>
    rw [isPageExecuted_succ, h, getElem?_ledger, if_pos (by omega)]
    rfl

/-- After a reset no page has run. -/
theorem isPageExecuted_resetPages (d : Director) (page : Nat) :
    d.resetPages.isPageExecuted page = false := by
  cases page with
  | zero => rfl
  | succ n =>
    rw [isPageExecuted_succ]
    change (d.executed.map fun _ => false)[n]?.getD false = false
    rw [List.getElem?_map]
    cases d.executed[n]? <;> rfl

end Ledger

section Search

variable {d : Director} {store : ProgramStore} {g : GameState} {required : ConditionFlags}
  {source : Option BattlerId}

theorem mayRun_succ {index : Nat} : d.MayRun store g required source (index + 1) ↔
    ∃ page, store.troop.pages[index]? = some page ∧
      d.isEligible g required source page (d.isPageExecuted (index + 1)) = true := by
  simp only [MayRun, Answers, isEligible, ProgramStore.page?, Bool.and_eq_true, Bool.not_eq_true']
  constructor
  · rintro ⟨⟨page, hpage, hasked, hmet⟩, hfresh⟩
    exact ⟨page, hpage, ⟨hfresh, hasked⟩, hmet⟩
  · rintro ⟨page, hpage, ⟨hfresh, hasked⟩, hmet⟩
    exact ⟨⟨page, hpage, hasked, hmet⟩, hfresh⟩

theorem not_mayRun_zero : ¬d.MayRun store g required source 0 := by
  rintro ⟨⟨page, hpage, -⟩, -⟩
  contradiction

/-- What the search tests at a place is whether the page there may run. -/
theorem isEligible_candidate_iff {index : Nat}
    (h : index < (store.troop.pages.zip (d.ledger store.troop.pages.length)).length) :
    d.isEligible g required source
      (store.troop.pages.zip (d.ledger store.troop.pages.length))[index].1
        (store.troop.pages.zip (d.ledger store.troop.pages.length))[index].2 = true ↔
      d.MayRun store g required source (index + 1) := by
  obtain ⟨hpage, hentry⟩ := List.getElem?_zip_eq_some.mp (List.getElem?_eq_getElem h)
  have hlt : index < store.troop.pages.length := (List.getElem?_eq_some_iff.mp hpage).1
  rw [getElem?_ledger, if_pos hlt, Option.some.injEq] at hentry
  rw [mayRun_succ, ← hentry]
  constructor
  · exact fun heligible => ⟨_, hpage, heligible⟩
  · rintro ⟨page, hpage', heligible⟩
    rwa [Option.some.inj (hpage.symm.trans hpage')]

/-- The search comes to the least page that may run. -/
theorem nextPage?_eq_some {index : Nat} {page : TroopPage}
    (h : d.nextPage? store.troop.pages g required source = some (index, page)) :
    IsLeast {n | d.MayRun store g required source n} (index + 1) ∧
      store.page? (index + 1) = some page := by
  obtain ⟨i, hfound, hpage⟩ := Option.bind_eq_some_iff.mp h
  obtain ⟨page', hpage', heq⟩ := Option.map_eq_some_iff.mp hpage
  obtain ⟨rfl, rfl⟩ := Prod.mk.inj heq
  obtain ⟨hlt, heligible, hbefore⟩ := List.findIdx?_eq_some_iff_getElem.mp hfound
  refine ⟨⟨(isEligible_candidate_iff hlt).mp heligible, fun n hn => ?_⟩, hpage'⟩
  cases n with
  | zero => exact absurd hn not_mayRun_zero
  | succ n =>
    by_contra hless
    have hn' : n < i := by omega
    exact hbefore n hn' ((isEligible_candidate_iff (hn'.trans hlt)).mpr hn)

/-- Where the search comes to nothing no page may run. -/
theorem nextPage?_eq_none (h : d.nextPage? store.troop.pages g required source = none) (n : Nat) :
    ¬d.MayRun store g required source n := by
  intro hn
  cases n with
  | zero => exact not_mayRun_zero hn
  | succ n =>
    obtain ⟨page, hpage, -⟩ := mayRun_succ.mp hn
    have hlt : n < store.troop.pages.length := (List.getElem?_eq_some_iff.mp hpage).1
    have hcandidate : n < (store.troop.pages.zip (d.ledger store.troop.pages.length)).length := by
      rw [List.length_zip, length_ledger]
      omega
    have heligible := (isEligible_candidate_iff hcandidate).mpr hn
    unfold nextPage? at h
    dsimp only at h
    cases hfound : (store.troop.pages.zip (d.ledger store.troop.pages.length)).findIdx?
      fun candidate =>
        d.isEligible g required source candidate.1 candidate.2 with
    | none =>
      have hall := List.findIdx?_eq_none_iff.mp hfound _ (List.getElem_mem hcandidate)
      rw [heligible] at hall
      contradiction
    | some i =>
      obtain ⟨hi, -⟩ := List.findIdx?_eq_some_iff_getElem.mp hfound
      rw [List.length_zip] at hi
      rw [hfound, Option.bind_some, List.getElem?_eq_getElem (by omega)] at h
      contradiction

end Search

/-- A page takes over: it is all that is on the stack, at its first instruction, and no entry of the
ledger changes but its own. -/
structure TakenOver (d : Director) (store : ProgramStore) (number : Nat) (d' : Director) :
    Prop where
  stack : ∃ page frame, store.page? number = some page ∧ d'.interp.stack = [frame] ∧
    frame.program = page.instructions ∧ frame.cursor = 0 ∧ frame.ownerTag = .ofPage number ∧
    ((number : Int) ≤ operandMax → frame.ownerTag.value = number)
  own : d'.isPageExecuted number = true
  others : ∀ other ≤ store.pageCount,
    other ≠ number → d'.isPageExecuted other = d.isPageExecuted other
  script : d'.script = d.script

/-- Nothing takes over: the interpreter stays as it is, and so does the entry of every page. -/
structure LeftAlone (d : Director) (store : ProgramStore) (d' : Director) : Prop where
  interp : d'.interp = d.interp
  ledger : ∀ number ≤ store.pageCount, d'.isPageExecuted number = d.isPageExecuted number
  script : d'.script = d.script

section Schedule

variable {d : Director} {store : ProgramStore} {g : GameState} {required : ConditionFlags}
  {source : Option BattlerId}

/-- A script that runs keeps pages out. -/
theorem schedule_of_running (h : d.isRunning = true) :
    d.schedule store g required source = (0, d) := by
  unfold schedule
  rw [if_pos h]

theorem schedule_of_isLeast (hidle : d.isRunning = false) {n : Nat}
    (hn : IsLeast {n | d.MayRun store g required source n} n) :
    (d.schedule store g required source).1 = n ∧
      TakenOver d store n (d.schedule store g required source).2 := by
  unfold schedule
  rw [if_neg (Bool.eq_false_iff.mp hidle)]
  dsimp only
  split
  · rename_i index page hnext
    obtain ⟨hleast, hpage⟩ := nextPage?_eq_some hnext
    obtain rfl := hleast.unique hn
    have hlt : index < (d.ledger store.troop.pages.length).length := by
      rw [length_ledger]
      exact (List.getElem?_eq_some_iff.mp hpage).1
    -- The ledger is made to span the pages before the entry is set.
    have hledger (number : Nat) : ({ d with
          interp := d.interp.clear.push page.instructions (.ofPage (index + 1))
          executed := (d.ledger store.troop.pages.length).set index true } :
            Director).isPageExecuted number =
        (decide (number = index + 1) ||
          ({ d with executed := d.ledger store.troop.pages.length } : Director).isPageExecuted
          number) :=
      isPageExecuted_of_set hlt rfl number
    refine ⟨rfl, ⟨page, _, hpage, rfl, rfl, rfl, rfl, OwnerTag.value_ofPage⟩, ?_,
      fun other hother hne => ?_, rfl⟩
    · rw [hledger, decide_eq_true rfl]
      rfl
    · rw [hledger, decide_eq_false hne, Bool.false_or]
      exact isPageExecuted_of_ledger rfl hother
  · rename_i hnext
    exact absurd hn.1 (nextPage?_eq_none hnext n)

theorem schedule_of_forall_not (hidle : d.isRunning = false)
    (hnone : ∀ n, ¬d.MayRun store g required source n) :
    (d.schedule store g required source).1 = 0 ∧
      LeftAlone d store (d.schedule store g required source).2 := by
  unfold schedule
  rw [if_neg (Bool.eq_false_iff.mp hidle)]
  dsimp only
  split
  · rename_i index page hnext
    exact absurd (nextPage?_eq_some hnext).1.1 (hnone _)
  · exact ⟨rfl, rfl, fun number hnumber => isPageExecuted_of_ledger rfl hnumber, rfl⟩

/-- What scheduling can come to. -/
theorem schedule_trichotomy (d : Director) (store : ProgramStore) (g : GameState)
    (required : ConditionFlags) (source : Option BattlerId) :
    d.schedule store g required source = (0, d) ∨
      (∃ n, d.MayRun store g required source n ∧ (d.schedule store g required source).1 = n ∧
        TakenOver d store n (d.schedule store g required source).2) ∨
      ((d.schedule store g required source).1 = 0 ∧
        LeftAlone d store (d.schedule store g required source).2) := by
  cases hidle : d.isRunning with
  | true => exact .inl (schedule_of_running hidle)
  | false =>
    cases hnext : d.nextPage? store.troop.pages g required source with
    | none => exact .inr (.inr (schedule_of_forall_not hidle (nextPage?_eq_none hnext)))
    | some found =>
      have hleast := (nextPage?_eq_some hnext).1
      exact .inr (.inl ⟨_, hleast.1, schedule_of_isLeast hidle hleast⟩)

theorem MayRun.le_pageCount {n : Nat} (h : d.MayRun store g required source n) :
    n ≤ store.pageCount := by
  cases n with
  | zero => exact Nat.zero_le _
  | succ n =>
    obtain ⟨page, hpage, -⟩ := mayRun_succ.mp h
    exact (List.getElem?_eq_some_iff.mp hpage).1

/-- A page that ran has run, whatever is scheduled after it. -/
theorem isPageExecuted_schedule {number : Nat} (hpage : number ≤ store.pageCount)
    (h : d.isPageExecuted number = true) :
    (d.schedule store g required source).2.isPageExecuted number = true := by
  rcases d.schedule_trichotomy store g required source with hbusy | ⟨n, -, -, htaken⟩ | ⟨-, hleft⟩
  · rw [hbusy]
    exact h
  · by_cases hn : number = n
    · rw [hn]
      exact htaken.own
    · rw [htaken.others number hpage hn]
      exact h
  · rw [hleft.ledger number hpage]
    exact h

variable {σ : Type} [AssetLoader σ]

/-- Nothing that is asked of a director but a reset takes a page off those that ran. -/
theorem isPageExecuted_perform {number : Nat} (hpage : number ≤ store.pageCount)
    (h : d.isPageExecuted number = true) (call : Call σ) :
    (d.perform store call).isPageExecuted number = true := by
  have kept {d' : Director} (hledger : d'.executed = d.executed) :
      d'.isPageExecuted number = true := by
    unfold isPageExecuted at h ⊢
    rwa [hledger]
  cases call with
  | schedule game required source => exact isPageExecuted_schedule hpage h
  | startEvent id => exact kept (d.startEvent_kept store id).2
  | _ => exact kept rfl

theorem isPageExecuted_foldl_perform {number : Nat} (hpage : number ≤ store.pageCount)
    (h : d.isPageExecuted number = true) (calls : List (Call σ)) :
    (calls.foldl (perform store) d).isPageExecuted number = true := by
  apply List.foldlRecOn (motive := fun d : Director => d.isPageExecuted number = true)
  · exact h
  · exact fun _ h call _ => isPageExecuted_perform hpage h call

/-- What is scheduled without a reset in between is not scheduled again. -/
theorem schedule_ne_of_calls (hsome : (d.schedule store g required source).1 ≠ 0)
    (calls : List (Call σ)) (g' : GameState) (required' : ConditionFlags)
    (source' : Option BattlerId) :
    ((calls.foldl (perform store) (d.schedule store g required source).2).schedule store g'
      required' source').1 ≠
      (d.schedule store g required source).1 := by
  rcases d.schedule_trichotomy store g required source with hbusy | ⟨n, hmay, hn,
    htaken⟩ | ⟨hzero, -⟩
  · exact absurd (congrArg Prod.fst hbusy) hsome
  · have hran := isPageExecuted_foldl_perform hmay.le_pageCount htaken.own calls
    rw [hn] at hsome ⊢
    generalize calls.foldl (perform store) (d.schedule store g required source).2 = later at hran ⊢
    rcases later.schedule_trichotomy store g' required' source' with hbusy | ⟨m, hagain,
      hm, -⟩ | ⟨hzero, -⟩
    · rw [hbusy]
      exact hsome.symm
    · rw [hm]
      rintro rfl
      rw [hagain.2] at hran
      contradiction
    · rw [hzero]
      exact hsome.symm
  · contradiction

/-- After a reset every page that answers may run. -/
theorem mayRun_resetPages {n : Nat} :
    d.resetPages.MayRun store g required source n ↔ d.Answers store g required source n :=
  and_iff_left (d.isPageExecuted_resetPages n)

end Schedule

/-- A director that is busy schedules nothing and stays as it is. One that is idle comes to the
least page that has not run since the last reset, is asked for and has its condition met; that page
takes over. If there is none, nothing does. So no page comes twice without a reset, whatever else is
asked for in between, and after a reset the least page that answers comes, whether it ran before or
not. -/
theorem schedule_first {σ : Type} [AssetLoader σ] (d : Director) (store : ProgramStore)
    (g : GameState) (required : ConditionFlags) (source : Option BattlerId) :
    (d.isRunning = true → d.schedule store g required source = (0, d)) ∧
    (d.isRunning = false → ∀ n, IsLeast {n | d.MayRun store g required source n} n →
      (d.schedule store g required source).1 = n ∧
        TakenOver d store n (d.schedule store g required source).2) ∧
    (d.isRunning = false → (∀ n, ¬d.MayRun store g required source n) →
      (d.schedule store g required source).1 = 0 ∧
        LeftAlone d store (d.schedule store g required source).2) ∧
    ((d.schedule store g required source).1 ≠ 0 → ∀ (calls : List (Call σ)) (g' : GameState)
      (required' : ConditionFlags) (source' : Option BattlerId),
      ((calls.foldl (perform store) (d.schedule store g required source).2).schedule store g'
        required' source').1 ≠
        (d.schedule store g required source).1) ∧
    (d.isRunning = false → ∀ n, IsLeast {n | d.Answers store g required source n} n →
      (d.resetPages.schedule store g required source).1 = n) := by
  refine ⟨schedule_of_running, fun hidle n => schedule_of_isLeast hidle, schedule_of_forall_not,
    schedule_ne_of_calls, fun hidle n hn => ?_⟩
  refine (schedule_of_isLeast (d := d.resetPages) hidle ?_).1
  simpa only [mayRun_resetPages] using hn

/-! ### A troop whose first page waits for a switch -/

namespace Bulletin

def store : ProgramStore where
  troop :=
    { pages :=
        [{ condition := { flags := .ofList [.switchA] }, instructions := [] },
          { condition := { flags := .ofList [.turn] }
            instructions := [{ opcode := .wait, params := [1] }] }] }

def game : GameState := { switches := .ofCount 1, vars := .ofCount 1 }

def director : Director := .ofConfig {} store.pageCount

theorem isLeast_answers : IsLeast {n | director.Answers store game .all none n} 2 := by
  refine ⟨⟨_, rfl, by decide, by decide⟩, ?_⟩
  rintro (_ | _ | n) ⟨page, hpage, -, hmet⟩
  · contradiction
  · obtain rfl := Option.some.inj hpage
    exact absurd hmet (by decide)
  · omega

end Bulletin

theorem schedule_first_of_bulletin :
    (Bulletin.director.schedule Bulletin.store Bulletin.game .all none).1 = 2 ∧
      (∀ calls : List (Call InstantAssets),
        ((calls.foldl (perform Bulletin.store)
          (Bulletin.director.schedule Bulletin.store Bulletin.game .all none).2).schedule
            Bulletin.store Bulletin.game
            .all none).1 ≠ 2) ∧
      (Bulletin.director.resetPages.schedule Bulletin.store Bulletin.game .all none).1 = 2 := by
  obtain ⟨-, hcomes, -, hnever, hagain⟩ :=
    schedule_first (σ := InstantAssets) Bulletin.director Bulletin.store Bulletin.game .all none
  have hleast :
      IsLeast {n | Bulletin.director.MayRun Bulletin.store Bulletin.game .all none n} 2 := by
    have hfresh (n : Nat) : Bulletin.director.isPageExecuted n = false :=
      isPageExecuted_resetPages Bulletin.director n
    simpa only [MayRun, hfresh, and_true] using Bulletin.isLeast_answers
  have hsecond := (hcomes rfl 2 hleast).1
  rw [hsecond] at hnever
  exact ⟨hsecond, fun calls => hnever (by decide) calls Bulletin.game .all none,
    hagain rfl 2 Bulletin.isLeast_answers⟩

end Director

end ActiveBattle
