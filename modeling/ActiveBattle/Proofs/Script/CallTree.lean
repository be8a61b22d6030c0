import Mathlib.Order.WellFoundedSet
import ActiveBattle.Proofs.Script.Onward

/-!
# Call trees

Where no event calls itself, not even through others, the calls under a program make a finite tree,
and how many lines it takes is bounded (`ProgramStore.Acyclic.exists_takes`). The frames on a stack
owe what is left of each of them. Every line that is performed lowers what is owed
(`Interpreter.Forward.owes`), so no passage outlasts it (`Passage.owes`).
-/

namespace ActiveBattle

set_option autoImplicit false

/-- A program takes at most so many lines, with those of all that it calls. -/
inductive Program.Takes (store : ProgramStore) : Program → Nat → Prop
  | nil : Takes store [] 0
  | cons {inst : Instruction} {rest : Program} {called after : Nat}
      (hcalled : ∀ e, inst.Calls store e → Takes store e.instructions called)
        (hrest : Takes store rest after) :
      Takes store (inst :: rest) (called + after + 1)

/-- What is left of the frames takes at most so many lines. -/
inductive Owes (store : ProgramStore) : List Frame → Nat → Prop
  | nil : Owes store [] 0
  | cons {f : Frame} {below : List Frame} {left rest : Nat}
    (htop : Program.Takes store (f.program.drop f.cursor) left)
      (hbelow : Owes store below rest) : Owes store (f :: below) (left + rest)

variable {store : ProgramStore}

theorem Instruction.Calls.unique {inst : Instruction} {e e' : CommonEvent} (h : inst.Calls store e)
    (h' : inst.Calls store e') : e = e' := Option.some.inj (h.2.symm.trans h'.2)

namespace Program

theorem exists_takes {program : Program}
    (hcalls : ∀ inst ∈ program, ∀ e, inst.Calls store e → ∃ n, Takes store e.instructions n) :
    ∃ n, Takes store program n := by
  induction program with
  | nil => exact ⟨0, .nil⟩
  | cons inst rest ih =>
    rw [List.forall_mem_cons] at hcalls
    obtain ⟨after, hrest⟩ := ih hcalls.2
    by_cases h : ∃ e, inst.Calls store e
    · obtain ⟨e, he⟩ := h
      obtain ⟨called, hcalled⟩ := hcalls.1 e he
      refine ⟨called + after + 1, .cons ?_ hrest⟩
      intro e' he'
      rw [he'.unique he]
      exact hcalled
    · refine ⟨0 + after + 1, .cons ?_ hrest⟩
      intro e he
      exact absurd ⟨e, he⟩ h

theorem Takes.drop {program : Program} {n : Nat} (h : Takes store program n) (k : Nat) :
    ∃ m, m ≤ n ∧ Takes store (program.drop k) m := by
  induction program generalizing n k with
  | nil =>
    rw [List.drop_nil]
    exact ⟨n, Nat.le_refl n, h⟩
  | cons inst rest ih =>
    cases k with
    | zero => exact ⟨n, Nat.le_refl n, h⟩
    | succ k =>
      cases h with
      | @cons _ _ called after _ hrest =>
        obtain ⟨m, hm, hdropped⟩ := ih hrest k
        exact ⟨m, by omega, hdropped⟩

end Program

namespace Interpreter

/-- Each line that is performed lowers what the frames owe. -/
theorem Forward.owes {inst : Instruction} {top : Frame} {below next : List Frame} {n : Nat}
    (hcurrent : top.current? = some inst) (h : Forward store inst top below next)
    (howes : Owes store (top :: below) n) :
    ∃ m, m < n ∧ Owes store next m := by
  obtain ⟨hlt, rfl⟩ := List.getElem?_eq_some_iff.mp hcurrent
  cases howes with
  | @cons _ _ left rest htop hbelow =>
    rw [List.drop_eq_getElem_cons hlt] at htop
    cases htop with
    | @cons _ _ called after hcalled hrest =>
      cases h with
      | @goes g _ hprogram hcursor =>
        obtain ⟨m, hm, hleft⟩ := hrest.drop (g.cursor - (top.cursor + 1))
        rw [List.drop_drop, Nat.add_sub_cancel' hcursor, ← hprogram] at hleft
        exact ⟨m + rest, by omega, .cons hleft hbelow⟩
      | calls hcalls =>
        exact ⟨called + (after + rest), by omega, .cons (hcalled _ hcalls) (.cons hrest hbelow)⟩

end Interpreter

/-- A passage performs no more lines than were owed. -/
theorem Passage.owes {σ : Type} {frames next : List Frame} {log : List (Line σ)} {n : Nat}
    (h : Passage store frames log next) (howes : Owes store frames n) :
    ∃ m, log.length + m ≤ n ∧ Owes store next m := by
  induction h with
  | start => exact ⟨n, by simp, howes⟩
  | pops _ _ ih =>
    obtain ⟨m, hm, hleft⟩ := ih
    cases hleft with
    | @cons _ _ left rest _ hbelow => exact ⟨rest, by omega, hbelow⟩
  | performs _ _ hcurrent hforward ih =>
    obtain ⟨m, hm, hleft⟩ := ih
    obtain ⟨k, hk, hnext⟩ := hforward.owes hcurrent hleft
    rw [List.length_append, List.length_singleton]
    exact ⟨k, by omega, hnext⟩

namespace ProgramStore

/-- One event of the store calls another. -/
def Calls (store : ProgramStore) (caller callee : CommonEvent) : Prop :=
  caller ∈ store.events ∧ ∃ inst ∈ caller.instructions, inst.Calls store callee

/-- No event calls itself, not even through others. -/
def Acyclic (store : ProgramStore) : Prop := ∀ e, ¬Relation.TransGen store.Calls e e

/-- What a program comes to run: itself, and the events that it calls. -/
inductive Reaches (store : ProgramStore) (program : Program) : Program → Prop
  | start : Reaches store program program
  | calls {q : Program} {inst : Instruction} {e : CommonEvent} (h : Reaches store program q)
    (hinst : inst ∈ q) (hcalls : inst.Calls store e) : Reaches store program e.instructions

theorem acyclic_of_rank (rank : CommonEvent → Nat)
    (h : ∀ caller callee, store.Calls caller callee → rank callee < rank caller) :
    store.Acyclic := by
  have hlower {e e' : CommonEvent} (hcalls : Relation.TransGen store.Calls e e') :
      rank e' < rank e := by
    induction hcalls with
    | single hone => exact h _ _ hone
    | tail _ hone ih => exact Nat.lt_trans (h _ _ hone) ih
  intro e hcycle
  exact Nat.lt_irrefl _ (hlower hcycle)

/-- Without cycles every program takes but so many lines. -/
theorem Acyclic.exists_takes (h : store.Acyclic) (program : Program) :
    ∃ n, program.Takes store n := by
  have htrans : IsTrans CommonEvent fun e e' => Relation.TransGen store.Calls e' e :=
    ⟨fun _ _ _ hbelow habove => habove.trans hbelow⟩
  have hirrefl : Std.Irrefl fun e e' => Relation.TransGen store.Calls e' e := ⟨h⟩
  have hstrict : IsStrictOrder CommonEvent fun e e' => Relation.TransGen store.Calls e' e := {}
  have hfounded :=
    store.events.finite_toSet.wellFoundedOn (r := fun e e' => Relation.TransGen store.Calls e' e)
  have hevents (e : CommonEvent) (he : e ∈ store.events) : ∃ n, e.instructions.Takes store n := by
    refine hfounded.induction (P := fun e => ∃ n, e.instructions.Takes store n) he ?_
    intro caller hcaller ih
    apply Program.exists_takes
    intro inst hinst callee hcalls
    exact ih callee (List.mem_of_find?_eq_some hcalls.2) (.single ⟨hcaller, inst, hinst, hcalls⟩)
  apply Program.exists_takes
  intro inst _ e hcalls
  exact hevents e (List.mem_of_find?_eq_some hcalls.2)

end ProgramStore

end ActiveBattle
