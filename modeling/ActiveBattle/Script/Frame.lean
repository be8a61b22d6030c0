import ActiveBattle.Script.Program

/-!
# Execution frames

One running program: where it stands and which branches it chose. A snapshot keeps what a frame
needs besides its program, which the owner tag finds again. The main statement,
`Frame.branchAt_setBranch`, says that the choices at different indents are independent.
-/

namespace ActiveBattle

set_option autoImplicit false

/-- The branch choice that says an option at this indent already ran. -/
def branchTaken : Int := 255

/-- The branch choice of the else arm. -/
def branchElse : Int := 1

structure FrameSnapshot where
  ownerTag : OwnerTag := {}
  cursor : Int := 0
  branchChoices : List (Int × Int) := []
deriving DecidableEq

namespace FrameSnapshot

/-- The empty frame stored for an idle parallel event. -/
def placeholder : FrameSnapshot := {}

def isPlaceholder (s : FrameSnapshot) : Bool := s = placeholder

end FrameSnapshot

/-- What is kept of an interpreter, bottom frame first; an empty stack is one that does not run. -/
structure ExecutionSnapshot where
  stack : List FrameSnapshot := []
  waitFrames : Int := 0
deriving DecidableEq

def ExecutionSnapshot.isEmpty (s : ExecutionSnapshot) : Bool := s.stack.isEmpty

structure Frame where
  ownerTag : OwnerTag
  program : Program
  /-- The next instruction; the program's length once the frame is done. -/
  cursor : Nat := 0
  /-- The branch chosen last at each indent, by indent. -/
  branchChoices : List (Int × Int) := []
deriving DecidableEq

namespace Frame

def isComplete (f : Frame) : Bool := f.program.length ≤ f.cursor

def current? (f : Frame) : Option Instruction := f.program[f.cursor]?

def advance (f : Frame) : Frame := { f with cursor := f.cursor + 1 }

def jump (f : Frame) (cursor : Nat) : Frame := { f with cursor := cursor }

def finish (f : Frame) : Frame := f.jump f.program.length

def branchAt (f : Frame) (indent : Int) : Int :=
  match f.branchChoices.find? (·.1 = indent) with
  | some entry => entry.2
  | none => branchTaken

/-- Overwrites the first choice at an indent. -/
def overwrite (indent choice : Int) : List (Int × Int) → List (Int × Int)
  | [] => []
  | entry :: rest =>
    if entry.1 = indent then (entry.1, choice) :: rest else entry :: overwrite indent choice rest

def setBranch (f : Frame) (indent choice : Int) : Frame :=
  if f.branchChoices.any (·.1 = indent) then
    { f with branchChoices := overwrite indent choice f.branchChoices }
  else
    { f with
      branchChoices := (f.branchChoices ++ [(indent, choice)]).mergeSort fun a b => a.1 ≤ b.1 }

/-- Overwriting is seen at its own indent alone. -/
theorem find?_overwrite (indent choice j : Int) (entries : List (Int × Int))
    (h : entries.any (·.1 = indent) = true) :
    (overwrite indent choice entries).find? (·.1 = j) =
      if indent = j then some (indent, choice) else entries.find? (·.1 = j) := by
  induction entries with
  | nil => simp at h
  | cons entry rest ih =>
    by_cases he : entry.1 = indent
    · by_cases hj : indent = j <;> simp [overwrite, he, hj]
    · have hrest : rest.any (·.1 = indent) = true := by simpa [he] using h
      have ih := ih hrest
      by_cases hj : indent = j
      · subst hj
        simpa [overwrite, he, List.find?_cons] using ih
      · simp only [overwrite, if_neg he, List.find?_cons, ih, if_neg hj]

/-- Sorting by indent keeps the order of the entries of one indent. -/
theorem find?_sort (j : Int) (entries : List (Int × Int)) :
    (entries.mergeSort fun a b => a.1 ≤ b.1).find? (·.1 = j) = entries.find? (·.1 = j) := by
  have hsub : (entries.filter (·.1 = j)).Sublist (entries.mergeSort fun a b => a.1 ≤ b.1) := by
    apply List.sublist_mergeSort
    · intro a b c; simp only [decide_eq_true_eq]; omega
    · intro a b; simp only [Bool.or_eq_true, decide_eq_true_eq]; omega
    · apply List.pairwise_of_forall_mem_list
      intro a ha b hb
      simp only [List.mem_filter, decide_eq_true_eq] at ha hb ⊢
      omega
    · exact List.filter_sublist
  have hlen : (entries.filter (·.1 = j)).length =
      ((entries.mergeSort fun a b => a.1 ≤ b.1).filter (·.1 = j)).length :=
    ((List.mergeSort_perm entries _).filter _).length_eq.symm
  have heq := (hsub.filter (·.1 = j)).eq_of_length (by simpa using hlen)
  rw [← List.head?_filter, ← List.head?_filter, ← heq]
  simp

/-- Choosing a branch at one indent leaves the choices at all others. -/
theorem branchAt_setBranch (f : Frame) (indent choice j : Int) :
    (f.setBranch indent choice).branchAt j = if indent = j then choice else f.branchAt j := by
  unfold setBranch branchAt
  by_cases h : f.branchChoices.any (·.1 = indent) = true
  · rw [if_pos h]
    simp only [find?_overwrite indent choice j _ h]
    by_cases hj : indent = j <;> simp [hj]
  · rw [if_neg h]
    simp only [find?_sort, List.find?_append]
    by_cases hj : indent = j
    · subst hj
      have : f.branchChoices.find? (·.1 = indent) = none := by
        rw [List.find?_eq_none]
        intro entry hentry hkey
        exact h (List.any_eq_true.mpr ⟨entry, hentry, hkey⟩)
      simp [this]
    · cases f.branchChoices.find? (·.1 = j) <;> simp [hj]

def snapshot (f : Frame) : FrameSnapshot :=
  ⟨f.ownerTag, wrapOperand f.cursor, f.branchChoices⟩

/-- A frame of a snapshot over the program found for it; a cursor outside the program is held at its
ends. -/
def restore (s : FrameSnapshot) (program : Program) : Frame :=
  ⟨s.ownerTag, program, min s.cursor.toNat program.length, s.branchChoices⟩

/-- The first instruction after the cursor that `stops` tells, else the end of the program. -/
def seek (f : Frame) (stops : Instruction → Bool) : Nat :=
  f.cursor + 1 + (f.program.drop (f.cursor + 1)).findIdx stops

/-- The last instruction before the cursor that `stops` tells. -/
def seekBack? (f : Frame) (stops : Instruction → Bool) : Option Nat :=
  let before := f.program.take f.cursor
  (before.reverse.findIdx? stops).map (before.length - 1 - ·)

end Frame

end ActiveBattle
