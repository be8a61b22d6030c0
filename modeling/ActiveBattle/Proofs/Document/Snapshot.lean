import ActiveBattle.Document.Script
import ActiveBattle.Proofs.Document.Json

/-!
# Snapshots as texts

A snapshot whose numbers are operands is found again in its text
(`ExecutionSnapshot.ofText?_toText`).
-/

namespace ActiveBattle

set_option autoImplicit false

structure FrameSnapshot.Representable (s : FrameSnapshot) : Prop where
  ownerTag : IsOperand s.ownerTag.value
  cursor : IsOperand s.cursor
  branchChoices : ∀ c ∈ s.branchChoices, IsOperand c.1 ∧ IsOperand c.2

/-- All numbers are operands, so that they can be written and read. -/
structure ExecutionSnapshot.Representable (s : ExecutionSnapshot) : Prop where
  stack : ∀ f ∈ s.stack, f.Representable
  waitFrames : IsOperand s.waitFrames

namespace Document

open Json

section

variable {α : Type} [Decodable α] [Encodable α] {f : Format}

theorem decode_list {items : List α} (h : ∀ a ∈ items, decode f (encode a) = some a) :
    decode f (encode items) = some items := by
  change (items.map encode).mapM (decode f) = some items
  induction items with
  | nil => rfl
  | cons a rest ih =>
    rw [List.map_cons, List.mapM_cons,
      h a List.mem_cons_self, ih fun b hb => h b (List.mem_cons_of_mem a hb)]
    rfl

theorem need_eq {name : String} {entries : List (String × Document)} {a : α}
    (hentry : entries.filter (·.1 = name) = [field name a]) (ha : decode f (encode a) = some a) :
    Fields.need name f (.named entries) = some (a, .named entries) := by
  have hdecoded : decode f (field name a).2 = some a := ha
  unfold Fields.need Fields.find
  dsimp only
  rw [hentry]
  dsimp only
  rw [hdecoded]
  rfl

theorem orElse_eq {name : String} {entries : List (String × Document)} {a : α} (other : α)
    (hentry : entries.filter (·.1 = name) = [field name a]) (ha : decode f (encode a) = some a) :
    Fields.orElse name other f (.named entries) = some (a, .named entries) := by
  have hdecoded : decode f (field name a).2 = some a := ha
  unfold Fields.orElse Fields.find
  dsimp only
  rw [hentry]
  dsimp only
  rw [hdecoded]
  rfl

end

theorem decode_int {n : Int} (h : IsOperand n) (f : Format) : decode f (encode n) = some n :=
  if_pos h

theorem decode_choice {c : Int × Int} (h : IsOperand c.1 ∧ IsOperand c.2) :
    decode format (encode c) = some c := by
  obtain ⟨a, b⟩ := c
  change (do
    let a ← decode format (encode a)
    let b ← decode format (encode b)
    if format.mayLeave [] then some (a, b) else none) = some (a, b)
  rw [decode_int h.1, decode_int h.2]
  rfl

theorem decode_frame {s : FrameSnapshot} (h : s.Representable) :
    decode format (encode s) = some s := by
  have hchoices : decode format (encode s.branchChoices) = some s.branchChoices :=
    decode_list fun c hc => decode_choice (h.branchChoices c hc)
  have htag : decode format (encode s.ownerTag) = some s.ownerTag := by
    change (decode format (encode s.ownerTag.value)).map _ = _
    rw [decode_int h.ownerTag]
    rfl
  change readRecord _ format (table [field "owner_tag" s.ownerTag, field "cursor" s.cursor,
    field "branch_choices" s.branchChoices]) = _
  unfold readRecord
  dsimp only [bind]
  rw [need_eq (a := s.ownerTag) (by simp [field]) htag]
  dsimp only
  rw [need_eq (a := s.cursor) (by simp [field]) (decode_int h.cursor format)]
  dsimp only
  rw [orElse_eq (a := s.branchChoices) _ (by simp [field]) hchoices]
  rfl

/-- Whatever is kept of an interpreter is decoded as it was encoded. -/
theorem decode_snapshot {s : ExecutionSnapshot} (h : s.Representable) :
    decode format (encode s) = some s := by
  have hstack : decode format (encode s.stack) = some s.stack :=
    decode_list fun f hf => decode_frame (h.stack f hf)
  change readRecord _ format (table [field "stack" s.stack, field "wait_frames" s.waitFrames]) = _
  unfold readRecord
  dsimp only [bind]
  rw [orElse_eq (a := s.stack) _ (by simp [field]) hstack]
  dsimp only
  rw [orElse_eq (a := s.waitFrames) _ (by simp [field]) (decode_int h.waitFrames format)]
  rfl

theorem readable_int {n : Int} (h : IsOperand n) (depth : Nat) : Readable depth (encode n) := by
  obtain ⟨hlo, hhi⟩ := h
  unfold operandMin at hlo
  unfold operandMax at hhi
  exact .int (by omega) (by omega)

theorem readable_list {α : Type} [Encodable α] {depth : Nat} {items : List α}
    (h : ∀ a ∈ items, Readable depth (encode a)) : Readable (depth + 1) (encode items) := by
  refine .list fun d hd => ?_
  obtain ⟨a, ha, rfl⟩ := List.mem_map.mp hd
  exact h a ha

theorem readable_frame {s : FrameSnapshot} (h : s.Representable) (depth : Nat) :
    Readable (depth + 3) (encode s) := by
  refine .table fun e he => ?_
  simp only [List.mem_cons, List.not_mem_nil, or_false] at he
  rcases he with rfl | rfl | rfl
  · exact readable_int h.ownerTag _
  · exact readable_int h.cursor _
  · refine readable_list fun c hc => ?_
    obtain ⟨hindent, hchoice⟩ := h.branchChoices c hc
    refine .list fun d hd => ?_
    simp only [List.mem_cons, List.not_mem_nil, or_false] at hd
    rcases hd with rfl | rfl
    · exact readable_int hindent _
    · exact readable_int hchoice _

theorem readable_snapshot {s : ExecutionSnapshot} (h : s.Representable) :
    Readable maxDepth (encode s) := by
  refine .table fun e he => ?_
  simp only [List.mem_cons, List.not_mem_nil, or_false] at he
  rcases he with rfl | rfl
  · exact readable_list fun f hf => readable_frame (h.stack f hf) _
  · exact readable_int h.waitFrames _

end Document

/-- The text of a snapshot gives it back. -/
theorem ExecutionSnapshot.ofText?_toText {s : ExecutionSnapshot} (h : s.Representable) :
    ofText? s.toText = some s := by
  unfold ofText? toText
  rw [Document.Json.parse_write (Document.readable_snapshot h), Option.bind_some]
  exact Document.decode_snapshot h

end ActiveBattle
