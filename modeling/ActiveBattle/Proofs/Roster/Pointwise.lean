import Mathlib.Data.List.Forall2
import ActiveBattle.Roster.Basic

/-!
# Rosters that differ battler by battler

A change to one battler leaves every other battler alone, so whatever is done to a roster is known
from what is done to its battlers. `Pointwise R` says that two rosters have the same party and `R`
relates their battlers place by place; the operations that modify battlers are pointwise, and what
is looked up is related again.
-/

namespace ActiveBattle

set_option autoImplicit false

/-- Modifying one place of a list relates it place by place to the list before. -/
theorem forall₂_modify {α : Type} {R : α → α → Prop} (hrefl : ∀ a, R a a) (l : List α) (i : Nat)
    (f : α → α) (h : ∀ a, l[i]? = some a → R a (f a)) : List.Forall₂ R l (l.modify i f) := by
  induction l generalizing i with
  | nil => simp
  | cons a rest ih =>
    cases i with
    | zero =>
      simp only [List.modify_zero_cons]
      exact .cons (h a rfl) (List.forall₂_same.mpr fun b _ => hrefl b)
    | succ i =>
      simp only [List.modify_succ_cons]
      exact .cons (hrefl a) (ih i h)

theorem forall₂_trans {α : Type} {R : α → α → Prop} (hR : ∀ a b c, R a b → R b c → R a c)
    {l l' l'' : List α} (h : List.Forall₂ R l l') (h' : List.Forall₂ R l' l'') :
    List.Forall₂ R l l'' := by
  induction h generalizing l'' with
  | nil => exact h'
  | cons hab _ ih =>
    cases h' with
    | cons hbc h' => exact .cons (hR _ _ _ hab hbc) (ih h')

theorem forall₂_map {α : Type} {R : α → α → Prop} (l : List α) (f : α → α)
    (h : ∀ a ∈ l, R a (f a)) : List.Forall₂ R l (l.map f) := by
  induction l with
  | nil => exact .nil
  | cons a rest ih =>
    exact .cons (h a List.mem_cons_self) (ih fun b hb => h b (List.mem_cons_of_mem a hb))

theorem forall₂_mapIdx {α : Type} {R : α → α → Prop} (l : List α) (f : Nat → α → α)
    (h : ∀ i a, R a (f i a)) : List.Forall₂ R l (l.mapIdx f) := by
  induction l generalizing f with
  | nil => exact .nil
  | cons a rest ih =>
    rw [List.mapIdx_cons]
    exact .cons (h 0 a) (ih _ fun i => h (i + 1))

/-- The element at the first place that `p` tells is the first that `p` tells. -/
theorem getElem?_findIdx {α : Type} (p : α → Bool) (l : List α) : l[l.findIdx p]? = l.find? p := by
  induction l with
  | nil => rfl
  | cons a rest ih => cases h : p a <;> simp [List.findIdx_cons, h, ih]

/-- First finds in related lists are related, when related elements are told alike. -/
theorem forall₂_find? {α : Type} {R : α → α → Prop} {p : α → Bool} (hp : ∀ a b, R a b → p b = p a)
    {l l' : List α} (h : List.Forall₂ R l l') : Option.Rel R (l.find? p) (l'.find? p) := by
  induction h with
  | nil => exact .none
  | @cons a b _ _ hab _ ih =>
    cases hpa : p a with
    | true => simpa [hpa, hp a b hab] using Option.Rel.some hab
    | false => simpa [hpa, hp a b hab] using ih

theorem forall_mem_of_forall₂ {α : Type} {P : α → Prop} {l l' : List α}
    (h : List.Forall₂ (fun a b => P a → P b) l l') (hall : ∀ a ∈ l, P a) : ∀ b ∈ l', P b := by
  induction h with
  | nil => exact hall
  | cons hab _ ih =>
    rw [List.forall_mem_cons] at hall ⊢
    exact ⟨hab hall.1, ih hall.2⟩

theorem forall₂_getElem? {α : Type} {R : α → α → Prop} {l l' : List α} (h : List.Forall₂ R l l')
    (i : Nat) : Option.Rel R l[i]? l'[i]? := by
  induction h generalizing i with
  | nil => exact .none
  | cons hab _ ih =>
    cases i with
    | zero => exact .some hab
    | succ i => simpa using ih i

/-- Modifying the first element that `p` tells modifies what is found there. -/
theorem find?_modify_self {α : Type} {p : α → Bool} {f : α → α} (hf : ∀ a, p (f a) = p a)
    (l : List α) :
    (l.modify (l.findIdx p) f).find? p = (l.find? p).map f := by
  induction l with
  | nil => rfl
  | cons a rest ih =>
    cases h : p a with
    | true => simp [List.findIdx_cons, h, hf]
    | false => simp [List.findIdx_cons, h, ih]

/-- Modifying it is not seen by a search for others. -/
theorem find?_modify_other {α : Type} {p q : α → Bool} {f : α → α} (hf : ∀ a, q (f a) = q a)
    (hpq : ∀ a, p a = true → q a = false) (l : List α) :
    (l.modify (l.findIdx p) f).find? q = l.find? q := by
  induction l with
  | nil => rfl
  | cons a rest ih =>
    cases h : p a with
    | true => simp [List.findIdx_cons, h, hf, hpq a h]
    | false => simp [List.findIdx_cons, h, ih, List.find?_cons]

theorem modify_congr_at {α : Type} {l : List α} {i : Nat} {f g : α → α}
    (h : ∀ a, l[i]? = some a → f a = g a) :
    l.modify i f = l.modify i g := by
  induction l generalizing i with
  | nil => simp
  | cons a rest ih =>
    cases i with
    | zero => simp [h a rfl]
    | succ i => simp [ih fun b hb => h b hb]

namespace Roster

/-- What is found after one battler was modified. -/
theorem battler?_modify (r : Roster) (id other : BattlerId) (f : Battler → Battler)
    (hf : ∀ b, (f b).dbId = b.dbId) :
    (r.modify id f).battler? other = if other = id then (r.battler? id).map f
      else r.battler? other := by
  cases id with
  | actor a =>
    cases other with
    | actor b =>
      by_cases h : b = a
      · subst h
        rw [if_pos rfl]
        exact find?_modify_self (fun c => by rw [hf]) r.actors
      · rw [if_neg fun e => h (BattlerId.actor.inj e)]
        refine find?_modify_other (fun c => by rw [hf]) (fun c hc => ?_) r.actors
        have hca := of_decide_eq_true hc
        exact decide_eq_false fun hcb => h (hcb.symm.trans hca)
    | enemy j => simp [modify, modifyActor, battler?]
  | enemy i =>
    cases other with
    | actor b => simp [modify, battler?, actor?]
    | enemy j =>
      by_cases h : j = i
      · subst h
        simp [modify, battler?]
      · have hne : i ≠ j := Ne.symm h
        simp [modify, battler?, h, hne]

theorem modify_congr {r : Roster} {id : BattlerId} {f g : Battler → Battler}
    (h : ∀ b, r.battler? id = some b → f b = g b) : r.modify id f = r.modify id g := by
  cases id with
  | actor a =>
    have hactors : r.actors.modify (r.actors.findIdx (·.dbId = a)) f =
        r.actors.modify (r.actors.findIdx (·.dbId = a)) g :=
      modify_congr_at fun b hb => h b (by rwa [getElem?_findIdx] at hb)
    exact congrArg (fun actors => { r with actors := actors }) hactors
  | enemy i => exact congrArg (fun enemies => { r with enemies := enemies }) (modify_congr_at h)

/-- Modifying one battler leaves the others alone. -/
theorem battler?_modify_of_ne {r : Roster} {id other : BattlerId} {f : Battler → Battler}
    (hf : ∀ b, r.battler? id = some b → (f b).dbId = b.dbId) (hother : other ≠ id) :
    (r.modify id f).battler? other = r.battler? other := by
  have hkept : r.modify id f = r.modify id fun b => { f b with dbId := b.dbId } := by
    refine modify_congr fun b hb => ?_
    rw [← hf b hb]
  rw [hkept]
  exact (battler?_modify r id other (fun b => { f b with dbId := b.dbId }) fun _ => rfl).trans
    (if_neg hother)

/-- Where no two actors share a database id, an actor is the one found under its own. -/
theorem actor?_of_mem {r : Roster} (hids : (r.actors.map (·.dbId)).Nodup) {b : Battler}
    (hb : b ∈ r.actors) :
    r.actor? b.dbId = some b := by
  refine (List.find?_eq_some_iff_append).mpr ⟨decide_eq_true rfl, ?_⟩
  obtain ⟨front, rest, hactors⟩ := List.append_of_mem hb
  refine ⟨front, rest, hactors, fun a ha => ?_⟩
  rw [hactors, List.map_append, List.nodup_append] at hids
  have hne :=
    hids.2.2 a.dbId (List.mem_map_of_mem ha) b.dbId (List.mem_map_of_mem List.mem_cons_self)
  simpa using hne

/-- The same party, and at every place battlers that `R` relates. -/
structure Pointwise (R : Battler → Battler → Prop) (r r' : Roster) : Prop where
  actors : List.Forall₂ R r.actors r'.actors
  enemies : List.Forall₂ R r.enemies r'.enemies
  party : r'.party = r.party

namespace Pointwise

variable {R S : Battler → Battler → Prop} {r r' r'' : Roster}

theorem refl (hR : ∀ b, R b b) (r : Roster) : Pointwise R r r :=
  ⟨List.forall₂_same.mpr fun b _ => hR b, List.forall₂_same.mpr fun b _ => hR b, rfl⟩

theorem trans (hR : ∀ a b c, R a b → R b c → R a c) (h : Pointwise R r r')
    (h' : Pointwise R r' r'') : Pointwise R r r'' :=
  ⟨forall₂_trans hR h.actors h'.actors, forall₂_trans hR h.enemies h'.enemies,
    h'.party.trans h.party⟩

theorem imp (hRS : ∀ a b, R a b → S a b) (h : Pointwise R r r') : Pointwise S r r' :=
  ⟨h.actors.imp hRS, h.enemies.imp hRS, h.party⟩

theorem modifyActor (hrefl : ∀ b, R b b) (r : Roster) (id : Int) (f : Battler → Battler)
    (h : ∀ b, r.actor? id = some b → R b (f b)) : Pointwise R r (r.modifyActor id f) := by
  refine ⟨forall₂_modify hrefl _ _ _ ?_, List.forall₂_same.mpr fun b _ => hrefl b, rfl⟩
  intro b hb
  rw [getElem?_findIdx] at hb
  exact h b hb

theorem modifyEnemyAt (hrefl : ∀ b, R b b) (r : Roster) (i : Nat) (f : Battler → Battler)
    (h : ∀ b, r.enemies[i]? = some b → R b (f b)) :
    Pointwise R r { r with enemies := r.enemies.modify i f } :=
  ⟨List.forall₂_same.mpr fun b _ => hrefl b, forall₂_modify hrefl _ _ _ h, rfl⟩

/-- Only the battler of the id changes. -/
theorem modify (hrefl : ∀ b, R b b) (r : Roster) (id : BattlerId) (f : Battler → Battler)
    (h : ∀ b, r.battler? id = some b → R b (f b)) : Pointwise R r (r.modify id f) := by
  cases id with
  | actor a => exact modifyActor hrefl r a f h
  | enemy i => exact modifyEnemyAt hrefl r i f h

theorem modifyEnemy (hrefl : ∀ b, R b b) (r : Roster) (index : Int) (f : Battler → Battler)
    (h : ∀ b, r.enemy? index = some b → R b (f b)) : Pointwise R r (r.modifyEnemy index f) := by
  unfold Roster.modifyEnemy
  split
  · exact refl hrefl r
  · rename_i hi
    exact modifyEnemyAt hrefl r _ f fun b hb => h b (by rwa [Roster.enemy?, if_neg hi])

theorem map (r : Roster) (f g : Battler → Battler) (hf : ∀ b ∈ r.actors, R b (f b))
    (hg : ∀ b ∈ r.enemies, R b (g b)) :
    Pointwise R r { r with actors := r.actors.map f, enemies := r.enemies.map g } :=
  ⟨forall₂_map _ _ hf, forall₂_map _ _ hg, rfl⟩

theorem foldl {α : Type} (hrefl : ∀ b, R b b) (htrans : ∀ a b c, R a b → R b c → R a c)
    (f : Roster → α → Roster) (hf : ∀ r a, Pointwise R r (f r a)) (l : List α) (r : Roster) :
    Pointwise R r (l.foldl f r) := by
  apply List.foldlRecOn (motive := Pointwise R r)
  · exact refl hrefl r
  · intro r' h a _
    exact h.trans htrans (hf r' a)

theorem actor? (hid : ∀ a b, R a b → b.dbId = a.dbId) (h : Pointwise R r r') (id : Int) :
    Option.Rel R (r.actor? id) (r'.actor? id) :=
  forall₂_find? (fun a b hab => by simp only [hid a b hab]) h.actors

theorem map_dbId (hid : ∀ a b, R a b → b.dbId = a.dbId) (h : Pointwise R r r') :
    r'.actors.map (·.dbId) = r.actors.map (·.dbId) := by
  have hsame : List.Forall₂ (· = ·) (r'.actors.map (·.dbId)) (r.actors.map (·.dbId)) := by
    rw [List.forall₂_map_left_iff, List.forall₂_map_right_iff]
    exact (h.actors.imp hid).flip
  rwa [List.forall₂_eq_eq_eq] at hsame

/-- What is found under an id is related. -/
theorem battler? (hid : ∀ a b, R a b → b.dbId = a.dbId) (h : Pointwise R r r') (id : BattlerId) :
    Option.Rel R (r.battler? id) (r'.battler? id) := by
  cases id with
  | actor a => exact h.actor? hid a
  | enemy i => exact forall₂_getElem? h.enemies i

/-- Whoever is found is found again, and related. -/
theorem exists_battler? (hid : ∀ a b, R a b → b.dbId = a.dbId) (h : Pointwise R r r')
    {id : BattlerId} {b : Battler} (hb : r.battler? id = some b) :
    ∃ b', r'.battler? id = some b' ∧ R b b' := by
  have hrel := h.battler? hid id
  rw [hb] at hrel
  generalize r'.battler? id = found at hrel ⊢
  cases hrel with
  | some hrel => exact ⟨_, rfl, hrel⟩

end Pointwise

/-- Every battler, in or out of the party, has the property. -/
def All (P : Battler → Prop) (r : Roster) : Prop := (∀ b ∈ r.actors, P b) ∧ ∀ b ∈ r.enemies, P b

/-- What pointwise changes preserve holds of all when it did before. -/
theorem All.of_pointwise {P : Battler → Prop} {r r' : Roster} (h : r.All P)
    (hP : r.Pointwise (fun b b' => P b → P b') r') : r'.All P :=
  ⟨forall_mem_of_forall₂ hP.actors h.1, forall_mem_of_forall₂ hP.enemies h.2⟩

theorem All.modify {P : Battler → Prop} {r : Roster} (h : r.All P) (id : BattlerId)
    (f : Battler → Battler) (hf : ∀ b, r.battler? id = some b → P b → P (f b)) :
    (r.modify id f).All P :=
  h.of_pointwise (.modify (fun _ hb => hb) r id f hf)

theorem All.modifyActor {P : Battler → Prop} {r : Roster} (h : r.All P) (id : Int)
    (f : Battler → Battler) (hf : ∀ b, P b → P (f b)) : (r.modifyActor id f).All P :=
  h.of_pointwise (.modifyActor (fun _ hb => hb) r id f fun b _ => hf b)

end Roster

end ActiveBattle
