import ActiveBattle.Proofs.Action.Source
import ActiveBattle.Proofs.Roster.Goods

/-!
# Starting a pass

A pass begins with the targets that are left. A single target across the field that is gone gives
way to somebody who is there, several targets are sieved (`Action.Aimed`), and the cost is paid by
the source or out of the stock (`start_aims`).
-/

namespace ActiveBattle

set_option autoImplicit false

namespace Dice

theorem index_lt {n : Nat} (hn : 0 < n) (d : Dice) : (d.index n).1 < n :=
  accept_lt hn nextDouble_lt maxAttempts d

/-- A range holds what is drawn from it, unless its size is a multiple of the number of operands. -/
theorem between_mem_of_size {lo hi : Int} (hle : lo ≤ hi) (hsize : (hi - lo + 1) % 4294967296 ≠ 0)
    (d : Dice) :
    lo ≤ (d.between lo hi).1 ∧ (d.between lo hi).1 ≤ hi := by
  unfold between
  extract_lets size
  have hnat : size = ((hi - lo + 1) % 4294967296).toNat := rfl
  have hcount : (size : Int) ≤ hi - lo + 1 := by omega
  split
  · omega
  · have hlt : (accept 32 size next maxAttempts d).1 < size :=
      accept_lt (by omega) next_lt maxAttempts d
    -- the draw is taken apart first, so that nothing unfolds the search behind it
    cases hpick : accept 32 size next maxAttempts d with
    | mk v d' =>
      rw [hpick] at hlt
      change lo ≤ lo + (v : Int) ∧ lo + (v : Int) ≤ hi
      dsimp only at hlt
      omega

/-- So does a range that does not span every operand. -/
theorem between_mem {lo hi : Int} (hle : lo ≤ hi) (hsize : hi - lo + 1 < 4294967296) (d : Dice) :
    lo ≤ (d.between lo hi).1 ∧ (d.between lo hi).1 ≤ hi := by
  apply between_mem_of_size hle
  omega

end Dice

namespace Roster

variable {r : Roster} {side : Side} {id : BattlerId}

theorem mem_presentOn : id ∈ r.presentOn side ↔ id ∈ r.sideIds side ∧ r.isPresent id = true :=
  List.mem_filter

/-- Somebody is picked among those who are there, unless nobody is. -/
theorem randomPresent_cases (r : Roster) (side : Side) (dice : Dice) :
    r.presentOn side = [] ∧ (r.randomPresent side dice).1 = none ∨
      ∃ id ∈ r.presentOn side, (r.randomPresent side dice).1 = some id := by
  unfold randomPresent
  extract_lets there
  change there = [] ∧ _ ∨ ∃ id ∈ there, _
  generalize there = there
  cases there with
  | nil => exact .inl ⟨rfl, rfl⟩
  | cons first rest =>
    have hlt : (dice.index (first :: rest).length).1 < (first :: rest).length :=
      Dice.index_lt (Nat.succ_pos _) dice
    cases hpick : dice.index (first :: rest).length with
    | mk i dice' =>
      rw [hpick] at hlt
      exact .inr ⟨(first :: rest)[i], List.getElem_mem hlt, List.getElem?_eq_getElem hlt⟩

namespace Pointwise

variable {r' : Roster} (h : r.Pointwise Battler.KeepsPresence r')

include h

theorem isPresent_eq (id : BattlerId) : r'.isPresent id = r.isPresent id := by
  have hrel := h.battler? (fun _ _ h => h.dbId) id
  unfold Roster.isPresent
  generalize r.battler? id = found at hrel ⊢
  generalize r'.battler? id = found' at hrel ⊢
  cases hrel with
  | none => rfl
  | some h => exact h.isPresent

theorem presentOn_eq (side : Side) : r'.presentOn side = r.presentOn side := by
  have hids : r'.sideIds side = r.sideIds side := by
    cases side with
    | ally => exact congrArg (List.map BattlerId.actor) h.party
    | enemy => exact congrArg (fun n => (List.range n).map BattlerId.enemy) h.enemies.length_eq.symm
  unfold presentOn
  rw [hids]
  exact List.filter_congr fun id _ => h.isPresent_eq id

end Pointwise

end Roster

theorem GameState.randomPresent_cases (g : GameState) (side : Side) :
    (g.roster.presentOn side = [] ∧ ∃ g', g.randomPresent side = (none, g')) ∨
      ∃ id ∈ g.roster.presentOn side, ∃ g', g.randomPresent side = (some id, g') := by
  rcases g.roster.randomPresent_cases side g.dice with ⟨hempty, hnone⟩ | ⟨id, hthere, hsome⟩
  · exact .inl ⟨hempty, _, Prod.ext hnone rfl⟩
  · exact .inr ⟨id, hthere, _, Prod.ext hsome rfl⟩

theorem Battler.setSp_of_nonneg {b : Battler} (h : 0 ≤ b.stats.maxSp) (sp : Int) :
    b.setSp sp = { b with sp := clamp 0 b.stats.maxSp sp } :=
  if_neg (Int.not_lt.mpr h)

namespace Action

/-- A battler across the field who is not there. -/
def Misses (a : Action) (r : Roster) (id : BattlerId) : Prop :=
  id.side ≠ a.source.side ∧ r.isPresent id = false

/-- A battler of the own side who is visible, dead or not, or one across the field who is there. -/
def Reaches (a : Action) (r : Roster) (id : BattlerId) : Prop :=
  if id.side = a.source.side then (r.battler? id).any (!·.hidden) = true else r.isPresent id = true

instance (a : Action) (r : Roster) : DecidablePred (a.Reaches r) := fun id => by
  unfold Reaches
  infer_instance

/-- What a pass makes of the targets of an action. -/
inductive Aimed (a : Action) (g : GameState) : List BattlerId → Prop
  /-- A single target is gone, and somebody on its side takes its place. -/
  | replaced {first replacement : BattlerId} {rest : List BattlerId}
    (single : (a.scope g.database).isSingle = true)
      (targets : a.targets = first :: rest) (misses : a.Misses g.roster first)
      (there : replacement ∈ g.roster.presentOn first.side) : Aimed a g (replacement :: rest)
  /-- A single target stays if it is not gone, or if all of its side are. -/
  | kept (single : (a.scope g.database).isSingle = true)
      (first : ∀ first, a.targets.head? = some first → a.Misses g.roster first →
        g.roster.presentOn first.side = []) :
      Aimed a g a.targets
  /-- A battler that defends itself or does nothing does not aim. -/
  | idle (kind : a.kind = .defend ∨ a.kind = .none) : Aimed a g a.targets
  /-- Of several targets those within reach are left. -/
  | sieved (several : (a.scope g.database).isSingle = false) (kind : a.kind ≠ .defend ∧
    a.kind ≠ .none) :
      Aimed a g (a.targets.filter fun id => a.Reaches g.roster id)

/-- The SP a pass costs. -/
def price (a : Action) (db : Database) : Int :=
  match a.kind with
  | .skill id => ((db.skill? id).map (·.spCost)).getD 0
  | _ => 0

section Aim

variable (a : Action) (g : GameState)

theorem isValidTarget_iff (r : Roster) (id : BattlerId) :
    a.isValidTarget r id = true ↔ a.Reaches r id := by
  unfold isValidTarget Reaches Roster.isPresent
  cases r.battler? id <;> simp

theorem misses_iff (r : Roster) (id : BattlerId) :
    (!a.isValidTarget r id && decide (id.side ≠ a.source.side)) = true ↔ a.Misses r id := by
  rw [Bool.and_eq_true, decide_eq_true_eq, Bool.not_eq_true', ← Bool.not_eq_true, isValidTarget_iff]
  unfold Reaches Misses
  by_cases hside : id.side = a.source.side <;> simp [hside]

theorem retarget_aimed (single : (a.scope g.database).isSingle = true) :
    Aimed a g (a.retarget g).1.targets := by
  unfold retarget
  split
  · rename_i hnone
    exact .kept single (by simp [hnone])
  · rename_i first rest htargets
    split
    · rename_i hmisses
      have hgone := (a.misses_iff g.roster first).mp hmisses
      rcases g.randomPresent_cases first.side with ⟨hempty, g', hpick⟩ | ⟨replacement,
        hthere, g', hpick⟩
      · rw [hpick]
        refine .kept single fun id hid _ => ?_
        obtain rfl : first = id := by simpa [htargets] using hid
        exact hempty
      · rw [hpick]
        exact .replaced single htargets hgone hthere
    · rename_i hmisses
      refine .kept single fun id hid hgone => ?_
      obtain rfl : first = id := by simpa [htargets] using hid
      exact absurd ((a.misses_iff g.roster first).mpr hgone) hmisses

theorem retarget_eq : (a.retarget g).1 = { a with targets := (a.retarget g).1.targets } := by
  unfold retarget
  split
  · rfl
  · split
    · generalize g.randomPresent _ = picked
      obtain ⟨pick, g'⟩ := picked
      cases pick <;> rfl
    · rfl

theorem aim_aimed : Aimed a g (a.aim g).1.targets := by
  unfold aim
  split
  · rename_i single
    exact a.retarget_aimed g single
  · rename_i several
    split
    · rename_i hkind
      exact .idle (.inl hkind)
    · rename_i hkind
      exact .idle (.inr hkind)
    · rename_i hdefend hnone
      have hreach : (a.targets.filter (a.isValidTarget g.roster)) = a.targets.filter fun id =>
          a.Reaches g.roster id :=
        List.filter_congr fun id _ =>
          Bool.eq_iff_iff.mpr ((a.isValidTarget_iff g.roster id).trans decide_eq_true_iff.symm)
      dsimp only
      rw [hreach]
      exact .sieved (Bool.eq_false_iff.mpr several) ⟨hdefend, hnone⟩

theorem aim_eq : (a.aim g).1 = { a with targets := (a.aim g).1.targets } := by
  unfold aim
  split
  · exact a.retarget_eq g
  · split <;> rfl

end Aim

/-- A battler once a pass is paid for. Only the source of a skill pays. -/
def charged (a : Action) (db : Database) (id : BattlerId) (b : Battler) : Battler :=
  if id = a.source ∧ a.isSkill = true then
    { b with sp := clamp 0 b.stats.maxSp (b.sp - a.price db) } else b

section Pay

variable (a : Action) (g : GameState)

theorem payCost_of_skill (h : a.isSkill = true) :
    a.payCost g = g.modifyBattler a.source fun b => b.setSp (b.sp - a.price g.database) := by
  unfold isSkill at h
  unfold payCost price
  cases hkind : a.kind with
  | skill id => rfl
  | _ => simp [hkind] at h

theorem payCost_of_not_skill (h : a.isSkill = false) : a.payCost g = g ∨
    ∃ item, a.payCost g = g.modifyRoster (·.addItem item (-1)) := by
  unfold isSkill at h
  unfold payCost
  cases hkind : a.kind with
  | skill id => simp [hkind] at h
  | item id =>
    dsimp only
    split
    · exact .inr ⟨id, rfl⟩
    · exact .inl rfl
  | _ => exact .inl rfl

theorem payCost_battler? (hsp : ∀ b, g.roster.battler? a.source = some b → 0 ≤ b.stats.maxSp)
    (id : BattlerId) :
    (a.payCost g).roster.battler? id = (g.roster.battler? id).map (a.charged g.database id) := by
  cases hskill : a.isSkill with
  | true =>
    have hpaid :=
      g.roster.battler?_modify a.source id (fun b => b.setSp (b.sp - a.price g.database))
      fun b => (b.setSp_alikeWithCombo _).dbId
    rw [payCost_of_skill a g hskill]
    refine hpaid.trans ?_
    split
    · rename_i hid
      subst hid
      refine Option.map_congr fun b hb => ?_
      rw [Battler.setSp_of_nonneg (hsp b hb), charged, if_pos ⟨rfl, hskill⟩]
    · rename_i hid
      have hkept : a.charged g.database id = fun b => b := funext fun b => if_neg fun h => hid h.1
      rw [hkept, Option.map_id']
  | false =>
    have hkept : a.charged g.database id = fun b => b :=
      funext fun b => if_neg fun h => by simp [hskill] at h
    rw [hkept, Option.map_id']
    rcases payCost_of_not_skill a g hskill with hcost | ⟨item, hcost⟩
    · rw [hcost]
    · rw [hcost]
      rfl

theorem payCost_itemCount (item : Int) : (a.payCost g).roster.itemCount item =
    if a.kind = .item item ∧ a.source.isAlly = true ∧ a.repeatsDone = 0 then
      clamp 0 99 (g.roster.itemCount item - 1)
    else g.roster.itemCount item := by
  unfold payCost
  cases hkind : a.kind with
  | skill id =>
    rw [if_neg fun h => by simp at h]
    cases a.source <;> rfl
  | item used =>
    dsimp only
    by_cases hpays : a.repeatsDone = 0 ∧ a.source.isAlly = true
    · rw [if_pos hpays]
      refine (g.roster.addItem_itemCount used (-1) item).trans ?_
      simp [hpays, eq_comm, Int.sub_eq_add_neg]
    · rw [if_neg hpays, if_neg fun h => hpays ⟨h.2.2, h.2.1⟩]
  | _ => simp

theorem payCost_keeps : g.roster.Pointwise Battler.KeepsPresence (a.payCost g).roster := by
  have hrefl (b : Battler) : Battler.KeepsPresence b b := ⟨rfl, rfl⟩
  rcases a.payCost_cases g with hcost | ⟨cost, hcost⟩ | ⟨item, hcost⟩
  · rw [hcost]
    exact .refl hrefl _
  · rw [hcost]
    exact .modify hrefl _ _ _ fun b _ => ⟨(b.setSp_alikeWithCombo _).dbId, b.setSp_isPresent _⟩
  · rw [hcost]
    exact ⟨List.forall₂_same.mpr fun b _ => hrefl b, List.forall₂_same.mpr fun b _ => hrefl b, rfl⟩

/-- Paying reaches nothing but battlers and the stock. -/
theorem payCost_eq : a.payCost g = { g with
    roster :=
      { g.roster with
        actors := (a.payCost g).roster.actors
        enemies := (a.payCost g).roster.enemies
        items := (a.payCost g).roster.items } } := by
  rcases a.payCost_cases g with hcost | ⟨cost, hcost⟩ | ⟨item, hcost⟩
  · rw [hcost]
  · rw [hcost]
    cases a.source <;> rfl
  · rw [hcost]
    rfl

end Pay

namespace Aimed

variable {a : Action} {g : GameState} {targets : List BattlerId}

/-- What is aimed is told by the kind of an action, its source and its targets. -/
theorem of_rewound (h : Aimed { a with current := 0, outcome := {} } g targets) :
    Aimed a g targets := by
  cases h with
  | replaced single htargets misses there => exact .replaced single htargets misses there
  | kept single first => exact .kept single first
  | idle kind => exact .idle kind
  | sieved several kind => exact .sieved several kind

/-- Whoever is aimed at across the field is there, or nobody is, unless the action does not aim. -/
theorem mem_isPresent (h : Aimed a g targets)
    (hfew : (a.scope g.database).isSingle = true → a.targets.length ≤ 1) {id : BattlerId}
    (hid : id ∈ targets) (hside : id.side ≠ a.source.side) :
    g.roster.isPresent id = true ∨
      ((a.scope g.database).isSingle = true ∧ g.roster.presentOn id.side = []) ∨
      a.kind = .defend ∨ a.kind = .none := by
  cases h with
  | @replaced first replacement rest single htargets misses there =>
    obtain rfl : rest = [] := by
      have := hfew single
      rw [htargets] at this
      exact List.eq_nil_of_length_eq_zero (by simpa using this)
    obtain rfl : id = replacement := by simpa using hid
    exact .inl (Roster.mem_presentOn.mp there).2
  | kept single first =>
    obtain ⟨only, honly⟩ : ∃ only, a.targets = [only] :=
      List.length_eq_one_iff.mp (Nat.le_antisymm (hfew single) (List.length_pos_of_mem hid))
    obtain rfl : id = only := by simpa [honly] using hid
    cases hpresent : g.roster.isPresent id with
    | true => exact .inl rfl
    | false => exact .inr (.inl ⟨single, first id (by simp [honly]) ⟨hside, hpresent⟩⟩)
  | idle kind => exact .inr (.inr kind)
  | sieved several kind =>
    have hreach : a.Reaches g.roster id := of_decide_eq_true (List.mem_filter.mp hid).2
    exact .inl (by rwa [Reaches, if_neg hside] at hreach)

end Aimed

/-- A pass begins with the first of the targets that are left, and is paid for by the source or out
of the stock. -/
theorem start_aims {a : Action} {g : GameState}
    (hsp : ∀ b, g.roster.battler? a.source = some b → 0 ≤ b.stats.maxSp)
    (hfew : (a.scope g.database).isSingle = true → a.targets.length ≤ 1) :
    let a' := (a.start g).1
    let g' := (a.start g).2
    Aimed a g a'.targets ∧ a' = { a with targets := a'.targets, current := 0, outcome := {} } ∧
      (∀ id, g'.roster.battler? id = (g.roster.battler? id).map (a.charged g.database id)) ∧
      (∀ item, g'.roster.itemCount item =
        if a.kind = .item item ∧ a.source.isAlly = true ∧ a.repeatsDone = 0 then
          clamp 0 99 (g.roster.itemCount item - 1)
        else g.roster.itemCount item) ∧
      g' = { g with
        dice := g'.dice
        roster :=
          { g.roster with
            actors := g'.roster.actors
            enemies := g'.roster.enemies
            items := g'.roster.items } } ∧
      ∀ id ∈ a'.targets, id.side ≠ a.source.side →
        g'.roster.isPresent id = true ∨
          ((a.scope g.database).isSingle = true ∧ g'.roster.presentOn id.side = []) ∨
          a.kind = .defend ∨ a.kind = .none := by
  intro a' g'
  let rewound : Action := { a with current := 0, outcome := {} }
  have haimed : Aimed a g a'.targets := .of_rewound (rewound.aim_aimed g)
  have heq : a' = { a with targets := a'.targets, current := 0, outcome := {} } := rewound.aim_eq g
  obtain ⟨dice, hrolled⟩ : ∃ dice, (rewound.aim g).2 = { g with dice := dice } :=
    ⟨_, (rewound.aim_rolled g).2.2⟩
  have hpays : g' = a.payCost { g with dice := dice } := by
    rw [← hrolled]
    exact (congrArg (payCost · (rewound.aim g).2) heq).trans rfl
  rw [hpays]
  have hkeeps : g.roster.Pointwise
      Battler.KeepsPresence (a.payCost { g with dice := dice }).roster :=
    a.payCost_keeps { g with dice := dice }
  refine ⟨haimed, heq, a.payCost_battler? _ hsp, a.payCost_itemCount _, ?_, fun id hid hside => ?_⟩
  · have hrest := a.payCost_eq { g with dice := dice }
    generalize a.payCost { g with dice := dice } = paid at hrest ⊢
    rw [hrest]
  · rw [hkeeps.isPresent_eq, hkeeps.presentOn_eq]
    exact haimed.mem_isPresent hfew hid hside

/-- An actor who knows a spell, against three enemies: the first is dead, the second there and the
third hidden. -/
def foray : GameState where
  roster :=
    { actors := [.ofActor { id := 1, name := "", stats := { maxSp := 10 } }]
      party := [1]
      enemies :=
        [(Battler.ofEnemy 0 { id := 1, name := "" } { enemyId := 1 }).kill,
          .ofEnemy 1 { id := 1, name := "" } { enemyId := 1 },
          .ofEnemy 2 { id := 1, name := "" } { enemyId := 1, hidden := true }] }
  database := { skills := [{ id := 9, name := "", spCost := 4 }] }

/-- A spell on the dead enemy turns to the one that is there. -/
theorem start_aims_of_foray :
    (∀ b, foray.roster.battler? (.actor 1) = some b → 0 ≤ b.stats.maxSp) ∧
      ((skill (.actor 1) 9 [.enemy 0]).start foray).1.targets = [.enemy 1] ∧
      (((skill (.actor 1) 9 [.enemy 0]).start foray).2.roster.battler? (.actor 1)).map
        (·.sp) = some 6 := by
  have hsp : ∀ b, foray.roster.battler? (.actor 1) = some b → 0 ≤ b.stats.maxSp := by
    intro b hb
    obtain rfl := Option.some.inj (hb.symm.trans rfl)
    decide
  obtain ⟨haimed, -, hpaid, -⟩ :=
    start_aims (a := skill (.actor 1) 9 [.enemy 0]) (g := foray) hsp fun _ => Nat.le_refl 1
  refine ⟨hsp, ?_, ?_⟩
  · generalize ((skill (.actor 1) 9 [.enemy 0]).start foray).1.targets = targets at haimed ⊢
    cases haimed with
    | replaced _ htargets _ hthere =>
      obtain ⟨rfl, rfl⟩ := List.cons.inj htargets
      have hpresent : foray.roster.presentOn .enemy = [.enemy 1] := by decide
      obtain rfl := List.mem_singleton.mp (hpresent ▸ hthere)
      rfl
    | kept _ hfirst =>
      have hgone : foray.roster.presentOn .enemy = [] := hfirst _ rfl (by unfold Misses; decide)
      exact absurd hgone (by decide)
    | idle hkind => exact absurd hkind (by decide)
    | sieved hseveral => exact absurd hseveral (by decide)
  · rw [hpaid]
    decide

/-- Whoever defends keeps a target across the field that is gone, although somebody could take its
place. -/
theorem start_defend_keeps_gone_target :
    let a : Action := { kind := .defend, source := .actor 1, targets := [.enemy 0] }
    (∀ b, foray.roster.battler? a.source = some b → 0 ≤ b.stats.maxSp) ∧
      (a.scope foray.database).isSingle = false ∧
      a.Misses foray.roster (.enemy 0) ∧ .enemy 1 ∈ foray.roster.presentOn .enemy ∧
      (a.start foray).1.targets = [.enemy 0] ∧
      (a.start foray).2.roster.isPresent (.enemy 0) = false := by
  intro a
  refine ⟨fun b hb => ?_, by decide, by unfold Misses; decide, by decide, by decide, by decide⟩
  obtain rfl := Option.some.inj (hb.symm.trans rfl)
  decide

end Action

end ActiveBattle
