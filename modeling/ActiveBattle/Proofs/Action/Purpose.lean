import ActiveBattle.Proofs.Action.Choosing

/-!
# What actions nobody commands are for

The action of a battler whom nobody commands has a purpose: what its list, its restriction or a
plain attack asks for, against a side or for the battler alone. Whoever chooses, the action goes to
battlers who are there and on the side of its purpose, and nothing is done only if the purpose is to
rest or nobody of that side is there (`Serves`, `choices_serve`).
-/

namespace ActiveBattle

set_option autoImplicit false

/-- The side a scope reaches, seen from a side; a scope of the user reaches nobody else. -/
def Scope.side? (own : Side) : Scope → Option Side
  | singleEnemy | allEnemies => some own.opposite
  | singleAlly | allAllies => some own
  | user => none

/-- A scope that reaches everybody of a side. -/
def Scope.isWhole : Scope → Bool
  | allEnemies | allAllies => true
  | singleEnemy | singleAlly | user => false

theorem Roster.side_of_mem_presentOn {r : Roster} {side : Side} {id : BattlerId}
    (h : id ∈ r.presentOn side) :
    id.side = side := by
  have hid := (mem_presentOn.mp h).1
  cases side with
  | ally =>
    obtain ⟨a, -, rfl⟩ := List.mem_map.mp hid
    rfl
  | enemy =>
    obtain ⟨i, -, rfl⟩ := List.mem_map.mp hid
    rfl

namespace Action

/-- What a battler whom nobody commands is to do. -/
inductive Purpose where
  | attack (side : Side)
  | defend
  | skill (id : Int) (scope : Scope)
  | rest
deriving DecidableEq

namespace Purpose

def kind : Purpose → ActionKind
  | attack _ => .normal
  | defend => .defend
  | skill id _ => .skill id
  | rest => .none

/-- The side it is meant for, seen from a side; none if it is for the battler alone. -/
def side? (own : Side) : Purpose → Option Side
  | attack side => some side
  | skill _ scope => scope.side? own
  | defend | rest => none

/-- It is meant for everybody of a side. -/
def isWhole : Purpose → Bool
  | skill _ scope => scope.isWhole
  | attack _ | defend | rest => false

end Purpose

/-- The action serves its purpose. It goes to battlers who are there, or it is nothing at all. -/
structure Serves (r : Roster) (source : BattlerId) (e : Purpose) (a : Action) : Prop where
  doer : a.source = source
  kind : a.kind = .none ∧ a.targets = [] ∨ a.kind = e.kind ∧ e.kind ≠ .none ∧ a.targets ≠ []
  present : ∀ t ∈ a.targets, r.isPresent t = true
  side : ∀ side, e.side? source.side = some side →
    ∀ t ∈ a.targets, t.side = side ∧ t ∈ r.presentOn side
  own : e.side? source.side = none → ∀ t ∈ a.targets, t = source
  single : e.isWhole = false → a.targets.length ≤ 1
  whole : e.isWhole = true → ∀ side, e.side? source.side = some side → a.targets = r.presentOn side
  /-- Nothing is done only where nothing is to be done, or to nobody. -/
  nobody : a.kind = .none → e = .rest ∨ ∃ side, e.side? source.side = some side ∧
    r.presentOn side = []

namespace Serves

variable {r : Roster} {source : BattlerId} {e : Purpose} {side : Side}

theorem rest : Serves r source .rest (idle source) where
  doer := rfl
  kind := .inl ⟨rfl, rfl⟩
  present := nofun
  side := nofun
  own _ := nofun
  single _ := Nat.zero_le 1
  whole := nofun
  nobody _ := .inl rfl

theorem idle (hside : e.side? source.side = some side) (hempty : r.presentOn side = []) :
    Serves r source e (idle source) where
  doer := rfl
  kind := .inl ⟨rfl, rfl⟩
  present := nofun
  side _ _ := nofun
  own _ := nofun
  single _ := Nat.zero_le 1
  whole _ side' hside' := by
    obtain rfl : side = side' := Option.some.inj (hside.symm.trans hside')
    exact hempty.symm
  nobody _ := .inr ⟨side, hside, hempty⟩

/-- Somebody of the side is met. -/
theorem meets {t : BattlerId} (hside : e.side? source.side = some side) (hwhole : e.isWhole = false)
    (hkind : e.kind ≠ .none) (ht : t ∈ r.presentOn side) :
    Serves r source e { kind := e.kind, source := source, targets := [t] } where
  doer := rfl
  kind := .inr ⟨rfl, hkind, List.cons_ne_nil _ _⟩
  present t' ht' := by
    obtain rfl := List.mem_singleton.mp ht'
    exact (Roster.mem_presentOn.mp ht).2
  side side' hside' t' ht' := by
    obtain rfl := List.mem_singleton.mp ht'
    obtain rfl : side = side' := Option.some.inj (hside.symm.trans hside')
    exact ⟨Roster.side_of_mem_presentOn ht, ht⟩
  own hnone := by simp [hside] at hnone
  single _ := Nat.le_refl 1
  whole h := by simp [hwhole] at h
  nobody h := absurd h hkind

/-- Everybody of the side is met. -/
theorem meetsAll (hside : e.side? source.side = some side) (hwhole : e.isWhole = true)
    (hkind : e.kind ≠ .none) (hsome : r.presentOn side ≠ []) :
    Serves r source e { kind := e.kind, source := source, targets := r.presentOn side } where
  doer := rfl
  kind := .inr ⟨rfl, hkind, hsome⟩
  present t ht := (Roster.mem_presentOn.mp ht).2
  side side' hside' t ht := by
    obtain rfl : side = side' := Option.some.inj (hside.symm.trans hside')
    exact ⟨Roster.side_of_mem_presentOn ht, ht⟩
  own hnone := by simp [hside] at hnone
  single h := by simp [hwhole] at h
  whole _ side' hside' := by
    obtain rfl : side = side' := Option.some.inj (hside.symm.trans hside')
    rfl
  nobody h := absurd h hkind

/-- The battler does something for itself. -/
theorem alone (hside : e.side? source.side = none) (hwhole : e.isWhole = false)
    (hkind : e.kind ≠ .none) (hthere : r.isPresent source = true) :
    Serves r source e { kind := e.kind, source := source, targets := [source] } where
  doer := rfl
  kind := .inr ⟨rfl, hkind, List.cons_ne_nil _ _⟩
  present t ht := by
    obtain rfl := List.mem_singleton.mp ht
    exact hthere
  side side hsome := by simp [hside] at hsome
  own _ t ht := List.mem_singleton.mp ht
  single _ := Nat.le_refl 1
  whole h := by simp [hwhole] at h
  nobody h := absurd h hkind

end Serves

namespace Purpose

/-- What an entry of an enemy's list asks for. -/
def ofEntry (db : Database) (own : Side) : EnemyActionKind → Purpose
  | .attack => .attack own.opposite
  | .defend => .defend
  | .skill id => .skill id (((db.skill? id).map (·.scope)).getD .singleEnemy)
  | .nothing => .rest

/-- What a restriction forces; none when nothing restricts. -/
def ofRestriction? (own : Side) : Restriction → Option Purpose
  | .normal => none
  | .doNothing => some .rest
  | .attackEnemy => some (.attack own.opposite)
  | .attackAlly => some (.attack own)

theorem ofRestriction?_eq_none (own : Side) (restriction : Restriction) :
    ofRestriction? own restriction = none ↔ restriction = .normal := by
  cases restriction <;> simp [ofRestriction?]

end Purpose

section Choice

variable {source : BattlerId} {g : GameState}

theorem attackOn_serves (source : BattlerId) (side : Side) (g : GameState) :
    Serves g.roster source (.attack side) (attackOn source side g).1 := by
  rcases attackOn_cases source side g with ⟨target, hthere, hattack⟩ | ⟨hempty, hidle⟩
  · rw [hattack]
    exact Serves.meets (e := .attack side) rfl rfl nofun hthere
  · rw [hidle]
    exact .idle rfl hempty

/-- A skill meets one of a side, all of it, or its user alone, as its scope says. -/
theorem cast_serves (hthere : g.roster.isPresent source = true) (id : Int) (scope : Scope) :
    let targets := targetsFor g.roster source scope (pickFor source scope g).1
    Serves g.roster source (.skill id scope)
      (if targets.isEmpty then idle source else skill source id targets) := by
  intro targets
  have single {side : Side} (hside : scope.side? source.side = some side)
    (hwhole : scope.isWhole = false) (htargets : targets = (g.randomPresent side).1.toList) :
      Serves g.roster source (.skill id scope)
        (if targets.isEmpty then idle source else skill source id targets) := by
    rcases g.randomPresent_cases side with ⟨hempty, g', hpick⟩ | ⟨t, ht, g', hpick⟩
    · rw [htargets, hpick]
      exact .idle hside hempty
    · rw [htargets, hpick]
      exact .meets hside hwhole nofun ht
  have whole {side : Side} (hside : scope.side? source.side = some side)
    (hwhole : scope.isWhole = true) (htargets : targets = g.roster.presentOn side) :
      Serves g.roster source (.skill id scope)
        (if targets.isEmpty then idle source else skill source id targets) := by
    rw [htargets]
    split
    · rename_i hempty
      exact .idle hside (List.isEmpty_iff.mp hempty)
    · rename_i hsome
      exact .meetsAll hside hwhole nofun fun hempty => hsome (List.isEmpty_iff.mpr hempty)
  cases scope with
  | singleEnemy => exact single rfl rfl rfl
  | singleAlly => exact single rfl rfl rfl
  | allEnemies => exact whole rfl rfl rfl
  | allAllies => exact whole rfl rfl rfl
  | user => exact .alone rfl rfl nofun hthere

theorem ofEnemyAction_serves (hthere : g.roster.isPresent source = true)
    (henemy : source.side = .enemy) (kind : EnemyActionKind) :
    Serves g.roster source (.ofEntry g.database source.side kind)
      (ofEnemyAction source kind g).1 := by
  cases kind with
  | attack =>
    rw [henemy]
    exact attackOn_serves source .ally g
  | defend => exact .alone rfl rfl nofun hthere
  | skill id =>
    have hserves := cast_serves hthere id (((g.database.skill? id).map (·.scope)).getD .singleEnemy)
    dsimp only [ofEnemyAction]
    rw [(pickFor_rolled source g _).roster]
    exact hserves
  | nothing => exact .rest

theorem restricted_serves {b : Battler} (hb : g.roster.battler? source = some b) {e : Purpose}
    (he : Purpose.ofRestriction? source.side (b.restriction g.database) = some e) :
    ∃ a g', restricted source g = some (a, g') ∧ Serves g.roster source e a := by
  unfold restricted
  rw [hb]
  dsimp only
  cases hrestriction : b.restriction g.database <;> rw [hrestriction] at he
  case normal => contradiction
  case doNothing =>
    obtain rfl := Option.some.inj he
    exact ⟨_, _, rfl, .rest⟩
  case attackEnemy =>
    obtain rfl := Option.some.inj he
    exact ⟨_, _, rfl, attackOn_serves source source.side.opposite g⟩
  case attackAlly =>
    obtain rfl := Option.some.inj he
    exact ⟨_, _, rfl, attackOn_serves source source.side g⟩

/-- The entry an enemy sets out with: one of those it can choose, drawn by weight, or an attack when
there is none. -/
def decision (db : Database) (sp : Int) (d : EnemyDef) (dice : Dice) : EnemyActionKind :=
  let usable := d.actions.filter (isUsable db sp)
  let weight := wrapOperand (usable.map (·.rating)).sum
  if weight ≤ 0 then .attack else chosenBy usable (dice.between 0 (weight - 1)).1

theorem chooseEnemy_decides {enemy : Battler} {d : EnemyDef}
    (henemy : g.roster.battler? source = some enemy) (hd : g.database.enemy? enemy.dbId = some d) :
    ∃ dice, chooseEnemy source g =
      ofEnemyAction source (decision g.database enemy.sp d g.dice) { g with dice := dice } := by
  rw [chooseEnemy_eq henemy hd]
  unfold decision
  dsimp only
  split
  · exact ⟨g.dice, rfl⟩
  · exact ⟨_, rfl⟩

/-- Whoever chooses for a battler who is there, the action goes to battlers who are there, on the
side the choice demands, or is nothing when nobody of that side is. -/
theorem choices_serve (hthere : g.roster.isPresent source = true) :
    ∃ b, g.roster.battler? source = some b ∧
      (source.side = .enemy →
        (∀ d, g.database.enemy? b.dbId = some d →
          Serves g.roster source
            (.ofEntry g.database source.side (decision g.database b.sp d g.dice))
            (chooseEnemy source g).1) ∧
        (g.database.enemy? b.dbId = none → Serves g.roster source .rest (chooseEnemy source g).1)) ∧
      Serves g.roster source (.attack source.side.opposite) (chooseAuto source g).1 ∧
      (b.restriction g.database ≠ .normal →
        ∃ e a g', Purpose.ofRestriction? source.side (b.restriction g.database) = some e ∧
          restricted source g = some (a, g') ∧ Serves g.roster source e a) := by
  obtain ⟨b, hb, -⟩ := (Option.any_eq_true _ _).mp hthere
  refine ⟨b, hb, fun henemy => ⟨fun d hd => ?_, fun hunknown => ?_⟩, ?_, fun hrestricted => ?_⟩
  · obtain ⟨dice, hchoice⟩ := chooseEnemy_decides hb hd
    rw [hchoice]
    exact ofEnemyAction_serves (g := { g with dice := dice }) hthere henemy _
  · have hidle : chooseEnemy source g = (idle source, g) := by
      unfold chooseEnemy
      rw [hb]
      dsimp only
      rw [hunknown]
    rw [hidle]
    exact .rest
  · exact attackOn_serves source source.side.opposite g
  · have hsome := fun hnone => hrestricted ((Purpose.ofRestriction?_eq_none source.side _).mp hnone)
    obtain ⟨e, he⟩ := Option.ne_none_iff_exists'.mp hsome
    obtain ⟨a, g', hforced, hserves⟩ := restricted_serves hb he
    exact ⟨e, a, g', he, hforced, hserves⟩

end Choice

/-- An actor left to itself attacks the one enemy who is there. -/
theorem choices_serve_of_foray :
    foray.roster.isPresent (.actor 1) =
      true ∧ (chooseAuto (.actor 1) foray).1.targets = [.enemy 1] := by
  have hthere : foray.roster.isPresent (.actor 1) = true := by decide
  have hpresent : foray.roster.presentOn .enemy = [.enemy 1] := by decide
  obtain ⟨b, -, -, hserves, -⟩ := choices_serve hthere
  refine ⟨hthere, ?_⟩
  rcases hserves.kind with ⟨hnone, -⟩ | ⟨-, -, hsome⟩
  · rcases hserves.nobody hnone with hrest | ⟨side, hside, hempty⟩
    · exact nomatch hrest
    · have hopposite : Side.enemy = side := Option.some.inj hside
      rw [← hopposite, hpresent] at hempty
      exact absurd hempty (List.cons_ne_nil _ _)
  · obtain ⟨t, ht⟩ := List.length_eq_one_iff.mp
      (Nat.le_antisymm (hserves.single rfl) (List.length_pos_iff.mpr hsome))
    have hmem : t ∈ (chooseAuto (.actor 1) foray).1.targets := ht ▸ List.mem_singleton_self t
    have hmeets := (hserves.side .enemy rfl t hmem).2
    rw [hpresent] at hmeets
    obtain rfl := List.mem_singleton.mp hmeets
    exact ht

end Action

end ActiveBattle
