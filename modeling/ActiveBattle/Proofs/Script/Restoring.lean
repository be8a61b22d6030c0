import ActiveBattle.Proofs.Document.Snapshot
import ActiveBattle.Proofs.Script.Discipline
import ActiveBattle.Proofs.Script.NegativeWaits
import ActiveBattle.Script.EventRunner

/-!
# Interpreters that are put back

A snapshot keeps of a frame everything but its program, which its owner tag finds in the store
again. So an interpreter all of whose frames are found is the same after it is put back, unless its
wait counter is below zero: a negative wait is put back as none (`Interpreter.setState_saveState`).
A parallel event that has finished keeps nothing, and a new one is put in its place. It does not
look the same, but it goes on in the same way (`EventRunner.akin_loadState`).
-/

namespace ActiveBattle

set_option autoImplicit false

/-- Operands count the instructions of a program, and its indents are operands. -/
structure Program.Representable (p : Program) : Prop where
  length : (p.length : Int) ≤ operandMax
  indents : ∀ inst ∈ p, IsOperand inst.indent

instance (p : Program) : Decidable p.Representable :=
  decidable_of_iff ((p.length : Int) ≤ operandMax ∧ ∀ inst ∈ p, IsOperand inst.indent)
    ⟨fun h => ⟨h.1, h.2⟩, fun h => ⟨h.length, h.indents⟩⟩

/-- Owner tags find every program of the store, and all numbers are operands. -/
structure ProgramStore.Addressable (s : ProgramStore) : Prop where
  ids : ∀ e ∈ s.events, 0 < e.id ∧ e.id ≤ operandMax
  events : ∀ e ∈ s.events, Program.Representable e.instructions
  pages : (s.troop.pages.length : Int) ≤ operandMax
  programs : ∀ p ∈ s.troop.pages, Program.Representable p.instructions

namespace ProgramStore

variable {s : ProgramStore}

theorem event?_eq_some {id : Int} {e : CommonEvent} (h : s.event? id = some e) :
    e.id = id ∧ e ∈ s.events :=
  ⟨by simpa using List.find?_some h, List.mem_of_find?_eq_some h⟩

theorem mem_place {e x : CommonEvent} {l : List CommonEvent} (h : x ∈ place e l) :
    x = e ∨ x ∈ l := by
  induction l with
  | nil => exact .inl (List.mem_singleton.mp h)
  | cons head rest ih =>
    unfold place at h
    split at h
    · exact List.mem_cons.mp h
    · split at h
      · exact (List.mem_cons.mp h).imp_right (List.mem_cons_of_mem head)
      · rcases List.mem_cons.mp h with rfl | h
        · exact .inr List.mem_cons_self
        · exact (ih h).imp_right (List.mem_cons_of_mem head)

/-- Events are placed in the order of their ids. -/
theorem place_sorted (e : CommonEvent) {l : List CommonEvent} (h : l.Pairwise (·.id < ·.id)) :
    (place e l).Pairwise (·.id < ·.id) := by
  induction l with
  | nil => exact List.pairwise_singleton _ _
  | cons head rest ih =>
    obtain ⟨hhead, hrest⟩ := List.pairwise_cons.mp h
    unfold place
    split
    · rename_i hlt
      refine List.pairwise_cons.mpr ⟨fun x hx => ?_, h⟩
      rcases List.mem_cons.mp hx with rfl | hx
      · exact hlt
      · exact Int.lt_trans hlt (hhead x hx)
    · split
      · rename_i hsame
        exact List.pairwise_cons.mpr ⟨fun x hx => hsame ▸ hhead x hx, hrest⟩
      · rename_i hle hne
        refine List.pairwise_cons.mpr ⟨fun x hx => ?_, ih hrest⟩
        rcases mem_place hx with rfl | hx
        · omega
        · exact hhead x hx

theorem ofEvents_sorted (events : List CommonEvent) (troop : Troop) :
    (ofEvents events troop).events.Pairwise (·.id < ·.id) :=
  List.foldlRecOn events _ .nil fun _ h e _ => place_sorted e h

/-- So an event is found by its id. -/
theorem event?_of_mem (hs : s.events.Pairwise (·.id < ·.id)) {e : CommonEvent} (he : e ∈ s.events) :
    s.event? e.id = some e := by
  unfold event?
  generalize s.events = events at hs he
  induction events with
  | nil => contradiction
  | cons head rest ih =>
    obtain ⟨hhead, hrest⟩ := List.pairwise_cons.mp hs
    rcases List.mem_cons.mp he with rfl | he
    · exact List.find?_cons_of_pos (decide_eq_true rfl)
    · have hne : ¬head.id = e.id := Int.ne_of_lt (hhead e he)
      rw [List.find?_cons_of_neg (by simpa using hne)]
      exact ih hrest he

theorem resolve_ofCommonEvent (hs : s.Addressable) {id : Int} {e : CommonEvent}
    (h : s.event? id = some e) :
    s.resolve (.ofCommonEvent e.id) = some e.instructions := by
  obtain ⟨hid, hmem⟩ := event?_eq_some h
  have htag : (OwnerTag.ofCommonEvent e.id).commonEventId? = some id := by
    have hneg : -e.id < 0 := Int.neg_neg_of_pos (hs.ids e hmem).1
    rw [OwnerTag.commonEventId?, OwnerTag.ofCommonEvent, if_pos hneg, Int.neg_neg, hid]
  rw [resolve, htag]
  exact congrArg (Option.map CommonEvent.instructions) h

theorem resolve_ofPage (hs : s.Addressable) {index : Nat} {page : TroopPage}
    (h : s.troop.pages[index]? = some page) :
    s.resolve (.ofPage (index + 1)) = some page.instructions := by
  have hlt := (List.getElem?_eq_some_iff.mp h).1
  have hpages := hs.pages
  have htag : OwnerTag.ofPage (index + 1) = ⟨(index + 1 : Nat)⟩ :=
    congrArg OwnerTag.mk (wrapOperand_natCast (by omega))
  have hnone : (⟨(index + 1 : Nat)⟩ : OwnerTag).commonEventId? = none :=
    if_neg (Int.not_lt.mpr (Int.natCast_nonneg _))
  have hpage : (⟨(index + 1 : Nat)⟩ : OwnerTag).page? = some (index + 1) :=
    if_pos (Int.natCast_pos.mpr index.succ_pos)
  rw [resolve, htag, hnone, hpage]
  exact congrArg (Option.map TroopPage.instructions) h

theorem representable_of_resolve (hs : s.Addressable) {tag : OwnerTag} {program : Program}
    (h : s.resolve tag = some program) : IsOperand tag.value ∧ program.Representable := by
  unfold resolve OwnerTag.commonEventId? OwnerTag.page? at h
  have hmin : operandMin = -operandMax - 1 := rfl
  by_cases hevent : tag.value < 0
  · rw [if_pos hevent] at h
    obtain ⟨e, he, rfl⟩ := Option.map_eq_some_iff.mp h
    obtain ⟨hid, hmem⟩ := event?_eq_some he
    obtain ⟨hpos, hle⟩ := hs.ids e hmem
    exact ⟨⟨by omega, by omega⟩, hs.events e hmem⟩
  · rw [if_neg hevent] at h
    obtain ⟨page, hpage, rfl⟩ := Option.map_eq_some_iff.mp h
    obtain ⟨number, hnumber, hfound⟩ := Option.bind_eq_some_iff.mp hpage
    obtain ⟨hpos, hsome⟩ := Option.ite_none_right_eq_some.mp hnumber
    obtain rfl := Option.some.inj hsome
    have hpages := hs.pages
    unfold page? at hfound
    split at hfound
    · contradiction
    · rename_i n hn
      have hlt := (List.getElem?_eq_some_iff.mp hfound).1
      exact ⟨⟨by omega, by omega⟩, hs.programs page (List.mem_of_getElem? hfound)⟩

end ProgramStore

namespace Frame

/-- All that is noted of branches can be written down. -/
def ChoicesFit (f : Frame) : Prop := ∀ c ∈ f.branchChoices, IsOperand c.1 ∧ IsOperand c.2

theorem mem_overwrite {indent choice : Int} {entries : List (Int × Int)} {c : Int × Int}
    (h : c ∈ overwrite indent choice entries) : c = (indent, choice) ∨ c ∈ entries := by
  induction entries with
  | nil => contradiction
  | cons entry rest ih =>
    unfold overwrite at h
    split at h
    · rename_i hindent
      rcases List.mem_cons.mp h with rfl | h
      · exact .inl (by rw [hindent])
      · exact .inr (List.mem_cons_of_mem entry h)
    · rcases List.mem_cons.mp h with rfl | h
      · exact .inr List.mem_cons_self
      · exact (ih h).imp_right (List.mem_cons_of_mem entry)

theorem mem_setBranch {f : Frame} {indent choice : Int} {c : Int × Int}
    (h : c ∈ (f.setBranch indent choice).branchChoices) :
    c = (indent, choice) ∨ c ∈ f.branchChoices := by
  unfold setBranch at h
  split at h
  · exact mem_overwrite h
  · rcases List.mem_append.mp (List.mem_mergeSort.mp h) with h | h
    · exact .inr h
    · exact .inl (List.mem_singleton.mp h)

theorem Moved.choicesFit {indent : Int} {f g : Frame} (h : f.Moved indent g)
    (hindent : IsOperand indent) (hf : f.ChoicesFit) : g.ChoicesFit := by
  have htaken : IsOperand branchTaken := ⟨by decide, by decide⟩
  have helse : IsOperand branchElse := ⟨by decide, by decide⟩
  intro c hc
  rcases h.choices with hsame | ⟨choice, hchoice, hset⟩
  · rw [hsame] at hc
    exact hf c hc
  · rw [hset] at hc
    rcases mem_setBranch hc with rfl | hc
    · rcases hchoice with rfl | rfl
      · exact ⟨hindent, htaken⟩
      · exact ⟨hindent, helse⟩
    · exact hf c hc

end Frame

namespace Interpreter

/-- Every frame finds its program again, all that is kept of it can be written down, and nothing but
a program waits. -/
structure Restorable (store : ProgramStore) (i : Interpreter) : Prop where
  found : ∀ f ∈ i.stack, store.resolve f.ownerTag = some f.program
  choices : ∀ f ∈ i.stack, f.ChoicesFit
  wait : IsOperand i.waitFrames
  idle : i.stack = [] → i.waitFrames ≤ 0

section Upheld

variable {store : ProgramStore} {i j : Interpreter}

theorem isOperand_zero : IsOperand 0 := ⟨by decide, by decide⟩

theorem Restorable.push (h : i.Restorable store) {program : Program} {owner : OwnerTag}
    (howner : store.resolve owner = some program) : (i.push program owner).Restorable store := by
  refine ⟨fun f hf => ?_, fun f hf => ?_, h.wait, nofun⟩
  · rcases List.mem_cons.mp hf with rfl | hf
    · exact howner
    · exact h.found f hf
  · rcases List.mem_cons.mp hf with rfl | hf
    · exact nofun
    · exact h.choices f hf

theorem Moves.restorable (hstore : store.Addressable) {inst : Instruction} {top : Frame}
    {below : List Frame} (hi : i.Restorable store) (hstack : i.stack = top :: below)
    (hcurrent : top.current? = some inst) (h : i.Moves store inst top below j) :
    j.Restorable store := by
  have htop : top ∈ i.stack := by simp [hstack]
  have hbelow : ∀ f ∈ below, f ∈ i.stack := fun f hf => by simp [hstack, hf]
  have moved {g : Frame} {op : AsyncOp} {n : Int} {yields : Bool} (htag : g.ownerTag = top.ownerTag)
      (hprogram : g.program = top.program) (hchoices : g.ChoicesFit) (hn : IsOperand n) :
      ({ i with stack := g :: below, asyncOp := op, waitFrames := n, yieldRequested := yields } :
        Interpreter).Restorable store := by
    refine ⟨fun f hf => ?_, fun f hf => ?_, hn, nofun⟩
    · rcases List.mem_cons.mp hf with rfl | hf
      · rw [htag, hprogram]
        exact hi.found top htop
      · exact hi.found f (hbelow f hf)
    · rcases List.mem_cons.mp hf with rfl | hf
      · exact hchoices
      · exact hi.choices f (hbelow f hf)
  have hkept : top.advance.ChoicesFit := hi.choices top htop
  cases h with
  | goes _ hmoved =>
    have hprogram := (ProgramStore.representable_of_resolve hstore (hi.found top htop)).2
    have hindent := hprogram.indents inst (List.mem_of_getElem? hcurrent)
    exact moved hmoved.ownerTag hmoved.program
      (hmoved.choicesFit hindent (hi.choices top htop)) hi.wait
  | calls _ hevent =>
    have hadvanced : ({ i with stack := top.advance :: below } : Interpreter).Restorable store :=
      moved rfl rfl hkept hi.wait
    exact hadvanced.push (ProgramStore.resolve_ofCommonEvent hstore hevent)
  | waits _ => exact moved rfl rfl hkept (isOperand_waitLength _ _)
  | @shows frames _ =>
    obtain ⟨hlo, hhi⟩ := isOperand_wrapOperand frames
    exact moved rfl rfl hkept ⟨Int.le_trans hlo (Int.le_max_left _ _),
      Int.max_le.mpr ⟨hhi, by decide⟩⟩
  | loads _ => exact moved rfl rfl hkept hi.wait
  | terminates _ => exact moved rfl rfl (hi.choices top htop) hi.wait

theorem restorable_upheld (hstore : store.Addressable) : Upheld store (Restorable store) where
  resume _ h := ⟨h.found, h.choices, isOperand_zero, fun _ => Int.le_refl 0⟩
  countdown i h hwaiting := by
    have hpos : 0 < i.waitFrames := of_decide_eq_true hwaiting
    obtain ⟨-, hhi⟩ := h.wait
    have hleast : operandMin ≤ 0 := by decide
    refine ⟨h.found, h.choices, ⟨?_, ?_⟩,
      fun hempty => absurd (h.idle hempty) (Int.not_le.mpr hpos)⟩
    · change operandMin ≤ i.waitFrames - 1
      omega
    · change i.waitFrames - 1 ≤ operandMax
      omega
  pop i f rest h hi hstack := by
    have hrest : ∀ g ∈ rest, g ∈ i.stack := fun g hg => by simp [hstack, hg]
    exact ⟨fun g hg => h.found g (hrest g hg), fun g hg => h.choices g (hrest g hg), h.wait,
      fun _ => waitFrames_of_isSuspended_eq_false hi⟩
  move _ _ _ _ _ h _ hstack hcurrent hmoves := hmoves.restorable hstore h hstack hcurrent
  yield _ h := ⟨h.found, h.choices, h.wait, h.idle⟩

end Upheld

/-- Whatever is kept of such an interpreter can be written down. -/
theorem Restorable.representable {store : ProgramStore} (hstore : store.Addressable)
    {i : Interpreter} (h : i.Restorable store) : i.saveState.Representable := by
  refine ⟨fun kept hkept => ?_, h.wait⟩
  obtain ⟨f, hf, rfl⟩ := List.mem_map.mp (List.mem_reverse.mp hkept)
  have htag := (ProgramStore.representable_of_resolve hstore (h.found f hf)).1
  have hsnapshot : f.snapshot.cursor = wrapOperand f.cursor := by simp only [Frame.snapshot]
  have hcursor : IsOperand f.snapshot.cursor := hsnapshot ▸ isOperand_wrapOperand f.cursor
  exact ⟨htag, hcursor, h.choices f hf⟩

/-- A frame that finds its program is put back where it was. -/
theorem restoreFrame?_snapshot {store : ProgramStore} (hstore : store.Addressable) {f : Frame}
    (hfound : store.resolve f.ownerTag = some f.program) (hcursor : f.cursor ≤ f.program.length) :
    restoreFrame? store f.snapshot = some f := by
  have hlength := (ProgramStore.representable_of_resolve hstore hfound).2.length
  have hwrap : wrapOperand f.cursor = f.cursor := wrapOperand_natCast (by omega)
  have hrestored : Frame.restore f.snapshot f.program = f := by
    simp [Frame.restore, Frame.snapshot, hwrap, Nat.min_eq_left hcursor]
  unfold restoreFrame?
  rw [show f.snapshot.ownerTag = f.ownerTag from rfl, hfound, Option.map_some, hrestored]

/-- The interpreter can be put back, and has the settings of one as it is made. -/
structure Sound (store : ProgramStore) (made i : Interpreter) : Prop where
  orderly : i.Orderly
  restorable : i.Restorable store
  limit : i.loopLimit = made.loopLimit
  rate : i.framesPerSecond = made.framesPerSecond

namespace Sound

variable {store : ProgramStore} {made i : Interpreter}

theorem push (h : Sound store made i) {program : Program} {owner : OwnerTag}
    (howner : store.resolve owner = some program) : Sound store made (i.push program owner) :=
  ⟨h.orderly.push program owner, h.restorable.push howner, h.limit, h.rate⟩

theorem clear (h : Sound store made i) : Sound store made i.clear :=
  ⟨i.clear_orderly, ⟨nofun, nofun, isOperand_zero, fun _ => Int.le_refl 0⟩, h.limit, h.rate⟩

/-- If it has finished, it is as it was made, but for a negative wait. -/
theorem floored_eq_new (h : Sound store {} i) (hasync : i.asyncOp = .none) (hstack : i.stack = []) :
    i.floored = {} := by
  have hwait : max i.waitFrames 0 = 0 := Int.max_eq_right (h.restorable.idle hstack)
  unfold floored
  rw [hwait]
  obtain ⟨stack, asyncOp, waitFrames, yieldRequested, loopLimit, framesPerSecond⟩ := i
  obtain rfl := h.orderly.yield
  obtain rfl := h.limit
  obtain rfl := h.rate
  obtain rfl := hstack
  obtain rfl := hasync
  rfl

end Sound

/-- An interpreter that is not suspended is the same after it is put back, but for a negative
wait. -/
theorem setState_saveState {store : ProgramStore} (hstore : store.Addressable)
    {i fresh : Interpreter} (hi : Sound store fresh i) (hasync : i.asyncOp = .none) :
    fresh.setState i.saveState store = i.floored := by
  have hframes (frames : List Frame) (h : ∀ f ∈ frames, f ∈ i.stack) :
      (frames.map Frame.snapshot).filterMap (restoreFrame? store) = frames := by
    induction frames with
    | nil => rfl
    | cons f rest ih =>
      have hf := h f List.mem_cons_self
      have hrestored :=
        restoreFrame?_snapshot hstore (hi.restorable.found f hf) (hi.orderly.cursor f hf)
      rw [List.map_cons, List.filterMap_cons_some hrestored,
        ih fun g hg => h g (List.mem_cons_of_mem f hg)]
  have hstack : ((i.saveState).stack.filterMap (restoreFrame? store)).reverse = i.stack := by
    unfold saveState
    rw [List.filterMap_reverse, List.reverse_reverse]
    exact hframes i.stack fun _ h => h
  unfold setState Interpreter.clear
  rw [hstack, ← hi.limit, ← hi.rate, ← hasync, ← hi.orderly.yield]
  rfl

end Interpreter

theorem Runs.sound {σ : Type} [AssetLoader σ] {store : ProgramStore} (hstore : store.Addressable)
    {made : Interpreter} {c : CommandSet} {allowSuspend : Bool} {x y : Execution BattleScript σ}
    {log : List (Line σ)} (h : Runs store c (.update allowSuspend) x log y)
    (hx : Interpreter.Sound store made x.interp) :
    Interpreter.Sound store made y.interp := by
  have hsettings := (h.upheld (Interpreter.settings_upheld store _ _) ⟨hx.limit, hx.rate⟩ trivial).1
  have hrestorable := (h.upheld (Interpreter.restorable_upheld hstore) hx.restorable trivial).1
  exact ⟨h.orderly hx.orderly, hrestorable, hsettings.1, hsettings.2⟩

/-! ### Parallel events -/

namespace EventRunner

structure Call (δ σ : Type) where
  commands : CommandTable δ σ
  store : ProgramStore
  resume : Bool
  table : δ
  world : World σ

/-- What a chain of updates gives back. -/
def answers {δ σ : Type} [AssetLoader σ] (r : EventRunner) :
    List (Call δ σ) → List (AsyncOp × δ × World σ)
  | [] => []
  | c :: rest =>
    let updated := r.update c.commands c.store c.resume c.table c.world
    (updated.op, updated.table, updated.world) :: updated.runner.answers rest

/-- From interpreters that `R` relates, updates under the table lead to such interpreters again, and
to the same otherwise. -/
def Respects {δ σ : Type} [AssetLoader σ] (R : Interpreter → Interpreter → Prop)
    (commands : CommandTable δ σ) : Prop :=
  ∀ store allowSuspend (x y : Execution δ σ), R x.interp y.interp → y.table = x.table →
    y.world = x.world → let x' := x.update commands store allowSuspend
    let y' := y.update commands store allowSuspend
    R x'.interp y'.interp ∧ y'.interp.asyncOp = x'.interp.asyncOp ∧ y'.table = x'.table ∧
      y'.world = x'.world

theorem respects_eq {δ σ : Type} [AssetLoader σ] (commands : CommandTable δ σ) :
    Respects Eq commands := by
  intro store allowSuspend x y hinterp htable hworld
  obtain rfl : x = y := by
    obtain ⟨interp, table, world⟩ := x
    obtain ⟨rfl, rfl, rfl⟩ : interp = y.interp ∧ table = y.table ∧ world = y.world :=
      ⟨hinterp, htable.symm, hworld.symm⟩
    rfl
  exact ⟨rfl, rfl, rfl, rfl⟩

theorem respects_matches {δ σ : Type} [AssetLoader σ] {commands : CommandTable δ σ}
    (h : commands.IgnoresWait) :
    Respects Interpreter.Matches commands := by
  intro store allowSuspend x y hinterp htable hworld
  have hupdated := h.update store (x := x) (y := y) ⟨hinterp, htable, hworld⟩ allowSuspend
  exact ⟨hupdated.interp, hupdated.interp.asyncOp, hupdated.table, hupdated.world⟩

/-- Starting over what has finished does not take interpreters apart. -/
def Starts (R : Interpreter → Interpreter → Prop) : Prop :=
  ∀ e i j, R i j → R (started e i) (started e j)

theorem starts_eq : Starts Eq := fun e _ _ h => congrArg (started e) h

theorem starts_matches : Starts Interpreter.Matches := by
  intro e i j h
  have hrunning : j.isRunning = i.isRunning :=
    congrArg (fun stack : List Frame => !stack.isEmpty) h.stack
  unfold started
  rw [hrunning]
  split
  · exact h
  · exact h.map (·.pushEvent e) fun _ _ => rfl

/-- The same event, with interpreters to go on with that `R` relates once what has finished is
started over. -/
structure Akin (R : Interpreter → Interpreter → Prop) (r r' : EventRunner) : Prop where
  event : r'.event = r.event
  interp : Option.Rel R (r.interp.map (started r.event)) (r'.interp.map (started r.event))

/-- Nobody can tell them apart by their updates. -/
theorem Akin.answers_eq {δ σ : Type} [AssetLoader σ] {R : Interpreter → Interpreter → Prop}
    (hR : Starts R) {r r' : EventRunner} (h : Akin R r r') {calls : List (Call δ σ)}
    (hcalls : ∀ c ∈ calls, Respects R c.commands) :
    r'.answers calls = r.answers calls := by
  induction calls generalizing r r' with
  | nil => rfl
  | cons c rest ih =>
    obtain ⟨hfirst, hrest⟩ := List.forall_mem_cons.mp hcalls
    obtain ⟨event, interp⟩ := r
    obtain ⟨event', interp'⟩ := r'
    obtain rfl : event' = event := h.event
    have hinterp : Option.Rel R (interp.map (started event')) (interp'.map (started event')) :=
      h.interp
    have akin {i j : Interpreter} (h : R i j) : Akin R ⟨event', some i⟩ ⟨event', some j⟩ :=
      ⟨rfl, .some (hR event' i j h)⟩
    have hready : isBackgroundReady ⟨event', interp'⟩ = isBackgroundReady ⟨event', interp⟩ := rfl
    unfold answers update
    rw [hready]
    split
    · cases interp with
      | none =>
        cases interp' with
        | none => rfl
        | some j => cases hinterp
      | some i =>
        cases interp' with
        | none => cases hinterp
        | some j =>
          obtain ⟨hrelated⟩ : Option.Rel R (some (started event' i)) (some (started event' j)) :=
            hinterp
          obtain ⟨hinterp, hop, htable, hworld⟩ :=
            hfirst c.store (!c.resume) ⟨started event' i, c.table, c.world⟩
            ⟨started event' j, c.table, c.world⟩ hrelated rfl rfl
          dsimp only
          rw [hop, htable, hworld, ih (akin hinterp) hrest]
    · dsimp only
      rw [ih h hrest]

/-- What is kept of an event that does not run leaves every event as it is, the empty frame
included. -/
theorem loadState_of_idle {r : EventRunner} (h : ∀ i ∈ r.interp, i.stack = []) (other : EventRunner)
    (store : ProgramStore) : other.loadState r.saveState store = other := by
  have hkept : r.saveState.stack = [] ∨ r.saveState.stack = [FrameSnapshot.placeholder] := by
    have hempty {state : ExecutionSnapshot} (h : state.stack = []) :
        (if r.event.trigger = .parallel && state.stack.isEmpty then
          { state with stack := [FrameSnapshot.placeholder] } else state).stack = [] ∨
        (if r.event.trigger = .parallel && state.stack.isEmpty then
          { state with stack := [FrameSnapshot.placeholder] } else state).stack =
            [FrameSnapshot.placeholder] := by
      split
      · exact .inr rfl
      · exact .inl h
    unfold saveState
    cases hinterp : r.interp with
    | none => exact hempty rfl
    | some i => exact hempty (by simp [Interpreter.saveState, h i hinterp])
  unfold loadState
  rcases hkept with hstack | hstack
  · rw [hstack]
  · rw [hstack]
    exact if_pos rfl

/-- What is kept of an event can be written down, the empty frame included. -/
theorem saveState_representable {store : ProgramStore} (hstore : store.Addressable)
    {r : EventRunner} (h : ∀ i ∈ r.interp, Interpreter.Sound store {} i) :
    r.saveState.Representable := by
  have hplaceholder : FrameSnapshot.placeholder.Representable :=
    ⟨Interpreter.isOperand_zero, Interpreter.isOperand_zero, nofun⟩
  have marked {state : ExecutionSnapshot} (hstate : state.Representable) :
      (if r.event.trigger = .parallel && state.stack.isEmpty then
        { state with stack := [FrameSnapshot.placeholder] } else state).Representable := by
    split
    · exact ⟨fun f hf => List.mem_singleton.mp hf ▸ hplaceholder, hstate.waitFrames⟩
    · exact hstate
  unfold saveState
  cases hinterp : r.interp with
  | none => exact marked ⟨nofun, Interpreter.isOperand_zero⟩
  | some i => exact marked ((h i hinterp).restorable.representable hstore)

/-- No frame that finds its program is the empty one. -/
theorem isPlaceholder_eq_false {store : ProgramStore} {f : Frame}
    (h : store.resolve f.ownerTag = some f.program) :
    f.snapshot.isPlaceholder = false := by
  refine decide_eq_false fun hsame => ?_
  have htag : f.ownerTag = .synthetic := congrArg FrameSnapshot.ownerTag hsame
  rw [htag] at h
  contradiction

theorem loadState_of_running {store : ProgramStore} (hstore : store.Addressable) {r : EventRunner}
    {i : Interpreter} (hinterp : r.interp = some i) (hi : Interpreter.Sound store {} i)
    (hasync : i.asyncOp = .none) (hrunning : i.stack ≠ []) {fresh : EventRunner}
    (hevent : fresh.event = r.event) (hfresh : ∀ j ∈ fresh.interp, Interpreter.Sound store {} j) :
    fresh.loadState r.saveState store = { r with interp := some i.floored } := by
  obtain ⟨rest, bottom, hbottom⟩ : ∃ rest bottom, i.stack = rest ++ [bottom] := by
    rcases List.eq_nil_or_concat i.stack with hnil | ⟨rest, bottom, hconcat⟩
    · exact absurd hnil hrunning
    · exact ⟨rest, bottom, by rw [hconcat, List.concat_eq_append]⟩
  have hstack : i.saveState.stack = bottom.snapshot :: (rest.map Frame.snapshot).reverse := by
    simp [Interpreter.saveState, hbottom]
  have hkept : r.saveState = i.saveState := by
    unfold saveState
    rw [hinterp]
    dsimp only
    rw [hstack]
    simp
  have hfound : store.resolve bottom.ownerTag = some bottom.program :=
    hi.restorable.found bottom (by simp [hbottom])
  have hmade : Interpreter.Sound store (fresh.interp.getD {}) i := by
    cases hinterp : fresh.interp with
    | none => exact hi
    | some j =>
      have hj := hfresh j hinterp
      exact ⟨hi.orderly, hi.restorable, hi.limit.trans hj.limit.symm, hi.rate.trans hj.rate.symm⟩
  have hrestored := Interpreter.setState_saveState hstore hmade hasync
  unfold loadState
  rw [hkept, hstack]
  dsimp only
  rw [isPlaceholder_eq_false hfound, hrestored, hevent]
  rfl

theorem eq_pushEvent_of_ofEvent {e : CommonEvent} {i : Interpreter}
    (h : (ofEvent e).interp = some i) :
    i = ({} : Interpreter).pushEvent e := by
  obtain ⟨-, hi⟩ := Option.ite_none_right_eq_some.mp h
  exact (Option.some.inj hi).symm

/-- A new event that loads what an event has kept goes on like it, but for a negative wait. -/
theorem akin_loadState {R : Interpreter → Interpreter → Prop} {store : ProgramStore}
    (hstore : store.Addressable) {r : EventRunner}
    (hholds : r.interp.isSome = (ofEvent r.event).interp.isSome)
    (hsound : ∀ i ∈ r.interp, Interpreter.Sound store {} i)
    (hnew : ∀ i ∈ (ofEvent r.event).interp, Interpreter.Sound store {} i)
    (hasync : ∀ i ∈ r.interp, i.asyncOp = .none)
    (hR : ∀ i ∈ r.interp, R (started r.event i) (started r.event i.floored)) :
    Akin R r ((ofEvent r.event).loadState r.saveState store) := by
  cases hinterp : r.interp with
  | none =>
    rw [hinterp] at hholds
    have hnone : (ofEvent r.event).interp = none :=
      Option.isNone_iff_eq_none.mp (by simpa using hholds.symm)
    rw [loadState_of_idle (by simp [hinterp])]
    refine ⟨rfl, ?_⟩
    rw [hnone, hinterp]
    exact .none
  | some i =>
    have hrelated := hR i hinterp
    by_cases hstack : i.stack = []
    · -- The event has finished, so its next update starts it over.
      obtain ⟨j, hj⟩ := Option.isSome_iff_exists.mp (hholds.symm.trans (by simp [hinterp]))
      obtain rfl := eq_pushEvent_of_ofEvent hj
      rw [(hsound i hinterp).floored_eq_new (hasync i hinterp) hstack] at hrelated
      rw [loadState_of_idle (by simp [hinterp, hstack])]
      refine ⟨rfl, ?_⟩
      rw [hj, hinterp]
      exact .some hrelated
    · have hevent : (ofEvent r.event).event = r.event := rfl
      rw [loadState_of_running hstore hinterp (hsound i hinterp) (hasync i hinterp)
        hstack hevent hnew]
      refine ⟨rfl, ?_⟩
      rw [hinterp]
      exact .some hrelated

end EventRunner

end ActiveBattle
