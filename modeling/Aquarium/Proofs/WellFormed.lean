import Aquarium.CodeBox.Source
import Aquarium.Proofs.Failing
import Aquarium.Proofs.History

/-!
# Well-formed machines

A machine has a stack, heads in one of four directions, is in at most one string mode and has its
cursor on its box, and its box does not change its shape. Some of this is built into the types of a
machine. `Dials` forgets those types: it keeps a plain number of stacks, two coordinates and a
switch for each string mode, with `Dials.shift` working on them one by one, and `follows_of_step`
says that a machine does what its dials do. `Dials.Sound.follow` then has to prove that they stay
sound.

A jump may leave the cursor anywhere, and only moving on brings it back, so the cursor is on the box
at the heads of a run and between calls, not within a step. The main statement covers all of these.
-/

namespace Aquarium

/-- A symbol that switches a string mode is the mode's own. -/
theorem Instruction.symbol_of_toggle {symbol : Int} {quote : Quote}
    (stands : ofSymbol? symbol = some (.toggle quote)) : symbol = quote.symbol := by
  rcases ofSymbol?_eq_some_iff.mp stands with code | ⟨_, other⟩
  · cases quote <;> exact code
  · cases other

/-! ## Dials -/

/-- The parts of a machine that could go wrong, as plain numbers and switches: how many stacks there
are, by how much a step moves the cursor, and whether each of the string modes is on. -/
structure Dials where
  depth : Nat
  rows : Int
  columns : Int
  single : Bool
  double : Bool

namespace Dials

/-- The steps to the right, to the left, up and down. -/
def directions : List (Int × Int) :=
  [(0, 1), (0, -1), (-1, 0), (1, 0)]

/-- Whether one of the string modes takes a symbol as it is. -/
def intercepts (dials : Dials) (symbol : Int) : Bool :=
  (dials.single && symbol ≠ Quote.single.symbol) || (dials.double && symbol ≠ Quote.double.symbol)

/-- The dials after an instruction, given the direction that is drawn if one is. Mirrors work on the
coordinates, and each string mode is switched on its own. -/
def shift (dials : Dials) (drawn : Int × Int) : Instruction → Dials
  | .face .right => { dials with rows := 0, columns := 1 }
  | .face .left => { dials with rows := 0, columns := -1 }
  | .face .up => { dials with rows := -1, columns := 0 }
  | .face .down => { dials with rows := 1, columns := 0 }
  | .wander => { dials with rows := drawn.1, columns := drawn.2 }
  | .reflect .slash => { dials with rows := -dials.columns, columns := -dials.rows }
  | .reflect .backslash => { dials with rows := dials.columns, columns := dials.rows }
  | .reflect .upright => { dials with columns := -dials.columns }
  | .reflect .level => { dials with rows := -dials.rows }
  | .reflect .sharp => { dials with rows := -dials.rows, columns := -dials.columns }
  | .toggle .single => { dials with single := !dials.single }
  | .toggle .double => { dials with double := !dials.double }
  | .openStack => { dials with depth := dials.depth + 1 }
  | .closeStack => { dials with depth := dials.depth - 1 }
  | _ => dials

/-- What a step that completes does to the dials. -/
def Follows (symbol : Int) (before after : Dials) : Prop :=
  if before.intercepts symbol then after = before
  else
    ∃ instruction drawn, Instruction.ofSymbol? symbol = some instruction ∧ drawn ∈ directions ∧
      (instruction = .closeStack → 2 ≤ before.depth) ∧ after = before.shift drawn instruction

/-- There is a stack, the step is one of four, and at most one string mode is on. -/
structure Sound (dials : Dials) : Prop where
  stacked : 1 ≤ dials.depth
  directed : (dials.rows, dials.columns) ∈ directions
  exclusive : ¬ (dials.single = true ∧ dials.double = true)

/-- Mirrors turn each of the four directions into another of them. -/
theorem directed_of_reflect {dials : Dials} (directed : (dials.rows, dials.columns) ∈ directions)
    (drawn : Int × Int) (mirror : Mirror) :
    ((dials.shift drawn (.reflect mirror)).rows, (dials.shift drawn (.reflect mirror)).columns) ∈
      directions := by
  simp only [directions, List.mem_cons, Prod.mk.injEq, List.not_mem_nil, or_false] at directed
  rcases directed with ⟨rows, columns⟩ | ⟨rows, columns⟩ | ⟨rows, columns⟩ | ⟨rows, columns⟩ <;>
    cases mirror <;> simp [shift, rows, columns, directions]

/-- A string mode is switched only while the other one is off: while it is on, it takes the symbol
that would switch this one as it is. -/
theorem exclusive_of_toggle {dials : Dials} {symbol : Int} {quote : Quote}
    (executed : dials.intercepts symbol = false)
    (stands : Instruction.ofSymbol? symbol = some (.toggle quote)) (drawn : Int × Int) :
    ¬ ((dials.shift drawn (.toggle quote)).single = true ∧
      (dials.shift drawn (.toggle quote)).double = true) := by
  have code := Instruction.symbol_of_toggle stands
  simp only [intercepts, code] at executed
  cases quote with
  | single =>
    have off : dials.double = false := by simpa [Quote.symbol] using executed
    rintro ⟨_, on⟩
    rw [show (dials.shift drawn (.toggle .single)).double = dials.double from rfl, off] at on
    cases on
  | double =>
    have off : dials.single = false := by simpa [Quote.symbol] using executed
    rintro ⟨on, _⟩
    rw [show (dials.shift drawn (.toggle .double)).single = dials.single from rfl, off] at on
    cases on

/-- A step that completes keeps the dials sound. -/
theorem Sound.follow {symbol : Int} {before after : Dials} (sound : before.Sound)
    (follows : Follows symbol before after) : after.Sound := by
  obtain ⟨stacked, directed, exclusive⟩ := sound
  unfold Follows at follows
  split at follows
  · subst follows
    exact ⟨stacked, directed, exclusive⟩
  · rename_i executed
    obtain ⟨instruction, drawn, stands, cardinal, above, rfl⟩ := follows
    cases instruction with
    | face heading => cases heading <;> exact ⟨stacked, by simp [shift, directions], exclusive⟩
    | wander => exact ⟨stacked, cardinal, exclusive⟩
    | reflect mirror =>
      have turned := directed_of_reflect directed drawn mirror
      cases mirror <;> exact ⟨stacked, turned, exclusive⟩
    | toggle quote =>
      have switched := exclusive_of_toggle (by simpa using executed) stands drawn
      cases quote <;> exact ⟨stacked, directed, switched⟩
    | openStack => exact ⟨Nat.le_succ_of_le stacked, directed, exclusive⟩
    | closeStack =>
      have two := above rfl
      exact ⟨by simp only [shift]; omega, directed, exclusive⟩
    | _ => exact ⟨stacked, directed, exclusive⟩

theorem shift_of_reshape? {instruction : Instruction} {change : Stack → Option Stack}
    (shape : instruction.reshape? = some change) (dials : Dials) (drawn : Int × Int) :
    dials.shift drawn instruction = dials := by
  cases instruction <;> first | rfl | cases shape

end Dials

/-! ## The dials of a machine -/

/-- Dropping the active stack leaves one stack less. -/
theorem Tower.size_of_closeStack? {tower merged : Tower}
    (dropped : tower.closeStack? = some merged) : tower.size = merged.size + 1 := by
  unfold closeStack? at dropped
  split at dropped
  · cases dropped
  · rename_i below others under
    cases dropped
    simp [size, under]

/-- The step of a heading is one of the four. -/
theorem Heading.mem_directions (heading : Heading) :
    (heading.rows, heading.columns) ∈ Dials.directions := by
  cases heading <;> decide

namespace Machine

/-- The dials that show a machine. -/
def dials (machine : Machine) : Dials where
  depth := machine.tower.size
  rows := machine.heading.rows
  columns := machine.heading.columns
  single := machine.quoting = some .single
  double := machine.quoting = some .double

/-- A machine takes a symbol as it is when one of the switches says so. -/
theorem intercepts_dials (machine : Machine) (symbol : Int) :
    machine.dials.intercepts symbol = machine.takesLiterally symbol := by
  cases quoting : machine.quoting with
  | none => simp [Dials.intercepts, takesLiterally, dials, quoting]
  | some quote => cases quote <;> simp [Dials.intercepts, takesLiterally, dials, quoting]

/-- Switching a string mode flips its own switch: the other mode is off, or it would have taken the
symbol as it is. -/
theorem shift_dials_toggle {machine : Machine} {symbol : Int} {quote : Quote}
    (executed : machine.takesLiterally symbol = false)
    (stands : Instruction.ofSymbol? symbol = some (.toggle quote)) (drawn : Int × Int) :
    { machine with
        quoting := if machine.quoting = some quote then none else some quote }.dials =
      machine.dials.shift drawn (.toggle quote) := by
  have code := Instruction.symbol_of_toggle stands
  unfold takesLiterally at executed
  cases quoting : machine.quoting with
  | none => cases quote <;> simp [dials, Dials.shift, quoting]
  | some other =>
    rw [quoting] at executed
    cases other <;> cases quote <;> simp_all [dials, Dials.shift, Quote.symbol]

/-- What an instruction that completes does to the dials. -/
theorem dials_of_execute {machine after : Machine} {instruction : Instruction} {symbol : Int}
    (executed : machine.takesLiterally symbol = false)
    (stands : Instruction.ofSymbol? symbol = some instruction)
    (done : machine.execute instruction = .done after) :
    ∃ drawn ∈ Dials.directions, (instruction = .closeStack → 2 ≤ machine.dials.depth) ∧
      after.dials = machine.dials.shift drawn instruction := by
  cases executes_iff.mpr done with
  | face heading =>
    refine ⟨_, heading.mem_directions, by simp, ?_⟩
    cases heading <;> rfl
  | @wander heading compass drawn => exact ⟨_, heading.mem_directions, by simp, rfl⟩
  | reflect mirror =>
    refine ⟨_, machine.heading.mem_directions, by simp, ?_⟩
    cases facing : machine.heading <;> cases mirror <;>
      simp [dials, Dials.shift, facing, Heading.reflect, Heading.opposite, Heading.rows,
        Heading.columns]
  | toggle quote =>
    exact ⟨_, machine.heading.mem_directions, by simp, shift_dials_toggle executed stands _⟩
  | @closeStack tower merged =>
    have smaller := Tower.size_of_closeStack? merged
    refine ⟨_, machine.heading.mem_directions, fun _ => ?_, ?_⟩
    · show 2 ≤ machine.tower.size
      have below : 1 ≤ tower.size := Nat.succ_le_succ (Nat.zero_le _)
      omega
    · simp [dials, Dials.shift, smaller]
  | @reshape _ change active shape changed =>
    refine ⟨_, machine.heading.mem_directions, ?_, ?_⟩
    · rintro rfl
      cases shape
    · rw [Dials.shift_of_reshape? shape]
      rfl
  | write held prints taken =>
    refine ⟨_, machine.heading.mem_directions, ?_, ?_⟩
    · rintro rfl
      cases prints
    · cases prints <;> rfl
  | _ => exact ⟨_, machine.heading.mem_directions, by simp, rfl⟩

/-- A step that completes does to a machine what it does to the dials. -/
theorem follows_of_step {machine after : Machine} {symbol : Int}
    (done : machine.step symbol = .done after) :
    Dials.Follows symbol machine.dials after.dials := by
  unfold Dials.Follows
  rw [intercepts_dials]
  rcases machine.step_cases symbol with
    ⟨taken, stepped⟩ | ⟨instruction, executed, stands, stepped⟩ | ⟨_, _, stepped⟩
  · rw [stepped] at done
    cases done
    rw [if_pos taken]
    rfl
  · rw [stepped] at done
    rw [if_neg (by simp [executed])]
    obtain ⟨drawn, cardinal, above, shifted⟩ := dials_of_execute executed stands done
    exact ⟨instruction, drawn, stands, cardinal, above, shifted⟩
  · rw [stepped] at done
    cases done

/-- A turn that goes on does to a machine what it does to the dials. -/
theorem follows_of_act_next {machine after : Machine} (acted : machine.act = .next after) :
    Dials.Follows machine.symbol machine.dials after.dials := by
  rcases machine.act_cases with
    ⟨done, stepped, _, went⟩ | ⟨_, _, _, halted⟩ | ⟨_, _, _, failed⟩ | ⟨_, _, stuck⟩
  · rw [went] at acted
    cases acted
    have follows := follows_of_step stepped
    exact follows
  · rw [halted] at acted
    cases acted
  · rw [failed] at acted
    cases acted
  · rw [stuck] at acted
    cases acted

/-! ## The box -/

end Machine

@[simp] theorem CodeBox.height_set (box : CodeBox) (position : Position) (number : Number) :
    (box.set position number).height = box.height := by
  unfold set
  split <;> rfl

@[simp] theorem CodeBox.width_set (box : CodeBox) (position : Position) (number : Number) :
    (box.set position number).width = box.width := by
  unfold set
  split <;> rfl

namespace Machine

/-- Two machines have boxes of the same shape. -/
structure SameShape (before after : Machine) : Prop where
  height : after.box.height = before.box.height
  width : after.box.width = before.box.width

/-- No instruction changes the shape of the box, not even one that writes into it. -/
theorem sameShape_execute (machine : Machine) (instruction : Instruction) :
    machine.SameShape (machine.execute instruction).machine := by
  generalize ended : machine.execute instruction = outcome
  cases executes_iff.mpr ended with
  | store held => exact ⟨CodeBox.height_set _ _ _, CodeBox.width_set _ _ _⟩
  | _ => exact ⟨rfl, rfl⟩

/-- No step changes the shape of the box. -/
theorem sameShape_step (machine : Machine) (symbol : Int) :
    machine.SameShape (machine.step symbol).machine := by
  rcases machine.step_cases symbol with
    ⟨_, stepped⟩ | ⟨instruction, _, _, stepped⟩ | ⟨_, _, stepped⟩
  · rw [stepped]
    exact ⟨rfl, rfl⟩
  · rw [stepped]
    exact machine.sameShape_execute instruction
  · rw [stepped]
    exact ⟨rfl, rfl⟩

/-- Going around a side that is not empty ends on it. -/
theorem around_bounds (coordinate : Int) {side : Nat} (present : side ≠ 0) :
    0 ≤ around coordinate side ∧ around coordinate side < side := by
  rw [around_eq_emod]
  exact ⟨Int.emod_nonneg _ (by omega), Int.emod_lt_of_pos _ (by omega)⟩

/-- Moving on ends on the box, wherever it starts. -/
theorem contains_advance {machine : Machine} (tall : machine.box.height ≠ 0)
    (wide : machine.box.width ≠ 0) : machine.advance.box.Contains machine.advance.cursor :=
  ⟨around_bounds _ tall, around_bounds _ wide⟩

/-- A step that ends the program does nothing else. -/
theorem eq_of_step_halted {machine after : Machine} {symbol : Int}
    (running : machine.status = .running) (done : machine.step symbol = .done after)
    (stopped : after.status ≠ .running) : after = { machine with status := .halted } := by
  rcases machine.step_cases symbol with
    ⟨_, stepped⟩ | ⟨instruction, _, _, stepped⟩ | ⟨_, _, stepped⟩
  · rw [stepped] at done
    cases done
    exact absurd running stopped
  · rw [stepped] at done
    cases executes_iff.mpr done with
    | finish => rfl
    | _ => exact absurd running stopped
  · rw [stepped] at done
    cases done

/-! ## The invariant -/

/-- A machine as it is between calls and at the heads of its runs, on a box of given sides. -/
structure WellFormed (height width : Nat) (machine : Machine) : Prop where
  sound : machine.dials.Sound
  inside : machine.box.Contains machine.cursor
  tall : machine.box.height = height
  wide : machine.box.width = width
  dense : machine.box.cells.toArray.size = height * width

namespace WellFormed

variable {height width : Nat} {before after : Machine}

/-- A cursor on a box leaves it no empty side. -/
theorem sides (formed : before.WellFormed height width) :
    before.box.height ≠ 0 ∧ before.box.width ≠ 0 := by
  obtain ⟨⟨above, below⟩, left, right⟩ := formed.inside
  constructor <;> omega

/-- What the invariant needs of a change: the box keeps its shape, the dials stay sound, and the
cursor is on the box afterwards. -/
theorem change (formed : before.WellFormed height width) (same : before.SameShape after)
    (sound : after.dials.Sound) (inside : after.box.Contains after.cursor) :
    after.WellFormed height width where
  sound
  inside
  tall := same.height.trans formed.tall
  wide := same.width.trans formed.wide
  dense := by rw [Vector.size_toArray, same.height, same.width, formed.tall, formed.wide]

/-- A change that leaves the dials and the cursor as they are keeps the invariant. -/
theorem keep (formed : before.WellFormed height width) (same : before.SameShape after)
    (dials : after.dials = before.dials) (cursor : after.cursor = before.cursor) :
    after.WellFormed height width := by
  refine formed.change same (dials ▸ formed.sound) ?_
  unfold CodeBox.Contains
  rw [same.height, same.width, cursor]
  exact formed.inside

/-- The first machine on a box that has a cell. -/
theorem of_start {box : CodeBox} (tall : box.height ≠ 0) (wide : box.width ≠ 0)
    (compass : Compass) : (start box compass).WellFormed box.height box.width where
  sound := ⟨Nat.le_refl 1, Heading.right.mem_directions, by simp [dials, start]⟩
  inside := ⟨⟨Int.le_refl 0, by show (0 : Int) < box.height; omega⟩, Int.le_refl 0,
    by show (0 : Int) < box.width; omega⟩
  tall := rfl
  wide := rfl
  dense := Vector.size_toArray _

/-! ## Turns -/

/-- A step that fails keeps the invariant. -/
theorem failed {failure : Failure} {left : Machine} (formed : before.WellFormed height width)
    (failed : before.step before.symbol = .failed failure left) :
    { left.withLedger before.noted with status := .faulted }.WellFormed height width := by
  have spared := (spared_of_step_failed failed).faulted
  refine formed.keep ⟨?_, ?_⟩ ?_ spared.cursor
  · rw [spared.box]
  · rw [spared.box]
  · unfold dials
    rw [spared.depth, spared.heading, spared.quoting]

/-- Every turn keeps the invariant. The cursor may leave the box within a step, and moving on brings
it back; a step after which the machine does not move on has not moved it. -/
theorem turn (formed : before.WellFormed height width) (cancelled : Bool) :
    (before.turn cancelled).machine.WellFormed height width := by
  rcases before.turn_held_or_acts cancelled with ⟨_, held, _⟩ | ⟨running, _, _, acted⟩
  · rw [held]
    exact formed
  · rw [acted]
    have shape := before.sameShape_step before.symbol
    rcases before.act_cases with ⟨done, stepped, _, went⟩ | ⟨done, stepped, stopped, halted⟩ |
      ⟨failure, left, stepped, stopped⟩ | ⟨left, stepped, waits⟩
    · rw [went]
      rw [stepped] at shape
      obtain ⟨tall, wide⟩ := formed.sides
      have sound : done.dials.Sound := formed.sound.follow (follows_of_step stepped)
      refine formed.change ⟨shape.height, shape.width⟩ sound (contains_advance ?_ ?_)
      · exact shape.height ▸ tall
      · exact shape.width ▸ wide
    · rw [halted]
      rw [eq_of_step_halted running stepped stopped]
      exact formed.keep ⟨rfl, rfl⟩ rfl rfl
    · rw [stopped]
      exact formed.failed stepped
    · obtain ⟨_, _, _, _, _, rfl⟩ := exists_of_step_stuck stepped
      rw [waits]
      exact formed.keep ⟨rfl, rfl⟩ rfl rfl

/-! ## Calls -/

/-- Every adjustment keeps the invariant. -/
theorem adjust {adjustment : Adjustment} (formed : before.WellFormed height width)
    (made : before.adjust adjustment = .ok after) : after.WellFormed height width := by
  cases adjustment with
  | limit steps =>
    simp only [Machine.adjust] at made
    split at made <;> cases made
    exact formed.keep ⟨rfl, rfl⟩ rfl rfl
  | input reader =>
    cases made
    exact formed.keep ⟨rfl, rfl⟩ rfl rfl
  | missing name =>
    cases made
    exact formed.keep ⟨rfl, rfl⟩ rfl rfl
  | trace wanted =>
    cases wanted <;> cases made
    exact formed.keep ⟨rfl, rfl⟩ rfl rfl
  | push numbers =>
    cases made
    exact formed.keep ⟨rfl, rfl⟩ rfl rfl
  | compass compass =>
    cases made
    exact formed.keep ⟨rfl, rfl⟩ rfl rfl
  | output outlet =>
    cases made
    exact formed.keep ⟨rfl, rfl⟩ rfl rfl

/-- Every call keeps the invariant. -/
theorem call (formed : before.WellFormed height width) (called : Call before after) :
    after.WellFormed height width := by
  cases called with
  | @run last _ cancelled stop turns stopped =>
    have lastFormed : last.WellFormed height width :=
      turns.keeps (fun _ cancelled formed => formed.turn cancelled) formed
    have turned := lastFormed.turn cancelled
    rw [stopped] at turned
    exact turned
  | push number => exact formed.keep ⟨rfl, rfl⟩ rfl rfl
  | pop popped =>
    unfold pop? at popped
    split at popped <;> cases popped
    exact formed.keep ⟨rfl, rfl⟩ rfl rfl
  | popNothing empty => exact formed
  | adjust adjustments =>
    exact adjustAll_keeps (fun _ _ _ made formed => formed.adjust made) adjustments formed
  | pushInput reader => exact formed.keep ⟨rfl, rfl⟩ rfl rfl
  | pushMissing name => exact formed.keep ⟨rfl, rfl⟩ rfl rfl
  | flush => exact formed.keep ⟨rfl, rfl⟩ rfl rfl
  | poke depth place number =>
    refine formed.keep ⟨rfl, rfl⟩ ?_ rfl
    unfold dials
    rw [Tower.size_pokeAt]
  | write position number =>
    exact formed.keep ⟨CodeBox.height_set _ _ _, CodeBox.width_set _ _ _⟩ rfl rfl

end WellFormed

/-! ## What cannot go wrong -/

/-- The places where a machine could reach beyond its data: the last stack, the sides it divides by,
the cell under the cursor, and the table of instructions. -/
structure Guarded (machine : Machine) : Prop where
  top : machine.tower.toList[machine.tower.size - 1]? = some machine.tower.active
  tall : machine.box.height ≠ 0
  wide : machine.box.width ≠ 0
  fetch : ∃ bound : machine.box.index machine.cursor < machine.box.height * machine.box.width,
    machine.symbol = (machine.box.cells.get ⟨machine.box.index machine.cursor, bound⟩).toInt
  word : machine.box.height * machine.box.width < Nat.pow 2 63 →
    Number.wrapWord (machine.cursor.row * machine.box.width + machine.cursor.column) =
      machine.box.index machine.cursor
  beyond : ∀ margin, { machine with box := { machine.box with margin } }.symbol = machine.symbol
  table : ∀ instruction, Instruction.ofSymbol? machine.symbol = some instruction →
    0 ≤ machine.symbol ∧ machine.symbol < 128

/-- The active stack is the last of the stacks. -/
theorem getElem?_toList_active (tower : Tower) :
    tower.toList[tower.size - 1]? = some tower.active := by
  simp [Tower.toList, Tower.size]

/-- A cell under the cursor is fetched from the rectangle, and only from there. -/
theorem symbol_of_contains {machine : Machine} (inside : machine.box.Contains machine.cursor) :
    machine.symbol = (machine.box.cells.get
      ⟨machine.box.index machine.cursor, CodeBox.index_lt inside⟩).toInt := by
  unfold symbol CodeBox.get
  rw [dif_pos inside]

/-- The place of a cell of the rectangle fits in a machine word if the number of cells does. -/
theorem wrapWord_index {machine : Machine} (inside : machine.box.Contains machine.cursor)
    (fits : machine.box.height * machine.box.width < Nat.pow 2 63) :
    Number.wrapWord (machine.cursor.row * machine.box.width + machine.cursor.column) =
      machine.box.index machine.cursor := by
  have bound := CodeBox.index_lt inside
  obtain ⟨⟨above, _⟩, left, _⟩ := inside
  have place : machine.cursor.row * machine.box.width + machine.cursor.column =
      machine.box.index machine.cursor := by
    unfold CodeBox.index
    rw [Int.natCast_add, Int.natCast_mul, Int.toNat_of_nonneg above, Int.toNat_of_nonneg left]
  have twice : Nat.pow 2 64 = 2 * Nat.pow 2 63 := rfl
  rw [place]
  unfold Number.wrapWord
  exact Int.bmod_eq_of_le (by omega) (by omega)

/-- A well-formed machine is guarded. -/
theorem WellFormed.guarded {height width : Nat} {machine : Machine}
    (formed : machine.WellFormed height width) : machine.Guarded where
  top := getElem?_toList_active machine.tower
  tall := formed.sides.1
  wide := formed.sides.2
  fetch := ⟨CodeBox.index_lt formed.inside, symbol_of_contains formed.inside⟩
  word := wrapWord_index formed.inside
  beyond := by
    intro margin
    have inside : { machine with box := { machine.box with margin } }.box.Contains
        machine.cursor := formed.inside
    rw [symbol_of_contains formed.inside, symbol_of_contains inside]
    rfl
  table := fun _ stands => Instruction.symbol_bounds stands

/-- A machine that could be set up is well-formed. -/
theorem wellFormed_of_create {box : CodeBox} {compass : Compass} {adjustments : List Adjustment}
    {machine : Machine} (created : create (some box) compass adjustments = .ok machine) :
    machine.WellFormed box.height box.width := by
  unfold create at created
  dsimp only at created
  split at created
  · cases created
  · rename_i sides
    have first := WellFormed.of_start (not_or.mp sides).1 (not_or.mp sides).2 compass
    have adjusted := adjustAll_keeps (fun _ _ _ made formed => formed.adjust made) adjustments first
    split at created
    · rename_i made
      cases created
      rw [made] at adjusted
      exact adjusted
    · cases created

/-- Whatever calls are made on a machine, in whatever order, and whatever its program does to its
own box: between the calls and at every head of every run there is a stack, the step of the cursor
is one of four, at most one string mode is on, the cursor is on the box and the box has the shape it
began with. So no access of the machine can fail, and what lies beyond the edges of the box is never
executed. This holds although stacks, coordinates and switches are changed one by one, as the dials
show. -/
theorem reachable_machine_wellFormed {box : CodeBox} {compass : Compass}
    {adjustments : List Adjustment} {machine after : Machine}
    (created : create (some box) compass adjustments = .ok machine)
    (history : History machine after) :
    after.WellFormed box.height box.width ∧ after.Guarded ∧
      ∀ head, Turns after head →
        head.WellFormed box.height box.width ∧ head.Guarded ∧
          ∀ cancelled next, head.turn cancelled = .next next →
            Dials.Follows head.symbol head.dials next.dials := by
  have formed : after.WellFormed box.height box.width :=
    history.keeps (fun _ _ called formed => formed.call called) (wellFormed_of_create created)
  refine ⟨formed, formed.guarded, ?_⟩
  intro head turns
  have headFormed : head.WellFormed box.height box.width :=
    turns.keeps (fun _ cancelled formed => formed.turn cancelled) formed
  refine ⟨headFormed, headFormed.guarded, ?_⟩
  intro cancelled next turned
  obtain ⟨_, _, acted⟩ := act_of_turn_next turned
  exact follows_of_act_next acted

/-- A program that jumps off its box is brought back, and what is written where it had jumped to
does no harm. -/
theorem jumping_machine_wellFormed :
    ∃ machine stop after,
      create (some (.ofRows [['1', '0', '.']])) (.ofDraws [0]) [.limit 3, .push [5]] = .ok machine ∧
        machine.run false 4 = .stopped stop after ∧ after.cursor = ⟨0, 1⟩ ∧
        { after with box := after.box.set ⟨1, 0⟩ 5 }.WellFormed 1 3 := by
  obtain ⟨machine, created⟩ : ∃ machine,
      create (some (.ofRows [['1', '0', '.']])) (.ofDraws [0]) [.limit 3, .push [5]] =
        .ok machine := ⟨_, rfl⟩
  obtain ⟨stop, after, stopped, place⟩ : ∃ stop after,
      machine.run false 4 = .stopped stop after ∧ after.cursor = ⟨0, 1⟩ := by
    cases created
    exact ⟨_, _, rfl, rfl⟩
  have history : History machine { after with box := after.box.set ⟨1, 0⟩ 5 } :=
    .call (.call .start (call_of_stopped stopped)) (.write ⟨1, 0⟩ 5)
  obtain ⟨formed, _⟩ := reachable_machine_wellFormed created history
  exact ⟨machine, stop, after, created, stopped, place, formed⟩

end Machine

end Aquarium
