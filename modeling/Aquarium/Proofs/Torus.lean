import Aquarium.Proofs.Contexts
import Mathlib.Data.Int.ModEq
import Mathlib.Logic.Function.Iterate

/-!
# Motion on the torus

A code box is closed to a torus. `Position.moved` moves in the plane, which has no edges, and
`CodeBox.fold` brings a place of the plane to its cell, so any number of moves of the cursor is one
move in the plane that is folded at the end: `Machine.advance_iterate`. A single move computes with
machine words and corrects a remainder. That this is the folding is `Machine.cursor_advance`; it
takes a cursor with room for one more step, which every place has that a jump can set, because
numbers of that size are even.
-/

namespace Aquarium

/-! ## Places in the plane -/

namespace Position

/-- The place so many steps on, in a plane without edges. -/
def moved (position : Position) (heading : Heading) (steps : Int) : Position :=
  ⟨position.row + steps * heading.rows, position.column + steps * heading.columns⟩

@[simp] theorem moved_zero (position : Position) (heading : Heading) :
    position.moved heading 0 = position := by
  simp [moved]

theorem moved_moved (position : Position) (heading : Heading) (first second : Int) :
    (position.moved heading first).moved heading second =
      position.moved heading (first + second) := by
  simp only [moved, add_mul, add_assoc]

/-- Steps in the other direction are steps back. -/
theorem moved_opposite (position : Position) (heading : Heading) (steps : Int) :
    position.moved heading.opposite steps = position.moved heading (-steps) := by
  simp [moved]

end Position

namespace CodeBox

/-- The cell that a place of the plane falls on when the plane is closed to a torus. -/
def fold (box : CodeBox) (position : Position) : Position :=
  ⟨position.row % box.height, position.column % box.width⟩

theorem fold_of_contains {box : CodeBox} {position : Position} (inside : box.Contains position) :
    box.fold position = position := by
  obtain ⟨⟨above, below⟩, left, right⟩ := inside
  simp only [fold, Int.emod_eq_of_lt above below, Int.emod_eq_of_lt left right]

/-- Folding on the way makes no difference at the end. -/
theorem fold_moved_fold (box : CodeBox) (position : Position) (heading : Heading) (steps : Int) :
    box.fold ((box.fold position).moved heading steps) =
      box.fold (position.moved heading steps) := by
  simp only [fold, Position.moved, Int.emod_add_emod]

theorem contains_fold {box : CodeBox} (tall : 0 < box.height) (wide : 0 < box.width)
    (position : Position) : box.Contains (box.fold position) :=
  ⟨⟨Int.emod_nonneg _ (by omega), Int.emod_lt_of_pos _ (by omega)⟩,
    Int.emod_nonneg _ (by omega), Int.emod_lt_of_pos _ (by omega)⟩

/-- How many steps lead once around the torus. -/
def lap (box : CodeBox) : Heading → Nat
  | .right | .left => box.width
  | .up | .down => box.height

/-- A coordinate on a side comes back to itself exactly by whole laps. -/
theorem emod_add_eq_self_iff {coordinate : Int} {side : Nat} (lower : 0 ≤ coordinate)
    (upper : coordinate < side) (steps : Int) :
    (coordinate + steps) % side = coordinate ↔ (side : Int) ∣ steps := by
  have itself : coordinate % side = coordinate := Int.emod_eq_of_lt lower upper
  calc (coordinate + steps) % side = coordinate
      ↔ coordinate % side = (coordinate + steps) % side := by rw [itself, eq_comm]
    _ ↔ (side : Int) ∣ coordinate + steps - coordinate := Int.modEq_iff_dvd
    _ ↔ (side : Int) ∣ steps := by rw [add_sub_cancel_left]

/-- A cell is come back to exactly after whole laps. -/
theorem fold_moved_eq_self_iff {box : CodeBox} {position : Position}
    (inside : box.Contains position) (heading : Heading) (steps : Nat) :
    box.fold (position.moved heading steps) = position ↔ box.lap heading ∣ steps := by
  obtain ⟨⟨above, below⟩, left, right⟩ := inside
  have rows := emod_add_eq_self_iff above below (steps * heading.rows)
  have columns := emod_add_eq_self_iff left right (steps * heading.columns)
  have both : box.fold (position.moved heading steps) = position ↔
      (box.height : Int) ∣ steps * heading.rows ∧ (box.width : Int) ∣ steps * heading.columns := by
    rw [← rows, ← columns]
    cases position
    simp [fold, Position.moved]
  rw [both, ← Int.natCast_dvd_natCast]
  cases heading <;> simp [Heading.rows, Heading.columns, lap]

end CodeBox

/-! ## Room in the machine words -/

namespace Number

open Binary64

/-- Beyond 53 bits, the integer part of a binary64 number is even. -/
theorem two_dvd_truncateRat {value : Rat} (held : Representable value)
    (large : 2 ^ precision ≤ (truncateRat value).natAbs) : 2 ∣ (truncateRat value).natAbs := by
  obtain ⟨binary, -, aligned, -⟩ := held
  generalize value.den.log2 = exponent at binary
  have whole : (truncateRat value).natAbs = value.num.natAbs / 2 ^ exponent := by
    rw [truncateRat, Int.natAbs_tdiv, Int.natAbs_natCast, binary]
    rfl
  rw [whole] at large ⊢
  have reach : 2 ^ (precision + exponent) ≤ value.num.natAbs := by
    rw [Nat.pow_add]
    exact (Nat.le_div_iff_mul_le (Nat.two_pow_pos exponent)).mp large
  have bits : precision + exponent ≤ value.num.natAbs.log2 :=
    (Nat.le_log2 (by have := Nat.two_pow_pos (precision + exponent); omega)).mpr reach
  have step : 2 ^ exponent * 2 ∣ value.num.natAbs := by
    rw [← Nat.pow_succ]
    exact Nat.dvd_trans (Nat.pow_dvd_pow 2 (by omega)) aligned
  exact Nat.dvd_div_of_mul_dvd step

/-- Whether one step more, up or down, stays within the machine words. -/
def Roomy (coordinate : Int) : Prop :=
  leastWord < coordinate ∧ coordinate + 1 < -leastWord

/-- What a number is cut to leaves room, unless it is the smallest word, which stands for all numbers
that do not fit. -/
theorem roomy_toInt {number : Number} (above : leastWord < number.toInt) : Roomy number.toInt := by
  refine ⟨above, ?_⟩
  cases number with
  | notANumber | infinite => exact absurd above (lt_irrefl _)
  | negativeZero => decide
  | finite value held =>
    unfold toInt at above ⊢
    dsimp only at above ⊢
    split at above
    · rename_i within
      rw [if_pos within]
      -- The only word without room above it is odd.
      by_contra full
      have last : (truncateRat value).natAbs = 2 ^ 63 - 1 := by
        have power : Nat.pow 2 63 = 2 ^ 63 := rfl
        unfold leastWord at above within full
        omega
      have even := two_dvd_truncateRat held (by rw [last]; decide)
      rw [last] at even
      exact absurd even (by decide)
    · exact absurd above (lt_irrefl _)

/-- A coordinate on a side that is a machine word leaves room. -/
theorem roomy_of_lt {coordinate : Int} {side : Nat} (lower : 0 ≤ coordinate)
    (upper : coordinate < side) (fits : side < Nat.pow 2 63) : Roomy coordinate := by
  unfold Roomy leastWord
  omega

end Number

/-! ## The cursor -/

/-- A box that can be closed to a torus: it has cells, and its sides are machine words. -/
structure CodeBox.Closes (box : CodeBox) : Prop where
  tall : 0 < box.height
  wide : 0 < box.width
  heightFits : box.height < Nat.pow 2 63
  widthFits : box.width < Nat.pow 2 63

namespace Machine

open Number

/-- With room for it, a step is made without overflow. -/
theorem around_add {coordinate step : Int} (roomy : Roomy coordinate) (side : Nat)
    (back : -1 ≤ step) (forth : step ≤ 1) :
    around (coordinate + step) side = (coordinate + step) % side := by
  have word : wrapWord (coordinate + step) = coordinate + step := by
    obtain ⟨lower, upper⟩ := roomy
    have twice : Nat.pow 2 64 = 2 * Nat.pow 2 63 := rfl
    unfold leastWord at lower upper
    exact Int.bmod_eq_of_le (by omega) (by omega)
  rw [around_eq_emod, word]

/-- Moving on is a step in the plane, folded to the torus. -/
theorem cursor_advance (machine : Machine) (row : Roomy machine.cursor.row)
    (column : Roomy machine.cursor.column) :
    machine.advance.cursor = machine.box.fold (machine.cursor.moved machine.heading 1) := by
  have rows : -1 ≤ machine.heading.rows ∧ machine.heading.rows ≤ 1 := by
    cases machine.heading <;> decide
  have columns : -1 ≤ machine.heading.columns ∧ machine.heading.columns ≤ 1 := by
    cases machine.heading <;> decide
  simp only [advance, around_add row _ rows.1 rows.2, around_add column _ columns.1 columns.2,
    CodeBox.fold, Position.moved, one_mul]

/-- Moving on touches nothing but the cursor. -/
theorem advance_eq (machine : Machine) :
    machine.advance = { machine with cursor := machine.advance.cursor } := rfl

theorem cursor_advance_of_contains (machine : Machine) (closes : machine.box.Closes)
    (inside : machine.box.Contains machine.cursor) :
    machine.advance.cursor = machine.box.fold (machine.cursor.moved machine.heading 1) := by
  obtain ⟨⟨above, below⟩, left, right⟩ := inside
  exact machine.cursor_advance (roomy_of_lt above below closes.heightFits)
    (roomy_of_lt left right closes.widthFits)

/-- The first step may come from beyond the edges, all others are made on the box. -/
theorem advance_iterate_succ (machine : Machine) (closes : machine.box.Closes)
    (row : Roomy machine.cursor.row) (column : Roomy machine.cursor.column) (steps : Nat) :
    advance^[steps + 1] machine =
      { machine with
        cursor := machine.box.fold (machine.cursor.moved machine.heading (steps + 1 : Nat)) } := by
  induction steps with
  | zero => exact congrArg (fun cursor => { machine with cursor }) (machine.cursor_advance row column)
  | succ steps hypothesis =>
    -- Wherever the first step came from, the next one starts on the box.
    have reached := CodeBox.contains_fold closes.tall closes.wide
      (machine.cursor.moved machine.heading (steps + 1 : Nat))
    have further := cursor_advance_of_contains { machine with
      cursor := machine.box.fold (machine.cursor.moved machine.heading (steps + 1 : Nat)) }
      closes reached
    dsimp only at further
    rw [CodeBox.fold_moved_fold, Position.moved_moved] at further
    rw [Function.iterate_succ_apply', hypothesis, advance_eq, further]
    rfl

/-- On the box, any number of steps is one step in the plane that is folded at the end. -/
theorem advance_iterate (machine : Machine) (closes : machine.box.Closes)
    (inside : machine.box.Contains machine.cursor) (steps : Nat) :
    advance^[steps] machine =
      { machine with
        cursor := machine.box.fold (machine.cursor.moved machine.heading steps) } := by
  cases steps with
  | zero =>
    show machine = _
    rw [Int.natCast_zero, Position.moved_zero, CodeBox.fold_of_contains inside]
  | succ steps =>
    obtain ⟨⟨above, below⟩, left, right⟩ := inside
    exact machine.advance_iterate_succ closes (roomy_of_lt above below closes.heightFits)
      (roomy_of_lt left right closes.widthFits) steps

/-- A step and a step back. -/
theorem cursor_advance_opposite {machine : Machine} (closes : machine.box.Closes)
    (inside : machine.box.Contains machine.cursor) :
    ({ machine.advance with heading := machine.heading.opposite } : Machine).advance.cursor =
      machine.cursor := by
  have there := machine.cursor_advance_of_contains closes inside
  have within : machine.box.Contains machine.advance.cursor := by
    rw [there]
    exact CodeBox.contains_fold closes.tall closes.wide _
  have back := cursor_advance_of_contains
    { machine.advance with heading := machine.heading.opposite } closes within
  rw [back]
  show machine.box.fold (machine.advance.cursor.moved machine.heading.opposite 1) = _
  rw [there, Position.moved_opposite, CodeBox.fold_moved_fold, Position.moved_moved,
    Int.add_right_neg, Position.moved_zero, CodeBox.fold_of_contains inside]

/-! ## Turns that move -/

/-- A turn whose step completes moves on from where the step has left the cursor. -/
theorem exists_turn_of_step {machine after : Machine} {cancelled : Bool}
    (fetches : machine.Fetches cancelled) (stepped : machine.step machine.symbol = .done after)
    (running : after.status = .running) :
    ∃ next, machine.turn cancelled = .next next ∧ next.cursor = after.advance.cursor := by
  obtain ⟨going, unpolled, below⟩ := fetches
  have acted := machine.act_eq
  rw [stepped] at acted
  exact ⟨_, (turn_eq_act going unpolled below).trans (acted.trans (if_pos running)), rfl⟩

/-- How the cursor of a machine moves, in closed form. -/
structure Circles (machine : Machine) : Prop where
  jumped : ∀ row column : Number, leastWord < row.toInt → leastWord < column.toInt →
    ∀ steps : Nat, 0 < steps →
      advance^[steps] { machine with cursor := ⟨row.toInt, column.toInt⟩ } =
        { machine with
          cursor :=
            machine.box.fold (Position.moved ⟨row.toInt, column.toInt⟩ machine.heading steps) }
  onBox : ∀ steps : Nat, advance^[steps] machine =
    { machine with cursor := machine.box.fold (machine.cursor.moved machine.heading steps) }
  laps : ∀ steps : Nat, (advance^[steps] machine).cursor = machine.cursor ↔
    machine.box.lap machine.heading ∣ steps
  back : ({ machine.advance with heading := machine.heading.opposite } : Machine).advance.cursor =
    machine.cursor
  jump : ∀ cancelled row column rest, machine.Fetches cancelled → machine.Meets '.' →
    machine.values = column :: row :: rest → leastWord < row.toInt → leastWord < column.toInt →
    ∃ next, machine.turn cancelled = .next next ∧ next.cursor =
      machine.box.fold (Position.moved ⟨row.toInt, column.toInt⟩ machine.heading 1)
  skip : ∀ cancelled, machine.Fetches cancelled → machine.Meets '!' →
    ∃ next, machine.turn cancelled = .next next ∧
      next.cursor = machine.box.fold (machine.cursor.moved machine.heading 2)
  skipUnless : ∀ cancelled condition rest, machine.Fetches cancelled → machine.Meets '?' →
    machine.values = condition :: rest →
    ∃ next, machine.turn cancelled = .next next ∧ next.cursor =
      machine.box.fold (machine.cursor.moved machine.heading (if condition.isZero then 2 else 1))

theorem exists_turn_of_jump {machine : Machine} {cancelled : Bool} {row column : Number}
    {rest : List Number} (fetches : machine.Fetches cancelled) (meets : machine.Meets '.')
    (held : machine.values = column :: row :: rest) (below : leastWord < row.toInt)
    (left : leastWord < column.toInt) :
    ∃ next, machine.turn cancelled = .next next ∧ next.cursor =
      machine.box.fold (Position.moved ⟨row.toInt, column.toInt⟩ machine.heading 1) := by
  have stepped := (step_of_meets .jump (by simp) meets).trans (execute_of_executes (.jump held))
  obtain ⟨next, turned, arrived⟩ := exists_turn_of_step fetches stepped fetches.1
  refine ⟨next, turned, arrived.trans ?_⟩
  exact cursor_advance { machine.withValues rest with cursor := ⟨row.toInt, column.toInt⟩ }
    (roomy_toInt below) (roomy_toInt left)

theorem exists_turn_of_skip {machine : Machine} {cancelled : Bool} (closes : machine.box.Closes)
    (inside : machine.box.Contains machine.cursor) (fetches : machine.Fetches cancelled)
    (meets : machine.Meets '!') :
    ∃ next, machine.turn cancelled = .next next ∧
      next.cursor = machine.box.fold (machine.cursor.moved machine.heading 2) := by
  have stepped := (step_of_meets .skip (by simp) meets).trans (execute_of_executes .skip)
  obtain ⟨next, turned, arrived⟩ := exists_turn_of_step fetches stepped fetches.1
  refine ⟨next, turned, arrived.trans ?_⟩
  exact congrArg cursor (machine.advance_iterate closes inside 2)

theorem exists_turn_of_skipUnless {machine : Machine} {cancelled : Bool} {condition : Number}
    {rest : List Number} (closes : machine.box.Closes)
    (inside : machine.box.Contains machine.cursor) (fetches : machine.Fetches cancelled)
    (meets : machine.Meets '?') (held : machine.values = condition :: rest) :
    ∃ next, machine.turn cancelled = .next next ∧ next.cursor =
      machine.box.fold
        (machine.cursor.moved machine.heading (if condition.isZero then 2 else 1)) := by
  have stepped := step_of_meets .skipUnless (by simp) meets
  cases test : condition.isZero with
  | true =>
    rw [execute_of_executes (.skipped held test)] at stepped
    obtain ⟨next, turned, arrived⟩ := exists_turn_of_step fetches stepped fetches.1
    refine ⟨next, turned, arrived.trans ?_⟩
    exact congrArg cursor ((machine.withValues rest).advance_iterate closes inside 2)
  | false =>
    rw [execute_of_executes (.notSkipped held test)] at stepped
    obtain ⟨next, turned, arrived⟩ := exists_turn_of_step fetches stepped fetches.1
    refine ⟨next, turned, arrived.trans ?_⟩
    exact congrArg cursor ((machine.withValues rest).advance_iterate closes inside 1)

/-- The cursor moves as in a plane that is folded to a torus. From a place on the box, or from any
place that a jump can set but for the smallest words, so many steps lead to the cell that the same
steps in the plane lead to. So a jump goes on one step behind its target, a trampoline skips one cell
also over an edge, a lap leads back and nothing shorter does, and a step back undoes a step. -/
theorem cursor_circles_torus {machine : Machine} (closes : machine.box.Closes)
    (inside : machine.box.Contains machine.cursor) : machine.Circles := by
  constructor
  case jumped =>
    intro row column below left steps some
    obtain ⟨steps, rfl⟩ := Nat.exists_eq_succ_of_ne_zero (Nat.ne_of_gt some)
    exact advance_iterate_succ { machine with cursor := ⟨row.toInt, column.toInt⟩ } closes
      (roomy_toInt below) (roomy_toInt left) steps
  case onBox => exact machine.advance_iterate closes inside
  case laps =>
    intro steps
    rw [machine.advance_iterate closes inside]
    exact CodeBox.fold_moved_eq_self_iff inside machine.heading steps
  case back => exact cursor_advance_opposite closes inside
  case jump =>
    intro cancelled row column rest fetches meets held below left
    exact exists_turn_of_jump fetches meets held below left
  case skip => exact fun cancelled => exists_turn_of_skip closes inside
  case skipUnless =>
    intro cancelled condition rest fetches meets held
    exact exists_turn_of_skipUnless closes inside fetches meets held

/-- Heading left on two rows of three cells, three steps lead back and two do not, and a jump to row
`2 ^ 62` and column -7 goes on with the second cell of the first row. -/
theorem jump_far_beyond_edges :
    ∃ machine next : Machine,
      machine = { start (.ofRows [".ab".toList, "cde".toList]) (.ofDraws [0]) with
        heading := .left, tower := ⟨⟨[.ofInt (-7), .ofInt (2 ^ 62)], none⟩, []⟩ } ∧
      (advance^[3] machine).cursor = machine.cursor ∧
      (advance^[2] machine).cursor ≠ machine.cursor ∧
      machine.turn false = .next next ∧ next.cursor = ⟨0, 1⟩ := by
  generalize known : { start (.ofRows [".ab".toList, "cde".toList]) (.ofDraws [0]) with
    heading := .left, tower := ⟨⟨[.ofInt (-7), .ofInt (2 ^ 62)], none⟩, []⟩ } = machine
  have closes : machine.box.Closes := by
    subst known
    exact ⟨by decide, by decide, by decide, by decide⟩
  obtain ⟨inside, fetches, meets, held, lap, low, left⟩ :
      machine.box.Contains machine.cursor ∧ machine.Fetches false ∧ machine.Meets '.' ∧
        machine.values = [.ofInt (-7), .ofInt (2 ^ 62)] ∧
        machine.box.lap machine.heading = 3 ∧
        leastWord < (Number.ofInt (2 ^ 62)).toInt ∧ leastWord < (Number.ofInt (-7)).toInt := by
    subst known
    decide +kernel
  have target : machine.box.fold (Position.moved
      ⟨(Number.ofInt (2 ^ 62)).toInt, (Number.ofInt (-7)).toInt⟩ machine.heading 1) = ⟨0, 1⟩ := by
    subst known
    decide +kernel
  have circles := cursor_circles_torus closes inside
  obtain ⟨next, turned, arrived⟩ := circles.jump false _ _ [] fetches meets held low left
  refine ⟨machine, next, rfl, ?_, ?_, turned, arrived.trans target⟩
  · rw [circles.laps, lap]
  · rw [ne_eq, circles.laps, lap]
    decide

end Machine

end Aquarium
