import Aquarium.Proofs.Contexts
import Aquarium.Proofs.WellFormed

/-!
# The box as a store

A box keeps its cells in two ways: those of the rectangle row after row in one vector, those beyond
it as a list of places with their numbers. `CodeBox.get_set` says that together they are one map of
the plane, in which no two places share a cell, and `CodeBox.get_setAll` that any number of writes
leaves the last one at every place. The same holds of what a program stores: `box_runUnder` says
that the stores of a run are all that happens to its box.
-/

namespace Aquarium

/-- The number that was written last at a place, of writes in order. -/
def lastWrite? (writes : List (Position × Number)) (position : Position) : Option Number :=
  (writes.reverse.find? fun write => write.1 = position).map Prod.snd

theorem lastWrite?_cons (write : Position × Number) (writes : List (Position × Number))
    (position : Position) :
    lastWrite? (write :: writes) position =
      (lastWrite? writes position).or (if write.1 = position then some write.2 else none) := by
  unfold lastWrite?
  rw [List.reverse_cons, List.find?_append]
  cases writes.reverse.find? fun write => write.1 = position with
  | some found => rfl
  | none =>
    by_cases same : write.1 = position
    · simp [same]
    · simp [same]

/-- Nothing was written last where nothing was written. -/
theorem lastWrite?_eq_none {writes : List (Position × Number)} {position : Position}
    (elsewhere : ∀ write ∈ writes, write.1 ≠ position) : lastWrite? writes position = none := by
  simpa [lastWrite?] using fun position number member => elsewhere (position, number) member

/-- The number written last at a place is the one written there, if it was no other. -/
theorem lastWrite?_eq_some {writes : List (Position × Number)} {position : Position}
    {number : Number} (written : (position, number) ∈ writes)
    (only : ∀ other, (position, other) ∈ writes → other = number) :
    lastWrite? writes position = some number := by
  unfold lastWrite?
  cases found : writes.reverse.find? fun write => write.1 = position with
  | none =>
    have absent := List.find?_eq_none.mp found _ (List.mem_reverse.mpr written)
    exact absurd (decide_eq_true rfl) absent
  | some write =>
    have here : write.1 = position := by simpa using List.find?_some found
    have member := List.mem_reverse.mp (List.mem_of_find?_eq_some found)
    subst here
    exact congrArg some (only write.2 member)

/-! ## The margin -/

namespace Position

theorem Precedes.ne {left right : Position} (before : left.Precedes right) : left ≠ right := by
  rintro rfl
  unfold Precedes at before
  omega

/-- Of two places at most one precedes the other. -/
theorem Precedes.not_precedes {left right : Position} (before : left.Precedes right) :
    ¬ right.Precedes left := by
  unfold Precedes at *
  omega

/-- Two places neither of which precedes the other are the same. -/
theorem eq_of_not_precedes {left right : Position} (notBefore : ¬ left.Precedes right)
    (notAfter : ¬ right.Precedes left) : left = right :=
  Decidable.byContradiction fun different =>
    notAfter (precedes_of_not_precedes different notBefore)

end Position

namespace Margin

/-- What is found at a place after a write: the number, if the place is the written one. -/
theorem find?_write (position other : Position) (number : Number)
    (entries : List (Position × Number)) :
    (write position number entries).find? (fun entry => entry.1 = other) =
      if other = position then some (position, number)
      else entries.find? fun entry => entry.1 = other := by
  induction entries with
  | nil => by_cases same : position = other <;> simp [write, same, eq_comm]
  | cons entry rest hypothesis =>
    unfold write
    split
    · rename_i before
      have different : entry.1 ≠ position := before.ne
      rw [List.find?_cons, List.find?_cons, hypothesis]
      by_cases same : other = position <;> grind
    · split <;> grind

theorem get?_set (margin : Margin) (position other : Position) (number : Number) :
    (margin.set position number).get? other =
      if other = position then some number else margin.get? other := by
  unfold get? set
  rw [find?_write]
  split <;> rfl

/-- A place has been written if and only if there is a number to be read at it. -/
theorem mem_positions_iff (margin : Margin) (position : Position) :
    position ∈ margin.positions ↔ (margin.get? position).isSome = true := by
  simp [positions, get?]

theorem mem_positions_set (margin : Margin) (position other : Position) (number : Number) :
    other ∈ (margin.set position number).positions ↔
      other = position ∨ other ∈ margin.positions := by
  rw [mem_positions_iff, mem_positions_iff, get?_set]
  by_cases same : other = position <;> simp [same]

end Margin

/-! ## The plane -/

namespace CodeBox

/-- No two places of the rectangle share a cell. -/
theorem index_injective {box : CodeBox} {left right : Position} (inside : box.Contains left)
    (otherInside : box.Contains right) (same : box.index left = box.index right) :
    left = right := by
  obtain ⟨⟨above, _⟩, before, within⟩ := inside
  obtain ⟨⟨otherAbove, _⟩, otherBefore, otherWithin⟩ := otherInside
  have wide : 0 < box.width := by omega
  have quotient : ∀ row column : Nat, column < box.width →
      (row * box.width + column) / box.width = row ∧
        (row * box.width + column) % box.width = column := by
    intro row column small
    rw [Nat.mul_comm, Nat.mul_add_div wide, Nat.div_eq_of_lt small, Nat.mul_add_mod,
      Nat.mod_eq_of_lt small]
    exact ⟨rfl, rfl⟩
  obtain ⟨row, column⟩ := quotient left.row.toNat left.column.toNat (by omega)
  obtain ⟨otherRow, otherColumn⟩ := quotient right.row.toNat right.column.toNat (by omega)
  unfold index at same
  rw [same] at row column
  cases left
  cases right
  simp only [Position.mk.injEq] at *
  omega

theorem set_of_contains {box : CodeBox} {position : Position} (inside : box.Contains position)
    (number : Number) :
    box.set position number =
      { box with cells := box.cells.set (box.index position) number (index_lt inside) } :=
  dif_pos inside

theorem set_of_not_contains {box : CodeBox} {position : Position}
    (beyond : ¬ box.Contains position) (number : Number) :
    box.set position number = { box with margin := box.margin.set position number } :=
  dif_neg beyond

theorem get_of_contains {box : CodeBox} {position : Position} (inside : box.Contains position) :
    box.get position = box.cells.get ⟨box.index position, index_lt inside⟩ :=
  dif_pos inside

theorem get_of_not_contains {box : CodeBox} {position : Position}
    (beyond : ¬ box.Contains position) :
    box.get position = (box.margin.get? position).getD 0 :=
  dif_neg beyond

/-- A write changes the cell that it is at, inside the rectangle or beyond it, and no other. -/
theorem get_set (box : CodeBox) (position other : Position) (number : Number) :
    (box.set position number).get other = if other = position then number else box.get other := by
  by_cases inside : box.Contains position <;> by_cases otherInside : box.Contains other
  · have bound := index_lt inside
    have otherBound := index_lt otherInside
    rw [set_of_contains inside, get_of_contains otherInside, get_of_contains (by exact otherInside)]
    show (box.cells.set (box.index position) number)[box.index other] =
      if other = position then number else box.cells[box.index other]
    rw [Vector.getElem_set]
    by_cases same : other = position
    · rw [if_pos same, if_pos (by rw [same])]
    · rw [if_neg same, if_neg]
      exact fun clash => same (index_injective inside otherInside clash).symm
  · have different : other ≠ position := fun same => otherInside (same ▸ inside)
    rw [set_of_contains inside, if_neg different, get_of_not_contains otherInside]
    exact get_of_not_contains (by exact otherInside)
  · have different : other ≠ position := fun same => inside (same ▸ otherInside)
    rw [set_of_not_contains inside, if_neg different, get_of_contains otherInside]
    exact get_of_contains (by exact otherInside)
  · rw [set_of_not_contains inside, get_of_not_contains otherInside,
      get_of_not_contains (by exact otherInside)]
    rw [Margin.get?_set]
    split <;> rfl

/-- A write does not move the edges. -/
theorem contains_set (box : CodeBox) (position other : Position) (number : Number) :
    (box.set position number).Contains other ↔ box.Contains other := by
  simp only [Contains, height_set, width_set]

/-- A write beyond the edges is remembered as such. -/
theorem mem_outside_set (box : CodeBox) (position other : Position) (number : Number) :
    other ∈ (box.set position number).outside ↔
      ¬ box.Contains position ∧ other = position ∨ other ∈ box.outside := by
  by_cases inside : box.Contains position
  · rw [set_of_contains inside]
    simp [inside, outside]
  · rw [set_of_not_contains inside]
    simp [inside, outside, Margin.mem_positions_set]

/-- The places written beyond the edges are listed in order. -/
theorem pairwise_outside (box : CodeBox) : box.outside.Pairwise Position.Precedes :=
  List.pairwise_map.mpr box.margin.ordered

/-- There is one way to put the places written beyond the edges in order, whichever order they are
found in. -/
theorem eq_outside_of_sorted {box : CodeBox} {points sorted : List Position} (once : points.Nodup)
    (same : ∀ position, position ∈ points ↔ position ∈ box.outside) (moved : sorted.Perm points)
    (inOrder : sorted.Pairwise fun earlier later => ¬ later.Precedes earlier) :
    sorted = box.outside := by
  have listed := box.pairwise_outside
  have distinct : box.outside.Nodup := listed.imp Position.Precedes.ne
  have arranged : sorted.Perm box.outside :=
    moved.trans ((List.perm_ext_iff_of_nodup once distinct).mpr same)
  exact arranged.eq_of_pairwise
    (fun _ _ _ _ notAfter notBefore => Position.eq_of_not_precedes notBefore notAfter)
    inOrder (listed.imp Position.Precedes.not_precedes)

/-- A row of the rectangle is a stretch of the vector that the cells are kept in. -/
theorem rowCells_eq_slice {box : CodeBox} {row : Nat} (within : row < box.height) :
    box.rowCells row = (box.cells.toList.drop (row * box.width)).take box.width := by
  have enough : row * box.width + box.width ≤ box.height * box.width := by
    rw [← Nat.succ_mul]
    exact Nat.mul_le_mul_right _ within
  apply List.ext_getElem
  · simp only [rowCells, List.length_map, List.length_range, List.length_take, List.length_drop,
      Vector.length_toList]
    omega
  · intro column inRow _
    have small : column < box.width := by simpa [rowCells] using inRow
    have inside : box.Contains ⟨row, column⟩ :=
      ⟨⟨Int.natCast_nonneg _, Int.ofNat_lt.mpr within⟩, Int.natCast_nonneg _,
        Int.ofNat_lt.mpr small⟩
    simp only [rowCells, List.getElem_map, List.getElem_range, List.getElem_take,
      List.getElem_drop, Vector.getElem_toList]
    exact get_of_contains inside

/-- The stretch of a row begins, goes on and ends at places that fit in a machine word if the number
of cells does. -/
theorem wrapWord_of_row {box : CodeBox} (fits : box.height * box.width < Nat.pow 2 63)
    {row column : Nat} (within : row < box.height) (upTo : column ≤ box.width) :
    Number.wrapWord (row * box.width + column) = row * box.width + column := by
  have enough : row * box.width + box.width ≤ box.height * box.width := by
    rw [← Nat.succ_mul]
    exact Nat.mul_le_mul_right _ within
  have twice : Nat.pow 2 64 = 2 * Nat.pow 2 63 := rfl
  have place : (row * box.width + column : Int) = (row * box.width + column : Nat) := by
    rw [Int.natCast_add, Int.natCast_mul]
  rw [place]
  unfold Number.wrapWord
  exact Int.bmod_eq_of_le (by omega) (by omega)

/-! ## Writes -/

/-- The box with any number of cells written, one after another. -/
def setAll (box : CodeBox) (writes : List (Position × Number)) : CodeBox :=
  writes.foldl (fun box write => box.set write.1 write.2) box

theorem setAll_append (box : CodeBox) (earlier later : List (Position × Number)) :
    box.setAll (earlier ++ later) = (box.setAll earlier).setAll later :=
  List.foldl_append

/-- Every cell holds what was written last at its place, and what it held before if nothing was. -/
theorem get_setAll (box : CodeBox) (writes : List (Position × Number)) (position : Position) :
    (box.setAll writes).get position = (lastWrite? writes position).getD (box.get position) := by
  induction writes generalizing box with
  | nil => rfl
  | cons write writes hypothesis =>
    rw [setAll, List.foldl_cons, ← setAll, hypothesis, lastWrite?_cons, get_set]
    cases lastWrite? writes position with
    | some number => rfl
    | none =>
      by_cases here : write.1 = position
      · simp [here]
      · simp [here, Ne.symm here]

/-- Writes do not move the edges. -/
theorem sides_setAll (box : CodeBox) (writes : List (Position × Number)) :
    (box.setAll writes).height = box.height ∧ (box.setAll writes).width = box.width := by
  induction writes generalizing box with
  | nil => exact ⟨rfl, rfl⟩
  | cons write writes hypothesis =>
    obtain ⟨height, width⟩ := hypothesis (box.set write.1 write.2)
    exact ⟨height.trans (box.height_set _ _), width.trans (box.width_set _ _)⟩

/-- The places listed beyond the edges are those that were written there. -/
theorem mem_outside_setAll (box : CodeBox) (writes : List (Position × Number))
    (position : Position) :
    position ∈ (box.setAll writes).outside ↔
      ¬ box.Contains position ∧ (∃ number, (position, number) ∈ writes) ∨
        position ∈ box.outside := by
  induction writes generalizing box with
  | nil => simp [setAll]
  | cons write writes hypothesis =>
    rw [setAll, List.foldl_cons, ← setAll, hypothesis, contains_set, mem_outside_set]
    constructor
    · rintro (⟨beyond, number, member⟩ | ⟨beyond, rfl⟩ | before)
      · exact .inl ⟨beyond, number, List.mem_cons_of_mem _ member⟩
      · exact .inl ⟨beyond, write.2, List.mem_cons_self⟩
      · exact .inr before
    · rintro (⟨beyond, number, member⟩ | before)
      · rcases List.mem_cons.mp member with rfl | later
        · exact .inr (.inl ⟨beyond, rfl⟩)
        · exact .inl ⟨beyond, number, later⟩
      · exact .inr (.inr before)

/-- What can be read of a box of some height and width, by what has been written into it. -/
structure Remembers (box : CodeBox) (height width : Int) (writes : List (Position × Number)) :
    Prop where
  get : ∀ position, box.get position = (lastWrite? writes position).getD 0
  row : ∀ row, box.row? row =
    if 0 ≤ row ∧ row < height then
      some ((List.range width.toNat).map fun column : Nat => box.get ⟨row, column⟩)
    else none
  slice : ∀ row : Nat, row < height → box.row? row =
    some ((box.cells.toList.drop (row * width.toNat)).take width.toNat)
  words : height.toNat * width.toNat < Nat.pow 2 63 →
    ∀ row column : Nat, row < height → column ≤ width.toNat →
      Number.wrapWord (row * width.toNat + column) = row * width.toNat + column
  mem_outside : ∀ position, position ∈ box.outside ↔
    ¬ ((0 ≤ position.row ∧ position.row < height) ∧
        0 ≤ position.column ∧ position.column < width) ∧
      ∃ number, (position, number) ∈ writes
  ordered : box.outside.Pairwise Position.Precedes
  anyOrder : ∀ points sorted : List Position, points.Nodup →
    (∀ position, position ∈ points ↔ position ∈ box.outside) → sorted.Perm points →
    sorted.Pairwise (fun earlier later => ¬ later.Precedes earlier) → sorted = box.outside

/-- A blank box holds 0 in every cell and has no place written beyond its edges. -/
theorem get_blank (height width : Int) (position : Position) :
    (blank height width).get position = 0 := by
  by_cases inside : (blank height width).Contains position
  · rw [get_of_contains inside]
    exact Vector.getElem_replicate _
  · rw [get_of_not_contains inside]
    rfl

/-- A blank box remembers every write. -/
theorem remembers_setAll_blank (height width : Int) (writes : List (Position × Number)) :
    ((blank height width).setAll writes).Remembers height width writes := by
  obtain ⟨tall, wide⟩ : ((blank height width).setAll writes).height = height.toNat ∧
      ((blank height width).setAll writes).width = width.toNat :=
    (blank height width).sides_setAll writes
  refine ⟨?get, ?row, ?slice, ?words, ?mem_outside, pairwise_outside _, ?anyOrder⟩
  case get =>
    intro position
    rw [get_setAll, get_blank]
  case row =>
    intro row
    unfold row? rowCells
    rw [tall, wide]
    by_cases within : 0 ≤ row ∧ row < height
    · rw [if_pos within, if_pos (by omega), Int.toNat_of_nonneg within.1]
    · rw [if_neg within, if_neg (by omega)]
  case slice =>
    intro row within
    unfold row?
    rw [if_pos (by omega), Int.toNat_natCast, rowCells_eq_slice (by omega), ← wide]
  case words =>
    intro fits row column within upTo
    rw [← tall, ← wide] at fits
    rw [← wide] at upTo ⊢
    exact wrapWord_of_row fits (by omega) upTo
  case mem_outside =>
    intro position
    have empty : position ∉ (blank height width).outside := List.not_mem_nil
    have edges : (blank height width).Contains position ↔
        (0 ≤ position.row ∧ position.row < height) ∧
          0 ≤ position.column ∧ position.column < width := by
      simp only [Contains, blank]
      omega
    rw [mem_outside_setAll, edges]
    simp [empty]
  case anyOrder =>
    intro points sorted once same moved inOrder
    exact eq_outside_of_sorted once same moved inOrder

end CodeBox

/-! ## The stores of a program -/

namespace Machine

/-- The write that the step at a head makes, if it makes one. -/
def store? (machine : Machine) : Option (Position × Number) :=
  match machine.values with
  | row :: column :: number :: _ =>
    if machine.Meets 'p' then some (⟨row.toInt, column.toInt⟩, number) else none
  | _ => none

/-- The writes that a run makes, in order. -/
def stores (contexts : List Bool) (machine : Machine) : List (Position × Number) :=
  machine.logged store? contexts

theorem store?_of_not_meets {machine : Machine} (other : ¬ machine.Meets 'p') :
    machine.store? = none := by
  unfold store?
  split <;> simp [other]

/-- A step makes its write in the box and does nothing else to it. -/
theorem box_step (machine : Machine) :
    (machine.step machine.symbol).machine.box = machine.box.setAll machine.store?.toList := by
  by_cases meets : machine.Meets 'p'
  · rw [step_of_meets .store (by simp) meets]
    rcases held : machine.values with _ | ⟨row, _ | ⟨column, _ | ⟨number, rest⟩⟩⟩ <;>
      simp [execute, store?, held, meets, underflow, Outcome.machine, CodeBox.setAll]
  · rw [store?_of_not_meets meets]
    rcases machine.step_cases machine.symbol with
      ⟨_, pushed⟩ | ⟨instruction, read, found, executed⟩ | ⟨_, _, invalid⟩
    · rw [pushed]
      rfl
    · rw [executed]
      generalize ended : machine.execute instruction = outcome
      cases executes_iff.mpr ended with
      | store held => exact absurd ((machine.meets_iff .store (by simp)).mpr ⟨read, found⟩) meets
      | _ => rfl
    · rw [invalid]
      rfl

theorem box_act (machine : Machine) :
    machine.act.machine.box = machine.box.setAll machine.store?.toList := by
  rw [← box_step]
  exact view_act (fun _ _ _ _ => rfl) machine

/-- The stores of a run are all that happens to the box. -/
theorem box_runUnder (machine : Machine) (contexts : List Bool) :
    (machine.runUnder contexts).machine.box = machine.box.setAll (machine.stores contexts) := by
  refine executed_induction (motive := fun before heads final =>
    final.box = before.box.setAll (heads.filterMap store?)) ?idle ?acts machine contexts
  case idle =>
    intro machine
    rfl
  case acts =>
    intro machine heads final written
    rw [written, box_act, ← CodeBox.setAll_append, List.filterMap_cons]
    cases machine.store? <;> rfl

/-- A program that stores a number goes on, with one cell of its box changed. -/
theorem act_of_store {machine : Machine} {row column number : Number} {rest : List Number}
    (running : machine.status = .running) (meets : machine.Meets 'p')
    (held : machine.values = row :: column :: number :: rest) :
    ∃ after, machine.act = .next after ∧
      after.box = machine.box.set ⟨row.toInt, column.toInt⟩ number := by
  have stepped :=
    (step_of_meets .store (by simp) meets).trans (execute_of_executes (.store held))
  have acted := machine.act_eq
  rw [stepped] at acted
  exact ⟨_, acted.trans (if_pos running), rfl⟩

/-- A program that fetches a number finds what the box holds. -/
theorem step_of_fetch {machine : Machine} {row column : Number} {rest : List Number}
    (meets : machine.Meets 'g') (held : machine.values = row :: column :: rest) :
    machine.step machine.symbol =
      .done (machine.withValues (machine.box.get ⟨row.toInt, column.toInt⟩ :: rest)) := by
  rw [step_of_meets .fetch (by simp) meets]
  exact execute_of_executes (.fetch held)

/-! ## Main statement -/

/-- A box is an exact store of numbers. A blank one that has been written to, anywhere and any
number of times, reads as `Remembers` says. A run changes no cell but by what it stores. A number
stored by a program leaves every other cell as it is, and is fetched again from the same cell,
whatever else is executed before, as long as nothing is stored there. -/
theorem box_is_exact_store :
    (∀ height width writes,
      ((CodeBox.blank height width).setAll writes).Remembers height width writes) ∧
    (∀ (machine : Machine) (contexts : List Bool) (position : Position),
      (machine.runUnder contexts).machine.box.get position =
        (lastWrite? (machine.stores contexts) position).getD (machine.box.get position)) ∧
    ∀ (machine : Machine) (row column number : Number) (rest : List Number),
      machine.status = .running → machine.Meets 'p' →
      machine.values = row :: column :: number :: rest →
      ∃ after, machine.act = .next after ∧
        after.box.get ⟨row.toInt, column.toInt⟩ = number ∧
        (∀ other, other ≠ ⟨row.toInt, column.toInt⟩ →
          after.box.get other = machine.box.get other) ∧
        ∀ contexts head otherRow otherColumn others, after.runUnder contexts = .going head →
          (∀ write ∈ after.stores contexts, write.1 ≠ ⟨row.toInt, column.toInt⟩) →
          head.Meets 'g' → head.values = otherRow :: otherColumn :: others →
          otherRow.toInt = row.toInt → otherColumn.toInt = column.toInt →
          head.step head.symbol = .done (head.withValues (number :: others)) := by
  have runs : ∀ (machine : Machine) (contexts : List Bool) (position : Position),
      (machine.runUnder contexts).machine.box.get position =
        (lastWrite? (machine.stores contexts) position).getD (machine.box.get position) := by
    intro machine contexts position
    rw [box_runUnder, CodeBox.get_setAll]
  refine ⟨CodeBox.remembers_setAll_blank, runs, ?_⟩
  intro machine row column number rest running meets held
  obtain ⟨after, acted, written⟩ := act_of_store running meets held
  have here : after.box.get ⟨row.toInt, column.toInt⟩ = number := by
    rw [written, CodeBox.get_set, if_pos rfl]
  refine ⟨after, acted, here, ?_, ?_⟩
  · intro other elsewhere
    rw [written, CodeBox.get_set, if_neg elsewhere]
  · intro contexts head otherRow otherColumn others going untouched fetches top sameRow sameColumn
    have kept : head.box.get ⟨row.toInt, column.toInt⟩ = number := by
      have read := runs after contexts ⟨row.toInt, column.toInt⟩
      rw [going, lastWrite?_eq_none untouched, Option.getD_none, here] at read
      exact read
    rw [step_of_fetch fetches top, sameRow, sameColumn, kept]

/-- A program that stores a number beyond the right edge, at a row that is not whole, and fetches it
again. -/
theorem stored_number_fetched_again :
    ∃ storing after : Machine,
      storing = { start (.ofRows ["pg;".toList]) (.ofDraws [0]) with
        tower := ⟨⟨[Number.div 1 2, 4, 9, 0, 4], none⟩, []⟩ } ∧
      storing.act = .next after ∧ after.box.outside = [⟨0, 4⟩] ∧
      after.box.get ⟨0, 1⟩ = storing.box.get ⟨0, 1⟩ ∧
      after.step after.symbol = .done (after.withValues [9]) := by
  generalize known : { start (.ofRows ["pg;".toList]) (.ofDraws [0]) with
    tower := ⟨⟨[Number.div 1 2, 4, 9, 0, 4], none⟩, []⟩ } = storing
  obtain ⟨running, meets, held, listed, fetches, top⟩ :
      storing.status = .running ∧ storing.Meets 'p' ∧
        storing.values = [Number.div 1 2, 4, 9, 0, 4] ∧
        storing.act.machine.box.outside = [⟨0, 4⟩] ∧
        storing.act.machine.Meets 'g' ∧ storing.act.machine.values = [0, 4] := by
    subst known
    decide +kernel
  obtain ⟨_, _, programs⟩ := box_is_exact_store
  obtain ⟨after, acted, _, others, again⟩ := programs storing _ _ _ _ running meets held
  rw [acted] at listed fetches top
  refine ⟨storing, after, rfl, acted, listed, others _ (by decide +kernel), ?_⟩
  have untouched : after.stores [] = [] := rfl
  exact again [] after 0 4 [] rfl (by simp [untouched]) fetches top (by decide +kernel) rfl

end Machine

end Aquarium
