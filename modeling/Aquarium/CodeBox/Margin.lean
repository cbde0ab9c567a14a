import Aquarium.Number.Basic

/-!
# The margin of a code box

A program may write beyond the edges of its code box. The margin keeps those cells, each place at
most once, in order of row and then of column.
-/

namespace Aquarium

/-- A place in the plane. -/
structure Position where
  row : Int
  column : Int
  deriving DecidableEq, Repr

namespace Position

/-- The reading order of places: by row, then by column. -/
def Precedes (left right : Position) : Prop :=
  left.row < right.row ∨ left.row = right.row ∧ left.column < right.column

instance (left right : Position) : Decidable (left.Precedes right) := by
  unfold Precedes
  infer_instance

theorem Precedes.trans {first second third : Position} (left : first.Precedes second)
    (right : second.Precedes third) : first.Precedes third := by
  unfold Precedes at *
  omega

/-- Of two different places one precedes the other. -/
theorem precedes_of_not_precedes {left right : Position} (different : left ≠ right)
    (after : ¬ left.Precedes right) : right.Precedes left := by
  have parts : ¬ (left.row = right.row ∧ left.column = right.column) := by
    rintro ⟨rows, columns⟩
    exact different (by cases left; cases right; simp_all)
  unfold Precedes at *
  omega

end Position

namespace Margin

/-- Places with their numbers, each place before the next one. -/
def Ordered (entries : List (Position × Number)) : Prop :=
  entries.Pairwise fun left right => left.1.Precedes right.1

/-- Entries with one place written: in order, and over what stood there. -/
def write (position : Position) (number : Number) :
    List (Position × Number) → List (Position × Number)
  | [] => [(position, number)]
  | entry :: rest =>
    if entry.1.Precedes position then entry :: write position number rest
    else if entry.1 = position then (position, number) :: rest
    else (position, number) :: entry :: rest

/-- Writing brings in no other place. -/
theorem fst_of_mem_write {position : Position} {number : Number}
    {entries : List (Position × Number)} {entry : Position × Number}
    (member : entry ∈ write position number entries) :
    entry.1 = position ∨ entry ∈ entries := by
  induction entries with
  | nil => simp_all [write]
  | cons head rest hypothesis =>
    unfold write at member
    split at member
    · rcases List.mem_cons.mp member with same | inRest
      · exact .inr (by simp [same])
      · rcases hypothesis inRest with same | old
        · exact .inl same
        · exact .inr (List.mem_cons_of_mem _ old)
    · split at member
      · rcases List.mem_cons.mp member with same | inRest
        · exact .inl (by simp [same])
        · exact .inr (List.mem_cons_of_mem _ inRest)
      · rcases List.mem_cons.mp member with same | old
        · exact .inl (by simp [same])
        · exact .inr old

/-- Writing keeps the order. -/
theorem Ordered.write {entries : List (Position × Number)} (ordered : Ordered entries)
    (position : Position) (number : Number) :
    Ordered (Margin.write position number entries) := by
  induction entries with
  | nil => simp [Margin.write, Ordered]
  | cons head rest hypothesis =>
    obtain ⟨first, others⟩ := List.pairwise_cons.mp ordered
    unfold Margin.write
    split
    · rename_i before
      refine List.pairwise_cons.mpr ⟨fun entry member => ?_, hypothesis others⟩
      rcases fst_of_mem_write member with same | old
      · exact same ▸ before
      · exact first entry old
    · rename_i notBefore
      split
      · rename_i same
        exact List.pairwise_cons.mpr ⟨fun entry member => same ▸ first entry member, others⟩
      · rename_i different
        have after := Position.precedes_of_not_precedes different notBefore
        refine List.pairwise_cons.mpr ⟨fun entry member => ?_, ordered⟩
        rcases List.mem_cons.mp member with same | old
        · exact same ▸ after
        · exact after.trans (first entry old)

end Margin

/-- The cells written beyond the edges of a code box. -/
structure Margin where
  entries : List (Position × Number)
  ordered : Margin.Ordered entries

namespace Margin

/-- The margin where nothing has been written. -/
def empty : Margin :=
  ⟨[], List.Pairwise.nil⟩

/-- The number last written at a place. -/
def get? (margin : Margin) (position : Position) : Option Number :=
  (margin.entries.find? fun entry => entry.1 = position).map Prod.snd

/-- The margin with one place written. -/
def set (margin : Margin) (position : Position) (number : Number) : Margin :=
  ⟨write position number margin.entries, margin.ordered.write position number⟩

/-- The places that have been written, in order. -/
def positions (margin : Margin) : List Position :=
  margin.entries.map Prod.fst

end Margin

end Aquarium
