import Aquarium.Instruction

/-!
# Symbols and instructions

Each instruction has one character that stands for it. `ofSymbol?_eq_some_iff` says which symbols
are instructions, and which ones: the code of that character, and 0 for the one that does nothing.
-/

namespace Aquarium

namespace Instruction

/-- The character that stands for an instruction. -/
def character : Instruction → Char
  | rest => ' '
  | face .left => '<'
  | face .right => '>'
  | face .up => '^'
  | face .down => 'v'
  | wander => 'x'
  | reflect .slash => '/'
  | reflect .backslash => '\\'
  | reflect .upright => '|'
  | reflect .level => '_'
  | reflect .sharp => '#'
  | skip => '!'
  | skipUnless => '?'
  | jump => '.'
  | literal digit => Nat.digitChar digit.val
  | combine .add => '+'
  | combine .subtract => '-'
  | combine .multiply => '*'
  | combine .divide => ','
  | combine .modulo => '%'
  | combine .equal => '='
  | combine .greater => ')'
  | combine .less => '('
  | toggle .single => '\''
  | toggle .double => '"'
  | duplicate => ':'
  | discard => '~'
  | swap => '$'
  | rotate => '@'
  | shiftRight => '}'
  | shiftLeft => '{'
  | reverse => 'r'
  | length => 'l'
  | openStack => '['
  | closeStack => ']'
  | writeCharacter => 'o'
  | writeNumber => 'n'
  | readCharacter => 'i'
  | register => '&'
  | fetch => 'g'
  | store => 'p'
  | finish => ';'

/-- A character stands for an instruction exactly when it is that instruction's character. -/
theorem ofChar?_eq_some_iff {character : Char} {instruction : Instruction} :
    ofChar? character = some instruction ↔ character = instruction.character := by
  constructor
  · intro stands
    unfold ofChar? at stands
    split at stands <;> cases stands <;> rfl
  · rintro rfl
    cases instruction with
    | face heading => cases heading <;> rfl
    | reflect mirror => cases mirror <;> rfl
    | combine operator => cases operator <;> rfl
    | toggle quote => cases quote <;> rfl
    | literal digit => revert digit; decide
    | _ => rfl

/-- The character of an instruction has seven bits, not all of them 0. -/
theorem character_bounds (instruction : Instruction) :
    0 < instruction.character.toNat ∧ instruction.character.toNat < 128 := by
  cases instruction with
  | face heading => cases heading <;> decide
  | reflect mirror => cases mirror <;> decide
  | combine operator => cases operator <;> decide
  | toggle quote => cases quote <;> decide
  | literal digit => revert digit; decide
  | _ => decide

/-- The symbols that stand for an instruction. -/
theorem ofSymbol?_eq_some_iff {symbol : Int} {instruction : Instruction} :
    ofSymbol? symbol = some instruction ↔
      symbol = instruction.character.toNat ∨ symbol = 0 ∧ instruction = .rest := by
  obtain ⟨positive, small⟩ := instruction.character_bounds
  unfold ofSymbol?
  constructor
  · intro stands
    split at stands
    · rename_i zero
      cases stands
      exact .inr ⟨zero, rfl⟩
    · split at stands
      · rename_i bounds
        have valid : symbol.toNat.isValidChar := by
          left
          omega
        have code : (Char.ofNat symbol.toNat).toNat = symbol.toNat := by
          unfold Char.ofNat
          rw [dif_pos valid]
          rfl
        rw [ofChar?_eq_some_iff.mp stands] at code
        left
        omega
      · cases stands
  · rintro (rfl | ⟨rfl, rfl⟩)
    · rw [if_neg (by omega), if_pos (by omega), ofChar?_eq_some_iff, Int.toNat_natCast,
        Char.ofNat_toNat]
    · rfl

/-- Only symbols of seven bits are instructions. -/
theorem symbol_bounds {symbol : Int} {instruction : Instruction}
    (stands : ofSymbol? symbol = some instruction) : 0 ≤ symbol ∧ symbol < 128 := by
  obtain ⟨positive, small⟩ := instruction.character_bounds
  rcases ofSymbol?_eq_some_iff.mp stands with code | ⟨zero, _⟩ <;> omega

end Instruction

end Aquarium
