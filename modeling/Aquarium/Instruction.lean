import Aquarium.Heading

/-!
# Instructions

What a symbol in a cell means when it is executed. A symbol is an integer; those that are
instructions are codes of seven-bit characters, and the empty cell, 0, does nothing, as a space
does.
-/

namespace Aquarium

/-- The two string modes, named for the character that opens and closes them. -/
inductive Quote where
  | single
  | double
  deriving DecidableEq, Repr

/-- The instructions that take two numbers and leave one. -/
inductive Operator where
  | add
  | subtract
  | multiply
  | divide
  | modulo
  | equal
  | greater
  | less
  deriving DecidableEq, Repr

/-- An instruction. -/
inductive Instruction where
  | rest
  | face (heading : Heading)
  | wander
  | reflect (mirror : Mirror)
  | skip
  | skipUnless
  | jump
  | literal (digit : Fin 16)
  | combine (operator : Operator)
  | toggle (quote : Quote)
  | duplicate
  | discard
  | swap
  | rotate
  | shiftRight
  | shiftLeft
  | reverse
  | length
  | openStack
  | closeStack
  | writeCharacter
  | writeNumber
  | readCharacter
  | register
  | fetch
  | store
  | finish
  deriving DecidableEq, Repr

namespace Instruction

/-- The instruction that a character stands for. -/
def ofChar? (character : Char) : Option Instruction :=
  match character with
  | ' ' => some .rest
  | '<' => some (.face .left)
  | '>' => some (.face .right)
  | '^' => some (.face .up)
  | 'v' => some (.face .down)
  | 'x' => some .wander
  | '/' => some (.reflect .slash)
  | '\\' => some (.reflect .backslash)
  | '|' => some (.reflect .upright)
  | '_' => some (.reflect .level)
  | '#' => some (.reflect .sharp)
  | '!' => some .skip
  | '?' => some .skipUnless
  | '.' => some .jump
  | '0' => some (.literal 0)
  | '1' => some (.literal 1)
  | '2' => some (.literal 2)
  | '3' => some (.literal 3)
  | '4' => some (.literal 4)
  | '5' => some (.literal 5)
  | '6' => some (.literal 6)
  | '7' => some (.literal 7)
  | '8' => some (.literal 8)
  | '9' => some (.literal 9)
  | 'a' => some (.literal 10)
  | 'b' => some (.literal 11)
  | 'c' => some (.literal 12)
  | 'd' => some (.literal 13)
  | 'e' => some (.literal 14)
  | 'f' => some (.literal 15)
  | '+' => some (.combine .add)
  | '-' => some (.combine .subtract)
  | '*' => some (.combine .multiply)
  | ',' => some (.combine .divide)
  | '%' => some (.combine .modulo)
  | '=' => some (.combine .equal)
  | ')' => some (.combine .greater)
  | '(' => some (.combine .less)
  | '\'' => some (.toggle .single)
  | '"' => some (.toggle .double)
  | ':' => some .duplicate
  | '~' => some .discard
  | '$' => some .swap
  | '@' => some .rotate
  | '}' => some .shiftRight
  | '{' => some .shiftLeft
  | 'r' => some .reverse
  | 'l' => some .length
  | '[' => some .openStack
  | ']' => some .closeStack
  | 'o' => some .writeCharacter
  | 'n' => some .writeNumber
  | 'i' => some .readCharacter
  | '&' => some .register
  | 'g' => some .fetch
  | 'p' => some .store
  | ';' => some .finish
  | _ => none

/-- The instruction that a symbol stands for. -/
def ofSymbol? (symbol : Int) : Option Instruction :=
  if symbol = 0 then some .rest
  else if 0 < symbol ∧ symbol < 128 then ofChar? (Char.ofNat symbol.toNat)
  else none

/-- The short name of an operator. -/
def operatorName : Operator → String
  | .add => "add"
  | .subtract => "sub"
  | .multiply => "mul"
  | .divide => "div"
  | .modulo => "mod"
  | .equal => "eq"
  | .greater => "gt"
  | .less => "lt"

/-- The short name of an instruction in listings and traces. -/
def mnemonic : Instruction → String
  | rest => "nop"
  | face .left => "left"
  | face .right => "right"
  | face .up => "up"
  | face .down => "down"
  | wander => "random"
  | reflect .slash => "mirror/"
  | reflect .backslash => "mirror\\"
  | reflect .upright => "mirror|"
  | reflect .level => "mirror_"
  | reflect .sharp => "mirror#"
  | skip => "skip"
  | skipUnless => "skipz"
  | jump => "jump"
  | literal digit => "lit " ++ toString digit.val
  | combine operator => operatorName operator
  | toggle .single => "quote"
  | toggle .double => "dquote"
  | duplicate => "dup"
  | discard => "drop"
  | swap => "swap"
  | rotate => "rot"
  | shiftRight => "shr"
  | shiftLeft => "shl"
  | reverse => "reverse"
  | length => "len"
  | openStack => "newstack"
  | closeStack => "remstack"
  | writeCharacter => "putc"
  | writeNumber => "putn"
  | readCharacter => "getc"
  | register => "reg"
  | fetch => "get"
  | store => "put"
  | finish => "end"

end Instruction

/-- The character that opens and closes a string mode. -/
def Quote.symbol : Quote → Int
  | single => 0x27
  | double => 0x22

end Aquarium
