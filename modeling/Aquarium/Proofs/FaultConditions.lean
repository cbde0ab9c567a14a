import Aquarium.Proofs.InputStream
import Aquarium.Proofs.Rounding
import Aquarium.Proofs.Symbols

/-!
# When a step fails

`Machine.Fails` says, failure by failure, under which condition a symbol that is executed fails so.
The conditions are read off the symbol, the active stack, the number of stacks, the outlet and the
readers, without executing anything. The main statement is that they are exact: a step fails by a
condition that holds, by no other, and completes if none does.
-/

namespace Aquarium

/-! ## Symbols -/

namespace Instruction

/-- The codes of characters. -/
def codes (characters : String) : List Int :=
  characters.toList.map fun character => (character.toNat : Int)

/-- The characters that stand for instructions. -/
def alphabet : String :=
  " <>^vx/\\|_#!?.0123456789abcdef+-*,%=)('\":~$@\x7d\x7brl[]oni&gp;"

/-- How many numbers a symbol needs on the active stack, given whether the register is set. -/
def arity (symbol : Int) (registered : Bool) : Nat :=
  if symbol ∈ codes "?:~on[" then 1
  else if symbol ∈ codes "&" then if registered then 0 else 1
  else if symbol ∈ codes "+-*,%=)($.g" then 2
  else if symbol ∈ codes "@p" then 3
  else 0

/-- The character of an instruction that does something is the only symbol of it. -/
theorem ofSymbol?_eq_some_iff_of_ne {symbol : Int} {instruction : Instruction}
    (acts : instruction ≠ .rest) :
    ofSymbol? symbol = some instruction ↔ symbol = instruction.character.toNat := by
  simp [ofSymbol?_eq_some_iff, acts]

/-- Every instruction has its character in the alphabet. -/
theorem character_mem_codes (instruction : Instruction) :
    (instruction.character.toNat : Int) ∈ codes alphabet := by
  cases instruction with
  | face heading => cases heading <;> decide
  | reflect mirror => cases mirror <;> decide
  | combine operator => cases operator <;> decide
  | toggle quote => cases quote <;> decide
  | literal digit => revert digit; decide
  | _ => decide

/-- A symbol stands for nothing exactly if it is neither 0 nor in the alphabet. -/
theorem ofSymbol?_eq_none_iff {symbol : Int} :
    ofSymbol? symbol = none ↔ symbol ≠ 0 ∧ symbol ∉ codes alphabet := by
  have known : ∀ code ∈ codes alphabet, (ofSymbol? code).isSome = true := by decide +kernel
  constructor
  · intro none
    constructor
    · rintro rfl
      cases none
    · intro member
      simpa [none] using known symbol member
  · rintro ⟨nonzero, foreign⟩
    cases stands : ofSymbol? symbol with
    | none => rfl
    | some instruction =>
      rcases ofSymbol?_eq_some_iff.mp stands with code | ⟨zero, _⟩
      · exact absurd (code ▸ instruction.character_mem_codes) foreign
      · exact absurd zero nonzero

/-- What a symbol needs is what its instruction does. -/
theorem arity_eq_demand {symbol : Int} {instruction : Instruction}
    (stands : ofSymbol? symbol = some instruction) (stack : Stack) :
    arity symbol stack.register.isSome = instruction.demand stack := by
  obtain ⟨values, register⟩ := stack
  rcases ofSymbol?_eq_some_iff.mp stands with rfl | ⟨rfl, rfl⟩
  · cases instruction with
    | register => cases register <;> rfl
    | face heading => cases heading <;> rfl
    | reflect mirror => cases mirror <;> rfl
    | combine operator => cases operator <;> rfl
    | toggle quote => cases quote <;> rfl
    | literal digit =>
      have none : ∀ (digit : Fin 16) (registered : Bool),
          arity (Nat.digitChar digit.val).toNat registered = 0 := by decide
      exact none digit register.isSome
    | _ => rfl
  · rfl

/-- A symbol that stands for nothing needs nothing. -/
theorem arity_eq_zero {symbol : Int} (none : ofSymbol? symbol = none) (registered : Bool) :
    arity symbol registered = 0 := by
  obtain ⟨_, foreign⟩ := ofSymbol?_eq_none_iff.mp none
  have known : ∀ some ∈ ["?:~on[", "&", "+-*,%=)($.g", "@p"],
      ∀ code ∈ codes some, code ∈ codes alphabet := by decide +kernel
  have absent : ∀ some ∈ ["?:~on[", "&", "+-*,%=)($.g", "@p"], symbol ∉ codes some :=
    fun some member inside => foreign (known some member symbol inside)
  unfold arity
  rw [if_neg (absent _ (by simp)), if_neg (absent _ (by simp)), if_neg (absent _ (by simp)),
    if_neg (absent _ (by simp))]

end Instruction

/-! ## Numbers -/

namespace Number

/-- A number is a Unicode scalar value. A zero is one, whatever its sign. -/
def IsScalar (number : Number) : Prop :=
  number.isFinite = true ∧
    ∃ code : Nat, number.toRat = code ∧ (code < 0xD800 ∨ 0xDFFF < code ∧ code ≤ 0x10FFFF)

/-- A count exceeds the number of numbers that it is to be met from. It is compared with the number
closest to that, and its integer part with that itself; see `exceeds_iff`. -/
def Exceeds (count : Number) (left : Nat) : Prop :=
  count.greaterThan (.ofInt left) = true ∨ left < count.toInt.toNat

theorem canTakeFrom_eq_false_iff {count : Number} {left : Nat} :
    count.canTakeFrom left = false ↔ count.isFinite = false ∨ count.Exceeds left := by
  simp only [canTakeFrom, Exceeds, Bool.and_eq_false_iff, Bool.not_eq_false',
    decide_eq_false_iff_not, Nat.not_le, or_assoc]

/-- A number without a fraction is a finite one whose value is an integer. -/
theorem isIntegral_iff {number : Number} :
    number.isIntegral = true ↔ number.isFinite = true ∧ number.toRat.den = 1 := by
  cases number <;> simp [isIntegral, isFinite, toRat]

/-- The numbers without a character are those that are no scalar values. -/
theorem toChar?_eq_none_iff {number : Number} : number.toChar? = none ↔ ¬ number.IsScalar := by
  have scalar : number.IsScalar ↔ number.isFinite = true ∧ number.toRat.den = 1 ∧
      0 ≤ number.toRat.num ∧ number.toRat.num.toNat.isValidChar := by
    refine and_congr_right fun _ => ⟨?_, ?_⟩
    · rintro ⟨code, value, valid⟩
      rw [value, Rat.den_natCast, Rat.num_natCast]
      exact ⟨rfl, Int.natCast_nonneg _, valid.imp_right fun ⟨low, high⟩ => ⟨low, by omega⟩⟩
    · rintro ⟨whole, positive, valid⟩
      refine ⟨number.toRat.num.toNat, Rat.ext ?_ ?_,
        valid.imp_right fun ⟨low, high⟩ => ⟨low, by omega⟩⟩
      · rw [Rat.num_natCast, Int.toNat_of_nonneg positive]
      · rw [Rat.den_natCast, whole]
  rw [scalar, ← and_assoc, ← isIntegral_iff]
  simp [toChar?]

/-- A positive integer part does not exceed the value. -/
theorem toInt_le_toRat {count : Number} (positive : 0 < count.toInt) :
    (count.toInt : Rat) ≤ count.toRat := by
  have least : leastWord < 0 := by decide
  cases count with
  | notANumber | infinite => exact absurd positive (Int.not_lt.mpr (Int.le_of_lt least))
  | negativeZero => exact absurd positive (Int.lt_irrefl 0)
  | finite value held =>
    simp only [toInt, toRat] at positive ⊢
    split at positive
    · have above : 0 ≤ value.num := by
        refine Int.not_lt.mp fun below => ?_
        have opposite : 0 ≤ (-value.num).tdiv value.den :=
          Int.tdiv_nonneg (by omega) (Int.natCast_nonneg _)
        rw [Int.neg_tdiv] at opposite
        simp only [truncateRat] at positive
        omega
      rename_i fits
      rw [if_pos fits, truncateRat, Int.tdiv_eq_ediv_of_nonneg above, ← Rat.floor_def]
      exact Rat.floor_le value
    · omega

/-- For a stack of fewer than 2 ^ 53 numbers, a count exceeds what is left exactly if its value
does. -/
theorem exceeds_iff {count : Number} (bounded : count.isFinite = true) {left : Nat}
    (small : left < Nat.pow 2 53) : count.Exceeds left ↔ (left : Rat) < count.toRat := by
  have compared : count.greaterThan (.ofInt left) = true ↔ (left : Rat) < count.toRat := by
    rw [ofInt_of_natAbs_lt left small, greaterThan_finite bounded, Rat.intCast_natCast]
  refine ⟨fun exceeds => exceeds.elim compared.mp fun larger => ?_, fun larger =>
    .inl (compared.mpr larger)⟩
  have whole : (left : Rat) < (count.toInt : Rat) := by
    rw [← Int.toNat_of_nonneg (show 0 ≤ count.toInt by omega), Rat.intCast_natCast]
    exact Rat.natCast_lt_natCast.mpr larger
  exact Std.lt_of_lt_of_le whole (toInt_le_toRat (by omega))

end Number

/-! ## Input -/

namespace Input

/-- The readers of an input end in some way before they give anything but line feeds. -/
inductive Ceases (ending : Ending) : Input → Prop where
  | now {input left : Input} {closed : List Nat}
      (ended : input.read = (.ended ending, left, closed)) : Ceases ending input
  | later {input left : Input} {closed : List Nat} {size : Nat} {error : Option Ending}
      (delivered : input.read = (.rune '\n' size error, left, closed))
      (ceases : Ceases ending left) : Ceases ending input

/-- Reading past line feeds ends exactly as the readers do. -/
theorem ceases_iff {ending : Ending} {input : Input} :
    input.Ceases ending ↔ input.readVisible.1 = .ended ending := by
  constructor
  · intro ceases
    induction ceases with
    | now ended => rw [readVisible_eq ended]; rfl
    | later delivered _ hypothesis =>
      rw [readVisible_eq delivered, if_pos (by simp [isLineFeed])]
      exact hypothesis
  · intro ended
    generalize bound : input.size = size
    induction size using Nat.strongRecOn generalizing input with
    | ind size hypothesis =>
      rcases delivered : input.read with ⟨⟨value, _, _⟩ | reason, left, closed⟩
      · rw [readVisible_eq delivered] at ended
        by_cases blank : value = '\n'
        · subst blank
          rw [if_pos (by simp [isLineFeed])] at ended
          have smaller := size_lt_of_read delivered
          exact .later delivered (hypothesis left.size (by omega) ended rfl)
        · rw [if_neg (by simp [isLineFeed, blank])] at ended
          cases ended
      · rw [readVisible_eq delivered] at ended
        cases ended
        exact .now delivered

/-- Whether every read of every reader comes back. -/
def Answers (input : Input) : Prop :=
  ∀ reader ∈ input.readers, reader.feed.ending ≠ .stuck

/-- A read of a reader that answers comes back, and leaves a reader that answers. -/
theorem answers_feed {feed : Feed} (answers : feed.ending ≠ .stuck) :
    feed.read.1 ≠ .ended .stuck ∧ feed.read.2.ending ≠ .stuck := by
  rcases feed.read_cases with ⟨_, _, _, _, delivered, _, kept⟩ | ⟨_, ended, _, _, kept⟩
  · rw [delivered]
    exact ⟨nofun, kept ▸ answers⟩
  · rw [ended]
    exact ⟨fun same => answers (Reading.ended.inj same), kept ▸ answers⟩

/-- A read from a pile of readers that answer comes back, and leaves readers that answer. -/
theorem answers_readPile {readers : List Reader} (answers : (Input.pile readers).Answers) :
    (readPile readers).1 ≠ .ended .stuck ∧ (Input.pile (readPile readers).2.1).Answers := by
  induction readers with
  | nil => exact ⟨nofun, answers⟩
  | cons reader others hypothesis =>
    obtain ⟨first, rest⟩ := List.forall_mem_cons.mp answers
    obtain ⟨back, kept⟩ := answers_feed first
    rcases delivered : reader.feed.read with ⟨reading, feed⟩
    rw [delivered] at back kept
    unfold readPile
    rw [delivered]
    split
    · exact hypothesis rest
    · rename_i same
      cases same
      exact ⟨fun stuck => back (Reading.eq_ended_of_pardoned stuck),
        List.forall_mem_cons.mpr ⟨kept, rest⟩⟩

/-- A read from readers that answer comes back, and leaves readers that answer. -/
theorem answers_read {input : Input} (answers : input.Answers) :
    input.read.1 ≠ .ended .stuck ∧ input.read.2.1.Answers := by
  cases input with
  | absent => exact ⟨nofun, answers⟩
  | single reader =>
    obtain ⟨back, kept⟩ := answers_feed (answers reader (List.mem_singleton_self _))
    exact ⟨back, List.forall_mem_singleton.mpr kept⟩
  | pile readers => exact answers_readPile answers

/-- Readers that answer are never waited for. -/
theorem not_ceases_stuck {input : Input} (answers : input.Answers) : ¬ input.Ceases .stuck := by
  intro ceases
  induction ceases with
  | now ended =>
    have back := (answers_read answers).1
    rw [ended] at back
    exact back rfl
  | later delivered _ hypothesis =>
    have kept := (answers_read answers).2
    rw [delivered] at kept
    exact hypothesis kept

end Input

/-! ## The conditions -/

/-- Only a division by a zero has no result. -/
theorem Operator.apply?_eq_none_iff {operator : Operator} {left right : Number} :
    operator.apply? left right = none ↔
      (operator = .divide ∨ operator = .modulo) ∧ right.isZero = true := by
  unfold Operator.apply?
  cases operator <;> simp

namespace Machine

/-- The condition under which a symbol that is executed fails in a given way. -/
def Fails (machine : Machine) (symbol : Int) : Failure → Prop
  | .fault .invalidInstruction =>
    symbol < 0 ∨ 128 ≤ symbol ∨ symbol ≠ 0 ∧ symbol ∉ Instruction.codes Instruction.alphabet
  | .fault .lastStack => symbol = ']'.toNat ∧ machine.tower.size = 1
  | .fault .underflow =>
    machine.values.length < Instruction.arity symbol machine.tower.active.register.isSome ∨
      symbol = '['.toNat ∧ ∃ count rest, machine.values = count :: rest ∧
        (count.isFinite = false ∨ count.Exceeds rest.length)
  | .fault .divisionByZero =>
    (symbol = ','.toNat ∨ symbol = '%'.toNat) ∧ ∃ divisor dividend rest,
      machine.values = divisor :: dividend :: rest ∧ divisor.isZero = true
  | .fault .notACharacter =>
    symbol = 'o'.toNat ∧ ∃ number rest, machine.values = number :: rest ∧ ¬ number.IsScalar
  | .writing cause =>
    ∃ number rest piece, machine.values = number :: rest ∧
      (symbol = 'o'.toNat ∧ (∃ character, number.toChar? = some character ∧
          piece = .character character) ∨
        symbol = 'n'.toNat ∧ piece = .text number.text) ∧
      machine.output.write piece = .error cause
  | .reading cause => symbol = 'i'.toNat ∧ machine.input.Ceases (.broken cause)

/-- The condition under which a symbol that is executed does not come to an end. -/
def Hangs (machine : Machine) (symbol : Int) : Prop :=
  symbol = 'i'.toNat ∧ machine.input.Ceases .stuck

/-- The symbols that write, and what they write. -/
theorem prints_iff {symbol : Int} {number : Number} {piece : Piece} :
    (∃ instruction, Instruction.ofSymbol? symbol = some instruction ∧
        instruction.Prints number piece) ↔
      symbol = 'o'.toNat ∧ (∃ character, number.toChar? = some character ∧
          piece = .character character) ∨
        symbol = 'n'.toNat ∧ piece = .text number.text := by
  constructor
  · rintro ⟨instruction, stands, prints⟩
    cases prints with
    | character isCharacter =>
      exact .inl ⟨(Instruction.ofSymbol?_eq_some_iff_of_ne (by decide)).mp stands, _, isCharacter,
        rfl⟩
    | number => exact .inr ⟨(Instruction.ofSymbol?_eq_some_iff_of_ne (by decide)).mp stands, rfl⟩
  · rintro (⟨rfl, character, isCharacter, rfl⟩ | ⟨rfl, rfl⟩)
    · exact ⟨.writeCharacter, by decide, .character isCharacter⟩
    · exact ⟨.writeNumber, by decide, .number⟩

/-- A symbol is no instruction exactly by its condition. -/
theorem fails_invalidInstruction_iff {machine : Machine} {symbol : Int} :
    machine.Fails symbol (.fault .invalidInstruction) ↔ Instruction.ofSymbol? symbol = none := by
  simp only [Fails, ← Instruction.ofSymbol?_eq_none_iff]
  refine ⟨fun condition => ?_, fun none => .inr (.inr none)⟩
  cases stands : Instruction.ofSymbol? symbol with
  | none => rfl
  | some instruction =>
    have bounds := Instruction.symbol_bounds stands
    rw [stands] at condition
    rcases condition with low | high | other
    · omega
    · omega
    · cases other

/-- An instruction that fails does so by a condition that holds. -/
theorem fails_of_execute {machine after : Machine} {symbol : Int} {instruction : Instruction}
    {failure : Failure} (stands : Instruction.ofSymbol? symbol = some instruction)
    (failed : machine.execute instruction = .failed failure after) :
    machine.Fails symbol failure := by
  have code : instruction ≠ .rest → symbol = instruction.character.toNat :=
    fun acts => (Instruction.ofSymbol?_eq_some_iff_of_ne acts).mp stands
  cases executes_iff.mpr failed with
  | underflow lacking =>
    left
    rwa [Instruction.arity_eq_demand stands]
  | countTooLarge held short =>
    exact .inr ⟨code (by decide), _, _, held, Number.canTakeFrom_eq_false_iff.mp short⟩
  | @divideByZero operator right left rest held undefined =>
    obtain ⟨divides, zero⟩ := Operator.apply?_eq_none_iff.mp undefined
    refine ⟨?_, right, left, rest, held, zero⟩
    rcases divides with rfl | rfl
    · exact .inl (code (by decide))
    · exact .inr (code (by decide))
  | lastStack alone =>
    exact ⟨code (by decide), (Tower.closeStack?_eq_none_iff _).mp alone⟩
  | notACharacter held foreign =>
    exact ⟨code (by decide), _, _, held, Number.toChar?_eq_none_iff.mp foreign⟩
  | refuse held prints refused =>
    exact ⟨_, _, _, held, prints_iff.mp ⟨instruction, stands, prints⟩, refused⟩
  | readBroken reading =>
    exact ⟨code (by decide), Input.ceases_iff.mpr (by rw [reading])⟩

/-- A condition that holds makes the instruction fail so. -/
theorem exists_executes_of_fails {machine : Machine} {symbol : Int} {failure : Failure}
    (fails : machine.Fails symbol failure) (known : failure ≠ .fault .invalidInstruction) :
    ∃ instruction after, Instruction.ofSymbol? symbol = some instruction ∧
      Executes machine instruction (.failed failure after) := by
  match failure, fails with
  | .fault .invalidInstruction, _ => exact absurd rfl known
  | .fault .lastStack, ⟨code, single⟩ =>
    exact ⟨.closeStack, _, code ▸ by decide,
      .lastStack ((Tower.closeStack?_eq_none_iff _).mpr single)⟩
  | .fault .underflow, .inl lacking =>
    cases stands : Instruction.ofSymbol? symbol with
    | none =>
      rw [Instruction.arity_eq_zero stands] at lacking
      exact absurd lacking (Nat.not_lt_zero _)
    | some instruction =>
      rw [Instruction.arity_eq_demand stands] at lacking
      exact ⟨instruction, _, rfl, .underflow lacking⟩
  | .fault .underflow, .inr ⟨code, count, rest, held, excessive⟩ =>
    exact ⟨.openStack, _, code ▸ by decide,
      .countTooLarge held (Number.canTakeFrom_eq_false_iff.mpr excessive)⟩
  | .fault .divisionByZero, ⟨.inl code, divisor, dividend, rest, held, zero⟩ =>
    exact ⟨.combine .divide, _, code ▸ by decide,
      .divideByZero held (Operator.apply?_eq_none_iff.mpr ⟨.inl rfl, zero⟩)⟩
  | .fault .divisionByZero, ⟨.inr code, divisor, dividend, rest, held, zero⟩ =>
    exact ⟨.combine .modulo, _, code ▸ by decide,
      .divideByZero held (Operator.apply?_eq_none_iff.mpr ⟨.inr rfl, zero⟩)⟩
  | .fault .notACharacter, ⟨code, number, rest, held, foreign⟩ =>
    exact ⟨.writeCharacter, _, code ▸ by decide,
      .notACharacter held (Number.toChar?_eq_none_iff.mpr foreign)⟩
  | .writing cause, ⟨number, rest, piece, held, writes, refused⟩ =>
    obtain ⟨instruction, stands, prints⟩ := prints_iff.mpr writes
    exact ⟨instruction, _, stands, .refuse held prints refused⟩
  | .reading cause, ⟨code, breaks⟩ =>
    rcases reading : machine.input.readVisible with ⟨found, left, closed⟩
    have broken := Input.ceases_iff.mp breaks
    rw [reading] at broken
    subst broken
    exact ⟨.readCharacter, _, code ▸ by decide, .readBroken reading⟩

/-! ## Steps -/

/-- A step fails exactly if string mode does not take the symbol and the condition holds. -/
theorem exists_step_failed_iff {machine : Machine} {symbol : Int} {failure : Failure} :
    (∃ after, machine.step symbol = .failed failure after) ↔
      machine.takesLiterally symbol = false ∧ machine.Fails symbol failure := by
  rcases machine.step_cases symbol with
    ⟨taken, stepped⟩ | ⟨instruction, executed, stands, stepped⟩ | ⟨executed, none, stepped⟩
  · simp [stepped, taken]
  · rw [stepped, executed]
    constructor
    · rintro ⟨after, failed⟩
      exact ⟨rfl, fails_of_execute stands failed⟩
    · rintro ⟨_, fails⟩
      have known : failure ≠ .fault .invalidInstruction := by
        rintro rfl
        rw [fails_invalidInstruction_iff, stands] at fails
        cases fails
      obtain ⟨_, after, same, rule⟩ := exists_executes_of_fails fails known
      rw [stands, Option.some.injEq] at same
      exact ⟨after, execute_of_executes (same ▸ rule)⟩
  · rw [stepped, executed]
    constructor
    · rintro ⟨after, failed⟩
      cases failed
      exact ⟨rfl, fails_invalidInstruction_iff.mpr none⟩
    · rintro ⟨_, fails⟩
      by_cases same : failure = .fault .invalidInstruction
      · exact ⟨machine, by rw [same]⟩
      · obtain ⟨_, _, stands, _⟩ := exists_executes_of_fails fails same
        rw [none] at stands
        cases stands

/-- No two conditions hold of the same symbol: the conditions do not look at the string mode, and
without it both would be how the step ends. -/
theorem Fails.unique {machine : Machine} {symbol : Int} {failure other : Failure}
    (fails : machine.Fails symbol failure) (again : machine.Fails symbol other) :
    failure = other := by
  have ends : ∀ {failure}, machine.Fails symbol failure →
      ∃ after, ({ machine with quoting := none } : Machine).step symbol =
        .failed failure after :=
    fun fails => exists_step_failed_iff.mpr ⟨rfl, fails⟩
  obtain ⟨_, failed⟩ := ends fails
  obtain ⟨_, failedToo⟩ := ends again
  rw [failed] at failedToo
  cases failedToo
  rfl

/-- A step does not come to an end exactly if string mode does not take the symbol and it waits for
a reader. -/
theorem exists_step_stuck_iff {machine : Machine} {symbol : Int} :
    (∃ after, machine.step symbol = .stuck after) ↔
      machine.takesLiterally symbol = false ∧ machine.Hangs symbol := by
  constructor
  · rintro ⟨after, stuck⟩
    obtain ⟨executed, stands, _, _, reading, _⟩ := exists_of_step_stuck stuck
    refine ⟨executed, (Instruction.ofSymbol?_eq_some_iff_of_ne (by decide)).mp stands, ?_⟩
    exact Input.ceases_iff.mpr (by rw [reading])
  · rintro ⟨executed, rfl, ceases⟩
    rcases reading : machine.input.readVisible with ⟨found, left, closed⟩
    have waits := Input.ceases_iff.mp ceases
    rw [reading] at waits
    subst waits
    have stands : Instruction.ofSymbol? 'i'.toNat = some .readCharacter := by decide
    have stepped : machine.step 'i'.toNat = machine.execute .readCharacter := by
      simp only [step, executed, stands, Bool.false_eq_true, if_false]
    exact ⟨_, stepped.trans (execute_of_executes (.readStuck reading))⟩

/-- A step that neither fails nor waits for a reader completes. -/
theorem exists_step_done_iff {machine : Machine} {symbol : Int} :
    (∃ after, machine.step symbol = .done after) ↔
      machine.takesLiterally symbol = true ∨
        (∀ failure, ¬ machine.Fails symbol failure) ∧ ¬ machine.Hangs symbol := by
  constructor
  · rintro ⟨after, done⟩
    cases taken : machine.takesLiterally symbol with
    | true => exact .inl rfl
    | false =>
      refine .inr ⟨fun failure fails => ?_, fun hangs => ?_⟩
      · obtain ⟨_, failed⟩ := exists_step_failed_iff.mpr ⟨taken, fails⟩
        rw [done] at failed
        cases failed
      · obtain ⟨_, stuck⟩ := exists_step_stuck_iff.mpr ⟨taken, hangs⟩
        rw [done] at stuck
        cases stuck
  · intro clear
    cases stepped : machine.step symbol with
    | done after => exact ⟨after, rfl⟩
    | failed failure after =>
      obtain ⟨executed, fails⟩ := exists_step_failed_iff.mp ⟨after, stepped⟩
      rcases clear with taken | ⟨none, _⟩
      · rw [executed] at taken
        cases taken
      · exact absurd fails (none failure)
    | stuck after =>
      obtain ⟨executed, hangs⟩ := exists_step_stuck_iff.mp ⟨after, stepped⟩
      rcases clear with taken | ⟨_, answered⟩
      · rw [executed] at taken
        cases taken
      · exact absurd hangs answered

/-- The conditions are exact. A step fails in some way if and only if string mode does not take the
symbol as it is and the condition of that failure holds; no two conditions hold at once. If every
read of every reader comes back, the step completes if and only if the symbol is taken as it is or
no condition holds. Otherwise it may also be that it does not come to an end, which is exactly when
a read instruction is executed and the readers give nothing but line feeds before one of them does
not answer. The count of a new stack is too large, as long as there are fewer than 2 ^ 53 numbers,
exactly if its value is. -/
theorem step_fails_exactly_by_condition (machine : Machine) (symbol : Int) :
    (∀ failure, (∃ after, machine.step symbol = .failed failure after) ↔
      machine.takesLiterally symbol = false ∧ machine.Fails symbol failure) ∧
    (∀ failure other, machine.Fails symbol failure → machine.Fails symbol other →
      failure = other) ∧
    (machine.input.Answers →
      ((∃ after, machine.step symbol = .done after) ↔
        machine.takesLiterally symbol = true ∨ ∀ failure, ¬ machine.Fails symbol failure)) ∧
    ((∃ after, machine.step symbol = .done after) ↔
      machine.takesLiterally symbol = true ∨
        (∀ failure, ¬ machine.Fails symbol failure) ∧ ¬ machine.Hangs symbol) ∧
    ((∃ after, machine.step symbol = .stuck after) ↔
      machine.takesLiterally symbol = false ∧ machine.Hangs symbol) ∧
    ∀ (count : Number) (left : Nat), count.isFinite = true → left < Nat.pow 2 53 →
      (count.Exceeds left ↔ (left : Rat) < count.toRat) := by
  refine ⟨fun _ => exists_step_failed_iff, fun _ _ => Fails.unique, fun answers => ?_,
    exists_step_done_iff, exists_step_stuck_iff, fun _ _ bounded small =>
      Number.exceeds_iff bounded small⟩
  have answered : ¬ machine.Hangs symbol := fun hangs => Input.not_ceases_stuck answers hangs.2
  rw [exists_step_done_iff]
  simp only [answered, not_false_iff, and_true]

/-- A division with nothing but a zero on the stack lacks a number, and does not divide by it. -/
theorem division_of_single_zero_underflows :
    ∃ machine : Machine,
      machine = (start (.ofRows [[',']]) (.ofDraws [0])).withValues [0] ∧
      (∃ after, machine.step ','.toNat = .failed (.fault .underflow) after) ∧
      ¬ ∃ after, machine.step ','.toNat = .failed (.fault .divisionByZero) after := by
  refine ⟨_, rfl, ?_⟩
  generalize known : (start (.ofRows [[',']]) (.ofDraws [0])).withValues [0] = machine
  have executed : machine.takesLiterally ','.toNat = false := by
    subst known
    rfl
  have held : machine.values = [0] := by
    subst known
    rfl
  have needed : ∀ registered, 1 < Instruction.arity ','.toNat registered := by decide
  obtain ⟨exactly, _⟩ := step_fails_exactly_by_condition machine ','.toNat
  rw [exactly, exactly]
  refine ⟨⟨executed, .inl ?_⟩, ?_⟩
  · rw [held]
    exact needed _
  · rintro ⟨_, _, _, _, _, two, _⟩
    rw [held] at two
    cases two

end Machine

end Aquarium
