import Aquarium.CodeBox.Source
import Aquarium.Proofs.Contexts
import Aquarium.Proofs.Decoding

/-!
# What a program writes

No program can tell where its output goes until the outlet refuses a piece. `Machine.prints` lists
the pieces that a run writes, and `Output.taking` is an output after it has taken some:
`runUnder_withOutput` says that a run with any output that allows as many goes as it does with none,
and leaves the output with these pieces taken. So the outlets of a program differ in the form of the
deliveries, and `Outlet.bytes_delivery` says that their bytes are the same. With an outlet that
allows fewer, `exists_refusal_of_prints` finds the head at which the run ends.
-/

namespace Aquarium

/-! ## Pieces and deliveries -/

/-- The characters of a piece. -/
def Piece.characters : Piece → List Char
  | character value => [value]
  | text value => value.toList

theorem Piece.bytes_eq (piece : Piece) : piece.bytes = Utf8.encodeAll piece.characters := by
  cases piece with
  | character value => simp [bytes, characters, Utf8.encodeAll]
  | text value => rfl

/-- An outlet that takes only bytes is given the bytes of a character. -/
theorem Outlet.spell_eq (character : Char) : spell character = Utf8.encode character := by
  unfold spell
  split
  · rename_i small
    simp [Utf8.encode, small]
  · rfl

/-- Whatever an outlet takes, the bytes that come out of it are those of the piece. -/
theorem Outlet.bytes_delivery (outlet : Outlet) (piece : Piece) :
    (outlet.delivery piece).bytes = piece.bytes := by
  cases piece with
  | text value => rfl
  | character value =>
    simp only [delivery]
    split
    · rfl
    · exact spell_eq value

theorem Outlet.flatMap_bytes_delivery (outlet : Outlet) (pieces : List Piece) :
    (pieces.map outlet.delivery).flatMap Delivery.bytes = pieces.flatMap Piece.bytes := by
  simp [List.flatMap_map, bytes_delivery]

/-- The bytes of characters are valid UTF-8: nothing but the characters is read again. -/
theorem Glyph.read_encodeAll (characters : List Char) :
    read (Utf8.encodeAll characters) = characters.map character := by
  induction characters with
  | nil => rfl
  | cons character rest hypothesis =>
    rw [Utf8.encodeAll, List.flatMap_cons, read_encode, List.map_cons]
    exact congrArg (Glyph.character character :: ·) hypothesis

theorem Piece.flatMap_bytes (pieces : List Piece) :
    pieces.flatMap bytes = Utf8.encodeAll (pieces.flatMap characters) := by
  rw [Utf8.encodeAll, List.flatMap_assoc]
  exact congrArg pieces.flatMap (funext bytes_eq)

namespace Output

/-- Whether an output takes so many more pieces. -/
def Allows (output : Output) (count : Nat) : Prop :=
  ∀ outlet ∈ output.outlet, ∀ allowance ∈ outlet.allowance, count ≤ allowance

/-- Without an outlet, any number of pieces is thrown away. -/
theorem allows_closed (count : Nat) : closed.Allows count :=
  nofun

/-- An output after it has taken some pieces. -/
def taking (output : Output) (pieces : List Piece) : Output :=
  match output.outlet with
  | none => output
  | some outlet =>
    { output with
      outlet := some { outlet with allowance := outlet.allowance.map (· - pieces.length) }
      written := (pieces.map outlet.delivery).reverse ++ output.written }

@[simp] theorem taking_nil (output : Output) : output.taking [] = output := by
  obtain ⟨_ | ⟨_ | _, _, _, _, _⟩, _, _⟩ := output <;> simp [taking]

theorem taking_of_none {output : Output} (absent : output.outlet = none) (pieces : List Piece) :
    output.taking pieces = output := by
  simp only [taking, absent]

theorem taking_of_some {output : Output} {outlet : Outlet} (present : output.outlet = some outlet)
    (pieces : List Piece) :
    output.taking pieces =
      { output with
        outlet := some { outlet with allowance := outlet.allowance.map (· - pieces.length) }
        written := (pieces.map outlet.delivery).reverse ++ output.written } := by
  simp only [taking, present]

theorem taking_taking (output : Output) (earlier later : List Piece) :
    (output.taking earlier).taking later = output.taking (earlier ++ later) := by
  cases held : output.outlet with
  | none => rw [taking_of_none held, taking_of_none held, taking_of_none held]
  | some outlet =>
    rw [taking_of_some held, taking_of_some rfl, taking_of_some held]
    have same : ({ outlet with allowance := outlet.allowance.map (· - earlier.length) } :
        Outlet).delivery = outlet.delivery := rfl
    have left : (outlet.allowance.map (· - earlier.length)).map (· - later.length) =
        outlet.allowance.map (· - (earlier ++ later).length) := by
      cases outlet.allowance <;> simp [Nat.sub_sub]
    simp [same, left]

theorem Allows.taking {output : Output} {earlier later : List Piece}
    (allows : output.Allows (earlier ++ later).length) :
    (output.taking earlier).Allows later.length := by
  cases held : output.outlet with
  | none => simp [Allows, taking_of_none held, held]
  | some outlet =>
    rw [taking_of_some held]
    rintro _ ⟨⟩ allowance left
    obtain ⟨before, given, rfl⟩ := Option.map_eq_some_iff.mp left
    have enough := allows outlet held before given
    rw [List.length_append] at enough
    omega

theorem Allows.of_append {output : Output} {earlier later : List Piece}
    (allows : output.Allows (earlier ++ later).length) : output.Allows earlier.length := by
  intro outlet present allowance given
  have enough := allows outlet present allowance given
  rw [List.length_append] at enough
  omega

theorem write_of_allows {output : Output} (allows : output.Allows 1) (piece : Piece) :
    output.write piece = .ok (output.taking [piece]) := by
  obtain ⟨_ | ⟨_ | _ | allowance, refusal, buffered, takesCharacters, clog⟩, written, flushes⟩ :=
    output
  case none => rfl
  case some.none => rfl
  case some.some.zero => exact absurd (allows _ rfl 0 rfl) (by omega)
  case some.some.succ => simp [write, taking]

/-- An outlet that has taken as many pieces as it allows refuses the next one. -/
theorem write_taking_of_spent {output : Output} {outlet : Outlet} {pieces : List Piece}
    (present : output.outlet = some outlet) (spent : outlet.allowance = some pieces.length)
    (piece : Piece) : (output.taking pieces).write piece = .error outlet.refusal := by
  simp only [write, taking_of_some present, spent, Option.map_some, Nat.sub_self]

/-- The deliveries that an outlet has had of some pieces. -/
theorem deliveries_taking {output : Output} {outlet : Outlet}
    (present : output.outlet = some outlet) (pieces : List Piece) :
    (output.taking pieces).deliveries = output.deliveries ++ pieces.map outlet.delivery := by
  simp [taking_of_some present, deliveries]

end Output

/-! ## Steps -/

namespace Machine

/-- A machine with another output. -/
def withOutput (machine : Machine) (output : Output) : Machine :=
  { machine with output }

/-- The piece that the step at a head writes, if it writes one: the character or the text of the
number that it takes. -/
def print? (machine : Machine) : Option Piece :=
  match machine.values with
  | [] => none
  | number :: _ =>
    if machine.Meets 'o' then number.toChar?.map .character
    else if machine.Meets 'n' then some (.text number.text)
    else none

/-- The pieces that a run writes, in order. -/
def prints (contexts : List Bool) (machine : Machine) : List Piece :=
  machine.logged print? contexts

/-- A step that writes a piece executes a writing instruction. -/
theorem exists_prints_of_print? {machine : Machine} {piece : Piece}
    (printing : machine.print? = some piece) :
    ∃ instruction number rest, machine.values = number :: rest ∧
      Instruction.Prints instruction number piece ∧
      machine.step machine.symbol = machine.execute instruction := by
  unfold print? at printing
  split at printing
  · cases printing
  · rename_i number rest held
    split at printing
    · rename_i meets
      obtain ⟨character, decoded, rfl⟩ := Option.map_eq_some_iff.mp printing
      exact ⟨.writeCharacter, number, rest, held, .character decoded,
        step_of_meets .writeCharacter (by simp) meets⟩
    · split at printing
      · rename_i meets
        cases printing
        exact ⟨.writeNumber, number, rest, held, .number,
          step_of_meets .writeNumber (by simp) meets⟩
      · cases printing

/-- A step that executes a writing instruction writes a piece. -/
theorem print?_of_prints {machine : Machine} {instruction : Instruction} {number : Number}
    {rest : List Number} {piece : Piece} (read : machine.takesLiterally machine.symbol = false)
    (found : Instruction.ofSymbol? machine.symbol = some instruction)
    (held : machine.values = number :: rest) (prints : instruction.Prints number piece) :
    machine.print? = some piece := by
  cases prints with
  | character isCharacter =>
    have meets : machine.Meets 'o' :=
      (machine.meets_iff .writeCharacter (by simp)).mpr ⟨read, found⟩
    simp [print?, held, meets, isCharacter]
  | number =>
    have meets : machine.Meets 'n' :=
      (machine.meets_iff .writeNumber (by simp)).mpr ⟨read, found⟩
    have other : ¬ machine.Meets 'o' := fun clash => by
      have equal := clash.2.symm.trans meets.2
      simp at equal
    simp [print?, held, meets, other]

end Machine

/-- A rule that writes nothing applies with any output, which stays as it is. -/
theorem Executes.withOutput {machine : Machine} {instruction : Instruction} {outcome : Outcome}
    (rule : Executes machine instruction outcome)
    (silent : ∀ number rest piece, machine.values = number :: rest →
      ¬ instruction.Prints number piece) (output : Output) :
    Executes (machine.withOutput output) instruction (outcome.map (·.withOutput output)) := by
  cases rule with
  | rest => exact .rest
  | face heading => exact .face heading
  | wander drawn => exact .wander drawn
  | reflect mirror => exact .reflect mirror
  | skip => exact .skip
  | skipped held zero => exact .skipped held zero
  | notSkipped held nonzero => exact .notSkipped held nonzero
  | jump held => exact .jump held
  | literal digit => exact .literal digit
  | combine held applied => exact .combine held applied
  | toggle quote => exact .toggle quote
  | reshape shape changed => exact .reshape shape changed
  | length => exact .length
  | openStack held enough => exact .openStack held enough
  | closeStack merged => exact .closeStack merged
  | write held prints taken => exact absurd prints (silent _ _ _ held)
  | readRune reading => exact .readRune reading
  | readNothing reading intact answered => exact .readNothing reading intact answered
  | fetch held => exact .fetch held
  | store held => exact .store held
  | finish => exact .finish
  | underflow lacking => exact .underflow lacking
  | countTooLarge held short => exact .countTooLarge held short
  | divideByZero held undefined => exact .divideByZero held undefined
  | lastStack alone => exact .lastStack alone
  | notACharacter held foreign => exact .notACharacter held foreign
  | refuse held prints refused => exact absurd prints (silent _ _ _ held)
  | readBroken reading => exact .readBroken reading
  | readStuck reading => exact .readStuck reading

namespace Machine

/-- A step that writes nothing does the same with any output. -/
theorem step_of_silent {machine : Machine} (silent : machine.print? = none) (output : Output) :
    (machine.withOutput output).step machine.symbol =
      (machine.step machine.symbol).map (·.withOutput output) := by
  have same : (machine.withOutput output).takesLiterally machine.symbol =
      machine.takesLiterally machine.symbol := rfl
  rcases machine.step_cases machine.symbol with
    ⟨literal, pushed⟩ | ⟨instruction, read, found, executed⟩ | ⟨read, unknown, invalid⟩
  · rw [pushed]
    exact if_pos (same.trans literal)
  · have nothing : ∀ number rest piece, machine.values = number :: rest →
        ¬ instruction.Prints number piece := by
      intro number rest piece held prints
      rw [print?_of_prints read found held prints] at silent
      cases silent
    have rule := (machine.executes instruction).withOutput nothing output
    rw [executed, ← execute_of_executes rule]
    simp only [step, same, read, found]
    rfl
  · rw [invalid]
    simp only [step, same, read, unknown]
    rfl

/-- A step that writes a piece takes a number and hands the piece to the output. -/
theorem step_of_printing {machine : Machine} {piece : Piece}
    (printing : machine.print? = some piece) :
    machine.step machine.symbol = (machine.withValues machine.values.tail).emit piece := by
  obtain ⟨instruction, number, rest, held, prints, executed⟩ := exists_prints_of_print? printing
  rw [executed, execute_of_prints held prints, held, List.tail_cons]

/-- A step whose piece is taken completes, and one whose piece is refused fails. -/
theorem step_of_taken {machine : Machine} {piece : Piece} {output : Output}
    (printing : machine.print? = some piece) (taken : machine.output.write piece = .ok output) :
    machine.step machine.symbol =
      .done ((machine.withValues machine.values.tail).withOutput output) := by
  rw [step_of_printing printing]
  simp only [emit, show (machine.withValues machine.values.tail).output = machine.output from rfl,
    taken]
  rfl

theorem step_of_refused {machine : Machine} {piece : Piece} {cause : String}
    (printing : machine.print? = some piece) (refused : machine.output.write piece = .error cause) :
    machine.step machine.symbol =
      .failed (.writing cause) (machine.withValues machine.values.tail) := by
  rw [step_of_printing printing]
  simp only [emit, show (machine.withValues machine.values.tail).output = machine.output from rfl,
    refused]

/-- What a step does with an output that takes its piece, by what it does without an outlet. -/
theorem step_withOutput {machine : Machine} (mute : machine.output = .closed) {output : Output}
    (allows : output.Allows machine.print?.toList.length) :
    (machine.withOutput output).step machine.symbol =
      (machine.step machine.symbol).map (·.withOutput (output.taking machine.print?.toList)) := by
  cases printing : machine.print? with
  | none =>
    rw [Option.toList_none, Output.taking_nil]
    exact step_of_silent printing output
  | some piece =>
    rw [printing] at allows
    have thrownAway : machine.output.write piece = .ok .closed := by rw [mute]; rfl
    have taken : (machine.withOutput output).output.write piece = .ok (output.taking [piece]) :=
      Output.write_of_allows allows piece
    have printingToo : (machine.withOutput output).print? = some piece := printing
    rw [step_of_taken printing thrownAway]
    exact step_of_taken printingToo taken

/-! ## Turns and runs -/

/-- A turn that nothing holds up, with an output that takes its piece. -/
theorem act_withOutput {machine : Machine} (mute : machine.output = .closed) {output : Output}
    (allows : output.Allows machine.print?.toList.length) :
    (machine.withOutput output).act =
      machine.act.map (·.withOutput (output.taking machine.print?.toList)) := by
  have symbols : (machine.withOutput output).symbol = machine.symbol := rfl
  rw [act_eq, act_eq, symbols, step_withOutput mute allows]
  cases machine.step machine.symbol with
  | failed failure after => rfl
  | stuck after => rfl
  | done after =>
    simp only [Outcome.map]
    have status : ∀ output, (after.withOutput output).status = after.status := fun _ => rfl
    rw [status]
    split <;> rfl

/-- The pieces that a turn writes. -/
def turnPrints (machine : Machine) (cancelled : Bool) : List Piece :=
  if machine.Fetches cancelled then machine.print?.toList else []

theorem turn_withOutput {machine : Machine} {cancelled : Bool} (mute : machine.output = .closed)
    {output : Output} (allows : output.Allows (machine.turnPrints cancelled).length) :
    (machine.withOutput output).turn cancelled =
      (machine.turn cancelled).map
        (·.withOutput (output.taking (machine.turnPrints cancelled))) := by
  unfold turnPrints at allows ⊢
  by_cases fetches : machine.Fetches cancelled
  · have fetched : (machine.withOutput output).Fetches cancelled := fetches
    rw [if_pos fetches] at allows ⊢
    rw [turn_eq_act fetches.1 fetches.2.1 fetches.2.2,
      turn_eq_act fetched.1 fetched.2.1 fetched.2.2]
    exact act_withOutput mute allows
  · obtain ⟨stop, turned, same⟩ :=
      turns_of_not_fetches fetches (machine.withOutput output) rfl rfl rfl
    rw [turned, same, if_neg fetches, Output.taking_nil]
    rfl

/-- A machine without an outlet stays without one. -/
theorem closed_of_next {machine after : Machine} {cancelled : Bool}
    (mute : machine.output = .closed) (turned : machine.turn cancelled = .next after) :
    after.output = .closed := by
  have same : machine.withOutput .closed = machine := by
    rw [← mute]
    rfl
  have unchanged :=
    turn_withOutput mute (Output.allows_closed (machine.turnPrints cancelled).length)
  rw [same, turned] at unchanged
  injection unchanged with kept
  rw [kept]
  rfl

theorem prints_of_next {cancelled : Bool} {machine after : Machine}
    (turned : machine.turn cancelled = .next after) (later : List Bool) :
    machine.prints (cancelled :: later) = machine.turnPrints cancelled ++ after.prints later := by
  rw [prints, logged_of_next turned, turnPrints, if_pos (fetches_of_next turned)]
  rfl

theorem prints_of_stop {cancelled : Bool} {machine after : Machine} {stop : Stop}
    (turned : machine.turn cancelled = .stop stop after) (later : List Bool) :
    machine.prints (cancelled :: later) = machine.turnPrints cancelled :=
  logged_of_stop turned later

/-- With an output that takes all its pieces, a run goes as it does without an outlet. -/
theorem runUnder_withOutput {machine : Machine} {contexts : List Bool} {output : Output}
    (mute : machine.output = .closed) (allows : output.Allows (machine.prints contexts).length) :
    (machine.withOutput output).runUnder contexts =
      (machine.runUnder contexts).map (·.withOutput (output.taking (machine.prints contexts))) := by
  induction contexts generalizing machine output with
  | nil =>
    rw [show machine.prints [] = [] from rfl, Output.taking_nil]
    rfl
  | cons cancelled later hypothesis =>
    cases turned : machine.turn cancelled with
    | stop stop after =>
      rw [prints_of_stop turned] at allows ⊢
      have same := turn_withOutput mute allows
      rw [turned] at same
      rw [runUnder_of_stop turned, runUnder_of_stop same]
      rfl
    | next after =>
      rw [prints_of_next turned] at allows ⊢
      have first : output.Allows (machine.turnPrints cancelled).length := allows.of_append
      have same := turn_withOutput mute first
      rw [turned] at same
      rw [runUnder_of_next turned, runUnder_of_next same, ← Output.taking_taking]
      exact hypothesis (closed_of_next mute turned) allows.taking

/-- A turn that fetches the symbol and whose piece is refused ends the run. -/
theorem turn_of_refused {machine : Machine} {cancelled : Bool} {piece : Piece} {cause : String}
    (fetches : machine.Fetches cancelled) (printing : machine.print? = some piece)
    (refused : machine.output.write piece = .error cause) :
    ∃ final, machine.turn cancelled =
        .stop (.failed (machine.site machine.symbol) (.writing cause)) final ∧
      final.status = .faulted ∧ final.output = machine.output :=
  ⟨_, turn_of_step_failed fetches (step_of_refused printing refused), rfl, rfl⟩

/-- With an outlet that allows fewer pieces, a run goes as it does without an outlet until it comes
to the piece that is refused. -/
theorem exists_refusal_of_prints {machine : Machine} {contexts : List Bool} {output : Output}
    {outlet : Outlet} {allowance : Nat} (mute : machine.output = .closed)
    (present : output.outlet = some outlet) (given : outlet.allowance = some allowance)
    (more : allowance < (machine.prints contexts).length) :
    ∃ earlier cancelled later head final, contexts = earlier ++ cancelled :: later ∧
      machine.runUnder earlier = .going head ∧ head.print?.isSome = true ∧
      machine.prints earlier = (machine.prints contexts).take allowance ∧
      (machine.withOutput output).runUnder earlier =
        .going (head.withOutput (output.taking ((machine.prints contexts).take allowance))) ∧
      (machine.withOutput output).runUnder contexts =
        .stopped (.failed (head.site head.symbol) (.writing outlet.refusal)) final ∧
      final.status = .faulted ∧
      final.output = output.taking ((machine.prints contexts).take allowance) := by
  obtain ⟨earlier, cancelled, later, head, rfl, going, fetches, printing, before⟩ :=
    exists_head_of_logged more
  have taken : machine.prints earlier =
      (machine.prints (earlier ++ cancelled :: later)).take allowance := before
  have count : (machine.prints earlier).length = allowance := by
    rw [taken, List.length_take]
    omega
  have spent : outlet.allowance = some (machine.prints earlier).length := by rw [given, count]
  have allows : output.Allows (machine.prints earlier).length := by
    simp [Output.Allows, present, spent]
  have same := runUnder_withOutput mute allows
  rw [going, taken] at same
  obtain ⟨piece, printed⟩ := Option.isSome_iff_exists.mp printing
  have refused := Output.write_taking_of_spent present spent piece
  obtain ⟨final, turned, faulted, kept⟩ := @turn_of_refused
    (head.withOutput (output.taking (machine.prints earlier))) cancelled piece _ fetches printed
    refused
  rw [taken] at turned kept
  refine ⟨earlier, cancelled, later, head, final, rfl, going, printing, taken, same, ?_, faulted,
    kept⟩
  rw [runUnder_append_of_going same, runUnder_of_stop turned]
  rfl

/-! ## Main statement -/

/-- Where its output goes does not matter to a program until a piece is refused. With any output
that allows all the pieces that it writes, a run goes as it does without an outlet, and every state
differs in the output only, which takes these pieces: one delivery each, in order, with the bytes of
the piece, whatever the outlet takes, so that all of them are valid UTF-8. Without an outlet nothing
is written. With an outlet that allows fewer, the run is the same up to the first piece beyond the
allowance, where it ends with a failure to write that is no fault of the program, and exactly the
pieces within the allowance have been delivered. -/
theorem output_never_steers_program (machine : Machine) (contexts : List Bool) :
    let mute := machine.withOutput .closed
    let pieces := mute.prints contexts
    (∀ output : Output, output.Allows pieces.length →
      (machine.withOutput output).runUnder contexts =
        (mute.runUnder contexts).map (·.withOutput (output.taking pieces))) ∧
    (∀ output : Output, output.outlet = none → output.taking pieces = output) ∧
    (∀ (output : Output) (outlet : Outlet), output.outlet = some outlet →
      (output.taking pieces).deliveries = output.deliveries ++ pieces.map outlet.delivery ∧
      (pieces.map outlet.delivery).flatMap Delivery.bytes = pieces.flatMap Piece.bytes) ∧
    Glyph.read (pieces.flatMap Piece.bytes) =
      (pieces.flatMap Piece.characters).map Glyph.character ∧
    ∀ (output : Output) (outlet : Outlet) (allowance : Nat), output.outlet = some outlet →
      outlet.allowance = some allowance → allowance < pieces.length →
      ∃ earlier cancelled later head stop final, contexts = earlier ++ cancelled :: later ∧
        mute.runUnder earlier = .going head ∧ head.print?.isSome = true ∧
        mute.prints earlier = pieces.take allowance ∧
        (machine.withOutput output).runUnder earlier =
          .going (head.withOutput (output.taking (pieces.take allowance))) ∧
        (machine.withOutput output).runUnder contexts = .stopped stop final ∧
        final.status = .faulted ∧
        final.output.deliveries =
          output.deliveries ++ (pieces.take allowance).map outlet.delivery ∧
        stop.isFault = false ∧
        stop.layers = [(head.site head.symbol).message, "write failed", outlet.refusal] := by
  intro mute pieces
  have closed : mute.output = .closed := rfl
  refine ⟨?taken, ?thrownAway, ?delivered, ?valid, ?refused⟩
  case taken =>
    intro output allows
    exact runUnder_withOutput closed allows
  case thrownAway =>
    intro output absent
    exact Output.taking_of_none absent pieces
  case delivered =>
    intro output outlet present
    exact ⟨Output.deliveries_taking present pieces, outlet.flatMap_bytes_delivery pieces⟩
  case valid =>
    rw [Piece.flatMap_bytes, Glyph.read_encodeAll]
  case refused =>
    intro output outlet allowance present given more
    obtain ⟨earlier, cancelled, later, head, final, split, going, printing, taken, same, stopped,
      faulted, kept⟩ := exists_refusal_of_prints closed present given more
    refine ⟨earlier, cancelled, later, head, _, final, split, going, printing, taken, same, stopped,
      faulted, ?_, rfl, rfl⟩
    rw [kept, Output.deliveries_taking present]

/-- A program that writes a character and then a number, with an outlet that takes bytes and allows
one piece. -/
theorem second_piece_refused :
    ∃ machine stop final,
      machine = (start (.ofRows ["'é'o1n;".toList]) (.ofDraws [0])).withOutput
        ⟨some ⟨some 1, "full", false, false, none⟩, [], 0⟩ ∧
      (machine.withOutput .closed).prints (List.replicate 7 false) =
        [.character 'é', .text "1"] ∧
      machine.runUnder (List.replicate 7 false) = .stopped stop final ∧
      final.status = .faulted ∧ final.output.deliveries = [.chunk [0xC3, 0xA9]] ∧
      stop.isFault = false := by
  generalize known : start (.ofRows ["'é'o1n;".toList]) (.ofDraws [0]) = machine
  have pieces : (machine.withOutput .closed).prints (List.replicate 7 false) =
      [.character 'é', .text "1"] := by
    subst known
    decide +kernel
  obtain ⟨_, _, _, _, refused⟩ := output_never_steers_program machine (List.replicate 7 false)
  obtain ⟨_, _, _, _, stop, final, _, _, _, _, _, stopped, faulted, delivered, blameless, _⟩ :=
    refused ⟨some ⟨some 1, "full", false, false, none⟩, [], 0⟩ _ 1 rfl rfl
      (by rw [pieces]; decide)
  rw [pieces] at delivered
  exact ⟨_, stop, final, rfl, pieces, stopped, faulted, delivered.trans (by decide), blameless⟩

end Machine

end Aquarium
