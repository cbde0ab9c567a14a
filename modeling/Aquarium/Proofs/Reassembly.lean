import Aquarium.Proofs.InputStream
import Aquarium.Proofs.Writers

/-!
# Reading byte by byte

A reader of bytes does not know where a character ends before it has the last byte of it. It stops
there, and not later, since no proper part of the bytes of a character tells a glyph by itself
(`isComplete_of_encode`). So the characters that are written to an outlet of bytes are read again
from their bytes, however these arrive: `read_of_carries` takes one character off, and the main
statement follows by induction on the reads.
-/

namespace Aquarium

open Utf8

/-! ## Parts of a character -/

/-- The bytes of a character, and no others, are read as that character. -/
theorem Glyph.exists_first_encode (character : Char) :
    ∃ byte tails, encode character = byte :: tails ∧
      Glyph.first byte tails = .character character := by
  obtain ⟨byte, tails, spelled, found⟩ := Glyph.first_encode character []
  rw [List.append_nil] at found
  exact ⟨byte, tails, spelled, found⟩

namespace Utf8

/-- The bytes of a character are one byte below 0x80, or a first byte and those that it promises. -/
theorem encode_cases (character : Char) :
    (∃ byte, encode character = [byte] ∧ byte.toNat < 0x80) ∨
      ∃ byte lead tails, encode character = byte :: tails ∧ Promises byte lead ∧
        tails.length = lead.owed ∧ lead.admits tails = true := by
  obtain ⟨byte, tails, spelled, found⟩ := Glyph.exists_first_encode character
  rcases Glyph.first_cases byte tails with
    ⟨small, one⟩ | ⟨lead, promises, whole, kept, longer⟩ | ⟨_, stray⟩
  · left
    obtain rfl := Glyph.character.inj (found.symm.trans one)
    exact ⟨byte, encode_ofNat small, small⟩
  · right
    obtain rfl := Glyph.character.inj (found.symm.trans longer)
    exact ⟨byte, lead, _, encode_codeOf promises whole kept, promises, whole, kept⟩
  · cases found.symm.trans stray

/-- Bytes that keep a promise keep it as far as they go. -/
theorem Lead.admits_of_append {lead : Lead} {earlier later : Bytes}
    (kept : lead.admits (earlier ++ later) = true) : lead.admits earlier = true := by
  cases earlier with
  | nil => rfl
  | cons second others => simp_all [Lead.admits]

end Utf8

namespace Glyph

/-- The bytes of a character tell their glyph once they are all there, and not before. -/
theorem isComplete_of_encode {character : Char} {held more : Bytes} (present : held ≠ [])
    (spelled : held ++ more = encode character) : isComplete held = true ↔ more = [] := by
  obtain ⟨byte, tails, rfl⟩ := List.exists_cons_of_ne_nil present
  rcases encode_cases character with
    ⟨own, one, small⟩ | ⟨own, lead, others, longer, promises, whole, kept⟩
  · rw [one, List.cons_append, List.cons.injEq, List.append_eq_nil_iff] at spelled
    obtain ⟨rfl, rfl, rfl⟩ := spelled
    have single : lead? byte = none := if_pos (Nat.lt_trans small (by decide))
    simp [isComplete, single]
  · rw [longer, List.cons_append, List.cons.injEq] at spelled
    obtain ⟨rfl, rfl⟩ := spelled
    rw [List.length_append] at whole
    simp only [isComplete, lead?_eq_some_iff.mpr promises, Lead.admits_of_append kept,
      Bool.not_true, Bool.or_false, decide_eq_true_eq, ← List.length_eq_zero_iff]
    omega

end Glyph

/-! ## Arrivals -/

/-- How bytes may arrive: one at a time and in order, with pauses anywhere, and with the end of
input after the last byte or together with it. -/
inductive Carries : List Arrival → Bytes → Prop where
  | done : Carries [] []
  | pause {pending text} (carries : Carries pending text) : Carries (.pause :: pending) text
  | byte {pending text} (value : UInt8) (carries : Carries pending text) :
      Carries (.byte value :: pending) (value :: text)
  | last (value : UInt8) : Carries [.lastByte value] [value]

/-- Whether the end of input comes together with a byte. -/
def Arrival.isLast : Arrival → Bool
  | lastByte _ => true
  | _ => false

/-- When no byte is left, the end of input does not come together with one. -/
theorem Carries.any_isLast {pending : List Arrival} (carries : Carries pending []) :
    pending.any Arrival.isLast = false := by
  induction pending with
  | nil => rfl
  | cons arrival pending hypothesis =>
    cases carries with
    | pause carries => exact hypothesis carries

namespace Feed

/-- What arrives is what the reader is going to deliver. -/
theorem bytes_of_carries {pending : List Arrival} {text : Bytes} (carries : Carries pending text)
    (ending : Ending) : (Feed.arrivals pending ending).bytes = text := by
  induction carries with
  | done => rfl
  | pause _ hypothesis => exact hypothesis
  | byte value _ hypothesis => exact congrArg (value :: ·) hypothesis
  | last value => rfl

/-- The bytes of a character amount to that character. -/
theorem tell_encode (error : Option Ending) (character : Char) :
    tell error (encode character) = .rune character (encode character).length error := by
  obtain ⟨byte, tails, spelled, found⟩ := Glyph.exists_first_encode character
  have size : (Glyph.character character).size = (encode character).length := rfl
  rw [← size, spelled, tell, found]
  rfl

/-- A reader that holds the first bytes of a character takes the others, and no byte after them. It
reports the end of input with the character if that came together with the last byte of it. -/
theorem assemble_of_carries (ending : Ending) {character : Char} {held more rest : Bytes}
    {pending : List Arrival} (spelled : held ++ more = encode character) (unfinished : more ≠ [])
    (carries : Carries pending (more ++ rest)) :
    ∃ error left,
      assemble ending held pending = (.rune character (encode character).length error, left) ∧
        Carries left rest ∧
        (error = none ∧ left.any Arrival.isLast = pending.any Arrival.isLast ∨
          error = some .exhausted ∧ rest = [] ∧ pending.any Arrival.isLast = true) := by
  induction pending generalizing held more with
  | nil =>
    cases more with
    | nil => exact absurd rfl unfinished
    | cons => cases carries
  | cons arrival pending hypothesis =>
    cases arrival with
    | pause =>
      cases carries with
      | pause carries => exact hypothesis spelled unfinished carries
    | byte value =>
      obtain ⟨first, later, rfl⟩ := List.exists_cons_of_ne_nil unfinished
      cases carries with
      | byte _ carries =>
        have longer : (held ++ [value]) ++ later = encode character := by simpa using spelled
        have complete := Glyph.isComplete_of_encode (List.concat_ne_nil value held) longer
        unfold assemble
        split
        · rename_i told
          obtain rfl := complete.mp told
          rw [List.append_nil] at longer
          exact ⟨none, pending, by rw [longer, tell_encode], carries, .inl ⟨rfl, rfl⟩⟩
        · rename_i untold
          exact hypothesis longer (fun whole => untold (complete.mpr whole)) carries
    | lastByte value =>
      obtain ⟨first, later, rfl⟩ := List.exists_cons_of_ne_nil unfinished
      rw [List.cons_append] at carries
      cases remaining : later ++ rest with
      | cons => rw [remaining] at carries; cases carries
      | nil =>
        obtain ⟨rfl, rfl⟩ := List.append_eq_nil_iff.mp remaining
        cases carries
        refine ⟨some .exhausted, [], ?_, .done, .inr ⟨rfl, rfl, rfl⟩⟩
        rw [assemble, spelled, tell_encode]

/-- A read takes the first character of what arrives, with the number of its bytes, and leaves the
bytes of the others. -/
theorem read_of_carries (ending : Ending) {character : Char} {rest : Bytes}
    {pending : List Arrival} (carries : Carries pending (encode character ++ rest)) :
    ∃ left,
      (Feed.arrivals pending ending).read =
        (.rune character (encode character).length
          (if rest = [] ∧ pending.any Arrival.isLast then some .exhausted else none),
          .arrivals left ending) ∧
        Carries left rest ∧
        (rest ≠ [] → left.any Arrival.isLast = pending.any Arrival.isLast) := by
  obtain ⟨error, left, assembled, carried, kept⟩ :=
    assemble_of_carries ending (List.nil_append _) (encode_ne_nil character) carries
  have told : error =
      if rest = [] ∧ pending.any Arrival.isLast then some .exhausted else none := by
    rcases kept with ⟨rfl, same⟩ | ⟨rfl, final, last⟩
    · refine (if_neg ?_).symm
      rintro ⟨rfl, last⟩
      rw [← same, carried.any_isLast] at last
      cases last
    · exact (if_pos ⟨final, last⟩).symm
  refine ⟨left, by simp only [read, assembled, told], carried, fun unfinished => ?_⟩
  rcases kept with ⟨_, same⟩ | ⟨_, final, _⟩
  · exact same
  · exact absurd final unfinished

/-- When no byte is left, only pauses come before the end. -/
theorem read_of_carries_nil {pending : List Arrival} (carries : Carries pending []) :
    (Feed.arrivals pending .exhausted).read = (.ended .exhausted, .arrivals [] .exhausted) := by
  induction pending with
  | nil => rfl
  | cons arrival pending hypothesis =>
    cases carries with
    | pause carries => exact hypothesis carries

/-! ## Reads -/

/-- A reader after so many reads. -/
def after (feed : Feed) : Nat → Feed
  | 0 => feed
  | reads + 1 => feed.read.2.after reads

/-- Only no characters have no bytes. -/
theorem encodeAll_eq_nil_iff {characters : List Char} :
    encodeAll characters = [] ↔ characters = [] := by
  cases characters <;> simp [encodeAll, encode_ne_nil]

/-- After so many reads, what arrives carries the characters that have not been read, and ends as
before. -/
theorem after_of_carries {characters : List Char} {pending : List Arrival}
    (carries : Carries pending (encodeAll characters)) (reads : Nat) :
    ∃ left, (Feed.arrivals pending .exhausted).after reads = .arrivals left .exhausted ∧
      Carries left (encodeAll (characters.drop reads)) ∧
      (reads < characters.length → left.any Arrival.isLast = pending.any Arrival.isLast) := by
  induction reads generalizing characters pending with
  | zero => exact ⟨pending, rfl, carries, fun _ => rfl⟩
  | succ reads hypothesis =>
    rw [after]
    cases characters with
    | nil =>
      rw [read_of_carries_nil carries]
      obtain ⟨left, reached, carried, _⟩ := @hypothesis [] [] .done
      exact ⟨left, reached, by simpa using carried, nofun⟩
    | cons character rest =>
      obtain ⟨left, delivered, carried, kept⟩ := read_of_carries .exhausted carries
      rw [delivered]
      obtain ⟨final, reached, remaining, same⟩ := hypothesis carried
      refine ⟨final, reached, remaining, fun before => ?_⟩
      have more : reads < rest.length := Nat.lt_of_succ_lt_succ before
      refine (same more).trans (kept fun nothing => ?_)
      rw [encodeAll_eq_nil_iff.mp nothing] at more
      cases more

/-- A reader of glyphs passes them over one by one. -/
theorem after_glyphs (pending : List Glyph) (ending : Ending) (reads : Nat) :
    (Feed.glyphs pending ending).after reads = .glyphs (pending.drop reads) ending := by
  induction reads generalizing pending with
  | zero => rfl
  | succ reads hypothesis =>
    rw [after]
    cases pending with
    | nil => exact (hypothesis []).trans (by simp)
    | cons glyph rest => exact hypothesis rest

/-- Reading byte by byte undoes writing. Whatever characters have been written to an outlet of
bytes, and however their bytes arrive, each read gives the next of the characters, with the number
of the bytes that it was written with, and leaves the bytes of the others; when no character is
left, every read finds the end of input. No read reports an error, except that the last character
comes together with the end of input if its last byte does. Apart from that, which will be reported
again, a reader of characters over the same bytes gives the same. -/
theorem bytewise_reading_undoes_writing {characters : List Char} {pending : List Arrival}
    (carries : Carries pending (characters.flatMap Outlet.spell)) (reads : Nat) :
    (∀ character, characters[reads]? = some character →
      ((Feed.arrivals pending .exhausted).after reads).read.1 =
        .rune character (Outlet.spell character).length
          (if reads + 1 = characters.length ∧ pending.any Arrival.isLast then some .exhausted
            else none)) ∧
    (characters.length ≤ reads →
      ((Feed.arrivals pending .exhausted).after reads).read.1 = .ended .exhausted) ∧
    ((Feed.arrivals pending .exhausted).after reads).bytes =
      (characters.drop reads).flatMap Outlet.spell ∧
    ((Feed.arrivals pending .exhausted).after reads).read.1.pardoned =
      ((Feed.ofText (characters.flatMap Outlet.spell) .exhausted).after reads).read.1 := by
  have spelled : ∀ characters : List Char,
      characters.flatMap Outlet.spell = encodeAll characters := fun characters =>
    congrArg characters.flatMap (funext Outlet.spell_eq)
  rw [spelled] at carries ⊢
  obtain ⟨left, reached, carried, same⟩ := after_of_carries carries reads
  rw [reached, spelled, ofText, Glyph.read_encodeAll, after_glyphs, ← List.map_drop]
  have found : characters[reads]? = (characters.drop reads).head? := List.head?_drop.symm
  have bytes := bytes_of_carries carried .exhausted
  cases remaining : characters.drop reads with
  | nil =>
    rw [remaining] at carried found bytes
    rw [read_of_carries_nil carried, found]
    exact ⟨nofun, fun _ => rfl, bytes, rfl⟩
  | cons next others =>
    have count : characters.length = reads + (others.length + 1) := by
      have lengths := congrArg List.length remaining
      rw [List.length_drop, List.length_cons] at lengths
      omega
    have final : encodeAll others = [] ↔ reads + 1 = characters.length := by
      rw [encodeAll_eq_nil_iff, ← List.length_eq_zero_iff]
      omega
    rw [remaining] at carried found bytes
    have opened : Carries left (encode next ++ encodeAll others) := carried
    obtain ⟨_, delivered, _⟩ := read_of_carries .exhausted opened
    rw [delivered, found, same (by omega)]
    refine ⟨?_, fun beyond => ?_, bytes, ?_⟩
    · rintro _ ⟨⟩
      simp only [final, Outlet.spell_eq]
    · omega
    · show Reading.pardoned (.rune next _ (if _ then _ else _)) = _
      split <;> rfl

/-- Characters of one to four bytes, with pauses between the bytes, and the end of input together
with the last one. -/
theorem four_characters_read_from_bytes :
    ∃ (characters : List Char) (pending : List Arrival), characters = ['a', 'é', '€', '🐟'] ∧
      pending = [.byte 0x61, .byte 0xC3, .pause, .byte 0xA9, .byte 0xE2, .byte 0x82, .pause, .pause,
        .byte 0xAC, .byte 0xF0, .byte 0x9F, .byte 0x90, .pause, .lastByte 0x9F] ∧
      ((Feed.arrivals pending .exhausted).after 2).read.1 = .rune '€' 3 none ∧
      ((Feed.arrivals pending .exhausted).after 3).read.1 = .rune '🐟' 4 (some .exhausted) ∧
      ((Feed.arrivals pending .exhausted).after 4).read.1 = .ended .exhausted := by
  generalize known : ([.byte 0x61, .byte 0xC3, .pause, .byte 0xA9, .byte 0xE2, .byte 0x82, .pause,
    .pause, .byte 0xAC, .byte 0xF0, .byte 0x9F, .byte 0x90, .pause, .lastByte 0x9F] :
      List Arrival) = pending
  have carries : Carries pending (['a', 'é', '€', '🐟'].flatMap Outlet.spell) := by
    subst known
    exact .byte _ <| .byte _ <| .pause <| .byte _ <| .byte _ <| .byte _ <| .pause <| .pause <|
      .byte _ <| .byte _ <| .byte _ <| .byte _ <| .pause <| .last _
  have last : pending.any Arrival.isLast = true := by
    subst known
    rfl
  refine ⟨_, pending, rfl, rfl, ?_, ?_, ?_⟩
  · rw [(bytewise_reading_undoes_writing carries 2).1 _ rfl]
    rfl
  · rw [(bytewise_reading_undoes_writing carries 3).1 _ rfl, if_pos ⟨rfl, last⟩]
    rfl
  · exact (bytewise_reading_undoes_writing carries 4).2.1 (Nat.le_refl 4)

end Feed

end Aquarium
