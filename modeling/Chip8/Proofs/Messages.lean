import Chip8.Fault
import Chip8.Proofs.Numerals
import Mathlib.Data.List.Basic

/-!
# What a message tells

The message of a fault has its numbers between words that no digit begins with. So the numbers are
read back, and with the first words of the message they tell the fault.

* `Fault.behind?`, `Fault.nothingBut?`: the text behind some words, and whether it is nothing else.
* `Fault.numberIn?`, `Fault.numbersIn?`: the numbers between the words of a sentence.
* `Fault.sizeOf?`, `Fault.depthOf?`, `Fault.returnOf?`, `Fault.placeOf?`: readers of the messages.
* `Fault.ofMessage?`: the fault that a message is about.
* `message_outOfSpace`, `message_stackOverflow`, `message_stackUnderflow`,
  `message_memoryOutOfBounds`: the messages with their numbers in digits.
* `message_determines_fault`: that every fault is read back from its message, and how the numbers in
  it are written.
-/

namespace Chip8.Fault

/-! ## Reading -/

/-- The text behind the words that it begins with, if it does. -/
def behind? (words : String) (text : List Char) : Option (List Char) :=
  words.toList.isPrefixOf? text

/-- Succeeds if there is nothing but the words. -/
def nothingBut? (words : String) (text : List Char) : Option Unit :=
  if text = words.toList then some () else none

/-- The number in a sentence that has words in front of it and behind it. -/
def numberIn? (base : Nat) (front back : String) (text : List Char) : Option Nat := do
  let text ← behind? front text
  let (n, text) ← Numeral.read? base text
  nothingBut? back text
  return n

/-- The two numbers in a sentence that also has words between them. -/
def numbersIn? (base : Nat) (front middle back : String) (text : List Char) :
    Option (Nat × Nat) := do
  let text ← behind? front text
  let (m, text) ← Numeral.read? base text
  let n ← numberIn? base middle back text
  return (m, n)

/-- Reads that an image does not fit. -/
def sizeOf? (text : List Char) : Option Fault :=
  (numbersIn? 10 "program of " " bytes does not fit in the " " bytes available" text).map
    fun sizes => .outOfSpace sizes.1 sizes.2

/-- Reads that too many calls were open. -/
def depthOf? (text : List Char) : Option Fault :=
  (numberIn? 10 "stack overflow: more than " " nested subroutine calls" text).map .stackOverflow

/-- Reads that no call was open. The place is an address of two bytes. -/
def returnOf? (text : List Char) : Option Fault :=
  (numberIn? 16 "stack underflow: return at 0x" " with no subroutine to return from" text).bind
    fun pc => if pc < 0x10000 then some (.stackUnderflow (UInt16.ofNat pc)) else none

/-- Reads that an access left memory. -/
def placeOf? (text : List Char) : Option Fault :=
  (numberIn? 16 "memory access out of bounds at address 0x" "" text).map .memoryOutOfBounds

/-- The fault that a message is about. -/
def ofMessage? (message : String) : Option Fault :=
  let text := message.toList
  sizeOf? text <|> depthOf? text <|> returnOf? text <|> placeOf? text

/-! ## Reading what is spelled -/

/-- What is behind words is what was put there. -/
theorem behind?_append (words : String) (text : List Char) :
    behind? words (words.toList ++ text) = some text :=
  List.isPrefixOf?_eq_some_iff_append_eq.mpr rfl

/-- Words are nothing but themselves. -/
theorem nothingBut?_self (words : String) : nothingBut? words words.toList = some () :=
  if_pos rfl

section spelled

variable {base m n : Nat} {first digits : List Char}

/-- A number ends in front of a blank, and with the text. -/
theorem read?_append_of_blank (hdigits : Numeral.Spells base digits n) {rest : List Char}
    (hblank : rest.headD ' ' = ' ') : Numeral.read? base (digits ++ rest) = some (n, rest) := by
  have hrow : ' ' ∉ Numeral.row := by decide
  apply hdigits.read?_append
  intro next hnext
  have hnext' : next = ' ' := by
    rw [← hblank, List.headD_eq_head?_getD, Option.mem_def.mp hnext, Option.getD_some]
  rw [hnext']
  exact List.idxOf?_eq_none_iff.mpr fun hmem => hrow (List.mem_of_mem_take hmem)

/-- The number in a sentence is the one that is spelled there. -/
theorem numberIn?_append (hdigits : Numeral.Spells base digits n) (front : String) {back : String}
    (hback : back.toList.headD ' ' = ' ') :
    numberIn? base front back (front.toList ++ (digits ++ back.toList)) = some n := by
  simp only [numberIn?, behind?_append, read?_append_of_blank hdigits hback, nothingBut?_self,
    Option.bind_eq_bind, Option.bind_some, Option.pure_def]

/-- So are two numbers in a sentence. -/
theorem numbersIn?_append (hfirst : Numeral.Spells base first m)
    (hdigits : Numeral.Spells base digits n) (front : String) {middle back : String}
    (hmiddle : ∀ rest, (middle.toList ++ rest).headD ' ' = ' ')
    (hback : back.toList.headD ' ' = ' ') :
    numbersIn? base front middle back
        (front.toList ++ (first ++ (middle.toList ++ (digits ++ back.toList)))) = some (m, n) := by
  simp only [numbersIn?, behind?_append, read?_append_of_blank hfirst (hmiddle _),
    numberIn?_append hdigits middle hback, Option.bind_eq_bind, Option.bind_some, Option.pure_def]

end spelled

/-- Two sizes are read where they are spelled. -/
theorem sizeOf?_append {size max : Nat} {first second : List Char}
    (hfirst : Numeral.Spells 10 first size) (hsecond : Numeral.Spells 10 second max) :
    sizeOf? ("program of ".toList ++ (first ++ (" bytes does not fit in the ".toList ++
      (second ++ " bytes available".toList)))) = some (.outOfSpace size max) := by
  have hread : numbersIn? 10 "program of " " bytes does not fit in the " " bytes available" _ =
    some (size, max) := numbersIn?_append hfirst hsecond _ (fun _ => rfl) rfl
  unfold sizeOf?
  rw [hread, Option.map_some]

/-- A number of calls is read where it is spelled. -/
theorem depthOf?_append {capacity : Nat} {digits : List Char}
    (hdigits : Numeral.Spells 10 digits capacity) :
    depthOf? ("stack overflow: more than ".toList ++ (digits ++
      " nested subroutine calls".toList)) = some (.stackOverflow capacity) := by
  have hread : numberIn? 10 "stack overflow: more than " " nested subroutine calls" _ =
    some capacity := numberIn?_append hdigits _ rfl
  unfold depthOf?
  rw [hread, Option.map_some]

/-- The place of a return is read where it is spelled. -/
theorem returnOf?_append {pc : UInt16} {digits : List Char}
    (hdigits : Numeral.Spells 16 digits pc.toNat) :
    returnOf? ("stack underflow: return at 0x".toList ++ (digits ++
      " with no subroutine to return from".toList)) = some (.stackUnderflow pc) := by
  have hread : numberIn? 16 "stack underflow: return at 0x" " with no subroutine to return from" _ =
    some pc.toNat := numberIn?_append hdigits _ rfl
  have hsmall : pc.toNat < 0x10000 := pc.toNat_lt
  unfold returnOf?
  rw [hread, Option.bind_some, if_pos hsmall, UInt16.ofNat_toNat]

/-- The address of an access is read where it is spelled. -/
theorem placeOf?_append {address : Nat} {digits : List Char}
    (hdigits : Numeral.Spells 16 digits address) :
    placeOf? ("memory access out of bounds at address 0x".toList ++ digits) =
      some (.memoryOutOfBounds address) := by
  have hread : numberIn? 16 "memory access out of bounds at address 0x" "" _ = some address :=
    numberIn?_append hdigits _ rfl
  have hall : digits ++ "".toList = digits := List.append_nil digits
  rw [hall] at hread
  unfold placeOf?
  rw [hread, Option.map_some]

/-! ## The messages -/

/-- Two sizes stand in the message of an image that does not fit. -/
theorem message_outOfSpace (size max : Nat) :
    ∃ first second, Numeral.IsDecimal first size ∧ Numeral.IsDecimal second max ∧
      (outOfSpace size max).message =
        "program of " ++ String.ofList first ++ " bytes does not fit in the " ++
          String.ofList second ++ " bytes available" := by
  refine ⟨_, _, Numeral.isDecimal_toDigits size, Numeral.isDecimal_toDigits max, ?_⟩
  rw [← Nat.toString_eq_ofList_toDigits, ← Nat.toString_eq_ofList_toDigits]
  rfl

/-- A number of calls stands in the message of a call too many. -/
theorem message_stackOverflow (capacity : Nat) :
    ∃ digits, Numeral.IsDecimal digits capacity ∧
      (stackOverflow capacity).message =
        "stack overflow: more than " ++ String.ofList digits ++ " nested subroutine calls" := by
  refine ⟨_, Numeral.isDecimal_toDigits capacity, ?_⟩
  rw [← Nat.toString_eq_ofList_toDigits]
  rfl

/-- An address stands in the message of a return without a call. -/
theorem message_stackUnderflow (pc : UInt16) :
    ∃ digits, Numeral.IsAddress digits pc.toNat ∧
      (stackUnderflow pc).message =
        "stack underflow: return at 0x" ++ String.ofList digits ++
          " with no subroutine to return from" := by
  refine ⟨_, Numeral.isAddress_padded pc.toNat, ?_⟩
  show "stack underflow: return at " ++ ("0x" ++ _) ++ _ = _
  rw [← String.append_assoc]
  rfl

/-- An address stands at the end of the message of an access that left memory. -/
theorem message_memoryOutOfBounds (address : Nat) :
    ∃ digits, Numeral.IsAddress digits address ∧
      (memoryOutOfBounds address).message =
        "memory access out of bounds at address 0x" ++ String.ofList digits := by
  refine ⟨_, Numeral.isAddress_padded address, ?_⟩
  show "memory access out of bounds at address " ++ ("0x" ++ _) = _
  rw [← String.append_assoc]
  rfl

/-- **A fault is read back from its message.** -/
theorem ofMessage?_message (fault : Fault) : ofMessage? fault.message = some fault := by
  -- The readers that are tried before the right one stop at the first words.
  cases fault with
  | outOfSpace size max =>
    obtain ⟨first, second, hfirst, hsecond, hmessage⟩ := message_outOfSpace size max
    rw [ofMessage?, hmessage]
    simp only [String.toList_append, String.toList_ofList, List.append_assoc]
    rw [sizeOf?_append hfirst.spells hsecond.spells]
    rfl
  | stackOverflow capacity =>
    obtain ⟨digits, hdigits, hmessage⟩ := message_stackOverflow capacity
    have hsize (rest : List Char) :
        sizeOf? ("stack overflow: more than ".toList ++ rest) = none := rfl
    rw [ofMessage?, hmessage]
    simp only [String.toList_append, String.toList_ofList, List.append_assoc]
    rw [hsize, depthOf?_append hdigits.spells]
    rfl
  | stackUnderflow pc =>
    obtain ⟨digits, hdigits, hmessage⟩ := message_stackUnderflow pc
    have hsize (rest : List Char) :
        sizeOf? ("stack underflow: return at 0x".toList ++ rest) = none := rfl
    have hdepth (rest : List Char) :
        depthOf? ("stack underflow: return at 0x".toList ++ rest) = none := rfl
    rw [ofMessage?, hmessage]
    simp only [String.toList_append, String.toList_ofList, List.append_assoc]
    rw [hsize, hdepth, returnOf?_append hdigits.spells]
    rfl
  | memoryOutOfBounds address =>
    obtain ⟨digits, hdigits, hmessage⟩ := message_memoryOutOfBounds address
    have hsize (rest : List Char) :
        sizeOf? ("memory access out of bounds at address 0x".toList ++ rest) = none := rfl
    have hdepth (rest : List Char) :
        depthOf? ("memory access out of bounds at address 0x".toList ++ rest) = none := rfl
    have hreturn (rest : List Char) :
        returnOf? ("memory access out of bounds at address 0x".toList ++ rest) = none := rfl
    rw [ofMessage?, hmessage]
    simp only [String.toList_append, String.toList_ofList]
    rw [hsize, hdepth, hreturn, placeOf?_append hdigits.spells]
    rfl

/-- **A message determines its fault.** Every fault is read back from its message, whatever numbers
it holds, so no two faults have the same message. The sizes of an image and the number of open calls
are written in decimal without leading zeros. The places of a return and of an access are written as
`0x` and upper-case hexadecimal digits, four of them below `0x10000` and otherwise the fewest that
stand for the place. -/
theorem message_determines_fault :
    (∀ fault : Fault, ofMessage? fault.message = some fault) ∧
      Function.Injective message ∧
      (∀ size max, ∃ first second,
        Numeral.IsDecimal first size ∧ Numeral.IsDecimal second max ∧
          (outOfSpace size max).message =
            "program of " ++ String.ofList first ++ " bytes does not fit in the " ++
              String.ofList second ++ " bytes available") ∧
      (∀ capacity, ∃ digits, Numeral.IsDecimal digits capacity ∧
        (stackOverflow capacity).message =
          "stack overflow: more than " ++ String.ofList digits ++ " nested subroutine calls") ∧
      (∀ pc : UInt16, ∃ digits, Numeral.IsAddress digits pc.toNat ∧ digits.length = 4 ∧
        (stackUnderflow pc).message =
          "stack underflow: return at 0x" ++ String.ofList digits ++
            " with no subroutine to return from") ∧
      ∀ address, ∃ digits, Numeral.IsAddress digits address ∧
        (memoryOutOfBounds address).message =
          "memory access out of bounds at address 0x" ++ String.ofList digits := by
  refine ⟨ofMessage?_message, ?_, message_outOfSpace, message_stackOverflow, ?_,
    message_memoryOutOfBounds⟩
  · intro left right hsame
    apply Option.some.inj
    calc some left = ofMessage? left.message := (ofMessage?_message left).symm
      _ = ofMessage? right.message := congrArg ofMessage? hsame
      _ = some right := ofMessage?_message right
  · intro pc
    obtain ⟨digits, hdigits, hmessage⟩ := message_stackUnderflow pc
    exact ⟨digits, hdigits, hdigits.four pc.toNat_lt, hmessage⟩

/-- An address that needs five digits is shown with five. -/
example : (memoryOutOfBounds 0x1A2B3).message =
    "memory access out of bounds at address 0x1A2B3" := by
  decide +kernel

end Chip8.Fault
