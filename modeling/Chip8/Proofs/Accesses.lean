import Chip8.Proofs.Faults
import Mathlib.Order.Bounds.Basic

/-!
# The place that an access out of bounds names

An access that leaves memory is refused, and the refusal names a place: the first place outside
memory that the access would have come to. There is one exception. An access to no byte at all has
no such place, but it is refused, too, when it begins beyond the end of memory, and then it names
the place where it begins. Drawing a sprite without rows is such an access. And a read from memory
whose end does not fit into 64 bits is not refused at all: it breaks off.

* `Memory.outside`: the places outside memory among those of an access.
* `Memory.exists_read?_eq_ok_iff`, `Memory.read?_eq_error_iff_names`, `Memory.read?_eq_none_iff`:
  when a read succeeds, when it is refused and what the refusal names, and when it breaks off.
* `Opcode.reach?`, `State.Accesses`, `State.outside`: the accesses of the next instruction, said on
  the word at the program counter, and the places outside memory that they come to.
* `State.faults_memoryOutOfBounds_iff`: the instruction is out of bounds exactly if one of its
  accesses leaves memory, and there is no more than one such access.
* `out_of_bounds_names_the_first_place_outside`: both together, for steps and for reads.
* `empty_sprite_is_refused_beyond_memory`: a program that draws a sprite without rows beyond the end
  of memory, and halts.
-/

namespace Chip8

/-! ## A single access -/

namespace Memory

/-- The places outside memory among the `count` places from `start` on. -/
def outside (start count : Nat) : Set Nat :=
  {address | start ≤ address ∧ address < start + count ∧ 4096 ≤ address}

variable {start count : Nat}

/-- An access to some byte that leaves memory comes to a first place outside. -/
theorem isLeast_outside (hcount : 0 < count) (hover : 4096 < start + count) :
    IsLeast (outside start count) (max start 4096) := by
  refine ⟨⟨?_, ?_, ?_⟩, ?_⟩
  · exact Nat.le_max_left start 4096
  · omega
  · exact Nat.le_max_right start 4096
  · rintro address ⟨hstart, -, hend⟩
    exact Nat.max_le.mpr ⟨hstart, hend⟩

/-- An access that comes to a place outside leaves memory. -/
theorem lt_of_mem_outside {address : Nat} (hmem : address ∈ outside start count) :
    0 < count ∧ 4096 < start + count := by
  obtain ⟨hstart, hlt, hend⟩ := hmem
  omega

/-- An access to no byte comes to no place outside. -/
theorem outside_zero (start : Nat) : outside start 0 = ∅ := by
  rw [Set.eq_empty_iff_forall_notMem]
  intro address hmem
  exact Nat.lt_irrefl 0 (lt_of_mem_outside hmem).1

/-- What the refusal of an access names: the first place outside that it comes to, or, of an access
to no byte that begins beyond the end of memory, the place where it begins. -/
def Names (start count address : Nat) : Prop :=
  IsLeast (outside start count) address ∨ count = 0 ∧ 4096 < start ∧ address = start

/-- An access leaves memory exactly if its refusal names a place, and that is the farther one of
where it begins and where memory ends. -/
theorem names_iff {address : Nat} :
    Names start count address ↔ 4096 < start + count ∧ address = max start 4096 := by
  constructor
  · rintro (hleast | ⟨rfl, hbeyond, rfl⟩)
    · obtain ⟨hcount, hover⟩ := lt_of_mem_outside hleast.1
      exact ⟨hover, hleast.unique (isLeast_outside hcount hover)⟩
    · omega
  · rintro ⟨hover, rfl⟩
    rcases Nat.eq_zero_or_pos count with rfl | hcount
    · exact .inr ⟨rfl, by omega, by omega⟩
    · exact .inl (isLeast_outside hcount hover)

/-- An access stays in memory exactly if each of its bytes lies there, and it does not begin beyond
the end for no byte at all. -/
theorem add_le_iff_forall_lt :
    start + count ≤ 4096 ↔ (∀ k < count, start + k < 4096) ∧ ¬(count = 0 ∧ 4096 < start) := by
  constructor
  · intro hin
    exact ⟨fun k hk => by omega, by omega⟩
  · rintro ⟨hinside, hbegins⟩
    rcases Nat.eq_zero_or_pos count with rfl | hcount
    · omega
    · have hlast := hinside (count - 1) (by omega)
      omega

/-- **A read is refused when it leaves memory, with the place that its refusal names**, unless its
end overflows. -/
theorem read?_eq_error_iff_names {memory : Memory} {start : UInt16} {count : UInt64}
    {fault : Fault} :
    memory.read? start count = some (.error fault) ↔
      start.toNat + count.toNat < UInt64.size ∧
        ∃ address, fault = .memoryOutOfBounds address ∧
          Names start.toNat count.toNat address := by
  rw [read?, Option.ite_none_right_eq_some, Option.some_inj, read_eq_error_iff]
  refine and_congr_right fun _ => ?_
  constructor
  · rintro ⟨hover, rfl⟩
    exact ⟨_, rfl, names_iff.mpr ⟨hover, rfl⟩⟩
  · rintro ⟨address, rfl, hnames⟩
    obtain ⟨hover, rfl⟩ := names_iff.mp hnames
    exact ⟨hover, rfl⟩

/-- **A read succeeds exactly if each of its bytes lies in memory**, and it does not begin beyond
the end for no byte at all. -/
theorem exists_read?_eq_ok_iff {memory : Memory} {start : UInt16} {count : UInt64} :
    (∃ data, memory.read? start count = some (.ok data)) ↔
      (∀ k < count.toNat, start.toNat + k < 4096) ∧
        ¬(count.toNat = 0 ∧ 4096 < start.toNat) := by
  rw [← add_le_iff_forall_lt]
  constructor
  · rintro ⟨data, hread⟩
    rw [read?, Option.ite_none_right_eq_some, Option.some_inj] at hread
    refine Nat.le_of_not_lt fun hover => ?_
    rw [read_of_lt memory hover] at hread
    cases hread.2
  · intro hin
    rw [read?_of_count_le _ _ (by omega), read_of_le _ hin]
    exact ⟨_, rfl⟩

/-- A read breaks off exactly if its end overflows. -/
theorem read?_eq_none_iff {memory : Memory} {start : UInt16} {count : UInt64} :
    memory.read? start count = none ↔ UInt64.size ≤ start.toNat + count.toNat := by
  constructor
  · intro hnone
    refine Nat.le_of_not_lt fun hends => ?_
    rw [read?_of_lt memory hends] at hnone
    cases hnone
  · exact read?_of_le memory

end Memory

/-! ## The accesses of an instruction -/

/-- How many bytes from the index register on the instruction of an opcode reads or writes, if it
is one of those that do. -/
def Opcode.reach? (op : Opcode) : Option Nat :=
  if op.family = 0xD then some op.n.val
  else if op.family = 0xF ∧ op.kk = 0x33 then some 3
  else if op.family = 0xF ∧ (op.kk = 0x55 ∨ op.kk = 0x65) then some (op.x.val + 1)
  else none

/-- An instruction that reaches for no byte draws a sprite without rows. -/
theorem Opcode.reach?_eq_zero_iff {op : Opcode} :
    op.reach? = some 0 ↔ op.family = 0xD ∧ op.n = 0 := by
  unfold reach?
  split_ifs with hdraw hdecimal htransfer
  · rw [Option.some.injEq, Fin.val_eq_zero_iff]
    exact ⟨fun h => ⟨hdraw, h⟩, fun h => h.2⟩
  · exact ⟨nofun, fun h => absurd h.1 hdraw⟩
  · exact ⟨nofun, fun h => absurd h.1 hdraw⟩
  · exact ⟨nofun, fun h => absurd h.1 hdraw⟩

namespace State

/-- The accesses of the next instruction, each with where it begins and its number of bytes: the two
bytes of the word, and what the instruction reaches for from the index register on. -/
inductive Accesses (state : State) : Nat → Nat → Prop
  | fetch : Accesses state state.pc.toNat 2
  | reach {word : UInt16} {count : Nat} (hfetch : state.memory.word state.pc = .ok word)
      (hreach : Opcode.reach? ⟨word⟩ = some count) : Accesses state state.i.toNat count

/-- The places outside memory that the next instruction comes to. -/
def outside (state : State) : Set Nat :=
  {address | ∃ start count, state.Accesses start count ∧ address ∈ Memory.outside start count}

/-- Whether the next instruction draws a sprite without rows from beyond the end of memory, which is
at this place. -/
def DrawsNothingAt (state : State) (address : Nat) : Prop :=
  (∃ word, state.memory.word state.pc = .ok word ∧
    Opcode.family ⟨word⟩ = 0xD ∧ Opcode.n ⟨word⟩ = 0) ∧
    4096 < state.i.toNat ∧ address = state.i.toNat

variable {state : State} {address : Nat}

/-- When the word is in memory, its two bytes are. -/
theorem outside_fetch {word : UInt16} (hfetch : state.memory.word state.pc = .ok word) :
    Memory.outside state.pc.toNat 2 = ∅ := by
  have hin := Memory.lt_of_word_eq_ok hfetch
  rw [Set.eq_empty_iff_forall_notMem]
  intro address hmem
  have hover := (Memory.lt_of_mem_outside hmem).2
  omega

/-- **The next instruction is out of bounds exactly if one of its accesses leaves memory.** -/
theorem faults_memoryOutOfBounds_iff :
    state.Faults (.memoryOutOfBounds address) ↔
      ∃ start count, state.Accesses start count ∧ Memory.Names start count address := by
  simp only [Memory.names_iff]
  constructor
  · intro hfaults
    cases hfaults with
    | fetch hpc => exact ⟨_, _, .fetch, by omega, rfl⟩
    | draw hfetch hfamily hover =>
      exact ⟨_, _, .reach hfetch (if_pos hfamily), hover, rfl⟩
    | storeDecimal hfetch hfamily hkk hover =>
      refine ⟨_, _, .reach hfetch ?_, hover, rfl⟩
      simp [Opcode.reach?, hfamily, hkk]
    | @transfer word hfetch hfamily hkk hover =>
      have hreach : Opcode.reach? ⟨word⟩ = some ((Opcode.x ⟨word⟩).val + 1) := by
        rcases hkk with hkk | hkk
        · simp [Opcode.reach?, hfamily, hkk]
        · simp [Opcode.reach?, hfamily, hkk]
      exact ⟨_, _, .reach hfetch hreach, hover, rfl⟩
  · rintro ⟨start, count, haccess, hover, rfl⟩
    cases haccess with
    | fetch => exact .fetch (by omega)
    | reach hfetch hreach =>
      unfold Opcode.reach? at hreach
      split_ifs at hreach with hdraw hdecimal htransfer
      · cases hreach
        exact .draw hfetch hdraw hover
      · cases hreach
        exact .storeDecimal hfetch hdecimal.1 hdecimal.2 hover
      · cases hreach
        exact .transfer hfetch htransfer.1 htransfer.2 hover

/-- No more than one access leaves memory: without a word there is no other access, and with one its
two bytes are in memory. -/
theorem outside_eq_of_names {start count : Nat} (haccess : state.Accesses start count)
    (hnames : Memory.Names start count address) : state.outside = Memory.outside start count := by
  obtain ⟨hover, -⟩ := Memory.names_iff.mp hnames
  apply Set.Subset.antisymm
  · rintro place ⟨otherStart, otherCount, hother, hmem⟩
    cases haccess with
    | fetch =>
      cases hother with
      | fetch => exact hmem
      | reach hfetch _ =>
        have hin := Memory.lt_of_word_eq_ok hfetch
        omega
    | reach hfetch hreach =>
      cases hother with
      | fetch =>
        rw [outside_fetch hfetch] at hmem
        exact absurd hmem (Set.notMem_empty place)
      | reach hfetch' hreach' =>
        cases hfetch.symm.trans hfetch'
        cases hreach.symm.trans hreach'
        exact hmem
  · intro place hmem
    exact ⟨start, count, haccess, hmem⟩

/-- A sprite without rows comes to no place outside memory. -/
theorem DrawsNothingAt.outside_eq (hdraws : state.DrawsNothingAt address) :
    state.outside = ∅ := by
  obtain ⟨⟨word, hfetch, hsprite⟩, hbeyond, rfl⟩ := hdraws
  have hreach := Opcode.reach?_eq_zero_iff.mpr hsprite
  rw [outside_eq_of_names (.reach hfetch hreach) (.inr ⟨rfl, hbeyond, rfl⟩), Memory.outside_zero]

/-- **What an instruction out of bounds names**: the first place outside memory that it comes to, or
where it draws a sprite without rows. -/
theorem faults_memoryOutOfBounds_iff_isLeast :
    state.Faults (.memoryOutOfBounds address) ↔
      IsLeast state.outside address ∨ state.DrawsNothingAt address := by
  rw [faults_memoryOutOfBounds_iff]
  constructor
  · rintro ⟨start, count, haccess, hnames⟩
    rw [outside_eq_of_names haccess hnames]
    refine hnames.imp id ?_
    rintro ⟨rfl, hbeyond, rfl⟩
    cases haccess with
    | reach hfetch hreach =>
      exact ⟨⟨_, hfetch, Opcode.reach?_eq_zero_iff.mp hreach⟩, hbeyond, rfl⟩
  · rintro (hleast | ⟨⟨word, hfetch, hsprite⟩, hbeyond, rfl⟩)
    · obtain ⟨start, count, haccess, hmem⟩ := hleast.1
      obtain ⟨hcount, hover⟩ := Memory.lt_of_mem_outside hmem
      have hfirst := Memory.isLeast_outside hcount hover
      have hsame := outside_eq_of_names haccess (.inl hfirst)
      rw [hsame] at hleast
      exact ⟨start, count, haccess, .inl hleast⟩
    · have hreach := Opcode.reach?_eq_zero_iff.mpr hsprite
      exact ⟨_, _, .reach hfetch hreach, .inr ⟨rfl, hbeyond, rfl⟩⟩

end State

/-- **A machine that is not halted fails exactly if it awaits no key and its next instruction is at
fault.** -/
theorem Machine.step_eq_error_iff_faults {machine : Machine} (hrun : machine.halted = none)
    (input : Input) {fault : Fault} :
    (machine.step input).1 = .error fault ↔
      machine.isAwaitingKey = false ∧ machine.state.Faults fault := by
  have hawaiting : machine.isAwaitingKey = machine.state.awaiting.isSome := rfl
  rw [← State.executeNext_eq_error_iff_faults input, hawaiting]
  rcases hwait : machine.state.awaiting with _ | x
  · rcases hnext : machine.state.executeNext input with reason | after
    · simp [step_of_error hrun hwait hnext]
    · simp [step_of_ok hrun hwait hnext]
  · simp [step_of_awaiting hrun hwait]

/-- **An access out of bounds names the first place outside memory that it would have come to**,
unless it is an access to no byte. A step of a machine that is not halted fails out of bounds
exactly if no key is awaited and the next instruction comes to a place outside memory, with the first
such place, or the instruction draws a sprite without rows from beyond the end of memory, with the
place it would draw from; in that case it comes to no place outside memory. And a read succeeds
exactly if each of its bytes lies in memory, unless it begins beyond the end for no byte at all;
otherwise it names its first byte outside, or where it begins, as long as the sum of its start and
its length fits into 64 bits; if not, it breaks off. -/
theorem out_of_bounds_names_the_first_place_outside {machine : Machine}
    (hrun : machine.halted = none) (input : Input) :
    (∀ address, (machine.step input).1 = .error (.memoryOutOfBounds address) ↔
        machine.isAwaitingKey = false ∧
          (IsLeast machine.state.outside address ∨ machine.state.DrawsNothingAt address)) ∧
      (∀ address, machine.state.DrawsNothingAt address → machine.state.outside = ∅) ∧
      ∀ (memory : Memory) (start : UInt16) (count : UInt64),
        ((∃ data, memory.read? start count = some (.ok data)) ↔
          (∀ k < count.toNat, start.toNat + k < 4096) ∧
            ¬(count.toNat = 0 ∧ 4096 < start.toNat)) ∧
        (∀ fault, memory.read? start count = some (.error fault) ↔
          start.toNat + count.toNat < UInt64.size ∧
            ∃ address, fault = .memoryOutOfBounds address ∧
              (IsLeast (Memory.outside start.toNat count.toNat) address ∨
                count.toNat = 0 ∧ 4096 < start.toNat ∧ address = start.toNat)) ∧
        (memory.read? start count = none ↔ UInt64.size ≤ start.toNat + count.toNat) := by
  refine ⟨?_, ?_, ?_⟩
  · intro address
    rw [Machine.step_eq_error_iff_faults hrun, State.faults_memoryOutOfBounds_iff_isLeast]
  · intro address hdraws
    exact hdraws.outside_eq
  · intro memory start count
    exact ⟨Memory.exists_read?_eq_ok_iff, fun _ => Memory.read?_eq_error_iff_names,
      Memory.read?_eq_none_iff⟩

/-- A program that points the index register at the last byte but one and saves three registers
there. It fails, and names the place behind the last byte. -/
theorem out_of_bounds_names_the_first_place_outside_saving :
    let idle : Input := { keyboard := Keypad.empty.keyboard }
    let machine := (Machine.ofImage [0xAF, 0xFE, 0xF2, 0x55]).run [.step idle]
    machine.halted = none ∧ (machine.step idle).1 = .error (.memoryOutOfBounds 0x1000) ∧
      IsLeast machine.state.outside 0x1000 := by
  intro idle machine
  have hevaluated : machine.halted = none ∧
      (machine.step idle).1 = .error (.memoryOutOfBounds 0x1000) ∧
      machine.state.i.toNat = 0xFFE := by
    decide +kernel
  obtain ⟨hrun, hfails, hplace⟩ := hevaluated
  obtain ⟨hnames, -⟩ := out_of_bounds_names_the_first_place_outside hrun idle
  refine ⟨hrun, hfails, ?_⟩
  rcases ((hnames 0x1000).mp hfails).2 with hleast | ⟨-, hbeyond, -⟩
  · exact hleast
  · omega

/-- **A sprite without rows is refused beyond memory.** A program points the index register at
`1001` and draws a sprite without rows. It halts there, out of bounds at `1001`, although it would
not have accessed any place outside memory; and so does a read of no byte at all from `1001` on. -/
theorem empty_sprite_is_refused_beyond_memory :
    let idle : Input := { keyboard := Keypad.empty.keyboard }
    let image : List UInt8 := [0xAF, 0xFF, 0x60, 0x02, 0xF0, 0x1E, 0xD0, 0x00]
    let machine := (Machine.ofImage image).run (List.replicate 3 (.step idle))
    machine.Reachable ∧ machine.halted = none ∧
      (machine.step idle).1 = .error (.memoryOutOfBounds 0x1001) ∧
      machine.state.outside = ∅ ∧
      machine.state.memory.read? 0x1001 0 = some (.error (.memoryOutOfBounds 0x1001)) := by
  intro idle image machine
  have hload : Machine.load image = .ok (Machine.ofImage image) :=
    Machine.load_eq_ok_iff.mpr ⟨by decide, by decide, rfl⟩
  have hevaluated : machine.halted = none ∧
      (machine.step idle).1 = .error (.memoryOutOfBounds 0x1001) ∧
      machine.state.memory.word machine.state.pc = .ok 0xD000 ∧
      machine.state.i.toNat = 0x1001 := by
    decide +kernel
  obtain ⟨hrun, hfails, hfetch, hplace⟩ := hevaluated
  have hdraws : machine.state.DrawsNothingAt 0x1001 :=
    ⟨⟨0xD000, hfetch, by decide, by decide⟩, by omega, hplace.symm⟩
  exact ⟨(Machine.Reachable.load hload).run _, hrun, hfails, hdraws.outside_eq,
    Memory.read?_eq_error _ (by decide) (by decide)⟩

end Chip8
