import Chip8.CallStack
import Chip8.Keypad
import Chip8.Memory
import Chip8.Opcode
import Chip8.Screen

/-!
# The state of a machine

Everything that instructions read and change.

* `Registers`: V0 to VF, of which VF also receives the flags.
* `State`: registers, timers, memory, screen and the wait for a key.
* `State.tick`: one beat of both timers.
* `State.poll`: one look at the keys while a wait is on.
-/

namespace Chip8

/-- The bytes in V0 to VF. -/
abbrev Registers := Block 16

/-- The byte in a register. -/
def Registers.get (registers : Registers) (x : Register) : UInt8 :=
  registers[x]

/-- Puts a byte into a register. -/
def Registers.put (registers : Registers) (x : Register) (byte : UInt8) : Registers :=
  registers.set x.val byte x.isLt

/-- After a put the register holds the byte and the others are as they were. -/
theorem Registers.get_put (registers : Registers) (x y : Register) (byte : UInt8) :
    (registers.put x byte).get y = if y = x then byte else registers.get y := by
  simp only [get, put, Fin.getElem_fin, Vector.getElem_set, Fin.ext_iff, eq_comm]

/-- Everything that instructions read and change. -/
structure State where
  /-- The registers V0 to VF. -/
  v : Registers := Vector.replicate 16 0
  /-- The index register, an address. -/
  i : UInt16 := 0
  /-- The address of the next instruction. -/
  pc : UInt16 := 0x200
  /-- The return addresses of the open calls. -/
  stack : CallStack := .empty
  /-- The delay timer. -/
  delay : UInt8 := 0
  /-- The sound timer; a tone sounds while it is not zero. -/
  sound : UInt8 := 0
  /-- The memory. -/
  memory : Memory := .initial
  /-- The screen. -/
  screen : Screen := .blank
  /-- Whether the screen was drawn on or cleared since it was last taken. -/
  redraw : Bool := false
  /-- The register that a key is awaited for. -/
  awaiting : Option Register := none

namespace State

instance : Inhabited State := ⟨{}⟩

/-- A timer one beat later; it stops at zero. -/
def countDown (timer : UInt8) : UInt8 :=
  if timer = 0 then 0 else timer - 1

/-- Both timers one beat later. -/
def tick (state : State) : State :=
  { state with delay := countDown state.delay, sound := countDown state.sound }

/-- A key that is down ends the wait for register `x`: its number goes into the register and the
program goes on after the waiting instruction. While no key is down nothing changes. -/
def poll (state : State) (x : Register) (keyboard : Keyboard) : State :=
  match keyboard.pressedKey with
  | none => state
  | some key =>
    { state with v := state.v.put x key, awaiting := none, pc := state.pc + 2 }

/-- A beat takes one off a timer that is not yet zero. -/
theorem toNat_countDown (timer : UInt8) : (countDown timer).toNat = timer.toNat - 1 := by
  rw [countDown]
  split
  · next h => rw [h]; rfl
  · next h =>
    have hpos : (1 : UInt8) ≤ timer := by
      rw [UInt8.le_iff_toNat_le]
      have : timer.toNat ≠ 0 := fun h0 => h (UInt8.toNat_inj.mp h0)
      exact Nat.one_le_iff_ne_zero.mpr this
    rw [UInt8.toNat_sub_of_le _ _ hpos]
    rfl

end State

end Chip8
