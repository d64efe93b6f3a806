import Chip8.Block
import Chip8.CallStack
import Chip8.CommandLine
import Chip8.Execution
import Chip8.Fault
import Chip8.Font
import Chip8.Hexadecimal
import Chip8.Host.Device
import Chip8.Host.Event
import Chip8.Host.Layout
import Chip8.Host.Log
import Chip8.Host.Options
import Chip8.Host.Session
import Chip8.Host.Terminal
import Chip8.Image
import Chip8.Instruction
import Chip8.Keypad
import Chip8.Machine
import Chip8.Main
import Chip8.Memory
import Chip8.Opcode
import Chip8.Proofs.AbstractMachine
import Chip8.Proofs.Accesses
import Chip8.Proofs.BoundedStack
import Chip8.Proofs.ByteMap
import Chip8.Proofs.Calls
import Chip8.Proofs.Checked
import Chip8.Proofs.Decoding
import Chip8.Proofs.Drawing
import Chip8.Proofs.DrawingOrder
import Chip8.Proofs.Effects
import Chip8.Proofs.EndOfProgram
import Chip8.Proofs.Faults
import Chip8.Proofs.Flags
import Chip8.Proofs.Halting
import Chip8.Proofs.HeldKeys
import Chip8.Proofs.Histories
import Chip8.Proofs.Invariant
import Chip8.Proofs.KeyInfluence
import Chip8.Proofs.KeySet
import Chip8.Proofs.Keys
import Chip8.Proofs.Messages
import Chip8.Proofs.Numerals
import Chip8.Proofs.PackedScreen
import Chip8.Proofs.Padding
import Chip8.Proofs.Pictures
import Chip8.Proofs.Provenance
import Chip8.Proofs.Redraw
import Chip8.Proofs.Refinement
import Chip8.Proofs.RunningOff
import Chip8.Proofs.Runs
import Chip8.Proofs.Schedule
import Chip8.Proofs.Sessions
import Chip8.Proofs.SpriteHits
import Chip8.Proofs.TakenFrames
import Chip8.Proofs.TextureRows
import Chip8.Proofs.Timers
import Chip8.Proofs.Transfers
import Chip8.Proofs.Truncation
import Chip8.Proofs.Waiting
import Chip8.Screen
import Chip8.State
import Chip8.Texture
