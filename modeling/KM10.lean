import KM10.AcIndex
import KM10.Arith.Accumulator
import KM10.Arith.Addition
import KM10.Arith.Division
import KM10.Arith.DoubleWord
import KM10.Arith.FindFirstOne
import KM10.Arith.FourWords
import KM10.Arith.LogicalShift
import KM10.Arith.LongProduct
import KM10.Arith.Negation
import KM10.Arith.PackedMagnitude
import KM10.Arith.PairMoves
import KM10.Arith.Product
import KM10.Arith.Rotate
import KM10.Arith.Shift
import KM10.Arith.ShiftPair
import KM10.BlockTransfer
import KM10.Bytes.Adjust
import KM10.Bytes.ByteStream
import KM10.Bytes.Deposit
import KM10.Bytes.Formats
import KM10.Bytes.LocalPointer
import KM10.Bytes.Places
import KM10.Bytes.Pointers
import KM10.CallAgreement
import KM10.Console.TSQueue
import KM10.Console.Typing
import KM10.Debugger.Commands
import KM10.Debugger.Dumps
import KM10.Debugger.History
import KM10.Debugger.Looking
import KM10.Debugger.Sessions
import KM10.Debugger.Stepping
import KM10.Debugger.Tables
import KM10.Devices.AcBlocks
import KM10.Devices.AprRequests
import KM10.Devices.PointerWords
import KM10.Devices.Reset
import KM10.Devices.Routing
import KM10.Devices.Sweep
import KM10.EffectiveAddress
import KM10.Effects.Address
import KM10.Effects.Calls
import KM10.Effects.Control
import KM10.Effects.Frames
import KM10.Effects.Handlers
import KM10.Effects.Logic
import KM10.Effects.OnDevice
import KM10.Effects.Operands
import KM10.Effects.Pass
import KM10.Effects.Plain
import KM10.Effects.Relocate
import KM10.Effects.Results
import KM10.Effects.SamePlace
import KM10.Effects.Stack
import KM10.Effects.Steps
import KM10.Effects.Stores
import KM10.Effects.UUOs
import KM10.Emulate
import KM10.Groups.Boolean
import KM10.Groups.CountFlags
import KM10.Groups.Counts
import KM10.Groups.Half
import KM10.Groups.Moves
import KM10.Groups.Tests
import KM10.Instr.DWord
import KM10.Instr.Disasm
import KM10.Instr.IO
import KM10.Instr.IntBin
import KM10.Instr.Jump
import KM10.Instr.Move
import KM10.Instr.Test
import KM10.Interrupt.Conditions
import KM10.Interrupt.Grant
import KM10.Interrupt.Levels
import KM10.Interrupt.PriorityNesting
import KM10.Interrupt.Requests
import KM10.Interrupt.Service
import KM10.Interrupt.TrapCycle
import KM10.Interrupt.VectorCycle
import KM10.Interrupt.VectorXct
import KM10.Library.Alike
import KM10.Library.BitStream
import KM10.Library.Brackets
import KM10.Library.Carry
import KM10.Library.Census
import KM10.Library.Chase
import KM10.Library.Circular
import KM10.Library.Limbs
import KM10.Library.Nesting
import KM10.Library.Numerals
import KM10.Library.Odometer
import KM10.Library.Rotations
import KM10.Library.Shifts
import KM10.Library.StateExcept
import KM10.Library.Trace
import KM10.Library.Truncated
import KM10.Library.TruthTable
import KM10.Library.Visits
import KM10.Loader.A10
import KM10.Loader.Lines
import KM10.Loader.Loads
import KM10.Loader.Records
import KM10.Machine.Cpu
import KM10.Machine.Devices
import KM10.Machine.Flags
import KM10.Machine.Word
import KM10.MuuoWord
import KM10.NoDivide
import KM10.Reference.Handlers
import KM10.Reference.Machine
import KM10.Reference.Refines
import KM10.Section0
import KM10.ShadowedWords
import KM10.Stack.Adjust
import KM10.Stack.PushPop
import KM10.StackUse
import KM10.Symbols.Handlers
import KM10.Symbols.InStep
import KM10.Symbols.ReadFile
import KM10.Symbols.Relocatable
import KM10.Text.Disassembly
import KM10.Text.Symbolic
import KM10.Text.Words
import KM10.UserMode
import KM10.XctChain
