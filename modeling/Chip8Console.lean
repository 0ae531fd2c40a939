import Chip8Console.CommandLine.Argument
import Chip8Console.CommandLine.Configuration
import Chip8Console.CommandLine.Help
import Chip8Console.CommandLine.Reading
import Chip8Console.CommandLine.UsageError
import Chip8Console.CommandLine.Value
import Chip8Console.Environment
import Chip8Console.Error
import Chip8Console.Files.Path
import Chip8Console.Files.Tree
import Chip8Console.Input.KeyTranslator
import Chip8Console.Input.ReleaseLatch
import Chip8Console.Input.TermInput
import Chip8Console.Journal
import Chip8Console.Keypad.Key
import Chip8Console.Keypad.Layout
import Chip8Console.Machine.Any
import Chip8Console.Machine.Basic
import Chip8Console.Machine.CallLog
import Chip8Console.Machine.Interpreter
import Chip8Console.Machine.Frame
import Chip8Console.Machine.Instruction
import Chip8Console.Machine.Memory
import Chip8Console.Machine.Scripted
import Chip8Console.Main
import Chip8Console.Notice
import Chip8Console.Number.BinaryFloat
import Chip8Console.Number.Numeral
import Chip8Console.Number.SquareRoot
import Chip8Console.Number.Word
import Chip8Console.Proofs.AddressPages
import Chip8Console.Proofs.AdmittedHolds
import Chip8Console.Proofs.BurstSilences
import Chip8Console.Proofs.ByteOrder
import Chip8Console.Proofs.CallBlocks
import Chip8Console.Proofs.CatalogFetch
import Chip8Console.Proofs.CleanEnd
import Chip8Console.Proofs.ConsoleMoves
import Chip8Console.Proofs.FailedLoad
import Chip8Console.Proofs.FailedPolls
import Chip8Console.Proofs.FirstPaint
import Chip8Console.Proofs.FittingPicture
import Chip8Console.Proofs.FlagArithmetic
import Chip8Console.Proofs.ForeignWords
import Chip8Console.Proofs.FreshMachine
import Chip8Console.Proofs.FreshStart
import Chip8Console.Proofs.GainValue
import Chip8Console.Proofs.GrowingLog
import Chip8Console.Proofs.GuardedMachine
import Chip8Console.Proofs.HeldKeys
import Chip8Console.Proofs.InstructionEffects
import Chip8Console.Proofs.InstructionFrame
import Chip8Console.Proofs.KeyAgreement
import Chip8Console.Proofs.KeyTransitions
import Chip8Console.Proofs.KeyWait
import Chip8Console.Proofs.LastSelection
import Chip8Console.Proofs.LiveTick
import Chip8Console.Proofs.LongHolds
import Chip8Console.Proofs.MachineOperations
import Chip8Console.Proofs.MadeUpReleases
import Chip8Console.Proofs.NestedCalls
import Chip8Console.Proofs.NoMisstep
import Chip8Console.Proofs.NotesBeside
import Chip8Console.Proofs.OverheardMachine
import Chip8Console.Proofs.OwedTick
import Chip8Console.Proofs.RegisterTransfer
import Chip8Console.Proofs.RigMoves
import Chip8Console.Proofs.ScreenAgreement
import Chip8Console.Proofs.ScreenUse
import Chip8Console.Proofs.SessionHistory
import Chip8Console.Proofs.SessionMoves
import Chip8Console.Proofs.SliceWrites
import Chip8Console.Proofs.SmallTerminal
import Chip8Console.Proofs.SpeakerGivenUp
import Chip8Console.Proofs.SpeakerMoves
import Chip8Console.Proofs.SpeakerStops
import Chip8Console.Proofs.SpriteDrawing
import Chip8Console.Proofs.StableCatalog
import Chip8Console.Proofs.StaleHold
import Chip8Console.Proofs.SteadyTicks
import Chip8Console.Proofs.StepCourse
import Chip8Console.Proofs.TerminalLife
import Chip8Console.Proofs.TickCourse
import Chip8Console.Proofs.TickDelivery
import Chip8Console.Proofs.TimerClock
import Chip8Console.Proofs.TreeAgreement
import Chip8Console.Refresh.Queue
import Chip8Console.Refresh.Token
import Chip8Console.Rom.Basic
import Chip8Console.Rom.Loader
import Chip8Console.Rom.Source
import Chip8Console.Screen.Area
import Chip8Console.Screen.Basic
import Chip8Console.Screen.Picture
import Chip8Console.Screen.Recording
import Chip8Console.Screen.Resolution
import Chip8Console.Screen.TermDisplay
import Chip8Console.Session.Manager
import Chip8Console.Session.Scheduler
import Chip8Console.Sound.Beeper
import Chip8Console.Sound.Silencer
import Chip8Console.Sound.Tone
import Chip8Console.Terminal.Action
import Chip8Console.Terminal.Player
import Chip8Console.Text.Hexadecimal
import Chip8Console.Text.Plain
