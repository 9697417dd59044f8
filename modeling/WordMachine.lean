import WordMachine.Main
import WordMachine.Proofs.History
import WordMachine.Proofs.StepContract
import WordMachine.Proofs.Decoding
import WordMachine.Proofs.InputSchedule
import WordMachine.Proofs.StraightLine
import WordMachine.Proofs.AssemblySource
import WordMachine.Proofs.CellRuns
import WordMachine.Proofs.ListingWalk
import WordMachine.Proofs.NumeralText
import WordMachine.Proofs.TextWords
import WordMachine.Proofs.ListingText
import WordMachine.Proofs.Reassembly
import WordMachine.Proofs.AssembledProgram
import WordMachine.Proofs.ListingPartition
import WordMachine.Proofs.Planned
import WordMachine.Proofs.Recorded
import WordMachine.Proofs.TraceAccount
import WordMachine.Proofs.CallReturn
import WordMachine.Proofs.DebuggerTransparency
import WordMachine.Proofs.LongNumeral
import WordMachine.Proofs.UnseenCell
import WordMachine.Proofs.InputConservation
import WordMachine.Proofs.NarrowValues
import WordMachine.Proofs.MemoryTable
import WordMachine.Proofs.PackedImage
import WordMachine.Proofs.ListingLossless
import WordMachine.Proofs.Halting
import WordMachine.Proofs.RunCommand
import WordMachine.Proofs.InputFile
import WordMachine.Proofs.TraceFile
import WordMachine.Proofs.CommandOutcome
import WordMachine.Proofs.LeftoverByte
import WordMachine.Proofs.ListingCommand
import WordMachine.Proofs.AssembledImage
import WordMachine.Proofs.DebugCommands
import WordMachine.Proofs.SourceLayout
import WordMachine.Proofs.JoinedSources
import WordMachine.Proofs.ConsoleHistory
import WordMachine.Proofs.HexDumpText
import WordMachine.Proofs.TraceStamps
import WordMachine.Proofs.RangeText
import WordMachine.Proofs.LogSetup
