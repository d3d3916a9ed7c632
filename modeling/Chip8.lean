import Chip8.Main
import Chip8.Proofs.AddressWrap
import Chip8.Proofs.Alignment
import Chip8.Proofs.CallStack
import Chip8.Proofs.FaultFreeze
import Chip8.Proofs.FlagArithmetic
import Chip8.Proofs.Footprint
import Chip8.Proofs.FrameBatching
import Chip8.Proofs.FrameText
import Chip8.Proofs.FreshStart
import Chip8.Proofs.HeadlessRun
import Chip8.Proofs.InstructionTrace
import Chip8.Proofs.KeyLatch
import Chip8.Proofs.KeyWait
import Chip8.Proofs.Keyword
import Chip8.Proofs.LevelOptions
import Chip8.Proofs.LoadedImage
import Chip8.Proofs.LogDestination
import Chip8.Proofs.LogSelection
import Chip8.Proofs.Mnemonics
import Chip8.Proofs.Numeral
import Chip8.Proofs.PolicyChoice
import Chip8.Proofs.RandomStream
import Chip8.Proofs.RateLimit
import Chip8.Proofs.Redraw
import Chip8.Proofs.Refusal
import Chip8.Proofs.RunChecks
import Chip8.Proofs.SettingsFile
import Chip8.Proofs.SpriteDrawing
import Chip8.Proofs.StackBreach
import Chip8.Proofs.TimerRuns
import Chip8.Proofs.ToneAccounts
import Chip8.Proofs.Transfer
