import Chip8.Instruction.Encode
import Chip8.Machine.Action
import Chip8.Main
import Chip8.Proofs.Atomicity
import Chip8.Proofs.Failure
import Chip8.Proofs.Halting
import Chip8.Proofs.KeyWait
import Chip8.Proofs.Picture
import Chip8.Proofs.Renewal
import Chip8.Proofs.Success
import Chip8.Proofs.Footprint
import Chip8.Proofs.Brackets
import Chip8.Proofs.Lines
import Chip8.Proofs.Account
import Chip8.Proofs.Entry
import Chip8.Proofs.Telling
import Chip8.Proofs.Requests
import Chip8.Proofs.Counts
import Chip8.Proofs.Stepping
import Chip8.Proofs.Watching
import Chip8.Proofs.Landing
import Chip8.Proofs.Overlay
import Chip8.Proofs.Launching
import Chip8.Proofs.Transfer
import Chip8.Proofs.Index
import Chip8.Proofs.Wording
import Chip8.Proofs.Averaging
import Chip8.Proofs.Keymaps
import Chip8.Proofs.Queue
import Chip8.Proofs.Dump
import Chip8.Proofs.Contents
import Chip8.Proofs.Mirror
import Chip8.Proofs.Defaults
