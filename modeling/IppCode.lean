import IppCode.Command.World
import IppCode.Decoding
import IppCode.Main
import IppCode.Proofs.Frames.Slot
import IppCode.Proofs.Machine.Failure
import IppCode.Proofs.Machine.Forms
import IppCode.Proofs.Source.RoundTrip
import IppCode.Proofs.Verification.Soundness
import IppCode.Proofs.Machine.Effect
import IppCode.Proofs.Machine.Calls
import IppCode.Proofs.Frames.Identity
import IppCode.Proofs.Machine.Locality
import IppCode.Proofs.Source.Grammar
import IppCode.Proofs.Verification.Exactness
import IppCode.Proofs.Verification.Loaded
import IppCode.Proofs.Source.Embedding
import IppCode.Proofs.Machine.Dump
import IppCode.Proofs.Machine.Trace
import IppCode.Proofs.Machine.Reading
import IppCode.Proofs.Machine.Output
import IppCode.Proofs.Machine.Resumption
import IppCode.Proofs.Machine.Spelling
import IppCode.Proofs.Machine.Transcript
import IppCode.Proofs.Machine.Equality
import IppCode.Proofs.Machine.Precedence
import IppCode.Proofs.Diagnostics
import IppCode.Proofs.Comparison
import IppCode.Proofs.Hottest
import IppCode.Proofs.Machine.Branching
import IppCode.Proofs.Arithmetic
import IppCode.Proofs.Binary64.Nearest
import IppCode.Proofs.Binary64.SingleRounding
import IppCode.Proofs.Characters
import IppCode.Proofs.Truncation
import IppCode.Proofs.Binary64.Spelling
import IppCode.Proofs.Binary64.Digits
import IppCode.Proofs.Binary64.Acceptance
import IppCode.Proofs.Text.Pieces
import IppCode.Proofs.Frames.Conservation
import IppCode.Proofs.Command.Selection
import IppCode.Proofs.Command.Stages
