import Inflate.Batch
import Inflate.Bytes
import Inflate.Checksum.Adler32
import Inflate.Checksum.Crc32
import Inflate.CommandLine.Command
import Inflate.CommandLine.Draft
import Inflate.CommandLine.Environment
import Inflate.CommandLine.Help
import Inflate.CommandLine.Reading
import Inflate.CommandLine.Size
import Inflate.CommandLine.Switch
import Inflate.CommandLine.Usage
import Inflate.Container
import Inflate.Decoded
import Inflate.Deflate.Alphabet
import Inflate.Deflate.BitReader
import Inflate.Deflate.Block
import Inflate.Deflate.Decoder
import Inflate.Deflate.PrefixCode
import Inflate.Failure
import Inflate.FileSystem.Operations
import Inflate.FileSystem.Path
import Inflate.FileSystem.Resolve
import Inflate.FileSystem.Tree
import Inflate.Foreign.Block
import Inflate.Foreign.Boundary
import Inflate.Gzip.Header
import Inflate.Gzip.Members
import Inflate.Identity
import Inflate.Job
import Inflate.Listing
import Inflate.Main
import Inflate.Naming
import Inflate.Options
import Inflate.Output.Buffer
import Inflate.Output.Pieces
import Inflate.Persistence
import Inflate.Preferences
import Inflate.Program
import Inflate.Proofs.AnyOrder
import Inflate.Proofs.Batch
import Inflate.Proofs.BoundedExpansion
import Inflate.Proofs.CoherentCommands
import Inflate.Proofs.Confinement
import Inflate.Proofs.Console
import Inflate.Proofs.CorruptCauses
import Inflate.Proofs.Deflate.BitPacking
import Inflate.Proofs.Deflate.BlockStream
import Inflate.Proofs.Deflate.CanonicalCode
import Inflate.Proofs.Deflate.CodeDescription
import Inflate.Proofs.Deflate.Expansion
import Inflate.Proofs.Deflate.Extension
import Inflate.Proofs.Deflate.StreamLength
import Inflate.Proofs.Deflate.Tokens
import Inflate.Proofs.FileSystem.Agreement
import Inflate.Proofs.FileSystem.Change
import Inflate.Proofs.FileSystem.Children
import Inflate.Proofs.FileSystem.Effects
import Inflate.Proofs.FileSystem.Join
import Inflate.Proofs.FileSystem.Trail
import Inflate.Proofs.FileSystem.Walk
import Inflate.Proofs.EarlyStop
import Inflate.Proofs.Footprint
import Inflate.Proofs.ForeignCalls
import Inflate.Proofs.Gzip.Beginning
import Inflate.Proofs.Gzip.Concatenation
import Inflate.Proofs.Gzip.Grammar
import Inflate.Proofs.Gzip.HeaderCoding
import Inflate.Proofs.Gzip.HeaderText
import Inflate.Proofs.Gzip.Survey
import Inflate.Proofs.GrowthStrategy
import Inflate.Proofs.Interference
import Inflate.Proofs.Isolation
import Inflate.Proofs.Job
import Inflate.Proofs.LimitedDecoding
import Inflate.Proofs.Outcomes
import Inflate.Proofs.Output.Capacity
import Inflate.Proofs.Output.Continuation
import Inflate.Proofs.Output.Delivery
import Inflate.Proofs.Output.Limit
import Inflate.Proofs.Output.PieceSize
import Inflate.Proofs.Output.Reservation
import Inflate.Proofs.Output.StreamEnd
import Inflate.Proofs.Output.Turns
import Inflate.Proofs.Persistence
import Inflate.Proofs.ReadOnly
import Inflate.Proofs.RoundTrip
import Inflate.Proofs.SharedDirectory
import Inflate.Proofs.SideBySide
import Inflate.Proofs.TrailingData
import Inflate.Proofs.Truncation
import Inflate.Proofs.World
import Inflate.Proofs.WrittenFile
import Inflate.Proofs.Zlib.Verdict
import Inflate.Text.Digits
import Inflate.Text.Fixed
import Inflate.Text.Hidden
import Inflate.Text.Plain
import Inflate.Text.Quoted
import Inflate.Text.Word
import Inflate.World
import Inflate.Zlib.Header
import Inflate.Zlib.Stream
import Inflate.Proofs.Detection
import Inflate.Proofs.Gzip.DamagedTrailer
import Inflate.Proofs.Checksum.Adler32
import Inflate.Proofs.Checksum.Crc32
import Inflate.Proofs.LocalDamage
import Inflate.Proofs.DerivedDestination
import Inflate.Proofs.CommandLine.Acts
import Inflate.Proofs.CommandLine.Decisions
import Inflate.Proofs.ExactSizes
import Inflate.Proofs.LastDecision
import Inflate.Proofs.SafeGrowth
