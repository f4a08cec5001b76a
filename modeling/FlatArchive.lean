import FlatArchive.Main
import FlatArchive.Sink.Memory
import FlatArchive.Stream.Script
import FlatArchive.Proofs.Utf8
import FlatArchive.Proofs.Session
import FlatArchive.Proofs.ImageFile
import FlatArchive.Proofs.Listing
import FlatArchive.Proofs.Moves
import FlatArchive.Proofs.Walks
import FlatArchive.Proofs.Growth
import FlatArchive.Proofs.Operations
import FlatArchive.Proofs.Confinement
import FlatArchive.Proofs.Writing
import FlatArchive.Proofs.Packing
import FlatArchive.Proofs.Refusing
import FlatArchive.Proofs.Restoring
import FlatArchive.Proofs.RoundTrip
import FlatArchive.Proofs.PackedImage
import FlatArchive.Proofs.FailFast
import FlatArchive.Proofs.FreshDirectory
import FlatArchive.Proofs.NormalForm
import FlatArchive.Proofs.Counting
import FlatArchive.Proofs.Overwriting
import FlatArchive.Proofs.Acceptance
import FlatArchive.Proofs.Agreement
import FlatArchive.Proofs.KeptInputs
import FlatArchive.Proofs.PackedDirectory
import FlatArchive.Proofs.TrailingBytes
import FlatArchive.Proofs.Repetition
import FlatArchive.Proofs.WrittenNames
import FlatArchive.Proofs.Blame
import FlatArchive.Proofs.FailedAdding
import FlatArchive.Proofs.EntryNames
import FlatArchive.Proofs.Chunks
import FlatArchive.Proofs.Heads
import FlatArchive.Proofs.Boundaries
import FlatArchive.Proofs.ErrorContext
import FlatArchive.Proofs.SizedCopies
