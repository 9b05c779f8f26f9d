import ImageTransfer.Archive.Index
import ImageTransfer.Archive.Tar.Header
import ImageTransfer.Archive.Tar.Reader
import ImageTransfer.Archive.Tar.Records
import ImageTransfer.Archive.Tar.Writer
import ImageTransfer.Archive.Tree
import ImageTransfer.Checksum.Crc
import ImageTransfer.Checksum.Xxh64
import ImageTransfer.CommandLine.Invocation
import ImageTransfer.CommandLine.Report
import ImageTransfer.CommandLine.Words
import ImageTransfer.Compression.Branch
import ImageTransfer.Compression.Bzip2
import ImageTransfer.Compression.Decoders
import ImageTransfer.Compression.Deflate
import ImageTransfer.Compression.Format
import ImageTransfer.Compression.Gzip
import ImageTransfer.Compression.History
import ImageTransfer.Compression.Huffman
import ImageTransfer.Compression.Lzma
import ImageTransfer.Compression.Lzma2
import ImageTransfer.Compression.LzmaFile
import ImageTransfer.Compression.Member
import ImageTransfer.Compression.Stream
import ImageTransfer.Compression.Xz
import ImageTransfer.Compression.Xz.Container
import ImageTransfer.Compression.Xz.Header
import ImageTransfer.Compression.Zstd.Bits
import ImageTransfer.Compression.Zstd.Frame
import ImageTransfer.Compression.Zstd.Fse
import ImageTransfer.Compression.Zstd.Literals
import ImageTransfer.Compression.Zstd.Sequences
import ImageTransfer.Decimal.Binary64
import ImageTransfer.Decimal.Integer
import ImageTransfer.Decimal.Shortest
import ImageTransfer.Digest.Address
import ImageTransfer.Digest.Algorithm
import ImageTransfer.Digest.Blake2
import ImageTransfer.Digest.BlockHash
import ImageTransfer.Digest.Digester
import ImageTransfer.Digest.Md5
import ImageTransfer.Digest.Sha1
import ImageTransfer.Digest.Sha2
import ImageTransfer.Digest.Sha3
import ImageTransfer.Digest.Word
import ImageTransfer.Exchange.Disk
import ImageTransfer.Exchange.Event
import ImageTransfer.Exchange.Fault
import ImageTransfer.Exchange.Message
import ImageTransfer.Exchange.Sink
import ImageTransfer.Exchange.World
import ImageTransfer.Failure
import ImageTransfer.Image.Config
import ImageTransfer.Json.Document
import ImageTransfer.Json.Encoding
import ImageTransfer.Json.Reader
import ImageTransfer.Json.Shown
import ImageTransfer.Json.Value
import ImageTransfer.Json.Writer
import ImageTransfer.Main
import ImageTransfer.Manifest
import ImageTransfer.Proofs.Archive.Index
import ImageTransfer.Proofs.Archive.Tar.Contents
import ImageTransfer.Proofs.Archive.Tar.Header
import ImageTransfer.Proofs.Archive.Tar.Reader
import ImageTransfer.Proofs.Archive.Tar.Records
import ImageTransfer.Proofs.Archive.Tree
import ImageTransfer.Proofs.CommandLine.Exits
import ImageTransfer.Proofs.CommandLine.OutputFile
import ImageTransfer.Proofs.Compression.Pieces
import ImageTransfer.Proofs.Compression.Stream
import ImageTransfer.Proofs.Decimal.Digits
import ImageTransfer.Proofs.Decimal.Rounding
import ImageTransfer.Proofs.Decimal.Shortest
import ImageTransfer.Proofs.Digest.Agreement
import ImageTransfer.Proofs.Digest.Blocks
import ImageTransfer.Proofs.Digest.Digester
import ImageTransfer.Proofs.Digest.Hashes
import ImageTransfer.Proofs.Exchange.Alarms
import ImageTransfer.Proofs.Exchange.Determined
import ImageTransfer.Proofs.Exchange.Dialogue
import ImageTransfer.Proofs.Exchange.Disk
import ImageTransfer.Proofs.Exchange.Failures
import ImageTransfer.Proofs.Exchange.Reports
import ImageTransfer.Proofs.Exchange.Responses
import ImageTransfer.Proofs.Exchange.Run
import ImageTransfer.Proofs.Exchange.Service
import ImageTransfer.Proofs.Exchange.Sessions
import ImageTransfer.Proofs.Exchange.Sink
import ImageTransfer.Proofs.Image.Config
import ImageTransfer.Proofs.Image.Manifests
import ImageTransfer.Proofs.Image.Refusals
import ImageTransfer.Proofs.Json.Conformance
import ImageTransfer.Proofs.Json.Documents
import ImageTransfer.Proofs.Json.Grammar
import ImageTransfer.Proofs.Json.Legible
import ImageTransfer.Proofs.Json.Limits
import ImageTransfer.Proofs.Json.Numbers
import ImageTransfer.Proofs.Json.ReadBack
import ImageTransfer.Proofs.Reference.CommonName
import ImageTransfer.Proofs.Reference.Grammar
import ImageTransfer.Proofs.Reference.Printing
import ImageTransfer.Proofs.Reference.Spelling
import ImageTransfer.Proofs.Registry.BlobCopy
import ImageTransfer.Proofs.Registry.Chunks
import ImageTransfer.Proofs.Registry.Query
import ImageTransfer.Proofs.Registry.Requests
import ImageTransfer.Proofs.Registry.ResourceUrls
import ImageTransfer.Proofs.Registry.ServedManifests
import ImageTransfer.Proofs.Registry.Upload
import ImageTransfer.Proofs.Registry.UploadOrder
import ImageTransfer.Proofs.Registry.UploadPlaces
import ImageTransfer.Proofs.Registry.UploadReports
import ImageTransfer.Proofs.Registry.UploadSteps
import ImageTransfer.Proofs.Registry.Uri
import ImageTransfer.Proofs.Registry.UriResolution
import ImageTransfer.Proofs.Text.Split
import ImageTransfer.Proofs.Text.Utf8
import ImageTransfer.Proofs.Time.Created
import ImageTransfer.Proofs.Time.InternetTime
import ImageTransfer.Proofs.Time.Range
import ImageTransfer.Proofs.Transfer.BlobAddresses
import ImageTransfer.Proofs.Transfer.ClientSessions
import ImageTransfer.Proofs.Transfer.ExportedConfig
import ImageTransfer.Proofs.Transfer.ExportedName
import ImageTransfer.Proofs.Transfer.Failures
import ImageTransfer.Proofs.Transfer.ImageCopy
import ImageTransfer.Proofs.Transfer.ImageExport
import ImageTransfer.Proofs.Transfer.LayerOutcome
import ImageTransfer.Proofs.Transfer.Layers
import ImageTransfer.Proofs.Transfer.OpenResponses
import ImageTransfer.Proofs.Transfer.Policies
import ImageTransfer.Proofs.Transfer.Progress
import ImageTransfer.Proofs.Transfer.Receipts
import ImageTransfer.Proofs.Transfer.Reproduction
import ImageTransfer.Proofs.Transfer.Staging
import ImageTransfer.Proofs.Transfer.Unexpected
import ImageTransfer.Proofs.Transfer.ValidConfig
import ImageTransfer.Proofs.Transfer.Written
import ImageTransfer.Reference.Basic
import ImageTransfer.Reference.Parser
import ImageTransfer.Registry.Address
import ImageTransfer.Registry.Chunks
import ImageTransfer.Registry.Client
import ImageTransfer.Registry.Settings
import ImageTransfer.Registry.Upload
import ImageTransfer.Registry.Url
import ImageTransfer.Text.Blank
import ImageTransfer.Text.Boundaries
import ImageTransfer.Text.CodePoint
import ImageTransfer.Text.Digit
import ImageTransfer.Text.Lowercase
import ImageTransfer.Text.Printable
import ImageTransfer.Text.Quoted
import ImageTransfer.Text.Split
import ImageTransfer.Text.Utf8
import ImageTransfer.Time.Calendar
import ImageTransfer.Time.Reader
import ImageTransfer.Time.Timestamp
import ImageTransfer.Transfer.ByName
import ImageTransfer.Transfer.Copy
import ImageTransfer.Transfer.Export
import ImageTransfer.Transfer.Inspection
import ImageTransfer.Transfer.Integrity
import ImageTransfer.Transfer.Pull
