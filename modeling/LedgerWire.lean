import LedgerWire.Json.Reader
import LedgerWire.Digest.HashPrefix
import LedgerWire.Address.Extended
import LedgerWire.Error
import LedgerWire.Registry.Document
import LedgerWire.Registry.Bundled
import LedgerWire.Length
import LedgerWire.Header
import LedgerWire.Decimal.Printer
import LedgerWire.Decimal.IssuedValue
import LedgerWire.Decimal.Quality
import LedgerWire.Value.Scalar
import LedgerWire.Object.Encoding
import LedgerWire.Object.Decoding
import LedgerWire.Signing.Payload
import LedgerWire.Signing.Claim
import LedgerWire.Ledger.Contents
import LedgerWire.Main
import LedgerWire.Proofs.RoundTrip
import LedgerWire.Proofs.Stability
import LedgerWire.Proofs.Binding
import LedgerWire.Proofs.DistinctKeys
import LedgerWire.Proofs.TreeShape
import LedgerWire.Proofs.TreeContents
import LedgerWire.Proofs.TreeBinding
import LedgerWire.Proofs.TreePaths
import LedgerWire.Proofs.TransactionRoot
import LedgerWire.Proofs.SigningPayload
import LedgerWire.Proofs.Loading
import LedgerWire.Proofs.CompleteFraming
import LedgerWire.Proofs.DecodedDocuments
import LedgerWire.Proofs.EncodingAgain
import LedgerWire.Proofs.WrittenFields
import LedgerWire.Proofs.SkippedEntries
import LedgerWire.Proofs.SelfDelimiting
import LedgerWire.Proofs.AddressExpansion
import LedgerWire.Proofs.BoundedValues
import LedgerWire.Proofs.Rounds
import LedgerWire.Proofs.Descent
import LedgerWire.Proofs.NumberRanges
import LedgerWire.Proofs.AnnouncedLengths
import LedgerWire.Proofs.CursorPlaces
import LedgerWire.Proofs.RegisteredHeaders
import LedgerWire.Proofs.RegistryLookups
import LedgerWire.Proofs.CodeTables
import LedgerWire.Proofs.InnerObjects
import LedgerWire.Proofs.ValidatorChanges
import LedgerWire.Proofs.AccountTexts
import LedgerWire.Proofs.LedgerHeaderDocuments
import LedgerWire.Proofs.IntegerRanges
import LedgerWire.Proofs.SixteenDigits
