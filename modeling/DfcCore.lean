import DfcCore.Memory
import DfcCore.Arena
import DfcCore.Credential
import DfcCore.Pools
import DfcCore.PoolInvariant
import DfcCore.KeyPoolInvariant
import DfcCore.KeySetInvariant
import DfcCore.PoolRuns
import DfcCore.FileFrames
import DfcCore.KeyFrames
import DfcCore.PoolFrames
import DfcCore.DerOctets
import DfcCore.DerReader
import DfcCore.DerWriter
import DfcCore.Validate
import DfcCore.Image
import DfcCore.DerFormat
import DfcCore.DerEncode
import DfcCore.DerDecode
import DfcCore.DerStatus
import DfcCore.DerLoad
import DfcCore.DerLoadKeys
import DfcCore.DerLoadFiles
import DfcCore.DerPlaceKeys
import DfcCore.KeySetLayout
import DfcCore.DerPlaceSets
import DfcCore.DerLoadCredential
import DfcCore.DerInjective
import DfcCore.DerReadBackFiles
import DfcCore.IsoDep
import DfcCore.IsoDepLink
import DfcCore.IsoDepCard
import DfcCore.IsoDepFrames
import DfcCore.IsoDepDelivery
import DfcCore.Emulator
import DfcCore.LittleEndian
import DfcCore.ReaderCommand
import DfcCore.ReaderResponse
import DfcCore.Lifecycle
import DfcCore.Directory
import DfcCore.CreateAndFind
import DfcCore.Cmac
import DfcCore.TransactionMac
import DfcCore.Outcome
import DfcCore.FileAccess
import DfcCore.FileCommands
import DfcCore.NativeCommand
import DfcCore.FileViews
import DfcCore.CommandEffects
import DfcCore.CommandRefusals
import DfcCore.Aes
import DfcCore.TransactionRuns
import DfcCore.TransactionSteps
import DfcCore.TransactionMacRuns
import DfcCore.LoadedCard
import DfcCore.ValueFileRuns
import DfcCore.BlockCipher
import DfcCore.AsciiHex
import DfcCore.SdmFlags
import DfcCore.FileSettings
import DfcCore.SdmAgreement
import DfcCore.SecureMessaging
import DfcCore.Ev2Crypto
import DfcCore.ReaderExchange
import DfcCore.EncipheredPayload
import DfcCore.SegmentedCmac
import DfcCore.TransactionAccumulator
import DfcCore.Ev2Command
import DfcCore.ReaderWire
import DfcCore.ReaderSteps
import DfcCore.ReaderRuns
import DfcCore.CycleRotation
import DfcCore.KeySetRotation
import DfcCore.KeySetMasks
import DfcCore.DerSize
import DfcCore.DerCapacity
import DfcCore.JournalSettled
import DfcCore.NativeSession
import DfcCore.CipherRetry
import DfcCore.NativeRetry
import DfcCore.Materialize
import DfcCore.TransactionVectors
import DfcCore.DerPointers
import DfcCore.IsoDepStaging
import DfcCore.DerReadBack
import DfcCore.DerRoundTrip
import DfcCore.ApplicationCommands
import DfcCore.ApplicationFiles
import DfcCore.IsoFiles
import DfcCore.IsoStore
import DfcCore.TransactionIsolation
