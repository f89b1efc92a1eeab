import Tilibs.Lib.Bytes
import Tilibs.Lib.Poke
import Tilibs.Lib.Proc
import Tilibs.Lib.Alloc
import Tilibs.Lib.Run
import Tilibs.Evo.Kermit
import Tilibs.Evo.Packet
import Tilibs.Evo.Get
import Tilibs.CalcModel
import Tilibs.Lib.Chunk
import Tilibs.Dbus.Packet
import Tilibs.Dusb.Raw
import Tilibs.Dusb.Virtual
import Tilibs.Dusb.RoundTrip
import Tilibs.Prime.Frame
import Tilibs.Prime.Transfer
import Tilibs.Prime.RoundTrip
import Tilibs.Prime.Nack
import Tilibs.Prime.NackRecovers
import Tilibs.Prime.RecvSound
import Tilibs.Prime.RecvStops
import Tilibs.Prime.RecvTurn
import Tilibs.Prime.Send
import Tilibs.Prime.Legacy
import Tilibs.Nsp.Packet
import Tilibs.Nsp.Nnse
import Tilibs.Nsp.Raw
import Tilibs.Nsp.Virtual
import Tilibs.Nsp.RoundTrip
import Tilibs.Nsp.Stream
import Tilibs.Files.VarEntry
import Tilibs.Calcs.Dirlist
import Tilibs.Lib.Stdio
import Tilibs.Files.FileTypes
import Tilibs.Files.RwFile
import Tilibs.Files.Backup8x
import Tilibs.Conv.Varname
import Tilibs.Files.Content
import Tilibs.Files.Regular9x
import Tilibs.Files.Regular9xRoundTrip
import Tilibs.Files.TableOfEntries
import Tilibs.Files.Grouped
import Tilibs.Files.FlashDup
import Tilibs.Files.Regular8x
import Tilibs.Files.Regular8xPasses
import Tilibs.Files.Regular8xRoundTrip
import Tilibs.Files.Regular8xSum
import Tilibs.Files.IntelHex
import Tilibs.Files.IntelHexBlock
import Tilibs.Files.IntelHexPages
import Tilibs.Lib.Feed
import Tilibs.Lib.OutFile
import Tilibs.Files.Flash8x
import Tilibs.Files.Flash8xChain
import Tilibs.Files.Flash8xHistory
import Tilibs.Calcs.TiReal
import Tilibs.Calcs.TiRealText
import Tilibs.Calcs.LabEquipmentList
import Tilibs.Tifileutil.Wrap
import Tilibs.Tifileutil.WrapRoundTrip
import Tilibs.Tifileutil.Squish
import Tilibs.Tifileutil.SquishRoundTrip
import Tilibs.Lib.Tiling
import Tilibs.Lib.Fallible
import Tilibs.Webtilp.NumworksBackend
import Tilibs.Webtilp.NumworksCommit
import Tilibs.Webtilp.NumworksCrash
import Tilibs.Webtilp.NumworksInterrupted
import Tilibs.Webtilp.NumworksPlatform
import Tilibs.Webtilp.NumworksStorage
import Tilibs.Webtilp.HpPrimeApp
import Tilibs.Webtilp.BackupVat
import Tilibs.Prime.File
import Tilibs.Prime.FileRoundTrip
import Tilibs.Nsp.RecvOs
import Tilibs.Files.FileClass
import Tilibs.Files.TigContent
import Tilibs.Tifileutil.Group
import Tilibs.Tifileutil.GroupComplete
import Tilibs.Conv.Tokens
import Tilibs.Conv.TokensRoundTrip
import Tilibs.Files.Tigroup
import Tilibs.Files.TigroupAdd
import Tilibs.Files.TigroupFiles
import Tilibs.Files.Cert
import Tilibs.Files.CertSearch
import Tilibs.Evo.Chunks
import Tilibs.Lib.Reader
import Tilibs.Evo.Cbor
import Tilibs.Files.EvoCborSkip
import Tilibs.Files.EvoFileMeta
import Tilibs.Files.EvoPython
import Tilibs.Dusb.Acknowledge
import Tilibs.Dusb.Renegotiate
import Tilibs.Lib.Frame
import Tilibs.Dbus.Busy
import Tilibs.Prime.Negotiate
import Tilibs.Nsp.Extended
import Tilibs.Lib.OnesComplement
import Tilibs.Nsp.NnseFrame
import Tilibs.Lib.Resync
import Tilibs.Nsp.NnseResync
import Tilibs.Nsp.NnseCable
import Tilibs.Nsp.NnseTimeout
import Tilibs.Lib.Offset
import Tilibs.Dusb.Dissect
import Tilibs.Cables.LinkUsb1
import Tilibs.Lib.PtrArray
import Tilibs.Files.EntryTable
import Tilibs.Files.EntryTableRuns
import Tilibs.Calcs.DirlistFind
import Tilibs.Calcs.DirlistMemory
import Tilibs.Calcs.ListGrammar
import Tilibs.Lib.Decimal
import Tilibs.Calcs.TiRealParse
import Tilibs.Calcs.ListLayout
import Tilibs.Calcs.Ti68kList
import Tilibs.Calcs.ScreenNspire
import Tilibs.Calcs.Screen84pcse
import Tilibs.Dusb.Rts
import Tilibs.Dusb.Responses
import Tilibs.Conv.Utf16
import Tilibs.Conv.Filename
import Tilibs.Dusb.Requests
import Tilibs.Dusb.CheckData
import Tilibs.Tifileutil.Strippers
import Tilibs.Calcs.RomDump
import Tilibs.Calcs.RomDumpFile
import Tilibs.Files.FileTest
import Tilibs.Files.FlashWalk
import Tilibs.Files.Untigroup
import Tilibs.Lib.Unicode
import Tilibs.Webtilp.HpPrimeText
import Tilibs.Webtilp.HpPrimeSections
import Tilibs.Webtilp.HpPrimeEdit
import Tilibs.Webtilp.HpPrimeProgram
import Tilibs.Prime.Inflate
import Tilibs.Prime.RecvBackup
import Tilibs.Lib.Keyed
import Tilibs.Webtilp.NumworksScripts
import Tilibs.Webtilp.NumworksEdit
import Tilibs.Lib.Framing
import Tilibs.Cables.Summary
import Tilibs.Cables.Hex2dusb
import Tilibs.Cables.Hex2nsp
import Tilibs.Lib.Crc
import Tilibs.Prime.Crc
import Tilibs.Evo.Crc
import Tilibs.Nsp.Crc
import Tilibs.Lib.TextLines
import Tilibs.Files.TypeNames
import Tilibs.Files.Metadata
import Tilibs.Tifileutil.MetadataText
import Tilibs.Tifileutil.MetadataRoundTrip
import Tilibs.Lib.Channel
import Tilibs.Lib.RingBuffer
import Tilibs.Cables.LinkVti
import Tilibs.Lib.Bits
import Tilibs.Cables.LinkSer
import Tilibs.Cables.LinkSerTransfer
