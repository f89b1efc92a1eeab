import Mathlib
import Tilibs.Lib.Bytes
import Tilibs.Lib.Fallible
import Tilibs.Prime.Frame

/-!
# Tilibs.Prime.File

The packet that carries a file to and from an HP Prime (`prime_cmd.c`).

A packet has a header of ten bytes, the name in UTF-16LE and the data.  Its checksum lies
inside the range that it is taken over.  A V2 packet whose name and data begin like a zlib
stream is taken for a compressed one and inflated first.
-/

namespace Tilibs.Prime

open Lib

/-! ## files -/

/-- The C string in a name field, in UTF-16 units. -/
@[ext] structure PrimeName where
  units : List UInt16
  noNul : ∀ u ∈ units, u ≠ 0
  fits : units.length ≤ 128
  deriving DecidableEq

/-- `files_var_entry`; its size is the length of the data. -/
structure PrimeFile where
  name : PrimeName
  type : UInt8
  invalid : Bool
  data : List UInt8
  deriving DecidableEq

/-- The bytes of UTF-16LE units. -/
def unitBytes (units : List UInt16) : List UInt8 := units.flatMap fun u => putLE 2 u.toNat

/-- The units in UTF-16LE bytes. -/
def unitsOf : List UInt8 → List UInt16
  | lo :: hi :: rest => UInt16.ofNat (getLE [lo, hi]) :: unitsOf rest
  | _ => []

/-- What a name field that was zero holds after a copy of the bytes. -/
def PrimeName.ofField (bytes : List UInt8) : PrimeName where
  units := ((unitsOf bytes).takeWhile (· ≠ 0)).take 128
  noNul := fun u hu => by
    have hmem := List.mem_takeWhile_imp (List.mem_of_mem_take hu)
    simpa using hmem
  fits := by
    rw [List.length_take]
    omega

/-! ## checksum -/

/-- `ccitt_crc16_table` -/
def ccittCrc16Table : List UInt16 :=
  [0x0000, 0x1021, 0x2042, 0x3063, 0x4084, 0x50a5, 0x60c6, 0x70e7, 0x8108, 0x9129,
    0xa14a, 0xb16b, 0xc18c, 0xd1ad, 0xe1ce, 0xf1ef, 0x1231, 0x0210, 0x3273, 0x2252,
    0x52b5, 0x4294, 0x72f7, 0x62d6, 0x9339, 0x8318, 0xb37b, 0xa35a, 0xd3bd, 0xc39c,
    0xf3ff, 0xe3de, 0x2462, 0x3443, 0x0420, 0x1401, 0x64e6, 0x74c7, 0x44a4, 0x5485,
    0xa56a, 0xb54b, 0x8528, 0x9509, 0xe5ee, 0xf5cf, 0xc5ac, 0xd58d, 0x3653, 0x2672,
    0x1611, 0x0630, 0x76d7, 0x66f6, 0x5695, 0x46b4, 0xb75b, 0xa77a, 0x9719, 0x8738,
    0xf7df, 0xe7fe, 0xd79d, 0xc7bc, 0x48c4, 0x58e5, 0x6886, 0x78a7, 0x0840, 0x1861,
    0x2802, 0x3823, 0xc9cc, 0xd9ed, 0xe98e, 0xf9af, 0x8948, 0x9969, 0xa90a, 0xb92b,
    0x5af5, 0x4ad4, 0x7ab7, 0x6a96, 0x1a71, 0x0a50, 0x3a33, 0x2a12, 0xdbfd, 0xcbdc,
    0xfbbf, 0xeb9e, 0x9b79, 0x8b58, 0xbb3b, 0xab1a, 0x6ca6, 0x7c87, 0x4ce4, 0x5cc5,
    0x2c22, 0x3c03, 0x0c60, 0x1c41, 0xedae, 0xfd8f, 0xcdec, 0xddcd, 0xad2a, 0xbd0b,
    0x8d68, 0x9d49, 0x7e97, 0x6eb6, 0x5ed5, 0x4ef4, 0x3e13, 0x2e32, 0x1e51, 0x0e70,
    0xff9f, 0xefbe, 0xdfdd, 0xcffc, 0xbf1b, 0xaf3a, 0x9f59, 0x8f78, 0x9188, 0x81a9,
    0xb1ca, 0xa1eb, 0xd10c, 0xc12d, 0xf14e, 0xe16f, 0x1080, 0x00a1, 0x30c2, 0x20e3,
    0x5004, 0x4025, 0x7046, 0x6067, 0x83b9, 0x9398, 0xa3fb, 0xb3da, 0xc33d, 0xd31c,
    0xe37f, 0xf35e, 0x02b1, 0x1290, 0x22f3, 0x32d2, 0x4235, 0x5214, 0x6277, 0x7256,
    0xb5ea, 0xa5cb, 0x95a8, 0x8589, 0xf56e, 0xe54f, 0xd52c, 0xc50d, 0x34e2, 0x24c3,
    0x14a0, 0x0481, 0x7466, 0x6447, 0x5424, 0x4405, 0xa7db, 0xb7fa, 0x8799, 0x97b8,
    0xe75f, 0xf77e, 0xc71d, 0xd73c, 0x26d3, 0x36f2, 0x0691, 0x16b0, 0x6657, 0x7676,
    0x4615, 0x5634, 0xd94c, 0xc96d, 0xf90e, 0xe92f, 0x99c8, 0x89e9, 0xb98a, 0xa9ab,
    0x5844, 0x4865, 0x7806, 0x6827, 0x18c0, 0x08e1, 0x3882, 0x28a3, 0xcb7d, 0xdb5c,
    0xeb3f, 0xfb1e, 0x8bf9, 0x9bd8, 0xabbb, 0xbb9a, 0x4a75, 0x5a54, 0x6a37, 0x7a16,
    0x0af1, 0x1ad0, 0x2ab3, 0x3a92, 0xfd2e, 0xed0f, 0xdd6c, 0xcd4d, 0xbdaa, 0xad8b,
    0x9de8, 0x8dc9, 0x7c26, 0x6c07, 0x5c64, 0x4c45, 0x3ca2, 0x2c83, 0x1ce0, 0x0cc1,
    0xef1f, 0xff3e, 0xcf5d, 0xdf7c, 0xaf9b, 0xbfba, 0x8fd9, 0x9ff8, 0x6e17, 0x7e36,
    0x4e55, 0x5e74, 0x2e93, 0x3eb2, 0x0ed1, 0x1ef0]

/-- `crc16_block` -/
def crc16Block (buffer : List UInt8) : UInt16 :=
  buffer.foldl (fun crc b => ccittCrc16Table.getD ((crc >>> 8).toNat ^^^ b.toNat) 0 ^^^ (crc <<< 8)) 0

/-! ## sending -/

def cmdPrimeRecvFile : UInt8 := 0xF7
def cmdPrimeRecvBackup : UInt8 := 0xF9
def primeTypeNote : UInt8 := 0x05
def primeTypePrgm : UInt8 := 0x06

/-- The data without the byte order mark that programs and notes may not have. -/
def withoutBom (file : PrimeFile) : List UInt8 :=
  if (file.type = primeTypePrgm ∨ file.type = primeTypeNote) ∧ file.data.length ≥ 2
      ∧ file.data.getD 0 0 = 0xFF ∧ file.data.getD 1 0 = 0xFE then file.data.drop 2
  else file.data

/-- The second byte of a packet. -/
def fileFormat (version : PrimeProtocol) : UInt8 := if version = .v2 then 0x03 else 0x01

/-- The bytes that the checksum is taken over: in V2 all, else as many as the content has,
so without the last six. -/
def crcRange (format : UInt8) (packet : List UInt8) : List UInt8 :=
  if format = 0x03 then packet else packet.take (packet.length - 6)

/-- A file packet with the checksum field given. -/
def filePacket (format type : UInt8) (crc : UInt16) (name data : List UInt8) : List UInt8 :=
  [cmdPrimeRecvFile, format] ++ putBE 4 (4 + name.length + data.length)
    ++ [type, UInt8.ofNat name.length] ++ putLE 2 crc.toNat ++ name ++ data

/-- The packet of `calc_prime_s_send_file`. -/
def calcPrimeSSendFile (version : PrimeProtocol) (file : PrimeFile) :
    Except PrimeErr (List UInt8) :=
  if file.name.units.length > 127 then .error .invalidParameter
  else
    let name := unitBytes file.name.units
    let data := withoutBom file
    if data.length > 2 ^ 32 - 1 - 10 - name.length then .error .invalidParameter
    else
      let format := fileFormat version
      let crc := crc16Block (crcRange format (filePacket format file.type 0 name data))
      .ok (filePacket format file.type crc name data)

/-! ## receiving -/

/-- `PRIME_MAX_DECOMPRESSED_FILE_SIZE` -/
def primeMaxDecompressedFileSize : Nat := 64 * 1024 * 1024

/-- `inflate` of zlib on a stream with output space enough: what the stream at the beginning
of the input holds, if there is a whole one. -/
abbrev Inflate := List UInt8 → Option (List UInt8)

/-- The two bytes that a zlib stream begins with. -/
def zlibHeader (bytes : List UInt8) : Bool :=
  decide (bytes.length ≥ 2 ∧ bytes.getD 0 0 &&& 0x0F = 8
    ∧ (256 * (bytes.getD 0 0).toNat + (bytes.getD 1 0).toNat) % 31 = 0)

/-- A packet that `inflate_v2_file_message` takes for a compressed one. -/
def looksCompressed (packet : List UInt8) : Bool :=
  packet.getD 0 0 = cmdPrimeRecvFile && packet.getD 1 0 = 0x03 && zlibHeader (packet.drop 10)

/-- The packet around an inflated envelope. -/
def rebuiltPacket (envelope : List UInt8) : List UInt8 :=
  [cmdPrimeRecvFile, 0x03] ++ putBE 4 envelope.length ++ envelope

/-- The size that the packet says the envelope has, zero for unknown. -/
def expectedSize (packet : List UInt8) : Nat := getLE ((packet.drop 6).take 4)

/-- The sizes that are accepted. -/
def inflatedSizeOk (expected size : Nat) : Bool :=
  decide (expected ≤ primeMaxDecompressedFileSize ∧ (expected = 0 ∨ size = expected)
    ∧ size ≤ primeMaxDecompressedFileSize - 6)

/-- `inflate_v2_file_message` -/
def inflateV2FileMessage (inflate : Inflate) (packet : List UInt8) :
    Except PrimeErr (List UInt8) :=
  if looksCompressed packet then
    match inflate (packet.drop 10) with
    | some envelope =>
        if inflatedSizeOk (expectedSize packet) envelope.length then .ok (rebuiltPacket envelope)
        else .error .packetFormat
    | none => .error .packetFormat
  else .ok packet

/-- The packet with its checksum field cleared. -/
def clearCrc (packet : List UInt8) : List UInt8 := packet.take 8 ++ [0, 0] ++ packet.drop 10

/-- The file in a packet that is not compressed. -/
def readFilePacket (packet : List UInt8) : Except PrimeErr (Option PrimeFile) :=
  if packet.length ≥ 11 then
    let embedded := getLE [packet.getD 8 0, packet.getD 9 0]
    let computed := (crc16Block (crcRange (packet.getD 1 0) (clearCrc packet))).toNat
    let namelen := (packet.getD 7 0).toNat
    if namelen % 2 ≠ 0 ∨ namelen > packet.length - 10 then .error .packetFormat
    else
      .ok (some {
        name := .ofField ((packet.drop 10).take namelen)
        type := packet.getD 6 0
        invalid := decide (computed ≠ embedded)
        data := packet.drop (10 + namelen) })
  else if packet.length = 0 ∨ packet.getD 0 0 ≠ cmdPrimeRecvBackup then .error .packetFormat
  else .ok none

/-- `calc_prime_r_recv_file`, of the packet that was read. -/
def calcPrimeRRecvFile (inflate : Inflate) (packet : List UInt8) :
    Except PrimeErr (Option PrimeFile) := do
  let packet ← inflateV2FileMessage inflate packet
  readFilePacket packet

end Tilibs.Prime
