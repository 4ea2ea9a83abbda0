import Paperboat.Lib.Codec

/-! The encrypted file-transfer representation. A chunk or a record is sealed under the
key material of its transfer; its context fixes the nonce and the additional data. Go
strings are byte sequences here, and `uint32(n)` is the four bytes that `bigEndian`
keeps of `n`. -/

namespace Paperboat.TransferCrypto

open Codec

abbrev Bytes := List UInt8

inductive Error where
  | authentication
  | invalid
  deriving DecidableEq, Repr

def protocolVersion : UInt8 := 1

def chunkSize : Int := 2 ^ 20

/-- The length of the tag that sealing adds. -/
def overhead : ℕ := 16

/-- No chunk has this file ordinal: it marks the nonces of records. -/
def recordFileOrdinal : UInt64 := ~~~0

def maxRecordOrdinal : UInt64 := 2 ^ 56 - 1

def isAlphanum (c : UInt8) : Bool :=
  ('A'.toUInt8 ≤ c && c ≤ 'Z'.toUInt8) || ('a'.toUInt8 ≤ c && c ≤ 'z'.toUInt8) ||
    ('0'.toUInt8 ≤ c && c ≤ '9'.toUInt8)

def identifierByte (c : UInt8) : Bool :=
  isAlphanum c || ['_', '.', ':', '-'].any fun d => c == d.toUInt8

/-- `^[A-Za-z0-9][A-Za-z0-9_.:-]{0,127}$` -/
def identifierPattern : Bytes → Bool
  | [] => false
  | c :: cs => isAlphanum c && decide (cs.length ≤ 127) && cs.all identifierByte

def allZero (value : Bytes) : Bool := value.foldl (· ||| ·) 0 == 0

structure KeyMaterial where
  key : Vector UInt8 32
  noncePrefix : Vector UInt8 8

def KeyMaterial.valid (k : KeyMaterial) : Bool :=
  !allZero k.key.toList && !allZero k.noncePrefix.toList

/-- Any byte; the contexts that are accepted have one of the two values below. -/
abbrev Direction := UInt8

def directionToMachine : Direction := 1

def directionFromMachine : Direction := 2

abbrev RecordType := UInt8

def recordBatchManifest : RecordType := 1

def recordFinalReceipt : RecordType := 4

def validRecordType (value : RecordType) : Bool :=
  recordBatchManifest ≤ value && value ≤ recordFinalReceipt

/-- The fields that the two kinds of context begin with. -/
structure TransferContext where
  accountID : Bytes
  deviceID : Bytes
  machineID : Bytes
  initiatorCertificateHash : Vector UInt8 32
  responderCertificateHash : Vector UInt8 32
  operationID : Bytes
  transferID : Bytes
  direction : Direction
  transferGeneration : UInt64

structure ChunkContext extends TransferContext where
  fileOrdinal : UInt64
  chunkOrdinal : UInt64
  final : Bool

structure RecordContext extends TransferContext where
  type : RecordType
  ordinal : UInt64

namespace TransferContext

/-- The checks that both kinds of context make. -/
def valid (c : TransferContext) (plaintextLength : Int) : Bool :=
  [c.accountID, c.deviceID, c.machineID, c.operationID, c.transferID].all identifierPattern &&
    (c.direction == directionToMachine || c.direction == directionFromMachine) &&
    c.transferGeneration != 0 && !allZero c.initiatorCertificateHash.toList &&
    !allZero c.responderCertificateHash.toList && decide (0 ≤ plaintextLength) &&
    decide (plaintextLength ≤ chunkSize)

def appendString (value : Bytes) : Bytes := lengthPrefixed 2 value

/-- The additional data up to the direction. -/
def encode (kind : Char) (c : TransferContext) : Bytes :=
  ['P', 'B', 'T', kind].map Char.toUInt8 ++ [protocolVersion] ++ appendString c.accountID ++
    appendString c.deviceID ++ appendString c.machineID ++ c.initiatorCertificateHash.toList ++
    c.responderCertificateHash.toList ++ appendString c.operationID ++
    appendString c.transferID ++ [c.direction]

end TransferContext

namespace ChunkContext

def additionalData (c : ChunkContext) (plaintextLength : Int) : Except Error Bytes :=
  if !c.valid plaintextLength || c.fileOrdinal == recordFileOrdinal then .error .invalid
  else
    .ok (c.encode 'C' ++ bigEndian 8 c.transferGeneration.toNat ++
      bigEndian 8 c.fileOrdinal.toNat ++ bigEndian 8 c.chunkOrdinal.toNat ++
      bigEndian 4 plaintextLength.toNat ++ [if c.final then 1 else 0])

end ChunkContext

namespace RecordContext

def additionalData (c : RecordContext) (plaintextLength : Int) : Except Error Bytes :=
  if !c.valid plaintextLength || !validRecordType c.type || maxRecordOrdinal < c.ordinal then
    .error .invalid
  else
    .ok (c.encode 'R' ++ [c.type] ++ bigEndian 8 c.transferGeneration.toNat ++
      bigEndian 8 c.ordinal.toNat ++ bigEndian 4 plaintextLength.toNat)

end RecordContext

/-- What is sealed: a chunk of a file or a record about the transfer. -/
inductive Context where
  | chunk (c : ChunkContext)
  | record (c : RecordContext)

/-- The nonce and the additional data of one encryption. -/
structure Prepared where
  nonce : Bytes
  additionalData : Bytes
  deriving DecidableEq, Repr

def nonce (material : KeyMaterial) (high low : UInt64) : Bytes :=
  material.noncePrefix.toList ++ bigEndian 8 high.toNat ++ bigEndian 8 low.toNat

def prepare (material : KeyMaterial) (context : ChunkContext) (plaintextLength : Int) :
    Except Error Prepared :=
  if !material.valid then .error .invalid
  else do
    let additionalData ← context.additionalData plaintextLength
    .ok ⟨nonce material context.fileOrdinal context.chunkOrdinal, additionalData⟩

def prepareRecord (material : KeyMaterial) (context : RecordContext) (plaintextLength : Int) :
    Except Error Prepared := do
  let additionalData ← context.additionalData plaintextLength
  if !material.valid then .error .invalid
  else
    .ok ⟨nonce material recordFileOrdinal (context.type.toUInt64 <<< 56 ||| context.ordinal),
      additionalData⟩

namespace Context

def additionalData (plaintextLength : Int) : Context → Except Error Bytes
  | .chunk c => c.additionalData plaintextLength
  | .record c => c.additionalData plaintextLength

def prepare (material : KeyMaterial) (plaintextLength : Int) : Context → Except Error Prepared
  | .chunk c => TransferCrypto.prepare material c plaintextLength
  | .record c => prepareRecord material c plaintextLength

/-- The place that a context has among the encryptions of its transfer. -/
def SameSlot : Context → Context → Prop
  | .chunk c, .chunk d => c.fileOrdinal = d.fileOrdinal ∧ c.chunkOrdinal = d.chunkOrdinal
  | .record c, .record d => c.type = d.type ∧ c.ordinal = d.ordinal
  | _, _ => False

end Context

/-! ### Sealing -/

/-- The cipher as the package uses it: sealing adds a tag, and opening with the same key,
nonce and additional data gives the plaintext back. -/
structure AEAD where
  sealWith : Vector UInt8 32 → Prepared → Bytes → Bytes
  openWith : Vector UInt8 32 → Prepared → Bytes → Option Bytes
  sealWith_length : ∀ key p plaintext, (sealWith key p plaintext).length = plaintext.length + overhead
  openWith_sealWith : ∀ key p plaintext, openWith key p (sealWith key p plaintext) = some plaintext

variable (aead : AEAD)

/-- `EncryptChunk` and `EncryptRecord` -/
def encrypt (material : KeyMaterial) (context : Context) (plaintext : Bytes) : Except Error Bytes :=
  if chunkSize < plaintext.length then .error .invalid
  else do
    let prepared ← context.prepare material plaintext.length
    .ok (aead.sealWith material.key prepared plaintext)

/-- `DecryptChunk` and `DecryptRecord` -/
def decrypt (material : KeyMaterial) (context : Context) (ciphertext : Bytes) : Except Error Bytes :=
  let plaintextLength : Int := ciphertext.length - overhead
  if plaintextLength < 0 || chunkSize < plaintextLength then .error .invalid
  else do
    let prepared ← context.prepare material plaintextLength
    match aead.openWith material.key prepared ciphertext with
    | some plaintext => .ok plaintext
    | none => .error .authentication

end Paperboat.TransferCrypto
