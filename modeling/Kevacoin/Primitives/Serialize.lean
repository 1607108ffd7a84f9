import Kevacoin.Chain.PoW
import Kevacoin.Coins.View
import Kevacoin.Data.Bytes
import Kevacoin.Data.Canonical

/-!
# Serialized headers

The bytes a header is written to and the readers that take them back:
`ReadCompactSize` and the `std::string` of `serialize.h`, the load and
store directions of `CryptoNoteHeader::do_serialize` and the
`SerializationOp`s of `CryptoNoteHeader` and `CBlockHeader` in
`primitives/block.h`, and `CDiskBlockIndex::SerializationOp` in `chain.h`.

The CryptoNote header is written by Monero's binary archive into a blob,
which is then written as a `std::string` behind its compact size.  The
archive's varints are LEB128 (`Bytes.leb128`); the `VARINT` of the block
index is the most-significant-first varint (`Bytes.msbVarint`).  The
archive's reads are taken as their specification has them: a read that
finds no well-formed value fails.  Where the load of a blob fails, the
source ignores the failure and keeps the fields read so far; the model
keeps the header it reads into.

The main result: a header whose fields lie in their C++ types, and every
block index entry built from one, read back as themselves
(`blockHeader_serialization_roundtrip`).
-/

namespace Kevacoin

open Bytes

/-! ## Fixed-width fields -/

theorem writeLE16_eq (n : Nat) : writeLE16 n = leBytes 2 n := by
  simp [writeLE16, leBytes]

theorem writeLE32_eq (n : Nat) : writeLE32 n = leBytes 4 n := by
  simp [writeLE32, leBytes, Nat.div_div_eq_div_mul]

theorem varintBytes_eq_leb128 (fuel i : Nat) : varintBytes fuel i = leb128 fuel i := by
  induction fuel generalizing i with
  | zero => rfl
  | succ fuel ih => simp [varintBytes, leb128, ih]

/-- The 32 bytes of a hash, least significant first, are its little-endian integer. -/
theorem uint256.toByteVector_eq (hash : uint256) : hash.toByteVector = leBytes 32 hash.toNat := by
  rw [uint256.toByteVector, leBytes_eq_map_range]
  congr 1
  funext index
  simp [BitVec.toNat_ushiftRight, Nat.shiftRight_eq_div_pow, Nat.pow_mul]

/-- A `uint256`, as its 32 bytes lie in memory. -/
def readUint256 : Reader uint256 :=
  (BitVec.ofNat 256) <$> readLE 32

theorem readsBack_uint256 (hash : uint256) : ReadsBack readUint256 hash.toByteVector hash := by
  have reads := (@readsBack_leBytes 32 hash.toNat (by simpa using hash.isLt)).map
    (BitVec.ofNat 256)
  rw [BitVec.ofNat_toNat, BitVec.setWidth_eq, ← uint256.toByteVector_eq] at reads
  exact reads

/-- `ser_readdata32` of a field of type `uint32_t`. -/
def readUInt32 : Reader UInt32 :=
  UInt32.ofNat <$> readLE 4

theorem readsBack_uint32 (value : UInt32) : ReadsBack readUInt32 (writeLE32 value.toNat) value := by
  have reads := (@readsBack_leBytes 4 value.toNat (by simpa using value.toNat_lt)).map UInt32.ofNat
  rwa [UInt32.ofNat_toNat, ← writeLE32_eq] at reads

/-- The `int32_t` whose two's complement bits are `bits`. -/
def ofInt32Bits (bits : Nat) : Int :=
  if bits < 2 ^ 31 then bits else bits - 2 ^ 32

/-- `ser_readdata32` of a field of type `int32_t`. -/
def readInt32 : Reader Int :=
  ofInt32Bits <$> readLE 4

theorem ofInt32Bits_bits {value : Int} (low : -2 ^ 31 ≤ value) (high : value < 2 ^ 31) :
    ofInt32Bits (value % 2 ^ 32).toNat = value := by
  unfold ofInt32Bits
  split <;> omega

theorem readsBack_int32 {value : Int} (low : -2 ^ 31 ≤ value) (high : value < 2 ^ 31) :
    ReadsBack readInt32 (writeLE32 (value % 2 ^ 32).toNat) value := by
  have reads := (@readsBack_leBytes 4 (value % 2 ^ 32).toNat (by omega)).map ofInt32Bits
  rwa [ofInt32Bits_bits low high, ← writeLE32_eq] at reads

/-! ## Compact sizes and strings -/

/-- `MAX_SIZE`: the largest size `ReadCompactSize` accepts. -/
def MAX_SIZE : Nat := 0x02000000

/--
`ReadCompactSize`: a size written longer than it needs to be is refused
(`non-canonical ReadCompactSize()`), and so is one above `MAX_SIZE`.
-/
def ReadCompactSize : Reader Nat := do
  let chSize ← readByte
  let nSizeRet ←
    if chSize.toNat < 253 then Pure.pure chSize.toNat
    else if chSize.toNat = 253 then do
      let size ← readLE 2
      if size < 253 then failure else Pure.pure size
    else if chSize.toNat = 254 then do
      let size ← readLE 4
      if size < 0x10000 then failure else Pure.pure size
    else do
      let size ← readLE 8
      if size < 0x100000000 then failure else Pure.pure size
  if nSizeRet > MAX_SIZE then failure else Pure.pure nSizeRet

/-- What `ReadCompactSize` does once the size is read: refuse it above `MAX_SIZE`. -/
theorem readsBack_sizeCheck {size : Nat} (small : size ≤ MAX_SIZE) :
    ReadsBack (if size > MAX_SIZE then failure else Pure.pure size : Reader Nat) [] size := by
  rw [if_neg (by omega)]
  exact ReadsBack.pure size

/--
A size up to `MAX_SIZE` reads back from its compact size: one byte below
253, else the marker 253 and two bytes, or the marker 254 and four bytes.
Such a size never needs the eight-byte form.
-/
theorem readsBack_compactSize {size : Nat} (small : size ≤ MAX_SIZE) :
    ReadsBack ReadCompactSize (writeCompactSize size) size := by
  intro rest
  have checked := readsBack_sizeCheck small rest
  unfold writeCompactSize ReadCompactSize
  by_cases single : size < 253
  · rw [if_pos single, List.singleton_append, run_bind_of_run (run_readByte _ _)]
    have byte : (UInt8.ofNat size).toNat = size := by simp; omega
    simp only [byte, if_pos single, pure_bind]
    exact checked
  by_cases two : size ≤ 0xffff
  · rw [if_neg single, if_pos two, List.cons_append, run_bind_of_run (run_readByte _ _)]
    simp only [show (253 : UInt8).toNat = 253 from rfl, if_neg (Nat.lt_irrefl 253), if_true]
    rw [writeLE16_eq, run_bind_of_run (@readsBack_leBytes 2 size (by omega) rest)]
    simp only [if_neg (show ¬ size < 253 by omega), pure_bind]
    exact checked
  · have four : size ≤ 0xffffffff := by unfold MAX_SIZE at small; omega
    rw [if_neg single, if_neg two, if_pos four, List.cons_append, run_bind_of_run (run_readByte _ _)]
    simp only [show (254 : UInt8).toNat = 254 from rfl, if_neg (by decide : ¬ 254 < 253),
      if_neg (by decide : ¬ 254 = 253), if_true]
    rw [writeLE32_eq, run_bind_of_run (@readsBack_leBytes 4 size (by omega) rest)]
    simp only [if_neg (show ¬ size < 0x10000 by omega), pure_bind]
    exact checked

/-- `GetSizeOfCompactSize`: the marker byte and the payload of the width the size needs. -/
def GetSizeOfCompactSize (nSize : Nat) : Nat :=
  if nSize < 253 then 1
  else if nSize ≤ 0xffff then 1 + 2
  else if nSize ≤ 0xffffffff then 1 + 4
  else 1 + 8

theorem length_writeCompactSize (nSize : Nat) :
    (writeCompactSize nSize).length = GetSizeOfCompactSize nSize := by
  unfold writeCompactSize GetSizeOfCompactSize
  by_cases single : nSize < 253
  · rw [if_pos single, if_pos single, List.length_singleton]
  by_cases two : nSize ≤ 0xffff
  · rw [if_neg single, if_pos two, if_neg single, if_pos two, List.length_cons, writeLE16_eq,
      length_leBytes]
  by_cases four : nSize ≤ 0xffffffff
  · rw [if_neg single, if_neg two, if_pos four, if_neg single, if_neg two, if_pos four,
      List.length_cons, writeLE32_eq, length_leBytes]
  · rw [if_neg single, if_neg two, if_neg four, if_neg single, if_neg two, if_neg four,
      List.length_cons, List.length_map, List.length_range]

/-- The size check `ReadCompactSize` ends with, after a size read as it is. -/
theorem run_sizeCheck {size value : Nat} {input rest : List UInt8}
    (ran : ((Pure.pure size : Reader Nat) >>= fun nSizeRet =>
      if nSizeRet > MAX_SIZE then failure else Pure.pure nSizeRet).run input = some (value, rest)) :
    size ≤ MAX_SIZE ∧ size = value ∧ input = rest := by
  obtain ⟨size', after, readSize, ran⟩ := run_bind_eq_some ran
  obtain ⟨rfl, rfl⟩ := run_pure_eq_some readSize
  by_cases tooLarge : size > MAX_SIZE
  · rw [if_pos tooLarge] at ran
    cases ran
  · rw [if_neg tooLarge] at ran
    obtain ⟨rfl, rfl⟩ := run_pure_eq_some ran
    exact ⟨Nat.le_of_not_lt tooLarge, rfl, rfl⟩

/-- A marker's payload: `width` little-endian bytes, refused below `least`, then the size check. -/
theorem run_markedSize {width least : Nat} {input rest : List UInt8} {value : Nat}
    (ran : (readLE width >>= fun size =>
      if size < least then
        ((failure : Reader Nat) >>= fun nSizeRet =>
          if nSizeRet > MAX_SIZE then failure else Pure.pure nSizeRet)
      else
        ((Pure.pure size : Reader Nat) >>= fun nSizeRet =>
          if nSizeRet > MAX_SIZE then failure else Pure.pure nSizeRet)).run input =
      some (value, rest)) :
    input = leBytes width value ++ rest ∧ least ≤ value ∧ value < 256 ^ width ∧ value ≤ MAX_SIZE := by
  obtain ⟨size, after, readSize, ran⟩ := run_bind_eq_some ran
  by_cases small : size < least
  · rw [if_pos small] at ran
    obtain ⟨_, _, failed, -⟩ := run_bind_eq_some ran
    cases failed
  · rw [if_neg small] at ran
    obtain ⟨fits, rfl, rfl⟩ := run_sizeCheck ran
    obtain ⟨bytes, inWidth⟩ := run_readLE readSize
    exact ⟨bytes, Nat.le_of_not_lt small, inWidth, fits⟩

/--
What `ReadCompactSize` accepts is the compact size of the value it returns:
each marker's payload is refused below the least value that needs it, and
the eight-byte form always ends above `MAX_SIZE`.
-/
theorem run_ReadCompactSize {input rest : List UInt8} {size : Nat}
    (ran : ReadCompactSize.run input = some (size, rest)) :
    size ≤ MAX_SIZE ∧ input = writeCompactSize size ++ rest := by
  obtain ⟨chSize, after, readMarker, ran⟩ := run_bind_eq_some ran
  rw [run_readByte_eq_some readMarker]
  have markerLt := chSize.toNat_lt
  by_cases single : chSize.toNat < 253
  · rw [if_pos single] at ran
    obtain ⟨small, rfl, rfl⟩ := run_sizeCheck ran
    refine ⟨small, ?_⟩
    rw [writeCompactSize, if_pos single, UInt8.ofNat_toNat]
    rfl
  rw [if_neg single] at ran
  by_cases two : chSize.toNat = 253
  · rw [if_pos two] at ran
    obtain ⟨bytes, least, inWidth, small⟩ := run_markedSize ran
    have fits : size ≤ 0xffff := by
      rw [show (256 : Nat) ^ 2 = 0x10000 from rfl] at inWidth
      omega
    have marker : chSize = 253 := UInt8.toNat_inj.mp two
    refine ⟨small, ?_⟩
    rw [writeCompactSize, if_neg (by omega), if_pos fits, writeLE16_eq, marker, bytes]
    rfl
  rw [if_neg two] at ran
  by_cases four : chSize.toNat = 254
  · rw [if_pos four] at ran
    obtain ⟨bytes, least, inWidth, small⟩ := run_markedSize ran
    have fits : size ≤ 0xffffffff := by
      rw [show (256 : Nat) ^ 4 = 0x100000000 from rfl] at inWidth
      omega
    have marker : chSize = 254 := UInt8.toNat_inj.mp four
    refine ⟨small, ?_⟩
    rw [writeCompactSize, if_neg (by omega), if_neg (by omega), if_pos fits, writeLE32_eq, marker,
      bytes]
    rfl
  · rw [if_neg four] at ran
    obtain ⟨-, least, -, small⟩ := run_markedSize ran
    unfold MAX_SIZE at small
    omega

/--
On sizes up to `MAX_SIZE` the compact size is a bijection: each reads back,
consuming `GetSizeOfCompactSize` bytes, and whatever `ReadCompactSize`
accepts is the compact size of the value it returns.
-/
theorem compactSize_canonical_roundtrip :
    (∀ n, n ≤ MAX_SIZE → ReadsBack ReadCompactSize (writeCompactSize n) n ∧
      (writeCompactSize n).length = GetSizeOfCompactSize n) ∧
    (∀ input n rest, ReadCompactSize.run input = some (n, rest) →
      n ≤ MAX_SIZE ∧ input = writeCompactSize n ++ rest) :=
  ⟨fun n small => ⟨readsBack_compactSize small, length_writeCompactSize n⟩,
    fun _ _ _ ran => run_ReadCompactSize ran⟩

/-- `Serialize` of a `std::string`: its compact size, then its bytes. -/
def writeString (str : List UInt8) : List UInt8 :=
  writeCompactSize str.length ++ str

/-- `Unserialize` of a `std::string`. -/
def readString : Reader (List UInt8) := do
  let nSize ← ReadCompactSize
  readBytes nSize

theorem readsBack_string {str : List UInt8} (small : str.length ≤ MAX_SIZE) :
    ReadsBack readString (writeString str) str :=
  (readsBack_compactSize small).bind (readsBack_readBytes str)

/-! ## The CryptoNote header -/

/--
`CryptoNoteHeader::do_serialize` on a load archive: the varints of the
versions, the timestamp and the count with the widths of their fields, the
two hashes as raw bytes and the nonce as a little-endian `uint32_t`.
-/
def CryptoNoteHeader.load : Reader CryptoNoteHeader := do
  let major_version ← readLEB128 8
  let minor_version ← readLEB128 8
  let timestamp ← readLEB128 64
  let prev_hash ← readUint256
  let nonce ← readLE 4
  let merkle_hash ← readUint256
  let nTxes ← readLEB128 64
  Pure.pure ⟨UInt8.ofNat major_version, UInt8.ofNat minor_version, UInt64.ofNat timestamp,
    prev_hash, UInt32.ofNat nonce, merkle_hash, nTxes⟩

/-- `write_varint` of a value below `2^bits` (at most 64) is read back by the archive. -/
theorem readsBack_writeVarint {bits value : Nat} (fits : value < 2 ^ bits) (wide : bits ≤ 64) :
    ReadsBack (readLEB128 bits) (writeVarint value) value := by
  rw [writeVarint, varintBytes_eq_leb128]
  apply readsBack_leb128 fits
  calc value < 2 ^ bits := fits
    _ ≤ 2 ^ 64 := Nat.pow_le_pow_right (by decide) wide
    _ < 0x80 ^ 10 := by decide

/-- The only value whose varint is the single byte 1. -/
theorem writeVarint_eq_one_iff (value : Nat) : writeVarint value = [1] ↔ value = 1 := by
  unfold writeVarint varintBytes
  split
  · constructor
    · intro written
      have first := congrArg (fun bytes => (bytes.headD 0).toNat) written
      simp at first
      omega
    · omega
  · constructor
    · intro written
      have first := congrArg (fun bytes => (bytes.headD 0).toNat) written
      simp at first
      omega
    · rintro rfl
      rfl

/-- The store direction writes what the load direction reads: `blob` is the archive's output. -/
theorem readsBack_cryptoNoteHeader (header : CryptoNoteHeader) (txesFit : header.nTxes < 2 ^ 64) :
    ReadsBack CryptoNoteHeader.load header.blob header := by
  have reads : ReadsBack CryptoNoteHeader.load
      (writeVarint header.major_version.toNat ++ (writeVarint header.minor_version.toNat ++
        (writeVarint header.timestamp.toNat ++ (header.prev_id.toByteVector ++
        (leBytes 4 header.nonce.toNat ++ (header.merkle_root.toByteVector ++
        (writeVarint header.nTxes ++ [])))))))
      ⟨UInt8.ofNat header.major_version.toNat, UInt8.ofNat header.minor_version.toNat,
        UInt64.ofNat header.timestamp.toNat, header.prev_id, UInt32.ofNat header.nonce.toNat,
        header.merkle_root, header.nTxes⟩ :=
    (readsBack_writeVarint header.major_version.toNat_lt (by decide)).bind <|
    (readsBack_writeVarint header.minor_version.toNat_lt (by decide)).bind <|
    (readsBack_writeVarint header.timestamp.toNat_lt (by decide)).bind <|
    (readsBack_uint256 header.prev_id).bind <|
    (@readsBack_leBytes 4 header.nonce.toNat (by simpa using header.nonce.toNat_lt)).bind <|
    (readsBack_uint256 header.merkle_root).bind <|
    (readsBack_writeVarint txesFit (by decide)).bind (ReadsBack.pure _)
  simpa [CryptoNoteHeader.blob, writeLE32_eq] using reads

namespace CryptoNoteHeader

/-- `SerializationOp` writing: the store archive's blob, as a string. -/
def serialize (header : CryptoNoteHeader) : List UInt8 :=
  writeString header.blob

/--
`SerializationOp` reading into `header`: the string, then the load archive
over it.  What the load returns is not checked; where it fails, the model
keeps `header`.
-/
def unserialize (header : CryptoNoteHeader) : Reader CryptoNoteHeader := do
  let blob ← readString
  Pure.pure <| match load.run blob with
    | some (loaded, _) => loaded
    | none => header

theorem length_blob_le (header : CryptoNoteHeader) : header.blob.length ≤ 108 := by
  have major := length_leb128_le 10 header.major_version.toNat
  have minor := length_leb128_le 10 header.minor_version.toNat
  have timestamp := length_leb128_le 10 header.timestamp.toNat
  have txes := length_leb128_le 10 header.nTxes
  simp only [blob, writeVarint, varintBytes_eq_leb128, uint256.toByteVector_eq, writeLE32_eq,
    List.length_append, length_leBytes]
  omega

theorem readsBack_serialize (into header : CryptoNoteHeader) (txesFit : header.nTxes < 2 ^ 64) :
    ReadsBack (unserialize into) header.serialize header := by
  have small : header.blob.length ≤ MAX_SIZE := by
    have := length_blob_le header
    unfold MAX_SIZE
    omega
  have loaded : load.run header.blob = some (header, []) := by
    simpa using readsBack_cryptoNoteHeader header txesFit []
  have reads : ReadsBack (unserialize into) (header.serialize ++ [])
      (match load.run header.blob with
        | some (loaded, _) => loaded
        | none => into) :=
    (readsBack_string small).bind (ReadsBack.pure _)
  simpa [loaded] using reads

end CryptoNoteHeader

/-! ## The block header -/

namespace CBlockHeader

/-- `SerializationOp` writing; `legacyMode` leaves the CryptoNote header out. -/
def serialize (legacyMode : Bool) (header : CBlockHeader) : List UInt8 :=
  header.header80 ++ if legacyMode then [] else header.cnHeader.serialize

/-- `SerializationOp` reading into `header`; `legacyMode` keeps its CryptoNote header. -/
def unserialize (legacyMode : Bool) (header : CBlockHeader) : Reader CBlockHeader := do
  let nVersion ← readInt32
  let hashPrevBlock ← readUint256
  let hashMerkleRoot ← readUint256
  let nTime ← readUInt32
  let nBits ← readUInt32
  let nNonce ← readUInt32
  let cnHeader ← (if legacyMode then Pure.pure header.cnHeader else header.cnHeader.unserialize)
  Pure.pure ⟨nVersion, hashPrevBlock, hashMerkleRoot, nTime, nBits, nNonce, cnHeader⟩

/-- The CryptoNote header a read gives back: the one written, unless `legacyMode` left it out. -/
theorem readsBack_cnHeader (legacyMode : Bool) (into header : CryptoNoteHeader)
    (txesFit : header.nTxes < 2 ^ 64) :
    ReadsBack (if legacyMode then Pure.pure into else into.unserialize)
      (if legacyMode then [] else header.serialize) (if legacyMode then into else header) := by
  cases legacyMode
  · exact CryptoNoteHeader.readsBack_serialize into header txesFit
  · exact ReadsBack.pure into

/-- A header whose version is an `int32_t` and whose count is a `size_t` reads back as itself. -/
theorem readsBack_serialize (legacyMode : Bool) (into header : CBlockHeader)
    (versionLow : -2 ^ 31 ≤ header.nVersion) (versionHigh : header.nVersion < 2 ^ 31)
    (txesFit : header.cnHeader.nTxes < 2 ^ 64) :
    ReadsBack (unserialize legacyMode into) (header.serialize legacyMode)
      { header with cnHeader := if legacyMode then into.cnHeader else header.cnHeader } := by
  have reads : ReadsBack (unserialize legacyMode into)
      (writeLE32 (header.nVersion % 2 ^ 32).toNat ++ (header.hashPrevBlock.toByteVector ++
        (header.hashMerkleRoot.toByteVector ++ (writeLE32 header.nTime.toNat ++
        (writeLE32 header.nBits.toNat ++ (writeLE32 header.nNonce.toNat ++
        ((if legacyMode then [] else header.cnHeader.serialize) ++ [])))))))
      { header with cnHeader := if legacyMode then into.cnHeader else header.cnHeader } :=
    (readsBack_int32 versionLow versionHigh).bind <|
    (readsBack_uint256 header.hashPrevBlock).bind <|
    (readsBack_uint256 header.hashMerkleRoot).bind <|
    (readsBack_uint32 header.nTime).bind <|
    (readsBack_uint32 header.nBits).bind <|
    (readsBack_uint32 header.nNonce).bind <|
    (readsBack_cnHeader legacyMode into.cnHeader header.cnHeader txesFit).bind (ReadsBack.pure _)
  simpa [serialize, header80] using reads

end CBlockHeader

/-! ## Block index entries on disk -/

/-- `BLOCK_HAVE_DATA`: the full block is in a block file. -/
def BLOCK_HAVE_DATA : UInt32 := 8

/-- `BLOCK_HAVE_UNDO`: its undo data is in an undo file. -/
def BLOCK_HAVE_UNDO : UInt32 := 16

/-- `std::numeric_limits<int>::max()`, the bound of `ReadVarInt<int>`. -/
def INT_MAX : Nat := 0x7fffffff

/-- `std::numeric_limits<unsigned int>::max()`. -/
def UINT_MAX : Nat := 0xffffffff

/-- `WriteVarInt` of an `int`: a negative value stops after its low seven bits. -/
def writeVarIntInt (n : Int) : List UInt8 :=
  if n < 0 then [UInt8.ofNat (n % 0x80).toNat] else msbVarint n.toNat

/-- `ReadVarInt<int>`. -/
def readVarIntInt : Reader Int :=
  Int.ofNat <$> readMsbVarint INT_MAX

/-- `ReadVarInt<unsigned int>`. -/
def readVarIntUInt : Reader UInt32 :=
  UInt32.ofNat <$> readMsbVarint UINT_MAX

/-- `ReadVarInt<uint64_t>`. -/
def readVarIntUInt64 : Reader UInt64 :=
  UInt64.ofNat <$> readMsbVarint (2 ^ 64 - 1)

theorem readsBack_varIntInt {n : Int} (nonneg : 0 ≤ n) (fits : n ≤ INT_MAX) :
    ReadsBack readVarIntInt (writeVarIntInt n) n := by
  have encoding : writeVarIntInt n = msbVarint n.toNat := by
    rw [writeVarIntInt, if_neg (by omega)]
  have reads := (@readsBack_msbVarint INT_MAX n.toNat (by omega)).map Int.ofNat
  rw [encoding, readVarIntInt]
  simpa [Int.toNat_of_nonneg nonneg] using reads

theorem readsBack_varIntUInt (n : UInt32) : ReadsBack readVarIntUInt (msbVarint n.toNat) n := by
  have reads := (@readsBack_msbVarint UINT_MAX n.toNat (by
    have := n.toNat_lt
    unfold UINT_MAX
    omega)).map UInt32.ofNat
  rwa [UInt32.ofNat_toNat] at reads

/-- A field written only under a flag reads back, and is left as it was without the flag. -/
theorem readsBack_flagged {α : Type} {read : Reader α} {bytes : List UInt8} {value : α} (written : Bool)
    (old : α) (reads : written = true → ReadsBack read bytes value) :
    ReadsBack (if written then read else Pure.pure old) (if written then bytes else [])
      (if written then value else old) := by
  cases written
  · exact ReadsBack.pure old
  · exact reads rfl

/--
`CDiskBlockIndex`: the fields of a `CBlockIndex` that the block tree
database keeps, with the hash of the previous block in place of `pprev`.
-/
structure CDiskBlockIndex where
  nHeight : Int
  nStatus : UInt32
  nTx : UInt32
  nFile : Int
  nDataPos : UInt32
  nUndoPos : UInt32
  nVersion : Int
  hashPrev : uint256
  hashMerkleRoot : uint256
  nTime : UInt32
  nBits : UInt32
  nNonce : UInt32
  cnHeader : CryptoNoteHeader
deriving DecidableEq, Repr

namespace CDiskBlockIndex

/--
`CDiskBlockIndex(pindex)` of an entry that `AddToBlockIndex` built from
`hdr`: its `pprev` is the entry of `hdr.hashPrevBlock`, or none for the
genesis block, whose `hashPrevBlock` is null, so `hashPrev` is
`hdr.hashPrevBlock`.
-/
def ofHeader (hdr : CBlockHeader) (nHeight : Int) (nStatus nTx : UInt32) (nFile : Int)
    (nDataPos nUndoPos : UInt32) : CDiskBlockIndex :=
  ⟨nHeight, nStatus, nTx, nFile, nDataPos, nUndoPos, hdr.nVersion, hdr.hashPrevBlock,
    hdr.hashMerkleRoot, hdr.nTime, hdr.nBits, hdr.nNonce, hdr.cnHeader⟩

/-- The header `GetBlockHash` builds from the entry. -/
def header (index : CDiskBlockIndex) : CBlockHeader :=
  ⟨index.nVersion, index.hashPrev, index.hashMerkleRoot, index.nTime, index.nBits, index.nNonce,
    index.cnHeader⟩

/-- `CDiskBlockIndex::GetBlockHash`. -/
def GetBlockHash (hashes : HashPrimitives) (index : CDiskBlockIndex) : uint256 :=
  index.header.GetHash hashes

/-- `nStatus & (BLOCK_HAVE_DATA | BLOCK_HAVE_UNDO)`: `nFile` is written. -/
def hasFile (nStatus : UInt32) : Bool :=
  nStatus &&& (BLOCK_HAVE_DATA ||| BLOCK_HAVE_UNDO) != 0

/-- `nStatus & BLOCK_HAVE_DATA`: `nDataPos` is written. -/
def hasData (nStatus : UInt32) : Bool :=
  nStatus &&& BLOCK_HAVE_DATA != 0

/-- `nStatus & BLOCK_HAVE_UNDO`: `nUndoPos` is written. -/
def hasUndo (nStatus : UInt32) : Bool :=
  nStatus &&& BLOCK_HAVE_UNDO != 0

/-- `SerializationOp` writing to a disk stream of client version `clientVersion`. -/
def serialize (clientVersion : Int) (index : CDiskBlockIndex) : List UInt8 :=
  writeVarIntInt clientVersion ++ writeVarIntInt index.nHeight ++ msbVarint index.nStatus.toNat ++
    msbVarint index.nTx.toNat ++
    (if hasFile index.nStatus then writeVarIntInt index.nFile else []) ++
    (if hasData index.nStatus then msbVarint index.nDataPos.toNat else []) ++
    (if hasUndo index.nStatus then msbVarint index.nUndoPos.toNat else []) ++
    index.header.serialize false

/-- `SerializationOp` reading into `index`; the client version read first is dropped. -/
def unserialize (index : CDiskBlockIndex) : Reader CDiskBlockIndex := do
  let _nVersion ← readVarIntInt
  let nHeight ← readVarIntInt
  let nStatus ← readVarIntUInt
  let nTx ← readVarIntUInt
  let nFile ← (if hasFile nStatus then readVarIntInt else Pure.pure index.nFile)
  let nDataPos ← (if hasData nStatus then readVarIntUInt else Pure.pure index.nDataPos)
  let nUndoPos ← (if hasUndo nStatus then readVarIntUInt else Pure.pure index.nUndoPos)
  let header ← CBlockHeader.unserialize false index.header
  Pure.pure ⟨nHeight, nStatus, nTx, nFile, nDataPos, nUndoPos, header.nVersion,
    header.hashPrevBlock, header.hashMerkleRoot, header.nTime, header.nBits, header.nNonce,
    header.cnHeader⟩

/-- What a read into `old` of the entry `index` gives: the fields its flags leave out are `old`'s. -/
def readInto (old index : CDiskBlockIndex) : CDiskBlockIndex :=
  { index with
    nFile := if hasFile index.nStatus then index.nFile else old.nFile
    nDataPos := if hasData index.nStatus then index.nDataPos else old.nDataPos
    nUndoPos := if hasUndo index.nStatus then index.nUndoPos else old.nUndoPos }

@[simp] theorem header_readInto (old index : CDiskBlockIndex) :
    (readInto old index).header = index.header :=
  rfl

theorem readsBack_serialize (old index : CDiskBlockIndex) {clientVersion : Int}
    (clientFits : 0 ≤ clientVersion ∧ clientVersion ≤ INT_MAX)
    (heightFits : 0 ≤ index.nHeight ∧ index.nHeight ≤ INT_MAX)
    (fileFits : hasFile index.nStatus = true → 0 ≤ index.nFile ∧ index.nFile ≤ INT_MAX)
    (versionLow : -2 ^ 31 ≤ index.nVersion) (versionHigh : index.nVersion < 2 ^ 31)
    (txesFit : index.cnHeader.nTxes < 2 ^ 64) :
    ReadsBack (unserialize old) (index.serialize clientVersion) (readInto old index) := by
  have reads : ReadsBack (unserialize old)
      (writeVarIntInt clientVersion ++ (writeVarIntInt index.nHeight ++
        (msbVarint index.nStatus.toNat ++ (msbVarint index.nTx.toNat ++
        ((if hasFile index.nStatus then writeVarIntInt index.nFile else []) ++
        ((if hasData index.nStatus then msbVarint index.nDataPos.toNat else []) ++
        ((if hasUndo index.nStatus then msbVarint index.nUndoPos.toNat else []) ++
        (index.header.serialize false ++ []))))))))
      (readInto old index) :=
    (readsBack_varIntInt clientFits.1 clientFits.2).bind <|
    (readsBack_varIntInt heightFits.1 heightFits.2).bind <|
    (readsBack_varIntUInt index.nStatus).bind <|
    (readsBack_varIntUInt index.nTx).bind <|
    (readsBack_flagged _ old.nFile fun written =>
      readsBack_varIntInt (fileFits written).1 (fileFits written).2).bind <|
    (readsBack_flagged _ old.nDataPos fun _ => readsBack_varIntUInt index.nDataPos).bind <|
    (readsBack_flagged _ old.nUndoPos fun _ => readsBack_varIntUInt index.nUndoPos).bind <|
    (CBlockHeader.readsBack_serialize false old.header index.header versionLow versionHigh
      txesFit).bind (ReadsBack.pure _)
  simpa [serialize] using reads

end CDiskBlockIndex

open CDiskBlockIndex in
/--
A non-legacy header whose fields lie in their C++ types reads back from its
network serialization as itself, and so does it from the disk entry of a
block index built from it, which then hashes as the header does.
-/
theorem blockHeader_serialization_roundtrip (hdr into : CBlockHeader) (old : CDiskBlockIndex)
    (clientVersion nHeight nFile : Int) (nStatus nTx nDataPos nUndoPos : UInt32)
    (versionLow : -2 ^ 31 ≤ hdr.nVersion) (versionHigh : hdr.nVersion < 2 ^ 31)
    (txesFit : hdr.cnHeader.nTxes < 2 ^ 64)
    (clientFits : 0 ≤ clientVersion ∧ clientVersion ≤ INT_MAX)
    (heightFits : 0 ≤ nHeight ∧ nHeight ≤ INT_MAX)
    (fileFits : hasFile nStatus = true → 0 ≤ nFile ∧ nFile ≤ INT_MAX) :
    ReadsBack (CBlockHeader.unserialize false into) (hdr.serialize false) hdr ∧
    ReadsBack (unserialize old)
      ((ofHeader hdr nHeight nStatus nTx nFile nDataPos nUndoPos).serialize clientVersion)
      (readInto old (ofHeader hdr nHeight nStatus nTx nFile nDataPos nUndoPos)) ∧
    (readInto old (ofHeader hdr nHeight nStatus nTx nFile nDataPos nUndoPos)).header = hdr ∧
    ∀ hashes, (readInto old (ofHeader hdr nHeight nStatus nTx nFile nDataPos nUndoPos)).GetBlockHash
      hashes = hdr.GetHash hashes := by
  have entryHeader : (readInto old (ofHeader hdr nHeight nStatus nTx nFile nDataPos nUndoPos)).header
      = hdr := rfl
  refine ⟨CBlockHeader.readsBack_serialize false into hdr versionLow versionHigh txesFit,
    readsBack_serialize old _ clientFits heightFits fileFits versionLow versionHigh txesFit,
    entryHeader, fun hashes => ?_⟩
  rw [GetBlockHash, entryHeader]

open CDiskBlockIndex in
theorem blockHeader_serialization_roundtrip_randomX :
    let hdr : CBlockHeader := ⟨0x20000000, 0, 0, 1, 0x1e0fffff, 1, ⟨12, 12, 1, 0, 0, 0, 1⟩⟩
    ((-2 ^ 31 ≤ hdr.nVersion ∧ hdr.nVersion < 2 ^ 31 ∧ hdr.cnHeader.nTxes < 2 ^ 64) ∧
      (0 ≤ (170000 : Int) ∧ (170000 : Int) ≤ INT_MAX) ∧ (0 ≤ (1 : Int) ∧ (1 : Int) ≤ INT_MAX) ∧
      (hasFile BLOCK_HAVE_DATA = true → 0 ≤ (0 : Int) ∧ (0 : Int) ≤ INT_MAX)) ∧
    ReadsBack (CBlockHeader.unserialize false hdr) (hdr.serialize false) hdr ∧
    ReadsBack (unserialize (ofHeader hdr 0 0 0 0 0 0))
      ((ofHeader hdr 1 BLOCK_HAVE_DATA 1 0 8 0).serialize 170000)
      (readInto (ofHeader hdr 0 0 0 0 0 0) (ofHeader hdr 1 BLOCK_HAVE_DATA 1 0 8 0)) ∧
    (readInto (ofHeader hdr 0 0 0 0 0 0) (ofHeader hdr 1 BLOCK_HAVE_DATA 1 0 8 0)).header = hdr ∧
    ∀ hashes, (readInto (ofHeader hdr 0 0 0 0 0 0)
      (ofHeader hdr 1 BLOCK_HAVE_DATA 1 0 8 0)).GetBlockHash hashes = hdr.GetHash hashes := by
  intro hdr
  exact ⟨by decide, blockHeader_serialization_roundtrip hdr hdr (ofHeader hdr 0 0 0 0 0 0)
    170000 1 0 BLOCK_HAVE_DATA 1 8 0 (by decide) (by decide) (by decide) (by decide) (by decide)
    (by decide)⟩

end Kevacoin
