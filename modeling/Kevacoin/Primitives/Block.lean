import Kevacoin.Primitives.Transaction

/-!
# Block headers

`primitives/block.h` and `primitives/block.cpp`.  A Kevacoin header is a
Bitcoin header followed by a CryptoNote header that carries the proof of
work.  The Bitcoin part is hashed by `GetOriginalBlockHash` (double SHA-256
of its 80 bytes); the CryptoNote header stores that hash in `prev_id`, and
a header is `isCNConsistent` when the two agree.  The block hash and the
proof-of-work hash are hashes of the serialized CryptoNote header.

The hash functions themselves (SHA-256, Keccak, CryptoNight, RandomX) are
vendored C code; the model takes them as a `HashPrimitives` parameter and
computes exactly the bytes that are passed to them.
-/

namespace Kevacoin

/-- `cryptonote::block_header` as Kevacoin's `CryptoNoteHeader` holds it. -/
structure CryptoNoteHeader where
  major_version : UInt8
  minor_version : UInt8
  timestamp : UInt64
  prev_id : uint256
  nonce : UInt32
  merkle_root : uint256
  nTxes : Nat
deriving DecidableEq, Repr

/--
The groups of `write_varint`: seven bits a byte, least significant first,
the high bit set on every byte but the last; `fuel` bounds the groups.
-/
def varintBytes : Nat → Nat → List UInt8
  | 0, _ => []
  | fuel + 1, i =>
      if i ≥ 0x80 then UInt8.ofNat (i % 0x80 + 0x80) :: varintBytes fuel (i / 0x80)
      else [UInt8.ofNat i]

/-- `write_varint`: ten groups cover every 64-bit value. -/
def writeVarint (i : Nat) : List UInt8 :=
  varintBytes 10 i

/-- `t_serializable_object_to_blob(cnHeader)`: the binary archive of the header. -/
def CryptoNoteHeader.blob (header : CryptoNoteHeader) : List UInt8 :=
  writeVarint header.major_version.toNat ++ writeVarint header.minor_version.toNat ++
    writeVarint header.timestamp.toNat ++ header.prev_id.toByteVector ++
    writeLE32 header.nonce.toNat ++ header.merkle_root.toByteVector ++
    writeVarint header.nTxes

/-- `CBlockHeader`. `nNonce` holds the height of the block. -/
structure CBlockHeader where
  nVersion : Int
  hashPrevBlock : uint256
  hashMerkleRoot : uint256
  nTime : UInt32
  nBits : UInt32
  nNonce : UInt32
  cnHeader : CryptoNoteHeader
deriving DecidableEq, Repr

/-- The hash primitives the block code calls. -/
structure HashPrimitives where
  /-- `CHashWriter::GetHash`: double SHA-256. -/
  Hash : List UInt8 → uint256
  /-- `cn_fast_hash`: Keccak. -/
  cn_fast_hash : List UInt8 → uint256
  /-- `rx_slow_hash(mainheight, seedheight, seedhash, data)`: RandomX. -/
  rx_slow_hash : UInt64 → UInt64 → List UInt8 → List UInt8 → uint256
  /-- `cn_slow_hash(data, variant, height)`: CryptoNight. -/
  cn_slow_hash : List UInt8 → Int → UInt64 → uint256

namespace CBlockHeader

/-- The 80 bytes from `nVersion` to `nNonce`, as they lie in memory. -/
def header80 (header : CBlockHeader) : List UInt8 :=
  writeLE32 (header.nVersion % 2 ^ 32).toNat ++ header.hashPrevBlock.toByteVector ++
    header.hashMerkleRoot.toByteVector ++ writeLE32 header.nTime.toNat ++
    writeLE32 header.nBits.toNat ++ writeLE32 header.nNonce.toNat

/-- `CBlockHeader::GetOriginalBlockHash`. -/
def GetOriginalBlockHash (hashes : HashPrimitives) (header : CBlockHeader) : uint256 :=
  hashes.Hash header.header80

/-- `CBlockHeader::isCNConsistent`: the CryptoNote header commits to the Bitcoin header. -/
def isCNConsistent (hashes : HashPrimitives) (header : CBlockHeader) : Bool :=
  header.GetOriginalBlockHash hashes == header.cnHeader.prev_id

/-- The hash `0xff...ff` that an inconsistent header gets. -/
def inconsistentHash : uint256 := BitVec.allOnes 256

/-- `CBlockHeader::GetHash`. -/
def GetHash (hashes : HashPrimitives) (header : CBlockHeader) : uint256 :=
  if !header.isCNConsistent hashes then inconsistentHash
  else hashes.cn_fast_hash header.cnHeader.blob

end CBlockHeader

/-- `CBlock`: a header and its transactions. -/
structure CBlock where
  header : CBlockHeader
  vtx : List CTransaction
deriving DecidableEq, Repr

end Kevacoin
