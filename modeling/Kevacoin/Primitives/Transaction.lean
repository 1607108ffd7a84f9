import Kevacoin.Script.Keva

/-!
# Transactions

The data of `primitives/transaction.h` that the keva rules and the coin
views read: outpoints, inputs, outputs and transactions, with the tests
`COutPoint::IsNull`, `CTransaction::IsCoinBase` and
`CTransaction::IsKevacoin`.

A transaction keeps its hash as a field, as `CTransaction` caches it in
the constant member `hash` when it is built; the double SHA-256 that
computes it from the serialization is not modelled.  Amounts (`CAmount`,
a signed 64-bit integer) are integers, and hashes are 256-bit vectors
whose byte order is that of `uint256::begin()`.
-/

namespace Kevacoin

/-- `uint256`. -/
abbrev uint256 := BitVec 256

/-- `uint160`, the result of `Hash160`. -/
abbrev uint160 := BitVec 160

/-- `ToByteVector` of a 256-bit hash: its 32 bytes, least significant first. -/
def uint256.toByteVector (hash : uint256) : valtype :=
  (List.range 32).map fun index => (hash >>> (8 * index)).toNat.toUInt8

/-- `ToByteVector` of a 160-bit hash: its 20 bytes, least significant first. -/
def uint160.toByteVector (hash : uint160) : valtype :=
  (List.range 20).map fun index => (hash >>> (8 * index)).toNat.toUInt8

/-- `CAmount`. -/
abbrev CAmount := Int

/-- `COIN`. -/
def COIN : CAmount := 100000000

/-- `MAX_MONEY`. -/
def MAX_MONEY : CAmount := 16 * 84000000 * COIN

/-- `MoneyRange`. -/
def MoneyRange (value : CAmount) : Bool :=
  0 ≤ value && value ≤ MAX_MONEY

/-- `COutPoint`: a transaction hash and an output index. -/
structure COutPoint where
  hash : uint256
  n : UInt32
deriving DecidableEq, Repr

/-- `COutPoint::IsNull`: the null hash with index `(uint32_t) -1`. -/
def COutPoint.IsNull (outpoint : COutPoint) : Bool :=
  outpoint.hash == 0 && outpoint.n == 0xffffffff

/-- The null outpoint that a default-constructed `COutPoint` holds. -/
def COutPoint.null : COutPoint := ⟨0, 0xffffffff⟩

/-- `CScriptWitness`: the witness stack of an input. -/
structure CScriptWitness where
  stack : List valtype
deriving DecidableEq, Repr

/-- `CTxIn`. -/
structure CTxIn where
  prevout : COutPoint
  scriptSig : CScript
  nSequence : UInt32
  scriptWitness : CScriptWitness
deriving DecidableEq, Repr

/-- `CTxOut`. -/
structure CTxOut where
  nValue : CAmount
  scriptPubKey : CScript
deriving DecidableEq, Repr

/-- `CTxOut::IsNull`: the value `-1` marks a spent output. -/
def CTxOut.IsNull (out : CTxOut) : Bool :=
  out.nValue == -1

/-- `CTxOut::SetNull`. -/
def CTxOut.null : CTxOut := ⟨-1, []⟩

/-- `CTransaction`, with its cached hash. -/
structure CTransaction where
  vin : List CTxIn
  vout : List CTxOut
  nVersion : Int
  nLockTime : UInt32
  hash : uint256
deriving DecidableEq, Repr

/-- `CTransaction::KEVACOIN_VERSION`. -/
def KEVACOIN_VERSION : Int := 0x7100

namespace CTransaction

/-- `CTransaction::GetHash`. -/
def GetHash (tx : CTransaction) : uint256 :=
  tx.hash

/-- `CTransaction::IsCoinBase`: one input, spending the null outpoint. -/
def IsCoinBase (tx : CTransaction) : Bool :=
  match tx.vin with
  | [input] => input.prevout.IsNull
  | _ => false

/-- `CTransaction::IsKevacoin`: the transaction carries the keva version. -/
def IsKevacoin (tx : CTransaction) : Bool :=
  tx.nVersion == KEVACOIN_VERSION

end CTransaction

end Kevacoin
