import Kevacoin.Coins.Compressor

/-!
# Serialized transactions and blocks

The bytes a transaction and a block are written to on the network, and the
readers that take them back: the vectors of `serialize.h`, the
`SerializationOp`s of `COutPoint`, `CTxIn` and `CTxOut`,
`SerializeTransaction` and `UnserializeTransaction` of
`primitives/transaction.h`, and `CBlock::SerializationOp` of
`primitives/block.h`.

A transaction with a witness is written in the extended format: an empty
`vin` and the flags byte `1` stand before the real inputs, and the witness
stacks follow the outputs.  The reader takes an empty `vin` for that dummy,
so a transaction without inputs is not read back as it was written; every
transaction a block holds has inputs.  Reading builds a new `CTransaction`,
which computes its hash over the serialization without witnesses.

The main result: a block whose transactions have inputs, whose fields lie in
their C++ types and whose cached hashes are the ones their constructor
computes reads back as itself (`CBlock.readsBack_serialize`).
-/

namespace Kevacoin

open Bytes

/-! ## Vectors and signed integers -/

section Vectors

variable {α β : Type}

/-- `Serialize` of a `std::vector`: its compact size, then its elements. -/
def writeVector (write : α → List UInt8) (v : List α) : List UInt8 :=
  writeCompactSize v.length ++ v.flatMap write

/-- `Unserialize` of a `std::vector`: a compact size, then as many elements. -/
def readVector (read : Reader α) : Reader (List α) := do
  let nSize ← ReadCompactSize
  readList read nSize

theorem readsBack_vector {read : Reader β} {write : α → List UInt8} {f : α → β} {v : List α}
    (small : v.length ≤ MAX_SIZE) (each : ∀ value ∈ v, ReadsBack read (write value) (f value)) :
    ReadsBack (readVector read) (writeVector write v) (v.map f) :=
  (readsBack_compactSize small).bind (readsBack_readList each)

/-- A vector whose elements each read back as themselves. -/
theorem readsBack_vector_self {read : Reader α} {write : α → List UInt8} {v : List α}
    (small : v.length ≤ MAX_SIZE) (each : ∀ value ∈ v, ReadsBack read (write value) value) :
    ReadsBack (readVector read) (writeVector write v) v := by
  simpa using readsBack_vector (f := fun value => value) small each

end Vectors

/-- `ser_writedata64` of an `int64_t`: its two's complement bits, little-endian. -/
def writeInt64 (value : Int) : List UInt8 :=
  leBytes 8 (value % 2 ^ 64).toNat

/-- `ser_readdata64` of a field of type `int64_t`. -/
def readInt64 : Reader Int :=
  CTxOutCompressor.ofInt64Bits <$> readLE 8

theorem ofInt64Bits_bits {value : Int} (low : -2 ^ 63 ≤ value) (high : value < 2 ^ 63) :
    CTxOutCompressor.ofInt64Bits (value % 2 ^ 64).toNat = value := by
  unfold CTxOutCompressor.ofInt64Bits
  split
  · show ((value % 2 ^ 64).toNat : Int) = value
    omega
  · show ((value % 2 ^ 64).toNat : Int) - 2 ^ 64 = value
    omega

theorem readsBack_int64 {value : Int} (low : -2 ^ 63 ≤ value) (high : value < 2 ^ 63) :
    ReadsBack readInt64 (writeInt64 value) value := by
  have reads := (@readsBack_leBytes 8 (value % 2 ^ 64).toNat (by omega)).map
    CTxOutCompressor.ofInt64Bits
  rwa [ofInt64Bits_bits low high] at reads

/-! ## Inputs and outputs -/

namespace COutPoint

/-- `COutPoint::SerializationOp` writing: the hash, then the index. -/
def serialize (outpoint : COutPoint) : List UInt8 :=
  outpoint.hash.toByteVector ++ writeLE32 outpoint.n.toNat

/-- `COutPoint::SerializationOp` reading. -/
def unserialize : Reader COutPoint := do
  let hash ← readUint256
  let n ← readUInt32
  Pure.pure ⟨hash, n⟩

theorem readsBack_serialize (outpoint : COutPoint) :
    ReadsBack unserialize outpoint.serialize outpoint := by
  have reads : ReadsBack unserialize
      (outpoint.hash.toByteVector ++ (writeLE32 outpoint.n.toNat ++ [])) ⟨outpoint.hash, outpoint.n⟩ :=
    (readsBack_uint256 outpoint.hash).bind <| (readsBack_uint32 outpoint.n).bind (ReadsBack.pure _)
  simpa [serialize] using reads

end COutPoint

namespace CTxIn

/-- `CTxIn::SerializationOp` writing: the witness is written by the transaction only. -/
def serialize (txin : CTxIn) : List UInt8 :=
  txin.prevout.serialize ++ writeString txin.scriptSig ++ writeLE32 txin.nSequence.toNat

/-- `CTxIn::SerializationOp` reading into a new `CTxIn`, whose witness stays empty. -/
def unserialize : Reader CTxIn := do
  let prevout ← COutPoint.unserialize
  let scriptSig ← readString
  let nSequence ← readUInt32
  Pure.pure ⟨prevout, scriptSig, nSequence, ⟨[]⟩⟩

/-- The witness stack of an input as `SerializeTransaction` writes it: a vector of byte vectors. -/
def serializeWitness (txin : CTxIn) : List UInt8 :=
  writeVector writeString txin.scriptWitness.stack

/-- `s >> tx.vin[i].scriptWitness.stack`. -/
def unserializeWitness (txin : CTxIn) : Reader CTxIn := do
  let stack ← readVector readString
  Pure.pure { txin with scriptWitness := ⟨stack⟩ }

/-- The input as read without its witness. -/
def withoutWitness (txin : CTxIn) : CTxIn :=
  { txin with scriptWitness := ⟨[]⟩ }

/-- An input whose script and witness fit the compact sizes that read them back. -/
structure Fits (txin : CTxIn) : Prop where
  scriptSig_small : txin.scriptSig.length ≤ MAX_SIZE
  stack_small : txin.scriptWitness.stack.length ≤ MAX_SIZE
  items_small : ∀ item ∈ txin.scriptWitness.stack, item.length ≤ MAX_SIZE

theorem readsBack_serialize {txin : CTxIn} (fits : txin.Fits) :
    ReadsBack unserialize txin.serialize txin.withoutWitness := by
  have reads : ReadsBack unserialize
      (txin.prevout.serialize ++ (writeString txin.scriptSig ++ (writeLE32 txin.nSequence.toNat ++ [])))
      ⟨txin.prevout, txin.scriptSig, txin.nSequence, ⟨[]⟩⟩ :=
    (COutPoint.readsBack_serialize txin.prevout).bind <|
    (readsBack_string fits.scriptSig_small).bind <|
    (readsBack_uint32 txin.nSequence).bind (ReadsBack.pure _)
  simpa [serialize, withoutWitness] using reads

/-- The witness read into an input read without it gives the input back. -/
theorem readsBack_serializeWitness {txin : CTxIn} (fits : txin.Fits) :
    ReadsBack txin.withoutWitness.unserializeWitness txin.serializeWitness txin := by
  have reads : ReadsBack txin.withoutWitness.unserializeWitness (txin.serializeWitness ++ [])
      { txin.withoutWitness with scriptWitness := ⟨txin.scriptWitness.stack⟩ } :=
    (readsBack_vector_self fits.stack_small fun item member =>
      readsBack_string (fits.items_small item member)).bind (ReadsBack.pure _)
  simpa [withoutWitness] using reads

/-- The witnesses of a run of inputs, read one per input into the inputs read without them. -/
theorem readsBack_witnesses : ∀ {vin : List CTxIn}, (∀ txin ∈ vin, txin.Fits) →
    ReadsBack ((vin.map withoutWitness).mapM unserializeWitness) (vin.flatMap serializeWitness) vin
  | [], _ => ReadsBack.pure []
  | txin :: vin, fits => by
    rw [List.map_cons, List.mapM_cons, List.flatMap_cons,
      ← List.append_nil (vin.flatMap serializeWitness)]
    exact (readsBack_serializeWitness (fits txin List.mem_cons_self)).bind <|
      (readsBack_witnesses fun other member => fits other (List.mem_cons_of_mem _ member)).bind
        (ReadsBack.pure _)

end CTxIn

namespace CTxOut

/-- `CTxOut::SerializationOp` writing: the amount, then the script. -/
def serialize (txout : CTxOut) : List UInt8 :=
  writeInt64 txout.nValue ++ writeString txout.scriptPubKey

/-- `CTxOut::SerializationOp` reading. -/
def unserialize : Reader CTxOut := do
  let nValue ← readInt64
  let scriptPubKey ← readString
  Pure.pure ⟨nValue, scriptPubKey⟩

/-- An output whose amount is an `int64_t` and whose script fits its compact size. -/
structure Fits (txout : CTxOut) : Prop where
  nValue_low : -2 ^ 63 ≤ txout.nValue
  nValue_high : txout.nValue < 2 ^ 63
  scriptPubKey_small : txout.scriptPubKey.length ≤ MAX_SIZE

theorem readsBack_serialize {txout : CTxOut} (fits : txout.Fits) :
    ReadsBack unserialize txout.serialize txout := by
  have reads : ReadsBack unserialize
      (writeInt64 txout.nValue ++ (writeString txout.scriptPubKey ++ [])) ⟨txout.nValue, txout.scriptPubKey⟩ :=
    (readsBack_int64 fits.nValue_low fits.nValue_high).bind <|
    (readsBack_string fits.scriptPubKey_small).bind (ReadsBack.pure _)
  simpa [serialize] using reads

end CTxOut

/-! ## Transactions -/

/-- `CTransaction::HasWitness`: some input has a witness. -/
def CTransaction.HasWitness (tx : CTransaction) : Bool :=
  tx.vin.any fun txin => !txin.scriptWitness.stack.isEmpty

/--
`SerializeTransaction`; `fAllowWitness` is false on a stream with
`SERIALIZE_TRANSACTION_NO_WITNESS`.
-/
def SerializeTransaction (fAllowWitness : Bool) (tx : CTransaction) : List UInt8 :=
  let flags : UInt8 := if fAllowWitness && tx.HasWitness then 1 else 0
  writeLE32 (tx.nVersion % 2 ^ 32).toNat ++
    -- the extended format: a dummy empty `vin`, then the flags
    (if flags != 0 then writeVector CTxIn.serialize [] ++ [flags] else []) ++
    writeVector CTxIn.serialize tx.vin ++ writeVector CTxOut.serialize tx.vout ++
    (if flags &&& 1 != 0 then tx.vin.flatMap CTxIn.serializeWitness else []) ++
    writeLE32 tx.nLockTime.toNat

/--
The flags, inputs and outputs `UnserializeTransaction` reads after the
version: where witnesses are allowed, an empty `vin` is taken for the dummy
of the extended format and the flags follow it, then, unless they are zero,
the real `vin` and `vout`.
-/
def readInputsOutputs (fAllowWitness : Bool) : Reader (UInt8 × List CTxIn × List CTxOut) := do
  let vin ← readVector CTxIn.unserialize
  if vin.isEmpty && fAllowWitness then
    let flags ← readByte
    if flags != 0 then
      let vin ← readVector CTxIn.unserialize
      let vout ← readVector CTxOut.unserialize
      Pure.pure (flags, vin, vout)
    else Pure.pure (flags, vin, [])
  else
    let vout ← readVector CTxOut.unserialize
    Pure.pure (0, vin, vout)

/-- The witness stacks, one per input, when the flags ask for them; that flag is then cleared. -/
def readWitnesses (fAllowWitness : Bool) (flags : UInt8) (vin : List CTxIn) :
    Reader (UInt8 × List CTxIn) :=
  if flags &&& 1 != 0 && fAllowWitness then
    (fun vin => (flags ^^^ 1, vin)) <$> vin.mapM CTxIn.unserializeWitness
  else Pure.pure (flags, vin)

/--
The end of `UnserializeTransaction`: a flag left over throws (`Unknown
transaction optional data`), then the lock time is read, and the
`CTransaction` built from the fields computes its hash over the
serialization without witnesses.
-/
def finishTransaction (hashes : HashPrimitives) (nVersion : Int) (flags : UInt8) (vin : List CTxIn)
    (vout : List CTxOut) : Reader CTransaction := do
  if flags != 0 then failure
  let nLockTime ← readUInt32
  let tx : CTransaction := ⟨vin, vout, nVersion, nLockTime, 0⟩
  Pure.pure { tx with hash := hashes.Hash (SerializeTransaction false tx) }

/-- `UnserializeTransaction` into a new `CMutableTransaction`, and the `CTransaction` built from it. -/
def UnserializeTransaction (hashes : HashPrimitives) (fAllowWitness : Bool) :
    Reader CTransaction := do
  let nVersion ← readInt32
  let (flags, vin, vout) ← readInputsOutputs fAllowWitness
  let (flags, vin) ← readWitnesses fAllowWitness flags vin
  finishTransaction hashes nVersion flags vin vout

namespace CTransaction

/--
What a transaction needs to read back as it was written: inputs (an empty
`vin` reads as the dummy of the extended format), a version in `int32_t`,
sizes the compact sizes accept, amounts in `int64_t`, no witness where the
stream leaves witnesses out, and the hash its constructor computes.
-/
structure Serializable (hashes : HashPrimitives) (fAllowWitness : Bool) (tx : CTransaction) : Prop where
  vin_ne_nil : tx.vin ≠ []
  nVersion_low : -2 ^ 31 ≤ tx.nVersion
  nVersion_high : tx.nVersion < 2 ^ 31
  vin_small : tx.vin.length ≤ MAX_SIZE
  vout_small : tx.vout.length ≤ MAX_SIZE
  inputs_fit : ∀ txin ∈ tx.vin, txin.Fits
  outputs_fit : ∀ txout ∈ tx.vout, txout.Fits
  witness_written : fAllowWitness = true ∨ tx.HasWitness = false
  hash_eq : tx.hash = hashes.Hash (SerializeTransaction false tx)

/-- Inputs without witnesses are read as they are. -/
theorem map_withoutWitness {tx : CTransaction} (noWitness : tx.HasWitness = false) :
    tx.vin.map CTxIn.withoutWitness = tx.vin := by
  rw [HasWitness, List.any_eq_false] at noWitness
  have unchanged : ∀ txin ∈ tx.vin, txin.withoutWitness = id txin := by
    intro txin member
    have empty : txin.scriptWitness.stack = [] := by
      simpa using noWitness txin member
    obtain ⟨prevout, scriptSig, nSequence, ⟨stack⟩⟩ := txin
    simp only at empty
    rw [CTxIn.withoutWitness, empty, id]
  calc tx.vin.map CTxIn.withoutWitness = tx.vin.map id := List.map_congr_left unchanged
    _ = tx.vin := List.map_id _

end CTransaction

/-! ## Reading transactions back -/

section Transactions

variable {hashes : HashPrimitives} {fAllowWitness : Bool}

/-- A `vin` that is not empty is read as the inputs, with no flags. -/
theorem readsBack_inputsOutputs (fAllowWitness : Bool) {vin : List CTxIn} {vout : List CTxOut}
    (nonempty : vin ≠ []) (vinSmall : vin.length ≤ MAX_SIZE) (voutSmall : vout.length ≤ MAX_SIZE)
    (inputsFit : ∀ txin ∈ vin, txin.Fits) (outputsFit : ∀ txout ∈ vout, txout.Fits) :
    ReadsBack (readInputsOutputs fAllowWitness)
      (writeVector CTxIn.serialize vin ++ writeVector CTxOut.serialize vout)
      (0, vin.map CTxIn.withoutWitness, vout) := by
  have inputs := readsBack_vector vinSmall fun txin member =>
    CTxIn.readsBack_serialize (inputsFit txin member)
  have outputs := readsBack_vector_self voutSmall fun txout member =>
    CTxOut.readsBack_serialize (outputsFit txout member)
  have notDummy : (vin.map CTxIn.withoutWitness).isEmpty = false := by simpa using nonempty
  rw [← List.append_nil (writeVector CTxOut.serialize vout)]
  refine inputs.bind ?_
  rw [notDummy, Bool.false_and, if_neg Bool.false_ne_true]
  exact outputs.bind (ReadsBack.pure _)

/-- The dummy `vin` and the flags `1` are followed by the inputs and the outputs. -/
theorem readsBack_inputsOutputs_extended {vin : List CTxIn} {vout : List CTxOut}
    (vinSmall : vin.length ≤ MAX_SIZE) (voutSmall : vout.length ≤ MAX_SIZE)
    (inputsFit : ∀ txin ∈ vin, txin.Fits) (outputsFit : ∀ txout ∈ vout, txout.Fits) :
    ReadsBack (readInputsOutputs true)
      (writeVector CTxIn.serialize [] ++ ([1] ++
        (writeVector CTxIn.serialize vin ++ writeVector CTxOut.serialize vout)))
      (1, vin.map CTxIn.withoutWitness, vout) := by
  have dummy : ReadsBack (readVector CTxIn.unserialize) (writeVector CTxIn.serialize []) [] :=
    readsBack_vector_self (Nat.zero_le _) fun _ member => nomatch member
  have inputs := readsBack_vector vinSmall fun txin member =>
    CTxIn.readsBack_serialize (inputsFit txin member)
  have outputs := readsBack_vector_self voutSmall fun txout member =>
    CTxOut.readsBack_serialize (outputsFit txout member)
  refine dummy.bind ?_
  rw [if_pos (by decide)]
  refine (readsBack_readByte 1).bind ?_
  rw [if_pos (by decide), ← List.append_nil (writeVector CTxOut.serialize vout)]
  exact inputs.bind (outputs.bind (ReadsBack.pure _))

theorem readWitnesses_zero (fAllowWitness : Bool) (vin : List CTxIn) :
    readWitnesses fAllowWitness 0 vin = Pure.pure (0, vin) := by
  have noFlag : ((0 : UInt8) &&& 1 != 0) = false := by decide
  rw [readWitnesses, noFlag, Bool.false_and, if_neg Bool.false_ne_true]

/-- Under the flag `1` the witnesses are read into the inputs, and no flag is left. -/
theorem readsBack_readWitnesses {vin : List CTxIn} (inputsFit : ∀ txin ∈ vin, txin.Fits) :
    ReadsBack (readWitnesses true 1 (vin.map CTxIn.withoutWitness)) (vin.flatMap CTxIn.serializeWitness)
      (0, vin) := by
  rw [readWitnesses, if_pos (by decide)]
  exact (CTxIn.readsBack_witnesses inputsFit).map _

/-- The end of a transaction: no flag is left, the lock time follows, and the hash is recomputed. -/
theorem readsBack_finishTransaction {tx : CTransaction}
    (hashEq : tx.hash = hashes.Hash (SerializeTransaction false tx)) :
    ReadsBack (finishTransaction hashes tx.nVersion 0 tx.vin tx.vout) (writeLE32 tx.nLockTime.toNat)
      tx := by
  have built : (⟨tx.vin, tx.vout, tx.nVersion, tx.nLockTime,
      hashes.Hash (SerializeTransaction false ⟨tx.vin, tx.vout, tx.nVersion, tx.nLockTime, 0⟩)⟩ :
        CTransaction) = tx := by
    rw [show SerializeTransaction false ⟨tx.vin, tx.vout, tx.nVersion, tx.nLockTime, 0⟩ =
      SerializeTransaction false tx from rfl, ← hashEq]
  have reads : ReadsBack (finishTransaction hashes tx.nVersion 0 tx.vin tx.vout)
      (writeLE32 tx.nLockTime.toNat ++ []) ⟨tx.vin, tx.vout, tx.nVersion, tx.nLockTime,
        hashes.Hash (SerializeTransaction false ⟨tx.vin, tx.vout, tx.nVersion, tx.nLockTime, 0⟩)⟩ := by
    rw [finishTransaction, if_neg (by decide)]
    exact (readsBack_uint32 tx.nLockTime).bind (ReadsBack.pure _)
  rwa [List.append_nil, built] at reads

/-- A transaction that `Serializable` describes reads back as itself. -/
theorem readsBack_SerializeTransaction {tx : CTransaction}
    (serializable : tx.Serializable hashes fAllowWitness) :
    ReadsBack (UnserializeTransaction hashes fAllowWitness) (SerializeTransaction fAllowWitness tx) tx := by
  have version := readsBack_int32 serializable.nVersion_low serializable.nVersion_high
  have finish := readsBack_finishTransaction serializable.hash_eq
  by_cases extended : (fAllowWitness && tx.HasWitness) = true
  · obtain ⟨allowed, hasWitness⟩ := Bool.and_eq_true_iff.mp extended
    subst allowed
    have reads : ReadsBack (UnserializeTransaction hashes true)
        (writeLE32 (tx.nVersion % 2 ^ 32).toNat ++
          ((writeVector CTxIn.serialize [] ++ ([1] ++
            (writeVector CTxIn.serialize tx.vin ++ writeVector CTxOut.serialize tx.vout))) ++
          (tx.vin.flatMap CTxIn.serializeWitness ++ writeLE32 tx.nLockTime.toNat))) tx :=
      version.bind <|
      (readsBack_inputsOutputs_extended serializable.vin_small serializable.vout_small
        serializable.inputs_fit serializable.outputs_fit).bind <|
      (readsBack_readWitnesses serializable.inputs_fit).bind finish
    simpa [SerializeTransaction, hasWitness] using reads
  · have noWitness : tx.HasWitness = false := by
      rcases serializable.witness_written with allowed | noWitness
      · simpa [allowed] using extended
      · exact noWitness
    have inputsOutputs := readsBack_inputsOutputs fAllowWitness serializable.vin_ne_nil
      serializable.vin_small serializable.vout_small serializable.inputs_fit serializable.outputs_fit
    rw [CTransaction.map_withoutWitness noWitness] at inputsOutputs
    have reads : ReadsBack (UnserializeTransaction hashes fAllowWitness)
        (writeLE32 (tx.nVersion % 2 ^ 32).toNat ++
          ((writeVector CTxIn.serialize tx.vin ++ writeVector CTxOut.serialize tx.vout) ++
          ([] ++ writeLE32 tx.nLockTime.toNat))) tx :=
      version.bind <| inputsOutputs.bind <| by
        dsimp only
        rw [readWitnesses_zero]
        exact (ReadsBack.pure _).bind finish
    simpa [SerializeTransaction, Bool.eq_false_iff.mpr extended] using reads

end Transactions

/-! ## Blocks -/

/-- `CryptoNoteHeader::SetNull`. -/
def CryptoNoteHeader.null : CryptoNoteHeader :=
  ⟨0, 0, 0, 0, 0, 0, 0⟩

/-- `CBlockHeader::SetNull`, in a new header, whose CryptoNote header is null too. -/
def CBlockHeader.null : CBlockHeader :=
  ⟨0, 0, 0, 0, 0, 0, CryptoNoteHeader.null⟩

namespace CBlock

/-- `CBlock::SerializationOp` writing: the header, then `vtx` as a vector. -/
def serialize (legacyMode fAllowWitness : Bool) (block : CBlock) : List UInt8 :=
  block.header.serialize legacyMode ++ writeVector (SerializeTransaction fAllowWitness) block.vtx

/-- `CBlock::SerializationOp` reading into a block whose header is `into`. -/
def unserialize (hashes : HashPrimitives) (legacyMode fAllowWitness : Bool) (into : CBlockHeader) :
    Reader CBlock := do
  let header ← CBlockHeader.unserialize legacyMode into
  let vtx ← readVector (UnserializeTransaction hashes fAllowWitness)
  Pure.pure ⟨header, vtx⟩

/-- A block whose header fields lie in their C++ types and whose transactions read back. -/
structure Serializable (hashes : HashPrimitives) (fAllowWitness : Bool) (block : CBlock) : Prop where
  nVersion_low : -2 ^ 31 ≤ block.header.nVersion
  nVersion_high : block.header.nVersion < 2 ^ 31
  nTxes_fits : block.header.cnHeader.nTxes < 2 ^ 64
  vtx_small : block.vtx.length ≤ MAX_SIZE
  transactions : ∀ tx ∈ block.vtx, tx.Serializable hashes fAllowWitness

/-- A block reads back as itself, with the CryptoNote header it is read into where `legacyMode` leaves it out. -/
theorem readsBack_serialize {hashes : HashPrimitives} {legacyMode fAllowWitness : Bool}
    (into : CBlockHeader) {block : CBlock} (serializable : block.Serializable hashes fAllowWitness) :
    ReadsBack (unserialize hashes legacyMode fAllowWitness into) (block.serialize legacyMode fAllowWitness)
      { block with header := { block.header with
        cnHeader := if legacyMode then into.cnHeader else block.header.cnHeader } } := by
  have reads : ReadsBack (unserialize hashes legacyMode fAllowWitness into)
      (block.header.serialize legacyMode ++
        (writeVector (SerializeTransaction fAllowWitness) block.vtx ++ []))
      ⟨{ block.header with cnHeader := if legacyMode then into.cnHeader else block.header.cnHeader },
        block.vtx⟩ :=
    (CBlockHeader.readsBack_serialize legacyMode into block.header serializable.nVersion_low serializable.nVersion_high serializable.nTxes_fits).bind <|
    (readsBack_vector_self serializable.vtx_small fun tx member =>
      readsBack_SerializeTransaction (serializable.transactions tx member)).bind (ReadsBack.pure _)
  simpa [serialize] using reads

end CBlock

end Kevacoin
