import Kevacoin.Primitives.Serialize

/-!
# Blocks submitted by CryptoNote miners

`submitblock` in `rpc/mining.cpp`, and the parts of the vendored Monero code
it relies on: `cryptonote::block`, `get_tx_tree_hash` and
`get_block_hashing_blob` in `cryptonote_format_utils.cpp`.

A pool mines on `get_block_hashing_blob(b)`.  `submitblock` takes the mined
`cryptonote::block`, rebuilds the CryptoNote header of the Kevacoin block
carried in it, and the node then hashes that header's blob
(`CBlockHeader::GetHash`, `GetPoWHash`).  The transaction hash and Monero's
`tree_hash` are parameters, since both blobs use the same tree root.  The
model of `submitblock` starts from the two parsed blocks and stops after the
check of the rebuilt header's hash: the lookups of the hash in
`mapBlockIndex` that report a duplicate, and `UpdateUncommittedBlockStructures`,
which changes only the coinbase's witness, are left out.

The main result: the rebuilt header's blob is the hashing blob exactly when
the mined block lists no transaction besides its miner transaction
(`submitblock_blob_eq_hashing_blob_iff`), since `nTxes` is always set to one.
-/

namespace Kevacoin

open Bytes

/-- `crypto::hash`: 32 bytes. -/
structure CryptoHash where
  bytes : List UInt8
  length_bytes : bytes.length = 32
deriving DecidableEq

/-- `CryptoHashToUint256`: the `uint256` with the same 32 bytes in memory. -/
def CryptoHashToUint256 (hash : CryptoHash) : uint256 :=
  BitVec.ofNat 256 (leValue hash.bytes)

@[simp] theorem toByteVector_CryptoHashToUint256 (hash : CryptoHash) :
    (CryptoHashToUint256 hash).toByteVector = hash.bytes := by
  have fits := leValue_lt hash.bytes
  rw [hash.length_bytes] at fits
  rw [uint256.toByteVector_eq, CryptoHashToUint256, BitVec.toNat_ofNat,
    Nat.mod_eq_of_lt (by simpa using fits)]
  conv => lhs; rw [← hash.length_bytes]
  exact leBytes_leValue hash.bytes

namespace cryptonote

/-- `cryptonote::block`: the fields of `block_header`, the miner transaction and the hashes of the others. -/
structure block (Tx : Type) where
  major_version : UInt8
  minor_version : UInt8
  timestamp : UInt64
  prev_id : CryptoHash
  nonce : UInt32
  miner_tx : Tx
  tx_hashes : List CryptoHash

/-- The hashes Monero computes over transactions: `get_transaction_hash` and `tree_hash`. -/
structure TreeHashing (Tx : Type) where
  get_transaction_hash : Tx → CryptoHash
  tree_hash : List CryptoHash → CryptoHash

variable {Tx : Type}

/-- `block_header::do_serialize` on a store archive. -/
def block_header_blob (b : block Tx) : List UInt8 :=
  writeVarint b.major_version.toNat ++ writeVarint b.minor_version.toNat ++
    writeVarint b.timestamp.toNat ++ b.prev_id.bytes ++ writeLE32 b.nonce.toNat

/-- `get_tx_tree_hash(const block&)`: the tree hash of the miner transaction's hash and the others. -/
def get_tx_tree_hash (hashing : TreeHashing Tx) (b : block Tx) : CryptoHash :=
  hashing.tree_hash (hashing.get_transaction_hash b.miner_tx :: b.tx_hashes)

/-- `get_block_hashing_blob`: the header, the tree root and the number of transactions. -/
def get_block_hashing_blob (hashing : TreeHashing Tx) (b : block Tx) : List UInt8 :=
  block_header_blob b ++ (get_tx_tree_hash hashing b).bytes ++ writeVarint (b.tx_hashes.length + 1)

end cryptonote

open cryptonote

variable {Tx : Type}

/-- The CryptoNote header `submitblock` builds from the mined block. -/
def submitblockCnHeader (hashing : TreeHashing Tx) (cnblock : cryptonote.block Tx) :
    CryptoNoteHeader :=
  { major_version := cnblock.major_version
    minor_version := cnblock.minor_version
    timestamp := cnblock.timestamp
    prev_id := CryptoHashToUint256 cnblock.prev_id
    nonce := cnblock.nonce
    merkle_root := CryptoHashToUint256 (get_tx_tree_hash hashing cnblock)
    -- the Cryptonote coinbase transaction
    nTxes := 1 }

/--
`submitblock` from the parsed blocks to the check of the rebuilt header's
hash: `cnblock` is the block the pool mined and `block` the Kevacoin block
read from its miner transaction's extra field.  The result is the block with
the rebuilt header, or the message of the error thrown.
-/
def submitblock (hashes : HashPrimitives) (hashing : TreeHashing Tx) (cnblock : cryptonote.block Tx)
    (block : CBlock) : Except String CBlock :=
  match block.vtx with
  | [] => .error "Block does not start with a coinbase"
  | coinbase :: _ =>
    if !coinbase.IsCoinBase then .error "Block does not start with a coinbase"
    else
      let cnHeader := submitblockCnHeader hashing cnblock
      let block := { block with header := { block.header with cnHeader := cnHeader } }
      if block.header.GetOriginalBlockHash hashes != cnHeader.prev_id then
        .error "Kevacoin block hash does not match cryptnote hash"
      else .ok block

/-- A block `submitblock` hands on carries the rebuilt header, which commits to its 80 bytes. -/
theorem submitblock_eq_ok {hashes : HashPrimitives} {hashing : TreeHashing Tx}
    {cnblock : cryptonote.block Tx} {block submitted : CBlock}
    (submittedOk : submitblock hashes hashing cnblock block = .ok submitted) :
    submitted = { block with header := { block.header with
      cnHeader := submitblockCnHeader hashing cnblock } } ∧
    submitted.header.isCNConsistent hashes = true := by
  unfold submitblock at submittedOk
  split at submittedOk
  · cases submittedOk
  · dsimp only at submittedOk
    split_ifs at submittedOk with notCoinbase mismatch
    cases submittedOk
    refine ⟨rfl, ?_⟩
    simpa [CBlockHeader.isCNConsistent] using mismatch

/-- The rebuilt header writes the mined header, the tree root and a count of one. -/
theorem blob_submitblockCnHeader (hashing : TreeHashing Tx) (cnblock : cryptonote.block Tx) :
    (submitblockCnHeader hashing cnblock).blob =
      block_header_blob cnblock ++ (get_tx_tree_hash hashing cnblock).bytes ++ writeVarint 1 := by
  simp [CryptoNoteHeader.blob, submitblockCnHeader, block_header_blob]

/--
The blob of a handed-on block and the hashing blob agree up to the count of
transactions, which is one in the first and one more than the listed
hashes in the second.
-/
theorem submitblock_blob_eq_iff_count {hashes : HashPrimitives} {hashing : TreeHashing Tx}
    {cnblock : cryptonote.block Tx} {block submitted : CBlock}
    (submittedOk : submitblock hashes hashing cnblock block = .ok submitted) :
    submitted.header.cnHeader.blob = get_block_hashing_blob hashing cnblock ↔
      writeVarint 1 = writeVarint (cnblock.tx_hashes.length + 1) := by
  obtain ⟨rfl, -⟩ := submitblock_eq_ok submittedOk
  rw [blob_submitblockCnHeader, get_block_hashing_blob, List.append_cancel_left_eq]

/--
The header `submitblock` hands on writes the blob the pool mined on exactly
when the mined block lists no transaction besides its miner transaction.
-/
theorem submitblock_blob_eq_hashing_blob_iff {hashes : HashPrimitives} {hashing : TreeHashing Tx}
    {cnblock : cryptonote.block Tx} {block submitted : CBlock}
    (submittedOk : submitblock hashes hashing cnblock block = .ok submitted) :
    submitted.header.cnHeader.blob = get_block_hashing_blob hashing cnblock ↔
      cnblock.tx_hashes = [] := by
  rw [submitblock_blob_eq_iff_count submittedOk, show writeVarint 1 = [1] from rfl, eq_comm,
    writeVarint_eq_one_iff, Nat.add_eq_right, List.length_eq_zero_iff]

theorem submitblock_blob_differs_with_one_tx_hash :
    let hashes : HashPrimitives := ⟨fun _ => 0, fun _ => 0, fun _ _ _ _ => 0, fun _ _ _ => 0⟩
    let zero : CryptoHash := ⟨List.replicate 32 0, rfl⟩
    let hashing : TreeHashing Unit := ⟨fun _ => zero, fun _ => zero⟩
    let cnblock : cryptonote.block Unit := ⟨12, 12, 0, zero, 0, (), [zero]⟩
    let block : CBlock := ⟨⟨1, 0, 0, 0, 0, 0, ⟨0, 0, 0, 0, 0, 0, 0⟩⟩,
      [⟨[⟨COutPoint.null, [], 0, ⟨[]⟩⟩], [], 1, 0, 0⟩]⟩
    ∃ submitted, submitblock hashes hashing cnblock block = .ok submitted ∧
      submitted.header.cnHeader.blob ≠ get_block_hashing_blob hashing cnblock := by
  intro hashes zero hashing cnblock block
  refine ⟨_, rfl, fun same => ?_⟩
  rw [@submitblock_blob_eq_iff_count Unit hashes hashing cnblock block _ rfl] at same
  exact absurd same (by decide)

theorem submitblock_blob_eq_hashing_blob_coinbaseOnly :
    let hashes : HashPrimitives := ⟨fun _ => 0, fun _ => 0, fun _ _ _ _ => 0, fun _ _ _ => 0⟩
    let zero : CryptoHash := ⟨List.replicate 32 0, rfl⟩
    let hashing : TreeHashing Unit := ⟨fun _ => zero, fun _ => zero⟩
    let cnblock : cryptonote.block Unit := ⟨12, 12, 0, zero, 0, (), []⟩
    let block : CBlock := ⟨⟨1, 0, 0, 0, 0, 0, ⟨0, 0, 0, 0, 0, 0, 0⟩⟩,
      [⟨[⟨COutPoint.null, [], 0, ⟨[]⟩⟩], [], 1, 0, 0⟩]⟩
    ∃ submitted, submitblock hashes hashing cnblock block = .ok submitted ∧
      (submitted.header.cnHeader.blob = get_block_hashing_blob hashing cnblock ↔
        cnblock.tx_hashes = []) := by
  intro hashes zero hashing cnblock block
  exact ⟨_, rfl, @submitblock_blob_eq_hashing_blob_iff Unit hashes hashing cnblock block _ rfl⟩

end Kevacoin
