import Kevacoin.Cryptonote.TxExtra
import Kevacoin.Primitives.TxSerialize

/-!
# Block templates for CryptoNote pools

The CryptoNote forms of `getblocktemplate` and `submitblock` in
`rpc/mining.cpp`.  A template is the blob of a Monero block whose miner
transaction carries the Kevacoin block in its `extra`, with the offset of the
bytes reserved for the pool in its extra nonce.  A pool writes the header
nonce and the reserved bytes and submits the blob; `submitblock` parses it,
takes the Kevacoin block out of the extra, rebuilds the block's CryptoNote
header from the pool's, and checks that this header commits to the Kevacoin
block.

The binary archive of a Monero transaction is taken as given (`TxArchive`):
its `extra` is a vector of bytes between the bytes before it and the bytes
after it.  The archive of a block, `slow_memmem` and both RPCs are modelled.
The RPCs exchange hexadecimal text; the model starts and ends at the bytes.

The main result: every blob a pool derives from a template by writing the
header nonce and the reserved bytes is accepted by `submitblock`, which
hands on the template's Kevacoin block under the pool's header, where the
transaction key occurs once in the template (`submitblock_accepts_template`).
The proof meets at the blob of a block whose miner transaction carries the
Kevacoin block: `getblocktemplate` writes one, the pool's edits give another
(`overwrite_nonce`, `overwrite_extra`), and `submitblock` accepts every one
(`submitblockBlob_block_to_blob`).
-/

namespace Kevacoin

namespace cryptonote

open Bytes

/-! ## The archive of a block -/

/--
The binary archive of `cryptonote::transaction`, taken as given: a
transaction is written as the bytes before its `extra`, then `extra` as a
vector of bytes, then the bytes after it.  `withExtra` is the transaction
with another `extra`, and `load` reads a transaction.
-/
structure TxArchive (Tx : Type) where
  extra : Tx → List UInt8
  withExtra : Tx → List UInt8 → Tx
  beforeExtra : Tx → List UInt8
  afterExtra : Tx → List UInt8
  load : Reader Tx

variable {Tx : Type}

namespace TxArchive

/-- The bytes the archive writes a transaction to. -/
def store (archive : TxArchive Tx) (tx : Tx) : List UInt8 :=
  archive.beforeExtra tx ++ storeString (archive.extra tx) ++ archive.afterExtra tx

/-- What the model assumes of the vendored archive: `extra` is a field of its own, and a write reads back. -/
structure Lawful (archive : TxArchive Tx) : Prop where
  extra_withExtra : ∀ tx extra, archive.extra (archive.withExtra tx extra) = extra
  beforeExtra_withExtra : ∀ tx extra,
    archive.beforeExtra (archive.withExtra tx extra) = archive.beforeExtra tx
  afterExtra_withExtra : ∀ tx extra,
    archive.afterExtra (archive.withExtra tx extra) = archive.afterExtra tx
  readsBack_store : ∀ tx, (archive.extra tx).length < 2 ^ 64 →
    ReadsBack archive.load (archive.store tx) tx

end TxArchive

/-- The bytes of `block_header::do_serialize` before the nonce. -/
def headerPrefix (b : block Tx) : List UInt8 :=
  writeVarint b.major_version.toNat ++ writeVarint b.minor_version.toNat ++
    writeVarint b.timestamp.toNat ++ b.prev_id.bytes

/-- `block_to_blob`: `block::do_serialize` on a store archive. -/
def block_to_blob (archive : TxArchive Tx) (b : block Tx) : List UInt8 :=
  block_header_blob b ++ archive.store b.miner_tx ++ storeContainer CryptoHash.bytes b.tx_hashes

/-- The fields of `block_header::do_serialize` before the nonce, on a load archive. -/
def loadHeaderPrefix : Reader (UInt8 × UInt8 × UInt64 × CryptoHash) := do
  let major_version ← readLEB128 8
  let minor_version ← readLEB128 8
  let timestamp ← readLEB128 64
  let prev_id ← loadHash
  Pure.pure (UInt8.ofNat major_version, UInt8.ofNat minor_version, UInt64.ofNat timestamp, prev_id)

/-- `block::do_serialize` on a load archive: the header, the miner transaction, the hashes of the others. -/
def loadBlock (archive : TxArchive Tx) : Reader (block Tx) := do
  let (major_version, minor_version, timestamp, prev_id) ← loadHeaderPrefix
  let nonce ← readLE 4
  let miner_tx ← archive.load
  let tx_hashes ← loadContainer loadHash
  Pure.pure ⟨major_version, minor_version, timestamp, prev_id, UInt32.ofNat nonce, miner_tx, tx_hashes⟩

/--
`parse_and_validate_block_from_blob`: the block the archive reads, where
`serialization::serialize` finds the whole blob read.
-/
def parse_and_validate_block_from_blob (archive : TxArchive Tx) (b_blob : List UInt8) :
    Option (block Tx) :=
  match (loadBlock archive).run b_blob with
  | some (b, []) => some b
  | _ => none

/-- Where a block blob holds the header's nonce: after what `loadHeaderPrefix` reads. -/
def nonceOffset (blob : List UInt8) : Option Nat :=
  (loadHeaderPrefix.run blob).map fun (_, rest) => blob.length - rest.length

/-! ## Finding the transaction key -/

/-- The search of `slow_memmem` from `offset`: the first place at which `pat` starts. -/
def memmemFrom (pat : List UInt8) : List UInt8 → Nat → Option Nat
  | [], _ => none
  | buf@(_ :: rest), offset => if pat.isPrefixOf buf then some offset else memmemFrom pat rest (offset + 1)

/-- `slow_memmem`: the offset of the first occurrence of `pat` in `buf`, and `0` where there is none. -/
def slow_memmem (buf pat : List UInt8) : Nat :=
  if pat.length > buf.length || pat.length = 0 then 0 else (memmemFrom pat buf 0).getD 0

/-! ## The two RPCs -/

/-- `MAX_RESERVE_SIZE`. -/
def MAX_RESERVE_SIZE : Int := 16

/-- The `crypto::hash` with the bytes of a `uint256`: the `memcpy` into `prev_id`. -/
def uint256ToCryptoHash (hash : uint256) : CryptoHash :=
  ⟨hash.toByteVector, by simp [uint256.toByteVector]⟩

/-- The `cryptonote::block` that `getblocktemplate` builds around `pblock`, with `miner_tx`. -/
def templateBlock (consensusParams : ConsensusParams) (hashes : HashPrimitives) (pblock : CBlock)
    (miner_tx : Tx) : block Tx :=
  { major_version := consensusParams.GetCryptonoteMajorVersion pblock.header.nNonce
    minor_version := 0
    timestamp := pblock.header.nTime.toUInt64
    -- the Kevacoin block hash, as a proof of work
    prev_id := uint256ToCryptoHash (pblock.header.GetOriginalBlockHash hashes)
    nonce := 0
    miner_tx := miner_tx
    tx_hashes := [] }

@[simp]
theorem templateBlock_miner_tx (consensusParams : ConsensusParams) (hashes : HashPrimitives)
    (pblock : CBlock) (miner_tx : Tx) :
    (templateBlock consensusParams hashes pblock miner_tx).miner_tx = miner_tx := rfl

@[simp]
theorem templateBlock_with_miner_tx (consensusParams : ConsensusParams) (hashes : HashPrimitives)
    (pblock : CBlock) (miner_tx other : Tx) :
    { templateBlock consensusParams hashes pblock miner_tx with miner_tx := other } =
      templateBlock consensusParams hashes pblock other := rfl

/--
The CryptoNote part of `getblocktemplate`, from the block `CreateNewBlock`
made, with its Merkle root set: the template blob and `reserved_offset`.
`miner_tx` is the transaction `construct_miner_tx` builds but for its
`extra`, and `txkey_pub` the public key of the key pair it generates.
-/
def getblocktemplate (archive : TxArchive Tx) (hashes : HashPrimitives)
    (consensusParams : ConsensusParams) (miner_tx : Tx) (txkey_pub : public_key)
    (reserve_size : Int) (pblock : CBlock) : Except String (List UInt8 × UInt32) :=
  if reserve_size ≤ 0 ∨ reserve_size > MAX_RESERVE_SIZE then .error "Invalid reserve_size"
  else
    -- the reserve_offset is the offset for extra_nonce
    let extra_nonce := List.replicate reserve_size.toNat 0
    match construct_miner_tx_extra txkey_pub extra_nonce with
    | none => .error "Internal error: failed to construct miner tx"
    | some extra =>
      let cn_block := templateBlock consensusParams hashes pblock (archive.withExtra miner_tx extra)
      -- the Kevacoin block goes to the extra, for submitblock
      let kevaBlockData := pblock.serialize false true
      let tx_extra := append_keva_block_to_extra (archive.extra cn_block.miner_tx) kevaBlockData
      let cn_block := { cn_block with miner_tx := archive.withExtra cn_block.miner_tx tx_extra }
      let block_blob := block_to_blob archive cn_block
      let tx_pub_key := get_tx_pub_key_from_extra (archive.extra cn_block.miner_tx)
      if tx_pub_key = null_pkey then .error "Internal error: failed to tx pub key in coinbase extra"
      else
        let reserved_offset : UInt32 := UInt32.ofNat (slow_memmem block_blob tx_pub_key.bytes)
        if reserved_offset = 0 then .error "Internal error: Failed to find tx pub key in blockblob"
        else
          -- the tag and the size of the extra nonce
          let reserved_offset := reserved_offset + 32 + 2
          if (reserved_offset + UInt32.ofNat reserve_size.toNat).toNat > block_blob.length then
            .error "Internal error: Failed to calculate offset"
          else .ok (block_blob, reserved_offset)

/--
`submitblock` from the blob a pool sends: the block is parsed, the Kevacoin
block taken out of its miner transaction's extra and read into a new
`CBlock`, and `submitblock` goes on from the two blocks.
-/
def submitblockBlob (archive : TxArchive Tx) (hashes : HashPrimitives) (hashing : TreeHashing Tx)
    (blockblob : List UInt8) : Except String CBlock :=
  match parse_and_validate_block_from_blob archive blockblob with
  | none => .error "Wrong block blob"
  | some cnblock =>
    match get_keva_block_from_extra (archive.extra cnblock.miner_tx) with
    | none => .error "Could not get Kevacoin block"
    | some keva_block =>
      match (CBlock.unserialize hashes false true CBlockHeader.null).run keva_block with
      | none => .error "Failed to deserialize keva block"
      | some (block, _) => submitblock hashes hashing cnblock block

/-! ## Blobs of blocks -/

section Blobs

variable {archive : TxArchive Tx}

theorem block_header_blob_eq (b : block Tx) :
    block_header_blob b = headerPrefix b ++ writeLE32 b.nonce.toNat :=
  rfl

theorem readsBack_headerPrefix (b : block Tx) :
    ReadsBack loadHeaderPrefix (headerPrefix b)
      (b.major_version, b.minor_version, b.timestamp, b.prev_id) := by
  have reads : ReadsBack loadHeaderPrefix
      (writeVarint b.major_version.toNat ++ (writeVarint b.minor_version.toNat ++
        (writeVarint b.timestamp.toNat ++ (b.prev_id.bytes ++ []))))
      (UInt8.ofNat b.major_version.toNat, UInt8.ofNat b.minor_version.toNat,
        UInt64.ofNat b.timestamp.toNat, b.prev_id) :=
    (readsBack_writeVarint b.major_version.toNat_lt (by decide)).bind <|
    (readsBack_writeVarint b.minor_version.toNat_lt (by decide)).bind <|
    (readsBack_writeVarint b.timestamp.toNat_lt (by decide)).bind <|
    (readsBack_loadHash b.prev_id).bind (ReadsBack.pure _)
  simpa [headerPrefix] using reads

/-- The nonce lies where the header's fields before it end. -/
theorem nonceOffset_block_to_blob (b : block Tx) :
    nonceOffset (block_to_blob archive b) = some (headerPrefix b).length := by
  have split : block_to_blob archive b = headerPrefix b ++
      (writeLE32 b.nonce.toNat ++ archive.store b.miner_tx ++
        storeContainer CryptoHash.bytes b.tx_hashes) := by
    simp only [block_to_blob, block_header_blob_eq, List.append_assoc]
  rw [nonceOffset, split, readsBack_headerPrefix b, Option.map_some, List.length_append]
  simp

/-- A block whose `extra` and hashes fit their varints is parsed back from its blob. -/
theorem parse_block_to_blob (lawful : archive.Lawful) (b : block Tx)
    (extraFits : (archive.extra b.miner_tx).length < 2 ^ 64)
    (hashesFit : b.tx_hashes.length < 2 ^ 64) :
    parse_and_validate_block_from_blob archive (block_to_blob archive b) = some b := by
  have hashes : ReadsBack (loadContainer loadHash) (storeContainer CryptoHash.bytes b.tx_hashes)
      b.tx_hashes :=
    readsBack_container hashesFit (fun hash _ => readsBack_loadHash hash) fun hash _ empty => by
      have length := hash.length_bytes
      rw [empty] at length
      cases length
  have reads : ReadsBack (loadBlock archive)
      (headerPrefix b ++ (leBytes 4 b.nonce.toNat ++ (archive.store b.miner_tx ++
        (storeContainer CryptoHash.bytes b.tx_hashes ++ []))))
      ⟨b.major_version, b.minor_version, b.timestamp, b.prev_id, UInt32.ofNat b.nonce.toNat,
        b.miner_tx, b.tx_hashes⟩ :=
    (readsBack_headerPrefix b).bind <|
    (@readsBack_leBytes 4 b.nonce.toNat (by simpa using b.nonce.toNat_lt)).bind <|
    (lawful.readsBack_store b.miner_tx extraFits).bind <|
    hashes.bind (ReadsBack.pure _)
  have ran := reads []
  simp only [List.append_nil, UInt32.ofNat_toNat] at ran
  rw [parse_and_validate_block_from_blob, block_to_blob, block_header_blob_eq, writeLE32_eq]
  simp only [List.append_assoc]
  rw [ran]

/-- Writing a nonce over the header's gives the blob of the block with that nonce. -/
theorem overwrite_nonce (archive : TxArchive Tx) (b : block Tx) (nonce : UInt32) :
    overwrite (block_to_blob archive b) (headerPrefix b).length (writeLE32 nonce.toNat) =
      block_to_blob archive { b with nonce } := by
  have split : ∀ c : block Tx, block_to_blob archive c = headerPrefix c ++ writeLE32 c.nonce.toNat ++
      (archive.store c.miner_tx ++ storeContainer CryptoHash.bytes c.tx_hashes) := by
    intro c
    simp only [block_to_blob, block_header_blob_eq, List.append_assoc]
  rw [split b, overwrite_append (by simp [writeLE32]), split]
  rfl

/-- The blob of a block whose miner transaction has the extra `extra`, with the extra in the open. -/
theorem block_to_blob_withExtra (lawful : archive.Lawful) (b : block Tx) (tx : Tx)
    (extra : List UInt8) :
    block_to_blob archive { b with miner_tx := archive.withExtra tx extra } =
      block_header_blob b ++ archive.beforeExtra tx ++ writeVarint extra.length ++ extra ++
        (archive.afterExtra tx ++ storeContainer CryptoHash.bytes b.tx_hashes) := by
  rw [block_to_blob, TxArchive.store, lawful.extra_withExtra, lawful.beforeExtra_withExtra,
    lawful.afterExtra_withExtra]
  simp only [storeString, List.append_assoc]
  rfl

/--
Writing bytes over as many bytes of the miner transaction's extra gives the
blob of the block whose extra holds them.
-/
theorem overwrite_extra (lawful : archive.Lawful) (b : block Tx) (tx : Tx)
    {front old new back : List UInt8} (sameLength : new.length = old.length) :
    overwrite (block_to_blob archive { b with miner_tx := archive.withExtra tx (front ++ old ++ back) })
        (block_header_blob b ++ archive.beforeExtra tx ++
          writeVarint (front ++ old ++ back).length ++ front).length new =
      block_to_blob archive { b with miner_tx := archive.withExtra tx (front ++ new ++ back) } := by
  have sameTotal : (front ++ new ++ back).length = (front ++ old ++ back).length := by
    simp [sameLength]
  rw [block_to_blob_withExtra lawful, block_to_blob_withExtra lawful, sameTotal]
  have regroup : ∀ middle : List UInt8,
      block_header_blob b ++ archive.beforeExtra tx ++ writeVarint (front ++ old ++ back).length ++
          (front ++ middle ++ back) ++
          (archive.afterExtra tx ++ storeContainer CryptoHash.bytes b.tx_hashes) =
        (block_header_blob b ++ archive.beforeExtra tx ++ writeVarint (front ++ old ++ back).length ++
          front) ++ middle ++
          (back ++ (archive.afterExtra tx ++ storeContainer CryptoHash.bytes b.tx_hashes)) := by
    intro middle
    simp only [List.append_assoc]
  rw [regroup old, regroup new, overwrite_append sameLength]

end Blobs

/-! ## The first occurrence of the key -/

section Search

variable {pat : List UInt8}

theorem memmemFrom_append (nonempty : pat ≠ []) : ∀ (front back : List UInt8) (offset : Nat),
    (∀ i < front.length, ¬ pat <+: (front ++ pat ++ back).drop i) →
      memmemFrom pat (front ++ pat ++ back) offset = some (offset + front.length)
  | [], back, offset, _ => by
    obtain ⟨first, others, rfl⟩ := List.exists_cons_of_ne_nil nonempty
    have found : (first :: others).isPrefixOf (first :: others ++ back) = true := by
      rw [List.isPrefixOf_iff_prefix]
      exact List.prefix_append _ _
    rw [List.nil_append, List.cons_append, memmemFrom, ← List.cons_append, if_pos found]
    rfl
  | byte :: front, back, offset, absent => by
    have notHere : ¬ pat <+: byte :: (front ++ pat ++ back) := by
      simpa using absent 0 (Nat.succ_pos _)
    have later : ∀ i < front.length, ¬ pat <+: (front ++ pat ++ back).drop i := fun i within => by
      simpa using absent (i + 1) (by simp; omega)
    rw [List.cons_append, List.cons_append, memmemFrom,
      if_neg (by rwa [List.isPrefixOf_iff_prefix]), memmemFrom_append nonempty front back _ later,
      List.length_cons, Nat.add_right_comm, Nat.add_assoc]

/-- `slow_memmem` finds a pattern where no earlier occurrence precedes it. -/
theorem slow_memmem_append {front back : List UInt8} (nonempty : pat ≠ [])
    (absent : ∀ i < front.length, ¬ pat <+: (front ++ pat ++ back).drop i) :
    slow_memmem (front ++ pat ++ back) pat = front.length := by
  have notLonger : ¬ pat.length > (front ++ pat ++ back).length := by
    simp only [List.length_append]
    omega
  have notEmpty : pat.length ≠ 0 := fun empty => nonempty (List.length_eq_zero_iff.mp empty)
  have searched : ¬ (decide (pat.length > (front ++ pat ++ back).length) ||
      decide (pat.length = 0)) = true := by
    simp only [Bool.or_eq_true, decide_eq_true_eq, not_or]
    exact ⟨notLonger, notEmpty⟩
  rw [slow_memmem, if_neg searched, memmemFrom_append nonempty front back 0 absent,
    Option.getD_some, Nat.zero_add]

/-- A pattern that occurs in `buf` once is found where it occurs. -/
theorem slow_memmem_of_unique {buf front back : List UInt8} (nonempty : pat ≠ [])
    (once : ∀ i j, pat <+: buf.drop i → pat <+: buf.drop j → i = j)
    (split : buf = front ++ pat ++ back) : slow_memmem buf pat = front.length := by
  subst split
  have here : pat <+: (front ++ pat ++ back).drop front.length := by
    rw [List.append_assoc, List.drop_left]
    exact List.prefix_append pat back
  refine slow_memmem_append nonempty fun i before occurs => ?_
  have same := once i front.length occurs here
  omega

end Search

/-! ## Submitting a block -/

theorem CryptoHashToUint256_uint256ToCryptoHash (hash : uint256) :
    CryptoHashToUint256 (uint256ToCryptoHash hash) = hash := by
  have fits : hash.toNat < 256 ^ 32 := lt_of_lt_of_eq hash.isLt (by norm_num)
  rw [CryptoHashToUint256, uint256ToCryptoHash]
  simp only [uint256.toByteVector_eq, leValue_leBytes, Nat.mod_eq_of_lt fits, BitVec.ofNat_toNat,
    BitVec.setWidth_eq]

/-- `submitblock` hands on a block that starts with a coinbase and to which the mined block commits. -/
theorem submitblock_eq_ok_of_commits {hashes : HashPrimitives} {hashing : TreeHashing Tx}
    {cnblock : block Tx} {pblock : CBlock} {coinbase : CTransaction} {others : List CTransaction}
    (vtx : pblock.vtx = coinbase :: others) (isCoinBase : coinbase.IsCoinBase = true)
    (commits : CryptoHashToUint256 cnblock.prev_id = pblock.header.GetOriginalBlockHash hashes) :
    submitblock hashes hashing cnblock pblock =
      .ok { pblock with header := { pblock.header with
        cnHeader := submitblockCnHeader hashing cnblock } } := by
  have unchanged : ({ pblock.header with cnHeader := submitblockCnHeader hashing cnblock } :
      CBlockHeader).GetOriginalBlockHash hashes = pblock.header.GetOriginalBlockHash hashes := rfl
  unfold submitblock
  rw [vtx]
  dsimp only
  rw [isCoinBase, Bool.not_true, if_neg Bool.false_ne_true, unchanged]
  simp [submitblockCnHeader, commits]

/--
`submitblock` accepts the blob of every block whose miner transaction's
extra carries the transaction key, an extra nonce of fewer than 128 bytes
and the bytes of a Kevacoin block that starts with a coinbase, and whose
`prev_id` is that block's hash: it hands on the Kevacoin block under the
header rebuilt from the mined one.
-/
theorem submitblockBlob_block_to_blob {archive : TxArchive Tx} (lawful : archive.Lawful)
    (hashes : HashPrimitives) (hashing : TreeHashing Tx) {pblock : CBlock}
    (serializable : pblock.Serializable hashes true) {coinbase : CTransaction}
    {others : List CTransaction} (vtx : pblock.vtx = coinbase :: others)
    (isCoinBase : coinbase.IsCoinBase = true) (txkey_pub : public_key) {extra_nonce : List UInt8}
    (short : extra_nonce.length < 0x80) {cnblock : block Tx}
    (carries : archive.extra cnblock.miner_tx = append_keva_block_to_extra
      (add_tx_pub_key_to_extra [] txkey_pub ++ TX_EXTRA_NONCE :: UInt8.ofNat extra_nonce.length ::
        extra_nonce) (pblock.serialize false true))
    (commits : cnblock.prev_id = uint256ToCryptoHash (pblock.header.GetOriginalBlockHash hashes))
    (extraFits : (archive.extra cnblock.miner_tx).length < 2 ^ 64)
    (hashesFit : cnblock.tx_hashes.length < 2 ^ 64) :
    submitblockBlob archive hashes hashing (block_to_blob archive cnblock) =
      .ok { pblock with header := { pblock.header with
        cnHeader := submitblockCnHeader hashing cnblock } } := by
  have blockFits : (pblock.serialize false true).length < 2 ^ 64 := by
    rw [carries] at extraFits
    simp only [append_keva_block_to_extra, storeString, List.length_append, List.length_cons]
      at extraFits
    omega
  have readBlock : (CBlock.unserialize hashes false true CBlockHeader.null).run
      (pblock.serialize false true) = some (pblock, []) := by
    simpa using @CBlock.readsBack_serialize hashes false true CBlockHeader.null pblock serializable []
  rw [submitblockBlob, parse_block_to_blob lawful cnblock extraFits hashesFit]
  dsimp only
  rw [carries, get_keva_block_from_extra_minerExtra txkey_pub short blockFits]
  dsimp only
  rw [readBlock]
  exact submitblock_eq_ok_of_commits vtx isCoinBase
    (by rw [commits, CryptoHashToUint256_uint256ToCryptoHash])

/-! ## Templates -/

/--
What `getblocktemplate` produces: `reserve_size` was in range, the blob is
that of the template block whose miner transaction's extra holds the key,
`reserve_size` zeros as the extra nonce and the Kevacoin block, and
`reserved_offset` lies 34 bytes past the first occurrence of the key that
extra gives back, with the reserved bytes inside the blob.
-/
theorem getblocktemplate_eq_ok {archive : TxArchive Tx} (lawful : archive.Lawful)
    {hashes : HashPrimitives} {consensusParams : ConsensusParams} {miner_tx : Tx}
    {txkey_pub : public_key} {reserve_size : Int} {pblock : CBlock} {blob : List UInt8}
    {reserved_offset : UInt32}
    (produced : getblocktemplate archive hashes consensusParams miner_tx txkey_pub reserve_size pblock =
      .ok (blob, reserved_offset)) :
    let extra := add_tx_pub_key_to_extra [] txkey_pub ++
      TX_EXTRA_NONCE :: UInt8.ofNat reserve_size.toNat :: List.replicate reserve_size.toNat 0
    let tx_extra := append_keva_block_to_extra extra (pblock.serialize false true)
    0 < reserve_size ∧ reserve_size ≤ MAX_RESERVE_SIZE ∧
      blob = block_to_blob archive (templateBlock consensusParams hashes pblock
        (archive.withExtra (archive.withExtra miner_tx extra) tx_extra)) ∧
      reserved_offset =
        UInt32.ofNat (slow_memmem blob (get_tx_pub_key_from_extra tx_extra).bytes) + 32 + 2 ∧
      (reserved_offset + UInt32.ofNat reserve_size.toNat).toNat ≤ blob.length := by
  intro extra tx_extra
  unfold getblocktemplate at produced
  split_ifs at produced with invalid
  have inRange : 0 < reserve_size ∧ reserve_size ≤ MAX_RESERVE_SIZE := by
    unfold MAX_RESERVE_SIZE at invalid ⊢
    omega
  have constructed : construct_miner_tx_extra txkey_pub (List.replicate reserve_size.toNat 0) =
      some extra := by
    rw [construct_miner_tx_extra_eq txkey_pub (by simp; omega)
      (by unfold TX_EXTRA_NONCE_MAX_COUNT; unfold MAX_RESERVE_SIZE at invalid; simp; omega),
      List.length_replicate]
  dsimp only at produced
  rw [constructed] at produced
  dsimp only at produced
  simp only [templateBlock_miner_tx, lawful.extra_withExtra, templateBlock_with_miner_tx] at produced
  split_ifs at produced with isNull isZero outside
  obtain ⟨rfl, rfl⟩ := Prod.mk.inj (Except.ok.inj produced)
  exact ⟨inRange.1, inRange.2, rfl, rfl, Nat.le_of_not_lt outside⟩

/-! ## What a pool does with a template -/

section Pool

variable {archive : TxArchive Tx}

/--
The extra of a template's miner transaction: the key, `extra_nonce` under the
size byte `size`, and the Kevacoin block.
-/
def templateExtra (txkey_pub : public_key) (size : Nat) (extra_nonce keva_block : List UInt8) :
    List UInt8 :=
  append_keva_block_to_extra
    (add_tx_pub_key_to_extra [] txkey_pub ++ TX_EXTRA_NONCE :: UInt8.ofNat size :: extra_nonce)
    keva_block

/-- A template's extra, cut around its extra nonce. -/
theorem templateExtra_eq (txkey_pub : public_key) (size : Nat) (extra_nonce keva_block : List UInt8) :
    templateExtra txkey_pub size extra_nonce keva_block =
      (TX_EXTRA_TAG_PUBKEY :: txkey_pub.bytes ++ [TX_EXTRA_NONCE, UInt8.ofNat size]) ++ extra_nonce ++
        TX_EXTRA_KEVA_BLOCK_TAG :: storeString keva_block := by
  simp [templateExtra, append_keva_block_to_extra, add_tx_pub_key_to_extra]

@[simp]
theorem length_templateExtra (txkey_pub : public_key) (size : Nat)
    (extra_nonce keva_block : List UInt8) :
    (templateExtra txkey_pub size extra_nonce keva_block).length =
      extra_nonce.length + (storeString keva_block).length + 36 := by
  simp only [templateExtra_eq, List.length_append, List.length_cons, List.length_nil,
    txkey_pub.length_bytes]
  omega

/--
The blob of a block whose miner transaction has a template's extra: the key
stands after the header, the transaction's fields before its extra, the
extra's size and the key's tag, and the rest of the extra follows it.
-/
theorem block_to_blob_templateExtra (lawful : archive.Lawful) (b : block Tx) (tx : Tx)
    (txkey_pub : public_key) (size : Nat) (extra_nonce keva_block : List UInt8) :
    ∃ back, block_to_blob archive
        { b with miner_tx := archive.withExtra tx (templateExtra txkey_pub size extra_nonce keva_block) } =
        (block_header_blob b ++ archive.beforeExtra tx ++
          writeVarint (templateExtra txkey_pub size extra_nonce keva_block).length ++
          [TX_EXTRA_TAG_PUBKEY]) ++ txkey_pub.bytes ++ back ∧
      (templateExtra txkey_pub size extra_nonce keva_block).length ≤ back.length + 33 := by
  refine ⟨[TX_EXTRA_NONCE, UInt8.ofNat size] ++ extra_nonce ++
      TX_EXTRA_KEVA_BLOCK_TAG :: storeString keva_block ++
      (archive.afterExtra tx ++ storeContainer CryptoHash.bytes b.tx_hashes), ?_, ?_⟩
  · rw [block_to_blob_withExtra lawful, templateExtra_eq]
    simp only [List.append_assoc, List.cons_append, List.nil_append]
  · simp only [length_templateExtra, List.length_append, List.length_cons, List.length_nil]
    omega

/--
The edits a pool makes to a template blob: a nonce written at the header's
nonce and a window written over the extra nonce, 34 bytes past the key, give
the blob of the block with that nonce and that extra nonce.
-/
theorem overwrite_template (lawful : archive.Lawful) (b : block Tx) (tx : Tx)
    (txkey_pub : public_key) (size : Nat) {zeros window : List UInt8}
    (sameLength : window.length = zeros.length) (keva_block : List UInt8) (nonce : UInt32) :
    overwrite
        (overwrite (block_to_blob archive
            { b with miner_tx := archive.withExtra tx (templateExtra txkey_pub size zeros keva_block) })
          (headerPrefix b).length (writeLE32 nonce.toNat))
        ((block_header_blob b ++ archive.beforeExtra tx ++
          writeVarint (templateExtra txkey_pub size zeros keva_block).length ++
          [TX_EXTRA_TAG_PUBKEY]).length + 32 + 2) window =
      block_to_blob archive
        { b with nonce, miner_tx := archive.withExtra tx (templateExtra txkey_pub size window keva_block) } := by
  have nonceWritten : overwrite (block_to_blob archive
        { b with miner_tx := archive.withExtra tx (templateExtra txkey_pub size zeros keva_block) })
        (headerPrefix b).length (writeLE32 nonce.toNat) =
      block_to_blob archive
        { b with nonce, miner_tx := archive.withExtra tx (templateExtra txkey_pub size zeros keva_block) } :=
    overwrite_nonce archive _ nonce
  have offset : (block_header_blob b ++ archive.beforeExtra tx ++
        writeVarint (templateExtra txkey_pub size zeros keva_block).length ++
        [TX_EXTRA_TAG_PUBKEY]).length + 32 + 2 =
      (block_header_blob { b with nonce } ++ archive.beforeExtra tx ++
        writeVarint (templateExtra txkey_pub size zeros keva_block).length ++
        (TX_EXTRA_TAG_PUBKEY :: txkey_pub.bytes ++ [TX_EXTRA_NONCE, UInt8.ofNat size])).length := by
    simp only [block_header_blob_eq, writeLE32_eq, List.length_append, length_leBytes,
      List.length_cons, List.length_nil, txkey_pub.length_bytes]
    rfl
  rw [nonceWritten, offset]
  simp only [templateExtra_eq]
  exact overwrite_extra lawful { b with nonce } tx sameLength

/--
The round trip of merged mining: a template blob that `getblocktemplate`
produces, shorter than `2 ^ 32` bytes (its offsets are `uint32_t`) and
holding the transaction key once, has its header nonce where a pool parses
it, and every blob the pool derives from it by writing a nonce there and
`reserve_size` bytes at `reserved_offset` is accepted by `submitblock`: it
hands on the template's Kevacoin block under a CryptoNote header with the
pool's nonce whose `prev_id` is the block's hash.
-/
theorem submitblock_accepts_template {archive : TxArchive Tx} (lawful : archive.Lawful)
    (hashes : HashPrimitives) (hashing : TreeHashing Tx) (consensusParams : ConsensusParams)
    (miner_tx : Tx) (txkey_pub : public_key) (reserve_size : Int) {pblock : CBlock}
    (serializable : pblock.Serializable hashes true) {coinbase : CTransaction}
    {others : List CTransaction} (vtx : pblock.vtx = coinbase :: others)
    (isCoinBase : coinbase.IsCoinBase = true) {blob : List UInt8} {reserved_offset : UInt32}
    (produced : getblocktemplate archive hashes consensusParams miner_tx txkey_pub reserve_size pblock =
      .ok (blob, reserved_offset))
    (fits : blob.length < 2 ^ 32)
    (once : ∀ i j, txkey_pub.bytes <+: blob.drop i → txkey_pub.bytes <+: blob.drop j → i = j) :
    ∃ offset, nonceOffset blob = some offset ∧
      ∀ (nonce : UInt32) (window : List UInt8), window.length = reserve_size.toNat →
        ∃ cnHeader : CryptoNoteHeader,
          submitblockBlob archive hashes hashing
              (overwrite (overwrite blob offset (writeLE32 nonce.toNat)) reserved_offset.toNat window) =
            .ok { pblock with header := { pblock.header with cnHeader } } ∧
          cnHeader.nonce = nonce ∧ cnHeader.prev_id = pblock.header.GetOriginalBlockHash hashes := by
  have facts := getblocktemplate_eq_ok lawful produced
  dsimp only at facts
  obtain ⟨-, small, blobEq, offsetEq, -⟩ := facts
  obtain ⟨zeros, zerosEq⟩ : ∃ zeros, zeros = List.replicate reserve_size.toNat (0 : UInt8) := ⟨_, rfl⟩
  have zerosLength : zeros.length = reserve_size.toNat := by rw [zerosEq, List.length_replicate]
  obtain ⟨tx, txEq⟩ : ∃ tx, tx = archive.withExtra miner_tx (add_tx_pub_key_to_extra [] txkey_pub ++
      TX_EXTRA_NONCE :: UInt8.ofNat reserve_size.toNat :: List.replicate reserve_size.toNat 0) := ⟨_, rfl⟩
  obtain ⟨template, templateEq⟩ : ∃ template,
      template = templateBlock consensusParams hashes pblock tx := ⟨_, rfl⟩
  have blobIs : blob = block_to_blob archive { template with
      miner_tx := archive.withExtra tx
        (templateExtra txkey_pub reserve_size.toNat zeros (pblock.serialize false true)) } := by
    rw [blobEq, templateEq, templateBlock_with_miner_tx, txEq, zerosEq]
    rfl
  obtain ⟨back, split, extraShort⟩ := block_to_blob_templateExtra lawful template tx txkey_pub
    reserve_size.toNat zeros (pblock.serialize false true)
  rw [← blobIs] at split
  have short : zeros.length < 0x80 := by
    unfold MAX_RESERVE_SIZE at small
    omega
  have blockFits : (pblock.serialize false true).length < 2 ^ 64 := by
    have total := congrArg List.length split
    simp only [List.length_append, length_templateExtra, storeString] at total extraShort
    omega
  have keyFound : get_tx_pub_key_from_extra
      (templateExtra txkey_pub reserve_size.toNat zeros (pblock.serialize false true)) = txkey_pub := by
    rw [← zerosLength]
    exact get_tx_pub_key_from_extra_minerExtra txkey_pub short blockFits
  have found := slow_memmem_of_unique (by simp [← List.length_pos_iff, txkey_pub.length_bytes]) once split
  have offsetNat : reserved_offset.toNat = (block_header_blob template ++ archive.beforeExtra tx ++
      writeVarint (templateExtra txkey_pub reserve_size.toNat zeros (pblock.serialize false true)).length ++
      [TX_EXTRA_TAG_PUBKEY]).length + 32 + 2 := by
    have extra : append_keva_block_to_extra (add_tx_pub_key_to_extra [] txkey_pub ++
        TX_EXTRA_NONCE :: UInt8.ofNat reserve_size.toNat :: List.replicate reserve_size.toNat 0)
        (pblock.serialize false true) =
        templateExtra txkey_pub reserve_size.toNat zeros (pblock.serialize false true) := by
      rw [zerosEq, templateExtra]
    have total := congrArg List.length split
    rw [offsetEq, extra, keyFound, found]
    simp only [List.length_append, length_templateExtra, List.length_singleton,
      txkey_pub.length_bytes, UInt32.toNat_add, UInt32.toNat_ofNat', UInt32.toNat_ofNat]
      at total extraShort ⊢
    omega
  refine ⟨(headerPrefix template).length, ?_, fun nonce window sized => ?_⟩
  · rw [blobIs]
    exact nonceOffset_block_to_blob _
  · have sameLength : window.length = zeros.length := by rw [sized, zerosLength]
    have edited := overwrite_template lawful template tx txkey_pub reserve_size.toNat sameLength
      (pblock.serialize false true) nonce
    rw [← blobIs, ← offsetNat] at edited
    rw [edited]
    refine ⟨submitblockCnHeader hashing
      { template with
        nonce
        miner_tx := archive.withExtra tx
          (templateExtra txkey_pub reserve_size.toNat window (pblock.serialize false true)) },
      ?_, rfl, ?_⟩
    · have carries : archive.extra (archive.withExtra tx
            (templateExtra txkey_pub reserve_size.toNat window (pblock.serialize false true))) =
          append_keva_block_to_extra (add_tx_pub_key_to_extra [] txkey_pub ++ TX_EXTRA_NONCE ::
            UInt8.ofNat window.length :: window) (pblock.serialize false true) := by
        rw [lawful.extra_withExtra, templateExtra, sized]
      have extraFits : (archive.extra (archive.withExtra tx
          (templateExtra txkey_pub reserve_size.toNat window (pblock.serialize false true)))).length <
          2 ^ 64 := by
        have total := congrArg List.length split
        simp only [List.length_append, length_templateExtra] at total extraShort
        rw [lawful.extra_withExtra, length_templateExtra, sameLength]
        omega
      exact submitblockBlob_block_to_blob lawful hashes hashing serializable vtx isCoinBase txkey_pub
        (by rwa [sameLength]) carries (by rw [templateEq]; rfl) extraFits
        (by rw [templateEq]; exact Nat.two_pow_pos 64)
    · rw [templateEq]
      exact CryptoHashToUint256_uint256ToCryptoHash _

/-- A transaction archive whose transactions are their extra alone. -/
def TxArchive.extraOnly : TxArchive (List UInt8) where
  extra := id
  withExtra _ extra := extra
  beforeExtra _ := []
  afterExtra _ := []
  load := loadString

theorem TxArchive.extraOnly_lawful : TxArchive.extraOnly.Lawful where
  extra_withExtra _ _ := rfl
  beforeExtra_withExtra _ _ := rfl
  afterExtra_withExtra _ _ := rfl
  readsBack_store _ fits := by
    simpa [TxArchive.store, TxArchive.extraOnly] using readsBack_storeString fits

/-- A Kevacoin block of a coinbase alone. -/
def coinbaseOnlyBlock : CBlock :=
  ⟨⟨1, 0, 0, 0, 0, 0, CryptoNoteHeader.null⟩, [⟨[⟨COutPoint.null, [], 0, ⟨[]⟩⟩], [], 1, 0, 0⟩]⟩

theorem coinbaseOnlyBlock_serializable : coinbaseOnlyBlock.Serializable constantHashes true := by
  refine ⟨by decide, by decide, by decide, by decide, fun tx member => ?_⟩
  rw [coinbaseOnlyBlock, List.mem_singleton] at member
  subst member
  refine ⟨List.cons_ne_nil _ _, by decide, by decide, by decide, by decide,
    fun txin member => ?_, (fun txout member => nomatch member), .inl rfl, rfl⟩
  rw [List.mem_singleton] at member
  subst member
  exact ⟨by decide, by decide, fun item member => nomatch member⟩

theorem submitblock_accepts_template_coinbaseOnly :
    let txkey_pub : public_key := ⟨List.replicate 32 7, rfl⟩
    let zero : CryptoHash := ⟨List.replicate 32 0, rfl⟩
    let hashing : TreeHashing (List UInt8) := ⟨fun _ => zero, fun _ => zero⟩
    ∃ blob reserved_offset,
      getblocktemplate TxArchive.extraOnly constantHashes mainParams [] txkey_pub 8 coinbaseOnlyBlock =
        .ok (blob, reserved_offset) ∧
      ∃ offset, nonceOffset blob = some offset ∧
        ∀ (nonce : UInt32) (window : List UInt8), window.length = (8 : Int).toNat →
          ∃ cnHeader : CryptoNoteHeader,
            submitblockBlob TxArchive.extraOnly constantHashes hashing
                (overwrite (overwrite blob offset (writeLE32 nonce.toNat)) reserved_offset.toNat window) =
              .ok { coinbaseOnlyBlock with header := { coinbaseOnlyBlock.header with cnHeader } } ∧
            cnHeader.nonce = nonce ∧
            cnHeader.prev_id = coinbaseOnlyBlock.header.GetOriginalBlockHash constantHashes := by
  intro txkey_pub zero hashing
  have produced : getblocktemplate TxArchive.extraOnly constantHashes mainParams [] txkey_pub 8
      coinbaseOnlyBlock = .ok (block_to_blob TxArchive.extraOnly (templateBlock mainParams
        constantHashes coinbaseOnlyBlock (templateExtra txkey_pub 8 (List.replicate 8 0)
          (coinbaseOnlyBlock.serialize false true))), 76) := by
    decide +kernel
  exact ⟨_, _, produced, submitblock_accepts_template TxArchive.extraOnly_lawful constantHashes hashing
    mainParams [] txkey_pub 8 coinbaseOnlyBlock_serializable rfl rfl produced (by decide +kernel)
    fun i j atI atJ => eq_of_prefix_drop (by decide) (show _ = [42] by decide +kernel) atI atJ⟩

end Pool

end cryptonote

end Kevacoin
