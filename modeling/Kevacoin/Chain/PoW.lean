import Kevacoin.Chain.BlockIndex

/-!
# Proof of work and header acceptance

`pow.cpp`, `CBlockHeader::GetPoWHash` in `primitives/block.cpp`,
`rx_seedheight` in `cn_utils/crypto/rx-slow-hash.c`, and `CheckBlockHeader`
and the first checks of `CChainState::AcceptBlockHeader` in
`validation.cpp`.

`nNonce` holds the block height.  From `RandomXHeight` on, the CryptoNote
major version is 12 and the proof-of-work hash is RandomX keyed by the hash
of a seed block, which `cn_get_block_hash_by_height` reads from the global
active chain: `chainActive[seed_height]`.  `CChain::operator[]` takes an
`int`, so the 64-bit seed height is narrowed first (`toCInt`), and it
returns `nullptr` for a height outside the chain, on which `GetBlockHash`
is then called.  The model returns `Option`: `none` is that dereference of
a null entry, and `GetPoWHash`, `CheckBlockHeader` and `AcceptBlockHeader`
pass it up.

The main results: a header is checked without a missing seed block exactly
when the seed height lies in the active chain (`CheckBlockHeader_eq_none_iff`),
which a header built on a block of the active chain always satisfies, with
its own ancestor as seed (`seed_of_parent_on_active_chain`); but in general
the verdict on a header is read from the active tip's ancestor at the seed
height and not from the header's ancestry (`pow_verdict_of_active_tip`), so
two nodes on different forks can disagree on it.
-/

namespace Kevacoin

/-! ## Consensus parameters -/

/-- The fields of `Consensus::Params` that block validation reads. -/
structure ConsensusParams where
  hashGenesisBlock : uint256
  nSubsidyHalvingInterval : Int
  RandomXHeight : UInt32
  powLimit : uint256
deriving DecidableEq, Repr

namespace ConsensusParams

/-- `Params::GetCryptonoteMajorVersion`. -/
def GetCryptonoteMajorVersion (params : ConsensusParams) (height : UInt32) : UInt8 :=
  if height ≥ params.RandomXHeight then 12 else 10

end ConsensusParams

/-- The parameters of `CMainParams`. -/
def mainParams : ConsensusParams where
  hashGenesisBlock := 0x70bd30ae775c691fc8a2b7d27f37279a4f505f877e3234105f22e963a618597c
  nSubsidyHalvingInterval := 1050000
  RandomXHeight := 46130
  powLimit := 0x000fffffffffffffffffffffffffffffffffffffffffffffffffffffffffffff

/-! ## Targets -/

/-- `arith_uint256::SetCompact`: the target and the negative and overflow flags. -/
def SetCompact (nCompact : UInt32) : Nat × Bool × Bool :=
  let nSize := (nCompact >>> 24).toNat
  let nWord := nCompact &&& 0x007fffff
  let nWord := if nSize ≤ 3 then nWord >>> (8 * (3 - nSize)).toUInt32 else nWord
  -- bits shifted past the 256 of an `arith_uint256` are lost
  let target :=
    if nSize ≤ 3 then nWord.toNat else (nWord.toNat <<< (8 * (nSize - 3))) % 2 ^ 256
  let fNegative := nWord != 0 && (nCompact &&& 0x00800000) != 0
  let fOverflow := nWord != 0 &&
    (nSize > 34 || (nWord > 0xff && nSize > 33) || (nWord > 0xffff && nSize > 32))
  (target, fNegative, fOverflow)

/-- `CheckProofOfWork`. -/
def CheckProofOfWork (hash : uint256) (nBits : UInt32) (params : ConsensusParams) : Bool :=
  let (bnTarget, fNegative, fOverflow) := SetCompact nBits
  if fNegative || bnTarget == 0 || fOverflow || bnTarget > params.powLimit.toNat then false
  else if hash.toNat > bnTarget then false
  else true

/-- What `CheckProofOfWork` accepts: a target in range that the hash does not exceed. -/
theorem CheckProofOfWork_eq_true {hash : uint256} {nBits : UInt32} {params : ConsensusParams} :
    CheckProofOfWork hash nBits params = true ↔
      (SetCompact nBits).2.1 = false ∧ (SetCompact nBits).1 ≠ 0 ∧
        (SetCompact nBits).2.2 = false ∧ (SetCompact nBits).1 ≤ params.powLimit.toNat ∧
          hash.toNat ≤ (SetCompact nBits).1 := by
  unfold CheckProofOfWork
  rcases SetCompact nBits with ⟨bnTarget, fNegative, fOverflow⟩
  simp [and_assoc]

/-! ## Seed heights -/

/-- `SEEDHASH_EPOCH_BLOCKS`. -/
def SEEDHASH_EPOCH_BLOCKS : UInt64 := 2048

/-- `SEEDHASH_EPOCH_LAG`. -/
def SEEDHASH_EPOCH_LAG : UInt64 := 64

/-- `RX_BLOCK_VERSION`. -/
def RX_BLOCK_VERSION : UInt8 := 12

/-- `rx_seedheight`. -/
def rx_seedheight (height : UInt64) : UInt64 :=
  if height ≤ SEEDHASH_EPOCH_BLOCKS + SEEDHASH_EPOCH_LAG then 0
  else (height - SEEDHASH_EPOCH_LAG - 1) &&& ~~~(SEEDHASH_EPOCH_BLOCKS - 1)

/-- The seed lies below the height: at most the height of the parent. -/
theorem rx_seedheight_le_pred (height : UInt64) :
    (rx_seedheight height).toNat ≤ height.toNat - 1 := by
  unfold rx_seedheight
  split
  · exact Nat.zero_le _
  · case isFalse above =>
      have bound : 2112 < height.toNat := by
        rw [UInt64.not_le, UInt64.lt_iff_toNat_lt] at above
        exact above
      have first : (height - SEEDHASH_EPOCH_LAG).toNat = height.toNat - 64 :=
        UInt64.toNat_sub_of_le _ _
          (by rw [UInt64.le_iff_toNat_le]; simp [SEEDHASH_EPOCH_LAG]; omega)
      have second : (height - SEEDHASH_EPOCH_LAG - 1).toNat =
          (height - SEEDHASH_EPOCH_LAG).toNat - 1 :=
        UInt64.toNat_sub_of_le _ _ (by rw [UInt64.le_iff_toNat_le, first]; simp; omega)
      have masked := Nat.and_le_left (n := (height - SEEDHASH_EPOCH_LAG - 1).toNat)
        (m := (~~~(SEEDHASH_EPOCH_BLOCKS - 1)).toNat)
      rw [UInt64.toNat_and]
      omega

/--
The conversion of a `uint64_t` to the `int` of `CChain::operator[]`: the low
32 bits read in two's complement.
-/
def toCInt (value : UInt64) : Int :=
  value.toUInt32.toInt32.toInt

theorem toCInt_of_lt {value : UInt64} (small : value.toNat < 2 ^ 31) :
    toCInt value = value.toNat := by
  have low : value.toUInt32.toNat = value.toNat := by
    rw [UInt64.toNat_toUInt32]
    omega
  rw [toCInt, Int32.toInt, UInt32.toBitVec_toInt32,
    BitVec.toInt_eq_toNat_of_lt (by rw [UInt32.toNat_toBitVec]; omega),
    UInt32.toNat_toBitVec, low]

/-! ## The proof-of-work hash -/

/-- The 32 bytes `cn_get_block_hash_by_height` writes: the block hash, last byte first. -/
def cnHashBytes (hash : uint256) : List UInt8 :=
  hash.toByteVector.reverse

/--
`cn_get_block_hash_by_height`: the bytes it writes to `cnHash`, `none` when
`chainActive[seed_height]` is null and `GetBlockHash` dereferences it.
-/
def cn_get_block_hash_by_height (chainActive : CChain) (seed_height : UInt64) :
    Option (List UInt8) :=
  (chainActive.atHeight (toCInt seed_height)).GetBlockHash.map cnHashBytes

theorem cn_get_block_hash_by_height_eq_none_iff {chainActive : CChain} {seed_height : UInt64} :
    cn_get_block_hash_by_height chainActive seed_height = none ↔
      chainActive.atHeight (toCInt seed_height) = .null := by
  unfold cn_get_block_hash_by_height
  cases chainActive.atHeight (toCInt seed_height) <;> simp [CBlockIndex.GetBlockHash]

namespace CBlockHeader

/-- `CBlockHeader::GetPoWHash`, `none` when the seed lookup dereferences `nullptr`. -/
def GetPoWHash (hashes : HashPrimitives) (chainActive : CChain) (header : CBlockHeader) :
    Option uint256 :=
  if !header.isCNConsistent hashes then some inconsistentHash
  else
    let blob := header.cnHeader.blob
    let height : UInt32 := header.nNonce
    if header.cnHeader.major_version ≥ RX_BLOCK_VERSION then
      let seed_height := rx_seedheight height.toUInt64
      (cn_get_block_hash_by_height chainActive seed_height).map fun cnHash =>
        hashes.rx_slow_hash height.toUInt64 seed_height cnHash blob
    else
      some (hashes.cn_slow_hash blob (header.cnHeader.major_version.toNat - 6) height.toUInt64)

/-- The seed height of a header: `rx_seedheight` of the height in `nNonce`. -/
def seedHeight (header : CBlockHeader) : UInt64 :=
  rx_seedheight header.nNonce.toUInt64

/-- A consistent RandomX header hashes with the seed that the active chain gives. -/
theorem GetPoWHash_of_randomX {hashes : HashPrimitives} {chainActive : CChain}
    {header : CBlockHeader} (consistent : header.isCNConsistent hashes = true)
    (randomX : header.cnHeader.major_version ≥ RX_BLOCK_VERSION) :
    header.GetPoWHash hashes chainActive =
      (cn_get_block_hash_by_height chainActive header.seedHeight).map fun cnHash =>
        hashes.rx_slow_hash header.nNonce.toUInt64 header.seedHeight cnHash
          header.cnHeader.blob := by
  rw [GetPoWHash, consistent, if_neg (by decide), if_pos randomX]
  rfl

/-- `GetPoWHash` is missing exactly for a consistent RandomX header whose seed entry is null. -/
theorem GetPoWHash_eq_none_iff {hashes : HashPrimitives} {chainActive : CChain}
    {header : CBlockHeader} :
    header.GetPoWHash hashes chainActive = none ↔
      header.isCNConsistent hashes = true ∧ header.cnHeader.major_version ≥ RX_BLOCK_VERSION ∧
        cn_get_block_hash_by_height chainActive header.seedHeight = none := by
  cases consistent : header.isCNConsistent hashes
  · simp [GetPoWHash, consistent]
  · by_cases randomX : header.cnHeader.major_version ≥ RX_BLOCK_VERSION
    · rw [GetPoWHash_of_randomX consistent randomX, Option.map_eq_none_iff]
      simp [randomX]
    · simp [GetPoWHash, consistent, randomX]

/-- The seed of a header on `parent` is at most the parent's height. -/
theorem seedHeight_le_parent {parent : CBlockIndex} {header : CBlockHeader}
    (parentWell : parent.WellFormed) (onParent : parent.nHeight + 1 = header.nNonce.toNat) :
    (header.seedHeight.toNat : Int) ≤ parent.nHeight := by
  have below := rx_seedheight_le_pred header.nNonce.toUInt64
  have nonneg := parentWell.nHeight_nonneg
  rw [UInt32.toNat_toUInt64] at below
  unfold seedHeight
  omega

/--
The seed hash of a header on a well-formed `parent` is the hash of the
parent's ancestor at the seed height, provided the active chain contains
that ancestor.
-/
theorem cn_get_block_hash_by_height_of_Contains {chainActive : CChain} {parent : CBlockIndex}
    {header : CBlockHeader} (parentWell : parent.WellFormed)
    (onParent : parent.nHeight + 1 = header.nNonce.toNat)
    (heightFits : header.nNonce.toNat < 2 ^ 31)
    (contains : chainActive.Contains (parent.GetAncestor header.seedHeight.toNat) = true) :
    cn_get_block_hash_by_height chainActive header.seedHeight =
      (parent.GetAncestor header.seedHeight.toNat).GetBlockHash.map cnHashBytes := by
  have seedBelow := seedHeight_le_parent parentWell onParent
  obtain ⟨-, ancestorHeight⟩ :=
    CBlockIndex.GetAncestor_wellFormed parentWell (Int.natCast_nonneg _) seedBelow
  have found := CChain.atHeight_of_Contains contains
  rw [ancestorHeight] at found
  rw [cn_get_block_hash_by_height, toCInt_of_lt (by omega), found]

end CBlockHeader

/-! ## Header checks -/

/--
`CheckBlockHeader`: the reject reason of a header that fails, `none` when
the proof-of-work hash dereferences a null seed entry.
-/
def CheckBlockHeader (hashes : HashPrimitives) (chainActive : CChain) (header : CBlockHeader)
    (params : ConsensusParams) (fCheckPOW : Bool) : Option (Except String Unit) :=
  let height : UInt32 := header.nNonce
  if header.cnHeader.major_version ≠ params.GetCryptonoteMajorVersion height then
    some (.error "incorrect-major-version")
  else if fCheckPOW then
    (header.GetPoWHash hashes chainActive).map fun powHash =>
      if !CheckProofOfWork powHash header.nBits params then .error "high-hash" else .ok ()
  else some (.ok ())

/--
`CheckBlockHeader` with the proof of work checked dereferences a null seed
entry exactly for a consistent header of the right RandomX major version
whose seed height the active chain does not hold.
-/
theorem CheckBlockHeader_eq_none_iff {hashes : HashPrimitives} {chainActive : CChain}
    {header : CBlockHeader} {params : ConsensusParams} :
    CheckBlockHeader hashes chainActive header params true = none ↔
      header.cnHeader.major_version = params.GetCryptonoteMajorVersion header.nNonce ∧
        header.isCNConsistent hashes = true ∧
          header.cnHeader.major_version ≥ RX_BLOCK_VERSION ∧
            chainActive.atHeight (toCInt header.seedHeight) = .null := by
  unfold CheckBlockHeader
  by_cases version : header.cnHeader.major_version = params.GetCryptonoteMajorVersion header.nNonce
  · simp only [version, ne_eq, not_true_eq_false, if_false, if_true, Option.map_eq_none_iff,
      CBlockHeader.GetPoWHash_eq_none_iff, cn_get_block_hash_by_height_eq_none_iff, true_and]
  · simp [version]

/-- A header whose proof-of-work hash can be computed is checked without a crash. -/
theorem CheckBlockHeader_isSome {hashes : HashPrimitives} {chainActive : CChain}
    {header : CBlockHeader} {params : ConsensusParams} {fCheckPOW : Bool}
    (computed : (header.GetPoWHash hashes chainActive).isSome = true) :
    (CheckBlockHeader hashes chainActive header params fCheckPOW).isSome = true := by
  unfold CheckBlockHeader
  dsimp only
  split
  · rfl
  · cases fCheckPOW
    · rfl
    · rw [if_pos rfl, Option.isSome_map]
      exact computed

/-- Hash primitives that are constant: double SHA-256 gives `0` and Keccak `1`. -/
def constantHashes : HashPrimitives where
  Hash _ := 0
  cn_fast_hash _ := 1
  rx_slow_hash _ _ _ _ := 0
  cn_slow_hash _ _ _ := 0

/-- A genesis entry with hash `0`. -/
def forkGenesis : CBlockIndex :=
  .entry 0 0 0 .null .null

theorem forkGenesis_wellFormed : forkGenesis.WellFormed :=
  .genesis 0 0

/-- A RandomX header at height 1, on top of `forkGenesis`. -/
def genesisChildHeader : CBlockHeader :=
  { nVersion := 0x20000000
    hashPrevBlock := 0
    hashMerkleRoot := 0
    nTime := 0
    nBits := 0x1f0fffff
    nNonce := 1
    cnHeader := ⟨12, 0, 0, 0, 0, 0, 1⟩ }

/--
A header built on a block of the active chain reads its seed from its own
ancestry, and its header check never meets a null seed entry.
-/
theorem seed_of_parent_on_active_chain (hashes : HashPrimitives) (params : ConsensusParams)
    (fCheckPOW : Bool) {tip : CBlockIndex} {header : CBlockHeader} {height : Int}
    (tipWell : tip.WellFormed) (nonneg : 0 ≤ height) (onChain : height ≤ tip.nHeight)
    (onParent : height + 1 = header.nNonce.toNat) (heightFits : header.nNonce.toNat < 2 ^ 31) :
    cn_get_block_hash_by_height ((⟨[]⟩ : CChain).SetTip tip) header.seedHeight =
        ((tip.GetAncestor height).GetAncestor header.seedHeight.toNat).GetBlockHash.map
          cnHashBytes ∧
      (CheckBlockHeader hashes ((⟨[]⟩ : CChain).SetTip tip) header params fCheckPOW).isSome =
        true := by
  obtain ⟨parentWell, parentHeight⟩ :=
    CBlockIndex.GetAncestor_wellFormed tipWell nonneg onChain
  have seedBelow := CBlockHeader.seedHeight_le_parent parentWell (by rw [parentHeight]; exact onParent)
  rw [parentHeight] at seedBelow
  have seedNonneg : (0 : Int) ≤ header.seedHeight.toNat := Int.natCast_nonneg _
  have ancestor : (tip.GetAncestor height).GetAncestor header.seedHeight.toNat =
      tip.GetAncestor header.seedHeight.toNat :=
    CBlockIndex.GetAncestor_GetAncestor tipWell seedNonneg seedBelow onChain
  obtain ⟨ancestorWell, ancestorHeight⟩ :=
    CBlockIndex.GetAncestor_wellFormed tipWell seedNonneg (by omega)
  have contains : ((⟨[]⟩ : CChain).SetTip tip).Contains
      ((tip.GetAncestor height).GetAncestor header.seedHeight.toNat) = true := by
    rw [ancestor, CChain.Contains, ancestorHeight,
      CChain.atHeight_SetTip tipWell seedNonneg (by omega)]
    exact beq_self_eq_true _
  have seed := CBlockHeader.cn_get_block_hash_by_height_of_Contains parentWell
    (by rw [parentHeight]; exact onParent) heightFits contains
  refine ⟨seed, CheckBlockHeader_isSome ?_⟩
  cases computed : header.GetPoWHash hashes ((⟨[]⟩ : CChain).SetTip tip) with
  | some powHash =>
      rfl
  | none =>
      obtain ⟨-, -, missing⟩ := CBlockHeader.GetPoWHash_eq_none_iff.mp computed
      rw [seed, ancestor, Option.map_eq_none_iff] at missing
      have present := ancestorWell.GetBlockHash_isSome
      rw [missing] at present
      exact absurd present (by decide)

theorem seed_of_genesis_on_active_chain :
    forkGenesis.WellFormed ∧ (0 : Int) ≤ 0 ∧ (0 : Int) ≤ forkGenesis.nHeight ∧
      (0 : Int) + 1 = genesisChildHeader.nNonce.toNat ∧
      genesisChildHeader.nNonce.toNat < 2 ^ 31 ∧
      cn_get_block_hash_by_height ((⟨[]⟩ : CChain).SetTip forkGenesis)
          genesisChildHeader.seedHeight =
        ((forkGenesis.GetAncestor 0).GetAncestor genesisChildHeader.seedHeight.toNat).GetBlockHash.map
          cnHashBytes ∧
      (CheckBlockHeader constantHashes ((⟨[]⟩ : CChain).SetTip forkGenesis) genesisChildHeader
          mainParams true).isSome = true :=
  ⟨forkGenesis_wellFormed, by decide, by decide, by decide, by decide,
    seed_of_parent_on_active_chain constantHashes mainParams true forkGenesis_wellFormed
      (by decide) (by decide) (by decide) (by decide)⟩

/-- `BLOCK_FAILED_MASK`: `BLOCK_FAILED_VALID | BLOCK_FAILED_CHILD`. -/
def BLOCK_FAILED_MASK : UInt32 := 32 ||| 64

/-- Where `AcceptBlockHeader` goes on with a header that its first checks let through. -/
inductive HeaderAcceptance where
  /-- The header is already known; `*ppindex` is its entry. -/
  | known (pindex : CBlockIndex)
  /-- The header passed `CheckBlockHeader` and its parent is known and not
  marked failed; `ContextualCheckBlockHeader` and `AddToBlockIndex` follow. -/
  | parent (pindexPrev : CBlockIndex)
  /-- The genesis header, which is added without checks. -/
  | genesis
deriving DecidableEq, Repr

/--
`CChainState::AcceptBlockHeader` up to the parent lookup.  `mapBlockIndex`
maps a block hash to its entry; `none` is again a null seed entry.
-/
def AcceptBlockHeader (hashes : HashPrimitives) (chainActive : CChain)
    (mapBlockIndex : uint256 → Option CBlockIndex) (header : CBlockHeader)
    (params : ConsensusParams) : Option (Except String HeaderAcceptance) :=
  let hash := header.GetHash hashes
  if hash ≠ params.hashGenesisBlock then
    match mapBlockIndex hash with
    | some pindex =>
        some (if pindex.nStatus &&& BLOCK_FAILED_MASK ≠ 0 then .error "duplicate"
          else .ok (.known pindex))
    | none =>
        (CheckBlockHeader hashes chainActive header params true).map fun checked =>
          checked.bind fun () =>
            match mapBlockIndex header.hashPrevBlock with
            | none => .error "prev-blk-not-found"
            | some pindexPrev =>
                if pindexPrev.nStatus &&& BLOCK_FAILED_MASK ≠ 0 then .error "bad-prevblk"
                else .ok (.parent pindexPrev)
  else some (.ok .genesis)

/-- A header that is new and not the genesis header reaches `CheckBlockHeader`. -/
theorem AcceptBlockHeader_of_new {hashes : HashPrimitives} {chainActive : CChain}
    {mapBlockIndex : uint256 → Option CBlockIndex} {header : CBlockHeader}
    {params : ConsensusParams} (notGenesis : header.GetHash hashes ≠ params.hashGenesisBlock)
    (unknown : mapBlockIndex (header.GetHash hashes) = none) :
    AcceptBlockHeader hashes chainActive mapBlockIndex header params =
      (CheckBlockHeader hashes chainActive header params true).map fun checked =>
        checked.bind fun () =>
          match mapBlockIndex header.hashPrevBlock with
          | none => .error "prev-blk-not-found"
          | some pindexPrev =>
              if pindexPrev.nStatus &&& BLOCK_FAILED_MASK ≠ 0 then .error "bad-prevblk"
              else .ok (.parent pindexPrev) := by
  rw [AcceptBlockHeader, if_pos notGenesis]
  simp only [unknown]

/-! ## Headers far above the active chain -/

/--
A new header whose height field is `0xffffffff`, of the RandomX major
version and consistent, makes `AcceptBlockHeader` dereference a null seed
entry on every active chain: its seed height `0xfffff800` narrows to the
`int` `-2048`.
-/
theorem AcceptBlockHeader_eq_none_of_top_height (hashes : HashPrimitives)
    (chainActive : CChain) (mapBlockIndex : uint256 → Option CBlockIndex)
    (header : CBlockHeader) (topHeight : header.nNonce = 0xffffffff)
    (randomX : header.cnHeader.major_version = 12)
    (consistent : header.isCNConsistent hashes = true)
    (notGenesis : header.GetHash hashes ≠ mainParams.hashGenesisBlock)
    (unknown : mapBlockIndex (header.GetHash hashes) = none) :
    AcceptBlockHeader hashes chainActive mapBlockIndex header mainParams = none := by
  have narrowed : toCInt header.seedHeight = -2048 := by
    rw [CBlockHeader.seedHeight, topHeight]
    decide
  have version : header.cnHeader.major_version =
      mainParams.GetCryptonoteMajorVersion header.nNonce := by
    rw [randomX, topHeight]
    decide
  have crashes : CheckBlockHeader hashes chainActive header mainParams true = none :=
    CheckBlockHeader_eq_none_iff.mpr ⟨version, consistent, by rw [randomX]; decide,
      by rw [narrowed]; exact chainActive.atHeight_of_neg (by decide)⟩
  rw [AcceptBlockHeader_of_new notGenesis unknown, crashes]
  rfl

/-- A RandomX header with height field `0xffffffff`, consistent under `constantHashes`. -/
def topHeightHeader : CBlockHeader where
  nVersion := 0x20000000
  hashPrevBlock := mainParams.hashGenesisBlock
  hashMerkleRoot := 0
  nTime := 0
  nBits := 0x1f0fffff
  nNonce := 0xffffffff
  cnHeader := ⟨12, 0, 0, 0, 0, 0, 1⟩

theorem top_height_header_crashes_node :
    topHeightHeader.isCNConsistent constantHashes = true ∧
      topHeightHeader.GetHash constantHashes ≠ mainParams.hashGenesisBlock ∧
        AcceptBlockHeader constantHashes ⟨[]⟩ (fun _ => none) topHeightHeader mainParams = none :=
  ⟨by decide, by decide,
    AcceptBlockHeader_eq_none_of_top_height constantHashes ⟨[]⟩ (fun _ => none) topHeightHeader
      rfl rfl (by decide) (by decide) rfl⟩

/-! ## Seeds on forks -/

/--
The proof-of-work verdict of a consistent RandomX header on a node whose
active chain ends at `tip` is read from the tip's ancestor at the seed
height, wherever that height lies below the tip: the header's own parent
takes no part in it.
-/
theorem pow_verdict_of_active_tip (hashes : HashPrimitives) (params : ConsensusParams)
    (tip : CBlockIndex) (header : CBlockHeader) (tipWell : tip.WellFormed)
    (consistent : header.isCNConsistent hashes = true)
    (randomX : header.cnHeader.major_version ≥ RX_BLOCK_VERSION)
    (seedOnTip : (header.seedHeight.toNat : Int) ≤ tip.nHeight)
    (seedFits : header.seedHeight.toNat < 2 ^ 31) :
    (header.GetPoWHash hashes ((⟨[]⟩ : CChain).SetTip tip)).map (fun powHash =>
        CheckProofOfWork powHash header.nBits params) =
      (tip.GetAncestor header.seedHeight.toNat).GetBlockHash.map (fun seedHash =>
        CheckProofOfWork
          (hashes.rx_slow_hash header.nNonce.toUInt64 header.seedHeight (cnHashBytes seedHash)
            header.cnHeader.blob)
          header.nBits params) := by
  have found : ((⟨[]⟩ : CChain).SetTip tip).atHeight header.seedHeight.toNat =
      tip.GetAncestor header.seedHeight.toNat :=
    CChain.atHeight_SetTip tipWell (Int.natCast_nonneg _) seedOnTip
  have seed : cn_get_block_hash_by_height ((⟨[]⟩ : CChain).SetTip tip) header.seedHeight =
      (tip.GetAncestor header.seedHeight.toNat).GetBlockHash.map cnHashBytes := by
    rw [cn_get_block_hash_by_height, toCInt_of_lt seedFits, found]
  rw [CBlockHeader.GetPoWHash_of_randomX consistent randomX, seed, Option.map_map,
    Option.map_map]
  rfl

/-- Fork A: 2048 blocks over genesis, the block at height `i` with hash `i`. -/
def forkA : CBlockIndex :=
  forkGenesis.extendBy (fun i => BitVec.ofNat 256 i) 0 2048

/-- Fork B: 2112 blocks over genesis, the block at height `i` with hash `4096 + i`. -/
def forkB : CBlockIndex :=
  forkGenesis.extendBy (fun i => BitVec.ofNat 256 (4096 + i)) 0 2112

/-- A header at height 2113 on top of fork B; its seed height is 2048. -/
def forkHeader : CBlockHeader where
  nVersion := 0x20000000
  hashPrevBlock := BitVec.ofNat 256 (4096 + 2112)
  hashMerkleRoot := 0
  nTime := 0
  nBits := 0x1f0fffff
  nNonce := 2113
  cnHeader := ⟨12, 0, 0, 0, 0, 0, 1⟩

/-- RandomX that meets the target only under fork B's seed. -/
def forkHashes : HashPrimitives where
  Hash _ := 0
  cn_fast_hash _ := 1
  rx_slow_hash _ _ seedHash _ :=
    if seedHash = cnHashBytes (BitVec.ofNat 256 (4096 + 2048)) then 0 else BitVec.allOnes 256
  cn_slow_hash _ _ _ := 0

/--
A header on fork B, at the height after fork B's tip, checked by a node
whose active chain is fork A and by one whose active chain is fork B: the
first keys RandomX with fork A's block at the seed height and rejects the
header, the second accepts it.
-/
theorem seed_read_from_active_chain :
    forkB.WellFormed ∧ forkB.nHeight + 1 = forkHeader.nNonce.toNat ∧
      forkHeader.cnHeader.major_version ≥ RX_BLOCK_VERSION ∧
      (forkHeader.GetPoWHash forkHashes ((⟨[]⟩ : CChain).SetTip forkA)).map (fun powHash =>
          CheckProofOfWork powHash forkHeader.nBits mainParams) = some false ∧
      (forkHeader.GetPoWHash forkHashes ((⟨[]⟩ : CChain).SetTip forkB)).map (fun powHash =>
          CheckProofOfWork powHash forkHeader.nBits mainParams) = some true := by
  have seed : forkHeader.seedHeight.toNat = 2048 := by decide
  have forkAHeight : forkA.nHeight = 2048 := CBlockIndex.nHeight_extendBy 2048
  have forkBHeight : forkB.nHeight = 2112 := CBlockIndex.nHeight_extendBy 2112
  have genesisHeight : forkGenesis.nHeight = 0 := rfl
  have consistent : forkHeader.isCNConsistent forkHashes = true := by decide
  have ancestorAt : ∀ (hashOf : Nat → uint256) (count : Nat), 2048 ≤ count →
      (forkGenesis.extendBy hashOf 0 count).GetAncestor (2048 : Nat) =
        forkGenesis.extendBy hashOf 0 (2047 + 1) := by
    intro hashOf count reaches
    rw [CBlockIndex.GetAncestor_extendBy forkGenesis_wellFormed (by rw [genesisHeight]; decide)
      (by rw [genesisHeight]; omega), genesisHeight]
    rfl
  have onA := pow_verdict_of_active_tip forkHashes mainParams forkA forkHeader
    (forkGenesis_wellFormed.extendBy 2048) consistent (by decide)
    (by rw [seed, forkAHeight]; decide) (by rw [seed]; decide)
  have onB := pow_verdict_of_active_tip forkHashes mainParams forkB forkHeader
    (forkGenesis_wellFormed.extendBy 2112) consistent (by decide)
    (by rw [seed, forkBHeight]; decide) (by rw [seed]; decide)
  rw [seed, forkA, ancestorAt _ 2048 (Nat.le_refl _), CBlockIndex.GetBlockHash_extendBy] at onA
  rw [seed, forkB, ancestorAt _ 2112 (by decide), CBlockIndex.GetBlockHash_extendBy] at onB
  refine ⟨forkGenesis_wellFormed.extendBy 2112, by rw [forkBHeight]; decide, by decide,
    onA.trans ?_, onB.trans ?_⟩
  · decide
  · decide

end Kevacoin
