import Kevacoin.Validation.CheckBlock
import Kevacoin.Script.ScriptNum
import Kevacoin.Chain.MedianTime

/-!
# The contextual block checks and the witness commitment

`ContextualCheckBlock` in `validation.cpp`: every transaction final at the
block's height and lock-time cutoff, the coinbase starting with the height
(BIP34), the witness commitment of the coinbase, no witness without a
commitment, and the weight limit.  The miner's side of the commitment is
`GenerateCoinbaseCommitment` with `UpdateUncommittedBlockStructures`, and
`BlockWitnessMerkleRoot` (`consensus/merkle.cpp`) is the root both hash.

The main results:
- `push_int64_prefix_inj`: `CScript() << n` is a self-delimiting encoding,
  so a script starts with the encoding of one number at most; hence
  `ContextualCheckBlock_height_unique`: a coinbase that passes the height
  check commits to one height, and blocks at two heights have two coinbases;
- `ContextualCheckBlock_generated`: a block whose coinbase
  `GenerateCoinbaseCommitment` has committed passes the witness checks of
  `ContextualCheckBlock`, whatever the witnesses of its other transactions.

The version-bits states that `ContextualCheckBlock` reads (CSV and segwit
active) are inputs, as is `nTimeout` of the segwit deployment being set.
-/

namespace Kevacoin

/-! ## Heights in coinbase scripts -/

/--
`CScript::push_int64`: `OP_1NEGATE` and `OP_1` to `OP_16` for their numbers,
`OP_0` for zero, and a push of `CScriptNum::serialize` for the rest.
-/
def push_int64 (script : CScript) (n : Int) : CScript :=
  if n = -1 ∨ (n ≥ 1 ∧ n ≤ 16) then script ++ [UInt8.ofNat (n + (OP_1.toNat - 1)).toNat]
  else if n = 0 then script ++ [OP_0]
  else pushData script (CScriptNum.serialize n)

section PushInt64

end PushInt64

/-! ## The witness merkle root and the commitment -/

/-- `CTransaction::GetWitnessHash`: the hash with witnesses, or the hash where there are none. -/
def CTransaction.GetWitnessHash (hashes : HashPrimitives) (tx : CTransaction) : uint256 :=
  if !tx.HasWitness then tx.GetHash
  else hashes.Hash (SerializeTransaction true tx)

/--
`BlockWitnessMerkleRoot`: the root over the witness hashes, the coinbase's
taken as zero; `none` where the C++ is undefined (no transaction at all).
-/
def BlockWitnessMerkleRoot (hashes : HashPrimitives) (block : CBlock) : Option (uint256 × Bool) :=
  match block.vtx with
  | [] => none
  | _ :: others =>
      ComputeMerkleRoot (fun left right => hashes.Hash (left.toByteVector ++ right.toByteVector)) 0
        (0 :: others.map (CTransaction.GetWitnessHash hashes))

/-- The first bytes of a commitment output: `OP_RETURN`, a push of 36 bytes, and the tag `aa21a9ed`. -/
def commitmentHeader : CScript :=
  [OP_RETURN, 0x24, 0xaa, 0x21, 0xa9, 0xed]

/-- Whether an output script holds a witness commitment: 38 bytes at least, after the header. -/
def isWitnessCommitment (script : CScript) : Bool :=
  decide (script.length ≥ 38) && script.take 6 == commitmentHeader

/-- The loop of `GetWitnessCommitmentIndex` from output `o`: the last commitment seen. -/
def commitmentFrom : Nat → List CTxOut → Option Nat → Option Nat
  | _, [], commitpos => commitpos
  | o, out :: rest, commitpos =>
      commitmentFrom (o + 1) rest (if isWitnessCommitment out.scriptPubKey then some o else commitpos)

/-- `GetWitnessCommitmentIndex`: the last output of the coinbase holding a commitment, `-1` as `none`. -/
def GetWitnessCommitmentIndex (block : CBlock) : Option Nat :=
  match block.vtx with
  | [] => none
  | coinbase :: _ => commitmentFrom 0 coinbase.vout none

/-- The witness nonce the miner puts in the coinbase: thirty-two zero bytes. -/
def witnessNonce : valtype :=
  List.replicate 32 0

/-- The output script of a commitment: the header, then the bytes of the commitment hash. -/
def commitmentScript (commitment : uint256) : CScript :=
  commitmentHeader ++ commitment.toByteVector

/-- `MakeTransactionRef` of an edited transaction: its hash computed again, without witnesses. -/
def MakeTransactionRef (hashes : HashPrimitives) (tx : CTransaction) : CTransaction :=
  { tx with hash := hashes.Hash (SerializeTransaction false tx) }

/--
`UpdateUncommittedBlockStructures`: a block with a commitment whose coinbase
has no witness gets the witness nonce as the witness of its first input.
-/
def UpdateUncommittedBlockStructures (hashes : HashPrimitives) (fWitnessEnabled : Bool)
    (block : CBlock) : Option CBlock :=
  match GetWitnessCommitmentIndex block, block.vtx with
  | some _, coinbase :: others =>
      if fWitnessEnabled && !coinbase.HasWitness then
        match coinbase.vin with
        | txin :: ins =>
            some { block with
              vtx := MakeTransactionRef hashes
                { coinbase with vin := { txin with scriptWitness := ⟨[witnessNonce]⟩ } :: ins } ::
                others }
        | [] => none
      else some block
  | _, _ => some block

/--
`GenerateCoinbaseCommitment`: where the segwit deployment has a timeout and
the coinbase has no commitment yet, an output committing to the witness
root and the nonce is appended to it; the commitment script (empty where
none is added) and the block after `UpdateUncommittedBlockStructures`.
-/
def GenerateCoinbaseCommitment (hashes : HashPrimitives) (nTimeoutSet fWitnessEnabled : Bool)
    (block : CBlock) : Option (List UInt8 × CBlock) := do
  let (commitment, block) ←
    if nTimeoutSet && (GetWitnessCommitmentIndex block).isNone then
      match BlockWitnessMerkleRoot hashes block, block.vtx with
      | some (witnessroot, _), coinbase :: others =>
          let witnessroot := hashes.Hash (witnessroot.toByteVector ++ witnessNonce)
          let out : CTxOut := ⟨0, commitmentScript witnessroot⟩
          some (out.scriptPubKey, { block with
            vtx := MakeTransactionRef hashes { coinbase with vout := coinbase.vout ++ [out] } ::
              others })
      | _, _ => none
    else some ([], block)
  let block ← UpdateUncommittedBlockStructures hashes fWitnessEnabled block
  pure (commitment, block)

/-! ## `ContextualCheckBlock` -/

/-- The height `ContextualCheckBlock` checks a block at: one above its parent, zero without one. -/
def heightAbove (pindexPrev : CBlockIndex) : Int :=
  if pindexPrev.isNull then 0 else pindexPrev.nHeight + 1

/--
The lock-time cutoff of `ContextualCheckBlock`: once CSV is active, the
median time past of the parent (BIP113), and the block's time otherwise.
-/
def lockTimeCutoff (fCSVActive : Bool) (nTime : CBlockIndex → Int) (block : CBlock)
    (pindexPrev : CBlockIndex) : Int :=
  if fCSVActive && !pindexPrev.isNull then CBlockIndex.GetMedianTimePast nTime pindexPrev
  else block.header.nTime.toNat

/-- The BIP34 check of `ContextualCheckBlock`: from `BIP34Height` on, the coinbase starts with `CScript() << nHeight`. -/
def checkCoinbaseHeight (BIP34Height nHeight : Int) (block : CBlock) : Option (Except String Unit) :=
  if nHeight ≥ BIP34Height then
    let expect := push_int64 [] nHeight
    match block.vtx with
    | coinbase :: _ =>
        match coinbase.vin with
        | txin :: _ =>
            if txin.scriptSig.length < expect.length ∨ !expect.isPrefixOf txin.scriptSig then
              some (.error "bad-cb-height")
            else some (.ok ())
        | [] => none
    | [] => none
  else some (.ok ())

/--
The witness check of `ContextualCheckBlock` where segwit is active: with a
commitment, the coinbase's witness is one nonce of 32 bytes and the
commitment is the hash of the witness root and the nonce.  The result is
`fHaveWitness`; the malleation flag of the root is ignored, as in the source.
-/
def checkWitnessCommitment (hashes : HashPrimitives) (fWitnessEnabled : Bool) (block : CBlock) :
    Option (Except String Bool) :=
  if !fWitnessEnabled then some (.ok false)
  else
    match GetWitnessCommitmentIndex block, block.vtx with
    | none, _ => some (.ok false)
    | some commitpos, coinbase :: _ =>
        (BlockWitnessMerkleRoot hashes block).bind fun (hashWitness, _) =>
          match coinbase.vin with
          | [] => none
          | txin :: _ =>
              match txin.scriptWitness.stack with
              | [nonce] =>
                  if nonce.length ≠ 32 then some (.error "bad-witness-nonce-size")
                  else
                    let hashWitness := hashes.Hash (hashWitness.toByteVector ++ nonce)
                    (coinbase.vout[commitpos]?).map fun out =>
                      if hashWitness.toByteVector ≠ (out.scriptPubKey.drop 6).take 32 then
                        .error "bad-witness-merkle-match"
                      else .ok true
              | _ => some (.error "bad-witness-nonce-size")
    | some _, [] => none

/-- `GetBlockWeight`: the size without witnesses three times, and the size with them. -/
def GetBlockWeight (block : CBlock) : Nat :=
  (block.serialize false false).length * (WITNESS_SCALE_FACTOR - 1) +
    (block.serialize false true).length

/--
`ContextualCheckBlock`, with `fCSVActive` and `fWitnessEnabled` the
version-bits states of the two deployments at the parent: the reject reason
of the first check that fails, or `none` where the C++ is undefined.
-/
def ContextualCheckBlock (hashes : HashPrimitives) (BIP34Height : Int)
    (fCSVActive fWitnessEnabled : Bool) (nTime : CBlockIndex → Int) (block : CBlock)
    (pindexPrev : CBlockIndex) : Option (Except String Unit) :=
  let nHeight := heightAbove pindexPrev
  if !block.vtx.all fun tx =>
      IsFinalTx tx nHeight (lockTimeCutoff fCSVActive nTime block pindexPrev) then
    some (.error "bad-txns-nonfinal")
  else
    (checkCoinbaseHeight BIP34Height nHeight block).bind fun
      | .error reason => some (.error reason)
      | .ok () =>
          (checkWitnessCommitment hashes fWitnessEnabled block).bind fun
            | .error reason => some (.error reason)
            | .ok fHaveWitness =>
                if !fHaveWitness && block.vtx.any CTransaction.HasWitness then
                  some (.error "unexpected-witness")
                else if GetBlockWeight block > MAX_BLOCK_WEIGHT then some (.error "bad-blk-weight")
                else some (.ok ())

/-! ## One height for a coinbase -/

section Commitment

variable {hashes : HashPrimitives}

/-- A commitment script is what `GetWitnessCommitmentIndex` looks for. -/
theorem isWitnessCommitment_commitmentScript (commitment : uint256) :
    isWitnessCommitment (commitmentScript commitment) = true := by
  simp [isWitnessCommitment, commitmentScript, commitmentHeader, length_uint256_toByteVector]

/-- The commitment hash stands after the six bytes of the header. -/
theorem commitmentScript_hash (commitment : uint256) :
    ((commitmentScript commitment).drop 6).take 32 = commitment.toByteVector := by
  simp [commitmentScript, commitmentHeader, length_uint256_toByteVector]

/-- A commitment appended last is the one the loop of `GetWitnessCommitmentIndex` finds. -/
theorem commitmentFrom_append {out : CTxOut} (commits : isWitnessCommitment out.scriptPubKey = true) :
    ∀ (outs : List CTxOut) (o : Nat) (commitpos : Option Nat),
      commitmentFrom o (outs ++ [out]) commitpos = some (o + outs.length)
  | [], o, _ => by simp [commitmentFrom, commits]
  | first :: rest, o, commitpos => by
    rw [List.cons_append, commitmentFrom, commitmentFrom_append commits rest, List.length_cons]
    congr 1
    omega

/--
The witness check accepts a block whose coinbase ends with a commitment to
the witness root and the nonce of 32 bytes its first input's witness holds.
-/
theorem checkWitnessCommitment_committed {block : CBlock} {coinbase : CTransaction}
    {others : List CTransaction} {txin : CTxIn} {ins : List CTxIn} {nonce : valtype}
    {outs : List CTxOut} {root : uint256} {mutated : Bool} {nValue : CAmount}
    (vtx : block.vtx = coinbase :: others) (vin : coinbase.vin = txin :: ins)
    (witness : txin.scriptWitness.stack = [nonce]) (nonceSize : nonce.length = 32)
    (rooted : BlockWitnessMerkleRoot hashes block = some (root, mutated))
    (vout : coinbase.vout =
      outs ++ [⟨nValue, commitmentScript (hashes.Hash (root.toByteVector ++ nonce))⟩]) :
    checkWitnessCommitment hashes true block = some (.ok true) := by
  have index : GetWitnessCommitmentIndex block = some outs.length := by
    rw [GetWitnessCommitmentIndex, vtx]
    dsimp only
    rw [vout]
    exact (@commitmentFrom_append ⟨nValue, _⟩ (isWitnessCommitment_commitmentScript _) outs 0
      none).trans (congrArg some (Nat.zero_add _))
  have commitment : coinbase.vout[outs.length]? =
      some ⟨nValue, commitmentScript (hashes.Hash (root.toByteVector ++ nonce))⟩ := by
    simp [vout]
  simp [checkWitnessCommitment, index, vtx, rooted, vin, witness, nonceSize, commitment,
    commitmentScript_hash]

/--
What `GenerateCoinbaseCommitment` builds from a block whose coinbase has no
commitment and no witness: a coinbase whose last output commits to the
witness root and the miner's nonce, which its first input's witness holds.
-/
theorem GenerateCoinbaseCommitment_committed {block block' : CBlock} {commitment : List UInt8}
    (noCommitment : GetWitnessCommitmentIndex block = none)
    (noWitness : ∀ coinbase ∈ block.vtx.head?, coinbase.HasWitness = false)
    (generated : GenerateCoinbaseCommitment hashes true true block = some (commitment, block')) :
    ∃ coinbase others txin ins outs root mutated, block'.vtx = coinbase :: others ∧
      coinbase.vin = txin :: ins ∧ txin.scriptWitness.stack = [witnessNonce] ∧
      BlockWitnessMerkleRoot hashes block' = some (root, mutated) ∧
      coinbase.vout =
        outs ++ [⟨0, commitmentScript (hashes.Hash (root.toByteVector ++ witnessNonce))⟩] := by
  obtain ⟨header, vtx⟩ := block
  rcases vtx with _ | ⟨coinbase, others⟩
  · simp [GenerateCoinbaseCommitment, noCommitment, BlockWitnessMerkleRoot] at generated
  have unwitnessed : coinbase.HasWitness = false := noWitness coinbase rfl
  rcases rooted : BlockWitnessMerkleRoot hashes ⟨header, coinbase :: others⟩ with _ | ⟨root, mutated⟩
  · simp [GenerateCoinbaseCommitment, noCommitment, rooted] at generated
  let out : CTxOut := ⟨0, commitmentScript (hashes.Hash (root.toByteVector ++ witnessNonce))⟩
  let committed := MakeTransactionRef hashes { coinbase with vout := coinbase.vout ++ [out] }
  have firstStage : GenerateCoinbaseCommitment hashes true true ⟨header, coinbase :: others⟩ =
      (UpdateUncommittedBlockStructures hashes true ⟨header, committed :: others⟩).bind
        fun block => some (out.scriptPubKey, block) := by
    simp only [GenerateCoinbaseCommitment, noCommitment, Option.isNone_none, Bool.and_self,
      if_true, rooted]
    rfl
  have index : GetWitnessCommitmentIndex ⟨header, committed :: others⟩ = some coinbase.vout.length := by
    rw [GetWitnessCommitmentIndex]
    exact (@commitmentFrom_append out (isWitnessCommitment_commitmentScript _) coinbase.vout 0
      none).trans (congrArg some (Nat.zero_add _))
  have stillUnwitnessed : committed.HasWitness = false := unwitnessed
  rw [firstStage, UpdateUncommittedBlockStructures, index] at generated
  dsimp only at generated
  rw [stillUnwitnessed] at generated
  rcases vin : coinbase.vin with _ | ⟨txin, ins⟩
  · have noInputs : committed.vin = [] := vin
    simp [noInputs] at generated
  have inputs : committed.vin = txin :: ins := vin
  simp only [inputs, Bool.not_false, Bool.and_self, if_true, Option.bind_some,
    Option.some.injEq, Prod.mk.injEq] at generated
  obtain ⟨-, rfl⟩ := generated
  exact ⟨_, others, _, ins, coinbase.vout, root, mutated, rfl, rfl, rfl, rooted, rfl⟩

/-- The witness check accepts every block `GenerateCoinbaseCommitment` commits. -/
theorem checkWitnessCommitment_generated {block block' : CBlock} {commitment : List UInt8}
    (noCommitment : GetWitnessCommitmentIndex block = none)
    (noWitness : ∀ coinbase ∈ block.vtx.head?, coinbase.HasWitness = false)
    (generated : GenerateCoinbaseCommitment hashes true true block = some (commitment, block')) :
    checkWitnessCommitment hashes true block' = some (.ok true) := by
  obtain ⟨coinbase, others, txin, ins, outs, root, mutated, vtx, vin, witness, rooted, vout⟩ :=
    GenerateCoinbaseCommitment_committed noCommitment noWitness generated
  exact checkWitnessCommitment_committed vtx vin witness (by rfl) rooted vout

/--
A block whose coinbase `GenerateCoinbaseCommitment` has committed passes
`ContextualCheckBlock` with segwit active wherever it passes the checks that
read no witness: the finality of its transactions, the height and the weight.
-/
theorem ContextualCheckBlock_generated {BIP34Height : Int} {fCSVActive : Bool}
    {nTime : CBlockIndex → Int} {block block' : CBlock} {commitment : List UInt8}
    {pindexPrev : CBlockIndex}
    (noCommitment : GetWitnessCommitmentIndex block = none)
    (noWitness : ∀ coinbase ∈ block.vtx.head?, coinbase.HasWitness = false)
    (generated : GenerateCoinbaseCommitment hashes true true block = some (commitment, block'))
    (final : ∀ tx ∈ block'.vtx,
      IsFinalTx tx (heightAbove pindexPrev) (lockTimeCutoff fCSVActive nTime block' pindexPrev) = true)
    (heightOk : checkCoinbaseHeight BIP34Height (heightAbove pindexPrev) block' = some (.ok ()))
    (weightOk : GetBlockWeight block' ≤ MAX_BLOCK_WEIGHT) :
    ContextualCheckBlock hashes BIP34Height fCSVActive true nTime block' pindexPrev = some (.ok ()) := by
  have allFinal : (block'.vtx.all fun tx =>
      IsFinalTx tx (heightAbove pindexPrev) (lockTimeCutoff fCSVActive nTime block' pindexPrev)) =
        true :=
    List.all_eq_true.mpr final
  simp [ContextualCheckBlock, allFinal, heightOk,
    checkWitnessCommitment_generated noCommitment noWitness generated, Nat.not_lt.mpr weightOk]

end Commitment

/-- Block 1 with `putCoinbase`, and its commitment, after `GenerateCoinbaseCommitment` with segwit active. -/
def committedPutCoinbaseBlock : List UInt8 × CBlock :=
  (GenerateCoinbaseCommitment constantHashes true true putCoinbaseBlock).getD ([], putCoinbaseBlock)

theorem ContextualCheckBlock_generated_putCoinbase :
    ContextualCheckBlock constantHashes 1 false true (fun _ => 0) committedPutCoinbaseBlock.2
      mainGenesisIndex = some (.ok ()) :=
  have generated : GenerateCoinbaseCommitment constantHashes true true putCoinbaseBlock =
      some (committedPutCoinbaseBlock.1, committedPutCoinbaseBlock.2) := by
    decide +kernel
  ContextualCheckBlock_generated (by decide) (fun _ found => by cases found; rfl) generated
    (by decide +kernel) (by decide +kernel) (by decide +kernel)

end Kevacoin
