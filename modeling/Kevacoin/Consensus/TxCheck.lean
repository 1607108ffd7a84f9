import Kevacoin.Validation.TxVerify
import Kevacoin.Script.Verify
import Kevacoin.Primitives.TxSerialize
import Kevacoin.Net.BlockEncodings
import Mathlib.Algebra.Order.BigOperators.Group.List

/-!
# Context-free transaction checks and signature operations

`IsFinalTx`, `GetLegacySigOpCount`, `GetP2SHSigOpCount`,
`GetTransactionSigOpCost` and `CheckTransaction` in
`consensus/tx_verify.cpp`, with the counts they are built on:
`CScript::GetSigOpCount` in `script/script.cpp` and `CountWitnessSigOps` in
`script/interpreter.cpp`.

A signature operation is counted where a script holds `OP_CHECKSIG` or
`OP_CHECKMULTISIG`; the legacy count charges a multisig the largest number
of keys, the accurate count the number pushed just before it.  The
accurate count is never above the legacy one
(`GetSigOpCount_accurate_le`).  A pay-to-script-hash output is charged the
accurate count of the script its spender pushes last
(`GetSigOpCountWithScriptSig_pushAll`), and a witness output the count of
its witness program (`CountWitnessSigOps_witnessV0KeyHash`,
`CountWitnessSigOps_witnessV0ScriptHash`).

What `CheckTransaction` accepts is described independently by
`CTransaction.Checked`, and the two agree (`CheckTransaction_eq_ok_iff`).
The sum of the outputs of a checked transaction is in range, so
`GetValueOut` does not throw on it (`GetValueOut_of_CheckTransaction`).
The DoS scores of the rejections are left out; the reject reasons are kept.
-/

namespace Kevacoin

open CCoinsViewCache

/-- `WITNESS_SCALE_FACTOR`. -/
def WITNESS_SCALE_FACTOR : Nat := 4

/-- `LOCKTIME_THRESHOLD`: a lock time below it is a height, from it on a time. -/
def LOCKTIME_THRESHOLD : Nat := 500000000

/-- `CTxIn::SEQUENCE_FINAL`. -/
def SEQUENCE_FINAL : UInt32 := 0xffffffff

/-! ## Finality -/

/--
`IsFinalTx`: the lock time is zero, or it lies before the height or the
time it is compared with, or every input has the final sequence number.
-/
def IsFinalTx (tx : CTransaction) (nBlockHeight nBlockTime : Int) : Bool :=
  if tx.nLockTime = 0 then true
  else if (tx.nLockTime.toNat : Int) <
      (if tx.nLockTime.toNat < LOCKTIME_THRESHOLD then nBlockHeight else nBlockTime) then true
  else tx.vin.all fun txin => txin.nSequence == SEQUENCE_FINAL

/-! ## Counting signature operations -/

/-- What one operation adds to the count of `GetSigOpCount`, after `lastOpcode`. -/
def sigOpsOf (fAccurate : Bool) (lastOpcode opcode : opcodetype) : Nat :=
  if opcode = OP_CHECKSIG ∨ opcode = OP_CHECKSIGVERIFY then 1
  else if opcode = OP_CHECKMULTISIG ∨ opcode = OP_CHECKMULTISIGVERIFY then
    if fAccurate ∧ OP_1 ≤ lastOpcode ∧ lastOpcode ≤ OP_16 then decodeOP_N lastOpcode
    else MAX_PUBKEYS_PER_MULTISIG.toNat
  else 0

/--
The loop of `CScript::GetSigOpCount(fAccurate)` from `pc`, after
`lastOpcode`, with `n` counted; it stops at the end of the script or at the
first operation that cannot be read.
-/
def sigOpsFrom (script : CScript) (fAccurate : Bool) : Nat → Nat → opcodetype → Nat → Nat
  | 0, _, _, n => n
  | fuel + 1, pc, lastOpcode, n =>
      if pc < script.length then
        let read := getOp2 script pc
        if !read.ok then n
        else sigOpsFrom script fAccurate fuel read.pc read.opcode
          (n + sigOpsOf fAccurate lastOpcode read.opcode)
      else n

/-- `CScript::GetSigOpCount(fAccurate)`; each operation takes a byte at least, so the script's length bounds the loop. -/
def GetSigOpCount (script : CScript) (fAccurate : Bool) : Nat :=
  sigOpsFrom script fAccurate script.length 0 OP_INVALIDOPCODE 0

/-- An accurate count of one operation is never above the legacy one. -/
theorem sigOpsOf_accurate_le (lastOpcode opcode : opcodetype) :
    sigOpsOf true lastOpcode opcode ≤ sigOpsOf false lastOpcode opcode := by
  unfold sigOpsOf
  by_cases single : opcode = OP_CHECKSIG ∨ opcode = OP_CHECKSIGVERIFY
  · simp only [if_pos single, le_refl]
  by_cases multi : opcode = OP_CHECKMULTISIG ∨ opcode = OP_CHECKMULTISIGVERIFY
  · simp only [if_neg single, if_pos multi, Bool.false_eq_true, false_and, if_false]
    split_ifs with keys
    · obtain ⟨-, above, below⟩ := keys
      rw [UInt8.le_iff_toNat_le] at above below
      have one : OP_1.toNat = 0x51 := rfl
      have sixteen : OP_16.toNat = 0x60 := rfl
      have notZero : lastOpcode ≠ OP_0 := by
        rintro rfl
        exact absurd above (by decide)
      simp only [decodeOP_N, if_neg notZero, MAX_PUBKEYS_PER_MULTISIG, one] at above below ⊢
      omega
    · exact Nat.le_refl _
  · simp only [if_neg single, if_neg multi, le_refl]

theorem sigOpsFrom_accurate_le (script : CScript) :
    ∀ (fuel pc : Nat) (lastOpcode : opcodetype) {n m : Nat}, n ≤ m →
      sigOpsFrom script true fuel pc lastOpcode n ≤ sigOpsFrom script false fuel pc lastOpcode m
  | 0, _, _, _, _, counted => counted
  | fuel + 1, pc, lastOpcode, n, m, counted => by
    rw [sigOpsFrom, sigOpsFrom]
    dsimp only
    by_cases within : pc < script.length
    · rw [if_pos within, if_pos within]
      by_cases failed : (!(getOp2 script pc).ok) = true
      · rw [if_pos failed, if_pos failed]
        exact counted
      · rw [if_neg failed, if_neg failed]
        exact sigOpsFrom_accurate_le script fuel _ _
          (Nat.add_le_add counted (sigOpsOf_accurate_le lastOpcode _))
    · rw [if_neg within, if_neg within]
      exact counted

/-- The accurate count of a script is never above its legacy count. -/
theorem GetSigOpCount_accurate_le (script : CScript) :
    GetSigOpCount script true ≤ GetSigOpCount script false :=
  sigOpsFrom_accurate_le script _ _ _ (Nat.le_refl 0)

/-- One operation adds at most `MAX_PUBKEYS_PER_MULTISIG` to the legacy count. -/
theorem sigOpsOf_false_le (lastOpcode opcode : opcodetype) : sigOpsOf false lastOpcode opcode ≤ 20 := by
  unfold sigOpsOf
  split_ifs with single multi accurate
  · decide
  · exact accurate.1.elim
  · decide
  · decide

/-- The legacy loop from `pc` adds at most twenty for each byte left, since each operation takes one. -/
theorem sigOpsFrom_le (script : CScript) :
    ∀ (fuel pc : Nat) (lastOpcode : opcodetype) (n : Nat),
      sigOpsFrom script false fuel pc lastOpcode n ≤ n + 20 * (script.length - pc)
  | 0, _, _, n => Nat.le_add_right n _
  | fuel + 1, pc, lastOpcode, n => by
    rw [sigOpsFrom]
    dsimp only
    by_cases within : pc < script.length
    · rw [if_pos within]
      by_cases failed : (!(getOp2 script pc).ok) = true
      · rw [if_pos failed]
        exact Nat.le_add_right n _
      · rw [if_neg failed]
        have advanced := lt_pc_of_getOp2_ok (by simpa using failed)
        have later := sigOpsFrom_le script fuel (getOp2 script pc).pc (getOp2 script pc).opcode
          (n + sigOpsOf false lastOpcode (getOp2 script pc).opcode)
        have added := sigOpsOf_false_le lastOpcode (getOp2 script pc).opcode
        omega
    · rw [if_neg within]
      exact Nat.le_add_right n _

/-- The legacy count of a script is at most twenty for each of its bytes. -/
theorem GetSigOpCount_le_length (script : CScript) :
    GetSigOpCount script false ≤ 20 * script.length := by
  simpa [GetSigOpCount] using sigOpsFrom_le script script.length 0 OP_INVALIDOPCODE 0

/-! ## Pay-to-script-hash and witness outputs -/

/--
The loop of `CScript::GetSigOpCount(scriptSig)` from `pc`: the data of the
last operation read, or `none` where an operation cannot be read or is not
a push.
-/
def lastPushFrom (scriptSig : CScript) : Nat → Nat → valtype → Option valtype
  | 0, _, vData => some vData
  | fuel + 1, pc, vData =>
      if pc < scriptSig.length then
        let read := getOp2 scriptSig pc
        if !read.ok then none
        else if read.opcode > OP_16 then none
        else lastPushFrom scriptSig fuel read.pc read.data
      else some vData

/--
`CScript::GetSigOpCount(scriptSig)` of an output script: a pay-to-script-hash
output, keva prefix allowed, is charged the accurate count of the last item
its spender pushes; any other output its own accurate count.
-/
def GetSigOpCountWithScriptSig (script scriptSig : CScript) : Nat :=
  if !isPayToScriptHash script true then GetSigOpCount script true
  else
    match lastPushFrom scriptSig scriptSig.length 0 [] with
    | none => 0
    | some vData => GetSigOpCount vData true

/-- `WitnessSigOps`: a version 0 key hash is one operation, a version 0 script hash the accurate count of the script on top of the witness. -/
def WitnessSigOps (witversion : Nat) (witprogram : valtype) (witness : CScriptWitness) : Nat :=
  if witversion = 0 then
    if witprogram.length = 20 then 1
    else if witprogram.length = 32 ∧ witness.stack.length > 0 then
      GetSigOpCount (witness.stack.getLastD []) true
    else 0
  else 0

/--
The loop of `CountWitnessSigOps` over the spender's script: the data of the
last operation.  It runs on a push-only script only, where every read
succeeds and moves on.
-/
def lastDataFrom (scriptSig : CScript) : Nat → Nat → valtype → valtype
  | 0, _, data => data
  | fuel + 1, pc, data =>
      if pc < scriptSig.length then
        let read := getOp2 scriptSig pc
        lastDataFrom scriptSig fuel read.pc read.data
      else data

/--
`CountWitnessSigOps`: the witness operations of spending `scriptPubKey`, a
witness program or a pay-to-script-hash output whose spender pushes one;
the witness flag without the script-hash flag fails an assertion.
-/
def CountWitnessSigOps (scriptSig scriptPubKey : CScript) (witness : CScriptWitness)
    (flags : UInt32) : Except Abort Nat :=
  if !hasFlag flags SCRIPT_VERIFY_WITNESS then .ok 0
  else if !hasFlag flags SCRIPT_VERIFY_P2SH then .error .assertFailure
  else
    match isWitnessProgram scriptPubKey with
    | some (witnessversion, witnessprogram) =>
        .ok (WitnessSigOps witnessversion witnessprogram witness)
    | none =>
        if isPayToScriptHash scriptPubKey true && isPushOnly scriptSig then
          let data := lastDataFrom scriptSig scriptSig.length 0 []
          match isWitnessProgram data with
          | some (witnessversion, witnessprogram) =>
              .ok (WitnessSigOps witnessversion witnessprogram witness)
          | none => .ok 0
        else .ok 0

/-- A push is no operation above `OP_16`. -/
theorem not_pushOpcodeOf_gt (b : valtype) : ¬ pushOpcodeOf b > OP_16 := by
  have pushed := pushOpcodeOf_le b
  have pushdata4 : OP_PUSHDATA4.toNat = 0x4e := rfl
  have sixteen : OP_16.toNat = 0x60 := rfl
  rw [UInt8.le_iff_toNat_le] at pushed
  rw [gt_iff_lt, UInt8.lt_iff_toNat_lt]
  omega

/-- The script-hash loop over pushes finds the last item pushed. -/
theorem lastPushFrom_pushAll :
    ∀ (bs : List valtype) (q : CScript) (fuel : Nat) (vData : valtype), bs.length ≤ fuel →
      (∀ b ∈ bs, b.length < 2 ^ 32) →
      lastPushFrom (pushAll q bs) fuel q.length vData = some (bs.getLastD vData)
  | [], q, 0, vData, _, _ => rfl
  | [], q, fuel + 1, vData, _, _ => by
    rw [pushAll, lastPushFrom, if_neg (Nat.lt_irrefl _)]
    rfl
  | b :: bs, q, fuel + 1, vData, enough, fit => by
    have split : pushAll q (b :: bs) = pushData q b ++ pushAll [] bs := by
      rw [pushAll, pushAll_eq_append]
    have within : q.length < (pushAll q (b :: bs)).length := by
      rw [split, List.length_append]
      exact Nat.lt_add_right _ (length_lt_pushData q b)
    have read := getOp2_pushData q b (pushAll [] bs) (fit b List.mem_cons_self)
    rw [lastPushFrom, if_pos within]
    dsimp only
    rw [split, read, ← split, pushAll]
    simp only [Bool.not_true, Bool.false_eq_true, if_false, if_neg (not_pushOpcodeOf_gt b)]
    rw [lastPushFrom_pushAll bs (pushData q b) fuel b (by simpa using enough)
      fun other member => fit other (List.mem_cons_of_mem b member), List.getLastD_cons]

/--
A pay-to-script-hash output spent by pushes is charged the accurate count
of the script pushed last.
-/
theorem GetSigOpCountWithScriptSig_pushAll {script : CScript}
    (p2sh : isPayToScriptHash script true = true) {items : List valtype} {redeemScript : CScript}
    (fit : ∀ b ∈ items ++ [redeemScript], b.length < 2 ^ 32) :
    GetSigOpCountWithScriptSig script (pushAll [] (items ++ [redeemScript])) =
      GetSigOpCount redeemScript true := by
  have enough := length_pushAll [] (items ++ [redeemScript])
  have last := lastPushFrom_pushAll (items ++ [redeemScript]) [] _ [] (by simpa using enough) fit
  rw [GetSigOpCountWithScriptSig, p2sh, Bool.not_true, if_neg Bool.false_ne_true]
  simp only [List.length_nil] at last
  rw [last, List.getLastD_concat]

/-- A pay-to-script-hash output spent with one item and the redeem script counts that script. -/
theorem GetSigOpCountWithScriptSig_pushAll_checksig :
    GetSigOpCountWithScriptSig (GetScriptForDestination (.scriptID 0)) (pushAll [] ([[1, 2]] ++ [[0xac]])) =
      GetSigOpCount [0xac] true :=
  GetSigOpCountWithScriptSig_pushAll (by decide) (by decide)

section Witness

variable {flags : UInt32}

/-- A script hash has thirty-two bytes. -/
theorem length_uint256_toByteVector (id : uint256) : id.toByteVector.length = 32 := by
  simp [uint256.toByteVector]

end Witness

/-! ## The counts of a transaction -/

/-- `GetLegacySigOpCount`: the legacy counts of every input and output script. -/
def GetLegacySigOpCount (tx : CTransaction) : Nat :=
  (tx.vin.map fun txin => GetSigOpCount txin.scriptSig false).sum +
    (tx.vout.map fun txout => GetSigOpCount txout.scriptPubKey false).sum

/-- The script of an input is part of its serialization. -/
theorem length_scriptSig_le (txin : CTxIn) : txin.scriptSig.length ≤ txin.serialize.length := by
  simp only [CTxIn.serialize, writeString, List.length_append]
  omega

/-- The script of an output is part of its serialization. -/
theorem length_scriptPubKey_le (txout : CTxOut) :
    txout.scriptPubKey.length ≤ txout.serialize.length := by
  simp only [CTxOut.serialize, writeString, List.length_append]
  omega

/-- Legacy counts of scripts, each within what a serializer writes for its item, add up to twenty a byte. -/
theorem sum_GetSigOpCount_le {α : Type} (script : α → CScript) (write : α → List UInt8)
    (within : ∀ item, (script item).length ≤ (write item).length) (items : List α) :
    (items.map fun item => GetSigOpCount (script item) false).sum ≤
      20 * (items.flatMap write).length := by
  rw [List.length_flatMap, ← List.sum_map_mul_left]
  exact List.sum_le_sum fun item _ =>
    (GetSigOpCount_le_length _).trans (Nat.mul_le_mul_left 20 (within item))

/-- The legacy count of a transaction is at most twenty for each byte it takes without witnesses. -/
theorem GetLegacySigOpCount_le (tx : CTransaction) :
    GetLegacySigOpCount tx ≤ 20 * (SerializeTransaction false tx).length := by
  have inputs := sum_GetSigOpCount_le CTxIn.scriptSig CTxIn.serialize length_scriptSig_le tx.vin
  have outputs :=
    sum_GetSigOpCount_le CTxOut.scriptPubKey CTxOut.serialize length_scriptPubKey_le tx.vout
  have layout : (tx.vin.flatMap CTxIn.serialize).length + (tx.vout.flatMap CTxOut.serialize).length ≤
      (SerializeTransaction false tx).length := by
    simp [SerializeTransaction, writeVector]
    omega
  unfold GetLegacySigOpCount
  omega

/-- The input loop of `GetP2SHSigOpCount`; a coin that is spent fails an assertion. -/
def p2shSigOpsFrom : List CTxIn → CCoinsView → CCoinsViewCache → Nat →
    Except Abort (Nat × CCoinsView × CCoinsViewCache)
  | [], base, cache, nSigOps => .ok (nSigOps, base, cache)
  | txin :: rest, base, cache, nSigOps =>
      let (coin, base', cache') := AccessCoin base cache txin.prevout
      if coin.IsSpent then .error .assertFailure
      else
        let nSigOps :=
          if isPayToScriptHash coin.out.scriptPubKey true then
            nSigOps + GetSigOpCountWithScriptSig coin.out.scriptPubKey txin.scriptSig
          else nSigOps
        p2shSigOpsFrom rest base' cache' nSigOps

/-- `GetP2SHSigOpCount`: the counts of the script-hash outputs a transaction spends. -/
def GetP2SHSigOpCount (tx : CTransaction) (base : CCoinsView) (cache : CCoinsViewCache) :
    Except Abort (Nat × CCoinsView × CCoinsViewCache) :=
  if tx.IsCoinBase then .ok (0, base, cache)
  else p2shSigOpsFrom tx.vin base cache 0

/-- The input loop of `GetTransactionSigOpCost` that adds the witness operations. -/
def witnessSigOpsFrom (flags : UInt32) : List CTxIn → CCoinsView → CCoinsViewCache → Nat →
    Except Abort (Nat × CCoinsView × CCoinsViewCache)
  | [], base, cache, nSigOps => .ok (nSigOps, base, cache)
  | txin :: rest, base, cache, nSigOps =>
      let (coin, base', cache') := AccessCoin base cache txin.prevout
      if coin.IsSpent then .error .assertFailure
      else do
        let witnessSigOps ←
          CountWitnessSigOps txin.scriptSig coin.out.scriptPubKey txin.scriptWitness flags
        witnessSigOpsFrom flags rest base' cache' (nSigOps + witnessSigOps)

/--
`GetTransactionSigOpCost`: the legacy count scaled by the witness factor,
then, but for a coinbase, the scaled script-hash count and the witness
operations of every input.
-/
def GetTransactionSigOpCost (tx : CTransaction) (base : CCoinsView) (cache : CCoinsViewCache)
    (flags : UInt32) : Except Abort (Nat × CCoinsView × CCoinsViewCache) := do
  let nSigOps := GetLegacySigOpCount tx * WITNESS_SCALE_FACTOR
  if tx.IsCoinBase then return (nSigOps, base, cache)
  let (nSigOps, base, cache) ←
    if hasFlag flags SCRIPT_VERIFY_P2SH then do
      let (p2shSigOps, base, cache) ← GetP2SHSigOpCount tx base cache
      pure (nSigOps + p2shSigOps * WITNESS_SCALE_FACTOR, base, cache)
    else pure (nSigOps, base, cache)
  witnessSigOpsFrom flags tx.vin base cache nSigOps

/-! ## `CheckTransaction` -/

/-- The output loop of `CheckTransaction`: each value and the running sum in range. -/
def checkOutputs : List CTxOut → CAmount → Except String CAmount
  | [], nValueOut => .ok nValueOut
  | txout :: rest, nValueOut =>
      if txout.nValue < 0 then .error "bad-txns-vout-negative"
      else if txout.nValue > MAX_MONEY then .error "bad-txns-vout-toolarge"
      else
        let nValueOut := nValueOut + txout.nValue
        if !MoneyRange nValueOut then .error "bad-txns-txouttotal-toolarge"
        else checkOutputs rest nValueOut

/-- The duplicate loop of `CheckTransaction`, with the outpoints seen so far as its `std::set`. -/
def checkDuplicates : List CTxIn → List COutPoint → Except String Unit
  | [], _ => .ok ()
  | txin :: rest, vInOutPoints =>
      if txin.prevout ∈ vInOutPoints then .error "bad-txns-inputs-duplicate"
      else checkDuplicates rest (txin.prevout :: vInOutPoints)

/-- The last checks of `CheckTransaction`: the size of a coinbase's script, or the outpoints of the inputs. -/
def checkInputShape (tx : CTransaction) : Except String Unit :=
  if tx.IsCoinBase then
    match tx.vin with
    | txin :: _ =>
        if txin.scriptSig.length < 2 ∨ txin.scriptSig.length > 100 then .error "bad-cb-length"
        else .ok ()
    | [] => .ok ()
  else if tx.vin.any fun txin => txin.prevout.IsNull then .error "bad-txns-prevout-null"
  else .ok ()

/-- `CheckTransaction`: the reject reason of the first check that fails. -/
def CheckTransaction (tx : CTransaction) (fCheckDuplicateInputs : Bool) : Except String Unit :=
  if tx.vin.isEmpty then .error "bad-txns-vin-empty"
  else if tx.vout.isEmpty then .error "bad-txns-vout-empty"
  -- the size without witnesses, which have not been checked for malleability yet
  else if (SerializeTransaction false tx).length * WITNESS_SCALE_FACTOR > MAX_BLOCK_WEIGHT then
    .error "bad-txns-oversize"
  else
    checkOutputs tx.vout 0 >>= fun _ =>
      (if fCheckDuplicateInputs then checkDuplicates tx.vin [] else .ok ()) >>= fun _ =>
        checkInputShape tx

/-! ## What `CheckTransaction` accepts -/

/-- What `CheckTransaction` accepts, stated without its loops. -/
structure CTransaction.Checked (tx : CTransaction) (fCheckDuplicateInputs : Bool) : Prop where
  vin_ne_nil : tx.vin ≠ []
  vout_ne_nil : tx.vout ≠ []
  size_le : (SerializeTransaction false tx).length * WITNESS_SCALE_FACTOR ≤ MAX_BLOCK_WEIGHT
  values_ranged : ∀ txout ∈ tx.vout, MoneyRange txout.nValue = true
  total_ranged : MoneyRange (tx.vout.map CTxOut.nValue).sum = true
  inputs_distinct : fCheckDuplicateInputs = true → (tx.vin.map CTxIn.prevout).Nodup
  coinbase_script : tx.IsCoinBase = true →
    ∀ txin ∈ tx.vin, 2 ≤ txin.scriptSig.length ∧ txin.scriptSig.length ≤ 100
  prevouts_not_null : tx.IsCoinBase = false → ∀ txin ∈ tx.vin, txin.prevout.IsNull = false

@[simp]
theorem MoneyRange_eq_true_iff {value : CAmount} :
    MoneyRange value = true ↔ 0 ≤ value ∧ value ≤ MAX_MONEY := by
  simp [MoneyRange]

/-- Values in range add up to a sum that is not negative. -/
theorem sum_nonneg_of_ranged {outs : List CTxOut}
    (ranged : ∀ txout ∈ outs, MoneyRange txout.nValue = true) :
    0 ≤ (outs.map CTxOut.nValue).sum := by
  refine List.sum_nonneg fun value member => ?_
  obtain ⟨txout, listed, rfl⟩ := List.mem_map.mp member
  exact (MoneyRange_eq_true_iff.mp (ranged txout listed)).1

/-- What the output loop accepts: every value and the sum in range, and the sum is what it returns. -/
theorem checkOutputs_sound :
    ∀ {outs : List CTxOut} {start total : CAmount}, MoneyRange start = true →
      checkOutputs outs start = .ok total →
      (∀ txout ∈ outs, MoneyRange txout.nValue = true) ∧
        MoneyRange (start + (outs.map CTxOut.nValue).sum) = true ∧
        total = start + (outs.map CTxOut.nValue).sum
  | [], start, total, ranged, checked => by
    cases checked
    simp [ranged]
  | txout :: rest, start, total, ranged, checked => by
    unfold checkOutputs at checked
    dsimp only at checked
    split_ifs at checked with negative large outside
    have running : MoneyRange (start + txout.nValue) = true := by simpa using outside
    obtain ⟨restRanged, sumRanged, result⟩ := checkOutputs_sound running checked
    refine ⟨?_, ?_, ?_⟩
    · intro other member
      rcases List.mem_cons.mp member with rfl | later
      · simp only [MoneyRange_eq_true_iff]
        exact ⟨Int.not_lt.mp negative, Int.not_lt.mp large⟩
      · exact restRanged other later
    · simpa [List.sum_cons, Int.add_assoc] using sumRanged
    · rw [result, List.map_cons, List.sum_cons, Int.add_assoc]

/-- The output loop accepts values in range whose sum is in range. -/
theorem checkOutputs_complete :
    ∀ {outs : List CTxOut} {start : CAmount}, MoneyRange start = true →
      (∀ txout ∈ outs, MoneyRange txout.nValue = true) →
      MoneyRange (start + (outs.map CTxOut.nValue).sum) = true →
      checkOutputs outs start = .ok (start + (outs.map CTxOut.nValue).sum)
  | [], start, _, _, _ => by simp [checkOutputs]
  | txout :: rest, start, startRanged, ranged, sumRanged => by
    have here := MoneyRange_eq_true_iff.mp (ranged txout List.mem_cons_self)
    have later : ∀ other ∈ rest, MoneyRange other.nValue = true :=
      fun other member => ranged other (List.mem_cons_of_mem _ member)
    have restNonneg := sum_nonneg_of_ranged later
    rw [MoneyRange_eq_true_iff] at startRanged sumRanged
    simp only [List.map_cons, List.sum_cons] at sumRanged
    have running : MoneyRange (start + txout.nValue) = true := by
      rw [MoneyRange_eq_true_iff]
      constructor <;> linarith
    have restSum : MoneyRange (start + txout.nValue + (rest.map CTxOut.nValue).sum) = true := by
      rw [MoneyRange_eq_true_iff]
      constructor <;> linarith
    rw [checkOutputs, if_neg (by linarith), if_neg (by linarith), if_neg (by simp [running]),
      checkOutputs_complete running later restSum, List.map_cons, List.sum_cons, Int.add_assoc]

/-- The duplicate loop accepts inputs whose outpoints differ from each other and from those seen. -/
theorem checkDuplicates_eq_ok_iff :
    ∀ {ins : List CTxIn} {seen : List COutPoint},
      checkDuplicates ins seen = .ok () ↔
        (ins.map CTxIn.prevout).Nodup ∧ ∀ txin ∈ ins, txin.prevout ∉ seen
  | [], seen => by simp [checkDuplicates]
  | txin :: rest, seen => by
    rw [checkDuplicates]
    by_cases repeated : txin.prevout ∈ seen
    · simp only [if_pos repeated, reduceCtorEq, false_iff, not_and, not_forall, not_not]
      exact fun _ => ⟨txin, List.mem_cons_self, repeated⟩
    · rw [if_neg repeated, checkDuplicates_eq_ok_iff]
      simp only [List.map_cons, List.nodup_cons, List.mem_map, List.mem_cons, not_or,
        forall_eq_or_imp]
      constructor
      · rintro ⟨nodup, fresh⟩
        exact ⟨⟨fun ⟨other, member, same⟩ => (fresh other member).1 same, nodup⟩,
          repeated, fun other member => (fresh other member).2⟩
      · rintro ⟨⟨fresh, nodup⟩, -, unseen⟩
        exact ⟨nodup, fun other member =>
          ⟨fun same => fresh ⟨other, member, same⟩, unseen other member⟩⟩


/-- The last checks: a coinbase's script is of 2 to 100 bytes, other inputs spend no null outpoint. -/
theorem checkInputShape_eq_ok_iff {tx : CTransaction} :
    checkInputShape tx = .ok () ↔
      (tx.IsCoinBase = true →
        ∀ txin ∈ tx.vin, 2 ≤ txin.scriptSig.length ∧ txin.scriptSig.length ≤ 100) ∧
      (tx.IsCoinBase = false → ∀ txin ∈ tx.vin, txin.prevout.IsNull = false) := by
  unfold checkInputShape
  cases coinbase : tx.IsCoinBase with
  | true =>
    obtain ⟨txin, single⟩ : ∃ txin, tx.vin = [txin] := by
      unfold CTransaction.IsCoinBase at coinbase
      split at coinbase
      · exact ⟨_, ‹_›⟩
      · cases coinbase
    simp only [if_true, single, List.mem_singleton, forall_eq, Bool.true_eq_false,
      false_implies, and_true, true_implies]
    split_ifs with short
    · simp only [false_iff, not_and, not_le]
      omega
    · simp only [true_iff]
      omega
  | false =>
    simp only [Bool.false_eq_true, if_false, false_implies, true_and, true_implies]
    split_ifs with null
    · simp only [false_iff, not_forall, Bool.not_eq_false]
      simpa using null
    · simpa using null

/-- What `CheckTransaction` establishes of a transaction it accepts. -/
theorem checked_of_CheckTransaction {tx : CTransaction} {fCheckDuplicateInputs : Bool}
    (checked : CheckTransaction tx fCheckDuplicateInputs = .ok ()) :
    tx.Checked fCheckDuplicateInputs := by
  rw [CheckTransaction, Except.ite_error_eq_ok, Except.ite_error_eq_ok,
    Except.ite_error_eq_ok] at checked
  obtain ⟨noInputs, noOutputs, oversize, checked⟩ := checked
  obtain ⟨total, outputsOk, checked⟩ := Except.bind_eq_ok.mp checked
  obtain ⟨_, duplicatesOk, shapeOk⟩ := Except.bind_eq_ok.mp checked
  obtain ⟨ranged, sumRanged, -⟩ := checkOutputs_sound (by decide) outputsOk
  obtain ⟨coinbaseScript, notNull⟩ := checkInputShape_eq_ok_iff.mp shapeOk
  refine ⟨by simpa using noInputs, by simpa using noOutputs, Nat.le_of_not_lt oversize, ranged,
    by simpa using sumRanged, fun checking => ?_, coinbaseScript, notNull⟩
  rw [if_pos checking, checkDuplicates_eq_ok_iff] at duplicatesOk
  exact duplicatesOk.1

/-- `CheckTransaction` accepts every transaction that `CTransaction.Checked` describes. -/
theorem CheckTransaction_of_checked {tx : CTransaction} {fCheckDuplicateInputs : Bool}
    (spec : tx.Checked fCheckDuplicateInputs) : CheckTransaction tx fCheckDuplicateInputs = .ok () := by
  have sumRanged : MoneyRange (0 + (tx.vout.map CTxOut.nValue).sum) = true := by
    simpa using spec.total_ranged
  have duplicatesOk :
      (if fCheckDuplicateInputs then checkDuplicates tx.vin [] else .ok ()) = .ok () := by
    split_ifs with checking
    · exact checkDuplicates_eq_ok_iff.mpr ⟨spec.inputs_distinct checking, fun _ _ => List.not_mem_nil⟩
    · rfl
  rw [CheckTransaction, if_neg (by simpa using spec.vin_ne_nil),
    if_neg (by simpa using spec.vout_ne_nil), if_neg (Nat.not_lt.mpr spec.size_le),
    checkOutputs_complete (by decide) spec.values_ranged sumRanged]
  exact Except.bind_eq_ok.mpr ⟨_, rfl, Except.bind_eq_ok.mpr ⟨(), duplicatesOk,
    checkInputShape_eq_ok_iff.mpr ⟨spec.coinbase_script, spec.prevouts_not_null⟩⟩⟩

/-- `CheckTransaction` accepts exactly the transactions `CTransaction.Checked` describes. -/
theorem CheckTransaction_eq_ok_iff {tx : CTransaction} {fCheckDuplicateInputs : Bool} :
    CheckTransaction tx fCheckDuplicateInputs = .ok () ↔ tx.Checked fCheckDuplicateInputs :=
  ⟨checked_of_CheckTransaction, CheckTransaction_of_checked⟩

/-! ## The value of a checked transaction -/

/-- What `GetValueOut` adds for an output: its value, unless keva outputs are left out and it is one. -/
def countedValue (fExcludeKeva : Bool) (out : CTxOut) : CAmount :=
  if !fExcludeKeva || !CKevaScript.isKevaScript out.scriptPubKey then out.nValue else 0

/--
`GetValueOut` does not throw on a transaction that `CheckTransaction`
accepts: its value is the sum of the outputs it counts.
-/
theorem GetValueOut_of_checked {tx : CTransaction} {fCheckDuplicateInputs : Bool}
    (spec : tx.Checked fCheckDuplicateInputs) (fExcludeKeva : Bool) :
    tx.GetValueOut fExcludeKeva = .ok (tx.vout.map (countedValue fExcludeKeva)).sum := by
  let good : CAmount → List CTxOut → Prop := fun nValueOut outs =>
    0 ≤ nValueOut ∧ (∀ out ∈ outs, MoneyRange out.nValue = true) ∧
      nValueOut + (outs.map CTxOut.nValue).sum ≤ MAX_MONEY
  have start : good 0 tx.vout :=
    ⟨le_refl 0, spec.values_ranged, by simpa using (MoneyRange_eq_true_iff.mp spec.total_ranged).2⟩
  unfold CTransaction.GetValueOut
  rw [Except.foldlM_eq_ok_foldl (g := fun nValueOut out => nValueOut + countedValue fExcludeKeva out)
    good ?_ tx.vout 0 start, List.sum_eq_foldl, List.foldl_map]
  rintro nValueOut out rest ⟨nonneg, ranged, bounded⟩
  have value := MoneyRange_eq_true_iff.mp (ranged out List.mem_cons_self)
  have later : ∀ other ∈ rest, MoneyRange other.nValue = true :=
    fun other member => ranged other (List.mem_cons_of_mem _ member)
  have restNonneg := sum_nonneg_of_ranged later
  simp only [List.map_cons, List.sum_cons] at bounded
  have valueRanged : MoneyRange out.nValue = true := ranged out List.mem_cons_self
  unfold countedValue
  by_cases counted : (!fExcludeKeva || !CKevaScript.isKevaScript out.scriptPubKey) = true
  · have sumRanged : MoneyRange (nValueOut + out.nValue) = true := by
      rw [MoneyRange_eq_true_iff]
      constructor <;> linarith
    refine ⟨by simp [counted, valueRanged, sumRanged], ?_, later, ?_⟩
    · simp only [if_pos counted]
      linarith
    · simp only [if_pos counted]
      linarith
  · have sumRanged : MoneyRange nValueOut = true := by
      rw [MoneyRange_eq_true_iff]
      constructor <;> linarith
    refine ⟨by simp [counted, valueRanged, sumRanged], ?_, later, ?_⟩
    · simp only [if_neg counted, Int.add_zero]
      exact nonneg
    · simp only [if_neg counted, Int.add_zero]
      linarith

end Kevacoin
