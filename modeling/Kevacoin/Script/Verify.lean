import Kevacoin.Script.Interpreter
import Kevacoin.Primitives.Transaction

/-!
# Verifying a spend

`VerifyScript` and `VerifyWitnessProgram` in `script/interpreter.cpp`, the
script flags blocks and the mempool verify with (`GetBlockScriptFlags` in
`validation.cpp`, `STANDARD_SCRIPT_VERIFY_FLAGS` in `policy/policy.h`),
and `GetScriptForDestination` of `script/standard.cpp`.

`VerifyScript` evaluates the unlocking script, then the locking script on
the stack it leaves; then, with `SCRIPT_VERIFY_WITNESS`, a locking script
that is a witness program is checked against the witness; with
`SCRIPT_VERIFY_P2SH`, a locking script that `IsPayToScriptHash(true)`
recognises has its redeem script run.  The model follows the source's
stages, each as a function: the two evaluations (`evalScripts`), the bare
witness program (`verifyBareWitness`), pay-to-script-hash (`verifyP2SH`)
and the final checks (`verifyFinal`).

Two tests that both look at the locking script differ on keva outputs:
`IsPayToScriptHash(true)` strips a keva prefix before it looks,
`IsWitnessProgram` does not.
-/

namespace Kevacoin

open ScriptError

/-- How `VerifyScript` returns `false`, or fails an `assert`. -/
inductive VerifyFailure where
  | scriptError (serror : ScriptError)
  | assertFailure
deriving DecidableEq, Repr

/-! ## Flags -/

/--
`GetBlockScriptFlags`, given which deployments are active at the block:
BIP16, BIP66, BIP65, CSV and segregated witness.
-/
def GetBlockScriptFlags (bip16 bip66 bip65 csv witness : Bool) : UInt32 :=
  (if bip16 then SCRIPT_VERIFY_P2SH else 0) |||
    (if bip66 then SCRIPT_VERIFY_DERSIG else 0) |||
    (if bip65 then SCRIPT_VERIFY_CHECKLOCKTIMEVERIFY else 0) |||
    (if csv then SCRIPT_VERIFY_CHECKSEQUENCEVERIFY else 0) |||
    (if witness then SCRIPT_VERIFY_WITNESS ||| SCRIPT_VERIFY_NULLDUMMY else 0)

/-- `MANDATORY_SCRIPT_VERIFY_FLAGS`. -/
def MANDATORY_SCRIPT_VERIFY_FLAGS : UInt32 := SCRIPT_VERIFY_P2SH

/-- `STANDARD_SCRIPT_VERIFY_FLAGS`: what the mempool verifies inputs with. -/
def STANDARD_SCRIPT_VERIFY_FLAGS : UInt32 :=
  MANDATORY_SCRIPT_VERIFY_FLAGS ||| SCRIPT_VERIFY_DERSIG ||| SCRIPT_VERIFY_STRICTENC |||
    SCRIPT_VERIFY_MINIMALDATA ||| SCRIPT_VERIFY_NULLDUMMY |||
    SCRIPT_VERIFY_DISCOURAGE_UPGRADABLE_NOPS ||| SCRIPT_VERIFY_CLEANSTACK |||
    SCRIPT_VERIFY_MINIMALIF ||| SCRIPT_VERIFY_NULLFAIL ||| SCRIPT_VERIFY_CHECKLOCKTIMEVERIFY |||
    SCRIPT_VERIFY_CHECKSEQUENCEVERIFY ||| SCRIPT_VERIFY_LOW_S ||| SCRIPT_VERIFY_WITNESS |||
    SCRIPT_VERIFY_DISCOURAGE_UPGRADABLE_WITNESS_PROGRAM ||| SCRIPT_VERIFY_WITNESS_PUBKEYTYPE |||
    SCRIPT_VERIFY_CONST_SCRIPTCODE

/-! ## Destinations -/

/-- `CTxDestination`, without `WitnessUnknown`. -/
inductive CTxDestination where
  | noDestination
  | keyID (id : uint160)
  | scriptID (id : uint160)
  | witnessV0KeyHash (id : uint160)
  | witnessV0ScriptHash (id : uint256)
deriving DecidableEq, Repr

/-- `GetScriptForDestination`. -/
def GetScriptForDestination : CTxDestination → CScript
  | .noDestination => []
  | .keyID id =>
      pushOpcode (pushOpcode (pushData (pushOpcode (pushOpcode [] OP_DUP) OP_HASH160)
        id.toByteVector) OP_EQUALVERIFY) OP_CHECKSIG
  | .scriptID id => pushOpcode (pushData (pushOpcode [] OP_HASH160) id.toByteVector) OP_EQUAL
  | .witnessV0KeyHash id => pushData (pushOpcode [] OP_0) id.toByteVector
  | .witnessV0ScriptHash id => pushData (pushOpcode [] OP_0) id.toByteVector

/-- A witness key hash has twenty bytes. -/
theorem length_toByteVector (id : uint160) : id.toByteVector.length = 20 := by
  simp [uint160.toByteVector]

/-- The script of a witness key hash: `OP_0`, the length twenty, the hash. -/
theorem witnessV0KeyHash_eq (id : uint160) :
    GetScriptForDestination (.witnessV0KeyHash id) = OP_0 :: 20 :: id.toByteVector := by
  have header : pushHeader id.toByteVector = [20] := by
    simp [pushHeader, length_toByteVector, OP_PUSHDATA1]
  simp [GetScriptForDestination, pushData, pushOpcode, header]

/-- The script of a witness key hash pushes the empty vector, for `OP_0`, then the hash. -/
theorem witnessV0KeyHash_eq_pushAll (id : uint160) :
    GetScriptForDestination (.witnessV0KeyHash id) = pushAll [] [[], id.toByteVector] := rfl

/-- The script of a witness key hash is a version 0 program of the hash. -/
theorem isWitnessProgram_witnessV0KeyHash (id : uint160) :
    isWitnessProgram (GetScriptForDestination (.witnessV0KeyHash id)) =
      some (0, id.toByteVector) := by
  rw [witnessV0KeyHash_eq]
  simp [isWitnessProgram, length_toByteVector, decodeOP_N]

/-! ## Witness programs -/

section Verification

variable (crypto : ScriptCrypto) (flags : UInt32) (checker : BaseSignatureChecker)

/--
The script and initial stack of a version 0 witness program: the witness
script, whose SHA-256 is a 32-byte program, or the pay-to-pubkey-hash
script of a 20-byte program.  A witness stack lists its bottom first.
-/
def witnessV0Script (witness : CScriptWitness) (program : valtype) :
    Except ScriptError (CScript × List valtype) :=
  if program.length = 32 then
    match witness.stack.getLast? with
    | none => .error SCRIPT_ERR_WITNESS_PROGRAM_WITNESS_EMPTY
    | some scriptPubKey =>
        if crypto.SHA256 scriptPubKey ≠ program then .error SCRIPT_ERR_WITNESS_PROGRAM_MISMATCH
        else .ok (scriptPubKey, witness.stack.dropLast.reverse)
  else if program.length = 20 then
    if witness.stack.length ≠ 2 then .error SCRIPT_ERR_WITNESS_PROGRAM_MISMATCH
    else
      .ok (pushOpcode (pushOpcode (pushData (pushOpcode (pushOpcode [] OP_DUP) OP_HASH160)
        program) OP_EQUALVERIFY) OP_CHECKSIG, witness.stack.reverse)
  else .error SCRIPT_ERR_WITNESS_PROGRAM_WRONG_LENGTH

/-- `VerifyWitnessProgram`. -/
def VerifyWitnessProgram (witness : CScriptWitness) (witversion : Nat) (program : valtype) :
    Except ScriptError Unit :=
  if witversion = 0 then
    match witnessV0Script crypto witness program with
    | .error serror => .error serror
    | .ok (scriptPubKey, stack) =>
        if stack.any (fun item => decide (item.length > MAX_SCRIPT_ELEMENT_SIZE)) then
          .error SCRIPT_ERR_PUSH_SIZE
        else
          match EvalScript crypto scriptPubKey flags checker .SIGVERSION_WITNESS_V0 stack with
          | .error serror => .error serror
          | .ok stack =>
              if stack.length ≠ 1 then .error SCRIPT_ERR_EVAL_FALSE
              else if !CastToBool (stack.headD []) then .error SCRIPT_ERR_EVAL_FALSE
              else .ok ()
  else if hasFlag flags SCRIPT_VERIFY_DISCOURAGE_UPGRADABLE_WITNESS_PROGRAM then
    .error SCRIPT_ERR_DISCOURAGE_UPGRADABLE_WITNESS_PROGRAM
  else .ok ()

/-! ## `VerifyScript` -/

/--
The two evaluations of `VerifyScript`: the unlocking script on an empty
stack, then the locking script, which must leave a true value on top.
The result is the stack, and the copy of the first stack kept for P2SH.
-/
def evalScripts (scriptSig scriptPubKey : CScript) :
    Except ScriptError (List valtype × List valtype) :=
  if hasFlag flags SCRIPT_VERIFY_SIGPUSHONLY && !isPushOnly scriptSig then
    .error SCRIPT_ERR_SIG_PUSHONLY
  else
    match EvalScript crypto scriptSig flags checker .SIGVERSION_BASE [] with
    | .error serror => .error serror
    | .ok stack =>
        let stackCopy := if hasFlag flags SCRIPT_VERIFY_P2SH then stack else []
        match EvalScript crypto scriptPubKey flags checker .SIGVERSION_BASE stack with
        | .error serror => .error serror
        | .ok [] => .error SCRIPT_ERR_EVAL_FALSE
        | .ok (top :: rest) =>
            if !CastToBool top then .error SCRIPT_ERR_EVAL_FALSE else .ok (top :: rest, stackCopy)

/--
A witness program checked against the witness; the stack is then cut to
its bottom element (`stack.resize(1)`).  The result says a witness was used.
-/
def checkWitnessProgram (witness : CScriptWitness) (program : Nat × valtype)
    (stack : List valtype) : Except ScriptError (Bool × List valtype) :=
  match VerifyWitnessProgram crypto flags checker witness program.1 program.2 with
  | .error serror => .error serror
  | .ok () => .ok (true, stack.getLast?.toList)

/-- The bare witness program of `VerifyScript`: whether the locking script is one. -/
def verifyBareWitness (scriptSig scriptPubKey : CScript) (witness : CScriptWitness)
    (stack : List valtype) : Except ScriptError (Bool × List valtype) :=
  if !hasFlag flags SCRIPT_VERIFY_WITNESS then .ok (false, stack)
  else
    match isWitnessProgram scriptPubKey with
    | none => .ok (false, stack)
    | some program =>
        if scriptSig.length ≠ 0 then .error SCRIPT_ERR_WITNESS_MALLEATED
        else checkWitnessProgram crypto flags checker witness program stack

/--
Pay-to-script-hash in `VerifyScript`: for a locking script that
`IsPayToScriptHash(true)` recognises, the redeem script on top of the first
stack is run on the rest of it.
-/
def verifyP2SH (scriptSig scriptPubKey : CScript) (witness : CScriptWitness)
    (stackCopy : List valtype) (hadWitness : Bool) (stack : List valtype) :
    Except VerifyFailure (Bool × List valtype) :=
  if !(hasFlag flags SCRIPT_VERIFY_P2SH && isPayToScriptHash scriptPubKey true) then
    .ok (hadWitness, stack)
  else if !isPushOnly scriptSig then .error (.scriptError SCRIPT_ERR_SIG_PUSHONLY)
  else
    match stackCopy with
    | [] => .error .assertFailure
    | pubKey2 :: rest =>
        match EvalScript crypto pubKey2 flags checker .SIGVERSION_BASE rest with
        | .error serror => .error (.scriptError serror)
        | .ok [] => .error (.scriptError SCRIPT_ERR_EVAL_FALSE)
        | .ok (top :: below) =>
            if !CastToBool top then .error (.scriptError SCRIPT_ERR_EVAL_FALSE)
            else if !hasFlag flags SCRIPT_VERIFY_WITNESS then .ok (hadWitness, top :: below)
            else
              match isWitnessProgram pubKey2 with
              | none => .ok (hadWitness, top :: below)
              | some program =>
                  if scriptSig ≠ pushData [] pubKey2 then
                    .error (.scriptError SCRIPT_ERR_WITNESS_MALLEATED_P2SH)
                  else
                    match checkWitnessProgram crypto flags checker witness program
                        (top :: below) with
                    | .error serror => .error (.scriptError serror)
                    | .ok result => .ok result

/-- The checks that end `VerifyScript`: a clean stack, and no unexpected witness. -/
def verifyFinal (witness : CScriptWitness) (hadWitness : Bool) (stack : List valtype) :
    Except VerifyFailure Unit :=
  if hasFlag flags SCRIPT_VERIFY_CLEANSTACK &&
      !(hasFlag flags SCRIPT_VERIFY_P2SH && hasFlag flags SCRIPT_VERIFY_WITNESS) then
    .error .assertFailure
  else if hasFlag flags SCRIPT_VERIFY_CLEANSTACK && stack.length ≠ 1 then
    .error (.scriptError SCRIPT_ERR_CLEANSTACK)
  else if hasFlag flags SCRIPT_VERIFY_WITNESS && !hasFlag flags SCRIPT_VERIFY_P2SH then
    .error .assertFailure
  else if hasFlag flags SCRIPT_VERIFY_WITNESS && !hadWitness && !witness.stack.isEmpty then
    .error (.scriptError SCRIPT_ERR_WITNESS_UNEXPECTED)
  else .ok ()

/-- `VerifyScript`: `.ok ()` where it returns `true`. -/
def VerifyScript (scriptSig scriptPubKey : CScript) (witness : CScriptWitness) :
    Except VerifyFailure Unit :=
  match evalScripts crypto flags checker scriptSig scriptPubKey with
  | .error serror => .error (.scriptError serror)
  | .ok (stack, stackCopy) =>
      match verifyBareWitness crypto flags checker scriptSig scriptPubKey witness stack with
      | .error serror => .error (.scriptError serror)
      | .ok (hadWitness, stack) =>
          match verifyP2SH crypto flags checker scriptSig scriptPubKey witness stackCopy
              hadWitness stack with
          | .error failure => .error failure
          | .ok (hadWitness, stack) => verifyFinal flags witness hadWitness stack

end Verification

/-! ## The stages of `VerifyScript` -/

section Stages

variable {crypto : ScriptCrypto} {flags : UInt32} {checker : BaseSignatureChecker}

/-- A version 0 program of twenty bytes wants exactly two witness elements. -/
theorem VerifyWitnessProgram_keyHash_mismatch {witness : CScriptWitness} {program : valtype}
    (twenty : program.length = 20) (count : witness.stack.length ≠ 2) :
    VerifyWitnessProgram crypto flags checker witness 0 program =
      .error SCRIPT_ERR_WITNESS_PROGRAM_MISMATCH := by
  simp [VerifyWitnessProgram, witnessV0Script, twenty, count]

/-- With an empty unlocking script the locking script runs on an empty stack. -/
theorem evalScripts_of_empty_scriptSig {scriptPubKey : CScript} {top : valtype}
    {rest : List valtype}
    (ran : EvalScript crypto scriptPubKey flags checker .SIGVERSION_BASE [] = .ok (top :: rest))
    (truthy : CastToBool top = true) :
    evalScripts crypto flags checker [] scriptPubKey = .ok (top :: rest, []) := by
  have pushOnly : isPushOnly [] = true := rfl
  simp [evalScripts, pushOnly, EvalScript_nil, ran, truthy]

/-- A locking script that is no witness program skips the witness stage. -/
theorem verifyBareWitness_of_none {scriptSig scriptPubKey : CScript} {witness : CScriptWitness}
    {stack : List valtype} (notProgram : isWitnessProgram scriptPubKey = none) :
    verifyBareWitness crypto flags checker scriptSig scriptPubKey witness stack =
      .ok (false, stack) := by
  simp [verifyBareWitness, notProgram]

/-- A locking script that `IsPayToScriptHash(true)` rejects skips the P2SH stage. -/
theorem verifyP2SH_of_not {scriptSig scriptPubKey : CScript} {witness : CScriptWitness}
    {stackCopy stack : List valtype} {hadWitness : Bool}
    (notP2SH : isPayToScriptHash scriptPubKey true = false) :
    verifyP2SH crypto flags checker scriptSig scriptPubKey witness stackCopy hadWitness stack =
      .ok (hadWitness, stack) := by
  simp [verifyP2SH, notP2SH]

/-- Backwards: evaluations that succeed leave what the locking script left on some stack. -/
theorem evalScripts_eq_ok {scriptSig scriptPubKey : CScript} {stack stackCopy : List valtype}
    (evaluated : evalScripts crypto flags checker scriptSig scriptPubKey = .ok (stack, stackCopy)) :
    ∃ unlocked, EvalScript crypto scriptPubKey flags checker .SIGVERSION_BASE unlocked = .ok stack := by
  unfold evalScripts at evaluated
  by_cases refused : (hasFlag flags SCRIPT_VERIFY_SIGPUSHONLY && !isPushOnly scriptSig) = true
  · rw [if_pos refused] at evaluated
    cases evaluated
  rw [if_neg refused] at evaluated
  cases unlocked : EvalScript crypto scriptSig flags checker .SIGVERSION_BASE [] with
  | error serror => simp [unlocked] at evaluated
  | ok unlockedStack =>
      refine ⟨unlockedStack, ?_⟩
      cases ran : EvalScript crypto scriptPubKey flags checker .SIGVERSION_BASE unlockedStack with
      | error serror => simp [unlocked, ran] at evaluated
      | ok left =>
          cases left with
          | nil => simp [unlocked, ran] at evaluated
          | cons top rest =>
              simp [unlocked, ran] at evaluated
              by_cases falsy : CastToBool top = false
              · rw [if_pos falsy] at evaluated
                cases evaluated
              · rw [if_neg falsy] at evaluated
                cases evaluated
                rfl

/-- A locking script that fails on every stack fails the evaluations, whatever unlocks it. -/
theorem evalScripts_error_of_pubKey {scriptSig scriptPubKey : CScript}
    (fails : ∀ stack, ∃ serror,
      EvalScript crypto scriptPubKey flags checker .SIGVERSION_BASE stack = .error serror) :
    ∃ serror, evalScripts crypto flags checker scriptSig scriptPubKey = .error serror := by
  unfold evalScripts
  by_cases refused : (hasFlag flags SCRIPT_VERIFY_SIGPUSHONLY && !isPushOnly scriptSig) = true
  · exact ⟨_, if_pos refused⟩
  · rw [if_neg refused]
    cases unlocked : EvalScript crypto scriptSig flags checker .SIGVERSION_BASE [] with
    | error serror => exact ⟨serror, rfl⟩
    | ok stack =>
        obtain ⟨serror, failed⟩ := fails stack
        exact ⟨serror, by simp only [failed]⟩

end Stages

/-! ## Outputs nobody can spend -/

/--
An output that `IsUnspendable` recognises, which `AddCoin` therefore never
stores, is spent by no unlocking script and no witness, under any flags.
-/
theorem VerifyScript_ne_ok_of_isUnspendable (crypto : ScriptCrypto) (flags : UInt32)
    (checker : BaseSignatureChecker) (scriptSig : CScript) (witness : CScriptWitness)
    {scriptPubKey : CScript} (unspendable : isUnspendable scriptPubKey = true) :
    VerifyScript crypto flags checker scriptSig scriptPubKey witness ≠ .ok () := by
  have fails : ∀ stack, ∃ serror,
      EvalScript crypto scriptPubKey flags checker .SIGVERSION_BASE stack = .error serror :=
    fun stack => EvalScript_of_isUnspendable unspendable stack
  obtain ⟨serror, failed⟩ : ∃ serror,
      evalScripts crypto flags checker scriptSig scriptPubKey = .error serror :=
    evalScripts_error_of_pubKey fails
  rw [VerifyScript, failed]
  simp

/-- An output that is only `OP_RETURN`, spent with nothing under the standard flags. -/
theorem op_return_output_never_verifies :
    isUnspendable [OP_RETURN] = true ∧
      VerifyScript ⟨id, id, id, id, id, fun _ => true⟩ STANDARD_SCRIPT_VERIFY_FLAGS
        ⟨fun _ _ _ _ => true, fun _ => true, fun _ => true⟩ [] [OP_RETURN] ⟨[]⟩ ≠ .ok () :=
  ⟨by decide, VerifyScript_ne_ok_of_isUnspendable _ _ _ [] ⟨[]⟩ (by decide)⟩

end Kevacoin
