import Kevacoin.Script.Script
import Kevacoin.Data.Loop

/-!
# The script interpreter

`EvalScript` in `script/interpreter.cpp`, with everything it calls:
`CScriptNum` (`script/script.h`), `CastToBool`, the push-minimality and
signature-encoding checks, and `CScript::FindAndDelete`.

The interpreter is a loop over the operations of the script.  Its state is
`EvalState`: the main and alternate stacks, the `vfExec` condition stack,
the operation count, the start of the code hashed by signature checks and
the position in the script.  One iteration is `step`: read the operation
(`getOp2`), apply the checks that every operation passes (element size,
operation count, disabled opcodes), run it (`execute`) and check the stack
size.  `EvalScript` runs `step` with `Loop.loop` until the end of the
script, one iteration per operation at most.

Stacks are lists with the top first: `stacktop(-1)` is the head and
`stacktop(-n)` the element at index `n - 1`.  An exception that `EvalScript`
catches (`catch (...)`) becomes `SCRIPT_ERR_UNKNOWN_ERROR`.  Hash functions,
the secp256k1 low-S test and the signature checker are parameters.
`CScriptNum` values are integers: the operands of numeric opcodes have at
most five bytes, far from the 64-bit bounds the source asserts.
-/

namespace Kevacoin

/-! ## Errors, flags and the environment of a run -/

/-- `ScriptError`, without `SCRIPT_ERR_OK`: a success is `Except.ok`. -/
inductive ScriptError where
  | SCRIPT_ERR_UNKNOWN_ERROR
  | SCRIPT_ERR_EVAL_FALSE
  | SCRIPT_ERR_OP_RETURN
  | SCRIPT_ERR_SCRIPT_SIZE
  | SCRIPT_ERR_PUSH_SIZE
  | SCRIPT_ERR_OP_COUNT
  | SCRIPT_ERR_STACK_SIZE
  | SCRIPT_ERR_SIG_COUNT
  | SCRIPT_ERR_PUBKEY_COUNT
  | SCRIPT_ERR_VERIFY
  | SCRIPT_ERR_EQUALVERIFY
  | SCRIPT_ERR_CHECKMULTISIGVERIFY
  | SCRIPT_ERR_CHECKSIGVERIFY
  | SCRIPT_ERR_NUMEQUALVERIFY
  | SCRIPT_ERR_BAD_OPCODE
  | SCRIPT_ERR_DISABLED_OPCODE
  | SCRIPT_ERR_INVALID_STACK_OPERATION
  | SCRIPT_ERR_INVALID_ALTSTACK_OPERATION
  | SCRIPT_ERR_UNBALANCED_CONDITIONAL
  | SCRIPT_ERR_NEGATIVE_LOCKTIME
  | SCRIPT_ERR_UNSATISFIED_LOCKTIME
  | SCRIPT_ERR_SIG_HASHTYPE
  | SCRIPT_ERR_SIG_DER
  | SCRIPT_ERR_MINIMALDATA
  | SCRIPT_ERR_SIG_PUSHONLY
  | SCRIPT_ERR_SIG_HIGH_S
  | SCRIPT_ERR_SIG_NULLDUMMY
  | SCRIPT_ERR_PUBKEYTYPE
  | SCRIPT_ERR_CLEANSTACK
  | SCRIPT_ERR_MINIMALIF
  | SCRIPT_ERR_SIG_NULLFAIL
  | SCRIPT_ERR_DISCOURAGE_UPGRADABLE_NOPS
  | SCRIPT_ERR_DISCOURAGE_UPGRADABLE_WITNESS_PROGRAM
  | SCRIPT_ERR_WITNESS_PROGRAM_WRONG_LENGTH
  | SCRIPT_ERR_WITNESS_PROGRAM_WITNESS_EMPTY
  | SCRIPT_ERR_WITNESS_PROGRAM_MISMATCH
  | SCRIPT_ERR_WITNESS_MALLEATED
  | SCRIPT_ERR_WITNESS_MALLEATED_P2SH
  | SCRIPT_ERR_WITNESS_UNEXPECTED
  | SCRIPT_ERR_WITNESS_PUBKEYTYPE
  | SCRIPT_ERR_OP_CODESEPARATOR
  | SCRIPT_ERR_SIG_FINDANDDELETE
deriving DecidableEq, Repr

open ScriptError

def SCRIPT_VERIFY_P2SH : UInt32 := (1 : UInt32) <<< 0
def SCRIPT_VERIFY_STRICTENC : UInt32 := (1 : UInt32) <<< 1
def SCRIPT_VERIFY_DERSIG : UInt32 := (1 : UInt32) <<< 2
def SCRIPT_VERIFY_LOW_S : UInt32 := (1 : UInt32) <<< 3
def SCRIPT_VERIFY_NULLDUMMY : UInt32 := (1 : UInt32) <<< 4
def SCRIPT_VERIFY_SIGPUSHONLY : UInt32 := (1 : UInt32) <<< 5
def SCRIPT_VERIFY_MINIMALDATA : UInt32 := (1 : UInt32) <<< 6
def SCRIPT_VERIFY_DISCOURAGE_UPGRADABLE_NOPS : UInt32 := (1 : UInt32) <<< 7
def SCRIPT_VERIFY_CLEANSTACK : UInt32 := (1 : UInt32) <<< 8
def SCRIPT_VERIFY_CHECKLOCKTIMEVERIFY : UInt32 := (1 : UInt32) <<< 9
def SCRIPT_VERIFY_CHECKSEQUENCEVERIFY : UInt32 := (1 : UInt32) <<< 10
def SCRIPT_VERIFY_WITNESS : UInt32 := (1 : UInt32) <<< 11
def SCRIPT_VERIFY_DISCOURAGE_UPGRADABLE_WITNESS_PROGRAM : UInt32 := (1 : UInt32) <<< 12
def SCRIPT_VERIFY_MINIMALIF : UInt32 := (1 : UInt32) <<< 13
def SCRIPT_VERIFY_NULLFAIL : UInt32 := (1 : UInt32) <<< 14
def SCRIPT_VERIFY_WITNESS_PUBKEYTYPE : UInt32 := (1 : UInt32) <<< 15
def SCRIPT_VERIFY_CONST_SCRIPTCODE : UInt32 := (1 : UInt32) <<< 16

/-- `(flags & flag) != 0`. -/
def hasFlag (flags flag : UInt32) : Bool :=
  flags &&& flag != 0

/-- `SigVersion`. -/
inductive SigVersion where
  | SIGVERSION_BASE
  | SIGVERSION_WITNESS_V0
deriving DecidableEq, Repr

/-- `BaseSignatureChecker`: what a script asks of the transaction it unlocks. -/
structure BaseSignatureChecker where
  CheckSig : valtype → valtype → CScript → SigVersion → Bool
  CheckLockTime : Int → Bool
  CheckSequence : Int → Bool

/-- The hash functions of the crypto opcodes and `CPubKey::CheckLowS`. -/
structure ScriptCrypto where
  RIPEMD160 : valtype → valtype
  SHA1 : valtype → valtype
  SHA256 : valtype → valtype
  Hash160 : valtype → valtype
  Hash256 : valtype → valtype
  CheckLowS : valtype → Bool

/-! ## Script numbers -/

namespace CScriptNum

/-- `nDefaultMaxNumSize`. -/
def nDefaultMaxNumSize : Nat := 4

/-- The value of bytes read least significant first. -/
def leValue : List UInt8 → Nat
  | [] => 0
  | byte :: rest => byte.toNat + 256 * leValue rest

/-- `set_vch`: little-endian, with the top bit of the last byte as the sign. -/
def set_vch (vch : valtype) : Int :=
  match vch.getLast? with
  | none => 0
  | some last =>
      if last &&& 0x80 != 0 then
        -((leValue vch - 0x80 * 256 ^ (vch.length - 1) : Nat) : Int)
      else leValue vch

/-- The minimal-encoding test of the constructor; it also rejects negative zero. -/
def isMinimal (vch : valtype) : Bool :=
  match vch.getLast? with
  | none => true
  | some last =>
      last &&& 0x7f != 0 || (vch.length > 1 && vch.getD (vch.length - 2) 0 &&& 0x80 != 0)

/--
`CScriptNum(vch, fRequireMinimal, nMaxNumSize)`: `none` where the
constructor throws `scriptnum_error`.
-/
def ofBytes (vch : valtype) (fRequireMinimal : Bool) (nMaxNumSize : Nat) : Option Int :=
  if vch.length > nMaxNumSize then none
  else if fRequireMinimal && !isMinimal vch then none
  else some (set_vch vch)

/-- The bytes of a magnitude, least significant first, as the `while (absvalue)` loop writes them. -/
def magnitudeBytes : Nat → Nat → List UInt8
  | 0, _ => []
  | fuel + 1, n => if n = 0 then [] else UInt8.ofNat (n % 256) :: magnitudeBytes fuel (n / 256)

/--
`CScriptNum::serialize`: the magnitude in little-endian order, with a sign
byte added when the top bit of the last byte is taken, or the sign bit set
in it otherwise.  The magnitude of an `int64_t` has at most eight bytes.
-/
def serialize (value : Int) : valtype :=
  if value = 0 then []
  else
    let neg := decide (value < 0)
    let result := magnitudeBytes 8 value.natAbs
    match result.getLast? with
    | none => []
    | some last =>
        if last &&& 0x80 != 0 then result ++ [if neg then 0x80 else 0]
        else if neg then result.dropLast ++ [last ||| 0x80]
        else result

/-- `CScriptNum::getint`: the value clamped to the range of `int`. -/
def getint (value : Int) : Int :=
  if value > 2147483647 then 2147483647
  else if value < -2147483648 then -2147483648
  else value

end CScriptNum

/-- `CastToBool`: false for zero, including negative zero, true otherwise. -/
def CastToBool : valtype → Bool
  | [] => false
  | [last] => last != 0 && last != 0x80
  | byte :: rest => byte != 0 || CastToBool rest

/-- `vchTrue` and `vchFalse` of a boolean. -/
def boolBytes (value : Bool) : valtype :=
  if value then [1] else []

/-- `CheckMinimalPush`: whether `opcode` is the shortest way to push `data`. -/
def CheckMinimalPush (data : valtype) (opcode : opcodetype) : Bool :=
  match data with
  | [] => opcode == OP_0
  | [byte] =>
      if 1 ≤ byte ∧ byte ≤ 16 then opcode == OP_1 + (byte - 1)
      else if byte = 0x81 then opcode == OP_1NEGATE
      else opcode.toNat == 1
  | _ =>
      if data.length ≤ 75 then opcode.toNat == data.length
      else if data.length ≤ 255 then opcode == OP_PUSHDATA1
      else if data.length ≤ 65535 then opcode == OP_PUSHDATA2
      else true

/-- `CScript << b` pushes data of two bytes or more minimally. -/
theorem CheckMinimalPush_pushOpcodeOf {b : valtype} (two : 2 ≤ b.length)
    (small : b.length ≤ 0xffff) : CheckMinimalPush b (pushOpcodeOf b) = true := by
  match b, two with
  | _ :: _ :: rest, _ =>
      simp only [List.length_cons] at small
      unfold CheckMinimalPush pushOpcodeOf
      split_ifs <;> simp_all [OP_PUSHDATA1, UInt8.toNat_ofNat'] <;> omega

/-! ## Signature and key encodings -/

/-- `IsCompressedOrUncompressedPubKey`. -/
def IsCompressedOrUncompressedPubKey (vchPubKey : valtype) : Bool :=
  if vchPubKey.length < 33 then false
  else if vchPubKey.getD 0 0 = 0x04 then vchPubKey.length == 65
  else if vchPubKey.getD 0 0 = 0x02 ∨ vchPubKey.getD 0 0 = 0x03 then vchPubKey.length == 33
  else false

/-- `IsCompressedPubKey`. -/
def IsCompressedPubKey (vchPubKey : valtype) : Bool :=
  vchPubKey.length == 33 && (vchPubKey.getD 0 0 == 0x02 || vchPubKey.getD 0 0 == 0x03)

/-- `IsValidSignatureEncoding`: strict DER with a trailing hash-type byte (BIP66). -/
def IsValidSignatureEncoding (sig : valtype) : Bool :=
  let byte := fun index => sig.getD index 0
  if sig.length < 9 then false
  else if sig.length > 73 then false
  else if byte 0 ≠ 0x30 then false
  else if (byte 1).toNat ≠ sig.length - 3 then false
  else
    let lenR := (byte 3).toNat
    if 5 + lenR ≥ sig.length then false
    else
      let lenS := (byte (5 + lenR)).toNat
      if lenR + lenS + 7 ≠ sig.length then false
      else if byte 2 ≠ 0x02 then false
      else if lenR = 0 then false
      else if byte 4 &&& 0x80 ≠ 0 then false
      else if lenR > 1 ∧ byte 4 = 0x00 ∧ byte 5 &&& 0x80 = 0 then false
      else if byte (lenR + 4) ≠ 0x02 then false
      else if lenS = 0 then false
      else if byte (lenR + 6) &&& 0x80 ≠ 0 then false
      else if lenS > 1 ∧ byte (lenR + 6) = 0x00 ∧ byte (lenR + 7) &&& 0x80 = 0 then false
      else true

/-- `IsLowDERSignature`: DER, and an `S` value in the lower half of the order. -/
def IsLowDERSignature (crypto : ScriptCrypto) (vchSig : valtype) : Except ScriptError Unit :=
  if !IsValidSignatureEncoding vchSig then .error SCRIPT_ERR_SIG_DER
  else if !crypto.CheckLowS vchSig.dropLast then .error SCRIPT_ERR_SIG_HIGH_S
  else .ok ()

/-- `SIGHASH_ANYONECANPAY`. -/
def SIGHASH_ANYONECANPAY : UInt8 := 0x80

/-- `IsDefinedHashtypeSignature`: the hash type is `ALL`, `NONE` or `SINGLE`. -/
def IsDefinedHashtypeSignature (vchSig : valtype) : Bool :=
  match vchSig.getLast? with
  | none => false
  | some last =>
      let nHashType := last &&& ~~~SIGHASH_ANYONECANPAY
      !(nHashType < 1 || nHashType > 3)

/-- `CheckSignatureEncoding`. -/
def CheckSignatureEncoding (crypto : ScriptCrypto) (vchSig : valtype) (flags : UInt32) :
    Except ScriptError Unit :=
  if vchSig.length = 0 then .ok ()
  else if hasFlag flags (SCRIPT_VERIFY_DERSIG ||| SCRIPT_VERIFY_LOW_S ||| SCRIPT_VERIFY_STRICTENC) &&
      !IsValidSignatureEncoding vchSig then .error SCRIPT_ERR_SIG_DER
  else if hasFlag flags SCRIPT_VERIFY_LOW_S then IsLowDERSignature crypto vchSig
  else if hasFlag flags SCRIPT_VERIFY_STRICTENC && !IsDefinedHashtypeSignature vchSig then
    .error SCRIPT_ERR_SIG_HASHTYPE
  else .ok ()

/-- `CheckPubKeyEncoding`. -/
def CheckPubKeyEncoding (vchPubKey : valtype) (flags : UInt32) (sigversion : SigVersion) :
    Except ScriptError Unit :=
  if hasFlag flags SCRIPT_VERIFY_STRICTENC && !IsCompressedOrUncompressedPubKey vchPubKey then
    .error SCRIPT_ERR_PUBKEYTYPE
  else if hasFlag flags SCRIPT_VERIFY_WITNESS_PUBKEYTYPE &&
      sigversion == .SIGVERSION_WITNESS_V0 && !IsCompressedPubKey vchPubKey then
    .error SCRIPT_ERR_WITNESS_PUBKEYTYPE
  else .ok ()

/-! ## `FindAndDelete` -/

/-- The inner loop of `FindAndDelete`: skip the copies of `b` that start at `pc`. -/
def skipMatches (script b : CScript) : Nat → Nat → Nat → Nat × Nat
  | 0, pc, nFound => (pc, nFound)
  | fuel + 1, pc, nFound =>
      if script.length - pc ≥ b.length && (script.drop pc).take b.length == b then
        skipMatches script b fuel (pc + b.length) (nFound + 1)
      else (pc, nFound)

/--
The outer loop of `FindAndDelete`: copy what lies between the copies of `b`
found at operation boundaries; the last value is where copying resumes.
-/
def findAndDeleteLoop (script b : CScript) : Nat → Nat → Nat → CScript → Nat →
    CScript × Nat × Nat
  | 0, _, pc2, result, nFound => (result, nFound, pc2)
  | fuel + 1, pc, pc2, result, nFound =>
      let result := result ++ (script.drop pc2).take (pc - pc2)
      let (pc, nFound) := skipMatches script b (script.length + 1) pc nFound
      let read := getOp2 script pc
      if read.ok then findAndDeleteLoop script b fuel read.pc pc result nFound
      else (result, nFound, pc)

/--
`CScript::FindAndDelete(b)`: the script without the copies of `b` that
start at operation boundaries, and how many there were.
-/
def FindAndDelete (script b : CScript) : CScript × Nat :=
  if b.isEmpty then (script, 0)
  else
    let (result, nFound, pc2) := findAndDeleteLoop script b (script.length + 1) 0 0 [] 0
    if nFound > 0 then (result ++ script.drop pc2, nFound) else (script, 0)

/-! ## The state of a run -/

/-- The state of `EvalScript` between two operations. -/
structure EvalState where
  stack : List valtype
  altstack : List valtype
  vfExec : List Bool
  nOpCount : Nat
  pbegincodehash : Nat
  pc : Nat
deriving DecidableEq, Repr

namespace EvalState

/-- The state at the start of a script, over a given stack. -/
def initial (stack : List valtype) : EvalState :=
  ⟨stack, [], [], 0, 0, 0⟩

/-- `stack.push_back`. -/
def push (state : EvalState) (value : valtype) : EvalState :=
  { state with stack := value :: state.stack }

/-- The state with its stack replaced. -/
def withStack (state : EvalState) (stack : List valtype) : EvalState :=
  { state with stack := stack }

/-- `stacktop(-(index + 1))`. -/
def top (state : EvalState) (index : Nat) : valtype :=
  state.stack.getD index []

end EvalState

open EvalState

/-- `CTxIn::SEQUENCE_LOCKTIME_DISABLE_FLAG`. -/
def SEQUENCE_LOCKTIME_DISABLE_FLAG : Nat := 2 ^ 31

/-! ## Opcode groups -/

/-- The opcodes that `EvalScript` rejects wherever they appear. -/
def isDisabled (opcode : opcodetype) : Bool :=
  opcode == OP_CAT || opcode == OP_SUBSTR || opcode == OP_LEFT || opcode == OP_RIGHT ||
    opcode == OP_INVERT || opcode == OP_AND || opcode == OP_OR || opcode == OP_XOR ||
    opcode == OP_2MUL || opcode == OP_2DIV || opcode == OP_MUL || opcode == OP_DIV ||
    opcode == OP_MOD || opcode == OP_LSHIFT || opcode == OP_RSHIFT

/-- The stack-manipulation opcodes, `OP_TOALTSTACK` to `OP_TUCK`. -/
def isStackOpcode (opcode : opcodetype) : Bool :=
  OP_TOALTSTACK ≤ opcode && opcode ≤ OP_TUCK

/-- The one-operand numeric opcodes. -/
def isUnaryNumeric (opcode : opcodetype) : Bool :=
  opcode == OP_1ADD || opcode == OP_1SUB || opcode == OP_NEGATE || opcode == OP_ABS ||
    opcode == OP_NOT || opcode == OP_0NOTEQUAL

/-- The two-operand numeric opcodes. -/
def isBinaryNumeric (opcode : opcodetype) : Bool :=
  opcode == OP_ADD || opcode == OP_SUB || (OP_BOOLAND ≤ opcode && opcode ≤ OP_MAX)

/-- The hashing opcodes, `OP_RIPEMD160` to `OP_HASH256`. -/
def isHashOpcode (opcode : opcodetype) : Bool :=
  OP_RIPEMD160 ≤ opcode && opcode ≤ OP_HASH256

/-! ## The operations -/

section Operations

variable (crypto : ScriptCrypto) (script : CScript) (flags : UInt32)
  (checker : BaseSignatureChecker) (sigversion : SigVersion)

/-- A `CScriptNum` read from the stack, `SCRIPT_ERR_UNKNOWN_ERROR` where it throws. -/
def readNum (vch : valtype) (nMaxNumSize : Nat) : Except ScriptError Int :=
  match CScriptNum.ofBytes vch (hasFlag flags SCRIPT_VERIFY_MINIMALDATA) nMaxNumSize with
  | some value => .ok value
  | none => .error SCRIPT_ERR_UNKNOWN_ERROR

/-- The stack-manipulation opcodes. -/
def stackOpcode (opcode : opcodetype) (state : EvalState) : Except ScriptError EvalState :=
  let stack := state.stack
  let needs := fun (count : Nat) (result : Unit → Except ScriptError EvalState) =>
    if stack.length < count then .error SCRIPT_ERR_INVALID_STACK_OPERATION else result ()
  if opcode = OP_TOALTSTACK then
    needs 1 fun _ => .ok { state with stack := stack.tail, altstack := state.top 0 :: state.altstack }
  else if opcode = OP_FROMALTSTACK then
    match state.altstack with
    | [] => .error SCRIPT_ERR_INVALID_ALTSTACK_OPERATION
    | value :: rest => .ok { state with stack := value :: stack, altstack := rest }
  else if opcode = OP_2DROP then needs 2 fun _ => .ok (state.withStack (stack.drop 2))
  else if opcode = OP_2DUP then needs 2 fun _ => .ok (state.withStack (stack.take 2 ++ stack))
  else if opcode = OP_3DUP then needs 3 fun _ => .ok (state.withStack (stack.take 3 ++ stack))
  else if opcode = OP_2OVER then
    needs 4 fun _ => .ok (state.withStack ((stack.drop 2).take 2 ++ stack))
  else if opcode = OP_2ROT then
    needs 6 fun _ =>
      .ok (state.withStack ((stack.drop 4).take 2 ++ stack.take 4 ++ stack.drop 6))
  else if opcode = OP_2SWAP then
    needs 4 fun _ => .ok (state.withStack ((stack.drop 2).take 2 ++ stack.take 2 ++ stack.drop 4))
  else if opcode = OP_IFDUP then
    needs 1 fun _ =>
      .ok (if CastToBool (state.top 0) then state.push (state.top 0) else state)
  else if opcode = OP_DEPTH then .ok (state.push (CScriptNum.serialize stack.length))
  else if opcode = OP_DROP then needs 1 fun _ => .ok (state.withStack stack.tail)
  else if opcode = OP_DUP then needs 1 fun _ => .ok (state.push (state.top 0))
  else if opcode = OP_NIP then needs 2 fun _ => .ok (state.withStack (state.top 0 :: stack.drop 2))
  else if opcode = OP_OVER then needs 2 fun _ => .ok (state.push (state.top 1))
  else if opcode = OP_PICK ∨ opcode = OP_ROLL then
    needs 2 fun _ =>
      match readNum flags (state.top 0) CScriptNum.nDefaultMaxNumSize with
      | .error failure => .error failure
      | .ok number =>
          let n := CScriptNum.getint number
          let rest := stack.tail
          if n < 0 ∨ n ≥ rest.length then .error SCRIPT_ERR_INVALID_STACK_OPERATION
          else
            let vch := rest.getD n.toNat []
            let rest := if opcode = OP_ROLL then rest.eraseIdx n.toNat else rest
            .ok (state.withStack (vch :: rest))
  else if opcode = OP_ROT then
    needs 3 fun _ => .ok (state.withStack (state.top 2 :: state.top 0 :: state.top 1 :: stack.drop 3))
  else if opcode = OP_SWAP then
    needs 2 fun _ => .ok (state.withStack (state.top 1 :: state.top 0 :: stack.drop 2))
  else
    -- OP_TUCK
    needs 2 fun _ =>
      .ok (state.withStack (state.top 0 :: state.top 1 :: state.top 0 :: stack.drop 2))

/-- `OP_1ADD` to `OP_0NOTEQUAL` on their operand. -/
def unaryNumeric (opcode : opcodetype) (bn : Int) : Int :=
  if opcode = OP_1ADD then bn + 1
  else if opcode = OP_1SUB then bn - 1
  else if opcode = OP_NEGATE then -bn
  else if opcode = OP_ABS then (if bn < 0 then -bn else bn)
  else if opcode = OP_NOT then (if bn = 0 then 1 else 0)
  else (if bn ≠ 0 then 1 else 0)

/-- `OP_ADD` to `OP_MAX` on their operands. -/
def binaryNumeric (opcode : opcodetype) (bn1 bn2 : Int) : Int :=
  let ofBool := fun (value : Bool) => if value then (1 : Int) else 0
  if opcode = OP_ADD then bn1 + bn2
  else if opcode = OP_SUB then bn1 - bn2
  else if opcode = OP_BOOLAND then ofBool (bn1 ≠ 0 && bn2 ≠ 0)
  else if opcode = OP_BOOLOR then ofBool (bn1 ≠ 0 || bn2 ≠ 0)
  else if opcode = OP_NUMEQUAL ∨ opcode = OP_NUMEQUALVERIFY then ofBool (bn1 = bn2)
  else if opcode = OP_NUMNOTEQUAL then ofBool (bn1 ≠ bn2)
  else if opcode = OP_LESSTHAN then ofBool (bn1 < bn2)
  else if opcode = OP_GREATERTHAN then ofBool (bn1 > bn2)
  else if opcode = OP_LESSTHANOREQUAL then ofBool (bn1 ≤ bn2)
  else if opcode = OP_GREATERTHANOREQUAL then ofBool (bn1 ≥ bn2)
  else if opcode = OP_MIN then (if bn1 < bn2 then bn1 else bn2)
  else (if bn1 > bn2 then bn1 else bn2)

/-- The hash an opcode of `OP_RIPEMD160` to `OP_HASH256` computes. -/
def hashOpcode (opcode : opcodetype) (vch : valtype) : valtype :=
  if opcode = OP_RIPEMD160 then crypto.RIPEMD160 vch
  else if opcode = OP_SHA1 then crypto.SHA1 vch
  else if opcode = OP_SHA256 then crypto.SHA256 vch
  else if opcode = OP_HASH160 then crypto.Hash160 vch
  else crypto.Hash256 vch

/-- `scriptCode.FindAndDelete(CScript(vchSig))` in a pre-segwit script, with its flag check. -/
def deleteSignature (scriptCode : CScript) (vchSig : valtype) : Except ScriptError CScript :=
  if sigversion = .SIGVERSION_BASE then
    let (scriptCode, found) := FindAndDelete scriptCode (pushData [] vchSig)
    if found > 0 && hasFlag flags SCRIPT_VERIFY_CONST_SCRIPTCODE then
      .error SCRIPT_ERR_SIG_FINDANDDELETE
    else .ok scriptCode
  else .ok scriptCode

/-- `OP_CHECKSIG` and `OP_CHECKSIGVERIFY`. -/
def checkSigOpcode (opcode : opcodetype) (state : EvalState) : Except ScriptError EvalState :=
  if state.stack.length < 2 then .error SCRIPT_ERR_INVALID_STACK_OPERATION
  else
    let vchSig := state.top 1
    let vchPubKey := state.top 0
    match deleteSignature flags sigversion (script.drop state.pbegincodehash) vchSig with
    | .error failure => .error failure
    | .ok scriptCode =>
        match CheckSignatureEncoding crypto vchSig flags, CheckPubKeyEncoding vchPubKey flags sigversion with
        | .error failure, _ => .error failure
        | .ok (), .error failure => .error failure
        | .ok (), .ok () =>
            let fSuccess := checker.CheckSig vchSig vchPubKey scriptCode sigversion
            if !fSuccess && hasFlag flags SCRIPT_VERIFY_NULLFAIL && vchSig.length ≠ 0 then
              .error SCRIPT_ERR_SIG_NULLFAIL
            else
              let state := state.withStack (boolBytes fSuccess :: state.stack.drop 2)
              if opcode = OP_CHECKSIGVERIFY then
                if fSuccess then .ok (state.withStack state.stack.tail)
                else .error SCRIPT_ERR_CHECKSIGVERIFY
              else .ok state

/-- The signature loop of `OP_CHECKMULTISIG`: whether enough signatures match keys in order. -/
def multisigLoop (stack : List valtype) (scriptCode : CScript) :
    Nat → Nat → Nat → Nat → Except ScriptError Bool
  | _, _, 0, _ => .ok true
  -- `nSigsCount ≤ nKeysCount` holds on entry and after every iteration that goes on
  | _, _, _ + 1, 0 => .ok false
  | isig, ikey, nSigs + 1, nKeys + 1 =>
      let vchSig := stack.getD (isig - 1) []
      let vchPubKey := stack.getD (ikey - 1) []
      match CheckSignatureEncoding crypto vchSig flags, CheckPubKeyEncoding vchPubKey flags sigversion with
      | .error failure, _ => .error failure
      | .ok (), .error failure => .error failure
      | .ok (), .ok () =>
          let fOk := checker.CheckSig vchSig vchPubKey scriptCode sigversion
          let isig := if fOk then isig + 1 else isig
          let nSigsCount := if fOk then nSigs else nSigs + 1
          if nSigsCount > nKeys then .ok false
          else multisigLoop stack scriptCode isig (ikey + 1) nSigsCount nKeys

/-- The clean-up loop of `OP_CHECKMULTISIG`: pop the arguments, the signatures last. -/
def multisigCleanup (fSuccess : Bool) : Nat → Nat → List valtype → Except ScriptError (List valtype)
  | 0, _, stack => .ok stack
  | count + 1, ikey2, stack =>
      if !fSuccess && hasFlag flags SCRIPT_VERIFY_NULLFAIL && ikey2 = 0 &&
          (stack.headD []).length ≠ 0 then .error SCRIPT_ERR_SIG_NULLFAIL
      else multisigCleanup fSuccess count (ikey2 - 1) stack.tail

/-- The signatures of `OP_CHECKMULTISIG` deleted from the script code, in order. -/
def deleteSignatures (stack : List valtype) (isig : Nat) : Nat → CScript →
    Except ScriptError CScript
  | 0, scriptCode => .ok scriptCode
  | count + 1, scriptCode =>
      match deleteSignature flags sigversion scriptCode (stack.getD (isig - 1) []) with
      | .error failure => .error failure
      | .ok scriptCode => deleteSignatures stack (isig + 1) count scriptCode

/-- `OP_CHECKMULTISIG` and `OP_CHECKMULTISIGVERIFY`. -/
def checkMultiSigOpcode (opcode : opcodetype) (state : EvalState) :
    Except ScriptError EvalState := do
  let stack := state.stack
  if stack.length < 1 then throw SCRIPT_ERR_INVALID_STACK_OPERATION
  let nKeysCount := CScriptNum.getint (← readNum flags (state.top 0) CScriptNum.nDefaultMaxNumSize)
  if nKeysCount < 0 ∨ nKeysCount > MAX_PUBKEYS_PER_MULTISIG then throw SCRIPT_ERR_PUBKEY_COUNT
  let nKeys := nKeysCount.toNat
  let nOpCount := state.nOpCount + nKeys
  if nOpCount > MAX_OPS_PER_SCRIPT then throw SCRIPT_ERR_OP_COUNT
  let ikey := 2
  let i := 2 + nKeys
  if stack.length < i then throw SCRIPT_ERR_INVALID_STACK_OPERATION
  let nSigsCount := CScriptNum.getint (← readNum flags (state.top (i - 1)) CScriptNum.nDefaultMaxNumSize)
  if nSigsCount < 0 ∨ nSigsCount > nKeysCount then throw SCRIPT_ERR_SIG_COUNT
  let nSigs := nSigsCount.toNat
  let isig := i + 1
  let i := isig + nSigs
  if stack.length < i then throw SCRIPT_ERR_INVALID_STACK_OPERATION
  let scriptCode ← deleteSignatures flags sigversion stack isig nSigs (script.drop state.pbegincodehash)
  let fSuccess ← multisigLoop crypto flags checker sigversion stack scriptCode isig ikey nSigs nKeys
  let stack ← multisigCleanup flags fSuccess (i - 1) (nKeys + 2) stack
  match stack with
  | [] => throw SCRIPT_ERR_INVALID_STACK_OPERATION
  | dummy :: stack =>
      if hasFlag flags SCRIPT_VERIFY_NULLDUMMY && dummy.length ≠ 0 then
        throw SCRIPT_ERR_SIG_NULLDUMMY
      let state := { state with stack := boolBytes fSuccess :: stack, nOpCount := nOpCount }
      if opcode = OP_CHECKMULTISIGVERIFY then
        if fSuccess then pure (state.withStack stack) else throw SCRIPT_ERR_CHECKMULTISIGVERIFY
      else pure state

/-- `OP_CHECKLOCKTIMEVERIFY`, a no-op without its flag. -/
def checkLockTimeVerify (state : EvalState) : Except ScriptError EvalState :=
  if !hasFlag flags SCRIPT_VERIFY_CHECKLOCKTIMEVERIFY then .ok state
  else if state.stack.length < 1 then .error SCRIPT_ERR_INVALID_STACK_OPERATION
  else
    match readNum flags (state.top 0) 5 with
    | .error failure => .error failure
    | .ok nLockTime =>
        if nLockTime < 0 then .error SCRIPT_ERR_NEGATIVE_LOCKTIME
        else if !checker.CheckLockTime nLockTime then .error SCRIPT_ERR_UNSATISFIED_LOCKTIME
        else .ok state

/-- `OP_CHECKSEQUENCEVERIFY`, a no-op without its flag or with the disable bit set. -/
def checkSequenceVerify (state : EvalState) : Except ScriptError EvalState :=
  if !hasFlag flags SCRIPT_VERIFY_CHECKSEQUENCEVERIFY then .ok state
  else if state.stack.length < 1 then .error SCRIPT_ERR_INVALID_STACK_OPERATION
  else
    match readNum flags (state.top 0) 5 with
    | .error failure => .error failure
    | .ok nSequence =>
        if nSequence < 0 then .error SCRIPT_ERR_NEGATIVE_LOCKTIME
        else if nSequence.toNat.testBit 31 then .ok state
        else if !checker.CheckSequence nSequence then .error SCRIPT_ERR_UNSATISFIED_LOCKTIME
        else .ok state

/-- `OP_IF` and `OP_NOTIF`: in an executed branch, pop the condition. -/
def ifOpcode (fExec : Bool) (opcode : opcodetype) (state : EvalState) :
    Except ScriptError EvalState :=
  if !fExec then .ok { state with vfExec := false :: state.vfExec }
  else if state.stack.length < 1 then .error SCRIPT_ERR_UNBALANCED_CONDITIONAL
  else
    let vch := state.top 0
    if sigversion = .SIGVERSION_WITNESS_V0 ∧ hasFlag flags SCRIPT_VERIFY_MINIMALIF ∧
        (vch.length > 1 ∨ (vch.length = 1 ∧ vch.getD 0 0 ≠ 1)) then
      .error SCRIPT_ERR_MINIMALIF
    else
      let fValue := if opcode = OP_NOTIF then !CastToBool vch else CastToBool vch
      .ok { state with stack := state.stack.tail, vfExec := fValue :: state.vfExec }

/--
The `switch` of `EvalScript`: an operation that is not a push, run because
its branch executes or because it is a conditional.
-/
def executeOpcode (fExec : Bool) (opcode : opcodetype) (state : EvalState) :
    Except ScriptError EvalState :=
  if opcode = OP_1NEGATE ∨ (OP_1 ≤ opcode ∧ opcode ≤ OP_16) then
    .ok (state.push (CScriptNum.serialize ((opcode.toNat : Int) - (OP_1.toNat - 1 : Nat))))
  else if opcode = OP_NOP then .ok state
  else if opcode = OP_KEVA_NAMESPACE ∨ opcode = OP_KEVA_PUT ∨ opcode = OP_KEVA_DELETE then .ok state
  else if opcode = OP_CHECKLOCKTIMEVERIFY then checkLockTimeVerify flags checker state
  else if opcode = OP_CHECKSEQUENCEVERIFY then checkSequenceVerify flags checker state
  else if opcode = OP_NOP1 ∨ (OP_NOP4 ≤ opcode ∧ opcode ≤ OP_NOP10) then
    if hasFlag flags SCRIPT_VERIFY_DISCOURAGE_UPGRADABLE_NOPS then
      .error SCRIPT_ERR_DISCOURAGE_UPGRADABLE_NOPS
    else .ok state
  else if opcode = OP_IF ∨ opcode = OP_NOTIF then ifOpcode flags sigversion fExec opcode state
  else if opcode = OP_ELSE then
    match state.vfExec with
    | [] => .error SCRIPT_ERR_UNBALANCED_CONDITIONAL
    | innermost :: outer => .ok { state with vfExec := (!innermost) :: outer }
  else if opcode = OP_ENDIF then
    match state.vfExec with
    | [] => .error SCRIPT_ERR_UNBALANCED_CONDITIONAL
    | _ :: outer => .ok { state with vfExec := outer }
  else if opcode = OP_VERIFY then
    if state.stack.length < 1 then .error SCRIPT_ERR_INVALID_STACK_OPERATION
    else if CastToBool (state.top 0) then .ok (state.withStack state.stack.tail)
    else .error SCRIPT_ERR_VERIFY
  else if opcode = OP_RETURN then .error SCRIPT_ERR_OP_RETURN
  else if isStackOpcode opcode then stackOpcode flags opcode state
  else if opcode = OP_SIZE then
    if state.stack.length < 1 then .error SCRIPT_ERR_INVALID_STACK_OPERATION
    else .ok (state.push (CScriptNum.serialize (state.top 0).length))
  else if opcode = OP_EQUAL ∨ opcode = OP_EQUALVERIFY then
    if state.stack.length < 2 then .error SCRIPT_ERR_INVALID_STACK_OPERATION
    else
      let fEqual := state.top 1 == state.top 0
      let state := state.withStack (boolBytes fEqual :: state.stack.drop 2)
      if opcode = OP_EQUALVERIFY then
        if fEqual then .ok (state.withStack state.stack.tail) else .error SCRIPT_ERR_EQUALVERIFY
      else .ok state
  else if isUnaryNumeric opcode then
    if state.stack.length < 1 then .error SCRIPT_ERR_INVALID_STACK_OPERATION
    else
      match readNum flags (state.top 0) CScriptNum.nDefaultMaxNumSize with
      | .error failure => .error failure
      | .ok bn =>
          .ok (state.withStack
            (CScriptNum.serialize (unaryNumeric opcode bn) :: state.stack.tail))
  else if isBinaryNumeric opcode then
    if state.stack.length < 2 then .error SCRIPT_ERR_INVALID_STACK_OPERATION
    else
      match readNum flags (state.top 1) CScriptNum.nDefaultMaxNumSize,
          readNum flags (state.top 0) CScriptNum.nDefaultMaxNumSize with
      | .error failure, _ => .error failure
      | .ok _, .error failure => .error failure
      | .ok bn1, .ok bn2 =>
          let result := CScriptNum.serialize (binaryNumeric opcode bn1 bn2)
          let state := state.withStack (result :: state.stack.drop 2)
          if opcode = OP_NUMEQUALVERIFY then
            if CastToBool result then .ok (state.withStack state.stack.tail)
            else .error SCRIPT_ERR_NUMEQUALVERIFY
          else .ok state
  else if opcode = OP_WITHIN then
    if state.stack.length < 3 then .error SCRIPT_ERR_INVALID_STACK_OPERATION
    else
      match readNum flags (state.top 2) CScriptNum.nDefaultMaxNumSize,
          readNum flags (state.top 1) CScriptNum.nDefaultMaxNumSize,
          readNum flags (state.top 0) CScriptNum.nDefaultMaxNumSize with
      | .ok bn1, .ok bn2, .ok bn3 =>
          .ok (state.withStack (boolBytes (bn2 ≤ bn1 ∧ bn1 < bn3) :: state.stack.drop 3))
      | _, _, _ => .error SCRIPT_ERR_UNKNOWN_ERROR
  else if isHashOpcode opcode then
    if state.stack.length < 1 then .error SCRIPT_ERR_INVALID_STACK_OPERATION
    else .ok (state.withStack (hashOpcode crypto opcode (state.top 0) :: state.stack.tail))
  else if opcode = OP_CODESEPARATOR then .ok { state with pbegincodehash := state.pc }
  else if opcode = OP_CHECKSIG ∨ opcode = OP_CHECKSIGVERIFY then
    checkSigOpcode crypto script flags checker sigversion opcode state
  else if opcode = OP_CHECKMULTISIG ∨ opcode = OP_CHECKMULTISIGVERIFY then
    checkMultiSigOpcode crypto script flags checker sigversion opcode state
  else .error SCRIPT_ERR_BAD_OPCODE

/--
What one operation does once read: a push in an executed branch, the
`switch` for an executed operation or a conditional, nothing otherwise.
-/
def execute (fExec : Bool) (read : GetOpResult) (state : EvalState) :
    Except ScriptError EvalState :=
  if fExec && read.opcode ≤ OP_PUSHDATA4 then
    if hasFlag flags SCRIPT_VERIFY_MINIMALDATA && !CheckMinimalPush read.data read.opcode then
      .error SCRIPT_ERR_MINIMALDATA
    else .ok (state.push read.data)
  else if fExec || (OP_IF ≤ read.opcode && read.opcode ≤ OP_ENDIF) then
    executeOpcode crypto script flags checker sigversion fExec read.opcode state
  else .ok state

/-- The size check after every operation. -/
def checkStackSize (state : EvalState) : Except ScriptError EvalState :=
  if state.stack.length + state.altstack.length > MAX_STACK_SIZE then .error SCRIPT_ERR_STACK_SIZE
  else .ok state

/-- One iteration of the loop of `EvalScript`. -/
def step (state : EvalState) : Except ScriptError EvalState :=
  let fExec := !state.vfExec.contains false
  let read := getOp2 script state.pc
  if !read.ok then .error SCRIPT_ERR_BAD_OPCODE
  else if read.data.length > MAX_SCRIPT_ELEMENT_SIZE then .error SCRIPT_ERR_PUSH_SIZE
  else
    let nOpCount := if read.opcode > OP_16 then state.nOpCount + 1 else state.nOpCount
    if read.opcode > OP_16 ∧ nOpCount > MAX_OPS_PER_SCRIPT then .error SCRIPT_ERR_OP_COUNT
    else if isDisabled read.opcode then .error SCRIPT_ERR_DISABLED_OPCODE
    else if read.opcode = OP_CODESEPARATOR ∧ sigversion = .SIGVERSION_BASE ∧
        hasFlag flags SCRIPT_VERIFY_CONST_SCRIPTCODE then .error SCRIPT_ERR_OP_CODESEPARATOR
    else
      (execute crypto script flags checker sigversion fExec read
        { state with pc := read.pc, nOpCount := nOpCount }).bind checkStackSize

/-- The loop of `EvalScript` ends at the end of the script. -/
def finished (state : EvalState) : Bool :=
  decide (script.length ≤ state.pc)

/-- The loop of `EvalScript` from a state, with one iteration per byte left at most. -/
def evalLoop (state : EvalState) : Except ScriptError EvalState :=
  Loop.loop (finished script) (step crypto script flags checker sigversion)
    (script.length - state.pc) state

/-- `EvalScript`: the stack the script leaves on success. -/
def EvalScript (stack : List valtype) : Except ScriptError (List valtype) :=
  if script.length > MAX_SCRIPT_SIZE then .error SCRIPT_ERR_SCRIPT_SIZE
  else
    match evalLoop crypto script flags checker sigversion (EvalState.initial stack) with
    | .error failure => .error failure
    | .ok state => if state.vfExec.isEmpty then .ok state.stack else .error SCRIPT_ERR_UNBALANCED_CONDITIONAL

end Operations

/-! ## One operation at a time -/

section Steps

variable {crypto : ScriptCrypto} {script : CScript} {flags : UInt32}
  {checker : BaseSignatureChecker} {sigversion : SigVersion}

/-- No opcode below `OP_CAT` is disabled. -/
theorem isDisabled_of_lt {opcode : opcodetype} (below : opcode < OP_CAT) :
    isDisabled opcode = false := by
  have small := UInt8.lt_iff_toNat_lt.mp below
  simp only [isDisabled, Bool.or_eq_false_iff, beq_eq_false_iff_ne, ne_eq, ← UInt8.toNat_inj]
  simp [OP_CAT, OP_SUBSTR, OP_LEFT, OP_RIGHT, OP_INVERT, OP_AND, OP_OR, OP_XOR, OP_2MUL,
    OP_2DIV, OP_MUL, OP_DIV, OP_MOD, OP_LSHIFT, OP_RSHIFT] at small ⊢
  omega

/-- The size check hands a state on unchanged where it hands it on at all. -/
theorem checkStackSize_eq_ok {state next : EvalState} (checked : checkStackSize state = .ok next) :
    next = state := by
  unfold checkStackSize at checked
  split_ifs at checked
  cases checked
  rfl

/-- An iteration in which the read passes the checks every operation passes. -/
theorem step_of_read {state : EvalState} {read : GetOpResult}
    (reads : getOp2 script state.pc = read) (readOk : read.ok = true)
    (fits : read.data.length ≤ MAX_SCRIPT_ELEMENT_SIZE)
    (counted : OP_16 < read.opcode → state.nOpCount + 1 ≤ MAX_OPS_PER_SCRIPT)
    (enabled : isDisabled read.opcode = false) (notSeparator : read.opcode ≠ OP_CODESEPARATOR) :
    step crypto script flags checker sigversion state =
      (execute crypto script flags checker sigversion (!state.vfExec.contains false) read
        { state with
          pc := read.pc
          nOpCount := if OP_16 < read.opcode then state.nOpCount + 1 else state.nOpCount }).bind
        checkStackSize := by
  have withinCount : ¬ (OP_16 < read.opcode ∧
      (if OP_16 < read.opcode then state.nOpCount + 1 else state.nOpCount) > MAX_OPS_PER_SCRIPT) := by
    rintro ⟨above, tooMany⟩
    rw [if_pos above] at tooMany
    have bounded := counted above
    omega
  unfold step
  simp only [reads, readOk, Bool.not_true, Bool.false_eq_true, if_false, enabled]
  rw [if_neg (by omega), if_neg withinCount, if_neg (fun conditions => notSeparator conditions.1)]

/--
Backwards: an iteration that succeeds ran the operation it read, on the
state with the position and the count moved on.
-/
theorem step_eq_ok {state next : EvalState}
    (stepped : step crypto script flags checker sigversion state = .ok next) :
    execute crypto script flags checker sigversion (!state.vfExec.contains false)
      (getOp2 script state.pc)
      { state with
        pc := (getOp2 script state.pc).pc
        nOpCount := if OP_16 < (getOp2 script state.pc).opcode then state.nOpCount + 1
          else state.nOpCount } = .ok next := by
  unfold step at stepped
  dsimp only at stepped
  generalize (if OP_16 < (getOp2 script state.pc).opcode then state.nOpCount + 1
    else state.nOpCount) = count at stepped ⊢
  split_ifs at stepped
  obtain ⟨mid, executed, checked⟩ := Except.bind_eq_ok.mp stepped
  rw [checkStackSize_eq_ok checked]
  exact executed

/-- In an executed branch a push puts its data on the stack. -/
theorem execute_push {read : GetOpResult} {state : EvalState}
    (push : read.opcode ≤ OP_PUSHDATA4)
    (minimal : hasFlag flags SCRIPT_VERIFY_MINIMALDATA = false ∨
      CheckMinimalPush read.data read.opcode = true) :
    execute crypto script flags checker sigversion true read state = .ok (state.push read.data) := by
  unfold execute
  rcases minimal with off | minimal
  · simp [push, off]
  · simp [push, minimal]

/-- Backwards: an executed push that succeeds put its data on the stack. -/
theorem execute_push_ok {read : GetOpResult} {state next : EvalState}
    (push : read.opcode ≤ OP_PUSHDATA4)
    (ran : execute crypto script flags checker sigversion true read state = .ok next) :
    next = state.push read.data := by
  unfold execute at ran
  rw [if_pos (by simp [push])] at ran
  split_ifs at ran
  cases ran
  rfl

/-- In an executed branch an operation that is not a push runs through the `switch`. -/
theorem execute_opcode {read : GetOpResult} {state : EvalState}
    (notPush : OP_PUSHDATA4 < read.opcode) :
    execute crypto script flags checker sigversion true read state =
      executeOpcode crypto script flags checker sigversion true read.opcode state := by
  have notLe : ¬ read.opcode ≤ OP_PUSHDATA4 := UInt8.not_le.mpr notPush
  simp [execute, notLe]

theorem checkStackSize_of_le {state : EvalState}
    (room : state.stack.length + state.altstack.length ≤ MAX_STACK_SIZE) :
    checkStackSize state = .ok state := by
  simp [checkStackSize, Nat.not_lt.mpr room]

/-- A push opcode is not counted, not disabled and not `OP_CODESEPARATOR`. -/
theorem push_opcode_plain {opcode : opcodetype} (push : opcode ≤ OP_PUSHDATA4) :
    ¬ OP_16 < opcode ∧ isDisabled opcode = false ∧ opcode ≠ OP_CODESEPARATOR := by
  have small := UInt8.le_iff_toNat_le.mp push
  simp only [OP_PUSHDATA4, UInt8.reduceToNat] at small
  refine ⟨?_, isDisabled_of_lt ?_, ?_⟩
  · rw [UInt8.lt_iff_toNat_lt]
    simp only [OP_16, UInt8.reduceToNat]
    omega
  · rw [UInt8.lt_iff_toNat_lt]
    simp only [OP_CAT, UInt8.reduceToNat]
    omega
  · rw [ne_eq, ← UInt8.toNat_inj]
    simp only [OP_CODESEPARATOR, UInt8.reduceToNat]
    omega

/-- An executed push that fits, is minimal where that is asked, and has room on the stack. -/
theorem step_push {state : EvalState} {read : GetOpResult}
    (reads : getOp2 script state.pc = read) (readOk : read.ok = true)
    (push : read.opcode ≤ OP_PUSHDATA4) (fits : read.data.length ≤ MAX_SCRIPT_ELEMENT_SIZE)
    (executing : state.vfExec.contains false = false)
    (minimal : hasFlag flags SCRIPT_VERIFY_MINIMALDATA = false ∨
      CheckMinimalPush read.data read.opcode = true)
    (room : state.stack.length + state.altstack.length < MAX_STACK_SIZE) :
    step crypto script flags checker sigversion state =
      .ok { state with stack := read.data :: state.stack, pc := read.pc } := by
  obtain ⟨notCounted, enabled, notSeparator⟩ := push_opcode_plain push
  rw [step_of_read reads readOk fits (fun above => absurd above notCounted) enabled notSeparator,
    executing, Bool.not_false, execute_push push minimal, if_neg notCounted]
  exact checkStackSize_of_le (by simp only [EvalState.push, List.length_cons]; omega)

/-- An executed operation that is counted and passes the checks every operation passes. -/
theorem step_counted {state : EvalState} {read : GetOpResult}
    (reads : getOp2 script state.pc = read) (readOk : read.ok = true) (noData : read.data = [])
    (above : OP_16 < read.opcode) (counted : state.nOpCount + 1 ≤ MAX_OPS_PER_SCRIPT)
    (enabled : isDisabled read.opcode = false) (notSeparator : read.opcode ≠ OP_CODESEPARATOR)
    (executing : state.vfExec.contains false = false) :
    step crypto script flags checker sigversion state =
      (executeOpcode crypto script flags checker sigversion true read.opcode
        { state with pc := read.pc, nOpCount := state.nOpCount + 1 }).bind checkStackSize := by
  have notPush : OP_PUSHDATA4 < read.opcode := UInt8.lt_trans (by decide) above
  have fits : read.data.length ≤ MAX_SCRIPT_ELEMENT_SIZE := by
    simp [noData, MAX_SCRIPT_ELEMENT_SIZE]
  rw [step_of_read reads readOk fits (fun _ => counted) enabled notSeparator, executing,
    Bool.not_false, execute_opcode notPush, if_pos above]

/-- A counted one-byte operation at the end of `p`, in an executed branch. -/
theorem step_opcode_at {p rest : CScript} {opcode : opcodetype} {state : EvalState}
    (split : script = p ++ opcode :: rest) (reached : state.pc = p.length)
    (above : OP_16 < opcode) (counted : state.nOpCount + 1 ≤ MAX_OPS_PER_SCRIPT)
    (enabled : isDisabled opcode = false) (notSeparator : opcode ≠ OP_CODESEPARATOR)
    (executing : state.vfExec.contains false = false) :
    step crypto script flags checker sigversion state =
      (executeOpcode crypto script flags checker sigversion true opcode
        { state with pc := p.length + 1, nOpCount := state.nOpCount + 1 }).bind checkStackSize := by
  have reads : getOp2 script state.pc = ⟨true, opcode, [], p.length + 1⟩ := by
    rw [split, reached]
    exact getOp2_opcode p rest (UInt8.lt_trans (by decide) above)
  exact step_counted reads rfl rfl above counted enabled notSeparator executing

/-- Backwards: a counted one-byte operation at the end of `p` that succeeds ran its case. -/
theorem step_opcode_ok {p rest : CScript} {opcode : opcodetype} {state next : EvalState}
    (split : script = p ++ opcode :: rest) (reached : state.pc = p.length)
    (above : OP_16 < opcode) (executing : state.vfExec.contains false = false)
    (stepped : step crypto script flags checker sigversion state = .ok next) :
    executeOpcode crypto script flags checker sigversion true opcode
      { state with pc := p.length + 1, nOpCount := state.nOpCount + 1 } = .ok next := by
  have notPush : OP_PUSHDATA4 < opcode := UInt8.lt_trans (by decide) above
  have reads : getOp2 script state.pc = ⟨true, opcode, [], p.length + 1⟩ := by
    rw [split, reached]
    exact getOp2_opcode p rest notPush
  have ran := step_eq_ok stepped
  rw [reads, executing, Bool.not_false] at ran
  dsimp only at ran
  rwa [if_pos above, execute_opcode notPush] at ran

/-- `OP_KEVA_NAMESPACE`, `OP_KEVA_PUT` and `OP_KEVA_DELETE` change nothing. -/
theorem executeOpcode_keva {opcode : opcodetype} (fExec : Bool) (state : EvalState)
    (keva : opcode = OP_KEVA_NAMESPACE ∨ opcode = OP_KEVA_PUT ∨ opcode = OP_KEVA_DELETE) :
    executeOpcode crypto script flags checker sigversion fExec opcode state = .ok state := by
  rcases keva with rfl | rfl | rfl <;> rfl

/-- `OP_RETURN` fails the script. -/
theorem executeOpcode_RETURN (fExec : Bool) (state : EvalState) :
    executeOpcode crypto script flags checker sigversion fExec OP_RETURN state =
      .error SCRIPT_ERR_OP_RETURN := rfl

/-- `OP_2DROP` pops two elements. -/
theorem executeOpcode_2DROP (fExec : Bool) {state : EvalState} {first second : valtype}
    {rest : List valtype} (stacked : state.stack = first :: second :: rest) :
    executeOpcode crypto script flags checker sigversion fExec OP_2DROP state =
      .ok (state.withStack rest) := by
  obtain ⟨stack, altstack, vfExec, nOpCount, pbegincodehash, pc⟩ := state
  cases stacked
  rfl

/-- `OP_DROP` pops one element. -/
theorem executeOpcode_DROP (fExec : Bool) {state : EvalState} {first : valtype}
    {rest : List valtype} (stacked : state.stack = first :: rest) :
    executeOpcode crypto script flags checker sigversion fExec OP_DROP state =
      .ok (state.withStack rest) := by
  obtain ⟨stack, altstack, vfExec, nOpCount, pbegincodehash, pc⟩ := state
  cases stacked
  rfl

end Steps

/-! ## Runs of pushes -/

section Runs

variable {crypto : ScriptCrypto} {flags : UInt32} {checker : BaseSignatureChecker}
  {sigversion : SigVersion}

/-- A push that `CScript << b` writes runs: it fits, and is minimal where that is asked. -/
def pushable (flags : UInt32) (b : valtype) : Bool :=
  decide (b.length ≤ MAX_SCRIPT_ELEMENT_SIZE) &&
    (!hasFlag flags SCRIPT_VERIFY_MINIMALDATA || CheckMinimalPush b (pushOpcodeOf b))

/-- The push of nothing runs, as `OP_0`. -/
theorem pushable_nil : pushable flags [] = true := by
  have minimal : CheckMinimalPush [] (pushOpcodeOf []) = true := by decide
  simp [pushable, minimal]

/-- Data of two bytes or more that fits in an element runs as a push. -/
theorem pushable_of_two_le {b : valtype} (two : 2 ≤ b.length)
    (fits : b.length ≤ MAX_SCRIPT_ELEMENT_SIZE) : pushable flags b = true := by
  have minimal := CheckMinimalPush_pushOpcodeOf two
    (by unfold MAX_SCRIPT_ELEMENT_SIZE at fits; omega)
  simp [pushable, fits, minimal]

/-- An executed iteration at what `CScript << b` wrote pushes `b`. -/
theorem step_pushData {q b rest : CScript} {state : EvalState} (reached : state.pc = q.length)
    (executing : state.vfExec.contains false = false) (runs : pushable flags b = true)
    (room : state.stack.length + state.altstack.length < MAX_STACK_SIZE) :
    step crypto (pushData q b ++ rest) flags checker sigversion state =
      .ok { state with stack := b :: state.stack, pc := (pushData q b).length } := by
  simp only [pushable, Bool.and_eq_true, decide_eq_true_eq, Bool.or_eq_true,
    Bool.not_eq_true'] at runs
  obtain ⟨fits, minimal⟩ := runs
  have small : b.length < 2 ^ 32 := by
    unfold MAX_SCRIPT_ELEMENT_SIZE at fits
    omega
  have reads := getOp2_pushData q b rest small
  rw [← reached] at reads
  exact step_push reads rfl (pushOpcodeOf_le b) fits executing minimal room

/-- A run has not finished where an operation is still to be read. -/
theorem finished_of_split {script p rest : CScript} {opcode : opcodetype} {state : EvalState}
    (split : script = p ++ opcode :: rest) (reached : state.pc = p.length) :
    finished script state = false := by
  have inside : state.pc < script.length := by
    simp [split, reached]
  simp [finished, inside]

/-- Backwards: an executed iteration at what `CScript << b` wrote that succeeds pushed `b`. -/
theorem step_pushData_ok {q b rest : CScript} {state next : EvalState}
    (stepped : step crypto (pushData q b ++ rest) flags checker sigversion state = .ok next)
    (reached : state.pc = q.length) (executing : state.vfExec.contains false = false)
    (fits : b.length < 2 ^ 32) :
    next = { state with stack := b :: state.stack, pc := (pushData q b).length } := by
  have reads := getOp2_pushData q b rest fits
  rw [← reached] at reads
  have ran := step_eq_ok stepped
  rw [reads, executing, Bool.not_false] at ran
  dsimp only at ran
  rw [if_neg (push_opcode_plain (pushOpcodeOf_le b)).1] at ran
  rw [execute_push_ok (pushOpcodeOf_le b) ran]
  rfl

/-- An iteration that succeeds before the end of the script moves the loop on by one. -/
theorem loop_at {script p rest : CScript} {opcode : opcodetype} {state next : EvalState}
    (split : script = p ++ opcode :: rest) (reached : state.pc = p.length)
    (stepped : step crypto script flags checker sigversion state = .ok next) (fuel : Nat) :
    Loop.loop (finished script) (step crypto script flags checker sigversion) (fuel + 1) state =
      Loop.loop (finished script) (step crypto script flags checker sigversion) fuel next :=
  Loop.loop_step (finished_of_split split reached) stepped fuel

/-- The script without operations leaves the stack as it is. -/
theorem EvalScript_nil (stack : List valtype) :
    EvalScript crypto [] flags checker sigversion stack = .ok stack := rfl

/-- The script ends after what `CScript << b` wrote to `q`, if not before. -/
theorem length_lt_pushData (q b : CScript) : q.length < (pushData q b).length :=
  length_pushAll q [b]

/-- A run has not finished where a push is still to be read. -/
theorem finished_pushAll {script q : CScript} {b : valtype} {bs : List valtype} (rest : CScript)
    {state : EvalState} (split : script = pushAll q (b :: bs) ++ rest)
    (reached : state.pc = q.length) : finished script state = false := by
  have longer := length_lt_pushData q b
  have within := length_pushAll (pushData q b) bs
  simp only [split, finished, decide_eq_false_iff_not, List.length_append, pushAll]
  omega

/--
The pushes of `CScript << b₁ << … << bₙ` in an executed branch put `bₙ … b₁`
on the stack, one iteration each.
-/
theorem loop_pushAll {script : CScript} (rest : CScript) (args : List valtype) :
    ∀ (q : CScript) (state : EvalState) (fuel : Nat), script = pushAll q args ++ rest →
      state.pc = q.length → state.vfExec.contains false = false →
      (∀ b ∈ args, pushable flags b = true) →
      state.stack.length + state.altstack.length + args.length ≤ MAX_STACK_SIZE →
      Loop.loop (finished script) (step crypto script flags checker sigversion)
          (fuel + args.length) state =
        Loop.loop (finished script) (step crypto script flags checker sigversion) fuel
          { state with stack := args.reverse ++ state.stack, pc := (pushAll q args).length } := by
  induction args with
  | nil =>
      intro q state fuel _ reached _ _ _
      simp only [pushAll, List.reverse_nil, List.nil_append, List.length_nil, Nat.add_zero,
        ← reached]
  | cons b bs ih =>
      intro q state fuel split reached executing runs room
      have joined : script = pushData q b ++ (pushAll [] bs ++ rest) := by
        rw [split, pushAll, pushAll_eq_append, List.append_assoc]
      have pushed : step crypto script flags checker sigversion state =
          .ok { state with stack := b :: state.stack, pc := (pushData q b).length } := by
        rw [joined]
        exact step_pushData reached executing (runs b List.mem_cons_self)
          (by simp only [List.length_cons] at room; omega)
      rw [List.length_cons, ← Nat.add_assoc,
        Loop.loop_step (finished_pushAll rest split reached) pushed, List.reverse_cons,
        List.append_assoc, List.singleton_append]
      exact ih (pushData q b) _ fuel split rfl executing
        (fun x mem => runs x (List.mem_cons_of_mem b mem))
        (by simp only [List.length_cons] at room ⊢; omega)

/--
Backwards: a run through the pushes of `CScript << b₁ << … << bₙ` in an
executed branch that succeeds went through the iterations of `loop_pushAll`.
-/
theorem loop_pushAll_ok {script : CScript} (rest : CScript) (args : List valtype) :
    ∀ (q : CScript) (state : EvalState) (fuel : Nat) (final : EvalState),
      script = pushAll q args ++ rest →
      state.pc = q.length → state.vfExec.contains false = false →
      (∀ b ∈ args, b.length < 2 ^ 32) →
      Loop.loop (finished script) (step crypto script flags checker sigversion)
          (fuel + args.length) state = .ok final →
      Loop.loop (finished script) (step crypto script flags checker sigversion) fuel
          { state with stack := args.reverse ++ state.stack, pc := (pushAll q args).length } =
        .ok final := by
  induction args with
  | nil =>
      intro q state fuel final _ reached _ _ ran
      simpa only [pushAll, List.reverse_nil, List.nil_append, List.length_nil, Nat.add_zero,
        ← reached] using ran
  | cons b bs ih =>
      intro q state fuel final split reached executing fits ran
      have joined : script = pushData q b ++ (pushAll [] bs ++ rest) := by
        rw [split, pushAll, pushAll_eq_append, List.append_assoc]
      rw [List.length_cons, ← Nat.add_assoc] at ran
      obtain ⟨next, stepped, onward⟩ :=
        Loop.loop_succ_ok (finished_pushAll rest split reached) ran
      rw [joined] at stepped
      have pushed := step_pushData_ok stepped reached executing (fits b List.mem_cons_self)
      subst pushed
      rw [List.reverse_cons, List.append_assoc, List.singleton_append]
      exact ih (pushData q b) { state with stack := b :: state.stack, pc := (pushData q b).length }
        fuel final split rfl executing (fun x mem => fits x (List.mem_cons_of_mem b mem)) onward

/-- A script that runs through is no longer than `MAX_SCRIPT_SIZE`. -/
theorem length_le_of_EvalScript_ok {script : CScript} {stack result : List valtype}
    (ran : EvalScript crypto script flags checker sigversion stack = .ok result) :
    script.length ≤ MAX_SCRIPT_SIZE := by
  by_contra large
  rw [EvalScript, if_pos (Nat.lt_of_not_le large)] at ran
  cases ran

/-- A script of pushes leaves its data on the stack, the last pushed on top. -/
theorem EvalScript_pushAll (bs : List valtype) (stack : List valtype)
    (runs : ∀ b ∈ bs, pushable flags b = true)
    (small : (pushAll [] bs).length ≤ MAX_SCRIPT_SIZE)
    (room : stack.length + bs.length ≤ MAX_STACK_SIZE) :
    EvalScript crypto (pushAll [] bs) flags checker sigversion stack = .ok (bs.reverse ++ stack) := by
  have long := length_pushAll [] bs
  simp only [List.length_nil, Nat.zero_add] at long
  have fuel : (pushAll [] bs).length - (EvalState.initial stack).pc =
      ((pushAll [] bs).length - bs.length) + bs.length := by
    simp only [EvalState.initial]
    omega
  have pushed := @loop_pushAll crypto flags checker sigversion _ [] bs [] (EvalState.initial stack)
    ((pushAll [] bs).length - bs.length) (List.append_nil _).symm rfl rfl runs
    (by simpa [EvalState.initial] using room)
  rw [EvalScript, if_neg (Nat.not_lt.mpr small), evalLoop, fuel, pushed, Loop.loop_of_done]
  · rfl
  · simp [finished]

/-- A script that opens with `OP_RETURN` fails in its first iteration. -/
theorem EvalScript_RETURN (rest : CScript) (stack : List valtype)
    (small : (OP_RETURN :: rest).length ≤ MAX_SCRIPT_SIZE) :
    EvalScript crypto (OP_RETURN :: rest) flags checker sigversion stack =
      .error SCRIPT_ERR_OP_RETURN := by
  have split : OP_RETURN :: rest = [] ++ OP_RETURN :: rest := rfl
  have failed : step crypto (OP_RETURN :: rest) flags checker sigversion
      (EvalState.initial stack) = .error SCRIPT_ERR_OP_RETURN := by
    rw [step_opcode_at split rfl (by decide) (by simp [EvalState.initial, MAX_OPS_PER_SCRIPT])
      (by decide) (by decide) rfl, executeOpcode_RETURN]
    rfl
  have running : finished (OP_RETURN :: rest) (EvalState.initial stack) = false := by
    simp [finished, EvalState.initial]
  have fuel : (OP_RETURN :: rest).length - (EvalState.initial stack).pc = rest.length + 1 := by
    simp [EvalState.initial]
  rw [EvalScript, if_neg (Nat.not_lt.mpr small), evalLoop, fuel, Loop.loop_error running failed]

/--
What `CScript::IsUnspendable` recognises, and `AddCoin` therefore never
stores, fails whatever stack it runs on.
-/
theorem EvalScript_of_isUnspendable {script : CScript} (unspendable : isUnspendable script = true)
    (stack : List valtype) :
    ∃ serror, EvalScript crypto script flags checker sigversion stack = .error serror := by
  by_cases large : script.length > MAX_SCRIPT_SIZE
  · exact ⟨_, by rw [EvalScript, if_pos large]⟩
  · simp only [isUnspendable, large, decide_false, Bool.or_false, Bool.and_eq_true,
      decide_eq_true_eq, beq_iff_eq] at unspendable
    obtain ⟨_, opensReturn⟩ := unspendable
    cases script with
    | nil => simp at opensReturn
    | cons first rest =>
        simp only [List.getElem?_cons_zero, Option.some.injEq] at opensReturn
        subst opensReturn
        exact ⟨_, EvalScript_RETURN rest stack (Nat.not_lt.mp large)⟩

end Runs

end Kevacoin
