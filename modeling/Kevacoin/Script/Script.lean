import Mathlib.Data.List.Basic
import Mathlib.Algebra.GroupWithZero.Nat
import Mathlib.Algebra.Group.Int.Defs

/-!
# Scripts and their opcodes

`script/script.h` represents a script as a byte vector and an opcode as one
of its bytes.  This module gives the byte representation, the named opcodes
the development uses, `CScript::GetOp2` with its exact treatment of the
iterator on success and on failure, the builders `CScript << opcode` and
`CScript << bytes`, and the shape tests of scripts that do not depend on
the keva prefix (`IsWitnessProgram`, `IsPushOnly`, `IsUnspendable` and
`IsPayToScriptHash` without keva).

Opcodes are bytes (`UInt8`): the source casts a read byte to `opcodetype`
and compares opcodes numerically (`opcode <= OP_PUSHDATA4`).
-/

namespace Kevacoin

/-- A byte vector, `std::vector<unsigned char>`. -/
abbrev valtype := List UInt8

/-- A script, `CScript`: a sequence of bytes. -/
abbrev CScript := List UInt8

/-- An opcode is the byte that encodes it. -/
abbrev opcodetype := UInt8

/-! ## Opcodes -/

def OP_0 : opcodetype := 0x00
def OP_PUSHDATA1 : opcodetype := 0x4c
def OP_PUSHDATA2 : opcodetype := 0x4d
def OP_PUSHDATA4 : opcodetype := 0x4e
def OP_1NEGATE : opcodetype := 0x4f
def OP_RESERVED : opcodetype := 0x50
def OP_1 : opcodetype := 0x51
def OP_16 : opcodetype := 0x60
def OP_NOP : opcodetype := 0x61
def OP_VER : opcodetype := 0x62
def OP_IF : opcodetype := 0x63
def OP_NOTIF : opcodetype := 0x64
def OP_VERIF : opcodetype := 0x65
def OP_VERNOTIF : opcodetype := 0x66
def OP_ELSE : opcodetype := 0x67
def OP_ENDIF : opcodetype := 0x68
def OP_VERIFY : opcodetype := 0x69
def OP_RETURN : opcodetype := 0x6a
def OP_TOALTSTACK : opcodetype := 0x6b
def OP_FROMALTSTACK : opcodetype := 0x6c
def OP_2DROP : opcodetype := 0x6d
def OP_2DUP : opcodetype := 0x6e
def OP_3DUP : opcodetype := 0x6f
def OP_2OVER : opcodetype := 0x70
def OP_2ROT : opcodetype := 0x71
def OP_2SWAP : opcodetype := 0x72
def OP_IFDUP : opcodetype := 0x73
def OP_DEPTH : opcodetype := 0x74
def OP_DROP : opcodetype := 0x75
def OP_DUP : opcodetype := 0x76
def OP_NIP : opcodetype := 0x77
def OP_OVER : opcodetype := 0x78
def OP_PICK : opcodetype := 0x79
def OP_ROLL : opcodetype := 0x7a
def OP_ROT : opcodetype := 0x7b
def OP_SWAP : opcodetype := 0x7c
def OP_TUCK : opcodetype := 0x7d
def OP_CAT : opcodetype := 0x7e
def OP_SUBSTR : opcodetype := 0x7f
def OP_LEFT : opcodetype := 0x80
def OP_RIGHT : opcodetype := 0x81
def OP_SIZE : opcodetype := 0x82
def OP_INVERT : opcodetype := 0x83
def OP_AND : opcodetype := 0x84
def OP_OR : opcodetype := 0x85
def OP_XOR : opcodetype := 0x86
def OP_EQUAL : opcodetype := 0x87
def OP_EQUALVERIFY : opcodetype := 0x88
def OP_RESERVED1 : opcodetype := 0x89
def OP_RESERVED2 : opcodetype := 0x8a
def OP_1ADD : opcodetype := 0x8b
def OP_1SUB : opcodetype := 0x8c
def OP_2MUL : opcodetype := 0x8d
def OP_2DIV : opcodetype := 0x8e
def OP_NEGATE : opcodetype := 0x8f
def OP_ABS : opcodetype := 0x90
def OP_NOT : opcodetype := 0x91
def OP_0NOTEQUAL : opcodetype := 0x92
def OP_ADD : opcodetype := 0x93
def OP_SUB : opcodetype := 0x94
def OP_MUL : opcodetype := 0x95
def OP_DIV : opcodetype := 0x96
def OP_MOD : opcodetype := 0x97
def OP_LSHIFT : opcodetype := 0x98
def OP_RSHIFT : opcodetype := 0x99
def OP_BOOLAND : opcodetype := 0x9a
def OP_BOOLOR : opcodetype := 0x9b
def OP_NUMEQUAL : opcodetype := 0x9c
def OP_NUMEQUALVERIFY : opcodetype := 0x9d
def OP_NUMNOTEQUAL : opcodetype := 0x9e
def OP_LESSTHAN : opcodetype := 0x9f
def OP_GREATERTHAN : opcodetype := 0xa0
def OP_LESSTHANOREQUAL : opcodetype := 0xa1
def OP_GREATERTHANOREQUAL : opcodetype := 0xa2
def OP_MIN : opcodetype := 0xa3
def OP_MAX : opcodetype := 0xa4
def OP_WITHIN : opcodetype := 0xa5
def OP_RIPEMD160 : opcodetype := 0xa6
def OP_SHA1 : opcodetype := 0xa7
def OP_SHA256 : opcodetype := 0xa8
def OP_HASH160 : opcodetype := 0xa9
def OP_HASH256 : opcodetype := 0xaa
def OP_CODESEPARATOR : opcodetype := 0xab
def OP_CHECKSIG : opcodetype := 0xac
def OP_CHECKSIGVERIFY : opcodetype := 0xad
def OP_CHECKMULTISIG : opcodetype := 0xae
def OP_CHECKMULTISIGVERIFY : opcodetype := 0xaf
def OP_NOP1 : opcodetype := 0xb0
def OP_CHECKLOCKTIMEVERIFY : opcodetype := 0xb1
def OP_CHECKSEQUENCEVERIFY : opcodetype := 0xb2
def OP_NOP4 : opcodetype := 0xb3
def OP_NOP5 : opcodetype := 0xb4
def OP_NOP6 : opcodetype := 0xb5
def OP_NOP7 : opcodetype := 0xb6
def OP_NOP8 : opcodetype := 0xb7
def OP_NOP9 : opcodetype := 0xb8
def OP_NOP10 : opcodetype := 0xb9
def OP_KEVA_NAMESPACE : opcodetype := 0xd0
def OP_KEVA_PUT : opcodetype := 0xd1
def OP_KEVA_DELETE : opcodetype := 0xd2
def OP_INVALIDOPCODE : opcodetype := 0xff

/-- `MAX_SCRIPT_ELEMENT_SIZE`: the largest element a script may push. -/
def MAX_SCRIPT_ELEMENT_SIZE : Nat := 3072

/-- `MAX_SCRIPT_SIZE`. -/
def MAX_SCRIPT_SIZE : Nat := 10000

/-- `MAX_OPS_PER_SCRIPT`: the most non-push operations a script may execute. -/
def MAX_OPS_PER_SCRIPT : Nat := 201

/-- `MAX_PUBKEYS_PER_MULTISIG`. -/
def MAX_PUBKEYS_PER_MULTISIG : Int := 20

/-- `MAX_STACK_SIZE`: the most elements the stack and the alternate stack hold together. -/
def MAX_STACK_SIZE : Nat := 1000

/-! ## Reading one operation -/

/-- `ReadLE16`: two bytes as a little-endian number. -/
def readLE16 (low high : UInt8) : Nat :=
  low.toNat + 256 * high.toNat

/-- `ReadLE32`: four bytes as a little-endian number. -/
def readLE32 (b0 b1 b2 b3 : UInt8) : Nat :=
  b0.toNat + 256 * (b1.toNat + 256 * (b2.toNat + 256 * b3.toNat))

/--
What `GetOp2` leaves in its output parameters: whether it succeeded, the
opcode (`OP_INVALIDOPCODE` on failure), the pushed bytes (cleared unless a
push succeeded) and the iterator, as a position in the script.
-/
structure GetOpResult where
  ok : Bool
  opcode : opcodetype
  data : valtype
  pc : Nat
deriving DecidableEq, Repr

/-- A failure with the iterator left at `pc`. -/
def GetOpResult.failure (pc : Nat) : GetOpResult :=
  ⟨false, OP_INVALIDOPCODE, [], pc⟩

/--
The size of the pushed data of a push opcode read at `pc - 1`, and the
position after its length bytes; `none` when the length bytes are cut off.
-/
def pushSize (script : CScript) (opcode : opcodetype) (pc : Nat) :
    Option (Nat × Nat) :=
  if opcode < OP_PUSHDATA1 then some (opcode.toNat, pc)
  else if opcode = OP_PUSHDATA1 then
    match script.drop pc with
    | b0 :: _ => some (b0.toNat, pc + 1)
    | [] => none
  else if opcode = OP_PUSHDATA2 then
    match script.drop pc with
    | b0 :: b1 :: _ => some (readLE16 b0 b1, pc + 2)
    | _ => none
  else
    match script.drop pc with
    | b0 :: b1 :: b2 :: b3 :: _ => some (readLE32 b0 b1 b2 b3, pc + 4)
    | _ => none

/--
`CScript::GetOp2`: read the operation at position `pc`.  A push opcode
(`opcode <= OP_PUSHDATA4`) is followed by its data; every other opcode is a
single byte.  On failure the iterator stays where the source leaves it: at
`pc` at the end of the script, after the opcode when the length bytes are
cut off, after the length bytes when the data is.
-/
def getOp2 (script : CScript) (pc : Nat) : GetOpResult :=
  match script.drop pc with
  | [] => .failure pc
  | opcode :: _ =>
      if opcode ≤ OP_PUSHDATA4 then
        match pushSize script opcode (pc + 1) with
        | none => .failure (pc + 1)
        | some (nSize, start) =>
            if script.length - start < nSize then .failure start
            else ⟨true, opcode, (script.drop start).take nSize, start + nSize⟩
      else ⟨true, opcode, [], pc + 1⟩

/-! ## Building scripts -/

/-- `CScript << opcode`. -/
def pushOpcode (script : CScript) (opcode : opcodetype) : CScript :=
  script ++ [opcode]

/-- `WriteLE16` of a size. -/
def writeLE16 (n : Nat) : List UInt8 :=
  [UInt8.ofNat n, UInt8.ofNat (n / 256)]

/-- `WriteLE32` of a size. -/
def writeLE32 (n : Nat) : List UInt8 :=
  [UInt8.ofNat n, UInt8.ofNat (n / 256), UInt8.ofNat (n / 65536),
    UInt8.ofNat (n / 16777216)]

/--
The length prefix `CScript << b` writes before a byte vector: the shortest
of the four push encodings that holds the size of `b`.  A one-byte vector
is pushed directly, never as `OP_1 .. OP_16`.
-/
def pushHeader (b : valtype) : List UInt8 :=
  if b.length < OP_PUSHDATA1.toNat then [UInt8.ofNat b.length]
  else if b.length ≤ 0xff then [OP_PUSHDATA1, UInt8.ofNat b.length]
  else if b.length ≤ 0xffff then OP_PUSHDATA2 :: writeLE16 b.length
  else OP_PUSHDATA4 :: writeLE32 b.length

/-- `CScript << b` for a byte vector: its length prefix, then `b`. -/
def pushData (script : CScript) (b : valtype) : CScript :=
  script ++ pushHeader b ++ b

/-- `script << b₁ << b₂ ...`: byte vectors pushed in order. -/
def pushAll (script : CScript) : List valtype → CScript
  | [] => script
  | b :: rest => pushAll (pushData script b) rest

/-! ## Shape tests -/

/-- `CScript::IsPayToScriptHash(false)`: `OP_HASH160 <20 bytes> OP_EQUAL`. -/
def isPayToScriptHashPlain (script : CScript) : Bool :=
  script.length == 23 && script[0]? == some OP_HASH160 &&
    script[1]? == some 0x14 && script[22]? == some OP_EQUAL

/-- `DecodeOP_N` of `OP_0` or `OP_1 .. OP_16`. -/
def decodeOP_N (opcode : opcodetype) : Nat :=
  if opcode = OP_0 then 0 else opcode.toNat - (OP_1.toNat - 1)

/--
`CScript::IsWitnessProgram`: a one-byte push opcode followed by a direct
push of 2 to 40 bytes that ends the script; the version and the program.
-/
def isWitnessProgram (script : CScript) : Option (Nat × valtype) :=
  if script.length < 4 || script.length > 42 then none
  else
    match script with
    | first :: second :: program =>
        if first ≠ OP_0 && (first < OP_1 || first > OP_16) then none
        else if second.toNat + 2 = script.length then
          some (decodeOP_N first, program)
        else none
    | _ => none

/-- `CScript::IsUnspendable`: starts with `OP_RETURN` or is too large. -/
def isUnspendable (script : CScript) : Bool :=
  (script.length > 0 && script[0]? == some OP_RETURN) ||
    script.length > MAX_SCRIPT_SIZE

/-- `CScript::IsPushOnly(pc)`, by fuel bounded by the script length. -/
def isPushOnlyFrom (script : CScript) : Nat → Nat → Bool
  | 0, _ => true
  | fuel + 1, pc =>
      if pc < script.length then
        let op := getOp2 script pc
        if !op.ok then false
        else if op.opcode > OP_16 then false
        else isPushOnlyFrom script fuel op.pc
      else true

/-- `CScript::IsPushOnly()`. -/
def isPushOnly (script : CScript) : Bool :=
  isPushOnlyFrom script script.length 0

/-! ## Reading back what was written -/

/-- A read with its positions moved `offset` bytes on. -/
def GetOpResult.shift (offset : Nat) (read : GetOpResult) : GetOpResult :=
  { read with pc := offset + read.pc }

/-- The length of a push read in a script behind `p` is the length read without `p`. -/
theorem pushSize_append (p a : CScript) (opcode : opcodetype) (j : Nat) :
    pushSize (p ++ a) opcode (p.length + j) =
      (pushSize a opcode j).map fun sized => (sized.1, p.length + sized.2) := by
  have dropped : (p ++ a).drop (p.length + j) = a.drop j := by simp
  unfold pushSize
  rw [dropped]
  split_ifs
  · rfl
  all_goals split <;> simp_all [Nat.add_assoc]

/-- An operation read in a script behind `p` is the one read without `p`, moved. -/
theorem getOp2_append (p a : CScript) (i : Nat) :
    getOp2 (p ++ a) (p.length + i) = (getOp2 a i).shift p.length := by
  have dropped : ∀ k, (p ++ a).drop (p.length + k) = a.drop k := fun k => by simp
  unfold getOp2
  rw [dropped]
  split
  · rfl
  · rename_i opcode rest _
    split_ifs with isPush
    · rw [show p.length + i + 1 = p.length + (i + 1) by omega, pushSize_append]
      cases pushSize a opcode (i + 1) with
      | none => rfl
      | some sized =>
          obtain ⟨nSize, start⟩ := sized
          simp only [Option.map_some, List.length_append, dropped]
          split_ifs <;> first | rfl | omega | (simp [GetOpResult.shift]; omega)
    · simp [GetOpResult.shift]
      omega

/-- The length bytes of a push end no earlier than they start. -/
theorem le_of_pushSize {script : CScript} {opcode : opcodetype} {pc nSize start : Nat}
    (sized : pushSize script opcode pc = some (nSize, start)) : pc ≤ start := by
  unfold pushSize at sized
  split_ifs at sized
  · cases sized
    exact Nat.le_refl pc
  all_goals
    split at sized
    · cases sized
      omega
    · cases sized

/-- A read that succeeds moves the position on. -/
theorem lt_pc_of_getOp2_ok {script : CScript} {pc : Nat} (readOk : (getOp2 script pc).ok = true) :
    pc < (getOp2 script pc).pc := by
  unfold getOp2 at readOk ⊢
  split at readOk
  · cases readOk
  · rename_i opcode rest _
    split_ifs at readOk ⊢ with isPush
    · cases sized : pushSize script opcode (pc + 1) with
      | none => simp [sized, GetOpResult.failure] at readOk
      | some result =>
          obtain ⟨nSize, start⟩ := result
          have after := le_of_pushSize sized
          simp only [sized] at readOk ⊢
          split_ifs at readOk ⊢
          · simp [GetOpResult.failure] at readOk
          · simp only
            omega
    · simp

/-- The opcode of the length prefix of `b`. -/
def pushOpcodeOf (b : valtype) : opcodetype :=
  if b.length < OP_PUSHDATA1.toNat then UInt8.ofNat b.length
  else if b.length ≤ 0xff then OP_PUSHDATA1
  else if b.length ≤ 0xffff then OP_PUSHDATA2
  else OP_PUSHDATA4

theorem pushOpcodeOf_le (b : valtype) : pushOpcodeOf b ≤ OP_PUSHDATA4 := by
  unfold pushOpcodeOf
  split_ifs with direct
  · have small : b.length < 76 := by simpa [OP_PUSHDATA1] using direct
    rw [UInt8.le_iff_toNat_le, UInt8.toNat_ofNat']
    show b.length % 2 ^ 8 ≤ 78
    omega
  all_goals decide

theorem readLE16_writeLE16 {n : Nat} (small : n ≤ 0xffff) :
    readLE16 (UInt8.ofNat n) (UInt8.ofNat (n / 256)) = n := by
  simp only [readLE16, UInt8.toNat_ofNat']
  omega

theorem readLE32_writeLE32 {n : Nat} (small : n < 2 ^ 32) :
    readLE32 (UInt8.ofNat n) (UInt8.ofNat (n / 256)) (UInt8.ofNat (n / 65536))
      (UInt8.ofNat (n / 16777216)) = n := by
  simp only [readLE32, UInt8.toNat_ofNat']
  omega

/-- A length prefix reads back as a push of the bytes behind it. -/
theorem getOp2_pushHeader (b rest : CScript) (fits : b.length < 2 ^ 32) :
    getOp2 (pushHeader b ++ b ++ rest) 0 =
      ⟨true, pushOpcodeOf b, b, (pushHeader b).length + b.length⟩ := by
  unfold pushHeader pushOpcodeOf
  have noWrap : ¬ (b.length + rest.length < b.length) := by omega
  split_ifs with direct one two
  · have small : b.length < 76 := by simpa [OP_PUSHDATA1] using direct
    have opcodeNat : (UInt8.ofNat b.length).toNat = b.length := by
      simp only [UInt8.toNat_ofNat']
      omega
    simp [getOp2, pushSize, opcodeNat, OP_PUSHDATA4, OP_PUSHDATA1, UInt8.le_iff_toNat_le,
      UInt8.lt_iff_toNat_lt, small, show b.length ≤ 78 by omega, noWrap]
  · have large : 76 ≤ b.length := by simpa [OP_PUSHDATA1] using direct
    have opcodeNat : (UInt8.ofNat b.length).toNat = b.length := by
      simp only [UInt8.toNat_ofNat']
      omega
    simp [getOp2, pushSize, opcodeNat, OP_PUSHDATA4, OP_PUSHDATA1, noWrap]
  · simp [getOp2, pushSize, writeLE16, readLE16_writeLE16 two, OP_PUSHDATA4, OP_PUSHDATA1,
      OP_PUSHDATA2, noWrap]
  · simp [getOp2, pushSize, writeLE32, readLE32_writeLE32 fits, OP_PUSHDATA4, OP_PUSHDATA1,
      OP_PUSHDATA2, noWrap]

/-- A one-byte operation reads back as itself. -/
theorem getOp2_opcode (p rest : CScript) {opcode : opcodetype} (notPush : OP_PUSHDATA4 < opcode) :
    getOp2 (p ++ opcode :: rest) p.length = ⟨true, opcode, [], p.length + 1⟩ := by
  have notLe : ¬ opcode ≤ OP_PUSHDATA4 := UInt8.not_le.mpr notPush
  rw [← Nat.add_zero p.length, getOp2_append]
  simp [getOp2, notLe, GetOpResult.shift]

/-- What `CScript << b` wrote reads back as a push of `b` that ends where the write did. -/
theorem getOp2_pushData (q b rest : CScript) (fits : b.length < 2 ^ 32) :
    getOp2 (pushData q b ++ rest) q.length =
      ⟨true, pushOpcodeOf b, b, (pushData q b).length⟩ := by
  have joined : pushData q b ++ rest = q ++ (pushHeader b ++ b ++ rest) := by
    simp [pushData]
  rw [joined, ← Nat.add_zero q.length, getOp2_append, getOp2_pushHeader b rest fits]
  simp [GetOpResult.shift, pushData]

theorem pushAll_eq_append (q : CScript) :
    ∀ bs : List valtype, pushAll q bs = q ++ pushAll [] bs
  | [] => by simp [pushAll]
  | b :: bs => by
      rw [pushAll, pushAll, pushAll_eq_append (pushData q b) bs,
        pushAll_eq_append (pushData [] b) bs]
      simp [pushData]

theorem length_pushAll (q : CScript) :
    ∀ bs : List valtype, q.length + bs.length ≤ (pushAll q bs).length
  | [] => by simp [pushAll]
  | b :: bs => by
      have longer : q.length + 1 ≤ (pushData q b).length := by
        unfold pushData pushHeader
        split_ifs <;> simp
      have rest := length_pushAll (pushData q b) bs
      simp only [pushAll, List.length_cons]
      omega

/-- Each vector that `pushAll` writes is no longer than the script it writes. -/
theorem length_le_pushAll_of_mem (q : CScript) {b : valtype} :
    ∀ {bs : List valtype}, b ∈ bs → b.length ≤ (pushAll q bs).length
  | [], mem => (List.not_mem_nil mem).elim
  | c :: cs, mem => by
      have rest := length_pushAll (pushData q c) cs
      rcases List.mem_cons.mp mem with rfl | later
      · have written : b.length ≤ (pushData q b).length := by
          simp only [pushData, List.length_append]
          omega
        simp only [pushAll]
        omega
      · exact length_le_pushAll_of_mem (pushData q c) later

/-- A push of at most 65535 bytes takes at most three bytes more than its data. -/
theorem length_pushData_le (q b : CScript) (small : b.length ≤ 0xffff) :
    (pushData q b).length ≤ q.length + b.length + 3 := by
  unfold pushData pushHeader
  split_ifs <;> simp [writeLE16] <;> omega

/-- A script that opens with an opcode above `OP_16` is no witness program. -/
theorem isWitnessProgram_of_above {first : opcodetype} (above : OP_16 < first) (rest : CScript) :
    isWitnessProgram (first :: rest) = none := by
  have notZero : first ≠ OP_0 := by
    rintro rfl
    exact absurd above (by decide)
  cases rest with
  | nil => simp [isWitnessProgram]
  | cons second program =>
      simp [isWitnessProgram, notZero, above]

end Kevacoin
