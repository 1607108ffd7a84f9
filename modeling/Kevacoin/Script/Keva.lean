import Kevacoin.Script.Script

/-!
# Keva scripts

A keva output script is an ordinary address script behind a prefix

`OP_KEVA_xxx <arg> ... <arg> OP_2DROP/OP_DROP/OP_NOP ...`

that the interpreter executes as a no-op.  `CKevaScript::CKevaScript`
(`script/keva.cpp`) splits a script into the operation and the address; this
module models it together with the three builders and the two shape tests
that strip the prefix (`IsPayToScriptHash(true)`,
`IsPayToWitnessScriptHash(true)`).

The source stores the operation as an opcode next to a vector of arguments
whose length the constructor checks; the model stores the operation as one
constructor per opcode with its arguments, so that the accessors, which
assert the opcode in the source, are total here.  The two parsing loops are
run with fuel `script.length + 1`, which is enough since every successful
read advances the position.
-/

namespace Kevacoin

/-- A keva operation together with its arguments. -/
inductive KevaOp where
  | kevaNamespace (nameSpace displayName : valtype)
  | kevaPut (nameSpace key value : valtype)
  | kevaDelete (nameSpace key : valtype)
deriving DecidableEq, Repr

namespace KevaOp

/-- `CKevaScript::getKevaOp`. -/
def opcode : KevaOp → opcodetype
  | .kevaNamespace .. => OP_KEVA_NAMESPACE
  | .kevaPut .. => OP_KEVA_PUT
  | .kevaDelete .. => OP_KEVA_DELETE

/-- `CKevaScript::getOpNamespace`: every keva operation names its namespace. -/
def getOpNamespace : KevaOp → valtype
  | .kevaNamespace nameSpace _ => nameSpace
  | .kevaPut nameSpace _ _ => nameSpace
  | .kevaDelete nameSpace _ => nameSpace

/-- `CKevaScript::isNamespaceRegistration`. -/
def isNamespaceRegistration : KevaOp → Bool
  | .kevaNamespace .. => true
  | _ => false

/-- `CKevaScript::isAnyUpdate`: `OP_KEVA_PUT` or `OP_KEVA_DELETE`. -/
def isAnyUpdate : KevaOp → Bool
  | .kevaNamespace .. => false
  | _ => true

/-- `CKevaScript::isDelete`. -/
def isDelete : KevaOp → Bool
  | .kevaDelete .. => true
  | _ => false

end KevaOp

/-- `CKevaScript`: the keva operation, `none` for `OP_NOP`, and the address part. -/
structure CKevaScript where
  op : Option KevaOp
  address : CScript
deriving DecidableEq, Repr

namespace CKevaScript

/-- `CKevaScript::isKevaOp`. -/
def isKevaOp (script : CKevaScript) : Bool :=
  script.op.isSome

/-- The bytes of `KEVA_DISPLAY_NAME_KEY = "_KEVA_NS_"`, the key of a namespace's display name. -/
def KEVA_DISPLAY_NAME_KEY : valtype :=
  [0x5f, 0x4b, 0x45, 0x56, 0x41, 0x5f, 0x4e, 0x53, 0x5f]

/-- The opcodes that end the argument list. -/
def isDropLike (opcode : opcodetype) : Bool :=
  opcode == OP_DROP || opcode == OP_2DROP || opcode == OP_NOP

/--
The argument loop of the constructor: collect pushes until the first
drop-like opcode.  `none` where the constructor returns early, leaving
`OP_NOP`; otherwise the arguments, the drop-like opcode and the position
after it.
-/
def parseArgs (script : CScript) :
    Nat → Nat → List valtype → Option (List valtype × opcodetype × Nat)
  | 0, _, _ => none
  | fuel + 1, pc, args =>
      let read := getOp2 script pc
      if !read.ok then none
      else if isDropLike read.opcode then some (args, read.opcode, read.pc)
      else if !(read.opcode ≤ OP_PUSHDATA4) then none
      else parseArgs script fuel read.pc (args ++ [read.data])

/--
The loop that moves past further drop-like opcodes: it stops after the
first read that fails or returns another opcode, at the position that read
leaves.
-/
def skipDrops (script : CScript) : Nat → Nat → Nat
  | 0, pc => pc
  | fuel + 1, pc =>
      let read := getOp2 script pc
      if !read.ok then read.pc
      else if isDropLike read.opcode then skipDrops script fuel read.pc
      else read.pc

/-- The operation for an opcode and its argument count, as the final `switch`. -/
def opOfArgs (nameOp : opcodetype) : List valtype → Option KevaOp
  | [nameSpace, key, value] =>
      if nameOp = OP_KEVA_PUT then some (.kevaPut nameSpace key value)
      else none
  | [nameSpace, second] =>
      if nameOp = OP_KEVA_DELETE then some (.kevaDelete nameSpace second)
      else if nameOp = OP_KEVA_NAMESPACE then
        some (.kevaNamespace nameSpace second)
      else none
  | _ => none

/--
`CKevaScript::CKevaScript(const CScript&)`.  The address of a keva script
starts one byte before the position where `skipDrops` stops (`pc--`);
a script that is not a keva script keeps itself as address.
-/
def parse (script : CScript) : CKevaScript :=
  let first := getOp2 script 0
  if !first.ok then ⟨none, script⟩
  else
    match parseArgs script (script.length + 1) first.pc [] with
    | none => ⟨none, script⟩
    | some (args, _, afterDrop) =>
        match opOfArgs first.opcode args with
        | none => ⟨none, script⟩
        | some op =>
            let pc := skipDrops script (script.length + 1) afterDrop
            ⟨some op, script.drop (pc - 1)⟩

/-- `CKevaScript::isKevaScript`. -/
def isKevaScript (script : CScript) : Bool :=
  (parse script).isKevaOp

/-- `CKevaScript::buildKevaPut`. -/
def buildKevaPut (addr : CScript) (nameSpace key value : valtype) :
    CScript :=
  pushOpcode
      (pushOpcode
        (pushData (pushData (pushData [OP_KEVA_PUT] nameSpace) key) value)
        OP_2DROP)
      OP_DROP ++ addr

/-- `CKevaScript::buildKevaDelete`. -/
def buildKevaDelete (addr : CScript) (nameSpace key : valtype) : CScript :=
  pushOpcode (pushData (pushData [OP_KEVA_DELETE] nameSpace) key) OP_2DROP ++
    addr

/-- `CKevaScript::buildKevaNamespace`. -/
def buildKevaNamespace (addr : CScript) (nameSpace displayName : valtype) :
    CScript :=
  pushOpcode (pushData (pushData [OP_KEVA_NAMESPACE] nameSpace) displayName)
      OP_2DROP ++ addr

end CKevaScript

/-! ## Parsing what the builders write -/

namespace CKevaScript

/--
An address script whose first operation takes one byte and cannot end a
keva prefix: every script `GetScriptForDestination` writes is one.
-/
def isAddressLead (address : CScript) : Bool :=
  (getOp2 address 0).ok && (getOp2 address 0).pc == 1 && !isDropLike (getOp2 address 0).opcode

theorem isDropLike_of_push {opcode : opcodetype} (push : opcode ≤ OP_PUSHDATA4) :
    isDropLike opcode = false := by
  have small := UInt8.le_iff_toNat_le.mp push
  simp only [isDropLike, OP_DROP, OP_2DROP, OP_NOP, OP_PUSHDATA4, Bool.or_eq_false_iff,
    beq_eq_false_iff_ne] at small ⊢
  refine ⟨⟨?_, ?_⟩, ?_⟩ <;> intro same <;> rw [same] at small <;> simp at small

/-- The argument loop collects the pushed arguments and stops at the drop behind them. -/
theorem parseArgs_pushAll {d : opcodetype} (dropLike : isDropLike d = true)
    (oneByte : OP_PUSHDATA4 < d) (rest : CScript) :
    ∀ (args : List valtype) (q : CScript) (acc : List valtype) (fuel : Nat),
      (∀ b ∈ args, b.length < 2 ^ 32) →
      parseArgs (pushAll q args ++ d :: rest) (fuel + args.length + 1) q.length acc =
        some (acc ++ args, d, (pushAll q args).length + 1)
  | [], q, acc, fuel, _ => by
      rw [parseArgs, pushAll, getOp2_opcode q rest oneByte]
      simp [dropLike]
  | b :: bs, q, acc, fuel, fits => by
      show parseArgs (pushAll (pushData q b) bs ++ d :: rest) (fuel + (b :: bs).length + 1)
          q.length acc = some (acc ++ b :: bs, d, (pushAll (pushData q b) bs).length + 1)
      have read : getOp2 (pushAll (pushData q b) bs ++ d :: rest) q.length =
          ⟨true, pushOpcodeOf b, b, (pushData q b).length⟩ := by
        rw [pushAll_eq_append (pushData q b), List.append_assoc]
        exact getOp2_pushData q b _ (fits b List.mem_cons_self)
      have later := parseArgs_pushAll dropLike oneByte rest bs (pushData q b) (acc ++ [b]) fuel
        (fun b' member => fits b' (List.mem_cons_of_mem b member))
      rw [show fuel + (b :: bs).length + 1 = (fuel + bs.length + 1) + 1 by simp; omega,
        parseArgs, read]
      simp only [Bool.not_true, Bool.false_eq_true, if_false,
        isDropLike_of_push (pushOpcodeOf_le b), pushOpcodeOf_le b, decide_true, Bool.not_true]
      rw [later, List.append_assoc, List.singleton_append]

/--
The loop past the drops stops after the first operation of the address,
however many bytes that operation takes.
-/
theorem skipDrops_drops_of_read {a : CScript} (readOk : (getOp2 a 0).ok = true)
    (notDrop : isDropLike (getOp2 a 0).opcode = false) :
    ∀ (ds p : CScript) (fuel : Nat), (∀ x ∈ ds, isDropLike x = true ∧ OP_PUSHDATA4 < x) →
      skipDrops (p ++ ds ++ a) (fuel + ds.length + 1) p.length =
        p.length + ds.length + (getOp2 a 0).pc
  | [], p, fuel, _ => by
      have read : getOp2 (p ++ a) p.length = (getOp2 a 0).shift p.length := getOp2_append p a 0
      rw [skipDrops, List.append_nil, read]
      simp [GetOpResult.shift, readOk, notDrop]
  | x :: ds, p, fuel, drops => by
      obtain ⟨dropLike, oneByte⟩ := drops x List.mem_cons_self
      have later := skipDrops_drops_of_read readOk notDrop ds (p ++ [x]) fuel
        (fun y member => drops y (List.mem_cons_of_mem x member))
      have read : getOp2 (p ++ x :: ds ++ a) p.length = ⟨true, x, [], p.length + 1⟩ := by
        rw [List.append_assoc, List.cons_append]
        exact getOp2_opcode p _ oneByte
      rw [show fuel + (x :: ds).length + 1 = (fuel + ds.length + 1) + 1 by simp; omega,
        skipDrops, read]
      simp only [Bool.not_true, Bool.false_eq_true, if_false, dropLike, if_true]
      simp only [List.append_assoc, List.length_append, List.length_singleton, List.cons_append,
        List.nil_append] at later ⊢
      rw [later, List.length_cons]
      omega

/--
A keva prefix written by a builder parses back to its operation; the
address is taken from one byte before the end of the address's first
operation (`pc--`), which is the address itself only where that operation
takes one byte.
-/
theorem parse_kevaPrefix_of_read {op d : opcodetype} {args : List valtype} {ds a : CScript}
    {kevaOp : KevaOp} (notPush : OP_PUSHDATA4 < op) (matched : opOfArgs op args = some kevaOp)
    (fits : ∀ b ∈ args, b.length < 2 ^ 32)
    (drops : ∀ x ∈ d :: ds, isDropLike x = true ∧ OP_PUSHDATA4 < x)
    (readOk : (getOp2 a 0).ok = true) (notDrop : isDropLike (getOp2 a 0).opcode = false) :
    parse (pushAll [op] args ++ d :: ds ++ a) = ⟨some kevaOp, a.drop ((getOp2 a 0).pc - 1)⟩ := by
  obtain ⟨dropLike, oneByte⟩ := drops d List.mem_cons_self
  have first : getOp2 (pushAll [op] args ++ d :: ds ++ a) 0 = ⟨true, op, [], 1⟩ := by
    rw [pushAll_eq_append, List.append_assoc, List.append_assoc]
    exact getOp2_opcode [] _ notPush
  have longEnough := length_pushAll [op] args
  have collected : parseArgs (pushAll [op] args ++ d :: ds ++ a)
      ((pushAll [op] args ++ d :: ds ++ a).length + 1) 1 [] =
        some (args, d, (pushAll [op] args).length + 1) := by
    have loop := parseArgs_pushAll dropLike oneByte (ds ++ a) args [op] []
      ((pushAll [op] args ++ d :: ds ++ a).length - args.length) fits
    simp only [List.length_singleton, List.nil_append, List.append_assoc, List.cons_append]
      at loop ⊢
    rw [← loop]
    congr 1
    simp only [List.length_append, List.length_cons]
    omega
  have skipped : skipDrops (pushAll [op] args ++ d :: ds ++ a)
      ((pushAll [op] args ++ d :: ds ++ a).length + 1) ((pushAll [op] args).length + 1) =
        (pushAll [op] args).length + 1 + ds.length + (getOp2 a 0).pc := by
    have loop := skipDrops_drops_of_read readOk notDrop ds (pushAll [op] args ++ [d])
      ((pushAll [op] args ++ d :: ds ++ a).length - ds.length)
      (fun x member => drops x (List.mem_cons_of_mem d member))
    simp only [List.append_assoc, List.singleton_append, List.length_append,
      List.length_singleton] at loop ⊢
    rw [← loop]
    congr 1
    simp only [List.length_cons]
    omega
  have moved := lt_pc_of_getOp2_ok readOk
  rw [parse, first]
  simp only [Bool.not_true, Bool.false_eq_true, if_false, collected, matched, skipped]
  congr 1
  rw [show (pushAll [op] args).length + 1 + ds.length + (getOp2 a 0).pc - 1 =
      (pushAll [op] args ++ d :: ds).length + ((getOp2 a 0).pc - 1) by simp; omega]
  exact List.drop_length_add_append _

/-- A keva prefix written by a builder parses back: its operation, and the address behind its drops. -/
theorem parse_kevaPrefix {op d : opcodetype} {args : List valtype} {ds a : CScript}
    {kevaOp : KevaOp} (notPush : OP_PUSHDATA4 < op) (matched : opOfArgs op args = some kevaOp)
    (fits : ∀ b ∈ args, b.length < 2 ^ 32)
    (drops : ∀ x ∈ d :: ds, isDropLike x = true ∧ OP_PUSHDATA4 < x)
    (lead : isAddressLead a = true) :
    parse (pushAll [op] args ++ d :: ds ++ a) = ⟨some kevaOp, a⟩ := by
  simp only [isAddressLead, Bool.and_eq_true, beq_iff_eq, Bool.not_eq_true'] at lead
  obtain ⟨⟨readOk, readPc⟩, notDrop⟩ := lead
  rw [parse_kevaPrefix_of_read notPush matched fits drops readOk notDrop, readPc]
  rfl

theorem buildKevaPut_eq (a : CScript) (nameSpace key value : valtype) :
    buildKevaPut a nameSpace key value =
      pushAll [OP_KEVA_PUT] [nameSpace, key, value] ++ OP_2DROP :: [OP_DROP] ++ a := by
  simp [buildKevaPut, pushAll, pushOpcode]

theorem buildKevaDelete_eq (a : CScript) (nameSpace key : valtype) :
    buildKevaDelete a nameSpace key = pushAll [OP_KEVA_DELETE] [nameSpace, key] ++ OP_2DROP :: [] ++ a := by
  simp [buildKevaDelete, pushAll, pushOpcode]

theorem buildKevaNamespace_eq (a : CScript) (nameSpace displayName : valtype) :
    buildKevaNamespace a nameSpace displayName =
      pushAll [OP_KEVA_NAMESPACE] [nameSpace, displayName] ++ OP_2DROP :: [] ++ a := by
  simp [buildKevaNamespace, pushAll, pushOpcode]

/-- `buildKevaPut` parses back to its operation and its address. -/
theorem parse_buildKevaPut {a : CScript} {nameSpace key value : valtype}
    (lead : isAddressLead a = true) (nameFits : nameSpace.length < 2 ^ 32)
    (keyFits : key.length < 2 ^ 32) (valueFits : value.length < 2 ^ 32) :
    parse (buildKevaPut a nameSpace key value) = ⟨some (.kevaPut nameSpace key value), a⟩ := by
  rw [buildKevaPut_eq]
  refine parse_kevaPrefix (by decide) (by simp [opOfArgs]) ?_ (by decide +kernel) lead
  simp only [List.mem_cons, List.not_mem_nil, or_false, forall_eq_or_imp, forall_eq]
  exact ⟨nameFits, keyFits, valueFits⟩

/-- `buildKevaDelete` parses back to its operation and its address. -/
theorem parse_buildKevaDelete {a : CScript} {nameSpace key : valtype}
    (lead : isAddressLead a = true) (nameFits : nameSpace.length < 2 ^ 32)
    (keyFits : key.length < 2 ^ 32) :
    parse (buildKevaDelete a nameSpace key) = ⟨some (.kevaDelete nameSpace key), a⟩ := by
  rw [buildKevaDelete_eq]
  refine parse_kevaPrefix (by decide) (by simp [opOfArgs]) ?_ (by decide +kernel) lead
  simp only [List.mem_cons, List.not_mem_nil, or_false, forall_eq_or_imp, forall_eq]
  exact ⟨nameFits, keyFits⟩

/-- `buildKevaNamespace` parses back to its operation and its address. -/
theorem parse_buildKevaNamespace {a : CScript} {nameSpace displayName : valtype}
    (lead : isAddressLead a = true) (nameFits : nameSpace.length < 2 ^ 32)
    (displayFits : displayName.length < 2 ^ 32) :
    parse (buildKevaNamespace a nameSpace displayName) =
      ⟨some (.kevaNamespace nameSpace displayName), a⟩ := by
  rw [buildKevaNamespace_eq]
  refine parse_kevaPrefix (by decide) (by simp [opOfArgs]; decide) ?_ (by decide +kernel) lead
  simp only [List.mem_cons, List.not_mem_nil, or_false, forall_eq_or_imp, forall_eq]
  exact ⟨nameFits, displayFits⟩

end CKevaScript

/-- `CScript::IsPayToScriptHash(allowKeva)`: with `allowKeva` the prefix is stripped first. -/
def isPayToScriptHash (script : CScript) (allowKeva : Bool) : Bool :=
  if !allowKeva then isPayToScriptHashPlain script
  else isPayToScriptHashPlain (CKevaScript.parse script).address

/-- `CScript::IsPayToWitnessScriptHash(false)`: `OP_0 <32 bytes>`. -/
def isPayToWitnessScriptHashPlain (script : CScript) : Bool :=
  script.length == 34 && script[0]? == some OP_0 && script[1]? == some 0x20

/-- `CScript::IsPayToWitnessScriptHash(allowKeva)`. -/
def isPayToWitnessScriptHash (script : CScript) (allowKeva : Bool) : Bool :=
  if !allowKeva then isPayToWitnessScriptHashPlain script
  else isPayToWitnessScriptHashPlain (CKevaScript.parse script).address

/-! ## Addresses behind the prefix -/

namespace CKevaScript

/-- Cutting an address one byte before the end of its first operation keeps it only if that operation is one byte. -/
theorem drop_pred_pc_eq_self_iff {a : CScript} (readOk : (getOp2 a 0).ok = true) :
    a.drop ((getOp2 a 0).pc - 1) = a ↔ (getOp2 a 0).pc = 1 := by
  have moved := lt_pc_of_getOp2_ok readOk
  have nonempty : 0 < a.length := by
    cases a with
    | nil => simp [getOp2, GetOpResult.failure] at readOk
    | cons first rest => simp
  constructor
  · intro same
    have lengths := congrArg List.length same
    rw [List.length_drop] at lengths
    omega
  · intro one
    rw [one]
    rfl

/--
What the three builders write parses back to their operation, but the
address comes back cut one byte before the end of its first operation: an
address that opens with a push of data does not come back.
-/
theorem kevaBuilders_parse_cut_address {a : CScript} {nameSpace key value displayName : valtype}
    (readOk : (getOp2 a 0).ok = true) (notDrop : isDropLike (getOp2 a 0).opcode = false)
    (nameFits : nameSpace.length < 2 ^ 32) (keyFits : key.length < 2 ^ 32)
    (valueFits : value.length < 2 ^ 32) (displayFits : displayName.length < 2 ^ 32) :
    parse (buildKevaPut a nameSpace key value) =
        ⟨some (.kevaPut nameSpace key value), a.drop ((getOp2 a 0).pc - 1)⟩ ∧
      parse (buildKevaDelete a nameSpace key) =
        ⟨some (.kevaDelete nameSpace key), a.drop ((getOp2 a 0).pc - 1)⟩ ∧
      parse (buildKevaNamespace a nameSpace displayName) =
        ⟨some (.kevaNamespace nameSpace displayName), a.drop ((getOp2 a 0).pc - 1)⟩ ∧
      (a.drop ((getOp2 a 0).pc - 1) = a ↔ (getOp2 a 0).pc = 1) := by
  refine ⟨?_, ?_, ?_, drop_pred_pc_eq_self_iff readOk⟩
  · rw [buildKevaPut_eq]
    refine parse_kevaPrefix_of_read (by decide) (by simp [opOfArgs]) ?_ (by decide +kernel) readOk notDrop
    simp only [List.mem_cons, List.not_mem_nil, or_false, forall_eq_or_imp, forall_eq]
    exact ⟨nameFits, keyFits, valueFits⟩
  · rw [buildKevaDelete_eq]
    refine parse_kevaPrefix_of_read (by decide) (by simp [opOfArgs]) ?_ (by decide +kernel) readOk notDrop
    simp only [List.mem_cons, List.not_mem_nil, or_false, forall_eq_or_imp, forall_eq]
    exact ⟨nameFits, keyFits⟩
  · rw [buildKevaNamespace_eq]
    refine parse_kevaPrefix_of_read (by decide) (by simp [opOfArgs]; decide) ?_ (by decide +kernel)
      readOk notDrop
    simp only [List.mem_cons, List.not_mem_nil, or_false, forall_eq_or_imp, forall_eq]
    exact ⟨nameFits, displayFits⟩

/--
An address that opens with the push of the one byte `OP_HASH160` and
goes on with a push of twenty bytes and `OP_EQUAL`: cut one byte into it,
it reads as pay-to-script-hash.
-/
def pushLedAddress : CScript :=
  [0x01, 0xa9, 0x14] ++ List.replicate 20 0 ++ [0x87]

theorem pushLedAddress_parsed_as_script_hash :
    (getOp2 pushLedAddress 0).ok = true ∧ isDropLike (getOp2 pushLedAddress 0).opcode = false ∧
    ([53, 1] : valtype).length < 2 ^ 32 ∧ ([1] : valtype).length < 2 ^ 32 ∧
    ([1] : valtype).length < 2 ^ 32 ∧ ([1] : valtype).length < 2 ^ 32 ∧
    (parse (buildKevaPut pushLedAddress [53, 1] [1] [1]) =
        ⟨some (.kevaPut [53, 1] [1] [1]), pushLedAddress.drop ((getOp2 pushLedAddress 0).pc - 1)⟩ ∧
      parse (buildKevaDelete pushLedAddress [53, 1] [1]) =
        ⟨some (.kevaDelete [53, 1] [1]), pushLedAddress.drop ((getOp2 pushLedAddress 0).pc - 1)⟩ ∧
      parse (buildKevaNamespace pushLedAddress [53, 1] [1]) =
        ⟨some (.kevaNamespace [53, 1] [1]),
          pushLedAddress.drop ((getOp2 pushLedAddress 0).pc - 1)⟩ ∧
      (pushLedAddress.drop ((getOp2 pushLedAddress 0).pc - 1) = pushLedAddress ↔
        (getOp2 pushLedAddress 0).pc = 1)) ∧
    (getOp2 pushLedAddress 0).pc = 2 ∧
    isPayToScriptHash (buildKevaPut pushLedAddress [53, 1] [1] [1]) true = true ∧
    isPayToScriptHash pushLedAddress false = false :=
  ⟨by decide, by decide, by decide, by decide, by decide, by decide,
    kevaBuilders_parse_cut_address (by decide) (by decide) (by decide) (by decide) (by decide)
      (by decide),
    by decide, by decide, by decide⟩

/--
Over an address whose first operation is one byte and no drop, every
builder's script parses back to its operation and its address, and
`IsPayToScriptHash(true)` of it is `IsPayToScriptHash(false)` of the address.
-/
theorem kevaBuilders_parse_roundtrip {a : CScript} {nameSpace key value displayName : valtype}
    (lead : isAddressLead a = true) (nameFits : nameSpace.length < 2 ^ 32)
    (keyFits : key.length < 2 ^ 32) (valueFits : value.length < 2 ^ 32)
    (displayFits : displayName.length < 2 ^ 32) :
    parse (buildKevaPut a nameSpace key value) = ⟨some (.kevaPut nameSpace key value), a⟩ ∧
      parse (buildKevaDelete a nameSpace key) = ⟨some (.kevaDelete nameSpace key), a⟩ ∧
      parse (buildKevaNamespace a nameSpace displayName) =
        ⟨some (.kevaNamespace nameSpace displayName), a⟩ ∧
      isPayToScriptHash (buildKevaPut a nameSpace key value) true = isPayToScriptHash a false ∧
      isPayToScriptHash (buildKevaDelete a nameSpace key) true = isPayToScriptHash a false ∧
      isPayToScriptHash (buildKevaNamespace a nameSpace displayName) true =
        isPayToScriptHash a false := by
  have put := parse_buildKevaPut lead nameFits keyFits valueFits
  have delete := parse_buildKevaDelete lead nameFits keyFits
  have registration := parse_buildKevaNamespace lead nameFits displayFits
  refine ⟨put, delete, registration, ?_, ?_, ?_⟩
  · simp [isPayToScriptHash, put]
  · simp [isPayToScriptHash, delete]
  · simp [isPayToScriptHash, registration]

/-- Over a pay-to-script-hash address, which the built scripts are read as. -/
theorem kevaBuilders_parse_roundtrip_scriptHash :
    isAddressLead ([0xa9, 0x14] ++ List.replicate 20 0 ++ [0x87]) = true ∧
    ([53, 1] : valtype).length < 2 ^ 32 ∧ ([1] : valtype).length < 2 ^ 32 ∧
    ([1] : valtype).length < 2 ^ 32 ∧ ([1] : valtype).length < 2 ^ 32 ∧
    (parse (buildKevaPut ([0xa9, 0x14] ++ List.replicate 20 0 ++ [0x87]) [53, 1] [1] [1]) =
        ⟨some (.kevaPut [53, 1] [1] [1]), [0xa9, 0x14] ++ List.replicate 20 0 ++ [0x87]⟩ ∧
      parse (buildKevaDelete ([0xa9, 0x14] ++ List.replicate 20 0 ++ [0x87]) [53, 1] [1]) =
        ⟨some (.kevaDelete [53, 1] [1]), [0xa9, 0x14] ++ List.replicate 20 0 ++ [0x87]⟩ ∧
      parse (buildKevaNamespace ([0xa9, 0x14] ++ List.replicate 20 0 ++ [0x87]) [53, 1] [1]) =
        ⟨some (.kevaNamespace [53, 1] [1]), [0xa9, 0x14] ++ List.replicate 20 0 ++ [0x87]⟩ ∧
      isPayToScriptHash (buildKevaPut ([0xa9, 0x14] ++ List.replicate 20 0 ++ [0x87])
          [53, 1] [1] [1]) true =
        isPayToScriptHash ([0xa9, 0x14] ++ List.replicate 20 0 ++ [0x87]) false ∧
      isPayToScriptHash (buildKevaDelete ([0xa9, 0x14] ++ List.replicate 20 0 ++ [0x87])
          [53, 1] [1]) true =
        isPayToScriptHash ([0xa9, 0x14] ++ List.replicate 20 0 ++ [0x87]) false ∧
      isPayToScriptHash (buildKevaNamespace ([0xa9, 0x14] ++ List.replicate 20 0 ++ [0x87])
          [53, 1] [1]) true =
        isPayToScriptHash ([0xa9, 0x14] ++ List.replicate 20 0 ++ [0x87]) false) ∧
    isPayToScriptHash ([0xa9, 0x14] ++ List.replicate 20 0 ++ [0x87]) false = true :=
  ⟨by decide, by decide, by decide, by decide, by decide,
    kevaBuilders_parse_roundtrip (by decide) (by decide) (by decide) (by decide) (by decide),
    by decide⟩

end CKevaScript

end Kevacoin
