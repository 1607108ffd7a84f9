import Kevacoin.Script.Verify
import Kevacoin.Script.Keva

/-!
# Spending a keva output

A keva output locks its coins with a keva prefix in front of an address:
`buildKevaPut`, `buildKevaDelete` or `buildKevaNamespace` around a script of
`GetScriptForDestination`.  `EvalScript` runs the prefix as the keva
operation, which does nothing, the pushes of its arguments, and the drops
that take them off again: the address then meets the stack it would have
met alone.  For `buildKevaPut` this is proved both ways: the prefix runs
(`loop_kevaPut`), and a run that succeeds went through it
(`loop_kevaPut_ok`).

`VerifyScript` looks at the locking script as a whole.  For
pay-to-script-hash it strips the prefix (`IsPayToScriptHash(true)`), for a
witness program it does not: a keva output that pays to a witness address is
no witness program, and its address runs as a bare script.  A
pay-to-witness-pubkey-hash address, run bare, pushes the key hash, which is
true.  Under the flags blocks verify with, the output is spent with an empty
unlocking script and an empty witness, and the owner's witness spend is
refused as unexpected; under the standard flags, whose clean-stack rule the
two pushed elements break, it is spent by nothing.
-/

namespace Kevacoin

open ScriptError CKevaScript

/-! ## The prefix, one operation at a time -/

section Prefix

variable {crypto : ScriptCrypto} {flags : UInt32} {checker : BaseSignatureChecker}
  {sigversion : SigVersion}

/-- The keva operation that opens a prefix is counted and changes nothing else. -/
theorem step_kevaOp {script p rest : CScript} {opcode : opcodetype} {state : EvalState}
    (split : script = p ++ opcode :: rest) (reached : state.pc = p.length)
    (keva : opcode = OP_KEVA_NAMESPACE ∨ opcode = OP_KEVA_PUT ∨ opcode = OP_KEVA_DELETE)
    (counted : state.nOpCount + 1 ≤ MAX_OPS_PER_SCRIPT)
    (executing : state.vfExec.contains false = false)
    (room : state.stack.length + state.altstack.length ≤ MAX_STACK_SIZE) :
    step crypto script flags checker sigversion state =
      .ok { state with pc := p.length + 1, nOpCount := state.nOpCount + 1 } := by
  have plain : OP_16 < opcode ∧ isDisabled opcode = false ∧ opcode ≠ OP_CODESEPARATOR := by
    rcases keva with rfl | rfl | rfl <;> decide
  rw [step_opcode_at split reached plain.1 counted plain.2.1 plain.2.2 executing,
    executeOpcode_keva true _ keva]
  exact checkStackSize_of_le room

/-- `OP_2DROP` of a prefix pops two elements. -/
theorem step_2DROP {script p rest : CScript} {state : EvalState} {first second : valtype}
    {below : List valtype} (split : script = p ++ OP_2DROP :: rest)
    (reached : state.pc = p.length) (stacked : state.stack = first :: second :: below)
    (counted : state.nOpCount + 1 ≤ MAX_OPS_PER_SCRIPT)
    (executing : state.vfExec.contains false = false)
    (room : state.stack.length + state.altstack.length ≤ MAX_STACK_SIZE) :
    step crypto script flags checker sigversion state =
      .ok { state with stack := below, pc := p.length + 1, nOpCount := state.nOpCount + 1 } := by
  have moved : ({ state with pc := p.length + 1, nOpCount := state.nOpCount + 1 } :
      EvalState).stack = first :: second :: below := stacked
  rw [step_opcode_at split reached (by decide) counted (by decide) (by decide) executing,
    executeOpcode_2DROP true moved]
  rw [stacked] at room
  exact checkStackSize_of_le (by simp only [EvalState.withStack, List.length_cons] at room ⊢; omega)

/-- `OP_DROP` of a prefix pops one element. -/
theorem step_DROP {script p rest : CScript} {state : EvalState} {first : valtype}
    {below : List valtype} (split : script = p ++ OP_DROP :: rest)
    (reached : state.pc = p.length) (stacked : state.stack = first :: below)
    (counted : state.nOpCount + 1 ≤ MAX_OPS_PER_SCRIPT)
    (executing : state.vfExec.contains false = false)
    (room : state.stack.length + state.altstack.length ≤ MAX_STACK_SIZE) :
    step crypto script flags checker sigversion state =
      .ok { state with stack := below, pc := p.length + 1, nOpCount := state.nOpCount + 1 } := by
  have moved : ({ state with pc := p.length + 1, nOpCount := state.nOpCount + 1 } :
      EvalState).stack = first :: below := stacked
  rw [step_opcode_at split reached (by decide) counted (by decide) (by decide) executing,
    executeOpcode_DROP true moved]
  rw [stacked] at room
  exact checkStackSize_of_le (by simp only [EvalState.withStack, List.length_cons] at room ⊢; omega)

/-- The bytes of `buildKevaPut` as the prefix is read: the operation, the pushes, the drops. -/
theorem buildKevaPut_split (address : CScript) (nameSpace key value : valtype) :
    buildKevaPut address nameSpace key value =
      pushAll [OP_KEVA_PUT] [nameSpace, key, value] ++ OP_2DROP :: OP_DROP :: address := by
  simp [buildKevaPut_eq]

theorem buildKevaPut_opening (address : CScript) (nameSpace key value : valtype) :
    buildKevaPut address nameSpace key value =
      [] ++ OP_KEVA_PUT :: (pushAll [] [nameSpace, key, value] ++ OP_2DROP :: OP_DROP :: address) := by
  rw [buildKevaPut_split, pushAll_eq_append]
  rfl

theorem buildKevaPut_closing (address : CScript) (nameSpace key value : valtype) :
    buildKevaPut address nameSpace key value =
      (pushAll [OP_KEVA_PUT] [nameSpace, key, value] ++ [OP_2DROP]) ++ OP_DROP :: address := by
  simp [buildKevaPut_split]

/-- Backwards: the keva operation that opens a prefix, where it succeeds, only moves on. -/
theorem step_kevaOp_ok {script p rest : CScript} {opcode : opcodetype} {state next : EvalState}
    (stepped : step crypto script flags checker sigversion state = .ok next)
    (split : script = p ++ opcode :: rest) (reached : state.pc = p.length)
    (keva : opcode = OP_KEVA_NAMESPACE ∨ opcode = OP_KEVA_PUT ∨ opcode = OP_KEVA_DELETE)
    (executing : state.vfExec.contains false = false) :
    next = { state with pc := p.length + 1, nOpCount := state.nOpCount + 1 } := by
  have above : OP_16 < opcode := by
    rcases keva with rfl | rfl | rfl <;> decide
  have ran := step_opcode_ok split reached above executing stepped
  rw [executeOpcode_keva true _ keva] at ran
  exact (Except.ok.inj ran).symm

/-- Backwards: `OP_2DROP` of a prefix, where it succeeds, popped two elements. -/
theorem step_2DROP_ok {script p rest : CScript} {state next : EvalState} {first second : valtype}
    {below : List valtype} (stepped : step crypto script flags checker sigversion state = .ok next)
    (split : script = p ++ OP_2DROP :: rest) (reached : state.pc = p.length)
    (stacked : state.stack = first :: second :: below)
    (executing : state.vfExec.contains false = false) :
    next = { state with stack := below, pc := p.length + 1, nOpCount := state.nOpCount + 1 } := by
  have moved : ({ state with pc := p.length + 1, nOpCount := state.nOpCount + 1 } :
      EvalState).stack = first :: second :: below := stacked
  have ran := step_opcode_ok split reached (by decide) executing stepped
  rw [executeOpcode_2DROP true moved] at ran
  exact (Except.ok.inj ran).symm

/-- Backwards: `OP_DROP` of a prefix, where it succeeds, popped one element. -/
theorem step_DROP_ok {script p rest : CScript} {state next : EvalState} {first : valtype}
    {below : List valtype} (stepped : step crypto script flags checker sigversion state = .ok next)
    (split : script = p ++ OP_DROP :: rest) (reached : state.pc = p.length)
    (stacked : state.stack = first :: below)
    (executing : state.vfExec.contains false = false) :
    next = { state with stack := below, pc := p.length + 1, nOpCount := state.nOpCount + 1 } := by
  have moved : ({ state with pc := p.length + 1, nOpCount := state.nOpCount + 1 } :
      EvalState).stack = first :: below := stacked
  have ran := step_opcode_ok split reached (by decide) executing stepped
  rw [executeOpcode_DROP true moved] at ran
  exact (Except.ok.inj ran).symm

/-! ## Whole prefixes -/

/--
The prefix of `buildKevaPut` runs in six iterations: the operation, three
pushes and two drops, which leave the stack as they found it.
-/
theorem loop_kevaPut (address : CScript) (nameSpace key value : valtype) (state : EvalState)
    (fuel : Nat) (start : state.pc = 0) (executing : state.vfExec.contains false = false)
    (runs : ∀ b ∈ [nameSpace, key, value], pushable flags b = true)
    (room : state.stack.length + state.altstack.length + 3 ≤ MAX_STACK_SIZE)
    (counted : state.nOpCount + 3 ≤ MAX_OPS_PER_SCRIPT) :
    Loop.loop (finished (buildKevaPut address nameSpace key value))
        (step crypto (buildKevaPut address nameSpace key value) flags checker sigversion)
        (fuel + 6) state =
      Loop.loop (finished (buildKevaPut address nameSpace key value))
        (step crypto (buildKevaPut address nameSpace key value) flags checker sigversion) fuel
        { state with
          pc := (pushAll [OP_KEVA_PUT] [nameSpace, key, value]).length + 2
          nOpCount := state.nOpCount + 3 } := by
  have split := buildKevaPut_split address nameSpace key value
  have opening := buildKevaPut_opening address nameSpace key value
  have closing := buildKevaPut_closing address nameSpace key value
  have pushedLength := length_pushAll [OP_KEVA_PUT] [nameSpace, key, value]
  simp only [List.length_cons, List.length_nil] at pushedLength
  have opened : step crypto (buildKevaPut address nameSpace key value) flags checker sigversion
      state = .ok { state with pc := [].length + 1, nOpCount := state.nOpCount + 1 } :=
    step_kevaOp opening start (by simp) (by omega) executing (by omega)
  have pushed := @loop_pushAll crypto flags checker sigversion _ _ _ [OP_KEVA_PUT]
    { state with pc := [].length + 1, nOpCount := state.nOpCount + 1 } (fuel + 2) split rfl
    executing runs (by simpa using room)
  have dropped : step crypto (buildKevaPut address nameSpace key value) flags checker sigversion
      { state with
        stack := [nameSpace, key, value].reverse ++ state.stack
        pc := (pushAll [OP_KEVA_PUT] [nameSpace, key, value]).length
        nOpCount := state.nOpCount + 1 } =
      .ok { state with
        stack := nameSpace :: state.stack
        pc := (pushAll [OP_KEVA_PUT] [nameSpace, key, value]).length + 1
        nOpCount := state.nOpCount + 1 + 1 } :=
    step_2DROP split rfl rfl (by dsimp only; omega) executing (by simp; omega)
  have closed : step crypto (buildKevaPut address nameSpace key value) flags checker sigversion
      { state with
        stack := nameSpace :: state.stack
        pc := (pushAll [OP_KEVA_PUT] [nameSpace, key, value]).length + 1
        nOpCount := state.nOpCount + 1 + 1 } =
      .ok { state with
        pc := (pushAll [OP_KEVA_PUT] [nameSpace, key, value] ++ [OP_2DROP]).length + 1
        nOpCount := state.nOpCount + 1 + 1 + 1 } :=
    step_DROP closing (by simp) rfl (by dsimp only; omega) executing (by simp; omega)
  have sixSteps : fuel + 6 = fuel + 2 + [nameSpace, key, value].length + 1 := by
    simp only [List.length_cons, List.length_nil]
  rw [sixSteps, loop_at opening start opened, pushed, loop_at split (by rfl) dropped,
    loop_at closing (by simp) closed]
  simp only [List.length_append, List.length_singleton]

/--
Backwards: a run through the prefix of `buildKevaPut` that succeeds went
through the six iterations of `loop_kevaPut`, whatever room and count it had.
-/
theorem loop_kevaPut_ok (address : CScript) (nameSpace key value : valtype)
    {state final : EvalState} {fuel : Nat} (start : state.pc = 0)
    (executing : state.vfExec.contains false = false)
    (fits : ∀ b ∈ [nameSpace, key, value], b.length < 2 ^ 32)
    (ran : Loop.loop (finished (buildKevaPut address nameSpace key value))
        (step crypto (buildKevaPut address nameSpace key value) flags checker sigversion)
        (fuel + 6) state = .ok final) :
    Loop.loop (finished (buildKevaPut address nameSpace key value))
        (step crypto (buildKevaPut address nameSpace key value) flags checker sigversion) fuel
        { state with
          pc := (pushAll [OP_KEVA_PUT] [nameSpace, key, value]).length + 2
          nOpCount := state.nOpCount + 3 } = .ok final := by
  have split := buildKevaPut_split address nameSpace key value
  have opening := buildKevaPut_opening address nameSpace key value
  have closing := buildKevaPut_closing address nameSpace key value
  have sixSteps : fuel + 6 = fuel + 2 + [nameSpace, key, value].length + 1 := by
    simp only [List.length_cons, List.length_nil]
  rw [sixSteps] at ran
  obtain ⟨opened, openStep, ran⟩ := Loop.loop_succ_ok (finished_of_split opening start) ran
  obtain rfl := step_kevaOp_ok openStep opening start (by simp) executing
  have pushed := loop_pushAll_ok _ _ [OP_KEVA_PUT]
    { state with pc := [].length + 1, nOpCount := state.nOpCount + 1 } (fuel + 2) final split rfl
    executing fits ran
  obtain ⟨dropped, dropStep, ran⟩ := Loop.loop_succ_ok (finished_of_split split rfl) pushed
  obtain rfl := step_2DROP_ok dropStep split rfl rfl executing
  obtain ⟨closed, closeStep, ran⟩ := Loop.loop_succ_ok (finished_of_split closing (by simp)) ran
  obtain rfl := step_DROP_ok closeStep closing (by simp) rfl executing
  simpa only [List.length_append, List.length_singleton, List.append_eq, List.nil_append,
    Nat.add_assoc] using ran

end Prefix

/-! ## Outputs to addresses of pushes -/

section PushAddress

variable {crypto : ScriptCrypto} {flags : UInt32} {checker : BaseSignatureChecker}
  {sigversion : SigVersion}

/-- A `buildKevaPut` script is at most twelve bytes longer than its parts. -/
theorem length_buildKevaPut_le (address : CScript) {nameSpace key value : valtype}
    (nameSmall : nameSpace.length ≤ 0xffff) (keySmall : key.length ≤ 0xffff)
    (valueSmall : value.length ≤ 0xffff) :
    (buildKevaPut address nameSpace key value).length ≤
      nameSpace.length + key.length + value.length + address.length + 12 := by
  have first := length_pushData_le [OP_KEVA_PUT] nameSpace nameSmall
  have second := length_pushData_le (pushData [OP_KEVA_PUT] nameSpace) key keySmall
  have third := length_pushData_le (pushData (pushData [OP_KEVA_PUT] nameSpace) key) value
    valueSmall
  simp only [buildKevaPut, pushOpcode, List.length_append, List.length_singleton] at first ⊢
  omega

/-- A `buildKevaPut` script around an address of pushes, read as one run of pushes after the drops. -/
theorem buildKevaPut_pushAll_split (bs : List valtype) (nameSpace key value : valtype) :
    buildKevaPut (pushAll [] bs) nameSpace key value =
      pushAll (pushAll [OP_KEVA_PUT] [nameSpace, key, value] ++ [OP_2DROP, OP_DROP]) bs ++ [] := by
  rw [buildKevaPut_eq,
    pushAll_eq_append (pushAll [OP_KEVA_PUT] [nameSpace, key, value] ++ [OP_2DROP, OP_DROP]) bs]
  simp

theorem length_buildKevaPut_pushAll (bs : List valtype) (nameSpace key value : valtype) :
    (buildKevaPut (pushAll [] bs) nameSpace key value).length =
      (pushAll [OP_KEVA_PUT] [nameSpace, key, value]).length + 2 + (pushAll [] bs).length := by
  simp [buildKevaPut_eq]
  omega

/-- Every vector a `buildKevaPut` script pushes is no longer than the script. -/
theorem length_le_buildKevaPut_of_mem (address : CScript) {nameSpace key value b : valtype}
    (mem : b ∈ [nameSpace, key, value]) :
    b.length ≤ (buildKevaPut address nameSpace key value).length := by
  have inside := length_le_pushAll_of_mem [OP_KEVA_PUT] mem
  rw [buildKevaPut_split, List.length_append]
  omega

/--
Behind the prefix of `buildKevaPut`, an address made of pushes leaves the
stack it leaves alone (`EvalScript_pushAll`).
-/
theorem EvalScript_kevaPut_pushAll (bs : List valtype) (nameSpace key value : valtype)
    (stack : List valtype) (runs : ∀ b ∈ [nameSpace, key, value], pushable flags b = true)
    (addressRuns : ∀ b ∈ bs, pushable flags b = true)
    (small : (buildKevaPut (pushAll [] bs) nameSpace key value).length ≤ MAX_SCRIPT_SIZE)
    (room : stack.length + 3 + bs.length ≤ MAX_STACK_SIZE) :
    EvalScript crypto (buildKevaPut (pushAll [] bs) nameSpace key value) flags checker sigversion
      stack = .ok (bs.reverse ++ stack) := by
  have prefixLong := length_pushAll [OP_KEVA_PUT] [nameSpace, key, value]
  have addressLong := length_pushAll [] bs
  simp only [List.length_cons, List.length_nil] at prefixLong addressLong
  have split := buildKevaPut_pushAll_split bs nameSpace key value
  have total := length_buildKevaPut_pushAll bs nameSpace key value
  have fuel : (buildKevaPut (pushAll [] bs) nameSpace key value).length -
        (EvalState.initial stack).pc =
      ((pushAll [] bs).length - bs.length + (pushAll [OP_KEVA_PUT] [nameSpace, key, value]).length
        - 4 + bs.length) + 6 := by
    simp only [EvalState.initial, total]
    omega
  have prefixRun := @loop_kevaPut crypto flags checker sigversion (pushAll [] bs) nameSpace key
    value (EvalState.initial stack)
    ((pushAll [] bs).length - bs.length + (pushAll [OP_KEVA_PUT] [nameSpace, key, value]).length
      - 4 + bs.length) rfl rfl runs (by simp [EvalState.initial]; omega)
    (by simp [EvalState.initial, MAX_OPS_PER_SCRIPT])
  have addressRun := @loop_pushAll crypto flags checker sigversion _ [] bs
    (pushAll [OP_KEVA_PUT] [nameSpace, key, value] ++ [OP_2DROP, OP_DROP])
    { EvalState.initial stack with
      pc := (pushAll [OP_KEVA_PUT] [nameSpace, key, value]).length + 2
      nOpCount := (EvalState.initial stack).nOpCount + 3 }
    ((pushAll [] bs).length - bs.length + (pushAll [OP_KEVA_PUT] [nameSpace, key, value]).length
      - 4) split (by simp) rfl addressRuns (by simp [EvalState.initial]; omega)
  rw [EvalScript, if_neg (Nat.not_lt.mpr small), evalLoop, fuel, prefixRun, addressRun,
    Loop.loop_of_done]
  · rfl
  · simp [finished, split]

/--
Backwards: where a `buildKevaPut` script behind an address of pushes runs
through, it leaves what `EvalScript_kevaPut_pushAll` says it leaves.
-/
theorem EvalScript_kevaPut_pushAll_ok (bs : List valtype) (nameSpace key value : valtype)
    {stack result : List valtype}
    (ran : EvalScript crypto (buildKevaPut (pushAll [] bs) nameSpace key value) flags checker
      sigversion stack = .ok result) :
    result = bs.reverse ++ stack := by
  have small := length_le_of_EvalScript_ok ran
  have split := buildKevaPut_pushAll_split bs nameSpace key value
  have total := length_buildKevaPut_pushAll bs nameSpace key value
  have prefixLong := length_pushAll [OP_KEVA_PUT] [nameSpace, key, value]
  have addressLong := length_pushAll [] bs
  simp only [List.length_cons, List.length_nil] at prefixLong addressLong
  have fits : ∀ b ∈ [nameSpace, key, value] ++ bs, b.length < 2 ^ 32 := by
    intro b mem
    have bounded : b.length ≤ (buildKevaPut (pushAll [] bs) nameSpace key value).length := by
      rcases List.mem_append.mp mem with inPrefix | inAddress
      · exact length_le_buildKevaPut_of_mem _ inPrefix
      · have inside := length_le_pushAll_of_mem [] inAddress
        omega
    unfold MAX_SCRIPT_SIZE at small
    omega
  have fuel : (buildKevaPut (pushAll [] bs) nameSpace key value).length -
        (EvalState.initial stack).pc =
      ((pushAll [] bs).length - bs.length + (pushAll [OP_KEVA_PUT] [nameSpace, key, value]).length
        - 4 + bs.length) + 6 := by
    simp only [EvalState.initial, total]
    omega
  rw [EvalScript, if_neg (Nat.not_lt.mpr small), evalLoop, fuel] at ran
  cases looped : Loop.loop (finished (buildKevaPut (pushAll [] bs) nameSpace key value))
      (step crypto (buildKevaPut (pushAll [] bs) nameSpace key value) flags checker sigversion)
      (((pushAll [] bs).length - bs.length + (pushAll [OP_KEVA_PUT] [nameSpace, key, value]).length
        - 4 + bs.length) + 6) (EvalState.initial stack) with
  | error failure => simp [looped] at ran
  | ok final =>
      have prefixRun := loop_kevaPut_ok (pushAll [] bs) nameSpace key value rfl rfl
        (fun b mem => fits b (List.mem_append_left bs mem)) looped
      have addressRun := loop_pushAll_ok [] bs
        (pushAll [OP_KEVA_PUT] [nameSpace, key, value] ++ [OP_2DROP, OP_DROP])
        { EvalState.initial stack with
          pc := (pushAll [OP_KEVA_PUT] [nameSpace, key, value]).length + 2
          nOpCount := (EvalState.initial stack).nOpCount + 3 }
        ((pushAll [] bs).length - bs.length
          + (pushAll [OP_KEVA_PUT] [nameSpace, key, value]).length - 4) final split (by simp) rfl
        (fun b mem => fits b (List.mem_append_right _ mem)) prefixRun
      rw [Loop.loop_of_done (by simp [finished, split])] at addressRun
      cases addressRun
      simp only [looped] at ran
      cases ran
      rfl

end PushAddress

/-! ## Keva outputs to witness key hashes -/

/-- `buildKevaPut` opens with `OP_KEVA_PUT`: it is no witness program, whatever its address. -/
theorem isWitnessProgram_buildKevaPut (address : CScript) (nameSpace key value : valtype) :
    isWitnessProgram (buildKevaPut address nameSpace key value) = none := by
  rw [buildKevaPut_eq, pushAll_eq_append]
  exact isWitnessProgram_of_above (by decide) _

/-- A witness key hash opens with the push of nothing, which can lead an address. -/
theorem isAddressLead_witnessV0KeyHash (id : uint160) :
    isAddressLead (GetScriptForDestination (.witnessV0KeyHash id)) = true := by
  have reads := getOp2_pushData [] [] (20 :: id.toByteVector) (by decide)
  have shape : GetScriptForDestination (.witnessV0KeyHash id) =
      pushData [] [] ++ (20 :: id.toByteVector) := witnessV0KeyHash_eq id
  simp only [List.length_nil] at reads
  rw [isAddressLead, shape, reads]
  decide

/-- `IsPayToScriptHash(true)` reads the witness key hash behind a `buildKevaPut` prefix. -/
theorem isPayToScriptHash_kevaPut_witnessV0KeyHash (id : uint160) {nameSpace key value : valtype}
    (nameFits : nameSpace.length < 2 ^ 32) (keyFits : key.length < 2 ^ 32)
    (valueFits : value.length < 2 ^ 32) :
    isPayToScriptHash
      (buildKevaPut (GetScriptForDestination (.witnessV0KeyHash id)) nameSpace key value) true =
      false := by
  rw [isPayToScriptHash,
    parse_buildKevaPut (isAddressLead_witnessV0KeyHash id) nameFits keyFits valueFits,
    witnessV0KeyHash_eq]
  simp [isPayToScriptHashPlain, length_toByteVector]

/--
A keva output that pays to a witness key hash is guarded by nothing.  Under
flags with `SCRIPT_VERIFY_WITNESS` and `SCRIPT_VERIFY_P2SH` and without
`SCRIPT_VERIFY_CLEANSTACK`, as blocks verify, and for a hash that is not
zero, an empty unlocking script with an empty witness spends it, where the
same address alone demands its witness; the owner's witness spend of it is
refused.
-/
theorem kevaPut_witness_keyhash_unguarded (crypto : ScriptCrypto) (flags : UInt32)
    (checker : BaseSignatureChecker) (id : uint160) (nameSpace key value : valtype)
    (witnessOn : hasFlag flags SCRIPT_VERIFY_WITNESS = true)
    (p2shOn : hasFlag flags SCRIPT_VERIFY_P2SH = true)
    (notClean : hasFlag flags SCRIPT_VERIFY_CLEANSTACK = false)
    (runs : ∀ b ∈ [nameSpace, key, value], pushable flags b = true)
    (nonzero : CastToBool id.toByteVector = true) :
    VerifyScript crypto flags checker []
        (buildKevaPut (GetScriptForDestination (.witnessV0KeyHash id)) nameSpace key value) ⟨[]⟩ =
      .ok () ∧
    VerifyScript crypto flags checker [] (GetScriptForDestination (.witnessV0KeyHash id)) ⟨[]⟩ =
      .error (.scriptError SCRIPT_ERR_WITNESS_PROGRAM_MISMATCH) ∧
    ∀ sig pubKey : valtype,
      VerifyScript crypto flags checker []
          (buildKevaPut (GetScriptForDestination (.witnessV0KeyHash id)) nameSpace key value)
          ⟨[sig, pubKey]⟩ =
        .error (.scriptError SCRIPT_ERR_WITNESS_UNEXPECTED) := by
  have twenty := length_toByteVector id
  have programRuns : ∀ b ∈ [[], id.toByteVector], pushable flags b = true := by
    simp only [List.mem_cons, List.not_mem_nil, or_false, forall_eq_or_imp, forall_eq]
    exact ⟨pushable_nil, pushable_of_two_le (by omega) (by simp [twenty, MAX_SCRIPT_ELEMENT_SIZE])⟩
  have fits : ∀ b ∈ [nameSpace, key, value], b.length ≤ MAX_SCRIPT_ELEMENT_SIZE := by
    intro b mem
    have runsB := runs b mem
    simp only [pushable, Bool.and_eq_true, decide_eq_true_eq] at runsB
    exact runsB.1
  have nameFits := fits nameSpace (by simp)
  have keyFits := fits key (by simp)
  have valueFits := fits value (by simp)
  unfold MAX_SCRIPT_ELEMENT_SIZE at nameFits keyFits valueFits
  have addressLength : (GetScriptForDestination (.witnessV0KeyHash id)).length = 22 := by
    simp [witnessV0KeyHash_eq, twenty]
  have small := length_buildKevaPut_le (GetScriptForDestination (.witnessV0KeyHash id))
    (show nameSpace.length ≤ 0xffff by omega) (show key.length ≤ 0xffff by omega)
    (show value.length ≤ 0xffff by omega)
  rw [addressLength] at small
  have ran : EvalScript crypto
      (buildKevaPut (GetScriptForDestination (.witnessV0KeyHash id)) nameSpace key value) flags
      checker .SIGVERSION_BASE [] = .ok [id.toByteVector, []] :=
    EvalScript_kevaPut_pushAll [[], id.toByteVector] nameSpace key value [] runs programRuns
      (by rw [← witnessV0KeyHash_eq_pushAll]; unfold MAX_SCRIPT_SIZE; omega)
      (by simp [MAX_STACK_SIZE])
  have ranAddress : EvalScript crypto (GetScriptForDestination (.witnessV0KeyHash id)) flags
      checker .SIGVERSION_BASE [] = .ok [id.toByteVector, []] :=
    EvalScript_pushAll [[], id.toByteVector] [] programRuns
      (by rw [← witnessV0KeyHash_eq_pushAll, addressLength]; simp [MAX_SCRIPT_SIZE])
      (by simp [MAX_STACK_SIZE])
  have notProgram := isWitnessProgram_buildKevaPut
    (GetScriptForDestination (.witnessV0KeyHash id)) nameSpace key value
  have notP2SH := isPayToScriptHash_kevaPut_witnessV0KeyHash id
    (show nameSpace.length < 2 ^ 32 by omega) (show key.length < 2 ^ 32 by omega)
    (show value.length < 2 ^ 32 by omega)
  refine ⟨?_, ?_, ?_⟩
  · rw [VerifyScript, evalScripts_of_empty_scriptSig ran nonzero]
    simp [verifyBareWitness_of_none notProgram, verifyP2SH_of_not notP2SH, verifyFinal,
      notClean, witnessOn, p2shOn]
  · rw [VerifyScript, evalScripts_of_empty_scriptSig ranAddress nonzero]
    simp [verifyBareWitness, witnessOn, isWitnessProgram_witnessV0KeyHash, checkWitnessProgram,
      VerifyWitnessProgram_keyHash_mismatch twenty]
  · intro sig pubKey
    rw [VerifyScript, evalScripts_of_empty_scriptSig ran nonzero]
    simp [verifyBareWitness_of_none notProgram, verifyP2SH_of_not notP2SH, verifyFinal,
      notClean, witnessOn, p2shOn]

/-- Under the flags of a block with every deployment active, at the key hash `1`. -/
theorem kevaPut_witness_keyhash_unguarded_in_blocks :
    hasFlag (GetBlockScriptFlags true true true true true) SCRIPT_VERIFY_WITNESS = true ∧
    hasFlag (GetBlockScriptFlags true true true true true) SCRIPT_VERIFY_P2SH = true ∧
    hasFlag (GetBlockScriptFlags true true true true true) SCRIPT_VERIFY_CLEANSTACK = false ∧
    (∀ b ∈ [[53, 1], [1], [1]], pushable (GetBlockScriptFlags true true true true true) b = true) ∧
    CastToBool (1 : uint160).toByteVector = true ∧
    (VerifyScript ⟨id, id, id, id, id, fun _ => true⟩ (GetBlockScriptFlags true true true true true)
        ⟨fun _ _ _ _ => false, fun _ => false, fun _ => false⟩ []
        (buildKevaPut (GetScriptForDestination (.witnessV0KeyHash 1)) [53, 1] [1] [1]) ⟨[]⟩ =
      .ok () ∧
    VerifyScript ⟨id, id, id, id, id, fun _ => true⟩ (GetBlockScriptFlags true true true true true)
        ⟨fun _ _ _ _ => false, fun _ => false, fun _ => false⟩ []
        (GetScriptForDestination (.witnessV0KeyHash 1)) ⟨[]⟩ =
      .error (.scriptError SCRIPT_ERR_WITNESS_PROGRAM_MISMATCH) ∧
    ∀ sig pubKey : valtype,
      VerifyScript ⟨id, id, id, id, id, fun _ => true⟩ (GetBlockScriptFlags true true true true true)
          ⟨fun _ _ _ _ => false, fun _ => false, fun _ => false⟩ []
          (buildKevaPut (GetScriptForDestination (.witnessV0KeyHash 1)) [53, 1] [1] [1])
          ⟨[sig, pubKey]⟩ =
        .error (.scriptError SCRIPT_ERR_WITNESS_UNEXPECTED)) :=
  ⟨by decide, by decide, by decide, by decide, by decide,
    kevaPut_witness_keyhash_unguarded _ _ _ 1 [53, 1] [1] [1] (by decide) (by decide) (by decide)
      (by decide) (by decide)⟩

/--
Where `SCRIPT_VERIFY_CLEANSTACK` stands with `SCRIPT_VERIFY_P2SH` and
`SCRIPT_VERIFY_WITNESS`, as in the standard flags of relay, nothing
spends a keva output that pays to a witness key hash: the key hash and the
empty vector stay above what the unlocking script left, and the stack is
never clean.
-/
theorem kevaPut_witness_keyhash_unspendable_cleanstack (crypto : ScriptCrypto) (flags : UInt32)
    (checker : BaseSignatureChecker) (id : uint160) (nameSpace key value : valtype)
    (scriptSig : CScript) (witness : CScriptWitness)
    (cleanOn : hasFlag flags SCRIPT_VERIFY_CLEANSTACK = true)
    (p2shOn : hasFlag flags SCRIPT_VERIFY_P2SH = true)
    (witnessOn : hasFlag flags SCRIPT_VERIFY_WITNESS = true) :
    VerifyScript crypto flags checker scriptSig
        (buildKevaPut (GetScriptForDestination (.witnessV0KeyHash id)) nameSpace key value)
        witness ≠ .ok () := by
  intro verified
  rw [VerifyScript] at verified
  cases evaluated : evalScripts crypto flags checker scriptSig
      (buildKevaPut (GetScriptForDestination (.witnessV0KeyHash id)) nameSpace key value) with
  | error serror => simp [evaluated] at verified
  | ok result =>
      obtain ⟨stack, stackCopy⟩ := result
      obtain ⟨unlocked, ran⟩ := evalScripts_eq_ok evaluated
      have small := length_le_of_EvalScript_ok ran
      unfold MAX_SCRIPT_SIZE at small
      have fits : ∀ b ∈ [nameSpace, key, value], b.length < 2 ^ 32 := by
        intro b mem
        have inside := length_le_buildKevaPut_of_mem
          (GetScriptForDestination (.witnessV0KeyHash id)) mem
        omega
      rw [witnessV0KeyHash_eq_pushAll] at ran
      have left := EvalScript_kevaPut_pushAll_ok [[], id.toByteVector] nameSpace key value ran
      have notProgram := isWitnessProgram_buildKevaPut
        (GetScriptForDestination (.witnessV0KeyHash id)) nameSpace key value
      have notP2SH := isPayToScriptHash_kevaPut_witnessV0KeyHash id
        (fits nameSpace (by simp)) (fits key (by simp)) (fits value (by simp))
      simp [evaluated, verifyBareWitness_of_none notProgram, verifyP2SH_of_not notP2SH,
        verifyFinal, cleanOn, p2shOn, witnessOn, left] at verified

/-- Under the standard flags, for the empty unlocking script and witness, at the key hash `1`. -/
theorem kevaPut_witness_keyhash_unspendable_standard :
    hasFlag STANDARD_SCRIPT_VERIFY_FLAGS SCRIPT_VERIFY_CLEANSTACK = true ∧
    hasFlag STANDARD_SCRIPT_VERIFY_FLAGS SCRIPT_VERIFY_P2SH = true ∧
    hasFlag STANDARD_SCRIPT_VERIFY_FLAGS SCRIPT_VERIFY_WITNESS = true ∧
    VerifyScript ⟨id, id, id, id, id, fun _ => true⟩ STANDARD_SCRIPT_VERIFY_FLAGS
        ⟨fun _ _ _ _ => true, fun _ => true, fun _ => true⟩ []
        (buildKevaPut (GetScriptForDestination (.witnessV0KeyHash 1)) [53, 1] [1] [1]) ⟨[]⟩ ≠
      .ok () :=
  ⟨by decide, by decide, by decide,
    kevaPut_witness_keyhash_unspendable_cleanstack _ _ _ 1 [53, 1] [1] [1] [] ⟨[]⟩ (by decide)
      (by decide) (by decide)⟩

end Kevacoin
