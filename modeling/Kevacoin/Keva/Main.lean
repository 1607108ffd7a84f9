import Kevacoin.Coins.Names

/-!
# Keva consensus rules

`keva/main.cpp`: `CheckKevaTransaction`, the consensus check of the keva
operations of a transaction against the coins it spends;
`ApplyKevaTransaction`, which writes the operations of a transaction's
outputs into the names of a view and logs an undo record for each; and
`CKevaTxUndo`, the record that `DisconnectBlock` replays to undo one.

`CheckKevaTransaction` reads coins through a cache, which may fetch them,
so the view is threaded through it as through every coin read.  A
rejection carries the text the function logs; the `%s` and `%u` of the
format stay in it, since transaction ids are not printed by the model.
The state the function marks invalid is overwritten by its caller
`CheckTxInputs`, and its `nHeight` and `flags` are read only by log lines,
so neither is a parameter here.  The notifier calls and log lines of
`ApplyKevaTransaction` change no state and are left out.

The facts about these functions are proved where blocks are connected:
that `ApplyKevaTransaction` changes the names of the cache and nothing else
(`ApplyKevaTransaction_frame`, in `Validation.ConnectLoop`), and what its
undo records restore and miss (`Keva.Undo`, `Validation.RoundTrip`).
-/

namespace Kevacoin

open SortedAssoc CCoinsViewCache

/-! ## Limits -/

/-- `MAX_KEY_LENGTH`. -/
def MAX_KEY_LENGTH : Nat := 255

/-- `MAX_VALUE_LENGTH`, the script element limit. -/
def MAX_VALUE_LENGTH : Nat := MAX_SCRIPT_ELEMENT_SIZE

/-- `KEVA_LOCKED_AMOUNT`, the least value of a keva output. -/
def KEVA_LOCKED_AMOUNT : CAmount := COIN / 100

/-- `MEMPOOL_HEIGHT`, the height of a transaction that is not in a block. -/
def MEMPOOL_HEIGHT : Nat := 0x7FFFFFFF

/-! ## The consensus check -/

/--
The input loop of `CheckKevaTransaction`: fetch the coin of every input
and keep the operation of the one input whose coin is a keva script.
-/
def kevaInputOp : List CTxIn → CCoinsView → CCoinsViewCache → Option KevaOp →
    Except String (Option KevaOp) × CCoinsView × CCoinsViewCache
  | [], base, cache, nameIn => (.ok nameIn, base, cache)
  | input :: rest, base, cache, nameIn =>
      match GetCoin base cache input.prevout with
      | (none, base', cache') =>
          (.error "CheckKevaTransaction: failed to fetch input coin for %s", base', cache')
      | (some coin, base', cache') =>
          match (CKevaScript.parse coin.out.scriptPubKey).op with
          | none => kevaInputOp rest base' cache' nameIn
          | some op =>
              if nameIn.isSome then
                (.error "CheckKevaTransaction: multiple name inputs into transaction %s",
                  base', cache')
              else kevaInputOp rest base' cache' (some op)

/-- The output loop of `CheckKevaTransaction`: the one keva output, with its operation. -/
def kevaOutputOp : List CTxOut → Option (CTxOut × KevaOp) →
    Except String (Option (CTxOut × KevaOp))
  | [], nameOut => .ok nameOut
  | out :: rest, nameOut =>
      match (CKevaScript.parse out.scriptPubKey).op with
      | none => kevaOutputOp rest nameOut
      | some op =>
          if nameOut.isSome then
            .error "CheckKevaTransaction: multiple name outputs from transaction %s"
          else kevaOutputOp rest (some (out, op))

/--
The checks of an update: a keva input on the same namespace and the size
limits.  `value` is the value of a `KEVA_PUT`, `none` for a `KEVA_DELETE`.
-/
def checkKevaUpdate (nameIn : Option KevaOp) (nameSpace key : valtype)
    (value : Option valtype) : Except String Unit :=
  match nameIn with
  | none => .error "CheckKevaTransaction: update without previous keva input"
  | some opIn =>
      if key.length > MAX_KEY_LENGTH then .error "CheckKevaTransaction: key too long"
      else if nameSpace ≠ opIn.getOpNamespace then
        .error "CheckKevaTransaction: KEVA_PUT namespace mismatch to prev tx found in %s"
      else
        match value with
        | some value =>
            if value.length > MAX_VALUE_LENGTH then
              .error "CheckKevaTransaction: value too long"
            else if !opIn.isAnyUpdate && !opIn.isNamespaceRegistration then
              .error "CheckKevaTransaction: KEVA_PUT with prev input that is no update"
            else .ok ()
        | none =>
            if !opIn.isAnyUpdate && !opIn.isNamespaceRegistration then
              .error "CheckKevaTransaction: KEVA_DELETE with prev input that is no update"
            else .ok ()

/-- The checks of `CheckKevaTransaction` once the keva input and output are found. -/
def checkKevaOps (tx : CTransaction) (nameIn : Option KevaOp)
    (nameOut : Option (CTxOut × KevaOp)) : Except String Unit :=
  if !tx.IsKevacoin then
    if nameIn.isSome then
      .error "CheckKevaTransaction: non-Kevacoin tx %s has keva inputs"
    else if nameOut.isSome then
      .error "CheckKevaTransaction: non-Kevacoin tx %s at height %u has keva outputs"
    else .ok ()
  else
    match nameOut with
    | none => .error "CheckKevaTransaction: Kevacoin tx %s has no keva outputs"
    | some (out, opOut) =>
        if out.nValue < KEVA_LOCKED_AMOUNT then .error "CheckKevaTransaction: greedy name"
        else
          match opOut with
          | .kevaNamespace _ displayName =>
              if displayName.length > MAX_VALUE_LENGTH then
                .error "CheckKevaTransaction: display name value too long"
              else .ok ()
          | .kevaPut nameSpace key value => checkKevaUpdate nameIn nameSpace key (some value)
          | .kevaDelete nameSpace key => checkKevaUpdate nameIn nameSpace key none

/-- `CheckKevaTransaction`, reading the coins of the inputs through a cache. -/
def CheckKevaTransaction (tx : CTransaction) (base : CCoinsView)
    (cache : CCoinsViewCache) : Except String Unit × CCoinsView × CCoinsViewCache :=
  match kevaInputOp tx.vin base cache none with
  | (.error message, base', cache') => (.error message, base', cache')
  | (.ok nameIn, base', cache') =>
      ((kevaOutputOp tx.vout none).bind (checkKevaOps tx nameIn), base', cache')

/-! ## Undo records -/

/-- `CKevaTxUndo`: a name and what it held before an operation wrote it. -/
structure CKevaTxUndo where
  nameSpace : valtype
  key : valtype
  isNew : Bool
  oldData : CKevaData
deriving DecidableEq, Repr

namespace CKevaTxUndo

/-- `CKevaTxUndo::fromOldState`: record the name as the view reports it. -/
def fromOldState (nameSpace key : valtype) (view : CCoinsView) : CKevaTxUndo :=
  match view.GetName nameSpace key with
  | none => ⟨nameSpace, key, true, CKevaData.initial⟩
  | some oldData => ⟨nameSpace, key, false, oldData⟩

/-- `CKevaTxUndo::apply`: delete a name that was new, else write back its old data. -/
def apply (undo : CKevaTxUndo) (base : CCoinsView) (cache : CCoinsViewCache) :
    Except Abort CCoinsViewCache :=
  if undo.isNew then DeleteName base cache undo.nameSpace undo.key
  else .ok (SetName base cache undo.nameSpace undo.key undo.oldData true)

end CKevaTxUndo

/-- `CBlockUndo`: the spent coins of each transaction but the coinbase, and the keva undo records. -/
structure CBlockUndo where
  vtxundo : List CTxUndo
  vkevaundo : List CKevaTxUndo
deriving DecidableEq, Repr

/-- A block undo without records. -/
def CBlockUndo.empty : CBlockUndo := ⟨[], []⟩

/-! ## Applying a transaction -/

/-- Log the undo record of a name before it is written. -/
def logKevaUndo (undo : CBlockUndo) (nameSpace key : valtype) (view : CCoinsView) :
    CBlockUndo :=
  { undo with
    vkevaundo := undo.vkevaundo ++ [CKevaTxUndo.fromOldState nameSpace key view] }

/--
The body of the output loop of `ApplyKevaTransaction` for an output at
`index` whose script is the keva operation `op` with address `address`.
-/
def applyKevaOutput (tx : CTransaction) (nHeight : Nat) (base : CCoinsView)
    (index : Nat) (op : KevaOp) (address : CScript) (cache : CCoinsViewCache)
    (undo : CBlockUndo) : Except Abort (CCoinsViewCache × CBlockUndo) :=
  let view := CCoinsView.cache base cache
  let out : COutPoint := ⟨tx.GetHash, UInt32.ofNat index⟩
  match op with
  | .kevaNamespace nameSpace _ =>
      let key := CKevaScript.KEVA_DISPLAY_NAME_KEY
      let data := CKevaData.initial.fromScript nHeight out op address
      .ok (SetName base cache nameSpace key data false, logKevaUndo undo nameSpace key view)
  | .kevaPut nameSpace key _ =>
      let data := CKevaData.initial.fromScript nHeight out op address
      .ok (SetName base cache nameSpace key data false, logKevaUndo undo nameSpace key view)
  | .kevaDelete nameSpace key =>
      let logged := logKevaUndo undo nameSpace key view
      match view.GetName nameSpace key with
      | some _ => (DeleteName base cache nameSpace key).map fun cache' => (cache', logged)
      | none => .ok (cache, logged)

/-- The output loop of `ApplyKevaTransaction`, from the output at `index` on. -/
def applyKevaOutputs (tx : CTransaction) (nHeight : Nat) (base : CCoinsView) :
    Nat → List CTxOut → CCoinsViewCache → CBlockUndo →
      Except Abort (CCoinsViewCache × CBlockUndo)
  | _, [], cache, undo => .ok (cache, undo)
  | index, out :: rest, cache, undo =>
      let script := CKevaScript.parse out.scriptPubKey
      match script.op with
      | none => applyKevaOutputs tx nHeight base (index + 1) rest cache undo
      | some op =>
          match applyKevaOutput tx nHeight base index op script.address cache undo with
          | .error abort => .error abort
          | .ok (cache', undo') => applyKevaOutputs tx nHeight base (index + 1) rest cache' undo'

/--
`ApplyKevaTransaction`: write every keva output of a Kevacoin transaction
into the names of the view, without checks.
-/
def ApplyKevaTransaction (tx : CTransaction) (nHeight : Nat) (base : CCoinsView)
    (cache : CCoinsViewCache) (undo : CBlockUndo) :
    Except Abort (CCoinsViewCache × CBlockUndo) :=
  if nHeight = MEMPOOL_HEIGHT then .error .assertFailure
  else if !tx.IsKevacoin then .ok (cache, undo)
  else applyKevaOutputs tx nHeight base 0 tx.vout cache undo

end Kevacoin
