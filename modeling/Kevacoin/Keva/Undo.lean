import Kevacoin.Validation.ConnectBlock

/-!
# Undoing the keva operations of a block

`ApplyKevaTransaction` logs, before each keva output is written, the old
state of the one name it writes (`CKevaTxUndo::fromOldState`), and
`DisconnectBlock` applies the log backwards (`undoKevaOperations`).  Two
things escape the log.  A `KEVA_DELETE` of a name that is not there
writes nothing but logs the name as new, and undoing a new name deletes
it, which asserts that it is there.  And `SetName` also moves the update
outpoint of the namespace's display-name entry, which no record holds, so
after a write and its undo the display entry keeps the outpoint of the
write (`undo_misses_display_and_absent_delete`).
-/

namespace Kevacoin

open CCoinsViewCache

/-! ## Two blocks the log does not undo -/

/-- The database at block 1: the registration coin of namespace `[53, 2]` and its display entry. -/
def registeredView : CCoinsView :=
  .db ⟨SortedAssoc.SortedMap.empty.put ⟨21, 0⟩
      ⟨⟨KEVA_LOCKED_AMOUNT, CKevaScript.buildKevaNamespace [OP_1] [53, 2] [1]⟩, false, 1⟩,
    SortedAssoc.SortedMap.empty.put ([53, 2], CKevaScript.KEVA_DISPLAY_NAME_KEY)
      ⟨[1], 1, ⟨21, 0⟩, [OP_1]⟩,
    5, []⟩

/-- A transaction that spends the registration coin into one keva output `script`. -/
def kevaSpend (script : CScript) : CTransaction where
  vin := [⟨⟨21, 0⟩, [], 0xffffffff, ⟨[]⟩⟩]
  vout := [⟨KEVA_LOCKED_AMOUNT, script⟩]
  nVersion := KEVACOIN_VERSION
  nLockTime := 0
  hash := 31

/-- The keva effects of one transaction in block 2 and their undo, from `registeredView`. -/
def applyAndUndo (tx : CTransaction) : Except Abort CCoinsViewCache :=
  let checked := CheckKevaTransaction tx registeredView .initial
  match ApplyKevaTransaction tx 2 checked.2.1 checked.2.2 CBlockUndo.empty with
  | .error abort => .error abort
  | .ok (cache, undo) => undoKevaOperations undo.vkevaundo checked.2.1 cache

/--
Both transactions pass `CheckKevaTransaction`.  The undo of a `KEVA_DELETE`
of the absent key `[1]` fails its assertion; after a `KEVA_PUT` of that
key and its undo the key is gone again, but the display entry of the
namespace keeps the outpoint of the put instead of the registration's.
-/
theorem undo_misses_display_and_absent_delete :
    (CheckKevaTransaction (kevaSpend (CKevaScript.buildKevaDelete [OP_1] [53, 2] [1]))
        registeredView .initial).1 = .ok () ∧
      applyAndUndo (kevaSpend (CKevaScript.buildKevaDelete [OP_1] [53, 2] [1])) =
        .error .assertFailure ∧
      (CheckKevaTransaction (kevaSpend (CKevaScript.buildKevaPut [OP_1] [53, 2] [1] [2]))
        registeredView .initial).1 = .ok () ∧
      ((applyAndUndo (kevaSpend (CKevaScript.buildKevaPut [OP_1] [53, 2] [1] [2]))).map
          fun cache => (CCoinsView.cache registeredView cache).GetName [53, 2] [1]) = .ok none ∧
      registeredView.GetName [53, 2] CKevaScript.KEVA_DISPLAY_NAME_KEY =
        some ⟨[1], 1, ⟨21, 0⟩, [OP_1]⟩ ∧
      ((applyAndUndo (kevaSpend (CKevaScript.buildKevaPut [OP_1] [53, 2] [1] [2]))).map
          fun cache => (CCoinsView.cache registeredView cache).GetName [53, 2]
            CKevaScript.KEVA_DISPLAY_NAME_KEY) =
        .ok (some ⟨[1], 1, ⟨31, 0⟩, [OP_1]⟩) :=
  ⟨rfl, rfl, rfl, rfl, rfl, rfl⟩

end Kevacoin
