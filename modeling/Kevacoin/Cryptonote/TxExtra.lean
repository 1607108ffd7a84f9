import Kevacoin.Rpc.Mining

/-!
# The extra field of CryptoNote transactions

`tx_extra.h` and the functions of `cryptonote_format_utils.cpp` that write
and read the `extra` field of a Monero transaction, which Kevacoin's
CryptoNote mining uses to carry its block.  `extra` is a run of fields, each
written by the binary archive as a variant: a tag byte, then the field.
`parse_tx_extra` reads fields until the bytes end; it fails at a field it
cannot read, keeping the fields read before it.  `get_tx_pub_key_from_extra`
uses those fields either way, `get_keva_block_from_extra` only when all of
`extra` parsed.  The archive's reads are taken as their specification has
them, as in `Primitives.Serialize`: a read past the end of the bytes fails.

The main result: a run of fields written by the archive parses back as that
run (`parse_tx_extra_flatMap`).  So the `extra` that `getblocktemplate`
writes, the transaction key, an extra nonce and the Kevacoin block, gives the
key and the block back whatever bytes the extra nonce holds
(`parse_tx_extra_minerExtra`).
-/

namespace Kevacoin

namespace cryptonote

open Bytes

/-- `TX_EXTRA_PADDING_MAX_COUNT`. -/
def TX_EXTRA_PADDING_MAX_COUNT : Nat := 255

/-- `TX_EXTRA_NONCE_MAX_COUNT`. -/
def TX_EXTRA_NONCE_MAX_COUNT : Nat := 255

/-- `TX_EXTRA_TAG_PADDING`. -/
def TX_EXTRA_TAG_PADDING : UInt8 := 0x00

/-- `TX_EXTRA_TAG_PUBKEY`. -/
def TX_EXTRA_TAG_PUBKEY : UInt8 := 0x01

/-- `TX_EXTRA_NONCE`. -/
def TX_EXTRA_NONCE : UInt8 := 0x02

/-- `TX_EXTRA_MERGE_MINING_TAG`. -/
def TX_EXTRA_MERGE_MINING_TAG : UInt8 := 0x03

/-- `TX_EXTRA_TAG_ADDITIONAL_PUBKEYS`. -/
def TX_EXTRA_TAG_ADDITIONAL_PUBKEYS : UInt8 := 0x04

/-- `TX_EXTRA_MYSTERIOUS_MINERGATE_TAG`. -/
def TX_EXTRA_MYSTERIOUS_MINERGATE_TAG : UInt8 := 0xDE

/-- `TX_EXTRA_KEVA_BLOCK_TAG`. -/
def TX_EXTRA_KEVA_BLOCK_TAG : UInt8 := 0xa1

/-- `crypto::public_key`: 32 bytes, as a `crypto::hash` is. -/
abbrev public_key := CryptoHash

/-- `crypto::null_pkey`. -/
def null_pkey : public_key :=
  ⟨List.replicate 32 0, rfl⟩

/-- `tx_extra_field`: the fields a variant of `extra` holds. -/
inductive tx_extra_field where
  | padding (size : Nat)
  | pub_key (pub_key : public_key)
  | nonce (nonce : List UInt8)
  | merge_mining_tag (depth : Nat) (merkle_root : CryptoHash)
  | additional_pub_keys (data : List public_key)
  | mysterious_minergate (data : List UInt8)
  | keva_block (keva_block : List UInt8)
deriving DecidableEq

/-! ## The load archive -/

/-- `do_serialize` of a `std::string` on a load archive: a varint size, then as many bytes. -/
def loadString : Reader (List UInt8) := do
  let size ← readLEB128 64
  readBytes size

/-- `do_serialize` of a `std::string` on a store archive. -/
def storeString (str : List UInt8) : List UInt8 :=
  writeVarint str.length ++ str

/-- A blob of 32 bytes: a `crypto::public_key` or a `crypto::hash`. -/
def loadHash : Reader CryptoHash := fun input =>
  if fits : 32 ≤ input.length then
    some (⟨input.take 32, by rw [List.length_take]; omega⟩, input.drop 32)
  else none

/--
The loop of `tx_extra_padding::do_serialize` on a load archive, from
`size`: stop at the end of the bytes, or read a byte that must be zero;
`fuel` is the number of turns left before `size` passes
`TX_EXTRA_PADDING_MAX_COUNT`.
-/
def loadPaddingFrom : Nat → Nat → Reader Nat
  | 0, size => Pure.pure size
  | fuel + 1, size => do
      let rest ← get
      if rest.isEmpty then Pure.pure size
      else
        let zero ← readByte
        if zero != 0 then failure else loadPaddingFrom fuel (size + 1)

/-- `tx_extra_padding::do_serialize` on a load archive: zeros up to the end of the bytes. -/
def loadPadding : Reader Nat := do
  let size ← loadPaddingFrom TX_EXTRA_PADDING_MAX_COUNT 1
  if size ≤ TX_EXTRA_PADDING_MAX_COUNT then Pure.pure size else failure

/-- `tx_extra_nonce::do_serialize` on a load archive: a string of at most 255 bytes. -/
def loadNonce : Reader (List UInt8) := do
  let nonce ← loadString
  if TX_EXTRA_NONCE_MAX_COUNT < nonce.length then failure else Pure.pure nonce

/-- `tx_extra_merge_mining_tag::serialize_helper` on a load archive. -/
def loadMergeMiningFields : Reader (Nat × CryptoHash) := do
  let depth ← readLEB128 64
  let merkle_root ← loadHash
  Pure.pure (depth, merkle_root)

/--
`tx_extra_merge_mining_tag::do_serialize` on a load archive: a string, from
which `serialization::serialize` reads the fields and checks that nothing of
it is left.
-/
def loadMergeMiningTag : Reader tx_extra_field := do
  let field ← loadString
  match loadMergeMiningFields.run field with
  | some ((depth, merkle_root), []) => Pure.pure (.merge_mining_tag depth merkle_root)
  | _ => failure

/--
`do_serialize_container` on a load archive: a varint count, which may not
pass the number of bytes left, then as many elements.
-/
def loadContainer {α : Type} (read : Reader α) : Reader (List α) := do
  let cnt ← readLEB128 64
  let rest ← get
  if rest.length < cnt then failure else readList read cnt

/-- `do_serialize_container` on a store archive. -/
def storeContainer {α : Type} (write : α → List UInt8) (v : List α) : List UInt8 :=
  writeVarint v.length ++ v.flatMap write

/-- `tx_extra_additional_pub_keys::do_serialize` on a load archive: a container of keys. -/
def loadAdditionalPubKeys : Reader (List public_key) :=
  loadContainer loadHash

/-- The variant of `tx_extra_field` on a load archive: the tag, then the field it names. -/
def load_tx_extra_field : Reader tx_extra_field := do
  let tag ← readByte
  if tag = TX_EXTRA_TAG_PADDING then tx_extra_field.padding <$> loadPadding
  else if tag = TX_EXTRA_TAG_PUBKEY then tx_extra_field.pub_key <$> loadHash
  else if tag = TX_EXTRA_NONCE then tx_extra_field.nonce <$> loadNonce
  else if tag = TX_EXTRA_MERGE_MINING_TAG then loadMergeMiningTag
  else if tag = TX_EXTRA_TAG_ADDITIONAL_PUBKEYS then
    tx_extra_field.additional_pub_keys <$> loadAdditionalPubKeys
  else if tag = TX_EXTRA_MYSTERIOUS_MINERGATE_TAG then
    tx_extra_field.mysterious_minergate <$> loadString
  else if tag = TX_EXTRA_KEVA_BLOCK_TAG then tx_extra_field.keva_block <$> loadString
  else failure

/-! ## Parsing and finding fields -/

/--
The loop of `parse_tx_extra`: read a field and push it, until the bytes
end.  Whether it succeeded, and the fields pushed; `fuel` bounds the fields,
each of which takes at least its tag.
-/
def parse_tx_extra_fields : Nat → List UInt8 → List tx_extra_field → Bool × List tx_extra_field
  | 0, _, fields => (false, fields)
  | fuel + 1, input, fields =>
      match load_tx_extra_field.run input with
      | none => (false, fields)
      | some (field, rest) =>
          if rest.isEmpty then (true, fields ++ [field])
          else parse_tx_extra_fields fuel rest (fields ++ [field])

/-- `parse_tx_extra`: whether it succeeded, and the fields it pushed. -/
def parse_tx_extra (tx_extra : List UInt8) : Bool × List tx_extra_field :=
  if tx_extra.isEmpty then (true, [])
  else parse_tx_extra_fields tx_extra.length tx_extra []

/-- `find_tx_extra_field_by_type`: the field at `index` among those of the type `select` picks. -/
def find_tx_extra_field_by_type {α : Type} (select : tx_extra_field → Option α)
    (tx_extra_fields : List tx_extra_field) (index : Nat) : Option α :=
  (tx_extra_fields.filterMap select)[index]?

/-- The `tx_extra_pub_key` fields. -/
def tx_extra_field.pubKey? : tx_extra_field → Option public_key
  | .pub_key key => some key
  | _ => none

/-- The `tx_extra_keva_block` fields. -/
def tx_extra_field.kevaBlock? : tx_extra_field → Option (List UInt8)
  | .keva_block block => some block
  | _ => none

/-- `get_tx_pub_key_from_extra` with `pk_index` zero: it reads the fields parsed, whether the parse succeeded or not. -/
def get_tx_pub_key_from_extra (tx_extra : List UInt8) : public_key :=
  (find_tx_extra_field_by_type tx_extra_field.pubKey? (parse_tx_extra tx_extra).2 0).getD null_pkey

/-- `get_keva_block_from_extra`: the first keva block, where all of `extra` parsed. -/
def get_keva_block_from_extra (tx_extra : List UInt8) : Option (List UInt8) :=
  let (parsed, tx_extra_fields) := parse_tx_extra tx_extra
  if parsed then find_tx_extra_field_by_type tx_extra_field.kevaBlock? tx_extra_fields 0 else none

/-! ## Writing fields -/

/-- `add_tx_pub_key_to_extra`: the tag and the key's bytes, appended. -/
def add_tx_pub_key_to_extra (tx_extra : List UInt8) (tx_pub_key : public_key) : List UInt8 :=
  tx_extra ++ TX_EXTRA_TAG_PUBKEY :: tx_pub_key.bytes

/-- `add_extra_nonce_to_tx_extra`: the tag, the size as one byte, and the nonce; refused above 255 bytes. -/
def add_extra_nonce_to_tx_extra (tx_extra extra_nonce : List UInt8) : Option (List UInt8) :=
  if extra_nonce.length > TX_EXTRA_NONCE_MAX_COUNT then none
  else some (tx_extra ++ TX_EXTRA_NONCE :: UInt8.ofNat extra_nonce.length :: extra_nonce)

/-- `append_keva_block_to_extra`: the variant as the store archive writes it, appended. -/
def append_keva_block_to_extra (tx_extra keva_block : List UInt8) : List UInt8 :=
  tx_extra ++ TX_EXTRA_KEVA_BLOCK_TAG :: storeString keva_block

/--
The `extra` that `construct_miner_tx` gives the miner transaction: the
public key of a new key pair, then the extra nonce unless it is empty.
-/
def construct_miner_tx_extra (txkey_pub : public_key) (extra_nonce : List UInt8) :
    Option (List UInt8) :=
  let tx_extra := add_tx_pub_key_to_extra [] txkey_pub
  if extra_nonce.isEmpty then some tx_extra else add_extra_nonce_to_tx_extra tx_extra extra_nonce

/-! ## Fields read back -/

section Fields

/-- The varint of a size below 128 is that size as one byte. -/
theorem writeVarint_of_lt {size : Nat} (small : size < 0x80) :
    writeVarint size = [UInt8.ofNat size] := by
  rw [writeVarint, varintBytes, if_neg (by omega)]

theorem readsBack_storeString {str : List UInt8} (fits : str.length < 2 ^ 64) :
    ReadsBack loadString (storeString str) str :=
  (readsBack_writeVarint fits (Nat.le_refl 64)).bind (readsBack_readBytes str)

theorem readsBack_loadHash (hash : CryptoHash) : ReadsBack loadHash hash.bytes hash := by
  intro rest
  obtain ⟨bytes, length⟩ := hash
  simp [StateT.run, loadHash, length, List.take_left', List.drop_left']

/--
A container whose elements each read back from bytes that are not empty:
the count never passes the bytes left.
-/
theorem readsBack_container {α : Type} {read : Reader α} {write : α → List UInt8} {v : List α}
    (fits : v.length < 2 ^ 64) (each : ∀ value ∈ v, ReadsBack read (write value) value)
    (nonempty : ∀ value ∈ v, write value ≠ []) :
    ReadsBack (loadContainer read) (storeContainer write v) v := by
  intro rest
  have enough : v.length ≤ (v.flatMap write ++ rest).length := by
    have pieces := length_le_length_flatMap nonempty
    rw [List.length_append]
    omega
  rw [storeContainer, List.append_assoc, loadContainer,
    run_bind_of_run (readsBack_writeVarint fits (Nat.le_refl 64) _),
    run_bind_of_run (show (get : Reader (List UInt8)).run (v.flatMap write ++ rest) =
      some (v.flatMap write ++ rest, v.flatMap write ++ rest) from rfl), if_neg (by omega)]
  simpa using readsBack_readList (f := fun value => value) each rest

/-- After its tag, the key's 32 bytes. -/
theorem readsBack_pub_key (key : public_key) :
    ReadsBack load_tx_extra_field (TX_EXTRA_TAG_PUBKEY :: key.bytes) (.pub_key key) := by
  rw [← List.singleton_append]
  refine (readsBack_readByte TX_EXTRA_TAG_PUBKEY).bind ?_
  rw [if_neg (by decide), if_pos rfl]
  exact (readsBack_loadHash key).map _

/-- The nonce as `add_extra_nonce_to_tx_extra` writes it: its size in one byte, which the archive reads as a varint below 128. -/
theorem readsBack_loadNonce {nonce : List UInt8} (short : nonce.length < 0x80) :
    ReadsBack loadNonce (UInt8.ofNat nonce.length :: nonce) nonce := by
  have string := readsBack_storeString (show nonce.length < 2 ^ 64 by omega)
  rw [storeString, writeVarint_of_lt short, List.singleton_append] at string
  rw [← List.append_nil (UInt8.ofNat nonce.length :: nonce)]
  refine string.bind ?_
  rw [if_neg (by unfold TX_EXTRA_NONCE_MAX_COUNT; omega)]
  exact ReadsBack.pure nonce

theorem readsBack_nonce {nonce : List UInt8} (short : nonce.length < 0x80) :
    ReadsBack load_tx_extra_field (TX_EXTRA_NONCE :: UInt8.ofNat nonce.length :: nonce)
      (.nonce nonce) := by
  rw [← List.singleton_append]
  refine (readsBack_readByte TX_EXTRA_NONCE).bind ?_
  rw [if_neg (by decide), if_neg (by decide), if_pos rfl]
  exact (readsBack_loadNonce short).map _

theorem readsBack_keva_block {keva_block : List UInt8} (fits : keva_block.length < 2 ^ 64) :
    ReadsBack load_tx_extra_field (TX_EXTRA_KEVA_BLOCK_TAG :: storeString keva_block)
      (.keva_block keva_block) := by
  rw [← List.singleton_append]
  refine (readsBack_readByte TX_EXTRA_KEVA_BLOCK_TAG).bind ?_
  rw [if_neg (by decide), if_neg (by decide), if_neg (by decide), if_neg (by decide),
    if_neg (by decide), if_neg (by decide), if_pos rfl]
  exact (readsBack_storeString fits).map _

/-- Every field takes at least its tag. -/
theorem ne_nil_of_readsBack_field {bytes : List UInt8} {field : tx_extra_field}
    (reads : ReadsBack load_tx_extra_field bytes field) : bytes ≠ [] := by
  rintro rfl
  have nothing : load_tx_extra_field.run [] = none := rfl
  have ran := reads []
  rw [List.nil_append, nothing] at ran
  cases ran

end Fields

/-! ## Runs of fields -/

section Runs

variable {written : List (tx_extra_field × List UInt8)}

/-- Every field of a run takes at least its tag. -/
theorem length_le_length_flatMap_fields
    (each : ∀ entry ∈ written, ReadsBack load_tx_extra_field entry.2 entry.1) :
    written.length ≤ (written.flatMap Prod.snd).length :=
  length_le_length_flatMap fun entry member => ne_nil_of_readsBack_field (each entry member)

/-- The loop reads a run of written fields back, one field a turn. -/
theorem parse_tx_extra_fields_flatMap : ∀ {written : List (tx_extra_field × List UInt8)} {fuel : Nat}
    (fields : List tx_extra_field), written ≠ [] → written.length ≤ fuel →
    (∀ entry ∈ written, ReadsBack load_tx_extra_field entry.2 entry.1) →
    parse_tx_extra_fields fuel (written.flatMap Prod.snd) fields = (true, fields ++ written.map Prod.fst)
  | [], _, _, nonempty, _, _ => absurd rfl nonempty
  | _ :: _, 0, _, _, enough, _ => absurd enough (by simp)
  | (field, bytes) :: written, fuel + 1, fields, _, enough, each => by
    have ran := each (field, bytes) List.mem_cons_self (written.flatMap Prod.snd)
    rw [List.flatMap_cons, parse_tx_extra_fields, ran]
    cases written with
    | nil => simp
    | cons next written =>
      have more : ((next :: written).flatMap Prod.snd).isEmpty = false := by
        rw [List.isEmpty_eq_false_iff, List.flatMap_cons]
        exact List.append_ne_nil_of_left_ne_nil
          (ne_nil_of_readsBack_field (each next (List.mem_cons_of_mem _ List.mem_cons_self))) _
      dsimp only
      rw [more, if_neg Bool.false_ne_true, parse_tx_extra_fields_flatMap (fields ++ [field])
        (List.cons_ne_nil _ _) (by simpa using enough)
        (fun entry member => each entry (List.mem_cons_of_mem _ member))]
      simp

/-- A run of fields written by the archive parses back as that run. -/
theorem parse_tx_extra_flatMap (nonempty : written ≠ [])
    (each : ∀ entry ∈ written, ReadsBack load_tx_extra_field entry.2 entry.1) :
    parse_tx_extra (written.flatMap Prod.snd) = (true, written.map Prod.fst) := by
  have notEmpty : (written.flatMap Prod.snd).isEmpty = false := by
    rw [List.isEmpty_eq_false_iff]
    intro empty
    have short := length_le_length_flatMap_fields each
    rw [empty, List.length_nil, Nat.le_zero, List.length_eq_zero_iff] at short
    exact nonempty short
  rw [parse_tx_extra, notEmpty, if_neg Bool.false_ne_true,
    parse_tx_extra_fields_flatMap [] nonempty (length_le_length_flatMap_fields each) each, List.nil_append]

end Runs

/-! ## The extra of a miner transaction -/

/-- `construct_miner_tx` writes the key and a nonempty extra nonce of at most 255 bytes. -/
theorem construct_miner_tx_extra_eq (txkey_pub : public_key) {extra_nonce : List UInt8}
    (nonempty : extra_nonce ≠ []) (small : extra_nonce.length ≤ TX_EXTRA_NONCE_MAX_COUNT) :
    construct_miner_tx_extra txkey_pub extra_nonce =
      some (add_tx_pub_key_to_extra [] txkey_pub ++
        TX_EXTRA_NONCE :: UInt8.ofNat extra_nonce.length :: extra_nonce) := by
  rw [construct_miner_tx_extra, if_neg (by simpa using nonempty), add_extra_nonce_to_tx_extra,
    if_neg (by omega)]

/--
The `extra` of a miner transaction after `getblocktemplate` appends its
block, with any extra nonce below 128 bytes: its fields are the key, the
nonce and the block.
-/
theorem parse_tx_extra_minerExtra (txkey_pub : public_key) {extra_nonce keva_block : List UInt8}
    (short : extra_nonce.length < 0x80) (fits : keva_block.length < 2 ^ 64) :
    parse_tx_extra (append_keva_block_to_extra (add_tx_pub_key_to_extra [] txkey_pub ++
        TX_EXTRA_NONCE :: UInt8.ofNat extra_nonce.length :: extra_nonce) keva_block) =
      (true, [.pub_key txkey_pub, .nonce extra_nonce, .keva_block keva_block]) := by
  have parsed := @parse_tx_extra_flatMap [(.pub_key txkey_pub, _), (.nonce extra_nonce, _),
      (.keva_block keva_block, _)] (List.cons_ne_nil _ _) (by
    simp only [List.mem_cons, List.not_mem_nil, or_false, forall_eq_or_imp, forall_eq]
    exact ⟨readsBack_pub_key txkey_pub, readsBack_nonce short, readsBack_keva_block fits⟩)
  simpa [append_keva_block_to_extra, add_tx_pub_key_to_extra] using parsed

theorem get_tx_pub_key_from_extra_minerExtra (txkey_pub : public_key)
    {extra_nonce keva_block : List UInt8} (short : extra_nonce.length < 0x80)
    (fits : keva_block.length < 2 ^ 64) :
    get_tx_pub_key_from_extra (append_keva_block_to_extra (add_tx_pub_key_to_extra [] txkey_pub ++
        TX_EXTRA_NONCE :: UInt8.ofNat extra_nonce.length :: extra_nonce) keva_block) = txkey_pub := by
  rw [get_tx_pub_key_from_extra, parse_tx_extra_minerExtra txkey_pub short fits]
  rfl

theorem get_keva_block_from_extra_minerExtra (txkey_pub : public_key)
    {extra_nonce keva_block : List UInt8} (short : extra_nonce.length < 0x80)
    (fits : keva_block.length < 2 ^ 64) :
    get_keva_block_from_extra (append_keva_block_to_extra (add_tx_pub_key_to_extra [] txkey_pub ++
        TX_EXTRA_NONCE :: UInt8.ofNat extra_nonce.length :: extra_nonce) keva_block) =
      some keva_block := by
  rw [get_keva_block_from_extra, parse_tx_extra_minerExtra txkey_pub short fits]
  rfl

end cryptonote

end Kevacoin
