import Kevacoin.Data.Radix
import Kevacoin.Primitives.Block
import Mathlib.Tactic.Ring
import Mathlib.Data.List.TakeWhile
import Mathlib.Data.List.GetD
import Mathlib.Data.List.Nodup

/-!
# Base58

`base58.cpp`: `EncodeBase58` and `DecodeBase58`, their checksummed forms
and `DecodeKevaNamespace`.

Both conversions keep a big-endian buffer of digits of the target base,
sized from the input's length (`138 / 100` and `733 / 1000` approximate the
ratio of the logarithms of the bases), and multiply it by the source base
and add the next digit with the same carry loop (`carryLoop`): over the
buffer from its last digit, past the `length` digits that may be nonzero
and on while there is a carry; `assert(carry == 0)` follows, here `none`.
Leading zero bytes and leading `'1'` characters are counted apart, and the
leading zeros of the buffer are skipped at the end.

Strings are their bytes.  `DecodeBase58` of a `std::string` reads its
`c_str()`, so the string ends at its first NUL byte for the decoder;
`isspace` is that of the C locale, and the `int` counters and buffer sizes
are natural numbers (they would overflow only past a gigabyte of input).
The functions that return `bool` and
fill an output vector return `some (some v)` for `true` with `v`,
`some none` for `false`, and `none` where an assertion fails.

The buffers hold their values as little-endian lists of digits
(`Radix`): a round of the carry loop multiplies the value
(`carryLoop_spec`), the buffers are large enough that the carry ends at zero
(`encodeBuffer_fits`, `decodeBuffer_fits`), and the digits left after the
skip are those of `Nat.digits` (`significant_eq`).  Encoding then decoding
gives the bytes back; decoding then encoding gives the string back when it
has no whitespace and no NUL byte.
-/

namespace Kevacoin

open Radix

/-- `pszBase58`: all alphanumeric characters except `0`, `I`, `O` and `l`. -/
def pszBase58 : List UInt8 :=
  "123456789ABCDEFGHJKLMNPQRSTUVWXYZabcdefghijkmnopqrstuvwxyz".toList.map fun c => c.toNat.toUInt8

/-- `isspace` in the C locale: space, tab, line feed, vertical tab, form feed, carriage return. -/
def isspace (c : UInt8) : Bool :=
  c == 0x20 || (0x09 ≤ c && c ≤ 0x0d)

/--
The loop `for (it = b.rbegin(); (carry != 0 || i < length) && it != b.rend(); ++it, ++i)`
with `carry += fromBase * (*it); *it = carry % toBase; carry /= toBase;`:
`digits` is the buffer from its last digit on.  It returns the buffer, the
carry left and `i`.
-/
def carryLoop (fromBase toBase : Nat) :
    List Nat → (carry i length : Nat) → List Nat × Nat × Nat
  | [], carry, i, _ => ([], carry, i)
  | digit :: rest, carry, i, length =>
      if carry != 0 || i < length then
        let carry := carry + fromBase * digit
        let (rest, carryOut, i) := carryLoop fromBase toBase rest (carry / toBase) (i + 1) length
        (carry % toBase :: rest, carryOut, i)
      else (digit :: rest, carry, i)

/-- One input digit: the carry loop from `carry = value`, `assert(carry == 0)` and `length = i`. -/
def applyDigit (fromBase toBase : Nat) (state : List Nat × Nat) (value : Nat) :
    Option (List Nat × Nat) :=
  let (digits, carry, i) := carryLoop fromBase toBase state.1 value 0 state.2
  if carry = 0 then some (digits, i) else none

/-- The digits from `it = b.begin() + (size - length)`, with `while (*it == 0) it++`. -/
def significant (buffer : List Nat) (size length : Nat) : List Nat :=
  (buffer.reverse.drop (size - length)).dropWhile fun digit => digit = 0

/-- `EncodeBase58`: `'1'` for each leading zero byte, then the base-58 digits of the rest. -/
def EncodeBase58 (input : List UInt8) : Option (List UInt8) := do
  let zeroes := (input.takeWhile fun byte => byte = 0).length
  let input := input.drop zeroes
  let size := input.length * 138 / 100 + 1
  let (b58, length) ← input.foldlM (fun state byte => applyDigit 256 58 state byte.toNat)
    (List.replicate size 0, 0)
  pure (List.replicate zeroes 0x31 ++
    (significant b58 size length).map fun digit => pszBase58.getD digit 0)

/--
The loop over the characters of `DecodeBase58` up to the first space: each
is looked up with `strchr(pszBase58, *psz)`, `some none` where it is not a
digit.
-/
def decodeChars : List UInt8 → List Nat × Nat → Option (Option (List Nat × Nat))
  | [], state => some (some state)
  | c :: rest, state =>
      match pszBase58.idxOf? c with
      | none => some none
      | some ch => (applyDigit 58 256 state ch).bind fun state => decodeChars rest state

/--
`DecodeBase58(const char* psz, ...)`, over the bytes before the
terminating NUL: leading spaces, then a zero byte for each `'1'`, then the
base-256 digits of the rest up to the first space; only spaces may follow.
-/
def DecodeBase58 (psz : List UInt8) : Option (Option (List UInt8)) :=
  let psz := psz.dropWhile isspace
  let zeroes := (psz.takeWhile fun c => c = 0x31).length
  let psz := psz.drop zeroes
  let size := psz.length * 733 / 1000 + 1
  let chars := psz.takeWhile fun c => !isspace c
  match decodeChars chars (List.replicate size 0, 0) with
  | none => none
  | some none => some none
  | some (some (b256, length)) =>
      if ((psz.drop chars.length).dropWhile isspace).isEmpty then
        some (some (List.replicate zeroes 0 ++ (significant b256 size length).map Nat.toUInt8))
      else some none

/-- `DecodeBase58(const std::string& str, ...)`: the decoder reads `str.c_str()`. -/
def DecodeBase58OfString (str : List UInt8) : Option (Option (List UInt8)) :=
  DecodeBase58 (str.takeWhile fun c => c ≠ 0)

/-- `EncodeBase58Check`: the first four bytes of the double SHA-256 of the input appended. -/
def EncodeBase58Check (hashes : HashPrimitives) (vchIn : List UInt8) : Option (List UInt8) :=
  EncodeBase58 (vchIn ++ (hashes.Hash vchIn).toByteVector.take 4)

/-- `DecodeBase58Check(const char* psz, ...)`: decode, then check and cut the four-byte checksum. -/
def DecodeBase58Check (hashes : HashPrimitives) (psz : List UInt8) :
    Option (Option (List UInt8)) :=
  match DecodeBase58 psz with
  | none => none
  | some none => some none
  | some (some vchRet) =>
      if vchRet.length < 4 then some none
      else if (hashes.Hash (vchRet.take (vchRet.length - 4))).toByteVector.take 4 ≠
          vchRet.drop (vchRet.length - 4) then some none
      else some (some (vchRet.take (vchRet.length - 4)))

/-- `DecodeBase58Check(const std::string& str, ...)`: the decoder reads `str.c_str()`. -/
def DecodeBase58CheckOfString (hashes : HashPrimitives) (str : List UInt8) :
    Option (Option (List UInt8)) :=
  DecodeBase58Check hashes (str.takeWhile fun c => c ≠ 0)

/--
`DecodeKevaNamespace`: a checksummed string whose payload is the namespace
prefix `ns_prefix` of the chain parameters and twenty bytes.
-/
def DecodeKevaNamespace (hashes : HashPrimitives) ( ns_prefix ns : List UInt8) :
    Option (Option (List UInt8)) :=
  match DecodeBase58CheckOfString hashes ns with
  | some (some result) =>
      if result.length = 20 + ns_prefix.length ∧ ns_prefix.isPrefixOf result = true then
        some (some result)
      else some none
  | other => other

/-! ## The carry loop -/

section Conversion

variable {fromBase toBase : Nat}

/-- A digit below the base in front of a value below a power of the base. -/
theorem cons_lt_pow {digit value width : Nat} (small : digit < toBase)
    (fits : value < toBase ^ width) : digit + toBase * value < toBase ^ (width + 1) := by
  have next : toBase * (value + 1) ≤ toBase * toBase ^ width := Nat.mul_le_mul_left _ fits
  rw [Nat.pow_succ, Nat.mul_comm (toBase ^ width)]
  rw [Nat.mul_succ] at next
  omega

/--
One pass of the carry loop over a buffer whose value fits in the digits
from `i` up to `length`: the buffer becomes `fromBase` times its value plus
the carry, with what does not fit left in the carry; a zero carry means
that the result fits in the digits passed.
-/
theorem carryLoop_spec (two : 2 ≤ toBase) :
    ∀ (digits : List Nat) (carry i length : Nat), (∀ d ∈ digits, d < toBase) →
      Nat.ofDigits toBase digits < toBase ^ (length - i) →
      ∃ digits' carry' i', carryLoop fromBase toBase digits carry i length = (digits', carry', i') ∧
        digits'.length = digits.length ∧ (∀ d ∈ digits', d < toBase) ∧
        Nat.ofDigits toBase digits' + toBase ^ digits.length * carry' =
          fromBase * Nat.ofDigits toBase digits + carry ∧
        i ≤ i' ∧ (carry' = 0 → Nat.ofDigits toBase digits' < toBase ^ (i' - i))
  | [], carry, i, _, _, _ =>
      ⟨[], carry, i, rfl, rfl, by simp, by simp, le_refl i, fun _ => by simp⟩
  | digit :: rest, carry, i, length, small, fits => by
      have digitSmall : digit < toBase := small digit List.mem_cons_self
      have restSmall : ∀ d ∈ rest, d < toBase := fun d member =>
        small d (List.mem_cons_of_mem digit member)
      rw [Nat.ofDigits_cons] at fits
      by_cases active : carry ≠ 0 ∨ i < length
      · have restFits : Nat.ofDigits toBase rest < toBase ^ (length - (i + 1)) := by
          by_cases inside : i < length
          · have widen : toBase ^ (length - i) = toBase * toBase ^ (length - (i + 1)) := by
              rw [show length - i = length - (i + 1) + 1 by omega, Nat.pow_succ']
            rw [widen] at fits
            exact Nat.lt_of_mul_lt_mul_left (Nat.lt_of_le_of_lt (Nat.le_add_left _ _) fits)
          · rw [show length - i = 0 by omega, Nat.pow_zero] at fits
            have zero : toBase * Nat.ofDigits toBase rest = 0 := by omega
            rw [(Nat.mul_eq_zero.mp zero).resolve_left (by omega)]
            exact Nat.pow_pos (by omega)
        obtain ⟨rest', carry', i', run, lengthEq, small', equation, later, fit⟩ :=
          carryLoop_spec two rest ((carry + fromBase * digit) / toBase) (i + 1) length restSmall
            restFits
        refine ⟨(carry + fromBase * digit) % toBase :: rest', carry', i', ?_, ?_, ?_, ?_, ?_, ?_⟩
        · rw [carryLoop, if_pos (by simpa using active)]
          dsimp only
          rw [run]
        · rw [List.length_cons, List.length_cons, lengthEq]
        · intro d member
          rcases List.mem_cons.mp member with rfl | member
          · exact Nat.mod_lt _ (by omega)
          · exact small' d member
        · have split := Nat.mod_add_div (carry + fromBase * digit) toBase
          calc Nat.ofDigits toBase ((carry + fromBase * digit) % toBase :: rest') +
                toBase ^ (rest.length + 1) * carry' =
              (carry + fromBase * digit) % toBase +
                toBase * (Nat.ofDigits toBase rest' + toBase ^ rest.length * carry') := by
                rw [Nat.ofDigits_cons, Nat.pow_succ]
                ring
            _ = (carry + fromBase * digit) % toBase +
                toBase * ((carry + fromBase * digit) / toBase) +
                  toBase * (fromBase * Nat.ofDigits toBase rest) := by
                rw [equation]
                ring
            _ = fromBase * (digit + toBase * Nat.ofDigits toBase rest) + carry := by
                rw [split]
                ring
        · omega
        · intro zero
          rw [Nat.ofDigits_cons, show i' - i = i' - (i + 1) + 1 by omega]
          exact cons_lt_pow (Nat.mod_lt _ (by omega)) (fit zero)
      · have idle : carry = 0 ∧ length ≤ i := by omega
        rw [show length - i = 0 by omega, Nat.pow_zero] at fits
        have zero : digit + toBase * Nat.ofDigits toBase rest = 0 := by omega
        refine ⟨digit :: rest, carry, i, ?_, rfl, small, ?_, le_refl i, ?_⟩
        · rw [carryLoop, if_neg (by simpa using active)]
        · rw [Nat.ofDigits_cons, zero, idle.1]
          simp
        · intro _
          rw [Nat.ofDigits_cons, zero]
          exact Nat.pow_pos (by omega)

/-- A buffer of digits below `toBase` holding `value`, which fits in its first `state.2` digits. -/
structure Holds (toBase value : Nat) (state : List Nat × Nat) : Prop where
  digit_lt : ∀ d ∈ state.1, d < toBase
  value_eq : Nat.ofDigits toBase state.1 = value
  fits : value < toBase ^ state.2

/-- Where the result fits the buffer, one digit passes the assertion and multiplies the value. -/
theorem applyDigit_spec (two : 2 ≤ toBase) {state : List Nat × Nat} {value digit : Nat}
    (holds : Holds toBase value state)
    (room : fromBase * value + digit < toBase ^ state.1.length) :
    ∃ next, applyDigit fromBase toBase state digit = some next ∧
      next.1.length = state.1.length ∧ Holds toBase (fromBase * value + digit) next := by
  obtain ⟨digits', carry', i', run, lengthEq, small', equation, -, fit⟩ :=
    @carryLoop_spec fromBase toBase two state.1 digit 0 state.2 holds.digit_lt
      (by rw [Nat.sub_zero, holds.value_eq]; exact holds.fits)
  rw [holds.value_eq] at equation
  have noCarry : carry' = 0 := by
    by_contra nonzero
    have whole : toBase ^ state.1.length ≤ toBase ^ state.1.length * carry' :=
      Nat.le_mul_of_pos_right _ (Nat.pos_of_ne_zero nonzero)
    omega
  have valueEq : Nat.ofDigits toBase digits' = fromBase * value + digit := by
    rw [noCarry, Nat.mul_zero, Nat.add_zero] at equation
    exact equation
  refine ⟨(digits', i'), ?_, lengthEq, small', valueEq, ?_⟩
  · rw [applyDigit, run]
    simp [noCarry]
  · rw [← valueEq, ← Nat.sub_zero i']
    exact fit noCarry

/--
A run of digits below `fromBase` passes every assertion while the buffer
has room for the whole result, and leaves the value shifted by them.
-/
theorem foldlM_applyDigit (two : 2 ≤ toBase) :
    ∀ (values : List Nat) (state : List Nat × Nat) (value : Nat), (∀ x ∈ values, x < fromBase) →
      Holds toBase value state →
      (value + 1) * fromBase ^ values.length ≤ toBase ^ state.1.length →
      ∃ final, values.foldlM (applyDigit fromBase toBase) state = some final ∧
        final.1.length = state.1.length ∧
        Holds toBase (value * fromBase ^ values.length + Nat.ofDigits fromBase values.reverse) final
  | [], state, value, _, holds, _ => ⟨state, rfl, rfl, by simpa using holds⟩
  | digit :: rest, state, value, small, holds, room => by
      have digitSmall : digit < fromBase := small digit List.mem_cons_self
      have shifted : fromBase * value + digit + 1 ≤ (value + 1) * fromBase := by
        rw [Nat.add_mul, Nat.one_mul, Nat.mul_comm value]
        omega
      have spread : fromBase * value + digit < toBase ^ state.1.length := by
        have grow : (value + 1) * fromBase ≤ (value + 1) * fromBase ^ (rest.length + 1) := by
          rw [Nat.pow_succ]
          exact Nat.mul_le_mul_left _ (Nat.le_mul_of_pos_left _ (Nat.pow_pos (by omega)))
        rw [List.length_cons] at room
        omega
      obtain ⟨next, step, lengthEq, nextHolds⟩ := applyDigit_spec two holds spread
      have nextRoom : (fromBase * value + digit + 1) * fromBase ^ rest.length ≤
          toBase ^ next.1.length := by
        rw [lengthEq]
        calc (fromBase * value + digit + 1) * fromBase ^ rest.length
            ≤ (value + 1) * fromBase * fromBase ^ rest.length := Nat.mul_le_mul_right _ shifted
          _ = (value + 1) * fromBase ^ (digit :: rest).length := by
              rw [List.length_cons, Nat.pow_succ, Nat.mul_assoc, Nat.mul_comm fromBase]
          _ ≤ toBase ^ state.1.length := room
      obtain ⟨final, run, finalLength, finalHolds⟩ := foldlM_applyDigit two rest next _
        (fun x member => small x (List.mem_cons_of_mem digit member)) nextHolds nextRoom
      refine ⟨final, ?_, finalLength.trans lengthEq, ?_⟩
      · rw [List.foldlM_cons, step]
        exact run
      · have value_eq : (fromBase * value + digit) * fromBase ^ rest.length +
              Nat.ofDigits fromBase rest.reverse =
            value * fromBase ^ (digit :: rest).length +
              Nat.ofDigits fromBase (digit :: rest).reverse := by
          rw [Nat.ofDigits_reverse_cons, List.length_cons, Nat.pow_succ]
          ring
        rw [← value_eq]
        exact finalHolds

/-- The digits left after the skip are the canonical digits of the buffer's value. -/
theorem significant_eq (two : 2 ≤ toBase) {buffer : List Nat} {size length value : Nat}
    (sized : buffer.length = size) (holds : Holds toBase value (buffer, length)) :
    significant buffer size length = (Nat.digits toBase value).reverse := by
  obtain ⟨small, valueEq, fits⟩ := holds
  obtain ⟨zeros, split⟩ := eq_digits_append_replicate two buffer small
  rw [valueEq] at split
  have short : (Nat.digits toBase value).length ≤ length :=
    (Nat.digits_length_le_iff (by omega) value).mpr fits
  have skipped : size - length ≤ zeros := by
    have total := congrArg List.length split
    rw [List.length_append, List.length_replicate, sized] at total
    omega
  rw [significant, dropWhile_drop, dropWhile_reverse two small, valueEq]
  intro digit member
  rw [split, List.reverse_append, List.reverse_replicate,
    List.take_append_of_le_length (by simp [skipped])] at member
  simp [(List.mem_replicate.mp (List.mem_of_mem_take member)).2]

end Conversion

/-! ## Buffer sizes -/

/-- `size = n * 138 / 100 + 1` base-58 digits hold every number of `n` bytes: `256 ^ 8 ≤ 58 ^ 11`. -/
theorem encodeBuffer_fits (n : Nat) : 256 ^ n ≤ 58 ^ (n * 138 / 100 + 1) :=
  calc 256 ^ n ≤ 58 ^ (n * 11 / 8 + 1) :=
        pow_le_pow_div_succ (by decide) (by decide) (by decide) n
    _ ≤ 58 ^ (n * 138 / 100 + 1) := Nat.pow_le_pow_right (by decide) (by omega)

/-- `size = n * 733 / 1000 + 1` bytes hold every number of `n` base-58 digits: `58 ^ 71 ≤ 256 ^ 52`. -/
theorem decodeBuffer_fits (n : Nat) : 58 ^ n ≤ 256 ^ (n * 733 / 1000 + 1) :=
  calc 58 ^ n ≤ 256 ^ (n * 52 / 71 + 1) :=
        pow_le_pow_div_succ (by decide) (by decide) (by decide) n
    _ ≤ 256 ^ (n * 733 / 1000 + 1) := Nat.pow_le_pow_right (by decide) (by omega)

/-- An empty buffer of any size holds zero. -/
theorem holds_replicate {toBase : Nat} (positive : 0 < toBase) (size : Nat) :
    Holds toBase 0 (List.replicate size 0, 0) where
  digit_lt d member := by
    rw [List.eq_of_mem_replicate member]
    exact positive
  value_eq := Nat.ofDigits_replicate_zero
  fits := by simp

/-! ## The alphabet -/

/-- The digit characters stand in increasing order, so none repeats. -/
theorem sorted_pszBase58 : pszBase58.IsChain (· < ·) := by
  decide

theorem pairwise_pszBase58 : pszBase58.Pairwise (· < ·) :=
  List.isChain_iff_pairwise.mp sorted_pszBase58

theorem length_pszBase58 : pszBase58.length = 58 := rfl

/-- Every digit character is found by `strchr` at its own index. -/
theorem idxOf?_pszBase58 : ∀ c ∈ pszBase58, pszBase58.idxOf? c = some (pszBase58.idxOf c) := by
  intro c member
  rw [List.idxOf?, List.findIdx?_eq_some_iff_findIdx_eq]
  exact ⟨List.idxOf_lt_length_of_mem member, rfl⟩

theorem getD_idxOf_pszBase58 : ∀ c ∈ pszBase58, pszBase58.getD (pszBase58.idxOf c) 0 = c := by
  intro c member
  have inside := List.idxOf_lt_length_of_mem member
  rw [List.getD_eq_getElem _ _ inside]
  exact List.getElem_idxOf inside

theorem idxOf_getD_pszBase58 : ∀ d < 58, pszBase58.idxOf (pszBase58.getD d 0) = d := by
  intro d small
  rw [← length_pszBase58] at small
  rw [List.getD_eq_getElem _ _ small]
  exact pairwise_pszBase58.nodup.idxOf_getElem d small

theorem getD_mem_pszBase58 : ∀ d < 58, pszBase58.getD d 0 ∈ pszBase58 := by
  intro d small
  rw [← length_pszBase58] at small
  rw [List.getD_eq_getElem _ _ small]
  exact List.getElem_mem small

theorem idxOf_lt_pszBase58 : ∀ c ∈ pszBase58, pszBase58.idxOf c < 58 := by
  intro c member
  exact length_pszBase58 ▸ List.idxOf_lt_length_of_mem member

/-- Every digit character is at least the first, `'1'`. -/
theorem ge_of_mem_pszBase58 : ∀ c ∈ pszBase58, 0x31 ≤ c := by
  obtain ⟨tail, split⟩ : ∃ tail, pszBase58 = 0x31 :: tail := ⟨_, rfl⟩
  have above := pairwise_pszBase58
  rw [split, List.pairwise_cons] at above
  intro c member
  rw [split, List.mem_cons] at member
  rcases member with first | later
  · exact first ▸ UInt8.le_refl _
  · exact UInt8.le_of_lt (above.1 c later)

/-- No digit character is a space or the NUL byte. -/
theorem isspace_pszBase58 : ∀ c ∈ pszBase58, isspace c = false ∧ c ≠ 0 := by
  intro c member
  have above := ge_of_mem_pszBase58 c member
  simp only [isspace, Bool.or_eq_false_iff, beq_eq_false_iff_ne, Bool.and_eq_false_iff,
    decide_eq_false_iff_not]
  simp only [ne_eq, UInt8.ext_iff, UInt8.le_iff_toNat_le, UInt8.toNat_ofNat] at above ⊢
  omega

/-- The digit zero is the character `'1'`. -/
theorem getD_zero_pszBase58 : pszBase58.getD 0 0 = 0x31 := by
  decide

/-! ## Encoding -/

/-- Dropping the run its predicate keeps leaves what `dropWhile` leaves. -/
theorem drop_length_takeWhile {α : Type} (p : α → Bool) :
    ∀ list : List α, list.drop (list.takeWhile p).length = list.dropWhile p
  | [] => rfl
  | a :: rest => by
      by_cases kept : p a = true
      · rw [List.takeWhile_cons_of_pos kept, List.dropWhile_cons_of_pos kept, List.length_cons,
          List.drop_succ_cons, drop_length_takeWhile p rest]
      · rw [List.takeWhile_cons_of_neg kept, List.dropWhile_cons_of_neg kept]
        rfl

/-- A list splits into the run its predicate keeps and the rest after it. -/
theorem takeWhile_append_drop {α : Type} (p : α → Bool) (list : List α) :
    list.takeWhile p ++ list.drop (list.takeWhile p).length = list := by
  rw [drop_length_takeWhile, List.takeWhile_append_dropWhile]

/-- A run of equal elements kept by `takeWhile` is a replicate. -/
theorem takeWhile_eq_replicate {α : Type} [DecidableEq α] (a : α) (list : List α) :
    list.takeWhile (fun x => x = a) = List.replicate (list.takeWhile fun x => x = a).length a :=
  List.eq_replicate_iff.mpr ⟨rfl, fun x member => by simpa using List.mem_takeWhile_imp member⟩

/-- Before a rest that does not start with `a`, the run of `a` is exactly the replicate. -/
theorem takeWhile_replicate_append {α : Type} [DecidableEq α] (a : α) (count : Nat) {rest : List α}
    (leading : rest.head? ≠ some a) :
    (List.replicate count a ++ rest).takeWhile (fun x => x = a) = List.replicate count a := by
  have restRun : rest.takeWhile (fun x => x = a) = [] := by
    cases rest with
    | nil => rfl
    | cons first tail =>
        rw [List.takeWhile_cons_of_neg (by simpa using leading)]
  rw [List.takeWhile_append_of_pos (fun x member => by simp [List.eq_of_mem_replicate member]),
    restRun, List.append_nil]

/-- What follows the run of `a` does not start with `a`. -/
theorem head?_drop_takeWhile {α : Type} [DecidableEq α] (a : α) (list : List α) :
    (list.drop (list.takeWhile fun x => x = a).length).head? ≠ some a := by
  rw [drop_length_takeWhile]
  have stop := List.head?_dropWhile_not (fun x => decide (x = a)) list
  intro start
  rw [start] at stop
  simp at stop

/--
`EncodeBase58` passes its assertions and writes `'1'` for each leading zero
byte and then the base-58 digits of the value of the other bytes.
-/
theorem EncodeBase58_eq (input : List UInt8) :
    EncodeBase58 input = some
      (List.replicate (input.takeWhile fun byte => byte = 0).length 0x31 ++
        (Nat.digits 58 (Nat.ofDigits 256
          ((input.drop (input.takeWhile fun byte => byte = 0).length).map UInt8.toNat).reverse)).reverse.map
            fun digit => pszBase58.getD digit 0) := by
  rw [EncodeBase58]
  generalize (input.takeWhile fun byte => byte = 0).length = zeroes
  generalize input.drop zeroes = rest
  have small : ∀ x ∈ rest.map UInt8.toNat, x < 256 := by
    intro x member
    obtain ⟨byte, -, rfl⟩ := List.mem_map.mp member
    exact byte.toNat_lt
  have room : (0 + 1) * 256 ^ (rest.map UInt8.toNat).length ≤
      58 ^ (List.replicate (rest.length * 138 / 100 + 1) 0).length := by
    rw [Nat.zero_add, Nat.one_mul, List.length_map, List.length_replicate]
    exact encodeBuffer_fits rest.length
  obtain ⟨⟨b58, length⟩, run, sized, holds⟩ := @foldlM_applyDigit 256 58 (by decide)
    (rest.map UInt8.toNat) (List.replicate (rest.length * 138 / 100 + 1) 0, 0) 0 small
    (holds_replicate (by decide) _) room
  rw [Nat.zero_mul, Nat.zero_add] at holds
  rw [List.length_replicate] at sized
  rw [List.foldlM_map] at run
  rw [run]
  simp only [Option.pure_def, Option.bind_eq_bind, Option.bind_some]
  rw [significant_eq (by decide) sized holds]

/-! ## Decoding -/

/-- Over digit characters the character loop is the run of their indices. -/
theorem decodeChars_of_mem :
    ∀ (chars : List UInt8) (state : List Nat × Nat), (∀ c ∈ chars, c ∈ pszBase58) →
      decodeChars chars state =
        ((chars.map pszBase58.idxOf).foldlM (applyDigit 58 256) state).map some
  | [], _, _ => rfl
  | c :: rest, state, valid => by
      rw [decodeChars, idxOf?_pszBase58 c (valid c List.mem_cons_self), List.map_cons,
        List.foldlM_cons]
      dsimp only
      cases applyDigit 58 256 state (pszBase58.idxOf c) with
      | none => rfl
      | some next =>
          simp only [Option.bind_some]
          exact decodeChars_of_mem rest next fun c member => valid c (List.mem_cons_of_mem _ member)

/-- A character loop that returns a buffer read only digit characters. -/
theorem mem_of_decodeChars :
    ∀ (chars : List UInt8) (state final : List Nat × Nat),
      decodeChars chars state = some (some final) → ∀ c ∈ chars, c ∈ pszBase58
  | [], _, _, _ => by simp
  | c :: rest, state, final, run => by
      rw [decodeChars] at run
      cases found : pszBase58.idxOf? c with
      | none =>
          rw [found] at run
          cases run
      | some ch =>
          rw [found] at run
          dsimp only at run
          cases step : applyDigit 58 256 state ch with
          | none =>
              rw [step] at run
              cases run
          | some next =>
              rw [step, Option.bind_some] at run
              intro d member
              rcases List.mem_cons.mp member with rfl | member
              · exact List.isSome_idxOf?.mp (by rw [found]; rfl)
              · exact mem_of_decodeChars rest next final run d member

/--
`DecodeBase58` of `'1'` characters and then digit characters that do not
start with `'1'`: a zero byte for each `'1'`, then the bytes of the value of
the digits.
-/
theorem DecodeBase58_eq (zeroes : Nat) (rest : List UInt8) (valid : ∀ c ∈ rest, c ∈ pszBase58)
    (leading : rest.head? ≠ some 0x31) :
    DecodeBase58 (List.replicate zeroes 0x31 ++ rest) = some (some
      (List.replicate zeroes 0 ++
        (Nat.digits 256 (Nat.ofDigits 58 (rest.map pszBase58.idxOf).reverse)).reverse.map
          Nat.toUInt8)) := by
  have spaceFree : ∀ c ∈ List.replicate zeroes (0x31 : UInt8) ++ rest, isspace c = false := by
    intro c member
    rcases List.mem_append.mp member with one | digit
    · rw [List.eq_of_mem_replicate one]
      decide
    · exact (isspace_pszBase58 c (valid c digit)).1
  have unspaced : (List.replicate zeroes (0x31 : UInt8) ++ rest).dropWhile isspace =
      List.replicate zeroes 0x31 ++ rest :=
    List.dropWhile_eq_self_iff.mpr fun nonempty => by
      rw [spaceFree _ (List.getElem_mem nonempty)]
      decide
  have kept : rest.takeWhile (fun c => !isspace c) = rest :=
    List.takeWhile_eq_self_iff.mpr fun c member => by
      simp [(isspace_pszBase58 c (valid c member)).1]
  have small : ∀ x ∈ rest.map pszBase58.idxOf, x < 58 := by
    intro x member
    obtain ⟨c, inside, rfl⟩ := List.mem_map.mp member
    exact idxOf_lt_pszBase58 c (valid c inside)
  have room : (0 + 1) * 58 ^ (rest.map pszBase58.idxOf).length ≤
      256 ^ (List.replicate (rest.length * 733 / 1000 + 1) 0).length := by
    rw [Nat.zero_add, Nat.one_mul, List.length_map, List.length_replicate]
    exact decodeBuffer_fits rest.length
  obtain ⟨⟨b256, length⟩, run, sized, holds⟩ := @foldlM_applyDigit 58 256 (by decide)
    (rest.map pszBase58.idxOf) (List.replicate (rest.length * 733 / 1000 + 1) 0, 0) 0 small
    (holds_replicate (by decide) _) room
  rw [Nat.zero_mul, Nat.zero_add] at holds
  rw [List.length_replicate] at sized
  rw [DecodeBase58]
  rw [unspaced, takeWhile_replicate_append _ _ leading, List.length_replicate, List.drop_left' List.length_replicate, kept,
    decodeChars_of_mem rest _ valid, run]
  simp only [Option.map_some, List.drop_length, List.dropWhile_nil, List.isEmpty_nil, if_true]
  rw [significant_eq (by decide) sized holds]

/-- A string that decodes read only digit characters after its `'1'` characters. -/
theorem mem_of_DecodeBase58 {str v : List UInt8} (spaceFree : ∀ c ∈ str, isspace c = false)
    (decoded : DecodeBase58 str = some (some v)) :
    ∀ c ∈ str.drop (str.takeWhile fun c => c = 0x31).length, c ∈ pszBase58 := by
  have unspaced : str.dropWhile isspace = str :=
    List.dropWhile_eq_self_iff.mpr fun nonempty => by
      rw [spaceFree _ (List.getElem_mem nonempty)]
      decide
  have kept : (str.drop (str.takeWhile fun c => c = 0x31).length).takeWhile (fun c => !isspace c) =
      str.drop (str.takeWhile fun c => c = 0x31).length :=
    List.takeWhile_eq_self_iff.mpr fun c member => by
      simp [spaceFree c (List.mem_of_mem_drop member)]
  rw [DecodeBase58, unspaced, kept] at decoded
  generalize run : decodeChars _ _ = result at decoded
  rcases result with _ | _ | final
  · cases decoded
  · cases decoded
  · exact mem_of_decodeChars _ _ final run

/-! ## Round trips -/

/--
Encoding passes its assertions, and decoding its string gives the bytes
back; the string has no space and no NUL byte.
-/
theorem DecodeBase58_EncodeBase58 (v : List UInt8) :
    ∃ str, EncodeBase58 v = some str ∧ DecodeBase58 str = some (some v) ∧
      ∀ c ∈ str, isspace c = false ∧ c ≠ 0 := by
  generalize zeroesDef : (v.takeWhile fun byte => byte = 0).length = zeroes
  have whole : List.replicate zeroes 0 ++ v.drop zeroes = v := by
    rw [← zeroesDef, ← takeWhile_eq_replicate]
    exact takeWhile_append_drop _ v
  have restLead : ((v.drop zeroes).map UInt8.toNat).head? ≠ some 0 := by
    rw [List.head?_map]
    intro zero
    apply head?_drop_takeWhile (0 : UInt8) v
    rw [zeroesDef]
    obtain ⟨byte, start, isZero⟩ := Option.map_eq_some_iff.mp zero
    rw [start, show byte = 0 from UInt8.toNat_inj.mp isZero]
  generalize valueDef : Nat.ofDigits 256 ((v.drop zeroes).map UInt8.toNat).reverse = value
  have digitsSmall : ∀ d ∈ (Nat.digits 58 value).reverse, d < 58 := fun d member =>
    Nat.digits_lt_base (by decide) (List.mem_reverse.mp member)
  have encoded : ∀ c ∈ (Nat.digits 58 value).reverse.map (fun digit => pszBase58.getD digit 0),
      c ∈ pszBase58 := by
    intro c member
    obtain ⟨d, inside, rfl⟩ := List.mem_map.mp member
    exact getD_mem_pszBase58 d (digitsSmall d inside)
  have indices : ((Nat.digits 58 value).reverse.map fun digit => pszBase58.getD digit 0).map
      pszBase58.idxOf = (Nat.digits 58 value).reverse := by
    rw [List.map_map]
    conv_rhs => rw [← List.map_id (Nat.digits 58 value).reverse]
    exact List.map_congr_left fun d member => idxOf_getD_pszBase58 d (digitsSmall d member)
  have leading : ((Nat.digits 58 value).reverse.map fun digit => pszBase58.getD digit 0).head? ≠
      some 0x31 := by
    rw [List.head?_map]
    intro one
    obtain ⟨d, start, isOne⟩ := Option.map_eq_some_iff.mp one
    have inside : d < 58 := digitsSmall d (List.mem_of_head? start)
    have zero : d = 0 := by
      rw [← idxOf_getD_pszBase58 d inside, isOne, ← getD_zero_pszBase58]
      decide
    exact head?_reverse_digits_ne_zero value (zero ▸ start)
  have bytesBack : (Nat.digits 256 value).reverse.map Nat.toUInt8 = v.drop zeroes := by
    have small : ∀ x ∈ (v.drop zeroes).map UInt8.toNat, x < 256 := by
      intro x member
      obtain ⟨byte, -, rfl⟩ := List.mem_map.mp member
      exact byte.toNat_lt
    rw [← valueDef, digits_ofDigits_reverse (by decide) small restLead, List.map_map]
    conv_rhs => rw [← List.map_id (v.drop zeroes)]
    exact List.map_congr_left fun byte _ => UInt8.ofNat_toNat
  refine ⟨List.replicate zeroes 0x31 ++
      (Nat.digits 58 value).reverse.map fun digit => pszBase58.getD digit 0, ?_, ?_, ?_⟩
  · rw [EncodeBase58_eq, zeroesDef, valueDef]
  · rw [DecodeBase58_eq zeroes _ encoded leading, indices, List.reverse_reverse,
      Nat.ofDigits_digits, bytesBack, whole]
  · intro c member
    rcases List.mem_append.mp member with one | digit
    · rw [List.eq_of_mem_replicate one]
      decide
    · exact isspace_pszBase58 c (encoded c digit)

/--
Decoding a string with no space and no NUL byte, then encoding the bytes,
gives the string back.
-/
theorem EncodeBase58_DecodeBase58 {str v : List UInt8}
    (plain : ∀ c ∈ str, isspace c = false ∧ c ≠ 0) (decoded : DecodeBase58 str = some (some v)) :
    EncodeBase58 v = some str := by
  have valid := mem_of_DecodeBase58 (fun c member => (plain c member).1) decoded
  generalize zeroesDef : (str.takeWhile fun c => c = 0x31).length = zeroes at valid
  have whole : List.replicate zeroes 0x31 ++ str.drop zeroes = str := by
    rw [← zeroesDef, ← takeWhile_eq_replicate]
    exact takeWhile_append_drop _ str
  have leading : (str.drop zeroes).head? ≠ some 0x31 := by
    rw [← zeroesDef]
    exact head?_drop_takeWhile _ str
  rw [← whole, DecodeBase58_eq zeroes _ valid leading, Option.some_inj, Option.some_inj] at decoded
  subst decoded
  generalize valueDef : Nat.ofDigits 58 ((str.drop zeroes).map pszBase58.idxOf).reverse = value
  have digitsSmall : ∀ d ∈ (Nat.digits 256 value).reverse, d < 256 := fun d member =>
    Nat.digits_lt_base (by decide) (List.mem_reverse.mp member)
  have bytesLead : ((Nat.digits 256 value).reverse.map Nat.toUInt8).head? ≠ some 0 := by
    rw [List.head?_map]
    intro zero
    obtain ⟨d, start, isZero⟩ := Option.map_eq_some_iff.mp zero
    have inside : d < 256 := digitsSmall d (List.mem_of_head? start)
    have dZero : d = 0 := by
      have byteNat := congrArg UInt8.toNat isZero
      rw [Nat.toUInt8, UInt8.toNat_ofNat_of_lt' (by simp only [UInt8.size]; omega)] at byteNat
      exact byteNat
    exact head?_reverse_digits_ne_zero value (dZero ▸ start)
  have bytesBack : ((Nat.digits 256 value).reverse.map Nat.toUInt8).map UInt8.toNat =
      (Nat.digits 256 value).reverse := by
    rw [List.map_map]
    conv_rhs => rw [← List.map_id (Nat.digits 256 value).reverse]
    refine List.map_congr_left fun d member => ?_
    exact UInt8.toNat_ofNat_of_lt' (by simp only [UInt8.size]; exact digitsSmall d member)
  have indicesSmall : ∀ d ∈ (str.drop zeroes).map pszBase58.idxOf, d < 58 := by
    intro d member
    obtain ⟨c, inside, rfl⟩ := List.mem_map.mp member
    exact idxOf_lt_pszBase58 c (valid c inside)
  have indicesLead : ((str.drop zeroes).map pszBase58.idxOf).head? ≠ some 0 := by
    rw [List.head?_map]
    intro zero
    obtain ⟨c, start, isZero⟩ := Option.map_eq_some_iff.mp zero
    apply leading
    rw [start, ← getD_idxOf_pszBase58 c (valid c (List.mem_of_head? start)), isZero,
      getD_zero_pszBase58]
  have charsBack : (Nat.digits 58 value).reverse.map (fun digit => pszBase58.getD digit 0) =
      str.drop zeroes := by
    rw [← valueDef, digits_ofDigits_reverse (by decide) indicesSmall indicesLead, List.map_map]
    conv_rhs => rw [← List.map_id (str.drop zeroes)]
    exact List.map_congr_left fun c member => getD_idxOf_pszBase58 c (valid c member)
  rw [EncodeBase58_eq, takeWhile_replicate_append _ _ bytesLead, List.length_replicate,
    List.drop_left' List.length_replicate, bytesBack, List.reverse_reverse, Nat.ofDigits_digits,
    charsBack, whole]

/-- Without a NUL byte a string's `c_str()` is all of it. -/
theorem DecodeBase58OfString_eq {str : List UInt8} (noNul : ∀ c ∈ str, c ≠ 0) :
    DecodeBase58OfString str = DecodeBase58 str := by
  rw [DecodeBase58OfString, List.takeWhile_eq_self_iff.mpr fun c member => by
    simpa using noNul c member]

/-- The checksum is four bytes. -/
theorem length_checksum (hashes : HashPrimitives) (vchIn : List UInt8) :
    ((hashes.Hash vchIn).toByteVector.take 4).length = 4 := by
  simp [uint256.toByteVector]

/-- Decoding a checksummed payload checks the checksum and cuts it. -/
theorem DecodeBase58Check_of_decode (hashes : HashPrimitives) {psz v : List UInt8}
    (decoded : DecodeBase58 psz = some (some (v ++ (hashes.Hash v).toByteVector.take 4))) :
    DecodeBase58Check hashes psz = some (some v) := by
  have cut : (v ++ (hashes.Hash v).toByteVector.take 4).length - 4 = v.length := by
    rw [List.length_append, length_checksum]
    omega
  rw [DecodeBase58Check, decoded]
  dsimp only
  rw [if_neg (by rw [List.length_append, length_checksum]; omega), cut, List.take_left',
    List.drop_left', if_neg (fun differ => differ rfl)]
  · rfl
  · rfl

/-- `EncodeBase58Check` passes its assertions, and `DecodeBase58Check` gives the payload back. -/
theorem DecodeBase58Check_EncodeBase58Check (hashes : HashPrimitives) (v : List UInt8) :
    ∃ str, EncodeBase58Check hashes v = some str ∧ DecodeBase58Check hashes str = some (some v) ∧
      ∀ c ∈ str, isspace c = false ∧ c ≠ 0 := by
  obtain ⟨str, encoded, decoded, plain⟩ :=
    DecodeBase58_EncodeBase58 (v ++ (hashes.Hash v).toByteVector.take 4)
  exact ⟨str, encoded, DecodeBase58Check_of_decode hashes decoded, plain⟩

theorem base58_roundtrip :
    (∀ v : List UInt8, ∃ str, EncodeBase58 v = some str ∧
      DecodeBase58OfString str = some (some v)) ∧
    (∀ (hashes : HashPrimitives) (v : List UInt8), ∃ str, EncodeBase58Check hashes v = some str ∧
      DecodeBase58CheckOfString hashes str = some (some v)) ∧
    (∀ str v : List UInt8, (∀ c ∈ str, isspace c = false ∧ c ≠ 0) →
      DecodeBase58OfString str = some (some v) → EncodeBase58 v = some str) ∧
    (∀ (hashes : HashPrimitives) ( ns_prefix ns : List UInt8), ns_prefix <+: ns →
      ns.length = 20 + ns_prefix.length →
      ∃ str, EncodeBase58Check hashes ns = some str ∧
        DecodeKevaNamespace hashes ns_prefix str = some (some ns)) := by
  refine ⟨?_, ?_, ?_, ?_⟩
  · intro v
    obtain ⟨str, encoded, decoded, plain⟩ := DecodeBase58_EncodeBase58 v
    exact ⟨str, encoded, by rw [DecodeBase58OfString_eq fun c member => (plain c member).2, decoded]⟩
  · intro hashes v
    obtain ⟨str, encoded, decoded, plain⟩ := DecodeBase58Check_EncodeBase58Check hashes v
    refine ⟨str, encoded, ?_⟩
    rw [DecodeBase58CheckOfString, List.takeWhile_eq_self_iff.mpr fun c member => by
      simpa using (plain c member).2, decoded]
  · intro str v plain decoded
    rw [DecodeBase58OfString_eq fun c member => (plain c member).2] at decoded
    exact EncodeBase58_DecodeBase58 plain decoded
  · intro hashes ns_prefix ns isPrefix sized
    obtain ⟨str, encoded, decoded, plain⟩ := DecodeBase58Check_EncodeBase58Check hashes ns
    refine ⟨str, encoded, ?_⟩
    rw [DecodeKevaNamespace, DecodeBase58CheckOfString, List.takeWhile_eq_self_iff.mpr
      fun c member => by simpa using (plain c member).2, decoded]
    dsimp only
    rw [if_pos ⟨sized, List.isPrefixOf_iff_prefix.mpr isPrefix⟩]

/-- The same round trips at the mainnet namespace prefix `53` and at one string. -/
theorem base58_roundtrip_mainnet_namespace :
    [53] <+: (53 :: List.replicate 20 0 : List UInt8) ∧
      (53 :: List.replicate 20 0 : List UInt8).length = 20 + [53].length ∧
      (∀ c ∈ [0x32], isspace c = false ∧ c ≠ 0) ∧ DecodeBase58OfString [0x32] = some (some [1]) ∧
      EncodeBase58 [1] = some [0x32] ∧
      ∃ str, EncodeBase58Check ⟨fun _ => 0, fun _ => 0, fun _ _ _ _ => 0, fun _ _ _ => 0⟩
          (53 :: List.replicate 20 0) = some str ∧
        DecodeKevaNamespace ⟨fun _ => 0, fun _ => 0, fun _ _ _ _ => 0, fun _ _ _ => 0⟩ [53] str =
          some (some (53 :: List.replicate 20 0)) :=
  ⟨⟨List.replicate 20 0, rfl⟩, rfl, by decide +kernel, by decide +kernel,
    base58_roundtrip.2.2.1 [0x32] [1] (by decide +kernel) (by decide +kernel),
    base58_roundtrip.2.2.2 _ [53] _ (⟨List.replicate 20 0, rfl⟩) rfl⟩

/--
A string is cut at its first NUL byte: `"2\0" "2"` decodes as `"2"`, to the
byte `1`, which encodes back to `"2"` alone.
-/
theorem base58_decode_stops_at_nul :
    DecodeBase58OfString [0x32, 0x00, 0x32] = some (some [1]) ∧ EncodeBase58 [1] = some [0x32] ∧
      isspace 0x00 = false := by
  decide

end Kevacoin
