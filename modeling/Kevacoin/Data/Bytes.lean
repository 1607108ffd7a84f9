import Mathlib.Data.List.Basic
import Mathlib.Data.Nat.Digits.Lemmas
import Mathlib.Data.Nat.Bitwise

/-!
# Byte encodings and their readers

Serialized data is read front to back.  A reader takes the bytes and
returns the value at their front with the bytes after it, or `none` where
the bytes hold no value it accepts.  What a writer and a reader owe each
other is `ReadsBack`: the reader finds the value at the front of its
encoding, whatever follows.  Round trips compose along `bind`
(`ReadsBack.bind`), so a record written field by field reads back field by
field, and a run of values member by member (`readsBack_readList`).
`overwrite` is the `memcpy` of bytes into a buffer.

Three integer encodings are here, each with its reader and its round trip:
- the unsigned little-endian integer of a fixed width;
- the varint of seven-bit groups with the least significant group first
  (LEB128), whose reader refuses a value wider than its type and a zero
  group after the first;
- the varint of seven-bit groups with the most significant group first,
  in which every group but the last counts from one, so that each number
  has one encoding, and whose reader refuses a value past the largest of its
  type.
-/

namespace Bytes

/-- A reader of bytes: the value at the front and the bytes after it. -/
abbrev Reader (α : Type) := StateT (List UInt8) Option α

/-- `read` finds `value` at the front of `bytes`, whatever follows them. -/
def ReadsBack {α : Type} (read : Reader α) (bytes : List UInt8) (value : α) : Prop :=
  ∀ rest, read.run (bytes ++ rest) = some (value, rest)

/-! ## Composing readers -/

section Rules

variable {α β : Type}

theorem run_bind_of_run {x : Reader α} {f : α → Reader β} {input after : List UInt8} {a : α}
    (ran : x.run input = some (a, after)) : (x >>= f).run input = (f a).run after := by
  simp only [StateT.run_bind, ran]
  rfl

theorem ReadsBack.bind {read : Reader α} {next : α → Reader β} {first second : List UInt8}
    {a : α} {b : β} (readsFirst : ReadsBack read first a)
    (readsSecond : ReadsBack (next a) second b) :
    ReadsBack (read >>= next) (first ++ second) b := by
  intro rest
  rw [List.append_assoc, run_bind_of_run (readsFirst (second ++ rest))]
  exact readsSecond rest

theorem ReadsBack.pure (value : α) : ReadsBack (Pure.pure value : Reader α) [] value := by
  intro rest
  rfl

theorem ReadsBack.map {read : Reader α} {bytes : List UInt8} {a : α} (f : α → β)
    (reads : ReadsBack read bytes a) : ReadsBack (f <$> read) bytes (f a) := by
  intro rest
  rw [StateT.run_map, reads]
  rfl

end Rules

/-- Read one byte. -/
def readByte : Reader UInt8 := fun
  | [] => none
  | byte :: rest => some (byte, rest)

theorem run_readByte (byte : UInt8) (rest : List UInt8) :
    readByte.run (byte :: rest) = some (byte, rest) :=
  rfl

theorem readsBack_readByte (byte : UInt8) : ReadsBack readByte [byte] byte := by
  intro rest
  rfl

/-- Read `count` bytes as they are. -/
def readBytes (count : Nat) : Reader (List UInt8) := fun input =>
  if count ≤ input.length then some (input.take count, input.drop count) else none

theorem readsBack_readBytes (bytes : List UInt8) :
    ReadsBack (readBytes bytes.length) bytes bytes := by
  intro rest
  simp [readBytes, StateT.run]

/-! ## Runs of values and writes into a buffer -/

section Runs

variable {α β : Type}

/-- Read `count` values one after another. -/
def readList (read : Reader α) : Nat → Reader (List α)
  | 0 => Pure.pure []
  | count + 1 => do
      let first ← read
      let others ← readList read count
      Pure.pure (first :: others)

/--
The bytes of a run of values, each written by `write`, read back member by
member: where the bytes of `value` read back as `f value`, the run reads
back as its image.
-/
theorem readsBack_readList {read : Reader β} {write : α → List UInt8} {f : α → β} :
    ∀ {values : List α}, (∀ value ∈ values, ReadsBack read (write value) (f value)) →
      ReadsBack (readList read values.length) (values.flatMap write) (values.map f)
  | [], _ => ReadsBack.pure []
  | value :: values, each => by
    rw [List.length_cons, readList, List.flatMap_cons, List.map_cons,
      ← List.append_nil (values.flatMap write)]
    exact (each value List.mem_cons_self).bind <|
      (readsBack_readList fun other member => each other (List.mem_cons_of_mem _ member)).bind
        (ReadsBack.pure _)

/-- Pieces that are not empty take at least one byte each. -/
theorem length_le_length_flatMap {write : α → List β} :
    ∀ {values : List α}, (∀ value ∈ values, write value ≠ []) →
      values.length ≤ (values.flatMap write).length
  | [], _ => Nat.le_refl 0
  | value :: values, nonempty => by
    have first := List.length_pos_iff_ne_nil.mpr (nonempty value List.mem_cons_self)
    have others := length_le_length_flatMap fun other member =>
      nonempty other (List.mem_cons_of_mem _ member)
    rw [List.length_cons, List.flatMap_cons, List.length_append]
    omega

/-- `memcpy` of `bytes` into `buffer` at `offset`: the bytes there are replaced, the length kept. -/
def overwrite (buffer : List α) (offset : Nat) (bytes : List α) : List α :=
  buffer.take offset ++ bytes ++ buffer.drop (offset + bytes.length)

/-- Writing over a stretch of bytes with as many others replaces them and nothing else. -/
theorem overwrite_append {front old new back : List α} (sameLength : new.length = old.length) :
    overwrite (front ++ old ++ back) front.length new = front ++ new ++ back := by
  rw [overwrite, sameLength, List.append_assoc front old back, List.take_left' rfl,
    List.drop_length_add_append, List.drop_left' rfl, List.append_assoc]

/--
A pattern that the search place by place finds at one place only starts
nowhere else: two places at which it starts are the same.
-/
theorem eq_of_prefix_drop [BEq α] [LawfulBEq α] {pat xs : List α} {place : Nat}
    (nonempty : pat ≠ [])
    (onlyAt : (List.range xs.length).filter (fun i => pat.isPrefixOf (xs.drop i)) = [place])
    {i j : Nat} (atI : pat <+: xs.drop i) (atJ : pat <+: xs.drop j) : i = j := by
  have found : ∀ k, pat <+: xs.drop k → k = place := by
    intro k atK
    have within : k < xs.length := by
      refine Nat.lt_of_not_le fun outside => nonempty ?_
      rwa [List.drop_of_length_le outside, List.prefix_nil] at atK
    have listed : k ∈ (List.range xs.length).filter (fun i => pat.isPrefixOf (xs.drop i)) :=
      List.mem_filter.mpr ⟨List.mem_range.mpr within, List.isPrefixOf_iff_prefix.mpr atK⟩
    rwa [onlyAt, List.mem_singleton] at listed
  rw [found i atI, found j atJ]

end Runs

/-! ## Little-endian integers -/

/-- The `width` bytes of `value`, least significant first. -/
def leBytes : Nat → Nat → List UInt8
  | 0, _ => []
  | width + 1, value => UInt8.ofNat value :: leBytes width (value / 256)

/-- An unsigned little-endian integer of `width` bytes. -/
def readLE : Nat → Reader Nat
  | 0 => Pure.pure 0
  | width + 1 => do
      let low ← readByte
      let high ← readLE width
      Pure.pure (low.toNat + 256 * high)

@[simp]
theorem length_leBytes (width value : Nat) : (leBytes width value).length = width := by
  induction width generalizing value with
  | zero => rfl
  | succ width ih => simp [leBytes, ih]

/-- Byte `i` of a little-endian integer is its digit of weight `256 ^ i`. -/
theorem leBytes_eq_map_range (width value : Nat) :
    leBytes width value = (List.range width).map fun index => UInt8.ofNat (value / 256 ^ index) := by
  induction width generalizing value with
  | zero => rfl
  | succ width ih =>
      rw [leBytes, ih, List.range_succ_eq_map, List.map_cons, List.map_map]
      congr 1
      · simp
      · congr 1
        funext index
        simp [Nat.div_div_eq_div_mul, Nat.pow_succ']

/-- The unsigned integer whose little-endian bytes are `bytes`. -/
def leValue : List UInt8 → Nat
  | [] => 0
  | byte :: rest => byte.toNat + 256 * leValue rest

theorem leValue_lt (bytes : List UInt8) : leValue bytes < 256 ^ bytes.length := by
  induction bytes with
  | nil => simp [leValue]
  | cons byte rest ih =>
    have low := byte.toNat_lt
    rw [leValue, List.length_cons, Nat.pow_succ]
    omega

/-- Bytes are the little-endian bytes of their own value. -/
theorem leBytes_leValue (bytes : List UInt8) : leBytes bytes.length (leValue bytes) = bytes := by
  induction bytes with
  | nil => rfl
  | cons byte rest ih =>
    have low := byte.toNat_lt
    have digit : (byte.toNat + 256 * leValue rest) / 256 = leValue rest := by omega
    rw [List.length_cons, leBytes, leValue, digit, ih]
    congr 1
    apply UInt8.toNat_inj.mp
    simp

/-- The value of the little-endian bytes of `value` is `value` cut to their width. -/
theorem leValue_leBytes (width value : Nat) : leValue (leBytes width value) = value % 256 ^ width := by
  induction width generalizing value with
  | zero => simp [leBytes, leValue, Nat.mod_one]
  | succ width ih =>
    rw [leBytes, leValue, ih, UInt8.toNat_ofNat',
      show 256 ^ (width + 1) = 256 * 256 ^ width from Nat.pow_succ', Nat.mod_mul]

theorem readsBack_leBytes : ∀ {width value : Nat}, value < 256 ^ width →
    ReadsBack (readLE width) (leBytes width value) value
  | 0, value, fits => by
      have zero : value = 0 := by simpa using fits
      subst zero
      exact ReadsBack.pure 0
  | width + 1, value, fits => by
      have high : value / 256 < 256 ^ width := by
        rw [Nat.div_lt_iff_lt_mul (by decide)]
        simpa [Nat.pow_succ] using fits
      have whole : (UInt8.ofNat value).toNat + 256 * (value / 256) = value := by
        simp
        omega
      have reads : ReadsBack (readLE (width + 1))
          ([UInt8.ofNat value] ++ (leBytes width (value / 256) ++ []))
          ((UInt8.ofNat value).toNat + 256 * (value / 256)) :=
        (readsBack_readByte _).bind ((readsBack_leBytes high).bind (ReadsBack.pure _))
      rw [whole, List.append_nil] at reads
      exact reads

/-! ## Minimal little-endian integers

A number's little-endian bytes with no zero byte at the top are its digits
in base 256, Mathlib's `Nat.digits 256`, so Mathlib's round trips between
digits and values are those of byte lists whose last byte is not zero.
-/

/-- The base-256 digits of `value` as bytes, least significant first. -/
def digitBytes (value : Nat) : List UInt8 :=
  (Nat.digits 256 value).map UInt8.ofNat

theorem leValue_eq_ofDigits (bytes : List UInt8) :
    leValue bytes = Nat.ofDigits 256 (bytes.map UInt8.toNat) := by
  induction bytes with
  | nil => rfl
  | cons byte rest ih => rw [leValue, List.map_cons, Nat.ofDigits_cons, ih]

theorem leValue_append_singleton (bytes : List UInt8) (last : UInt8) :
    leValue (bytes ++ [last]) = leValue bytes + 256 ^ bytes.length * last.toNat := by
  rw [leValue_eq_ofDigits, leValue_eq_ofDigits, List.map_append, Nat.ofDigits_append,
    List.length_map, List.map_singleton, Nat.ofDigits_singleton]

@[simp]
theorem digitBytes_zero : digitBytes 0 = [] := by
  simp [digitBytes]

theorem digitBytes_of_pos {value : Nat} (positive : 0 < value) :
    digitBytes value = UInt8.ofNat (value % 256) :: digitBytes (value / 256) := by
  rw [digitBytes, Nat.digits_def' (by decide) positive, List.map_cons]
  rfl

theorem leValue_digitBytes (value : Nat) : leValue (digitBytes value) = value := by
  have small : ∀ digit ∈ Nat.digits 256 value, (UInt8.toNat ∘ UInt8.ofNat) digit = id digit := by
    intro digit mem
    exact UInt8.toNat_ofNat_of_lt' (Nat.digits_lt_base (by decide) mem)
  rw [leValue_eq_ofDigits, digitBytes, List.map_map, List.map_congr_left small, List.map_id,
    Nat.ofDigits_digits]

/-- Bytes whose last byte is not zero are the digits of their value. -/
theorem digitBytes_leValue {bytes : List UInt8} {last : UInt8} (top : last ≠ 0) :
    digitBytes (leValue (bytes ++ [last])) = bytes ++ [last] := by
  have digits : Nat.digits 256 (leValue (bytes ++ [last])) = (bytes ++ [last]).map UInt8.toNat := by
    rw [leValue_eq_ofDigits]
    apply Nat.digits_ofDigits 256 (by decide)
    · intro digit mem
      obtain ⟨byte, _, rfl⟩ := List.mem_map.mp mem
      exact byte.toNat_lt
    · intro _
      rw [List.getLast_map, List.getLast_append_singleton]
      exact fun zero => top (UInt8.toNat_inj.mp zero)
  rw [digitBytes, digits, List.map_map]
  exact List.map_id'' (fun byte => UInt8.ofNat_toNat) _

/-- The digits of a positive number end in a byte that is not zero. -/
theorem digitBytes_eq_append {value : Nat} (positive : 0 < value) :
    ∃ init last, digitBytes value = init ++ [last] ∧ last ≠ 0 := by
  have nonempty : Nat.digits 256 value ≠ [] := Nat.digits_ne_nil_iff_ne_zero.mpr (by omega)
  have mapped : digitBytes value ≠ [] := by
    simpa [digitBytes] using nonempty
  refine ⟨(digitBytes value).dropLast, (digitBytes value).getLast mapped,
    (List.dropLast_append_getLast mapped).symm, ?_⟩
  have topDigit := Nat.getLast_digit_ne_zero 256 (show value ≠ 0 by omega)
  have below := Nat.digits_lt_base (by decide) (List.getLast_mem nonempty)
  simp only [digitBytes, List.getLast_map]
  intro zero
  apply topDigit
  have read := congrArg UInt8.toNat zero
  rwa [UInt8.toNat_ofNat_of_lt' below] at read

/-! ## The top bit of a byte -/

theorem and_topBit_ne_zero (byte : UInt8) : (byte &&& 0x80 != 0) = decide (0x80 ≤ byte.toNat) := by
  have bit : (byte &&& 0x80).toNat = (byte.toNat.testBit 7).toNat * 2 ^ 7 := by
    rw [UInt8.toNat_and, show (0x80 : UInt8).toNat = 2 ^ 7 from rfl, Nat.and_two_pow]
  have below := byte.toNat_lt
  rw [Nat.testBit_eq_decide_div_mod_eq] at bit
  rw [Bool.eq_iff_iff, bne_iff_ne, ne_eq, ← UInt8.toNat_inj, bit, decide_eq_true_iff]
  by_cases top : 0x80 ≤ byte.toNat
  · have set : byte.toNat / 128 % 2 = 1 := by omega
    simp [set, top]
  · have clear : byte.toNat / 128 % 2 = 0 := by omega
    simp [clear, top]

theorem toNat_and_lowBits (byte : UInt8) : (byte &&& 0x7f).toNat = byte.toNat % 0x80 := by
  rw [UInt8.toNat_and]
  simpa using Nat.and_two_pow_sub_one_eq_mod byte.toNat 7

theorem toNat_or_topBit {byte : UInt8} (low : byte.toNat < 0x80) :
    (byte ||| 0x80).toNat = byte.toNat + 0x80 := by
  rw [UInt8.toNat_or, show (0x80 : UInt8).toNat = 2 ^ 7 from rfl]
  exact Nat.or_two_pow_eq_add_of_lt low

/-! ## Varints, least significant group first -/

/--
Seven bits a byte, least significant group first, the high bit set on every
byte but the last; `fuel` bounds the number of bytes.
-/
def leb128 : Nat → Nat → List UInt8
  | 0, _ => []
  | fuel + 1, value =>
      if value ≥ 0x80 then UInt8.ofNat (value % 0x80 + 0x80) :: leb128 fuel (value / 0x80)
      else [UInt8.ofNat value]

/--
The groups of a varint of `bits` bits from bit `shift` on.  A group
that sets a bit at or past `bits` is refused, and so is a zero group
after the first, which no shortest encoding writes.  The value is the first
group's seven bits below the value of the groups after it.
-/
def readLEB128From (bits : Nat) : Nat → Nat → Reader Nat
  | 0, _ => failure
  | fuel + 1, shift => do
      let byte ← readByte
      if shift + 7 ≥ bits ∧ byte.toNat ≥ 2 ^ (bits - shift) then failure
      else if byte = 0 ∧ shift ≠ 0 then failure
      else if byte.toNat < 0x80 then Pure.pure byte.toNat
      else do
        let high ← readLEB128From bits fuel (shift + 7)
        Pure.pure (byte.toNat - 0x80 + 0x80 * high)

/-- A varint of at most `bits` bits; it reads a byte each round, so the input's length is fuel enough. -/
def readLEB128 (bits : Nat) : Reader Nat := fun input =>
  (readLEB128From bits input.length 0).run input

theorem length_leb128_le (fuel value : Nat) : (leb128 fuel value).length ≤ fuel := by
  induction fuel generalizing value with
  | zero => simp [leb128]
  | succ fuel ih =>
    unfold leb128
    split
    · simpa using ih (value / 0x80)
    · simp

theorem lt_128_of_mul_pow_lt {value shift bits : Nat} (fits : value * 2 ^ shift < 2 ^ bits)
    (last : bits ≤ shift + 7) : value < 0x80 := by
  have bound : 2 ^ bits ≤ 2 ^ (shift + 7) := Nat.pow_le_pow_right (by decide) last
  rw [Nat.pow_add] at bound
  have : value * 2 ^ shift < 2 ^ 7 * 2 ^ shift := by
    rw [Nat.mul_comm (2 ^ 7)]
    omega
  have := Nat.lt_of_mul_lt_mul_right this
  simpa using this

theorem lt_pow_sub_of_mul_pow_lt {value shift bits : Nat} (fits : value * 2 ^ shift < 2 ^ bits) :
    value < 2 ^ (bits - shift) := by
  by_cases within : shift ≤ bits
  · have split : 2 ^ bits = 2 ^ (bits - shift) * 2 ^ shift := by
      rw [← Nat.pow_add, Nat.sub_add_cancel within]
    rw [split] at fits
    exact Nat.lt_of_mul_lt_mul_right fits
  · have smaller : 2 ^ bits < 2 ^ shift := Nat.pow_lt_pow_right (by decide) (by omega)
    have zero : value = 0 := by
      by_contra nonzero
      have : 2 ^ shift ≤ value * 2 ^ shift := Nat.le_mul_of_pos_left _ (Nat.pos_of_ne_zero nonzero)
      omega
    rw [zero]
    exact Nat.pow_pos (by decide)

theorem readsBack_leb128From {bits : Nat} : ∀ {fuel value shift readerFuel : Nat},
    (leb128 (fuel + 1) value).length ≤ readerFuel →
    value < 0x80 ^ (fuel + 1) → value * 2 ^ shift < 2 ^ bits → (shift = 0 ∨ 0 < value) →
    ReadsBack (readLEB128From bits readerFuel shift) (leb128 (fuel + 1) value) value
  | fuel, value, shift, readerFuel, long, enough, fits, canonical => by
      by_cases more : value ≥ 0x80
      · cases fuel with
        | zero => simp at enough; omega
        | succ fuel =>
        rw [leb128, if_pos more, List.length_cons] at long
        obtain ⟨readerFuel, rfl⟩ : ∃ r, readerFuel = r + 1 := ⟨readerFuel - 1, by omega⟩
        have highEnough : value / 0x80 < 0x80 ^ (fuel + 1) := by
          rw [Nat.div_lt_iff_lt_mul (by decide)]
          simpa [Nat.pow_succ] using enough
        have highFits : value / 0x80 * 2 ^ (shift + 7) < 2 ^ bits := by
          calc value / 0x80 * 2 ^ (shift + 7) = value / 0x80 * 0x80 * 2 ^ shift := by
                rw [Nat.pow_add, Nat.mul_comm (2 ^ shift), ← Nat.mul_assoc]
            _ ≤ value * 2 ^ shift := Nat.mul_le_mul_right _ (Nat.div_mul_le_self value 0x80)
            _ < 2 ^ bits := fits
        have rest := @readsBack_leb128From bits fuel (value / 0x80) (shift + 7) readerFuel
          (by omega) highEnough highFits (Or.inr (Nat.div_pos more (by decide)))
        have byteIs : (UInt8.ofNat (value % 0x80 + 0x80)).toNat = value % 0x80 + 0x80 := by
          simp
          omega
        have notLast : ¬ (shift + 7 ≥ bits ∧
            (UInt8.ofNat (value % 0x80 + 0x80)).toNat ≥ 2 ^ (bits - shift)) := by
          rintro ⟨last, -⟩
          have := lt_128_of_mul_pow_lt fits last
          omega
        have nonzero : ¬ (UInt8.ofNat (value % 0x80 + 0x80) = 0 ∧ shift ≠ 0) := by
          rintro ⟨zero, -⟩
          rw [zero] at byteIs
          simp at byteIs
        have reads : ReadsBack (readLEB128From bits (readerFuel + 1) shift)
            ([UInt8.ofNat (value % 0x80 + 0x80)] ++ (leb128 (fuel + 1) (value / 0x80) ++ []))
            ((UInt8.ofNat (value % 0x80 + 0x80)).toNat - 0x80 + 0x80 * (value / 0x80)) := by
          apply ReadsBack.bind (readsBack_readByte _)
          rw [if_neg notLast, if_neg nonzero, if_neg (by omega)]
          exact rest.bind (ReadsBack.pure _)
        rw [byteIs, List.append_nil, show value % 0x80 + 0x80 - 0x80 + 0x80 * (value / 0x80) = value
          by omega] at reads
        rw [leb128, if_pos more]
        exact reads
      · rw [leb128, if_neg more, List.length_singleton] at long
        obtain ⟨readerFuel, rfl⟩ : ∃ r, readerFuel = r + 1 := ⟨readerFuel - 1, by omega⟩
        have byteIs : (UInt8.ofNat value).toNat = value := by
          simp
          omega
        have notOver : ¬ (shift + 7 ≥ bits ∧ (UInt8.ofNat value).toNat ≥ 2 ^ (bits - shift)) := by
          rintro ⟨-, tooBig⟩
          have := lt_pow_sub_of_mul_pow_lt fits
          omega
        have nonzero : ¬ (UInt8.ofNat value = 0 ∧ shift ≠ 0) := by
          rintro ⟨zero, shifted⟩
          rw [zero] at byteIs
          rcases canonical with unshifted | positive
          · exact shifted unshifted
          · simp at byteIs
            omega
        have reads : ReadsBack (readLEB128From bits (readerFuel + 1) shift)
            ([UInt8.ofNat value] ++ []) (UInt8.ofNat value).toNat := by
          apply ReadsBack.bind (readsBack_readByte _)
          rw [if_neg notOver, if_neg nonzero, if_pos (by omega)]
          exact ReadsBack.pure _
        rw [byteIs, List.append_nil] at reads
        rw [leb128, if_neg more]
        exact reads

theorem readsBack_leb128 {bits fuel value : Nat} (fits : value < 2 ^ bits)
    (enough : value < 0x80 ^ (fuel + 1)) : ReadsBack (readLEB128 bits) (leb128 (fuel + 1) value) value := by
  intro rest
  exact @readsBack_leb128From bits fuel value 0 (leb128 (fuel + 1) value ++ rest).length
    (by simp) enough (by simpa using fits) (Or.inl rfl) rest


/-! ## Varints, most significant group first -/

/--
Seven bits a byte, most significant group first, the high bit set on every
byte but the last.  One is taken off the value above each group, so that
each number has exactly one encoding; `high` marks a group written
before the last.
-/
def msbVarintGroups (high : Bool) (value : Nat) : List UInt8 :=
  let byte := UInt8.ofNat (value % 0x80 + if high then 0x80 else 0)
  if value ≤ 0x7f then [byte]
  else msbVarintGroups true (value / 0x80 - 1) ++ [byte]
termination_by value
decreasing_by omega

/-- The most-significant-first varint of `value`. -/
def msbVarint (value : Nat) : List UInt8 :=
  msbVarintGroups false value

/--
The loop of the most-significant-first reader into a type whose largest
value is `max`: before each group it refuses an accumulator the shift
would carry past `max`, and before counting a continuation group it
refuses `max` itself.
-/
def readMsbVarintFrom (max : Nat) : Nat → Nat → Reader Nat
  | 0, _ => failure
  | fuel + 1, n => do
      let chData ← readByte
      if n > max / 0x80 then failure
      else
        let n := n * 0x80 + chData.toNat % 0x80
        if chData.toNat ≥ 0x80 then
          if n = max then failure else readMsbVarintFrom max fuel (n + 1)
        else Pure.pure n

/-- A most-significant-first varint of at most `max`; the input's length is fuel enough. -/
def readMsbVarint (max : Nat) : Reader Nat := fun input =>
  (readMsbVarintFrom max input.length 0).run input

theorem length_msbVarintGroups_pos (high : Bool) (value : Nat) :
    0 < (msbVarintGroups high value).length := by
  rw [msbVarintGroups]
  split <;> simp

theorem readMsbVarintFrom_continue {max n fuel digit : Nat} (rest : List UInt8) (small : digit < 0x80)
    (room : n ≤ max / 0x80) (belowMax : n * 0x80 + digit < max) :
    (readMsbVarintFrom max (fuel + 1) n).run (UInt8.ofNat (digit + 0x80) :: rest) =
      (readMsbVarintFrom max fuel (n * 0x80 + digit + 1)).run rest := by
  have byteIs : (UInt8.ofNat (digit + 0x80)).toNat = digit + 0x80 := by
    simp
    omega
  rw [readMsbVarintFrom, run_bind_of_run (run_readByte _ rest), if_neg (by omega), byteIs,
    if_pos (by omega), show (digit + 0x80) % 0x80 = digit by omega, if_neg (by omega)]

theorem readMsbVarintFrom_last {max n fuel digit : Nat} (rest : List UInt8) (small : digit < 0x80)
    (room : n ≤ max / 0x80) :
    (readMsbVarintFrom max (fuel + 1) n).run (UInt8.ofNat digit :: rest) =
      some (n * 0x80 + digit, rest) := by
  have byteIs : (UInt8.ofNat digit).toNat = digit := by
    simp
    omega
  rw [readMsbVarintFrom, run_bind_of_run (run_readByte _ rest), if_neg (by omega), byteIs,
    if_neg (by omega), Nat.mod_eq_of_lt small]
  rfl

/-- Reading the groups before the last moves the accumulator `n` to `n * 128 ^ length + value + 1`. -/
theorem readMsbVarintFrom_groups {max : Nat} (value : Nat) : ∀ (n fuel : Nat) (rest : List UInt8),
    n * 0x80 ^ (msbVarintGroups true value).length + value + 1 ≤ max / 0x80 →
    (readMsbVarintFrom max (fuel + (msbVarintGroups true value).length) n).run
        (msbVarintGroups true value ++ rest) =
      (readMsbVarintFrom max fuel (n * 0x80 ^ (msbVarintGroups true value).length + value + 1)).run
        rest := by
  induction value using Nat.strongRecOn with
  | ind value ih =>
  intro n fuel rest bounded
  have maxBound : max / 0x80 ≤ max := Nat.div_le_self max 0x80
  by_cases small : value ≤ 0x7f
  · have single : msbVarintGroups true value = [UInt8.ofNat (value % 0x80 + 0x80)] := by
      rw [msbVarintGroups, if_pos small]
      rfl
    rw [single] at bounded ⊢
    simp only [List.length_singleton, Nat.pow_one, List.singleton_append] at bounded ⊢
    rw [Nat.mod_eq_of_lt (by omega)]
    exact readMsbVarintFrom_continue rest (by omega) (by omega) (by omega)
  · have split : msbVarintGroups true value =
        msbVarintGroups true (value / 0x80 - 1) ++ [UInt8.ofNat (value % 0x80 + 0x80)] := by
      rw [msbVarintGroups, if_neg small]
      rfl
    have earlier := length_msbVarintGroups_pos true (value / 0x80 - 1)
    rw [split] at bounded ⊢
    simp only [List.length_append, List.length_singleton, Nat.pow_succ, List.append_assoc,
      List.singleton_append] at bounded ⊢
    have highBound : n * 0x80 ^ (msbVarintGroups true (value / 0x80 - 1)).length +
        (value / 0x80 - 1) + 1 ≤ max / 0x80 := by
      have : n * 0x80 ^ (msbVarintGroups true (value / 0x80 - 1)).length ≤
          n * (0x80 ^ (msbVarintGroups true (value / 0x80 - 1)).length * 0x80) := by
        rw [← Nat.mul_assoc]
        exact Nat.le_mul_of_pos_right _ (by decide)
      omega
    rw [show fuel + ((msbVarintGroups true (value / 0x80 - 1)).length + 1) =
        (fuel + 1) + (msbVarintGroups true (value / 0x80 - 1)).length by omega,
      ih (value / 0x80 - 1) (by omega) n (fuel + 1) _ highBound]
    generalize (msbVarintGroups true (value / 0x80 - 1)).length = length at highBound bounded ⊢
    rw [← Nat.mul_assoc] at bounded ⊢
    generalize n * 0x80 ^ length = q at highBound bounded ⊢
    rw [readMsbVarintFrom_continue rest (by omega) (by omega) (by omega),
      show (q + (value / 0x80 - 1) + 1) * 0x80 + value % 0x80 + 1 = q * 0x80 + value + 1 by omega]

theorem msbVarint_of_le {value : Nat} (small : value ≤ 0x7f) :
    msbVarint value = [UInt8.ofNat value] := by
  rw [msbVarint, msbVarintGroups, if_pos small]
  simp [Nat.mod_eq_of_lt (show value < 0x80 by omega)]

theorem readsBack_msbVarint {max value : Nat} (fits : value ≤ max) :
    ReadsBack (readMsbVarint max) (msbVarint value) value := by
  intro rest
  have maxBound : max / 0x80 ≤ max := Nat.div_le_self max 0x80
  show (readMsbVarintFrom max (msbVarint value ++ rest).length 0).run (msbVarint value ++ rest) = _
  by_cases small : value ≤ 0x7f
  · rw [msbVarint_of_le small, List.singleton_append, List.length_cons,
      readMsbVarintFrom_last rest (by omega) (Nat.zero_le _)]
    simp
  · have split : msbVarint value =
        msbVarintGroups true (value / 0x80 - 1) ++ [UInt8.ofNat (value % 0x80)] := by
      rw [msbVarint, msbVarintGroups, if_neg small]
      simp
    have upper : value / 0x80 ≤ max / 0x80 := Nat.div_le_div_right fits
    have groupsRead := @readMsbVarintFrom_groups max (value / 0x80 - 1) 0 (rest.length + 1)
      (UInt8.ofNat (value % 0x80) :: rest) (by simp; omega)
    rw [Nat.zero_mul, Nat.zero_add, Nat.sub_add_cancel (by omega)] at groupsRead
    rw [split, List.append_assoc, List.singleton_append, List.length_append, List.length_cons,
      show (msbVarintGroups true (value / 0x80 - 1)).length + (rest.length + 1) =
        rest.length + 1 + (msbVarintGroups true (value / 0x80 - 1)).length by omega,
      groupsRead, readMsbVarintFrom_last rest (Nat.mod_lt _ (by decide)) upper,
      Nat.div_add_mod']

end Bytes
