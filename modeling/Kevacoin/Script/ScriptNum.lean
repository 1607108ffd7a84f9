import Kevacoin.Script.Interpreter
import Kevacoin.Data.Bytes

/-!
# Script numbers: minimal encoding and decoding

`CScriptNum::serialize` (`script/script.h`) writes the magnitude of a number
little-endian and puts the sign in the top bit of the last byte, adding a
byte `0x00` or `0x80` when that bit is taken by the magnitude.  The
constructor `CScriptNum(vch, true, nMaxNumSize)` refuses encodings longer
than `nMaxNumSize` and those whose last byte carries nothing but the sign
without being needed for it.

The magnitude `serialize` writes is the base-256 digit list of the number
(`magnitudeBytes_eq_digitBytes`), and `set_vch` reads the last byte as a
sign bit over a digit (`set_vch_append`).  Both directions of the round trip
go through `serialize_of_magnitude`, the shape of `serialize` once the
magnitude's last byte is known:
- `set_vch_serialize`: every number of at most eight bytes of magnitude
  decodes back from its encoding, which the minimality test accepts;
- `serialize_set_vch`: an encoding of at most eight bytes that the test
  accepts is the encoding of the number it decodes to.
-/

namespace Kevacoin

namespace CScriptNum

open Bytes

theorem leValue_eq (bytes : valtype) : leValue bytes = Bytes.leValue bytes := by
  induction bytes with
  | nil => rfl
  | cons byte rest ih => rw [leValue, Bytes.leValue, ih]

/-- The `while (absvalue)` loop writes the base-256 digits of the magnitude. -/
theorem magnitudeBytes_eq_digitBytes :
    ∀ {fuel value : Nat}, value < 256 ^ fuel → magnitudeBytes fuel value = digitBytes value
  | 0, value, fits => by
      have zero : value = 0 := by simpa using fits
      rw [zero, digitBytes_zero]
      rfl
  | fuel + 1, value, fits => by
      unfold magnitudeBytes
      split
      · case isTrue zero =>
          rw [zero, digitBytes_zero]
      · case isFalse nonzero =>
          have high : value / 256 < 256 ^ fuel := by
            rw [Nat.div_lt_iff_lt_mul (by decide)]
            simpa [Nat.pow_succ] using fits
          rw [digitBytes_of_pos (Nat.pos_of_ne_zero nonzero), magnitudeBytes_eq_digitBytes high]

/-- Bytes of at most eight whose last byte is not zero are the magnitude `serialize` writes for their value. -/
theorem magnitudeBytes_leValue {init : valtype} {last : UInt8} (top : last ≠ 0)
    (short : (init ++ [last]).length ≤ 8) :
    magnitudeBytes 8 (Bytes.leValue (init ++ [last])) = init ++ [last] := by
  have fits : Bytes.leValue (init ++ [last]) < 256 ^ 8 :=
    Nat.lt_of_lt_of_le (leValue_lt _) (Nat.pow_le_pow_right (by decide) short)
  rw [magnitudeBytes_eq_digitBytes fits, digitBytes_leValue top]

/-- `set_vch` reads the top bit of the last byte as the sign and the rest as a digit. -/
theorem set_vch_append (init : valtype) (last : UInt8) :
    set_vch (init ++ [last]) =
      if 0x80 ≤ last.toNat then
        -((Bytes.leValue init + 256 ^ init.length * (last.toNat - 0x80) : Nat) : Int)
      else ((Bytes.leValue init + 256 ^ init.length * last.toNat : Nat) : Int) := by
  unfold set_vch
  rw [List.getLast?_concat]
  dsimp only
  rw [and_topBit_ne_zero, leValue_eq, leValue_append_singleton,
    List.length_append, List.length_singleton, Nat.add_sub_cancel]
  by_cases top : 0x80 ≤ last.toNat
  · rw [decide_eq_true top, if_pos rfl, if_pos top, Nat.mul_sub, Nat.mul_comm 0x80,
      Nat.add_sub_assoc (Nat.mul_le_mul_left _ top)]
  · rw [decide_eq_false top, if_neg Bool.false_ne_true, if_neg top]

/--
The minimality test accepts bytes ending in `last` exactly when `last` holds
more than the sign, or the byte before it has its top bit set.
-/
theorem isMinimal_append_iff (init : valtype) (last : UInt8) :
    isMinimal (init ++ [last]) = true ↔
      last.toNat % 0x80 ≠ 0 ∨ ∃ front top, init = front ++ [top] ∧ 0x80 ≤ top.toNat := by
  unfold isMinimal
  have low : (last &&& 0x7f != 0) = decide (last.toNat % 0x80 ≠ 0) := by
    rw [Bool.eq_iff_iff, bne_iff_ne, ne_eq, ← UInt8.toNat_inj, toNat_and_lowBits,
      decide_eq_true_iff]
    rfl
  rw [List.getLast?_concat]
  dsimp only
  rw [low, Bool.or_eq_true, decide_eq_true_iff]
  apply or_congr_right
  rcases List.eq_nil_or_concat init with empty | ⟨front, top, split⟩
  · subst empty
    simp
  · rw [List.concat_eq_append] at split
    subst split
    have position : (front ++ [top] ++ [last]).length - 2 = front.length := by
      simp
    rw [position, List.getD_eq_getElem?_getD, List.append_assoc, List.getElem?_append_right
      (Nat.le_refl _), Nat.sub_self, List.singleton_append, List.getElem?_cons_zero,
      Option.getD_some, and_topBit_ne_zero]
    constructor
    · intro accepted
      refine ⟨front, top, rfl, ?_⟩
      simpa using accepted
    · rintro ⟨front', top', same, bit⟩
      obtain ⟨_, sameTop⟩ := List.append_inj' same rfl
      rw [List.singleton_inj.mp sameTop]
      simp [bit]

/--
`serialize` of a number whose magnitude ends in the byte `high`: the sign
goes into a byte of its own when `high` has its top bit set, and into `high`
otherwise.
-/
theorem serialize_of_magnitude {value : Int} {init : valtype} {high : UInt8}
    (nonzero : value ≠ 0) (magnitude : magnitudeBytes 8 value.natAbs = init ++ [high]) :
    serialize value =
      if 0x80 ≤ high.toNat then init ++ [high] ++ [if value < 0 then 0x80 else 0]
      else if value < 0 then init ++ [high ||| 0x80]
      else init ++ [high] := by
  unfold serialize
  rw [if_neg nonzero]
  dsimp only
  rw [magnitude, List.getLast?_concat]
  dsimp only
  rw [and_topBit_ne_zero]
  by_cases top : 0x80 ≤ high.toNat
  · rw [decide_eq_true top, if_pos rfl, if_pos top]
    by_cases negative : value < 0 <;> simp [negative]
  · rw [decide_eq_false top, if_neg Bool.false_ne_true, if_neg top, List.dropLast_concat]
    by_cases negative : value < 0 <;> simp [negative]

/--
A number whose magnitude fits eight bytes decodes back from its encoding,
and the minimality test accepts the encoding.
-/
theorem set_vch_serialize {value : Int} (fits : value.natAbs < 256 ^ 8) :
    set_vch (serialize value) = value ∧ isMinimal (serialize value) = true := by
  by_cases zero : value = 0
  · subst zero
    exact ⟨rfl, rfl⟩
  have positive : 0 < value.natAbs := Int.natAbs_pos.mpr zero
  obtain ⟨init, high, digits, top⟩ := digitBytes_eq_append positive
  have magnitude : magnitudeBytes 8 value.natAbs = init ++ [high] := by
    rw [magnitudeBytes_eq_digitBytes fits, digits]
  have read : Bytes.leValue init + 256 ^ init.length * high.toNat = value.natAbs := by
    rw [← leValue_append_singleton, ← digits, leValue_digitBytes]
  have highPos : 0 < high.toNat := Nat.pos_of_ne_zero fun zero => top (UInt8.toNat_inj.mp zero)
  rw [serialize_of_magnitude zero magnitude]
  by_cases bit : 0x80 ≤ high.toNat
  · rw [if_pos bit]
    have accepted : isMinimal (init ++ [high] ++ [if value < 0 then 0x80 else 0]) = true :=
      (isMinimal_append_iff _ _).mpr (.inr ⟨init, high, rfl, bit⟩)
    refine ⟨?_, accepted⟩
    rw [set_vch_append, List.length_append, List.length_singleton, leValue_append_singleton, read]
    by_cases negative : value < 0
    · simp only [negative, if_true, show (0x80 : UInt8).toNat = 0x80 from rfl, Nat.le_refl,
        Nat.sub_self, Nat.mul_zero, Nat.add_zero]
      omega
    · simp only [negative, if_false, show (0 : UInt8).toNat = 0 from rfl, Nat.mul_zero,
        Nat.add_zero]
      rw [if_neg (by decide)]
      omega
  · rw [if_neg bit]
    have low : high.toNat < 0x80 := by omega
    by_cases negative : value < 0
    · rw [if_pos negative]
      have signed : (high ||| 0x80).toNat = high.toNat + 0x80 := toNat_or_topBit low
      refine ⟨?_, (isMinimal_append_iff _ _).mpr (.inl ?_)⟩
      · rw [set_vch_append, signed, if_pos (by omega), Nat.add_sub_cancel, read]
        omega
      · rw [signed, Nat.add_mod_right, Nat.mod_eq_of_lt low]
        omega
    · rw [if_neg negative]
      refine ⟨?_, (isMinimal_append_iff _ _).mpr (.inl ?_)⟩
      · rw [set_vch_append, if_neg bit, read]
        omega
      · rw [Nat.mod_eq_of_lt low]
        omega

/--
`serialize` of a signed number whose magnitude has the bytes `init ++ [high]`,
with `high` not zero.
-/
theorem serialize_signed {init : valtype} {high : UInt8} (top : high ≠ 0)
    (short : (init ++ [high]).length ≤ 8) (negative : Bool) :
    serialize (if negative then -(Bytes.leValue (init ++ [high]) : Int)
      else (Bytes.leValue (init ++ [high]) : Int)) =
      if 0x80 ≤ high.toNat then init ++ [high] ++ [if negative then 0x80 else 0]
      else if negative then init ++ [high ||| 0x80]
      else init ++ [high] := by
  have positive : 0 < Bytes.leValue (init ++ [high]) := by
    have highPos : 0 < high.toNat := Nat.pos_of_ne_zero fun zero => top (UInt8.toNat_inj.mp zero)
    have weight : 0 < 256 ^ init.length := Nat.pow_pos (by decide)
    rw [leValue_append_singleton]
    exact Nat.add_pos_right _ (Nat.mul_pos weight highPos)
  cases negative with
  | true =>
      have magnitude : magnitudeBytes 8 (-(Bytes.leValue (init ++ [high]) : Int)).natAbs =
          init ++ [high] := by
        rw [Int.natAbs_neg, Int.natAbs_natCast]
        exact magnitudeBytes_leValue top short
      rw [if_pos rfl, serialize_of_magnitude (by omega) magnitude]
      simp only [show -(Bytes.leValue (init ++ [high]) : Int) < 0 by omega, if_true]
  | false =>
      have magnitude : magnitudeBytes 8 (Bytes.leValue (init ++ [high]) : Int).natAbs =
          init ++ [high] := by
        rw [Int.natAbs_natCast]
        exact magnitudeBytes_leValue top short
      rw [if_neg Bool.false_ne_true, serialize_of_magnitude (by omega) magnitude]
      simp only [show ¬ (Bytes.leValue (init ++ [high]) : Int) < 0 by omega, if_false,
        Bool.false_eq_true]

/--
An encoding of at most eight bytes that the minimality test accepts is the
encoding of the number it decodes to.
-/
theorem serialize_set_vch {vch : valtype} (short : vch.length ≤ 8)
    (minimal : isMinimal vch = true) : serialize (set_vch vch) = vch := by
  rcases List.eq_nil_or_concat vch with empty | ⟨init, last, split⟩
  · subst empty
    rfl
  rw [List.concat_eq_append] at split
  subst split
  have accepted := (isMinimal_append_iff init last).mp minimal
  rw [set_vch_append]
  by_cases sign : 0x80 ≤ last.toNat
  · rw [if_pos sign]
    by_cases onlySign : last.toNat = 0x80
    · obtain ⟨front, top, rfl, bit⟩ := accepted.resolve_left (by omega)
      have isSign : last = 0x80 := UInt8.toNat_inj.mp onlySign
      rw [onlySign, Nat.sub_self, Nat.mul_zero, Nat.add_zero]
      have encoded := @serialize_signed front top
        (fun zero => by rw [zero] at bit; exact absurd bit (by decide)) (by simp at short ⊢; omega)
        true
      rw [if_pos rfl, if_pos bit, if_pos rfl] at encoded
      rw [encoded, isSign]
    · have below : last.toNat < 256 := last.toNat_lt
      have digit : (UInt8.ofNat (last.toNat - 0x80)).toNat = last.toNat - 0x80 :=
        UInt8.toNat_ofNat_of_lt' (by simp only [UInt8.size]; omega)
      have digitPos : UInt8.ofNat (last.toNat - 0x80) ≠ 0 := by
        intro zero
        have read := congrArg UInt8.toNat zero
        rw [digit] at read
        exact onlySign (by simp at read; omega)
      have encoded := @serialize_signed init _ digitPos (by simpa using short) true
      have signed : UInt8.ofNat (last.toNat - 0x80) ||| 0x80 = last := by
        apply UInt8.toNat_inj.mp
        rw [toNat_or_topBit (by omega), digit]
        omega
      rw [if_pos rfl, leValue_append_singleton, digit, if_neg (by omega), if_pos rfl,
        signed] at encoded
      exact encoded
  · rw [if_neg sign]
    by_cases zero : last = 0
    · obtain ⟨front, top, rfl, bit⟩ := accepted.resolve_left (by rw [zero]; decide)
      rw [zero, show (0 : UInt8).toNat = 0 from rfl, Nat.mul_zero, Nat.add_zero]
      have encoded := @serialize_signed front top
        (fun zero => by rw [zero] at bit; exact absurd bit (by decide)) (by simp at short ⊢; omega)
        false
      rw [if_neg Bool.false_ne_true, if_pos bit, if_neg Bool.false_ne_true] at encoded
      rw [encoded]
    · have encoded := @serialize_signed init last zero short false
      rw [if_neg Bool.false_ne_true, leValue_append_singleton, if_neg sign,
        if_neg Bool.false_ne_true] at encoded
      exact encoded

/--
For a size limit of at most eight bytes, the minimal decoder and `serialize`
are inverse: a number whose encoding fits the limit decodes back from it, and
every encoding the decoder accepts is `serialize` of the number it yields.
-/
theorem scriptNum_minimal_roundtrip (nMaxNumSize : Nat) (bounded : nMaxNumSize ≤ 8) :
    (∀ value : Int, value.natAbs < 2 ^ 63 → (serialize value).length ≤ nMaxNumSize →
      ofBytes (serialize value) true nMaxNumSize = some value) ∧
    (∀ (vch : valtype) (value : Int), ofBytes vch true nMaxNumSize = some value →
      serialize value = vch) := by
  constructor
  · intro value small fits
    have within : value.natAbs < 256 ^ 8 := Nat.lt_trans small (by decide)
    obtain ⟨decodes, accepted⟩ := set_vch_serialize within
    unfold ofBytes
    rw [if_neg (by omega), accepted, decodes]
    rfl
  · intro vch value decoded
    unfold ofBytes at decoded
    split at decoded
    · cases decoded
    · case isFalse fits =>
        split at decoded
        · cases decoded
        · case isFalse minimal =>
            cases decoded
            exact serialize_set_vch (by omega) (by simpa using minimal)

/-- At the interpreter's default limit of four bytes. -/
theorem scriptNum_minimal_roundtrip_default :
    nDefaultMaxNumSize ≤ 8 ∧
      (∀ value : Int, value.natAbs < 2 ^ 63 → (serialize value).length ≤ nDefaultMaxNumSize →
        ofBytes (serialize value) true nDefaultMaxNumSize = some value) ∧
      (∀ (vch : valtype) (value : Int), ofBytes vch true nDefaultMaxNumSize = some value →
        serialize value = vch) :=
  ⟨by decide, scriptNum_minimal_roundtrip nDefaultMaxNumSize (by decide)⟩

end CScriptNum

end Kevacoin
