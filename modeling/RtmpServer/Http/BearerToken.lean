import Mathlib.Data.Nat.Bitwise
import RtmpServer.Cluster.AdminProofs

/-!
# The bearer token of a request

`ct_str_eq` of `rate_limit.rs` compares two strings without an early exit. The bytes past the end of
the shorter one count as zeros, and the difference of the lengths is cut to eight bits.
-/

namespace RtmpServer

open List

def utf8 (s : String) : List UInt8 := s.toByteArray.data.toList

theorem utf8_inj {a b : String} : utf8 a = utf8 b ↔ a = b := by
  rw [utf8, utf8, Array.toList_inj, ← ByteArray.ext_iff, String.toByteArray_inj]

def ctStrEq (a b : String) : Bool :=
  let x := utf8 a
  let y := utf8 b
  let diff := UInt8.ofNat (x.length ^^^ y.length)
  (List.range (max x.length y.length)).foldl
    (fun diff i => diff ||| (x.getD i 0 ^^^ y.getD i 0)) diff == 0

/-- The second string is the first with NUL bytes behind it, a positive multiple of 256. -/
def NulPadded (a b : String) : Prop :=
  ∃ n, 0 < n ∧ utf8 b = utf8 a ++ List.replicate (256 * n) 0

theorem ofNat_xor_eq_zero (m n : Nat) : UInt8.ofNat (m ^^^ n) = 0 ↔ m % 256 = n % 256 := by
  rw [← UInt8.toNat_inj, UInt8.toNat_ofNat', show 2 ^ 8 = 256 from rfl]
  have hxor := @Nat.xor_mod_two_pow m n 8
  rw [show 2 ^ 8 = 256 from rfl] at hxor
  rw [hxor]
  exact Nat.xor_eq_zero_iff

theorem eq_pad_of_getD {x y : List UInt8} (hle : x.length ≤ y.length)
    (h : ∀ i < y.length, x.getD i 0 = y.getD i 0) :
    y = x ++ List.replicate (y.length - x.length) 0 := by
  refine ext_getElem (by simp; omega) fun i hi _ => ?_
  have hget := h i hi
  rw [getD_eq_getElem _ _ hi] at hget
  rw [← hget, getElem_append]
  split_ifs with hx
  · rw [getD_eq_getElem _ _ hx]
  · rw [getD_eq_default _ _ (Nat.le_of_not_lt hx), getElem_replicate]

theorem ctStrEq_iff (a b : String) :
    ctStrEq a b ↔ a = b ∨ NulPadded a b ∨ NulPadded b a := by
  have hbytes : ctStrEq a b = true ↔ (utf8 a).length % 256 = (utf8 b).length % 256 ∧
      ∀ i < max (utf8 a).length (utf8 b).length, (utf8 a).getD i 0 = (utf8 b).getD i 0 := by
    simp only [ctStrEq, beq_iff_eq, foldl_or_eq_zero, ofNat_xor_eq_zero, mem_range,
      UInt8.xor_eq_zero_iff]
  have hpad : ∀ x y : List UInt8, x.length ≤ y.length → x.length % 256 = y.length % 256 →
      (∀ i < y.length, x.getD i 0 = y.getD i 0) →
      x = y ∨ ∃ n, 0 < n ∧ y = x ++ replicate (256 * n) 0 := by
    intro x y hle hmod hget
    have hy := eq_pad_of_getD hle hget
    obtain ⟨n, hn⟩ : ∃ n, y.length - x.length = 256 * n := ⟨(y.length - x.length) / 256, by omega⟩
    rw [hn] at hy
    rcases Nat.eq_zero_or_pos n with rfl | hpos
    · exact .inl (by simpa using hy.symm)
    · exact .inr ⟨n, hpos, hy⟩
  have hback : ∀ x y : List UInt8, (∃ n, 0 < n ∧ y = x ++ replicate (256 * n) 0) →
      x.length % 256 = y.length % 256 ∧ ∀ i, x.getD i 0 = y.getD i 0 := by
    rintro x _ ⟨n, -, rfl⟩
    refine ⟨by simp, fun i => ?_⟩
    rcases Nat.lt_or_ge i x.length with hi | hi
    · rw [getD_append _ _ _ _ hi]
    · rw [getD_append_right _ _ _ _ hi, getD_eq_default _ _ hi]
      simp
  rw [hbytes, ← utf8_inj, NulPadded, NulPadded]
  constructor
  · rintro ⟨hmod, hget⟩
    rcases Nat.le_total (utf8 a).length (utf8 b).length with hle | hle
    · rw [max_eq_right hle] at hget
      exact (hpad _ _ hle hmod hget).imp_right .inl
    · rw [max_eq_left hle] at hget
      exact (hpad _ _ hle hmod.symm fun i hi => (hget i hi).symm).imp Eq.symm .inr
  · rintro (heq | hab | hba)
    · simp [heq]
    · exact ⟨(hback _ _ hab).1, fun i _ => (hback _ _ hab).2 i⟩
    · exact ⟨(hback _ _ hba).1.symm, fun i _ => ((hback _ _ hba).2 i).symm⟩

/-- **The comparison is equality** on exactly the pairs of which neither is the other with a
positive multiple of 256 NUL bytes behind it. -/
theorem ct_str_eq_iff_eq (a b : String) :
    (ctStrEq a b = true ↔ a = b) ↔ ¬ NulPadded a b ∧ ¬ NulPadded b a := by
  have hne : ∀ {a b}, NulPadded a b → a ≠ b := by
    rintro a _ ⟨n, hn, hpad⟩ rfl
    have := congrArg length hpad
    simp at this
    omega
  rw [ctStrEq_iff, or_iff_left_iff_imp]
  constructor
  · exact fun h => ⟨fun hab => hne hab (h (.inl hab)), fun hba => hne hba (h (.inr hba)).symm⟩
  · exact fun h hpad => absurd hpad (not_or.2 h)

/-- 256 NUL bytes pass for the empty string. -/
theorem ct_str_eq_of_nuls :
    ctStrEq "" (String.ofList (List.replicate 256 '\x00')) = true ∧
      "" ≠ String.ofList (List.replicate 256 '\x00') := by
  decide +kernel

end RtmpServer
