import Mathlib.Data.List.TakeDrop
import Mathlib.Data.List.Basic
import Mathlib.Tactic.Ring

/-!
# Records of big-endian integers

`toBytes w n` is the `w`-byte big-endian form of `n` and `ofBytes` the number that bytes spell. A
record is a list of fields, a width and a value each; `pack` writes them one after the other and
`field h start len` reads one back by its place (`field_pack`, `pack_unpack`).
-/

namespace Lib.BigEndian

open List Nat

def toBytes (w n : Nat) : List UInt8 :=
  (range w).map fun i => UInt8.ofNat (n / 256 ^ (w - 1 - i))

def ofBytes (bytes : List UInt8) : Nat := bytes.foldl (fun n b => 256 * n + b.toNat) 0

@[simp] theorem length_toBytes (w n : Nat) : (toBytes w n).length = w := by
  simp [toBytes]

theorem toBytes_succ (w n : Nat) : toBytes (w + 1) n = UInt8.ofNat (n / 256 ^ w) :: toBytes w n := by
  rw [toBytes, range_succ_eq_map, map_cons, map_map, toBytes]
  refine congrArg₂ _ (by simp) (map_congr_left fun i _ => ?_)
  have hexp : w + 1 - 1 - (i + 1) = w - 1 - i := by omega
  show UInt8.ofNat (n / 256 ^ (w + 1 - 1 - (i + 1))) = _
  rw [hexp]

@[simp] theorem toBytes_one (b : UInt8) : toBytes 1 b.toNat = [b] := by
  rw [toBytes_succ]
  simp [toBytes]

theorem ofBytes_cons (b : UInt8) (l : List UInt8) :
    ofBytes (b :: l) = b.toNat * 256 ^ l.length + ofBytes l := by
  suffices h : ∀ (l : List UInt8) (n : Nat),
      l.foldl (fun n b => 256 * n + b.toNat) n = n * 256 ^ l.length + ofBytes l by
    rw [ofBytes, foldl_cons, h]
    simp
  intro l
  induction l with
  | nil => intro n; simp [ofBytes]
  | cons b l ih =>
    intro n
    have hcons : ofBytes (b :: l) = b.toNat * 256 ^ l.length + ofBytes l := by
      show l.foldl (fun n b => 256 * n + b.toNat) (256 * 0 + b.toNat) = _
      rw [ih, mul_zero, zero_add]
    rw [foldl_cons, ih, hcons, length_cons]
    ring

theorem ofBytes_lt (l : List UInt8) : ofBytes l < 256 ^ l.length := by
  induction l with
  | nil => decide
  | cons b l ih =>
    have hb : b.toNat < 256 := b.toNat_lt
    rw [ofBytes_cons, length_cons, pow_succ]
    calc b.toNat * 256 ^ l.length + ofBytes l < b.toNat * 256 ^ l.length + 256 ^ l.length := by omega
      _ = (b.toNat + 1) * 256 ^ l.length := by ring
      _ ≤ 256 * 256 ^ l.length := mul_le_mul_right _ hb
      _ = 256 ^ l.length * 256 := mul_comm _ _

theorem ofBytes_toBytes (w n : Nat) : ofBytes (toBytes w n) = n % 256 ^ w := by
  induction w with
  | zero => simp [toBytes, ofBytes, mod_one]
  | succ w ih =>
    rw [toBytes_succ, ofBytes_cons, length_toBytes, ih, mod_pow_succ]
    have hbyte : (UInt8.ofNat (n / 256 ^ w)).toNat = n / 256 ^ w % 256 := UInt8.toNat_ofNat'
    rw [hbyte, mul_comm, add_comm]

theorem toBytes_add_mul (w n k : Nat) : toBytes w (n + k * 256 ^ w) = toBytes w n := by
  induction w generalizing k with
  | zero => rfl
  | succ w ih =>
    have hhigh : k * 256 ^ (w + 1) = (k * 256) * 256 ^ w := by ring
    have hpos : 0 < 256 ^ w := Nat.pow_pos (by decide)
    rw [toBytes_succ, toBytes_succ, hhigh, ih, Nat.add_mul_div_right _ _ hpos]
    congr 1
    apply UInt8.toNat.inj
    rw [UInt8.toNat_ofNat', UInt8.toNat_ofNat', Nat.add_mul_mod_self_right]

theorem toBytes_ofBytes (l : List UInt8) : toBytes l.length (ofBytes l) = l := by
  induction l with
  | nil => rfl
  | cons b l ih =>
    have hpos : 0 < 256 ^ l.length := Nat.pow_pos (by decide)
    have hlt := ofBytes_lt l
    rw [List.length_cons, toBytes_succ, ofBytes_cons, Nat.add_comm (b.toNat * _), toBytes_add_mul, ih,
      Nat.add_mul_div_right _ _ hpos, Nat.div_eq_of_lt hlt, Nat.zero_add, UInt8.ofNat_toNat]

/-! ### Records -/

def pack (fields : List (Nat × Nat)) : List UInt8 := fields.flatMap fun f => toBytes f.1 f.2

def width (fields : List (Nat × Nat)) : Nat := (fields.map Prod.fst).sum

def field (h : List UInt8) (start len : Nat) : Nat := ofBytes ((h.drop start).take len)

theorem length_pack (fields : List (Nat × Nat)) : (pack fields).length = width fields := by
  simp [pack, width, length_flatMap]

theorem field_pack (fields : List (Nat × Nat)) (i : Nat) {w n : Nat}
    (hi : fields[i]? = some (w, n)) :
    field (pack fields) (width (fields.take i)) w = n % 256 ^ w := by
  obtain ⟨hlt, hget⟩ := List.getElem?_eq_some_iff.1 hi
  have hsplit : fields = fields.take i ++ (w, n) :: fields.drop (i + 1) := by
    rw [← hget, List.getElem_cons_drop, List.take_append_drop]
  have hpack : pack fields =
      pack (fields.take i) ++ (toBytes w n ++ pack (fields.drop (i + 1))) := by
    conv_lhs => rw [hsplit]
    simp [pack]
  rw [field, hpack, ← length_pack, List.drop_left, List.take_left' (length_toBytes w n),
    ofBytes_toBytes]

theorem field_append_left {a : List UInt8} (b : List UInt8) {start len : Nat}
    (h : start + len ≤ a.length) : field (a ++ b) start len = field a start len := by
  rw [field, field, drop_append_of_le_length (by omega), take_append_of_le_length]
  rw [length_drop]
  omega

theorem field_append_right (a b : List UInt8) (start len : Nat) :
    field (a ++ b) (a.length + start) len = field b start len := by
  rw [field, drop_append, drop_of_length_le (by omega)]
  simp [field]

theorem field_lt (h : List UInt8) (start len : Nat) : field h start len < 256 ^ len := by
  refine lt_of_lt_of_le (ofBytes_lt _) (Nat.pow_le_pow_right (by decide) ?_)
  rw [List.length_take]
  exact min_le_left _ _

theorem field_one {h : List UInt8} {i : Nat} (hi : i < h.length) :
    field h i 1 = (h.getD i 0).toNat := by
  have hbyte : (h.drop i).take 1 = [h[i]] := by
    rw [drop_eq_getElem_cons hi]
    rfl
  rw [field, hbyte]
  simp [ofBytes, getD, hi]

def unpack : List Nat → Nat → List UInt8 → List (Nat × Nat)
  | [], _, _ => []
  | w :: ws, start, h => (w, field h start w) :: unpack ws (start + w) h

theorem pack_unpack (ws : List Nat) (start : Nat) (h : List UInt8)
    (hlen : h.length = start + ws.sum) : pack (unpack ws start h) = h.drop start := by
  induction ws generalizing start with
  | nil =>
    rw [drop_eq_nil_of_le (by simpa using hlen.le)]
    rfl
  | cons w ws ih =>
    rw [sum_cons] at hlen
    have htake : ((h.drop start).take w).length = w := by
      rw [length_take, length_drop]
      omega
    have hfield : toBytes w (field h start w) = (h.drop start).take w := by
      have hbytes := toBytes_ofBytes ((h.drop start).take w)
      rwa [htake] at hbytes
    show toBytes w (field h start w) ++ pack (unpack ws (start + w) h) = _
    rw [hfield, ih (start + w) (by omega), ← drop_drop, take_append_drop]

end Lib.BigEndian
