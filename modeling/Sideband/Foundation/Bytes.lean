import Mathlib.Data.List.Basic
import Mathlib.Algebra.Order.Group.Nat
import Mathlib.Tactic.Ring
import Mathlib.Tactic.NormNum

/-!
# Byte regions and fixed-width integers

The memory vocabulary of a program that copies bytes between buffers:

* `slice off n mem` is the window of `n` elements at `off`, `overlay off new mem` stores
  `new` there, `resize n fill mem` cuts the region off or fills it up. They are total;
  `loadAt` and `storeAt` are the checked accesses, which fail when the window leaves the
  region.
* `toLe`/`ofLe` are the little-endian encodings of naturals at a fixed width, and
  `le64`/`int64OfLe` the encoding of a signed 64-bit integer.
* `toInt32`/`toInt64` are the narrowing conversions to a signed machine integer
  (two's complement: the balanced remainder).

The laws are the ones a copy loop needs: what a window of an overlay holds
(`slice_overlay`, `slice_overlay_left`, `slice_overlay_right`), how consecutive stores merge
(`overlay_append`), and that the encodings are inverse on their range.
-/

namespace Foundation

/-- A run of bytes. -/
abbrev Bytes := List UInt8

/-! ### Windows of a region -/

section Regions

variable {α : Type*}

/-- The window of `n` elements at offset `off`. It is shorter where the list ends before it does;
`loadAt` is the read that refuses such a window. -/
def slice (off n : ℕ) (mem : List α) : List α := (mem.drop off).take n

/-- Store `new` at offset `off`. It is total: what leaves the region makes it longer, which only
`storeAt` excludes. -/
def overlay (off : ℕ) (new mem : List α) : List α :=
  mem.take off ++ new ++ mem.drop (off + new.length)

/-- The region cut off or filled up to `n` elements, as a file is that is truncated to another
size. -/
def resize (n : ℕ) (fill : α) (mem : List α) : List α :=
  mem.take n ++ List.replicate (n - mem.length) fill

@[simp]
theorem length_resize (n : ℕ) (fill : α) (mem : List α) : (resize n fill mem).length = n := by
  simp only [resize, List.length_append, List.length_take, List.length_replicate]
  omega

theorem resize_of_length {n : ℕ} {fill : α} {mem : List α} (h : mem.length = n) :
    resize n fill mem = mem := by
  simp [resize, ← h]

@[simp]
theorem slice_zero (off : ℕ) (mem : List α) : slice off 0 mem = [] := by simp [slice]

theorem length_slice {off n : ℕ} {mem : List α} (h : off + n ≤ mem.length) :
    (slice off n mem).length = n := by
  simp only [slice, List.length_take, List.length_drop]
  omega

@[simp]
theorem overlay_nil (off : ℕ) (mem : List α) : overlay off [] mem = mem := by
  simp [overlay]

@[simp]
theorem length_overlay {off : ℕ} {new mem : List α} (h : off + new.length ≤ mem.length) :
    (overlay off new mem).length = mem.length := by
  simp only [overlay, List.length_append, List.length_take, List.length_drop]
  omega

/-- The window just stored holds what was stored. -/
theorem slice_overlay {off : ℕ} {new mem : List α} (h : off ≤ mem.length) :
    slice off new.length (overlay off new mem) = new := by
  have hlen : (mem.take off).length = off := by rw [List.length_take]; omega
  rw [slice, overlay, List.append_assoc, List.drop_left' hlen, List.take_left]

/-- A window below the stored one is unchanged. -/
theorem slice_overlay_left {off k n : ℕ} {new mem : List α} (h : k + n ≤ off)
    (hoff : off ≤ mem.length) : slice k n (overlay off new mem) = slice k n mem := by
  have hlen : n ≤ ((mem.take off).drop k).length := by
    rw [List.length_drop, List.length_take]
    omega
  have hk : k ≤ (mem.take off).length := by rw [List.length_take]; omega
  rw [slice, slice, overlay, List.append_assoc, List.drop_append_of_le_length hk,
    List.take_append_of_le_length hlen, List.drop_take, List.take_take]
  congr 1
  omega

/-- A window above the stored one is unchanged. -/
theorem slice_overlay_right {off k n : ℕ} {new mem : List α} (h : off + new.length ≤ k)
    (hoff : off ≤ mem.length) : slice k n (overlay off new mem) = slice k n mem := by
  have hlen : (mem.take off ++ new).length = off + new.length := by
    rw [List.length_append, List.length_take]
    omega
  rw [slice, slice, overlay, List.drop_append, List.drop_eq_nil_of_le (by omega), List.nil_append,
    List.drop_drop, hlen]
  congr 2
  omega

/-- The front of a memory whose front was stored, and what lies behind it. -/
theorem take_overlay (n : ℕ) (new mem : List α) :
    (overlay 0 new mem).take (new.length + n) = new ++ slice new.length n mem := by
  rw [overlay, List.take_zero, List.nil_append, Nat.zero_add, List.take_length_add_append, slice]

/-- The memory up to the end of what was stored. -/
theorem take_add_overlay {off : ℕ} {new mem : List α} (h : off ≤ mem.length) :
    (overlay off new mem).take (off + new.length) = mem.take off ++ new := by
  have hlen : (mem.take off ++ new).length = off + new.length := by
    rw [List.length_append, List.length_take]
    omega
  rw [overlay, ← hlen, List.take_left]

/-- Storing two adjacent pieces one after the other stores their concatenation. -/
theorem overlay_append {off : ℕ} {a b mem : List α} (h : off + a.length + b.length ≤ mem.length) :
    overlay (off + a.length) b (overlay off a mem) = overlay off (a ++ b) mem := by
  have hlen : (mem.take off ++ a).length = off + a.length := by
    rw [List.length_append, List.length_take]
    omega
  have htake : (overlay off a mem).take (off + a.length) = mem.take off ++ a := by
    rw [overlay, ← hlen, List.take_left]
  have hdrop : (overlay off a mem).drop (off + a.length + b.length)
      = mem.drop (off + a.length + b.length) := by
    rw [overlay, List.drop_append, List.drop_eq_nil_of_le (by omega), List.nil_append,
      List.drop_drop, hlen]
    congr 1
    omega
  rw [overlay, htake, hdrop]
  simp [overlay, Nat.add_assoc]

/-- Two pieces of a text, stored one behind the other, are what they are together. -/
theorem overlay_take_drop {off count n : ℕ} {text mem : List α} (hle : count ≤ n)
    (hlen : n ≤ text.length) (h : off + n ≤ mem.length) :
    overlay (off + count) ((text.drop count).take (n - count)) (overlay off (text.take count) mem) =
      overlay off (text.take n) mem := by
  have hfirst : (text.take count).length = count := by
    rw [List.length_take]
    omega
  have hsecond : ((text.drop count).take (n - count)).length = n - count := by
    rw [List.length_take, List.length_drop]
    omega
  have hsplit : text.take count ++ (text.drop count).take (n - count) = text.take n := by
    rw [← List.take_add, Nat.add_sub_cancel' hle]
  rw [← hsplit, ← overlay_append (by omega), hfirst]

/-- Storing over the whole region leaves nothing of it. -/
theorem overlay_full {new mem : List α} (h : new.length = mem.length) :
    overlay 0 new mem = new := by
  simp [overlay, h]

end Regions

/-! ### Checked accesses -/

/-- The bytes of a checked read: `none` when the window leaves the region. The program itself
checks nothing, so `none` is where its behaviour is undefined. -/
def loadAt (off n : ℕ) (mem : Bytes) : Option Bytes :=
  if off + n ≤ mem.length then some (slice off n mem) else none

/-- The region after a checked store: `none` when the window leaves the region. A store never
changes the size of a region. -/
def storeAt (off : ℕ) (new mem : Bytes) : Option Bytes :=
  if off + new.length ≤ mem.length then some (overlay off new mem) else none

theorem loadAt_eq_some {off n : ℕ} {mem : Bytes} (h : off + n ≤ mem.length) :
    loadAt off n mem = some (slice off n mem) := if_pos h

theorem loadAt_eq_none {off n : ℕ} {mem : Bytes} (h : mem.length < off + n) :
    loadAt off n mem = none := if_neg (by omega)

theorem storeAt_eq_some {off : ℕ} {new mem : Bytes} (h : off + new.length ≤ mem.length) :
    storeAt off new mem = some (overlay off new mem) := if_pos h

theorem storeAt_eq_some_iff {off : ℕ} {new mem mem' : Bytes} :
    storeAt off new mem = some mem' ↔
      off + new.length ≤ mem.length ∧ overlay off new mem = mem' := by
  rw [storeAt]
  split_ifs with h <;> simp [h]

theorem length_of_storeAt {off : ℕ} {new mem mem' : Bytes} (h : storeAt off new mem = some mem') :
    mem'.length = mem.length := by
  obtain ⟨hle, rfl⟩ := storeAt_eq_some_iff.mp h
  exact length_overlay hle

theorem length_le_of_storeAt {off : ℕ} {new mem mem' : Bytes}
    (h : storeAt off new mem = some mem') : off + new.length ≤ mem'.length := by
  rw [storeAt] at h
  split_ifs at h with hle
  cases h
  rw [length_overlay hle]
  exact hle

theorem storeAt_eq_none {off : ℕ} {new mem : Bytes} (h : mem.length < off + new.length) :
    storeAt off new mem = none := if_neg (by omega)

/-! ### Little-endian naturals -/

/-- The `w` little-endian bytes of `n`; higher bytes are dropped. The source copies integers as
they lie in the memory of a little-endian machine. -/
def toLe : ℕ → ℕ → Bytes
  | 0, _ => []
  | w + 1, n => UInt8.ofNat n :: toLe w (n / 256)

/-- The natural number with the given little-endian bytes. -/
def ofLe : Bytes → ℕ
  | [] => 0
  | b :: bs => b.toNat + 256 * ofLe bs

@[simp]
theorem length_toLe (w n : ℕ) : (toLe w n).length = w := by
  induction w generalizing n with
  | zero => rfl
  | succ w ih => simp [toLe, ih]

theorem ofLe_toLe (w n : ℕ) : ofLe (toLe w n) = n % 256 ^ w := by
  induction w generalizing n with
  | zero => simp [toLe, ofLe, Nat.mod_one]
  | succ w ih =>
    have hbyte : (UInt8.ofNat n).toNat = n % 256 := UInt8.toNat_ofNat'
    rw [toLe, ofLe, ih, hbyte, pow_succ', Nat.mod_mul]

theorem ofLe_lt (bs : Bytes) : ofLe bs < 256 ^ bs.length := by
  induction bs with
  | nil => simp [ofLe]
  | cons b bs ih =>
    have hb := b.toNat_lt
    rw [ofLe, List.length_cons, pow_succ]
    omega

theorem toLe_ofLe (bs : Bytes) : toLe bs.length (ofLe bs) = bs := by
  induction bs with
  | nil => rfl
  | cons b bs ih =>
    have hb : b.toNat < 256 := b.toNat_lt
    have hdiv : (b.toNat + 256 * ofLe bs) / 256 = ofLe bs := by omega
    have hbyte : UInt8.ofNat (b.toNat + 256 * ofLe bs) = b := by
      refine UInt8.toNat_inj.mp ?_
      rw [UInt8.toNat_ofNat']
      omega
    rw [List.length_cons, ofLe, toLe, hdiv, ih, hbyte]

/-! ### Signed machine integers -/

/-- Conversion to a signed 32-bit integer: the number with the same low 32 bits, as the compilers
of the source have it. -/
def toInt32 (x : ℤ) : ℤ := x.bmod (2 ^ 32)

/-- Conversion to a signed 64-bit integer: the number with the same low 64 bits, as the compilers
of the source have it. -/
def toInt64 (x : ℤ) : ℤ := x.bmod (2 ^ 64)

theorem toInt32_of_range {x : ℤ} (h₁ : -2 ^ 31 ≤ x) (h₂ : x < 2 ^ 31) : toInt32 x = x :=
  Int.bmod_eq_of_le (by norm_num; omega) (by norm_num; omega)

/-- Two's complement. -/
theorem toInt32_eq (x : ℤ) :
    toInt32 x = if x % 2 ^ 32 < 2 ^ 31 then x % 2 ^ 32 else x % 2 ^ 32 - 2 ^ 32 := by
  rw [toInt32, Int.bmod_def]
  rfl

theorem toInt32_lt (x : ℤ) : toInt32 x < 2 ^ 31 := by
  have := Int.bmod_lt (x := x) (m := 2 ^ 32) (by decide)
  rw [toInt32]
  omega

/-- Losing bits makes no natural number larger. -/
theorem toInt32_le {x : ℤ} (h : 0 ≤ x) : toInt32 x ≤ x := by
  rw [toInt32_eq]
  split_ifs <;> omega

theorem toInt64_of_range {x : ℤ} (h₁ : -2 ^ 63 ≤ x) (h₂ : x < 2 ^ 63) : toInt64 x = x :=
  Int.bmod_eq_of_le (by norm_num; omega) (by norm_num; omega)

/-- The eight little-endian bytes of a signed 64-bit integer, in two's complement. They are the
prefix of a frame. -/
def le64 (x : ℤ) : Bytes := toLe 8 (x % 2 ^ 64).toNat

/-- The signed 64-bit integer spelled by little-endian bytes: what an `int64_t` is whose bytes
these are, on a little-endian machine. -/
def int64OfLe (bs : Bytes) : ℤ := toInt64 (ofLe bs)

@[simp]
theorem length_le64 (x : ℤ) : (le64 x).length = 8 := length_toLe 8 _

theorem int64OfLe_le64 {x : ℤ} (h₁ : -2 ^ 63 ≤ x) (h₂ : x < 2 ^ 63) : int64OfLe (le64 x) = x := by
  have hnn : 0 ≤ x % 2 ^ 64 := Int.emod_nonneg x (by norm_num)
  have hlt : x % 2 ^ 64 < 2 ^ 64 := Int.emod_lt_of_pos x (by norm_num)
  have hval : ((ofLe (le64 x) : ℕ) : ℤ) = x % 2 ^ 64 := by
    rw [le64, ofLe_toLe, Nat.mod_eq_of_lt (by norm_num; omega), Int.toNat_of_nonneg hnn]
  have hmod : (x % 2 ^ 64).bmod (2 ^ 64) = x.bmod (2 ^ 64) := Int.emod_bmod x (2 ^ 64)
  rw [int64OfLe, hval, toInt64, hmod]
  exact toInt64_of_range h₁ h₂

/-- Eight bytes are the encoding of the integer they spell. -/
theorem le64_int64OfLe {bs : Bytes} (h : bs.length = 8) : le64 (int64OfLe bs) = bs := by
  have hlt := ofLe_lt bs
  rw [h] at hlt
  have hmod : ((ofLe bs : ℤ).bmod (2 ^ 64)) % 2 ^ 64 = ofLe bs := by
    have hbmod := Int.bmod_emod (x := ofLe bs) (m := 2 ^ 64)
    norm_num at hbmod ⊢
    rw [hbmod, Int.emod_eq_of_lt (by omega) (by norm_num at hlt; omega)]
  rw [le64, int64OfLe, toInt64, hmod, Int.toNat_natCast, ← h, toLe_ofLe]

/-- The length of a list, as a prefix that reads back exactly. -/
theorem int64OfLe_le64_natCast {n : ℕ} (h : n < 2 ^ 63) : int64OfLe (le64 n) = n :=
  int64OfLe_le64 (by omega) (by omega)

end Foundation
