import Sideband.Foundation.Bytes

/-!
# The protobuf wire format

The parts of the encoding that messages made of strings, bytes and submessages use: base-128
numbers (`varint`), length-delimited fields, and fields that are optional or repeated. Each encoder
has a reader that takes its output off the front of what is left to read (`takeVarint_append`,
`takeLengthDelimited_append`, `takeOptional_append`, `takeRepeated_repeated`). The readers accept
what the encoders write, in the order in which they write it.
-/

namespace Foundation.Protobuf

/-! ### Numbers -/

/-- The base-128 digits of a number, the lowest first, at most `k + 1` of them. -/
def digits : ℕ → ℕ → Bytes
  | 0, n => [UInt8.ofNat n]
  | k + 1, n =>
    if n < 128 then [UInt8.ofNat n] else UInt8.ofNat (128 + n % 128) :: digits k (n / 128)

def varint (n : ℕ) : Bytes := digits n n

/-- Take a number off the front. Any number of digits is read, where the library stops after ten;
of what the library writes the two read the same. -/
def takeVarint : Bytes → Option (ℕ × Bytes)
  | [] => none
  | b :: bytes =>
    if b.toNat < 128 then some (b.toNat, bytes)
    else (takeVarint bytes).map fun (n, rest) => (b.toNat - 128 + 128 * n, rest)

private theorem takeVarint_last {n : ℕ} (h : n < 128) (rest : Bytes) :
    takeVarint (UInt8.ofNat n :: rest) = some (n, rest) := by
  have hn : (UInt8.ofNat n).toNat = n := by
    rw [UInt8.toNat_ofNat']
    omega
  rw [takeVarint, hn, if_pos h]

private theorem takeVarint_digits {k n : ℕ} (h : n ≤ k) (rest : Bytes) :
    takeVarint (digits k n ++ rest) = some (n, rest) := by
  induction k generalizing n with
  | zero =>
    obtain rfl := Nat.le_zero.mp h
    exact takeVarint_last (by norm_num) rest
  | succ k ih =>
    rw [digits]
    split_ifs with hlast
    · exact takeVarint_last hlast rest
    · -- the digit has its high bit set, and the rest is less than half of `n`
      have hdigit : (UInt8.ofNat (128 + n % 128)).toNat = 128 + n % 128 := by
        rw [UInt8.toNat_ofNat']
        omega
      rw [List.cons_append, takeVarint, hdigit, if_neg (by omega), ih (by omega), Option.map_some]
      simp only [Option.some.injEq, Prod.mk.injEq, and_true]
      omega

theorem takeVarint_append (n : ℕ) (rest : Bytes) : takeVarint (varint n ++ rest) = some (n, rest) :=
  takeVarint_digits le_rfl rest

/-! ### Fields -/

/-- A length-delimited field: its tag, the length of the payload and the payload. -/
def lengthDelimited (tag : UInt8) (payload : Bytes) : Bytes :=
  tag :: (varint payload.length ++ payload)

/-- Take the field with this tag off the front; a payload that is not all there is refused.
Fields come in the order of their tags, as they are written. -/
def takeLengthDelimited (tag : UInt8) : Bytes → Option (Bytes × Bytes)
  | [] => none
  | b :: bytes =>
    if b = tag then
      (takeVarint bytes).bind fun (n, rest) =>
        if n ≤ rest.length then some (rest.take n, rest.drop n) else none
    else none

theorem takeLengthDelimited_append (tag : UInt8) (payload rest : Bytes) :
    takeLengthDelimited tag (lengthDelimited tag payload ++ rest) = some (payload, rest) := by
  rw [lengthDelimited, List.cons_append, takeLengthDelimited, if_pos rfl, List.append_assoc,
    takeVarint_append, Option.bind_some]
  dsimp only
  rw [if_pos (by rw [List.length_append]; omega), List.take_left, List.drop_left]

/-- A field that may be absent. -/
def optional (tag : UInt8) (payload : Option Bytes) : Bytes := payload.elim [] (lengthDelimited tag)

/-- Take a field off that may be absent, which is seen from the tag of what follows. The field is
expected in its place, and once. -/
def takeOptional (tag : UInt8) (bytes : Bytes) : Option (Option Bytes × Bytes) :=
  if bytes.head? = some tag then
    (takeLengthDelimited tag bytes).map fun (payload, rest) => (some payload, rest)
  else some (none, bytes)

/-- An absent field is told from a present one by the tag of what follows. -/
theorem takeOptional_append {tag : UInt8} {rest : Bytes} (h : rest.head? ≠ some tag)
    (payload : Option Bytes) :
    takeOptional tag (optional tag payload ++ rest) = some (payload, rest) := by
  rcases payload with - | payload
  · exact if_neg h
  · have htag : (lengthDelimited tag payload ++ rest).head? = some tag := rfl
    change takeOptional tag (lengthDelimited tag payload ++ rest) = _
    rw [takeOptional, if_pos htag, takeLengthDelimited_append, Option.map_some]

theorem takeOptional_optional (tag : UInt8) (payload : Option Bytes) :
    takeOptional tag (optional tag payload) = some (payload, []) := by
  have hend : ([] : Bytes).head? ≠ some tag := (Option.some_ne_none tag).symm
  rw [← List.append_nil (optional tag payload), takeOptional_append hend]

/-- The tag that an optional field starts with is its own. -/
theorem head?_optional_ne {tag tag' : UInt8} (h : tag ≠ tag') (payload : Option Bytes) :
    (optional tag payload).head? ≠ some tag' := by
  rcases payload with - | payload
  · exact (Option.some_ne_none tag').symm
  · intro htag
    exact h (Option.some.inj htag)

/-- A repeated field. -/
def repeated (tag : UInt8) (payloads : List Bytes) : Bytes := payloads.flatMap (lengthDelimited tag)

/-- The payloads of a repeated field that takes all of the bytes, at most `k` of them. A field
takes one byte at least, so that the number of bytes is enough. -/
def takeRepeated (tag : UInt8) : ℕ → Bytes → Option (List Bytes)
  | _, [] => some []
  | 0, _ :: _ => none
  | k + 1, b :: bytes => do
    let (payload, rest) ← takeLengthDelimited tag (b :: bytes)
    let payloads ← takeRepeated tag k rest
    return payload :: payloads

private theorem takeRepeated_of_le {tag : UInt8} {payloads : List Bytes} {k : ℕ}
    (h : payloads.length ≤ k) : takeRepeated tag k (repeated tag payloads) = some payloads := by
  induction payloads generalizing k with
  | nil =>
    change takeRepeated tag k [] = some []
    rw [takeRepeated]
  | cons payload payloads ih =>
    obtain ⟨k, rfl⟩ : ∃ j, k = j + 1 := ⟨k - 1, by rw [List.length_cons] at h; omega⟩
    have htake := takeLengthDelimited_append tag payload (repeated tag payloads)
    have hrest := ih (Nat.le_of_succ_le_succ h)
    change takeRepeated tag (k + 1) (tag :: (varint payload.length ++ payload ++ _)) = _
    rw [takeRepeated]
    change (takeLengthDelimited tag (lengthDelimited tag payload ++ repeated tag payloads)).bind _ =
      _
    rw [htake, Option.bind_some]
    change (takeRepeated tag k (repeated tag payloads)).bind _ = _
    rw [hrest]
    rfl

theorem length_le_repeated (tag : UInt8) (payloads : List Bytes) :
    payloads.length ≤ (repeated tag payloads).length := by
  induction payloads with
  | nil => exact Nat.zero_le _
  | cons payload payloads ih =>
    have hfield : 0 < (lengthDelimited tag payload).length := Nat.succ_pos _
    change payloads.length + 1 ≤ (lengthDelimited tag payload ++ repeated tag payloads).length
    rw [List.length_append]
    omega

theorem takeRepeated_repeated (tag : UInt8) (payloads : List Bytes) :
    takeRepeated tag (repeated tag payloads).length (repeated tag payloads) = some payloads :=
  takeRepeated_of_le (length_le_repeated tag payloads)

end Foundation.Protobuf
