import Sideband.Foundation.Bytes

/-!
# Connection ids

`NextConnectionId` draws a 32-bit signed counter and renders it as `"ID:%10d"`;
`ConnectIdLength` is the length of the first id drawn. `std::string` is modelled by its
bytes. The rendering is injective (`connectionId_injective`): the padding is blank, so it can
be told from the digits and the sign.
-/

namespace Sideband

open Foundation

/-! ### Rendering -/

/-- The bytes of a text of ASCII characters. Ids, urls and addresses are such texts; of another
character only the low eight bits would be kept. -/
def ascii (cs : List Char) : Bytes := cs.map fun c => UInt8.ofNat c.toNat

/-- The conversion `%d`, for an integer of any size. The source converts an `int`. -/
def decimal : ℤ → List Char
  | .ofNat n => Nat.toDigits 10 n
  | .negSucc n => '-' :: Nat.toDigits 10 (n + 1)

/-- The conversion `%10d`: right-justified in ten columns, of which a longer number takes more. -/
def decimal10 (id : ℤ) : List Char :=
  List.replicate (10 - (decimal id).length) ' ' ++ decimal id

/-- The id that is drawn with the number `id`: `sprintf(buffer, "ID:%10d", id)`. The buffer has
room for the longest one, which has fourteen characters. -/
def connectionId (id : ℤ) : Bytes := ascii ("ID:".toList ++ decimal10 id)

/-- `NextConnectionId`, on the counter `_nextId`: the id and the counter it leaves behind. The
counter is an atomic `int`, whose addition wraps. -/
def nextConnectionId (nextId : ℤ) : Bytes × ℤ :=
  let id := toInt32 (nextId + 1)
  (connectionId id, id)

/-- `_zeroId`, drawn while the process starts, and so before the id of any stream. A socket
handle has it until its own is read. -/
def zeroId : Bytes := (nextConnectionId 0).1

/-- `ConnectIdLength`, the length of that first id: as many characters are read of every id,
however long it is. -/
def connectIdLength : ℕ := zeroId.length

theorem connectIdLength_eq : connectIdLength = 13 := by decide

/-- The ids have one length as long as the counter is not negative. The sign takes a column more
once the number has ten digits. -/
theorem length_connectionId {id : ℤ} (h : 0 ≤ id) (hlt : id < 2 ^ 31) :
    (connectionId id).length = connectIdLength := by
  obtain ⟨n, rfl⟩ := Int.eq_ofNat_of_zero_le h
  have hdigits : (Nat.toDigits 10 n).length ≤ 10 :=
    (Nat.length_toDigits_le_iff (by norm_num) (by norm_num)).mpr (by omega)
  have hdecimal : (decimal10 n).length = 10 := by
    change (List.replicate (10 - (Nat.toDigits 10 n).length) ' ' ++ Nat.toDigits 10 n).length = 10
    rw [List.length_append, List.length_replicate]
    omega
  rw [connectIdLength_eq, connectionId, ascii, List.length_map, List.length_append, hdecimal]
  rfl

/-! ### Distinct ids -/

/-- A character `%d` can write. -/
private theorem mem_decimal {id : ℤ} {c : Char} (h : c ∈ decimal id) : c.isDigit ∨ c = '-' := by
  cases id with
  | ofNat n => exact .inl (Nat.isDigit_of_mem_toDigits (by norm_num) le_rfl h)
  | negSucc n =>
    rcases List.mem_cons.mp h with rfl | h
    · exact .inr rfl
    · exact .inl (Nat.isDigit_of_mem_toDigits (by norm_num) le_rfl h)

private theorem toDigits_injective : Function.Injective (Nat.toDigits 10) := fun m n h => by
  rw [← Nat.ofDigitChars_ten_toDigits (n := m), h, Nat.ofDigitChars_ten_toDigits]

theorem decimal_injective : Function.Injective decimal := by
  have hsign : ∀ m n : ℕ, decimal (.ofNat m) ≠ decimal (.negSucc n) := fun m n h => by
    have hmem : '-' ∈ decimal (.ofNat m) := h ▸ List.mem_cons_self
    exact absurd (Nat.isDigit_of_mem_toDigits (by norm_num) le_rfl hmem) (by decide)
  intro a b h
  cases a with
  | ofNat m =>
    cases b with
    | ofNat n => exact congrArg Int.ofNat (toDigits_injective h)
    | negSucc n => exact absurd h (hsign m n)
  | negSucc m =>
    cases b with
    | ofNat n => exact absurd h.symm (hsign n m)
    | negSucc n =>
      have htail := toDigits_injective (List.cons.inj h).2
      exact congrArg Int.negSucc (by omega)

/-- Dropping the padding of `%10d` leaves `%d`. -/
private theorem dropWhile_decimal10 (id : ℤ) :
    (decimal10 id).dropWhile (· == ' ') = decimal id := by
  have hpad : ∀ n : ℕ, ∀ cs : List Char,
      (List.replicate n ' ' ++ cs).dropWhile (· == ' ') = cs.dropWhile (· == ' ') := by
    intro n cs
    induction n with
    | zero => rfl
    | succ n ih => rw [List.replicate_succ, List.cons_append, List.dropWhile_cons_of_pos rfl, ih]
  rw [decimal10, hpad]
  cases hd : decimal id with
  | nil => rfl
  | cons c cs =>
    refine List.dropWhile_cons_of_neg fun hblank => ?_
    have hmem : c ∈ decimal id := hd ▸ List.mem_cons_self
    rcases mem_decimal hmem with h | h
    · rw [beq_iff_eq.mp hblank] at h
      exact absurd h (by decide)
    · rw [h] at hblank
      exact absurd hblank (by decide)

theorem decimal10_injective : Function.Injective decimal10 := fun a b h =>
  decimal_injective (by rw [← dropWhile_decimal10 a, h, dropWhile_decimal10 b])

private theorem ascii_injOn {a b : List Char} (ha : ∀ c ∈ a, c.toNat < 256)
    (hb : ∀ c ∈ b, c.toNat < 256) (h : ascii a = ascii b) : a = b := by
  induction a generalizing b with
  | nil => exact (List.map_eq_nil_iff.mp h.symm).symm
  | cons c a ih =>
    cases b with
    | nil => cases h
    | cons d b =>
      obtain ⟨hcd, hrest⟩ := List.cons.inj h
      have hc := ha c List.mem_cons_self
      have hd := hb d List.mem_cons_self
      have hval : c.toNat = d.toNat := by
        have := congrArg UInt8.toNat hcd
        simp only [UInt8.toNat_ofNat'] at this
        omega
      rw [Char.toNat_inj.mp hval,
        ih (fun x hx => ha x (List.mem_cons_of_mem c hx))
          (fun x hx => hb x (List.mem_cons_of_mem d hx)) hrest]

/-- Ids drawn at different counter values differ. -/
theorem connectionId_injective : Function.Injective connectionId := by
  have hlead : ∀ c ∈ "ID:".toList, c.toNat < 256 := by
    have hchars : "ID:".toList = ['I', 'D', ':'] := rfl
    rw [hchars]
    simp
  have hbyte : ∀ id : ℤ, ∀ c ∈ "ID:".toList ++ decimal10 id, c.toNat < 256 := by
    intro id c hc
    rcases List.mem_append.mp hc with hc | hc
    · exact hlead c hc
    · rcases List.mem_append.mp hc with hc | hc
      · rw [List.eq_of_mem_replicate hc]
        decide
      · rcases mem_decimal hc with hd | rfl
        · simp only [Char.isDigit, Bool.and_eq_true, decide_eq_true_eq] at hd
          have := UInt32.le_iff_toNat_le.mp hd.2
          exact lt_of_le_of_lt this (by decide)
        · decide
  intro a b h
  exact decimal10_injective (List.append_cancel_left (ascii_injOn (hbyte a) (hbyte b) h))

end Sideband
