import Sideband.Sockets.Loops

/-!
# What a successful read has stored

`ReadFromSocket` adds up the pieces in an `int` each. A piece of 2 GiB or more is counted as less
than it is, so a read that goes on after it takes more from the stream than it was asked for.

* `readLoop_exact`: whatever the kernel does, a loop that returns true has stored exactly the next
  bytes, when no piece can be that long or when fewer bytes are on the way than such a loop takes.
* `readLoop_overrun`: otherwise some way of cutting the stream makes a loop that takes more return
  true.
-/

namespace Sideband

open Foundation

/-- An `int` counts a piece of 2 GiB or more as that much less, at least. -/
theorem toInt32_le_sub {x : ℤ} (h : 2 ^ 31 ≤ x) : toInt32 x ≤ x - 2 ^ 31 := by
  rw [toInt32_eq]
  split_ifs <;> omega

variable {recvs : List RecvEvent} {c c' : Connection} {dst' : Option Bytes}

/-- A loop that returns true has taken what it was asked for from the stream, at least. -/
theorem le_length_of_readLoop {dst : Option Bytes} {start : ℕ} {remainingBytes : ℤ}
    (h : readLoop c dst start remainingBytes recvs = .ok ((true, dst'), c')) :
    remainingBytes ≤ c.incoming.length := by
  induction recvs generalizing c dst start remainingBytes with
  | nil =>
    cases readRound_of_readLoop h with
    | done hrem => omega
  | cons e recvs ih =>
    cases readRound_of_readLoop h with
    | done hrem => omega
    | failed _ hr => cases hr
    | again errno _ h => exact ih (c := { c with errno }) h
    | piece count _ _ hle _ _ h =>
      have hrest := ih h
      have hcounted := toInt32_le (Int.natCast_nonneg count)
      rw [List.length_drop] at hrest
      omega
    | overflowed count _ _ _ _ _ h =>
      have hrest := ih (h.resolve_left (by simp))
      rw [List.length_drop] at hrest
      omega

/-- Whatever the kernel does, a loop that returns true has stored exactly the next `n` bytes. -/
theorem readLoop_exact {d : Bytes} {i n : ℕ}
    (hfits : n < 2 ^ 31 ∨ c.incoming.length < n + 2 ^ 31) (hdst : i + n ≤ d.length)
    (h : readLoop c (some d) i n recvs = .ok ((true, dst'), c')) :
    n ≤ c.incoming.length ∧ dst' = some (overlay i (c.incoming.take n) d) ∧
      c'.incoming = c.incoming.drop n := by
  induction recvs generalizing c d i n with
  | nil =>
    cases readRound_of_readLoop h with
    | done hrem hr hc =>
      obtain rfl : n = 0 := by omega
      obtain ⟨-, rfl⟩ := Prod.mk.inj hr
      rw [hc, List.take_zero, overlay_nil]
      exact ⟨Nat.zero_le _, rfl, rfl⟩
  | cons e recvs ih =>
    cases readRound_of_readLoop h with
    | done hrem hr hc =>
      obtain rfl : n = 0 := by omega
      obtain ⟨-, rfl⟩ := Prod.mk.inj hr
      rw [hc, List.take_zero, overlay_nil]
      exact ⟨Nat.zero_le _, rfl, rfl⟩
    | failed _ hr => cases hr
    | again errno _ h => exact ih (c := { c with errno }) hfits hdst h
    | piece count _ hpos hle hstore _ h =>
      by_cases hint : count < 2 ^ 31
      · have htake : (c.incoming.take count).length = count := by
          rw [List.length_take]
          omega
        have hrem : (n : ℤ) - count = ((n - count : ℕ) : ℤ) := by omega
        rw [of_storeDst hstore, toInt32_of_range (by omega) (by omega), Int.toNat_natCast, hrem]
          at h
        obtain ⟨hlen, hdst', hincoming⟩ := ih (by rw [List.length_drop]; omega)
          (by rw [length_overlay (by omega)]; omega) h
        rw [List.length_drop] at hlen
        refine ⟨by omega, ?_, ?_⟩
        · rw [hdst', overlay_take_drop (by omega) (by omega) hdst]
        · rw [hincoming, List.drop_drop, Nat.add_sub_cancel' (by omega)]
      · -- the rest of the loop would need more than what is left
        have hcounted := toInt32_le_sub (show 2 ^ 31 ≤ (count : ℤ) by omega)
        have hrest := le_length_of_readLoop h
        rw [List.length_drop] at hrest
        omega
    | overflowed count _ _ _ _ hcounted h =>
      -- so would it here, where nothing has been counted
      have hlarge : 2 ^ 31 ≤ count := by
        by_contra hsmall
        rw [toInt32_of_range (by omega) (by omega)] at hcounted
        omega
      have hrest := le_length_of_readLoop (h.resolve_left (by simp))
      rw [List.length_drop] at hrest
      omega

/-- Byte by byte, any number of bytes is read. -/
theorem readLoop_singles {d : Bytes} {i n : ℕ} (hin : n ≤ c.incoming.length)
    (hdst : i + n ≤ d.length) :
    ∃ dst' c', readLoop c (some d) i n (List.replicate n (.deliver 1)) = .ok ((true, dst'), c') ∧
      c'.incoming = c.incoming.drop n := by
  induction n generalizing c d i with
  | zero => exact ⟨_, _, readLoop_done c _ i _ (by omega), rfl⟩
  | succ n ih =>
    have hne : c.incoming ≠ [] := by
      rintro hnil
      rw [hnil, List.length_nil] at hin
      omega
    have hcount : transferCount 1 (min ((n + 1 : ℕ) : ℤ).toNat c.incoming.length) = 1 := by
      rw [transferCount]
      omega
    have hlength : (c.incoming.take 1).length = 1 := by
      rw [List.length_take]
      omega
    obtain ⟨dst', c', hrun, hincoming⟩ := ih (c := { c with incoming := c.incoming.drop 1 })
      (d := overlay i (c.incoming.take 1) d) (i := i + 1)
      (by simp only [List.length_drop]; omega) (by rw [length_overlay (by omega)]; omega)
    refine ⟨dst', c', ?_, ?_⟩
    · have hrem : ((n + 1 : ℕ) : ℤ) - (1 : ℕ) = (n : ℤ) := by omega
      rw [List.replicate_succ, readLoop_piece c i _ (by omega) hne hcount (by omega) (by omega),
        hrem]
      exact hrun
    · rw [hincoming, List.drop_drop, Nat.add_comm]

/-- A piece of 2 GiB, which is counted as a negative number, and single bytes. The `errno` of an
earlier call makes the loop go on. -/
def overrun (n : ℕ) : List RecvEvent :=
  .fail .EAGAIN :: .deliver (2 ^ 31) :: List.replicate n (.deliver 1)

/-- With 2 GiB more on the way than it is asked for, a loop may return true and take them too. -/
theorem readLoop_overrun {d : Bytes} {n : ℕ} (hn : 2 ^ 31 ≤ n)
    (hin : n + 2 ^ 31 ≤ c.incoming.length) (hdst : n ≤ d.length) :
    ∃ dst' c', readLoop c (some d) 0 n (overrun n) = .ok ((true, dst'), c') ∧
      c'.incoming = c.incoming.drop (2 ^ 31 + n) := by
  have hne : c.incoming ≠ [] := by
    rintro hnil
    rw [hnil, List.length_nil] at hin
    omega
  have hcount : transferCount (2 ^ 31) (min (n : ℤ).toNat c.incoming.length) = 2 ^ 31 := by
    rw [transferCount]
    omega
  have htake : (c.incoming.take (2 ^ 31)).length = 2 ^ 31 := by
    rw [List.length_take]
    omega
  have hcounted : toInt32 ((2 ^ 31 : ℕ) : ℤ) < 0 := by decide
  obtain ⟨dst', c', hrun, hincoming⟩ := readLoop_singles
    (c := { c with incoming := c.incoming.drop (2 ^ 31), errno := .EAGAIN })
    (d := overlay 0 (c.incoming.take (2 ^ 31)) d) (i := 0) (n := n)
    (by simp only [List.length_drop]; omega) (by rw [length_overlay (by omega)]; omega)
  refine ⟨dst', c', ?_, ?_⟩
  · rw [overrun, readLoop_wouldBlock c _ 0 _ (by omega) rfl, readLoop, if_neg (by omega)]
    dsimp only
    rw [if_neg hne, hcount, storeDst, storeAt_eq_some (by omega)]
    dsimp only [Option.map_some]
    rw [if_pos hcounted]
    exact hrun
  · rw [hincoming, List.drop_drop]

end Sideband
