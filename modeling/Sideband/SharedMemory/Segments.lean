import Mathlib.Logic.Function.Basic
import Sideband.Foundation.Machine
import Sideband.SharedMemory.Operations

/-!
# Handles of one name

Any number of handles are constructed, used and destroyed with one id, by any processes, while
every system call succeeds. A handle binds to the name at its first use; a segment lives on as
long as it is mapped, but the destructor of a handle that has mapped it unlinks the name, whoever
else uses it. A handle that is first used after that gets a segment of its own.

* `Shares s`: all handles that are mapped have mapped one segment, so that what one writes any
  other reads.
* `UsesLinked` excludes the first uses after such an unlink, while a handle that maps the old
  segment lives. `shares_of_reachable` says that this is enough for every run, and that a first use
  it excludes splits the handles.
-/

namespace Sideband

open Foundation

/-! ### One memory -/

namespace SharedMemorySidebandData

variable {h h' : SharedMemorySidebandData} {shm : Shm} {w' : WithShm SharedMemorySidebandData}
  {n : ℕ} {bytes dst : Bytes}

/-- A `Write` through a mapping leaves the bytes at the start of the segment. -/
theorem of_run_write (hbuffer : h.buffer = .into (.segment n) 0)
    (hwrite : (write bytes).run ⟨h, shm⟩ = .ok (true, w')) :
    bytes.length ≤ (w'.shm.object n).length ∧ (w'.shm.object n).take bytes.length = bytes := by
  rw [write, Exec.run_bind_ok (getBuffer_mapped hbuffer shm), if_pos (by simp)] at hwrite
  obtain ⟨⟨⟩, t, hstore, hpure⟩ := Exec.run_bind_eq_ok_iff.mp hwrite
  cases hpure
  rw [store, Exec.run_bind_ok (Exec.run_get _)] at hstore
  obtain ⟨shm', hrun, rfl⟩ := WithShm.run_kernel_eq_ok_iff.mp hstore
  exact Shm.of_run_store_segment hrun

/-- A `Read` through a mapping finds them there. -/
theorem run_read_mapped (hbuffer : h'.buffer = .into (.segment n) 0)
    (hfits : bytes.length ≤ (shm.object n).length)
    (htake : (shm.object n).take bytes.length = bytes) (hsize : bytes.length ≤ h'.bufferSize)
    (hdst : dst.length = bytes.length) :
    (read (some dst) bytes.length).run ⟨h', shm⟩ = .ok (⟨true, some bytes, none⟩, ⟨h', shm⟩) := by
  have hload : (load (.into (.segment n) 0) bytes.length).run ⟨h', shm⟩ =
      .ok (bytes, ⟨h', shm⟩) := by
    rw [load, Exec.run_bind_ok (Exec.run_get _), WithShm.run_kernel_ok
      (Shm.run_load_segment (by dsimp only; omega) (by dsimp only; omega)), slice, List.drop_zero,
      htake]
  have hcopy : (copyOut (some dst) (.into (.segment n) 0) bytes.length).run ⟨h', shm⟩ =
      .ok (some bytes, ⟨h', shm⟩) := by
    rw [copyOut, if_neg (by omega), Int.toNat_natCast, Exec.run_bind_ok hload, storeDst,
      storeAt_eq_some (by omega), overlay_full hdst.symm, Option.map_some, Exec.run_checked_some]
  rw [read, Exec.run_bind_ok (getBuffer_mapped hbuffer shm), if_pos (by simp),
    Exec.run_bind_ok hcopy, Exec.run_pure]

end SharedMemorySidebandData

/-! ### Handles and their runs -/

/-- The handles of one id, and the kernel. `none` is a handle that is not constructed or was
destroyed; which process it is in makes no difference. -/
structure Handles (ι : Type) where
  handles : ι → Option SharedMemorySidebandData
  shm : Shm

/-- Construct a handle of the id with a size of its own, perform an operation of it, or destroy
it. -/
inductive HandlesStep (ι : Type)
  | construct (i : ι) (bufferSize : ℕ)
  | perform (i : ι) (op : Operation)
  | destroy (i : ι)

namespace Handles

open SharedMemorySidebandData

variable {ι : Type}

/-- Handle `i` lives and has mapped segment `n`. -/
def Maps (s : Handles ι) (i : ι) (n : ℕ) : Prop :=
  ∃ h, s.handles i = some h ∧ h.buffer = .into (.segment n) 0

/-- The name the handles of an id open. -/
def segmentName (id : Bytes) : Bytes := (SharedMemorySidebandData.new id 0).name

/-- What handle `i` writes, handle `j` reads: a `Write` that succeeds and a `Read` right behind
it, of bytes that the reader's mapping has room for. -/
def Reaches (s : Handles ι) (i j : ι) : Prop :=
  ∀ h h' bytes w', s.handles i = some h → s.handles j = some h' →
    (write bytes).run ⟨h, s.shm⟩ = .ok (true, w') → bytes.length ≤ h'.bufferSize →
    ∀ dst : Bytes, dst.length = bytes.length →
      (read (some dst) bytes.length).run ⟨h', w'.shm⟩ =
        .ok (⟨true, some bytes, none⟩, ⟨h', w'.shm⟩)

/-- The mapped handles share a segment, and so what one of them writes each of them reads. A
handle that has mapped nothing yet is not spoken of. -/
structure Shares (s : Handles ι) : Prop where
  segment : ∀ i j n m, s.Maps i n → s.Maps j m → n = m
  reaches : ∀ i j n m, s.Maps i n → s.Maps j m → s.Reaches i j

/-- The handles of one id, constructed, used and destroyed in any order. No system call fails,
sizes may differ, and one call is one step, which is not there if the call leaves its memory. -/
def sharedHandles (ι : Type) [DecidableEq ι] (id : Bytes) :
    Machine (Handles ι) (HandlesStep ι) where
  init s := (∀ i, s.handles i = none) ∧ s.shm.calls = []
  next s
    | .construct i bufferSize =>
      match s.handles i with
      | none => some { s with handles := Function.update s.handles i (some (.new id bufferSize)) }
      | some _ => none
    | .perform i op =>
      match s.handles i with
      | some h => ((op.perform methods).returned ⟨h, s.shm⟩).map fun r =>
        { handles := Function.update s.handles i (some r.2.handle), shm := r.2.shm }
      | none => none
    | .destroy i =>
      match s.handles i with
      | some h => (delete.returned ⟨h, s.shm⟩).map fun r =>
        { handles := Function.update s.handles i none, shm := r.2.shm }
      | none => none

/-- A first use finds the name in use, or no handle mapped. Every other step meets it: destroying
a handle unlinks the name, but that alone splits nobody. -/
def UsesLinked (id : Bytes) (s : Handles ι) : HandlesStep ι → Prop
  | .perform i _ => (∀ h, s.handles i = some h → h.buffer ≠ .null) ∨
    s.shm.names.lookup (segmentName id) ≠ none ∨ ∀ j n, ¬ s.Maps j n
  | _ => True

/-- A handle of the id, before its first use or after it. -/
structure Wellformed (id : Bytes) (h : SharedMemorySidebandData) : Prop where
  name : h.name = segmentName id
  bufferSize : 0 ≤ h.bufferSize
  buffer : h.buffer = .null ∨ h.fileName = h.name ∧ ∃ n, h.buffer = .into (.segment n) 0

/-- The invariant: one segment, which the name leads to if it is in use. With the name unlinked
the mapped handles still have that segment. -/
structure Joined (id : Bytes) (s : Handles ι) : Prop where
  calls : s.shm.calls = []
  wellformed : ∀ i h, s.handles i = some h → Wellformed id h
  inRange : ∀ i n, s.Maps i n → n < s.shm.objects.length
  segment : ∀ i j n m, s.Maps i n → s.Maps j m → n = m
  linked : ∀ i n m, s.Maps i n → s.shm.names.lookup (segmentName id) = some m → n = m

variable {id : Bytes} {s s' : Handles ι} {i j : ι} {n m : ℕ} {op : Operation}
  {h h' : SharedMemorySidebandData} {w w' : WithShm SharedMemorySidebandData}

/-! ### Mapped handles -/

/-- What is stored to a segment through one mapping is read through another one. -/
theorem reaches_of_maps (hi : s.Maps i n) (hj : s.Maps j n) : s.Reaches i j := by
  obtain ⟨h, hih, hbuffer⟩ := hi
  obtain ⟨h', hjh, hbuffer'⟩ := hj
  intro h₀ h₁ bytes w' hi' hj' hwrite hsize dst hdst
  obtain rfl : h = h₀ := Option.some.inj (hih.symm.trans hi')
  obtain rfl : h' = h₁ := Option.some.inj (hjh.symm.trans hj')
  obtain ⟨hfits, htake⟩ := of_run_write hbuffer hwrite
  exact run_read_mapped hbuffer' hfits htake hsize hdst

theorem wellformed_new (id : Bytes) (bufferSize : ℕ) : Wellformed id (.new id bufferSize) :=
  ⟨rfl, Int.natCast_nonneg _, .inl rfl⟩

theorem Wellformed.mappedTo (hh : Wellformed id h) (n : ℕ) : Wellformed id (h.mappedTo n) :=
  ⟨hh.name, hh.bufferSize, .inr ⟨rfl, n, rfl⟩⟩

/-- A step that maps nothing new and links nothing new keeps the invariant. -/
theorem Joined.of_le (hs : Joined id s) (calls : s'.shm.calls = [])
    (wellformed : ∀ i h, s'.handles i = some h → Wellformed id h)
    (maps : ∀ i n, s'.Maps i n → s.Maps i n)
    (length : s.shm.objects.length ≤ s'.shm.objects.length)
    (linked : ∀ m, s'.shm.names.lookup (segmentName id) = some m →
      s.shm.names.lookup (segmentName id) = some m) : Joined id s' where
  calls := calls
  wellformed := wellformed
  inRange i n hi := (hs.inRange i n (maps i n hi)).trans_le length
  segment i j n m hi hj := hs.segment i j n m (maps i n hi) (maps j m hj)
  linked i n m hi hm := hs.linked i n m (maps i n hi) (linked m hm)

theorem Joined.shares (hs : Joined id s) : s.Shares where
  segment := hs.segment
  reaches i j n m hi hj := by
    obtain rfl := hs.segment i j n m hi hj
    exact reaches_of_maps hi hj

/-- The first use of a handle maps the segment the name leads to, or a new one. -/
theorem Joined.perform_first (hs : Joined id s) (hi : s.handles i = some h)
    (hnull : h.buffer = .null) {success : Bool}
    (hrun : (op.perform methods).run ⟨h, s.shm⟩ = .ok (success, w')) :
    ∃ n, w'.handle = h.mappedTo n ∧ w'.shm.calls = [] ∧
      (s.shm.names.lookup (segmentName id) = some n ∨
        s.shm.names.lookup (segmentName id) = none ∧ n = s.shm.objects.length) ∧
      w'.shm.names.lookup (segmentName id) = some n ∧
      s.shm.objects.length ≤ w'.shm.objects.length := by
  have hname : h.name = segmentName id := (hs.wellformed i h hi).name
  obtain ⟨n, w₁, hget, hhandle, hopened, hcalls⟩ := getBuffer_maps (w := ⟨h, s.shm⟩) hs.calls
    (hs.wellformed i h hi).bufferSize hnull
  obtain ⟨hframe, hstored⟩ := perform_frame hget hrun
  refine ⟨n, hframe.trans hhandle, hstored.calls.trans hcalls, hname ▸ hopened.found, ?_, ?_⟩
  · rw [hstored.names, hopened.lookup, if_pos hname.symm]
  · rw [hstored.objects]
    exact hopened.length

variable [DecidableEq ι]

theorem maps_update_some {handles : ι → Option SharedMemorySidebandData} {shm : Shm} :
    Maps ⟨Function.update handles i (some h), shm⟩ j m ↔
      j = i ∧ h.buffer = .into (.segment m) 0 ∨ j ≠ i ∧ Maps ⟨handles, shm⟩ j m := by
  by_cases hj : j = i
  · subst hj
    simp [Maps]
  · simp [Maps, hj]

theorem maps_update_none {handles : ι → Option SharedMemorySidebandData} {shm : Shm} :
    Maps ⟨Function.update handles i none, shm⟩ j m ↔ j ≠ i ∧ Maps ⟨handles, shm⟩ j m := by
  by_cases hj : j = i
  · subst hj
    simp [Maps]
  · simp [Maps, hj]

/-- A handle that was just constructed has mapped nothing. -/
theorem not_maps_construct {handles : ι → Option SharedMemorySidebandData} {shm : Shm}
    {bufferSize : ℤ} (hnone : ∀ j n, ¬ Maps ⟨handles, shm⟩ j n) (j : ι) (n : ℕ) :
    ¬ Maps ⟨Function.update handles i (some (.new id bufferSize)), shm⟩ j n := by
  rw [maps_update_some]
  rintro (⟨-, hnull⟩ | ⟨-, hj⟩)
  · cases hnull
  · exact hnone j n hj

/-- The handles of a state with one of them changed. -/
theorem wellformed_update {handles : ι → Option SharedMemorySidebandData} {o : Option _}
    (hs : ∀ i h, handles i = some h → Wellformed id h) (ho : ∀ h, o = some h → Wellformed id h)
    (j : ι) (h : SharedMemorySidebandData) (hj : Function.update handles i o j = some h) :
    Wellformed id h := by
  by_cases hji : j = i
  · rw [hji, Function.update_self] at hj
    exact ho h hj
  · rw [Function.update_of_ne hji] at hj
    exact hs j h hj

/-! ### Steps -/

theorem Joined.construct (hs : Joined id s) (bufferSize : ℕ) :
    Joined id { s with handles := Function.update s.handles i (some (.new id bufferSize)) } := by
  refine hs.of_le hs.calls (wellformed_update hs.wellformed ?_) ?_ le_rfl (fun m hm => hm)
  · rintro h ⟨⟩
    exact wellformed_new id bufferSize
  · intro j m hj
    rcases maps_update_some.mp hj with ⟨-, hnull⟩ | ⟨-, hj⟩
    · cases hnull
    · exact hj

/-- An operation of a mapped handle keeps the handle. -/
theorem Joined.perform_mapped (hs : Joined id s) (hi : s.handles i = some h)
    (hset : h.buffer ≠ .null) {success : Bool}
    (hrun : (op.perform methods).run ⟨h, s.shm⟩ = .ok (success, w')) :
    Joined id ⟨Function.update s.handles i (some w'.handle), w'.shm⟩ := by
  obtain ⟨w₁, hget, ⟨-, rfl⟩ | ⟨hnull, -⟩⟩ := run_getBuffer ⟨h, s.shm⟩
  · obtain ⟨hhandle, hstored⟩ := perform_frame hget hrun
    dsimp only at hhandle hstored
    rw [hhandle, ← hi, Function.update_eq_self]
    refine hs.of_le (hstored.calls.trans hs.calls) hs.wellformed (fun _ _ hj => hj)
      hstored.objects.ge fun m hm => ?_
    rwa [← hstored.names]
  · exact absurd hnull hset

/-- A destroyed handle unlinks the name if it has mapped the segment. -/
theorem Joined.destroy (hs : Joined id s) (hi : s.handles i = some h)
    (hrun : delete.run ⟨h, s.shm⟩ = .ok (⟨⟩, w')) :
    Joined id ⟨Function.update s.handles i none, w'.shm⟩ := by
  have hwellformed := wellformed_update (i := i) hs.wellformed
    (show ∀ h, none = some h → Wellformed id h from nofun)
  have hmaps (shm : Shm) : ∀ j m, Maps ⟨Function.update s.handles i none, shm⟩ j m →
      s.Maps j m := fun j m hj => (maps_update_none.mp hj).2
  rw [delete, Exec.run_bind_ok (Exec.run_get _)] at hrun
  dsimp only at hrun
  split_ifs at hrun with hset
  · cases hrun
    have hname : h.fileName = segmentName id := by
      rcases (hs.wellformed i h hi).buffer with hnull | ⟨hfile, -⟩
      · rw [hnull] at hset
        cases hset
      · rw [hfile, (hs.wellformed i h hi).name]
    refine hs.of_le hs.calls hwellformed (hmaps _) le_rfl fun m hm => ?_
    have hnone : (s.shm.names.erase h.fileName).lookup (segmentName id) = some m := hm
    rw [hname, AList.lookup_erase] at hnone
    cases hnone
  · cases hrun
    exact hs.of_le hs.calls hwellformed (hmaps _) le_rfl fun m hm => hm

/-- It joins the other handles, if the name is in use or there are none. -/
theorem Joined.perform_linked (hs : Joined id s) (hi : s.handles i = some h)
    (hnull : h.buffer = .null) {success : Bool}
    (hrun : (op.perform methods).run ⟨h, s.shm⟩ = .ok (success, w'))
    (hok : s.shm.names.lookup (segmentName id) ≠ none ∨ ∀ j n, ¬ s.Maps j n) :
    Joined id ⟨Function.update s.handles i (some w'.handle), w'.shm⟩ := by
  obtain ⟨n, hhandle, hcalls, hfound, hlookup, hlength⟩ := hs.perform_first hi hnull hrun
  -- whatever is mapped is the segment the name leads to
  have hold : ∀ j m, s.Maps j m → m = n := by
    intro j m hj
    rcases hfound with hfound | ⟨hnone, -⟩
    · exact hs.linked j m n hj hfound
    · rcases hok with hlinked | hunmapped
      · exact absurd hnone hlinked
      · exact absurd hj (hunmapped j m)
  have hmaps : ∀ j m, Maps ⟨Function.update s.handles i (some w'.handle), w'.shm⟩ j m → m = n := by
    intro j m hj
    rcases maps_update_some.mp hj with ⟨-, hbuffer⟩ | ⟨-, hj⟩
    · rw [hhandle, mappedTo] at hbuffer
      cases hbuffer
      rfl
    · exact hold j m hj
  refine ⟨hcalls, wellformed_update hs.wellformed ?_, ?_, ?_, ?_⟩
  · rintro h' ⟨⟩
    rw [hhandle]
    exact (hs.wellformed i h hi).mappedTo n
  · intro j m hj
    rw [hmaps j m hj]
    exact w'.shm.inRange _ n hlookup
  · intro j k m m' hj hk
    rw [hmaps j m hj, hmaps k m' hk]
  · intro j m m' hj hm
    rw [hmaps j m hj]
    exact Option.some.inj (hlookup.symm.trans hm)

/-- Otherwise it gets a segment of its own. -/
theorem Joined.not_shares (hs : Joined id s) (hi : s.handles i = some h) (hnull : h.buffer = .null)
    {success : Bool} (hrun : (op.perform methods).run ⟨h, s.shm⟩ = .ok (success, w'))
    (hnone : s.shm.names.lookup (segmentName id) = none) (hj : s.Maps j m) :
    ¬ Shares ⟨Function.update s.handles i (some w'.handle), w'.shm⟩ := by
  intro hshares
  obtain ⟨n, hhandle, -, hfound, -, -⟩ := hs.perform_first hi hnull hrun
  have hnew : n = s.shm.objects.length := by
    rcases hfound with hfound | ⟨-, hn⟩
    · rw [hnone] at hfound
      cases hfound
    · exact hn
  have hji : j ≠ i := by
    rintro rfl
    obtain ⟨h', hj', hbuffer⟩ := hj
    rw [hi] at hj'
    cases hj'
    rw [hnull] at hbuffer
    cases hbuffer
  have hmapsI : Maps ⟨Function.update s.handles i (some w'.handle), w'.shm⟩ i n :=
    maps_update_some.mpr (.inl ⟨rfl, by rw [hhandle, mappedTo]⟩)
  have hmapsJ : Maps ⟨Function.update s.handles i (some w'.handle), w'.shm⟩ j m :=
    maps_update_some.mpr (.inr ⟨hji, hj⟩)
  have hinRange := hs.inRange j m hj
  have hsame := hshares.segment j i m n hmapsJ hmapsI
  omega

/-! ### Runs -/

theorem next_perform_eq_some_iff : (sharedHandles ι id).next s (.perform i op) = some s' ↔
    ∃ h success w', s.handles i = some h ∧
      (op.perform methods).run ⟨h, s.shm⟩ = .ok (success, w') ∧
      s' = ⟨Function.update s.handles i (some w'.handle), w'.shm⟩ := by
  constructor
  · intro h
    simp only [sharedHandles] at h
    split at h
    · rename_i h₀ hi
      obtain ⟨r, hr, rfl⟩ := Option.map_eq_some_iff.mp h
      exact ⟨h₀, r.1, r.2, hi, Exec.returned_eq_some_iff.mp hr, rfl⟩
    · cases h
  · rintro ⟨h₀, success, w', hi, hrun, rfl⟩
    have hreturned := Exec.returned_eq_some_iff.mpr hrun
    simp only [sharedHandles, hi, hreturned, Option.map_some]

/-- **One step.** Joined handles stay so exactly when a first use finds the name in use or no
handle mapped. -/
theorem Joined.next_iff (hs : Joined id s) {a : HandlesStep ι}
    (h : (sharedHandles ι id).next s a = some s') :
    (UsesLinked id s a → Joined id s') ∧ (s'.Shares → UsesLinked id s a) := by
  cases a with
  | construct i bufferSize =>
    simp only [sharedHandles] at h
    split at h
    · cases h
      exact ⟨fun _ => hs.construct bufferSize, fun _ => trivial⟩
    · cases h
  | perform i op =>
    obtain ⟨h₀, success, w', hi, hrun, rfl⟩ := next_perform_eq_some_iff.mp h
    by_cases hnull : h₀.buffer = .null
    · refine ⟨?_, fun hshares => .inr ?_⟩
      · rintro (hset | hok)
        · exact absurd hnull (hset h₀ hi)
        · exact hs.perform_linked hi hnull hrun hok
      · by_contra hno
        push Not at hno
        obtain ⟨hnone, j, m, hj⟩ := hno
        exact hs.not_shares hi hnull hrun hnone hj hshares
    · refine ⟨fun _ => hs.perform_mapped hi hnull hrun, fun _ => .inl fun h₁ hi₁ => ?_⟩
      rwa [← Option.some.inj (hi.symm.trans hi₁)]
  | destroy i =>
    simp only [sharedHandles] at h
    split at h
    · rename_i h₀ hi
      obtain ⟨r, hr, rfl⟩ := Option.map_eq_some_iff.mp h
      exact ⟨fun _ => hs.destroy hi (Exec.returned_eq_some_iff.mp hr), fun _ => trivial⟩
    · cases h

theorem joined_of_init (h : (sharedHandles ι id).init s) : Joined id s := by
  obtain ⟨hnone, hcalls⟩ := h
  have hmaps : ∀ i n, ¬ s.Maps i n := by
    rintro i n ⟨h, hi, -⟩
    rw [hnone] at hi
    cases hi
  refine ⟨hcalls, fun i h hi => ?_, fun i n hi => absurd hi (hmaps i n),
    fun i _ n _ hi => absurd hi (hmaps i n), fun i n _ hi => absurd hi (hmaps i n)⟩
  rw [hnone] at hi
  cases hi

/-- **Handles of one id share a segment.** In every run whose first uses meet the condition, the
mapped handles share a segment; and a step splits them exactly when it does not meet it. -/
theorem shares_of_reachable (hs : (sharedHandles ι id).Reachable (UsesLinked id) s) :
    s.Shares ∧ ∀ a s', (sharedHandles ι id).next s a = some s' →
      (s'.Shares ↔ UsesLinked id s a) := by
  have hjoined : Joined id s := hs.invariant (fun _ => joined_of_init)
    fun s a s' hs hok h => (hs.next_iff h).1 hok
  refine ⟨hjoined.shares, fun a s' h => ⟨(hjoined.next_iff h).2, fun hok => ?_⟩⟩
  exact ((hjoined.next_iff h).1 hok).shares

/-- No handles yet, and no objects. -/
def unused (ι : Type) : Handles ι := ⟨fun _ => none, .scripted []⟩

theorem reachable_unused {ok : Handles ι → HandlesStep ι → Prop} :
    (sharedHandles ι id).Reachable ok (unused ι) :=
  .init ⟨fun _ => rfl, rfl⟩

/-- Two handles are constructed and used. -/
def pairUsed : List (HandlesStep ℕ) :=
  [.construct 0 8, .construct 1 8, .perform 0 (.write [1]), .perform 1 (.write [2])]

/-- Two handles that are first used in turn share a segment. -/
theorem shares_of_reachable_pair : ∃ s, (sharedHandles ℕ []).exec (unused ℕ) pairUsed = some s ∧
    s.Maps 0 0 ∧ s.Maps 1 0 ∧ s.Shares := by
  have h₁ : (sharedHandles ℕ []).Reachable (UsesLinked []) _ :=
    .step (a := .construct 0 8) reachable_unused trivial rfl
  have h₂ : (sharedHandles ℕ []).Reachable (UsesLinked []) _ :=
    .step (a := .construct 1 8) h₁ trivial rfl
  have hunmapped : ∀ j n, ¬ Maps (unused ℕ) j n := by
    rintro j n ⟨h, hj, -⟩
    cases hj
  have h₃ : (sharedHandles ℕ []).Reachable (UsesLinked []) _ :=
    .step (a := .perform 0 (.write [1])) h₂ 
      (.inr (.inr (not_maps_construct (not_maps_construct hunmapped)))) rfl
  have h₄ : (sharedHandles ℕ []).Reachable (UsesLinked []) _ :=
    .step (a := .perform 1 (.write [2])) h₃ (.inr (.inl (by decide))) rfl
  exact ⟨_, rfl, ⟨_, rfl, rfl⟩, ⟨_, rfl, rfl⟩, (shares_of_reachable h₄).1⟩

/-- A handle first used after another one was destroyed gets a segment of its own, though a third
one still maps the old segment. -/
theorem not_shares_after_destroy :
    ¬ ∀ s, (sharedHandles ℕ []).Reachable Anything s → s.Shares := by
  intro h
  have hrun : (sharedHandles ℕ []).exec (unused ℕ) (pairUsed ++
    [.destroy 0, .construct 2 8, .perform 2 (.write [3])]) = some _ := rfl
  have hshares := h _ (reachable_unused.exec hrun)
  have hsame : 0 = 1 := hshares.segment 1 2 0 1 ⟨_, rfl, rfl⟩ ⟨_, rfl, rfl⟩
  omega

end Handles

end Sideband
