import Mathlib.Data.List.AList
import Sideband.Handle

/-!
# Shared memory objects

The kernel's side of POSIX shared memory (`Shm`): the names in use, the object each leads to,
and what the objects hold. A descriptor is written as the number of the object it is open on.
The outcomes of the coming system calls are part of the state; once they are used up, every
call succeeds.

* `Shm.view name size` is what a process finds that opens `name` and maps `size` bytes of it.
* `Shm.Update name mem` is a change of the object behind one name, to `mem`: other names
  keep their objects (`Update.view_same`, `Update.view_other`).
-/

namespace Sideband

open Foundation

/-- The shared memory objects of a machine. A name leads to one object at most, and two names
never lead to the same one; an object that has lost its name stays, as it does while somebody has
it mapped. Permissions are left out: any process may open any name. -/
structure Shm where
  names : AList fun _ : Bytes => ℕ := ∅
  objects : List Bytes := []
  /-- The outcomes of the coming `shm_open`, `ftruncate` and `mmap` calls. -/
  calls : List Bool := []
  inRange : ∀ name n, names.lookup name = some n → n < objects.length := by simp
  distinct : ∀ name other n, names.lookup name = some n → names.lookup other = some n →
    name = other := by simp
  deriving DecidableEq

namespace Shm

theorem distinct_empty : ∀ name other n, (∅ : AList fun _ : Bytes => ℕ).lookup name = some n →
    (∅ : AList fun _ : Bytes => ℕ).lookup other = some n → name = other := by
  intro name other n hname
  rw [AList.lookup_empty] at hname
  cases hname

/-- The content of an object; its length is the size it was last truncated to. -/
def object (shm : Shm) (n : ℕ) : Bytes := shm.objects.getD n []

/-- A new, empty object under a name that is not in use, or that leads to it from now on. Handles
that have mapped the old one keep it. -/
def create (name : Bytes) (shm : Shm) : Shm where
  names := shm.names.insert name shm.objects.length
  objects := shm.objects ++ [[]]
  calls := shm.calls
  inRange other n h := by
    rw [List.length_append, List.length_singleton]
    by_cases hname : other = name
    · rw [hname, AList.lookup_insert, Option.some.injEq] at h
      omega
    · rw [AList.lookup_insert_ne hname] at h
      have := shm.inRange other n h
      omega
  distinct a b n ha hb := by
    have hnew : ∀ {c}, c ≠ name → (shm.names.insert name shm.objects.length).lookup c = some n →
        n < shm.objects.length ∧ shm.names.lookup c = some n := fun hc h => by
      rw [AList.lookup_insert_ne hc] at h
      exact ⟨shm.inRange _ n h, h⟩
    by_cases hna : a = name
    · rw [hna, AList.lookup_insert, Option.some.injEq] at ha
      by_cases hnb : b = name
      · rw [hna, hnb]
      · have := (hnew hnb hb).1
        omega
    · by_cases hnb : b = name
      · rw [hnb, AList.lookup_insert, Option.some.injEq] at hb
        have := (hnew hna ha).1
        omega
      · exact shm.distinct a b n (hnew hna ha).2 (hnew hnb hb).2

/-- Change the content of an object. With a content of another length this is what `ftruncate`
does. -/
def setObject (n : ℕ) (mem : Bytes) (shm : Shm) : Shm where
  names := shm.names
  objects := shm.objects.set n mem
  calls := shm.calls
  inRange name m h := by
    rw [List.length_set]
    exact shm.inRange name m h
  distinct := shm.distinct

/-- Take a name out of use; the object stays as long as it is mapped. -/
def unlink (name : Bytes) (shm : Shm) : Shm where
  names := shm.names.erase name
  objects := shm.objects
  calls := shm.calls
  inRange other n h := by
    by_cases hname : other = name
    · rw [hname, AList.lookup_erase] at h
      cases h
    · rw [AList.lookup_erase_ne hname] at h
      exact shm.inRange other n h
  distinct a b n ha hb := by
    have hkept : ∀ {c}, (shm.names.erase name).lookup c = some n → shm.names.lookup c = some n :=
      fun {c} h => by
        by_cases hc : c = name
        · rw [hc, AList.lookup_erase] at h
          cases h
        · rwa [AList.lookup_erase_ne hc] at h
    exact shm.distinct a b n (hkept ha) (hkept hb)

theorem object_setObject {shm : Shm} {n : ℕ} (mem : Bytes) (h : n < shm.objects.length) :
    (shm.setObject n mem).object n = mem := by
  simp [object, setObject, h]

theorem object_setObject_ne {shm : Shm} {n k : ℕ} (mem : Bytes) (h : n ≠ k) :
    (shm.setObject n mem).object k = shm.object k := by
  simp [object, setObject, h]

theorem object_create {shm : Shm} {n : ℕ} (name : Bytes) (h : n < shm.objects.length) :
    (shm.create name).object n = shm.object n := by
  simp [object, create, List.getElem?_append_left h]

theorem object_create_new (shm : Shm) (name : Bytes) :
    (shm.create name).object shm.objects.length = [] := by
  simp [object, create]

/-! ### System calls -/

/-- The outcome of a system call that can fail: the next one of the script, or success once the
script is used up. -/
def systemCall : Exec Shm Bool := fun shm =>
  .ok (shm.calls.headD true, { shm with calls := shm.calls.tail })

/-- `shm_open(name, O_CREAT | O_RDWR, …)`: the descriptor, that of a new object if the name is
not in use. Descriptors are never closed by the source and have no limit here. -/
def shmOpen (name : Bytes) : Exec Shm (Option ℕ) := do
  if ← systemCall then
    let shm ← get
    match shm.names.lookup name with
    | some fd => return some fd
    | none =>
      set (shm.create name)
      return some shm.objects.length
  else
    return none

/-- `ftruncate`: a negative length is refused, and any other one cuts the object off or fills it
up with zeros. -/
def ftruncate (fd : ℕ) (length : ℤ) : Exec Shm Bool := do
  if ← systemCall then
    if length < 0 then
      return false
    modify fun shm => shm.setObject fd (resize length.toNat 0 (shm.object fd))
    return true
  else
    return false

/-- `mmap` of a descriptor from offset `0`. A failure is `MAP_FAILED`, which is no null pointer. -/
def mmap (fd : ℕ) : Exec Shm Pointer := do
  if ← systemCall then
    return .into (.segment fd) 0
  else
    return .invalid

def shmUnlink (name : Bytes) : Exec Shm Unit := modify (unlink name)

/-- Read through a pointer into a mapping of `length` bytes. The access stays in the mapping and
in the object behind it, which may have become shorter since; reading nothing is no access. -/
def load (length : ℤ) (p : Pointer) (n : ℕ) : Exec Shm Bytes := do
  if n = 0 then
    return []
  match p with
  | .into (.segment k) offset =>
    if (offset + n : ℤ) ≤ length then
      Exec.checked (loadAt offset n ((← get).object k))
    else
      throw .outOfBounds
  | _ => throw .outOfBounds

/-- Store through a pointer into a mapping of `length` bytes. Beyond the mapping, or beyond the
object that it maps, there is nothing to store to. -/
def store (length : ℤ) (p : Pointer) (bytes : Bytes) : Exec Shm Unit := do
  if bytes = [] then
    return ()
  match p with
  | .into (.segment k) offset =>
    if (offset + bytes.length : ℤ) ≤ length then
      let mem ← Exec.checked (storeAt offset bytes ((← get).object k))
      modify (setObject k mem)
    else
      throw .outOfBounds
  | _ => throw .outOfBounds

/-! ### The object behind a name -/

/-- What a process finds that opens `name` and maps `size` bytes of it. It is what the `Init` of
a handle sees, which truncates the object to its own size first. -/
def view (shm : Shm) (name : Bytes) (size : ℕ) : Bytes :=
  match shm.names.lookup name with
  | some n => resize size 0 (shm.object n)
  | none => List.replicate size 0

@[simp]
theorem length_view (shm : Shm) (name : Bytes) (size : ℕ) : (shm.view name size).length = size := by
  rw [view]
  split <;> simp

/-- Memory with data laid over its start is as long as it was. -/
theorem length_overlay_view (shm : Shm) (name : Bytes) {size : ℕ} {bytes : Bytes}
    (h : bytes.length ≤ size) : (overlay 0 bytes (shm.view name size)).length = size := by
  rw [length_overlay (by rw [length_view]; omega), length_view]

theorem view_of_lookup {shm : Shm} {name : Bytes} {size n : ℕ}
    (h : shm.names.lookup name = some n) : shm.view name size = resize size 0 (shm.object n) := by
  simp only [view, h]

/-- The object behind `name` becomes `mem`; the other names keep theirs, and no call is
scripted to fail. -/
structure Update (name mem : Bytes) (shm shm' : Shm) : Prop where
  calls : shm'.calls = []
  content : ∃ n, shm'.names.lookup name = some n ∧ shm'.object n = mem
  lookup : ∀ other n, shm.names.lookup other = some n → shm'.names.lookup other = some n
  other : ∀ other, other ≠ name → shm'.names.lookup other = shm.names.lookup other ∧
    ∀ n, shm.names.lookup other = some n → shm'.object n = shm.object n

namespace Update

variable {name mem mem' : Bytes} {shm shm' shm'' : Shm}

theorem trans (h : Update name mem shm shm') (h' : Update name mem' shm' shm'') :
    Update name mem' shm shm'' where
  calls := h'.calls
  content := h'.content
  lookup other n hn := h'.lookup other n (h.lookup other n hn)
  other a ha := by
    refine ⟨((h'.other a ha).1).trans (h.other a ha).1, fun n hn => ?_⟩
    exact ((h'.other a ha).2 n (h.lookup a n hn)).trans ((h.other a ha).2 n hn)

theorem view_same {size : ℕ} (h : Update name mem shm shm') (hsize : mem.length = size) :
    shm'.view name size = mem := by
  obtain ⟨n, hn, hmem⟩ := h.content
  rw [view_of_lookup hn, hmem, resize_of_length hsize]

theorem view_other {a : Bytes} (h : Update name mem shm shm') (ha : a ≠ name) (size : ℕ) :
    shm'.view a size = shm.view a size := by
  obtain ⟨hlookup, hobject⟩ := h.other a ha
  cases hn : shm.names.lookup a with
  | none =>
    rw [hn] at hlookup
    simp only [view, hn, hlookup]
  | some n => rw [view_of_lookup (hlookup.trans hn), view_of_lookup hn, hobject n hn]

/-- Storing to the object behind a name updates that name only. -/
theorem setObject {n : ℕ} (hcalls : shm.calls = []) (hn : shm.names.lookup name = some n)
    (mem : Bytes) : Update name mem shm (shm.setObject n mem) where
  calls := hcalls
  content := ⟨n, hn, object_setObject mem (shm.inRange name n hn)⟩
  lookup _ _ h := h
  other a ha := by
    refine ⟨rfl, fun k hk => object_setObject_ne mem ?_⟩
    rintro rfl
    exact ha (shm.distinct a name n hk hn)

/-- Leaving an object as it is. -/
theorem refl {n : ℕ} (hcalls : shm.calls = []) (hn : shm.names.lookup name = some n) :
    Update name (shm.object n) shm shm where
  calls := hcalls
  content := ⟨n, hn, rfl⟩
  lookup _ _ h := h
  other _ _ := ⟨rfl, fun _ _ => rfl⟩

theorem create (hcalls : shm.calls = []) (hn : shm.names.lookup name = none) :
    Update name [] shm (shm.create name) where
  calls := hcalls
  content := ⟨shm.objects.length, AList.lookup_insert _, object_create_new shm name⟩
  lookup a n h := by
    refine (AList.lookup_insert_ne ?_).trans h
    rintro rfl
    rw [hn] at h
    cases h
  other a ha := ⟨AList.lookup_insert_ne ha, fun n h => object_create name (shm.inRange a n h)⟩

end Update

/-! ### Calls that succeed -/

theorem run_systemCall {shm : Shm} (h : shm.calls = []) : systemCall.run shm = .ok (true, shm) := by
  change Except.ok (shm.calls.headD true, { shm with calls := shm.calls.tail }) = _
  obtain ⟨names, objects, calls, h₁, h₂⟩ := shm
  obtain rfl : calls = [] := h
  rfl

/-- Opening a name leaves what any mapping of it will find. -/
theorem shmOpen_ok {shm : Shm} (hcalls : shm.calls = []) (name : Bytes) :
    ∃ n shm', (shmOpen name).run shm = .ok (some n, shm') ∧ shm'.names.lookup name = some n ∧
      Update name (shm'.object n) shm shm' ∧
      ∀ size, resize size 0 (shm'.object n) = shm.view name size := by
  cases hn : shm.names.lookup name with
  | some n =>
    refine ⟨n, shm, ?_, hn, .refl hcalls hn, fun size => (view_of_lookup hn).symm⟩
    rw [shmOpen, Exec.run_bind_ok (run_systemCall hcalls), if_pos rfl, Exec.run_bind_ok
      (Exec.run_get shm)]
    simp [hn]
  | none =>
    have hnew : (shm.create name).object shm.objects.length = [] := object_create_new shm name
    refine ⟨shm.objects.length, shm.create name, ?_, AList.lookup_insert _, ?_, ?_⟩
    · rw [shmOpen, Exec.run_bind_ok (run_systemCall hcalls), if_pos rfl, Exec.run_bind_ok
        (Exec.run_get shm)]
      simp only [hn]
      rw [Exec.run_bind_ok (Exec.run_set shm _), Exec.run_pure]
    · rw [hnew]
      exact .create hcalls hn
    · intro size
      rw [hnew]
      simp [resize, view, hn]

theorem ftruncate_ok {shm : Shm} (hcalls : shm.calls = []) (n size : ℕ) :
    (ftruncate n size).run shm =
      .ok (true, shm.setObject n (resize size 0 (shm.object n))) := by
  rw [ftruncate, Exec.run_bind_ok (run_systemCall hcalls), if_pos rfl, if_neg (by omega)]
  rfl

theorem mmap_ok {shm : Shm} (hcalls : shm.calls = []) (n : ℕ) :
    (mmap n).run shm = .ok (.into (.segment n) 0, shm) := by
  rw [mmap, Exec.run_bind_ok (run_systemCall hcalls)]
  rfl

theorem load_ok {shm : Shm} {size k offset n : ℕ} (hsize : (shm.object k).length = size)
    (h : offset + n ≤ size) :
    (load size (.into (.segment k) offset) n).run shm =
      .ok (slice offset n (shm.object k), shm) := by
  rw [load]
  by_cases hn : n = 0
  · simp [hn]
  · have hfits : ((offset : ℤ) + n) ≤ size := by omega
    simp only [hn, if_false, hfits, if_true]
    rw [Exec.run_bind_ok (Exec.run_get shm), loadAt_eq_some (by omega), Exec.run_checked_some]

/-- A read beyond the mapping is out of bounds. -/
theorem load_outOfBounds {shm : Shm} {size k offset n : ℕ} (hn : n ≠ 0) (h : size < offset + n) :
    (load size (.into (.segment k) offset) n).run shm = .error .outOfBounds := by
  have hfits : ¬ ((offset : ℤ) + n) ≤ size := by omega
  rw [load]
  simp only [hn, if_false, hfits]
  rfl

/-- A store inside a mapping updates the object it is a mapping of. -/
theorem store_ok {shm : Shm} {name bytes : Bytes} {size k offset : ℕ} (hcalls : shm.calls = [])
    (hn : shm.names.lookup name = some k) (hsize : (shm.object k).length = size)
    (h : offset + bytes.length ≤ size) :
    ∃ shm', (store size (.into (.segment k) offset) bytes).run shm = .ok (⟨⟩, shm') ∧
      Update name (overlay offset bytes (shm.object k)) shm shm' := by
  by_cases hbytes : bytes = []
  · subst hbytes
    exact ⟨shm, rfl, by simpa using Update.refl hcalls hn⟩
  · refine ⟨_, ?_, .setObject hcalls hn _⟩
    have hfits : ((offset : ℤ) + bytes.length) ≤ size := by omega
    rw [store]
    simp only [hbytes, if_false, hfits, if_true]
    rw [Exec.run_bind_ok (Exec.run_get shm), storeAt_eq_some (by omega),
      Exec.run_bind_ok (Exec.run_checked_some _ _)]
    rfl

end Shm

end Sideband
