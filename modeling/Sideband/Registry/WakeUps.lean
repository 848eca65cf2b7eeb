import Sideband.Registry.Handles

/-!
# Waiting for a handle

`GetOwnerSidebandDataToken` sleeps on a condition variable until its id is in the map. The threads
of a process take the registry's mutex, do what the call does, notify where the call does, and
release it; a thread that sleeps may wake up for no reason.

* `NoLostWakeUp`: when nobody holds the mutex, no thread sleeps for an id that is in the map. The
  id was not in the map when the thread fell asleep, so it was inserted since.
* `noLostWakeUp_of_reachable`: this is so as long as a call that inserts without notifying inserts
  no id that somebody sleeps for (`InsertsUnawaited`); an insertion that does loses a wake-up
  (`Awaited.insertsUnawaited`).
* `not_noLostWakeUp_initOwner`: a thread that asked before `InitOwnerSidebandData` sleeps on.
-/

namespace Sideband

open Foundation

/-- The calls that take the mutex of the registry. -/
inductive RegistryCall
  | getToken (usageId : Bytes)
  | initOwner (strategy : SidebandStrategy) (bufferSize : ℤ)
  | initClient (strategy : SidebandStrategy) (usageId : Bytes) (bufferSize : ℤ) (c : Connected)
  | initFromConnection (o : SidebandObject)
  | close (token : ℕ)

/-- How far a thread is in a call. What a call does under the mutex is one step, up to the
release or to the wait. -/
inductive RegistryThread
  | idle
  /-- At `std::unique_lock`, or awake in the wait and about to take the mutex again. -/
  | entering (call : RegistryCall)
  | holding (call : RegistryCall)
  /-- `RegisterSidebandData` has inserted and has not notified. -/
  | inserted
  /-- About to release the mutex. -/
  | leaving
  /-- In `_bufferLock.wait`, for an id, and not notified since. -/
  | asleep (usageId : Bytes)

/-- The thread has the mutex. -/
def RegistryThread.locked : RegistryThread → Bool
  | .holding _ | .inserted | .leaving => true
  | _ => false

/-- A thread that is notified, or woken up for no reason, goes for the mutex. -/
def RegistryThread.wake : RegistryThread → RegistryThread
  | .asleep usageId => .entering (.getToken usageId)
  | p => p

namespace RegistryThread

theorem locked_wake (p : RegistryThread) : p.wake.locked = p.locked := by
  cases p <;> rfl

theorem wake_ne_asleep (p : RegistryThread) (usageId : Bytes) : p.wake ≠ .asleep usageId := by
  cases p <;> simp [wake]

end RegistryThread

/-- The registry, its mutex and the threads. The condition variable has no state of its own: who
waits on it is told by the threads. -/
structure RegistryThreads (τ : Type) where
  registry : Registry := {}
  mutex : Option τ := none
  thread : τ → RegistryThread := fun _ => .idle

/-- What a thread does between two points at which another one can come in, or a wake-up for no
reason. -/
inductive RegistryThreadStep (τ : Type)
  | call (t : τ) (call : RegistryCall)
  | lock (t : τ)
  /-- What the call does to the map; in `GetOwnerSidebandDataToken`, the test of the loop. -/
  | body (t : τ)
  | notifyAll (t : τ)
  | unlock (t : τ)
  /-- A spurious wake-up. -/
  | wake (t : τ)

namespace RegistryThreads

variable {τ : Type} [DecidableEq τ] (s : RegistryThreads τ) (t : τ)

def setThread (p : RegistryThread) : RegistryThreads τ :=
  { s with thread := Function.update s.thread t p }

@[simp]
theorem thread_setThread_self (p : RegistryThread) : (s.setThread t p).thread t = p :=
  Function.update_self _ _ _

theorem thread_setThread_ne {u : τ} (hu : u ≠ t) (p : RegistryThread) :
    (s.setThread t p).thread u = s.thread u := Function.update_of_ne hu _ _

def call (c : RegistryCall) : Option (RegistryThreads τ) :=
  match s.thread t with
  | .idle => some (s.setThread t (.entering c))
  | _ => none

def lock : Option (RegistryThreads τ) :=
  match s.thread t, s.mutex with
  | .entering c, none => some (({ s with mutex := some t }).setThread t (.holding c))
  | _, _ => none

/-- The call's part under the mutex. Closing a token that denotes no object is undefined. -/
def body : Option (RegistryThreads τ) :=
  match s.thread t with
  | .holding (.getToken usageId) =>
    match s.registry.getOwnerSidebandDataToken usageId with
    | some (_, registry) => some (({ s with registry }).setThread t .leaving)
    | none => some (({ s with mutex := none }).setThread t (.asleep (cString usageId)))
  | .holding (.initOwner strategy bufferSize) =>
    some (({ s with
      registry := (s.registry.initOwnerSidebandData strategy bufferSize).2 }).setThread t .leaving)
  | .holding (.initClient strategy usageId bufferSize c) =>
    let registers := match clientObject strategy (cString usageId) bufferSize c with
      | some (.rdma _) => true
      | _ => false
    some (({ s with
      registry := (s.registry.initClientSidebandData strategy usageId bufferSize c).2 }).setThread t
        (if registers then .inserted else .leaving))
  | .holding (.initFromConnection o) =>
    some (({ s with registry := s.registry.initFromConnection o }).setThread t .inserted)
  | .holding (.close token) =>
    (s.registry.closeSidebandData token).map fun registry =>
      ({ s with registry }).setThread t .leaving
  | _ => none

/-- `_bufferLock.notify_all()`: every thread that sleeps goes for the mutex, whatever id it waits
for. -/
def notifyAll : Option (RegistryThreads τ) :=
  match s.thread t with
  | .inserted =>
    some (({ s with thread := fun t => (s.thread t).wake }).setThread t .leaving)
  | _ => none

def unlock : Option (RegistryThreads τ) :=
  match s.thread t with
  | .leaving => some (({ s with mutex := none }).setThread t .idle)
  | _ => none

def wake : Option (RegistryThreads τ) :=
  match s.thread t with
  | .asleep _ => some (s.setThread t (s.thread t).wake)
  | _ => none

end RegistryThreads

/-- Any number of threads that call the registry in any order. Taking the mutex, the part under
it, `notify_all` and the release are a step each, and a sleeper gives the mutex up and sleeps in
one step. Who gets the mutex next is open, and nothing makes a thread go on. -/
def registryThreads {τ : Type} [DecidableEq τ] :
    Machine (RegistryThreads τ) (RegistryThreadStep τ) where
  init s := s = {}
  next s
    | .call t c => s.call t c
    | .lock t => s.lock t
    | .body t => s.body t
    | .notifyAll t => s.notifyAll t
    | .unlock t => s.unlock t
    | .wake t => s.wake t

/-- The id under which a call inserts without notifying afterwards. -/
def RegistryCall.insertsSilently : RegistryCall → Option Bytes
  | .initOwner strategy bufferSize => (ownerObject strategy bufferSize).map SidebandObject.usageId
  | .initClient strategy usageId bufferSize c =>
    match clientObject strategy (cString usageId) bufferSize c with
    | some (.rdma _) => none
    | _ => some (cString usageId)
  | _ => none

/-- A call that inserts without notifying inserts an id that no thread sleeps for. Of the calls
that notify nothing is asked. -/
def InsertsUnawaited {τ : Type} (s : RegistryThreads τ) : RegistryThreadStep τ → Prop
  | .body t => ∀ c usageId, s.thread t = .holding c → c.insertsSilently = some usageId →
      ∀ t', s.thread t' ≠ .asleep usageId
  | _ => True

/-- When the mutex is free, whoever sleeps does so for an id that is not in the map. So a thread
never sleeps on with its handle there, unless it has been notified and is on its way. -/
def NoLostWakeUp {τ : Type} (s : RegistryThreads τ) : Prop :=
  s.mutex = none → ∀ t usageId, s.thread t = .asleep usageId →
    s.registry.buffers.lookup usageId = none

/-! ### What each call inserts -/

section Insertions

variable {r r' : Registry} {usageId : Bytes}

theorem lookup_initOwner {strategy : SidebandStrategy} {bufferSize : ℤ}
    (h : r.buffers.lookup usageId = none)
    (hne : (ownerObject strategy bufferSize).map SidebandObject.usageId ≠ some usageId) :
    (r.initOwnerSidebandData strategy bufferSize).2.buffers.lookup usageId = none := by
  rw [Registry.initOwnerSidebandData]
  split
  · next o ho =>
    rw [ho] at hne
    exact (Buffers.lookup_emplace_ne fun heq => hne (congrArg some heq.symm)).trans h
  · split_ifs
    · exact h
    · exact h

theorem lookup_initClient {strategy : SidebandStrategy} {id : Bytes} {bufferSize : ℤ}
    {c : Connected} (h : r.buffers.lookup usageId = none) (hne : usageId ≠ cString id) :
    (r.initClientSidebandData strategy id bufferSize c).2.buffers.lookup usageId = none := by
  rw [Registry.initClientSidebandData]
  split
  · next o ho =>
    have hid : (SidebandObject.rdma o).usageId = cString id := usageId_of_clientObject ho
    exact (Buffers.lookup_emplace_ne (hid ▸ hne)).trans h
  · exact (Buffers.lookup_emplace_ne hne).trans h
  · exact (Buffers.lookup_emplace_ne hne).trans h

theorem lookup_close {token : ℕ} (h : r.buffers.lookup usageId = none)
    (hstep : r.closeSidebandData token = some r') : r'.buffers.lookup usageId = none := by
  rw [Registry.closeSidebandData] at hstep
  split at hstep
  · next o ho =>
    cases hstep
    by_cases heq : usageId = o.usageId
    · subst heq
      exact AList.lookup_erase _ _
    · exact (AList.lookup_erase_ne heq).trans h
  · cases hstep

/-- Whether it was new or not, what a call inserts is in the map. -/
theorem isSome_lookup_emplace {token : ℕ} :
    ((r.emplace usageId token).buffers.lookup usageId).isSome := by
  change ((Buffers.emplace usageId token r.buffers).lookup usageId).isSome
  cases h : r.buffers.lookup usageId with
  | some o => rw [Buffers.lookup_emplace_mono h, Option.isSome_some]
  | none => rw [Buffers.lookup_emplace_of_none h, Option.isSome_some]

end Insertions

/-- Whoever is past its lock holds the mutex, and a sleeper whose id is in the map will be
notified by the thread that has inserted. -/
structure Awaited {τ : Type} (s : RegistryThreads τ) : Prop where
  locked : ∀ t, (s.thread t).locked = true → s.mutex = some t
  asleep : ∀ t usageId, s.thread t = .asleep usageId →
    s.registry.buffers.lookup usageId = none ∨ ∃ t', s.thread t' = .inserted

namespace Awaited

variable {τ : Type} {s s' : RegistryThreads τ} {t u : τ}

theorem noLostWakeUp (h : Awaited s) : NoLostWakeUp s := by
  intro hfree t usageId ht
  rcases h.asleep t usageId ht with hnone | ⟨u, hu⟩
  · exact hnone
  · have hlocked := h.locked u (by rw [hu]; rfl)
    simp [hfree] at hlocked

/-- Only one thread is past its lock. -/
theorem locked_unique (h : Awaited s) (ht : (s.thread t).locked = true)
    (hu : (s.thread u).locked = true) : t = u :=
  Option.some.inj ((h.locked t ht).symm.trans (h.locked u hu))

/-- While another thread is past its lock, nobody is about to notify. -/
theorem lookup_of_asleep (h : Awaited s) (ht : (s.thread t).locked = true)
    (hne : s.thread t ≠ .inserted) {usageId : Bytes} (hu : s.thread u = .asleep usageId) :
    s.registry.buffers.lookup usageId = none := by
  rcases h.asleep u usageId hu with hnone | ⟨v, hv⟩
  · exact hnone
  · obtain rfl := h.locked_unique ht (by rw [hv]; rfl : (s.thread v).locked = true)
    exact absurd hv hne

variable [DecidableEq τ]

/-- A step of the thread that has the mutex, at which it neither falls asleep nor notifies. -/
theorem body_step (h : Awaited s) (ht : (s.thread t).locked = true)
    (hne : s.thread t ≠ .inserted) {p : RegistryThread} {registry : Registry} {mutex : Option τ}
    (hmutex : mutex = some t ∨ (mutex = none ∧ p.locked = false))
    (hp : ∀ usageId, p = .asleep usageId → registry.buffers.lookup usageId = none)
    (hlookup : ∀ u usageId, s.thread u = .asleep usageId →
      s.registry.buffers.lookup usageId = none → p = .inserted ∨
        registry.buffers.lookup usageId = none) :
    Awaited (({ s with registry, mutex } : RegistryThreads τ).setThread t p) := by
  constructor
  · intro u hu
    by_cases hut : u = t
    · subst hut
      rcases hmutex with rfl | ⟨-, hfree⟩
      · rfl
      · rw [RegistryThreads.thread_setThread_self, hfree] at hu
        cases hu
    · rw [RegistryThreads.thread_setThread_ne _ _ hut] at hu
      exact absurd (h.locked_unique hu ht) hut
  · intro u usageId hu
    by_cases hut : u = t
    · subst hut
      rw [RegistryThreads.thread_setThread_self] at hu
      exact .inl (hp usageId hu)
    · rw [RegistryThreads.thread_setThread_ne _ _ hut] at hu
      -- the other sleepers sleep as before, unless the step is an insertion that notifies
      rcases hlookup u usageId hu (h.lookup_of_asleep ht hne hu) with rfl | hnone
      · exact .inr ⟨t, RegistryThreads.thread_setThread_self _ _ _⟩
      · exact .inl hnone

theorem body (h : Awaited s) (hok : InsertsUnawaited s (.body t))
    (hstep : s.body t = some s') : Awaited s' := by
  rw [RegistryThreads.body] at hstep
  -- one case per call of the registry: only a lookup that finds nothing gives up the mutex
  split at hstep
  · next usageId ht =>
    have hlocked : (s.thread t).locked = true := by rw [ht]; rfl
    have hne : s.thread t ≠ .inserted := by simp [ht]
    split at hstep
    · next token registry htoken =>
      obtain rfl : registry = s.registry := (Registry.Agrees.eq_of_getToken htoken).2
      cases hstep
      exact h.body_step hlocked hne (.inl (h.locked t hlocked)) (fun _ hp => by cases hp)
        fun _ _ _ hnone => .inr hnone
    · next htoken =>
      cases hstep
      refine h.body_step hlocked hne (.inr ⟨rfl, rfl⟩) (fun id hp => ?_)
        fun _ _ _ hnone => .inr hnone
      cases hp
      by_contra hsome
      rw [Registry.getOwnerSidebandDataToken,
        if_pos (Option.isSome_iff_ne_none.mpr hsome)] at htoken
      cases htoken
  · next strategy bufferSize ht =>
    cases hstep
    have hlocked : (s.thread t).locked = true := by rw [ht]; rfl
    refine h.body_step hlocked (by simp [ht]) (.inl (h.locked t hlocked))
      (fun _ hp => by cases hp) fun u usageId hu hnone => .inr (lookup_initOwner hnone ?_)
    exact fun hsilent => hok _ usageId ht hsilent u hu
  · next strategy id bufferSize c ht =>
    cases hstep
    have hlocked : (s.thread t).locked = true := by rw [ht]; rfl
    have hmutex := h.locked t hlocked
    split
    · exact h.body_step hlocked (by simp [ht]) (.inl hmutex) (fun _ hp => by cases hp)
        fun _ _ _ _ => .inl rfl
    · next hregisters =>
      refine h.body_step hlocked (by simp [ht]) (.inl hmutex) (fun _ hp => by cases hp)
        fun u usageId hu hnone => .inr (lookup_initClient hnone ?_)
      rintro rfl
      -- a client that registers without a notification would leave this sleeper asleep
      refine hok _ (cString id) ht ?_ u hu
      unfold RegistryCall.insertsSilently
      dsimp only
      split
      · next o ho => simp [ho] at hregisters
      · rfl
  · next o ht =>
    cases hstep
    have hlocked : (s.thread t).locked = true := by rw [ht]; rfl
    exact h.body_step hlocked (by simp [ht]) (.inl (h.locked t hlocked)) (fun _ hp => by cases hp)
      fun _ _ _ _ => .inl rfl
  · next token ht =>
    obtain ⟨registry, hclose, rfl⟩ := Option.map_eq_some_iff.mp hstep
    have hlocked : (s.thread t).locked = true := by rw [ht]; rfl
    exact h.body_step hlocked (by simp [ht]) (.inl (h.locked t hlocked)) (fun _ hp => by cases hp)
      fun _ _ _ hnone => .inr (lookup_close hnone hclose)
  · cases hstep

/-- A step of a thread that does not have the mutex. -/
theorem move (h : Awaited s) (ht : (s.thread t).locked = false) {p : RegistryThread}
    (hp : p.locked = false) (hawake : ∀ usageId, p ≠ .asleep usageId) :
    Awaited (s.setThread t p) := by
  constructor
  · intro u hu
    by_cases hut : u = t
    · subst hut
      rw [RegistryThreads.thread_setThread_self, hp] at hu
      cases hu
    · rw [RegistryThreads.thread_setThread_ne _ _ hut] at hu
      exact h.locked u hu
  · intro u usageId hu
    by_cases hut : u = t
    · subst hut
      rw [RegistryThreads.thread_setThread_self] at hu
      exact absurd hu (hawake usageId)
    · rw [RegistryThreads.thread_setThread_ne _ _ hut] at hu
      rcases h.asleep u usageId hu with hnone | ⟨v, hv⟩
      · exact .inl hnone
      · -- the thread that will notify has the mutex, so it is not the one that moves
        have hvt : v ≠ t := by
          rintro rfl
          rw [hv] at ht
          cases ht
        exact .inr ⟨v, (RegistryThreads.thread_setThread_ne _ _ hvt _).trans hv⟩

theorem lock (h : Awaited s) (hstep : s.lock t = some s') : Awaited s' := by
  rw [RegistryThreads.lock] at hstep
  split at hstep
  · next c ht hfree =>
    cases hstep
    constructor
    · intro u hu
      by_cases hut : u = t
      · exact congrArg some hut.symm
      · rw [RegistryThreads.thread_setThread_ne _ _ hut] at hu
        cases (h.locked u hu).symm.trans hfree
    · intro u usageId hu
      have hut : u ≠ t := by
        rintro rfl
        rw [RegistryThreads.thread_setThread_self] at hu
        cases hu
      rw [RegistryThreads.thread_setThread_ne _ _ hut] at hu
      exact .inl (h.noLostWakeUp hfree u usageId hu)
  · cases hstep

theorem notifyAll (h : Awaited s) (hstep : s.notifyAll t = some s') : Awaited s' := by
  rw [RegistryThreads.notifyAll] at hstep
  split at hstep
  · next ht =>
    cases hstep
    constructor
    · intro u hu
      by_cases hut : u = t
      · subst hut
        exact h.locked u (by rw [ht]; rfl)
      · rw [RegistryThreads.thread_setThread_ne _ _ hut, RegistryThread.locked_wake] at hu
        exact h.locked u hu
    · -- nobody sleeps after a notification
      intro u usageId hu
      by_cases hut : u = t
      · subst hut
        rw [RegistryThreads.thread_setThread_self] at hu
        cases hu
      · rw [RegistryThreads.thread_setThread_ne _ _ hut] at hu
        exact absurd hu (RegistryThread.wake_ne_asleep _ _)
  · cases hstep

theorem unlock (h : Awaited s) (hstep : s.unlock t = some s') : Awaited s' := by
  rw [RegistryThreads.unlock] at hstep
  split at hstep
  · next ht =>
    cases hstep
    have hlocked : (s.thread t).locked = true := by rw [ht]; rfl
    exact h.body_step hlocked (by simp [ht]) (.inr ⟨rfl, rfl⟩) (fun _ hp => by cases hp)
      fun _ _ _ hnone => .inr hnone
  · cases hstep

/-- Every step that meets the condition leaves no sleeper behind. -/
theorem next (h : Awaited s) {a : RegistryThreadStep τ} (hok : InsertsUnawaited s a)
    (hstep : registryThreads.next s a = some s') : Awaited s' := by
  cases a with
  | call t c =>
    change s.call t c = some s' at hstep
    rw [RegistryThreads.call] at hstep
    split at hstep
    · next ht =>
      cases hstep
      exact h.move (by rw [ht]; rfl) rfl fun _ hp => by cases hp
    · cases hstep
  | lock t => exact h.lock hstep
  | body t => exact h.body hok hstep
  | notifyAll t => exact h.notifyAll hstep
  | unlock t => exact h.unlock hstep
  | wake t =>
    change s.wake t = some s' at hstep
    rw [RegistryThreads.wake] at hstep
    split at hstep
    · next usageId ht =>
      cases hstep
      refine h.move (by rw [ht]; rfl) ?_ fun id => RegistryThread.wake_ne_asleep _ id
      rw [ht]
      rfl
    · cases hstep

/-- What a call that does not notify inserts. -/
theorem isSome_lookup_body {c : RegistryCall} {usageId : Bytes} (hc : s.thread t = .holding c)
    (hsilent : c.insertsSilently = some usageId) (hstep : s.body t = some s') :
    s'.thread = Function.update s.thread t .leaving ∧
      (s'.registry.buffers.lookup usageId).isSome := by
  cases c with
  | initOwner strategy bufferSize =>
    obtain ⟨o, ho, rfl⟩ := Option.map_eq_some_iff.mp hsilent
    simp only [RegistryThreads.body, hc, Registry.initOwnerSidebandData, ho] at hstep
    cases hstep
    exact ⟨rfl, isSome_lookup_emplace⟩
  | initClient strategy id bufferSize c =>
    simp only [RegistryThreads.body, hc, Registry.initClientSidebandData] at hstep
    cases ho : clientObject strategy (cString id) bufferSize c with
    | none =>
      simp only [RegistryCall.insertsSilently, ho] at hsilent hstep
      cases hsilent
      cases hstep
      exact ⟨rfl, isSome_lookup_emplace⟩
    | some o =>
      cases o with
      | rdma o => simp [RegistryCall.insertsSilently, ho] at hsilent
      | _ =>
        simp only [RegistryCall.insertsSilently, ho] at hsilent hstep
        cases hsilent
        cases hstep
        exact ⟨rfl, isSome_lookup_emplace⟩
  | _ => cases hsilent

/-- The condition is needed: otherwise a wake-up is lost as soon as the call releases the mutex. -/
theorem insertsUnawaited {s'' : RegistryThreads τ} (hstep : s.body t = some s')
    (hunlock : s'.unlock t = some s'') (hwake : NoLostWakeUp s'') :
    InsertsUnawaited s (.body t) := by
  intro c usageId hc hsilent u hu
  obtain ⟨hthread, hsome⟩ := isSome_lookup_body hc hsilent hstep
  have hut : u ≠ t := by
    rintro rfl
    cases hc.symm.trans hu
  have hleaving : s'.thread t = .leaving := by rw [hthread, Function.update_self]
  simp only [RegistryThreads.unlock, hleaving] at hunlock
  cases hunlock
  have hasleep : Function.update s'.thread t .idle u = .asleep usageId := by
    rw [Function.update_of_ne hut, hthread, Function.update_of_ne hut, hu]
  have hnone : s'.registry.buffers.lookup usageId = none := hwake rfl u usageId hasleep
  simp [hnone] at hsome

end Awaited

/-- **No lost wake-up**, in every run that inserts silently only where nobody waits. The two
functions that insert without a `notify_all` are the silent ones; wake-ups may be spurious, and
any number of threads may ask for any ids. -/
theorem noLostWakeUp_of_reachable {τ : Type} [DecidableEq τ] {s : RegistryThreads τ}
    (hs : registryThreads.Reachable InsertsUnawaited s) : NoLostWakeUp s := by
  have hawaited : Awaited s := by
    refine hs.invariant (fun s hinit => ?_) fun s a s' h hok hstep => h.next hok hstep
    obtain rfl : s = {} := hinit
    constructor
    · intro t ht
      cases ht
    · intro t usageId ht
      cases ht
  exact hawaited.noLostWakeUp

/-- A thread asks for an id, sleeps, and is notified when the handle is registered; an owner's
handle is inserted while somebody sleeps for another id. -/
theorem noLostWakeUp_of_reachable_run : ∃ s : RegistryThreads Bool,
    registryThreads.Reachable InsertsUnawaited s ∧ s.registry.buffers.keys.length = 2 ∧
    NoLostWakeUp s := by
  have hexec : (registryThreads.execWhile (fun (s : RegistryThreads Bool) => fun
        | .body t => match s.thread t with
          | .holding c => c.insertsSilently.all fun usageId =>
              [true, false].all fun t' => match s.thread t' with
                | .asleep awaited => awaited != usageId
                | _ => true
          | _ => true
        | _ => true) {}
      [.call true (.getToken (connectionId 2)), .lock true, .body true,
        .call false (.initOwner .sharedMemory 8), .lock false, .body false, .unlock false,
        .call false (.initFromConnection (.sockets (.new 8 ⟨connectionId 2, 5, false, {}⟩))),
        .lock false, .body false, .notifyAll false, .unlock false, .lock true, .body true,
        .unlock true]).map (fun s => s.registry.buffers.keys.length) = some 2 := by
    decide +kernel
  obtain ⟨s, hexec, hlength⟩ := Option.map_eq_some_iff.mp hexec
  have hs : registryThreads.Reachable InsertsUnawaited s := by
    refine (Machine.Reachable.init rfl).execWhile ?_ hexec
    intro s a _ hp
    cases a with
    | body t =>
      intro c usageId hc hsilent t' ht'
      simp only [hc, hsilent, Option.all_some] at hp
      have hawaited := List.all_eq_true.mp hp t' (by cases t' <;> simp)
      simp [ht'] at hawaited
    | _ => exact trivial
  exact ⟨s, hs, hlength, noLostWakeUp_of_reachable hs⟩

/-- A thread that asks before `InitOwnerSidebandData` is called sleeps on. -/
theorem not_noLostWakeUp_initOwner : ¬ ∀ s : RegistryThreads Bool,
    registryThreads.Reachable Anything s → NoLostWakeUp s := by
  intro h
  have hexec : (registryThreads.exec ({} : RegistryThreads Bool)
      [.call true (.getToken (ascii "TestBuffer".toList)), .lock true, .body true,
        .call false (.initOwner .sharedMemory 8), .lock false, .body false, .unlock false]).map
      (fun s => (s.mutex.isNone, (match s.thread true with
        | .asleep usageId => (s.registry.buffers.lookup usageId).isSome
        | _ => false))) = some (true, true) := by
    decide +kernel
  obtain ⟨s, hs, hend⟩ := Option.map_eq_some_iff.mp hexec
  obtain ⟨hfree, hasleep⟩ := Prod.mk.inj hend
  have hmutex : s.mutex = none := Option.isNone_iff_eq_none.mp hfree
  cases hthread : s.thread true with
  | asleep usageId =>
    have hnone := h s (Machine.exec_reachable rfl hs) hmutex true usageId hthread
    simp [hthread, hnone] at hasleep
  | _ => simp [hthread] at hasleep

end Sideband
