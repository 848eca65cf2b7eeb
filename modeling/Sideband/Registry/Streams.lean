import Mathlib.Data.List.TakeWhile
import Sideband.Registry.Handles

/-!
# Streams that share the registry

A stream asks for a handle with `InitOwnerSidebandData`, obtains its token with
`GetOwnerSidebandDataToken`, uses it and closes it once. A shared memory stream gets the fixed
id `TestBuffer`; a connection's stream gets one from the counter, and its handle is registered
when its client has connected.

* `Isolated` is what the streams are promised: their ids differ, a shared memory token is that of
  the handle created for the stream, and nothing is used or deleted after it was deleted.
* `isolated_of_reachable`: this is so as long as no shared memory stream is started while another
  one is open, and no id is drawn that an open stream has (`StartsAlone`); a stream started
  otherwise breaks the promise (`Owned.startsAlone`).
* `not_isolated_shared_memory`: two shared memory streams delete one handle twice.
-/

namespace Sideband

open Foundation

/-- A stream, with what its calls returned and the handle that was created for it. The stream
itself does not know the handle, only the id and the token. -/
structure OwnerStream where
  strategy : SidebandStrategy
  bufferSize : ℤ
  id : Bytes
  created : Option ℕ
  token : Option ℕ := none
  closed : Bool := false

/-- The streams of a process and their registry. -/
structure OwnerStreams (ι : Type) where
  registry : Registry := {}
  stream : ι → Option OwnerStream := fun _ => none
  /-- A token that denotes no object was used or closed. -/
  faulted : Bool := false

/-- A call of a stream, or the registration of its client's connection. -/
inductive OwnerStep (ι : Type)
  | init (i : ι) (strategy : SidebandStrategy) (bufferSize : ℤ)
  /-- The stream's client has connected, and the accept thread registers the object. -/
  | connected (i : ι) (o : SidebandObject)
  | getToken (i : ι)
  /-- Any call with the stream's token. -/
  | use (i : ι)
  | close (i : ι)

namespace OwnerStreams

variable {ι : Type}

/-- The stream was started and has not been closed. Its client may not have connected yet. -/
def Runs (s : OwnerStreams ι) (i : ι) (x : OwnerStream) : Prop :=
  s.stream i = some x ∧ x.closed = false

variable [DecidableEq ι] (s : OwnerStreams ι) (i : ι)

def withRegistry (registry : Registry) : OwnerStreams ι := { s with registry }

def setStream (x : OwnerStream) : OwnerStreams ι :=
  { s with stream := Function.update s.stream i (some x) }

/-- `InitOwnerSidebandData`, with a strategy it supports. -/
def init (strategy : SidebandStrategy) (bufferSize : ℤ) : Option (OwnerStreams ι) :=
  match s.stream i, s.registry.initOwnerSidebandData strategy bufferSize with
  | none, ((_, some id), registry) => some ((s.withRegistry registry).setStream i
      { strategy := strategy, bufferSize := bufferSize, id := id
        created := if strategy.connects then none else some s.registry.nextToken })
  | _, _ => none

/-- `InitFromConnection`, for a connection that has sent the stream's id. -/
def connected (o : SidebandObject) : Option (OwnerStreams ι) :=
  match s.stream i with
  | some x =>
    if x.closed = false ∧ x.strategy.connects ∧ x.created = none ∧ o.usageId = x.id then
      some ((s.withRegistry (s.registry.initFromConnection o)).setStream i
        { x with created := some s.registry.nextToken })
    else none
  | none => none

/-- `GetOwnerSidebandDataToken`, asked for by the stream once. -/
def getToken : Option (OwnerStreams ι) :=
  match s.stream i with
  | some x =>
    if x.closed = false ∧ x.token = none then
      (s.registry.getOwnerSidebandDataToken x.id).map fun (token, registry) =>
        (s.withRegistry registry).setStream i { x with token := some token }
    else none
  | none => none

/-- Any call with the stream's token, which is one on the object that it denotes. If it denotes
none, the call is recorded as a fault. -/
def use : Option (OwnerStreams ι) :=
  match s.stream i with
  | some x =>
    if x.closed = false then
      x.token.map fun token =>
        { s with faulted := s.faulted || (s.registry.objects token).isNone }
    else none
  | none => none

/-- `CloseSidebandData`, called by the stream once. -/
def close : Option (OwnerStreams ι) :=
  match s.stream i with
  | some x =>
    if x.closed = false then
      x.token.map fun token =>
        match s.registry.closeSidebandData token with
        | some registry => (s.withRegistry registry).setStream i { x with closed := true }
        | none => ({ s with faulted := true }).setStream i { x with closed := true }
    else none
  | none => none

end OwnerStreams

/-- Any number of streams that share the registry, their calls in any order. Each is started
once, asks for its token once and closes once, and uses the token in between as often as it
likes; a connection sends the id of the stream that it is for. What the calls do to the memory
behind a handle is left out. -/
def ownerStreams {ι : Type} [DecidableEq ι] : Machine (OwnerStreams ι) (OwnerStep ι) where
  init s := s = {}
  next s
    | .init i strategy bufferSize => s.init i strategy bufferSize
    | .connected i o => s.connected i o
    | .getToken i => s.getToken i
    | .use i => s.use i
    | .close i => s.close i

/-- A stream is started while no stream with the same source of ids is open, or its id is drawn
and is not that of an open stream. All shared memory streams have one source, the fixed id. -/
def StartsAlone {ι : Type} (s : OwnerStreams ι) : OwnerStep ι → Prop
  | .init _ strategy _ => ∀ j x, s.Runs j x → x.strategy.connects = strategy.connects →
      strategy.connects = true ∧ x.id ≠ cString (nextConnectionId s.registry.nextId).1
  | _ => True

/-- What the streams are promised in a state: none gets the handle of another one, and none uses
or closes a handle that is gone. -/
structure Isolated {ι : Type} (s : OwnerStreams ι) : Prop where
  distinct : ∀ i j x y, s.Runs i x → s.Runs j y → x.id = y.id → i = j
  /-- A shared memory token is that of the handle that was created for the stream, as it was
  asked for. -/
  token : ∀ i x token, s.Runs i x → x.strategy.connects = false → x.token = some token →
    x.created = some token ∧ s.registry.objects token = ownerObject x.strategy x.bufferSize
  unfaulted : s.faulted = false

/-! ### Ids -/

theorem cString_cString (b : Bytes) : cString (cString b) = cString b := List.takeWhile_idem

/-- The id of both shared memory strategies. -/
theorem usageId_of_ownerObject {strategy : SidebandStrategy} {bufferSize : ℤ} {o : SidebandObject}
    (h : ownerObject strategy bufferSize = some o) :
    o.usageId = ascii "TestBuffer".toList ∧ strategy.connects = false := by
  cases strategy <;> cases h <;> exact ⟨rfl, rfl⟩

/-- No id that is drawn is the fixed one. -/
theorem cString_nextConnectionId_ne (nextId : ℤ) :
    cString (nextConnectionId nextId).1 ≠ cString (ascii "TestBuffer".toList) := by
  intro h
  have hhead := congrArg List.head? h
  have hdrawn : (cString (nextConnectionId nextId).1).head? = some 73 := rfl
  rw [hdrawn] at hhead
  exact absurd hhead (by decide)

/-! ### Isolation -/

/-- Every open handle is that of one open stream, under the stream's id. This is the invariant
behind the promise. -/
structure Owned {ι : Type} (s : OwnerStreams ι) : Prop where
  agrees : s.registry.Agrees
  distinct : ∀ i j x y, s.Runs i x → s.Runs j y → x.id = y.id → i = j
  id : ∀ i x, s.Runs i x → x.id = cString x.id ∧
    (x.id = cString (ascii "TestBuffer".toList) ↔ x.strategy.connects = false)
  created : ∀ i x token, s.Runs i x → x.created = some token →
    ∃ o, s.registry.objects token = some o ∧ o.usageId = x.id ∧
      (x.strategy.connects = false → ownerObject x.strategy x.bufferSize = some o)
  owner : ∀ token o, s.registry.objects token = some o →
    ∃ i x, s.Runs i x ∧ x.created = some token
  token : ∀ i x token, s.Runs i x → x.token = some token → x.created = some token
  unfaulted : s.faulted = false

namespace OwnerStreams

variable {ι : Type} [DecidableEq ι] {s s' : OwnerStreams ι} {i j : ι} {x y : OwnerStream}

theorem runs_setStream (h : (s.setStream i x).Runs j y) :
    (j = i ∧ y = x) ∨ (j ≠ i ∧ s.Runs j y) := by
  obtain ⟨hstream, hclosed⟩ := h
  have hstream : Function.update s.stream i (some x) j = some y := hstream
  rcases update_some_eq_some_iff.mp hstream with hself | ⟨hj, hold⟩
  · exact .inl hself
  · exact .inr ⟨hj, hold, hclosed⟩

theorem runs_setStream_self (h : x.closed = false) : (s.setStream i x).Runs i x :=
  ⟨Function.update_self _ _ _, h⟩

theorem runs_setStream_of_ne (hj : j ≠ i) (h : s.Runs j y) : (s.setStream i x).Runs j y :=
  ⟨(Function.update_of_ne hj _ _).trans h.1, h.2⟩

/-- A stream starts with a handle of its own or with an id that is drawn. -/
theorem init_eq_some {strategy : SidebandStrategy} {bufferSize : ℤ}
    (h : s.init i strategy bufferSize = some s') : s.stream i = none ∧
      ((∃ o, ownerObject strategy bufferSize = some o ∧
        s' = (s.withRegistry ((s.registry.create o).emplace o.usageId
            s.registry.nextToken)).setStream i
          { strategy := strategy, bufferSize := bufferSize, id := cString o.usageId,
            created := some s.registry.nextToken }) ∨
      (strategy.connects = true ∧
        s' = (s.withRegistry { s.registry with
            nextId := (nextConnectionId s.registry.nextId).2 }).setStream i
          { strategy := strategy, bufferSize := bufferSize,
            id := cString (nextConnectionId s.registry.nextId).1, created := none })) := by
  rw [init, Registry.initOwnerSidebandData] at h
  cases hstream : s.stream i with
  | some x => simp [hstream] at h
  | none =>
    refine ⟨rfl, ?_⟩
    cases ho : ownerObject strategy bufferSize with
    | some o =>
      have hconnects := (usageId_of_ownerObject ho).2
      simp only [hstream, ho, hconnects] at h
      cases h
      exact .inl ⟨o, rfl, rfl⟩
    | none =>
      by_cases hconnects : strategy.connects = true
      · simp only [hstream, ho, hconnects, if_true] at h
        cases h
        exact .inr ⟨hconnects, rfl⟩
      · simp [hstream, ho, hconnects] at h

theorem connected_eq_some {o : SidebandObject} (h : s.connected i o = some s') :
    ∃ x, s.Runs i x ∧ x.strategy.connects = true ∧ x.created = none ∧ o.usageId = x.id ∧
      s' = (s.withRegistry (s.registry.initFromConnection o)).setStream i
        { x with created := some s.registry.nextToken } := by
  rw [connected] at h
  split at h
  · next x hx =>
    split_ifs at h with hopen
    cases h
    obtain ⟨hclosed, hconnects, hcreated, hid⟩ := hopen
    exact ⟨x, ⟨hx, hclosed⟩, hconnects, hcreated, hid, rfl⟩
  · cases h

theorem getToken_eq_some (h : s.getToken i = some s') : ∃ x token, s.Runs i x ∧
    s.registry.buffers.lookup (cString x.id) = some token ∧
      s' = s.setStream i { x with token := some token } := by
  rw [getToken] at h
  split at h
  · next x hx =>
    split_ifs at h with hopen
    obtain ⟨⟨token, registry⟩, htoken, rfl⟩ := Option.map_eq_some_iff.mp h
    obtain ⟨hlookup, hsame⟩ := Registry.Agrees.eq_of_getToken htoken
    obtain rfl : registry = s.registry := hsame
    exact ⟨x, token, ⟨hx, hopen.1⟩, hlookup, rfl⟩
  · cases h

omit [DecidableEq ι] in
theorem use_eq_some (h : s.use i = some s') : ∃ x token, s.Runs i x ∧ x.token = some token ∧
    s' = { s with faulted := s.faulted || (s.registry.objects token).isNone } := by
  rw [use] at h
  split at h
  · next x hx =>
    split_ifs at h with hclosed
    obtain ⟨token, htoken, rfl⟩ := Option.map_eq_some_iff.mp h
    exact ⟨x, token, ⟨hx, hclosed⟩, htoken, rfl⟩
  · cases h

theorem close_eq_some (h : s.close i = some s') : ∃ x token, s.Runs i x ∧ x.token = some token ∧
    ∀ registry, s.registry.closeSidebandData token = some registry →
      s' = (s.withRegistry registry).setStream i { x with closed := true } := by
  rw [close] at h
  split at h
  · next x hx =>
    split_ifs at h with hclosed
    obtain ⟨token, htoken, rfl⟩ := Option.map_eq_some_iff.mp h
    refine ⟨x, token, ⟨hx, hclosed⟩, htoken, fun registry hregistry => ?_⟩
    rw [hregistry]
  · cases h

end OwnerStreams

namespace Owned

variable {ι : Type} {s s' : OwnerStreams ι} {i j : ι} {x y : OwnerStream} {token : ℕ}

theorem isolated (h : Owned s) : Isolated s := by
  refine ⟨h.distinct, fun i x token hx hconnects htoken => ?_, h.unfaulted⟩
  have hcreated := h.token i x token hx htoken
  obtain ⟨o, ho, -, howner⟩ := h.created i x token hx hcreated
  exact ⟨hcreated, ho.trans (howner hconnects).symm⟩

/-- The open handle with a stream's id is the stream's. -/
theorem created_of_usageId (h : Owned s) (hx : s.Runs i x) {o : SidebandObject}
    (ho : s.registry.objects token = some o) (hid : o.usageId = x.id) :
    x.created = some token := by
  obtain ⟨j, y, hy, hcreated⟩ := h.owner token o ho
  obtain ⟨o', ho', hid', -⟩ := h.created j y token hy hcreated
  obtain rfl := Option.some.inj (ho.symm.trans ho')
  obtain rfl := h.distinct i j x y hx hy (hid.symm.trans hid')
  rwa [← Option.some.inj (hx.1.symm.trans hy.1)] at hcreated

/-- A handle that a stream owns is open. -/
theorem objects_ne (h : Owned s) (hx : s.Runs i x) (hcreated : x.created = some token) :
    token ≠ s.registry.nextToken := by
  rintro rfl
  obtain ⟨o, ho, -⟩ := h.created i x _ hx hcreated
  simp [h.agrees.fresh _ le_rfl] at ho

/-- A token denotes an object as long as its stream is open. -/
theorem objects_token (h : Owned s) (hx : s.Runs i x) (htoken : x.token = some token) :
    ∃ o, s.registry.objects token = some o ∧ o.usageId = x.id := by
  obtain ⟨o, ho, hid, -⟩ := h.created i x token hx (h.token i x token hx htoken)
  exact ⟨o, ho, hid⟩

theorem use (h : Owned s) (hstep : s.use i = some s') : Owned s' := by
  obtain ⟨x, token, hx, htoken, rfl⟩ := OwnerStreams.use_eq_some hstep
  obtain ⟨o, ho, -⟩ := h.objects_token hx htoken
  refine ⟨h.agrees, h.distinct, h.id, h.created, h.owner, h.token, ?_⟩
  simp [h.unfaulted, ho]

variable [DecidableEq ι]

/-- A stream with an id that no open stream has keeps the ids apart. -/
theorem distinct_setStream (h : Owned s) (registry : Registry) (x : OwnerStream)
    (hother : ∀ j y, s.Runs j y → y.id ≠ x.id) :
    ∀ j k y z, ((s.withRegistry registry).setStream i x).Runs j y →
      ((s.withRegistry registry).setStream i x).Runs k z → y.id = z.id → j = k := by
  intro j k y z hy hz heq
  rcases OwnerStreams.runs_setStream hy with ⟨rfl, rfl⟩ | ⟨-, hy'⟩
  · rcases OwnerStreams.runs_setStream hz with ⟨rfl, -⟩ | ⟨-, hz'⟩
    · rfl
    · exact absurd heq.symm (hother k z hz')
  · rcases OwnerStreams.runs_setStream hz with ⟨rfl, rfl⟩ | ⟨-, hz'⟩
    · exact absurd heq (hother j y hy')
    · exact h.distinct j k y z hy' hz' heq

/-- A shared memory stream starts while no other one is open. -/
theorem init_owned (h : Owned s) (hnew : s.stream i = none) {strategy : SidebandStrategy}
    {bufferSize : ℤ} {o : SidebandObject} (ho : ownerObject strategy bufferSize = some o)
    (hfresh : ∀ j y, s.Runs j y → y.strategy.connects = true) :
    Owned ((s.withRegistry ((s.registry.create o).emplace o.usageId s.registry.nextToken)).setStream
      i { strategy := strategy, bufferSize := bufferSize, id := cString o.usageId,
          created := some s.registry.nextToken }) := by
  obtain ⟨hid, hconnects⟩ := usageId_of_ownerObject ho
  -- the id is the fixed one, which no open stream has
  have hother {j : ι} {y : OwnerStream} (hy : s.Runs j y) : y.id ≠ cString o.usageId := by
    rw [hid]
    intro heq
    have hfixed := ((h.id j y hy).2).mp heq
    simp [hfresh j y hy] at hfixed
  -- an open handle would be that of a stream with this id
  have hnotOpen : ¬ s.registry.Open o.usageId := by
    rintro ⟨token, o', ho', hid'⟩
    obtain ⟨j, y, hy, hcreated⟩ := h.owner token o' ho'
    obtain ⟨o'', ho'', hid'', -⟩ := h.created j y token hy hcreated
    obtain rfl := Option.some.inj (ho'.symm.trans ho'')
    refine hother hy ?_
    rw [← hid', hid'', ← (h.id j y hy).1]
  refine ⟨h.agrees.create hnotOpen, h.distinct_setStream _ _ fun j y hy => hother hy, ?_, ?_, ?_,
    ?_, h.unfaulted⟩
  · intro j x hx
    rcases OwnerStreams.runs_setStream hx with ⟨rfl, rfl⟩ | ⟨-, hx⟩
    · refine ⟨(cString_cString _).symm, ?_⟩
      exact iff_of_true (congrArg cString hid) hconnects
    · exact h.id j x hx
  · intro j x token hx hcreated
    rcases OwnerStreams.runs_setStream hx with ⟨rfl, rfl⟩ | ⟨-, hx⟩
    · obtain rfl := Option.some.inj hcreated
      refine ⟨o, Function.update_self _ _ _, ?_, fun _ => ho⟩
      exact hid.trans (congrArg cString hid).symm
    · obtain ⟨o', ho', hpast⟩ := h.created j x token hx hcreated
      exact ⟨o', update_some_eq_some_iff.mpr (.inr ⟨h.objects_ne hx hcreated, ho'⟩), hpast⟩
  · intro token o' ho'
    rcases update_some_eq_some_iff.mp ho' with ⟨rfl, -⟩ | ⟨-, hold⟩
    · exact ⟨i, _, OwnerStreams.runs_setStream_self rfl, rfl⟩
    · obtain ⟨j, y, hy, hcreated⟩ := h.owner token o' hold
      refine ⟨j, y, OwnerStreams.runs_setStream_of_ne ?_ hy, hcreated⟩
      rintro rfl
      simp [hy.1] at hnew
  · intro j x token hx htoken
    rcases OwnerStreams.runs_setStream hx with ⟨rfl, rfl⟩ | ⟨-, hx⟩
    · cases htoken
    · exact h.token j x token hx htoken

/-- A connection's stream starts with an id that no open stream has. -/
theorem init_drawn (h : Owned s) (hnew : s.stream i = none) {strategy : SidebandStrategy}
    {bufferSize : ℤ} (hconnects : strategy.connects = true)
    (hfresh : ∀ j y, s.Runs j y → y.strategy.connects = true →
      y.id ≠ cString (nextConnectionId s.registry.nextId).1) :
    Owned ((s.withRegistry { s.registry with
        nextId := (nextConnectionId s.registry.nextId).2 }).setStream i
      { strategy := strategy, bufferSize := bufferSize,
        id := cString (nextConnectionId s.registry.nextId).1, created := none }) := by
  -- a drawn id is different from the fixed one, and from the other drawn ones by hypothesis
  have hother {j : ι} {y : OwnerStream} (hy : s.Runs j y) :
      y.id ≠ cString (nextConnectionId s.registry.nextId).1 := by
    by_cases hkind : y.strategy.connects = true
    · exact hfresh j y hy hkind
    · rw [((h.id j y hy).2).mpr (Bool.eq_false_iff.mpr hkind)]
      exact (cString_nextConnectionId_ne _).symm
  refine ⟨⟨h.agrees.lookup, h.agrees.fresh⟩, h.distinct_setStream _ _ fun j y hy => hother hy, ?_,
    ?_, ?_, ?_, h.unfaulted⟩
  · intro j x hx
    rcases OwnerStreams.runs_setStream hx with ⟨rfl, rfl⟩ | ⟨-, hx⟩
    · refine ⟨(cString_cString _).symm, iff_of_false (cString_nextConnectionId_ne _) ?_⟩
      simp [hconnects]
    · exact h.id j x hx
  · intro j x token hx hcreated
    rcases OwnerStreams.runs_setStream hx with ⟨rfl, rfl⟩ | ⟨-, hx⟩
    · cases hcreated
    · exact h.created j x token hx hcreated
  · intro token o ho
    obtain ⟨j, y, hy, hcreated⟩ := h.owner token o ho
    refine ⟨j, y, OwnerStreams.runs_setStream_of_ne ?_ hy, hcreated⟩
    rintro rfl
    simp [hy.1] at hnew
  · intro j x token hx htoken
    rcases OwnerStreams.runs_setStream hx with ⟨rfl, rfl⟩ | ⟨-, hx⟩
    · cases htoken
    · exact h.token j x token hx htoken

/-- A step of an open stream that keeps its id and its strategy keeps the ids apart. -/
theorem ids_setStream (h : Owned s) (hx : s.Runs i x) (x' : OwnerStream) (registry : Registry)
    (hid : x'.id = x.id) (hstrategy : x'.strategy = x.strategy) :
    (∀ j k y z, ((s.withRegistry registry).setStream i x').Runs j y →
      ((s.withRegistry registry).setStream i x').Runs k z → y.id = z.id → j = k) ∧
    (∀ j y, ((s.withRegistry registry).setStream i x').Runs j y → y.id = cString y.id ∧
      (y.id = cString (ascii "TestBuffer".toList) ↔ y.strategy.connects = false)) := by
  have hold {j : ι} {y : OwnerStream}
      (hy : ((s.withRegistry registry).setStream i x').Runs j y) :
      ∃ z, s.Runs j z ∧ y.id = z.id ∧ y.strategy = z.strategy := by
    rcases OwnerStreams.runs_setStream hy with ⟨rfl, rfl⟩ | ⟨-, hy⟩
    · exact ⟨x, hx, hid, hstrategy⟩
    · exact ⟨y, hy, rfl, rfl⟩
  constructor
  · intro j k y z hy hz heq
    obtain ⟨y', hy', hyid, -⟩ := hold hy
    obtain ⟨z', hz', hzid, -⟩ := hold hz
    exact h.distinct j k y' z' hy' hz' (hyid.symm.trans (heq.trans hzid))
  · intro j y hy
    obtain ⟨y', hy', hyid, hystrategy⟩ := hold hy
    rw [hyid, hystrategy]
    exact h.id j y' hy'

/-- The handle of a stream whose client has connected. -/
theorem connected (h : Owned s) {o : SidebandObject} (hstep : s.connected i o = some s') :
    Owned s' := by
  obtain ⟨x, hx, hconnects, hnone, hid, rfl⟩ := OwnerStreams.connected_eq_some hstep
  -- an open handle with this id would be the stream's, which has none yet
  have hfresh : ¬ s.registry.Open o.usageId := by
    rintro ⟨token, o', ho', hid'⟩
    rw [h.created_of_usageId hx ho' (hid'.trans hid)] at hnone
    cases hnone
  obtain ⟨hdistinct, hids⟩ := h.ids_setStream hx { x with created := some s.registry.nextToken }
    ((s.registry.create o).emplace o.usageId s.registry.nextToken) rfl rfl
  refine ⟨h.agrees.create hfresh, hdistinct, hids, ?_, ?_, ?_, h.unfaulted⟩
  · intro j y token hy hcreated
    rcases OwnerStreams.runs_setStream hy with ⟨rfl, rfl⟩ | ⟨-, hy⟩
    · obtain rfl := Option.some.inj hcreated
      refine ⟨o, Function.update_self _ _ _, hid, fun hkind => ?_⟩
      simp [hconnects] at hkind
    · obtain ⟨o', ho', hpast⟩ := h.created j y token hy hcreated
      exact ⟨o', update_some_eq_some_iff.mpr (.inr ⟨h.objects_ne hy hcreated, ho'⟩), hpast⟩
  · intro token o' ho'
    rcases update_some_eq_some_iff.mp ho' with ⟨rfl, -⟩ | ⟨-, hold⟩
    · exact ⟨i, _, OwnerStreams.runs_setStream_self hx.2, rfl⟩
    · obtain ⟨j, y, hy, hcreated⟩ := h.owner token o' hold
      refine ⟨j, y, OwnerStreams.runs_setStream_of_ne ?_ hy, hcreated⟩
      rintro rfl
      rw [Option.some.inj (hy.1.symm.trans hx.1), hnone] at hcreated
      cases hcreated
  · intro j y token hy htoken
    rcases OwnerStreams.runs_setStream hy with ⟨rfl, rfl⟩ | ⟨-, hy⟩
    · have hcreated := h.token j x token hx htoken
      rw [hnone] at hcreated
      cases hcreated
    · exact h.token j y token hy htoken

/-- What is found under the stream's id is the stream's handle. -/
theorem getToken (h : Owned s) (hstep : s.getToken i = some s') : Owned s' := by
  obtain ⟨x, token, hx, hlookup, rfl⟩ := OwnerStreams.getToken_eq_some hstep
  obtain ⟨o, ho, hid⟩ := (h.agrees.lookup _ _).mp hlookup
  rw [← (h.id i x hx).1] at hid
  obtain ⟨hdistinct, hids⟩ := h.ids_setStream hx { x with token := some token } s.registry rfl rfl
  refine ⟨h.agrees, hdistinct, hids, ?_, ?_, ?_, h.unfaulted⟩
  · intro j y t hy hcreated
    rcases OwnerStreams.runs_setStream hy with ⟨rfl, rfl⟩ | ⟨-, hy⟩
    · exact h.created j x t hx hcreated
    · exact h.created j y t hy hcreated
  · intro t o' ho'
    obtain ⟨j, y, hy, hcreated⟩ := h.owner t o' ho'
    by_cases hj : j = i
    · subst hj
      obtain rfl := Option.some.inj (hy.1.symm.trans hx.1)
      exact ⟨j, _, OwnerStreams.runs_setStream_self hy.2, hcreated⟩
    · exact ⟨j, y, OwnerStreams.runs_setStream_of_ne hj hy, hcreated⟩
  · intro j y t hy htoken
    rcases OwnerStreams.runs_setStream hy with ⟨rfl, rfl⟩ | ⟨-, hy⟩
    · obtain rfl := Option.some.inj htoken
      have hcreated : x.created = some token := h.created_of_usageId hx ho hid
      exact hcreated
    · exact h.token j y t hy htoken

theorem close (h : Owned s) (hstep : s.close i = some s') : Owned s' := by
  obtain ⟨x, token, hx, htoken, hclose⟩ := OwnerStreams.close_eq_some hstep
  obtain ⟨o, ho, hid⟩ := h.objects_token hx htoken
  have hregistry : s.registry.closeSidebandData token = some { s.registry with
      buffers := s.registry.buffers.erase o.usageId
      objects := Function.update s.registry.objects token none } := by
    rw [Registry.closeSidebandData, ho]
  obtain rfl := hclose _ hregistry
  -- an open stream after the step is another one, and was open before
  have hruns {j : ι} {y : OwnerStream} {registry : Registry}
      (hy : ((s.withRegistry registry).setStream i { x with closed := true }).Runs j y) :
      j ≠ i ∧ s.Runs j y := by
    rcases OwnerStreams.runs_setStream hy with ⟨rfl, rfl⟩ | hy'
    · cases hy.2
    · exact hy'
  have hcreated := h.token i x token hx htoken
  refine ⟨h.agrees.close hregistry, ?_, ?_, ?_, ?_, ?_, h.unfaulted⟩
  · intro j k y z hy hz
    exact h.distinct j k y z (hruns hy).2 (hruns hz).2
  · intro j y hy
    exact h.id j y (hruns hy).2
  · intro j y t hy hycreated
    obtain ⟨hj, hy'⟩ := hruns hy
    obtain ⟨o', ho', hyid, howner⟩ := h.created j y t hy' hycreated
    refine ⟨o', update_none_eq_some_iff.mpr ⟨?_, ho'⟩, hyid, howner⟩
    rintro rfl
    obtain rfl := Option.some.inj (ho.symm.trans ho')
    exact hj (h.distinct j i y x hy' hx (hyid.symm.trans hid))
  -- a handle that is still there belongs to another stream
  · intro t o' ho'
    obtain ⟨hne, hold⟩ := update_none_eq_some_iff.mp ho'
    obtain ⟨j, y, hy, hycreated⟩ := h.owner t o' hold
    refine ⟨j, y, OwnerStreams.runs_setStream_of_ne ?_ hy, hycreated⟩
    rintro rfl
    obtain rfl := Option.some.inj (hy.1.symm.trans hx.1)
    exact hne (Option.some.inj (hycreated.symm.trans hcreated))
  · intro j y t hy
    exact h.token j y t (hruns hy).2

/-- Every step that meets the condition keeps the streams apart. -/
theorem next (h : Owned s) {a : OwnerStep ι} (hok : StartsAlone s a)
    (hstep : ownerStreams.next s a = some s') : Owned s' := by
  cases a with
  | init i strategy bufferSize =>
    obtain ⟨hnew, ⟨o, ho, rfl⟩ | ⟨hconnects, rfl⟩⟩ := OwnerStreams.init_eq_some hstep
    · refine h.init_owned hnew ho fun j y hy => Bool.not_eq_false _ ▸ fun hkind => ?_
      have hnone := (hok j y hy (hkind.trans (usageId_of_ownerObject ho).2.symm)).1
      simp [(usageId_of_ownerObject ho).2] at hnone
    · exact h.init_drawn hnew hconnects fun j y hy hkind =>
        (hok j y hy (hkind.trans hconnects.symm)).2
  | connected i o => exact h.connected hstep
  | getToken i => exact h.getToken hstep
  | use i => exact h.use hstep
  | close i => exact h.close hstep

/-- The condition is needed: a stream that starts otherwise gets the id of an open one. -/
theorem startsAlone (h : Owned s) {a : OwnerStep ι} (hstep : ownerStreams.next s a = some s')
    (hisolated : Isolated s') : StartsAlone s a := by
  cases a with
  | init i strategy bufferSize =>
    intro j y hy hkind
    obtain ⟨hnew, ⟨o, ho, rfl⟩ | ⟨hconnects, rfl⟩⟩ := OwnerStreams.init_eq_some hstep
    · obtain ⟨hid, hfixed⟩ := usageId_of_ownerObject ho
      have hj : j ≠ i := by
        rintro rfl
        simp [hy.1] at hnew
      refine absurd (hisolated.distinct j i y _ (OwnerStreams.runs_setStream_of_ne hj hy)
        (OwnerStreams.runs_setStream_self rfl) ?_) hj
      exact (((h.id j y hy).2).mpr (hkind.trans hfixed)).trans (congrArg cString hid).symm
    · have hj : j ≠ i := by
        rintro rfl
        simp [hy.1] at hnew
      exact ⟨hconnects, fun heq => hj (hisolated.distinct j i y _
        (OwnerStreams.runs_setStream_of_ne hj hy) (OwnerStreams.runs_setStream_self rfl) heq)⟩
  | _ => exact trivial

end Owned

/-- **Stream isolation**, in every run whose streams start alone: a shared memory stream begins
only when no other one is open, because all of them have one usage id. A stream over a connection
begins whenever no open one has the id that it draws. -/
theorem isolated_of_reachable {ι : Type} [DecidableEq ι] {s : OwnerStreams ι}
    (hs : ownerStreams.Reachable StartsAlone s) : Isolated s := by
  have howned : Owned s := by
    refine hs.invariant (fun s hinit => ?_) fun s a s' h hok hstep => h.next hok hstep
    obtain rfl : s = {} := hinit
    refine ⟨⟨?_, fun _ _ => rfl⟩, ?_, ?_, ?_, ?_, ?_, rfl⟩
    · intro usageId token
      simp
    · intro i j x y hx
      cases hx.1
    · intro i x hx
      cases hx.1
    · intro i x token hx
      cases hx.1
    · intro token o ho
      cases ho
    · intro i x token hx
      cases hx.1
  exact howned.isolated

/-- Two shared memory streams one after the other, and a connection's stream beside them. -/
theorem isolated_of_reachable_run : ∃ s : OwnerStreams (Fin 3),
    ownerStreams.Reachable StartsAlone s ∧
    (s.stream 2).any (fun x => x.token = some 3) = true ∧ Isolated s := by
  have hexec : (ownerStreams.execWhile (fun s => fun
        | .init _ strategy _ => decide (∀ j : Fin 3, (s.stream j).all fun x =>
            x.closed || x.strategy.connects != strategy.connects || (strategy.connects &&
              decide (x.id ≠ cString (nextConnectionId s.registry.nextId).1)))
        | _ => true) {}
      [.init 0 .sharedMemory 8, .init 1 .sockets 8, .getToken 0, .use 0,
        .connected 1 (.sockets (.new 8 ⟨connectionId 2, 5, false, {}⟩)), .close 0, .getToken 1,
        .init 2 .doubleBufferedSharedMemory 16, .getToken 2, .use 2, .close 1]).map
      (fun s => (s.stream 2).any fun x => x.token = some 3) = some true := by
    decide +kernel
  obtain ⟨s, hexec, htoken⟩ := Option.map_eq_some_iff.mp hexec
  have hs : ownerStreams.Reachable StartsAlone s := by
    refine (Machine.Reachable.init rfl).execWhile ?_ hexec
    intro s a _ hp
    cases a with
    | init i strategy bufferSize =>
      intro j x hx hkind
      have hall := of_decide_eq_true hp j
      rw [hx.1, Option.all_some, hx.2, hkind] at hall
      simpa using hall
    | _ => exact trivial
  exact ⟨s, hs, htoken, isolated_of_reachable hs⟩

/-- Two shared memory streams at the same time get one id and one token, and delete it twice. -/
theorem not_isolated_shared_memory : ¬ ∀ s : OwnerStreams Bool,
    ownerStreams.Reachable Anything s → Isolated s := by
  intro h
  have hexec : (ownerStreams.exec ({} : OwnerStreams Bool)
      [.init true .sharedMemory 8, .init false .doubleBufferedSharedMemory 16, .getToken true,
        .getToken false, .close true, .close false]).map OwnerStreams.faulted = some true := by
    decide +kernel
  obtain ⟨s, hs, hfaulted⟩ := Option.map_eq_some_iff.mp hexec
  have hunfaulted := (h s (Machine.exec_reachable rfl hs)).unfaulted
  simp [hfaulted] at hunfaulted

end Sideband
