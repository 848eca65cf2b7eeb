import Sideband.Moniker.SocketLoops

/-!
# Rounds of the server's loop

One after the other, the steps that the server takes for a request are a round of the client-first
branch of `RunSidebandReadWriteLoop` over `ReadSidebandMessage` and `WriteSidebandMessage` on its
handle (`socketLoops_round`).
-/

namespace Sideband

open Foundation

section Rounds

variable {σ ε V : Type} {behave : ε → ℤ → V → σ → V × σ}
  {requestFormat : WireFormat ({} : SidebandWriteRequest V)}
  {responseFormat : WireFormat ({} : SidebandReadResponse V)}

variable [Inhabited V] {readers writers : EndpointList ε}
  {size : ℕ} {shared : σ} {s s' : SocketStreamLoops σ ε V requestFormat responseFormat}

variable (requestFormat responseFormat) in
/-- The message functions on the owner's handle. -/
def socketChannel : MessageChannel (SidebandData SocketSidebandData) V where
  read := do
    let request ← readSidebandMessage requestFormat.messageLite SocketSidebandData.methods
    return request.map Subtype.val
  write response := do
    let response ← responseFormat.sendable response
    writeSidebandMessage responseFormat.messageLite SocketSidebandData.methods response

/-- The service with another transport. -/
def MonikerState.withTransport {τ τ' : Type} (s : MonikerState σ ε V τ) (transport : τ') :
    MonikerState σ ε V τ' := ⟨s.shared, s.events, transport⟩

/-- `x'` does over the transport what `x` does over its own, which neither looks at. The
endpoints' part of a round is of this kind. -/
def SameOver {τ τ' α : Type} (transport : τ') (x : Exec (MonikerState σ ε V τ) α)
    (x' : Exec (MonikerState σ ε V τ') α) : Prop :=
  ∀ s, x'.run (s.withTransport transport) =
    (x.run s).map fun r => (r.1, r.2.withTransport transport)

omit [Inhabited V] in
theorem SameOver.bind {τ τ' α β : Type} {transport : τ'} {x : Exec (MonikerState σ ε V τ) α}
    {x' : Exec (MonikerState σ ε V τ') α} {f : α → Exec (MonikerState σ ε V τ) β}
    {f' : α → Exec (MonikerState σ ε V τ') β} (hx : SameOver transport x x')
    (hf : ∀ a, SameOver transport (f a) (f' a)) : SameOver transport (x >>= f) (x' >>= f') := by
  intro s
  have hrun := hx s
  cases hs : x.run s with
  | error e =>
    rw [hs] at hrun
    rw [Exec.run_bind_error hs, Exec.run_bind_error hrun]
    rfl
  | ok r =>
    rw [hs] at hrun
    rw [Exec.run_bind_ok hs, Exec.run_bind_ok hrun]
    exact hf r.1 r.2

section Transported

variable {τ τ' : Type} (transport : τ')

omit [Inhabited V] in
theorem sameOver_pure {α : Type} (a : α) : SameOver transport
    (pure a : Exec (MonikerState σ ε V τ) α) (pure a) := fun _ => rfl

omit [Inhabited V] in
theorem sameOver_callEndpoint (e : EndpointInstance ε) (value : V) : SameOver transport
    (callEndpoint behave e value : Exec (MonikerState σ ε V τ) V)
    (callEndpoint behave e value) := by
  rintro s
  rcases e with ⟨- | endpoint, dataInstance⟩
  · rfl
  · rfl

omit [Inhabited V] in
theorem sameOver_callIndexed (endpoints : EndpointList ε) (x : ℕ) (values : List V) :
    SameOver transport (callIndexed behave endpoints x values :
      Exec (MonikerState σ ε V τ) (List V)) (callIndexed behave endpoints x values) := by
  induction endpoints generalizing x values with
  | nil => exact sameOver_pure transport values
  | cons e endpoints ih =>
    refine .bind (fun s => ?_) fun value => .bind (sameOver_callEndpoint transport e value)
      fun left => ih (x + 1) _
    cases values[x]? <;> rfl

theorem sameOver_callAdding (endpoints : EndpointList ε) (values : List V) :
    SameOver transport (callAdding behave endpoints values :
      Exec (MonikerState σ ε V τ) (List V)) (callAdding behave endpoints values) := by
  induction endpoints generalizing values with
  | nil => exact sameOver_pure transport values
  | cons e endpoints ih =>
    exact .bind (sameOver_callEndpoint transport e default) fun left => ih _

theorem sameOver_sidebandClientFirstResponse : SameOver transport
    (sidebandClientFirstResponse behave readers : Exec (MonikerState σ ε V τ) _)
    (sidebandClientFirstResponse behave readers) :=
  .bind (sameOver_callAdding transport readers []) fun _ => sameOver_pure _ _

omit [Inhabited V] in
theorem SameOver.run_ok {α : Type} {transport : τ'} {x : Exec (MonikerState σ ε V τ) α}
    {x' : Exec (MonikerState σ ε V τ') α} (h : SameOver transport x x') {a : α}
    {s s' : MonikerState σ ε V τ} (hrun : x.run s = .ok (a, s')) :
    x'.run (s.withTransport transport) = .ok (a, s'.withTransport transport) := by
  rw [h, hrun]
  rfl

end Transported

omit [Inhabited V] in
theorem SocketLoops.setParty_setParty (s : SocketStreamLoops σ ε V requestFormat responseFormat)
    (side : Side) (p q : SocketParty) : (s.setParty side p).setParty side q = s.setParty side q :=
  congrArg (fun party => { s with session := ⟨party⟩ }) (Function.update_idem _ _ _)

omit [Inhabited V] in
theorem SocketLoops.setParty_party (s : SocketStreamLoops σ ε V requestFormat responseFormat)
    (side : Side) : s.setParty side (s.party side) = s :=
  congrArg (fun party => { s with session := ⟨party⟩ }) (Function.update_eq_self _ _)

/-- Steps of the server's handle, one after the other. -/
theorem exec_owner {β : Type} {g : β → SocketLoopStep requestFormat.Message} {f : β → PartyStep}
    (hg : ∀ b s, (socketLoops behave requestFormat responseFormat readers writers size shared).next
      s (g b) = ((s.party .owner).step (f b)).map (s.setParty .owner)) {bs : List β}
    (h : (socketLoops behave requestFormat responseFormat readers writers size shared).exec s
      (bs.map g) = some s') :
    ∃ p, (bs.map f).foldlM SocketParty.step (s.party .owner) = some p ∧
      s' = s.setParty .owner p := by
  induction bs generalizing s with
  | nil =>
    obtain rfl := Option.some.inj h
    exact ⟨_, rfl, (s.setParty_party .owner).symm⟩
  | cons b bs ih =>
    rw [List.map_cons, Machine.exec, hg] at h
    obtain ⟨t, ht, hrest⟩ := Option.bind_eq_some_iff.mp h
    obtain ⟨p, hp, rfl⟩ := Option.map_eq_some_iff.mp ht
    obtain ⟨q, hq, rfl⟩ := ih hrest
    rw [SocketLoops.party_setParty_self] at hq
    refine ⟨q, ?_, s.setParty_setParty .owner p q⟩
    rw [List.map_cons, List.foldlM_cons, hp]
    exact hq

/-- A step of the server's loop. -/
theorem exec_server {as : List (SocketLoopStep requestFormat.Message)}
    (h : (socketLoops behave requestFormat responseFormat readers writers size shared).exec s
      (.server :: as) = some s') :
    ∃ t, socketServerStep behave requestFormat responseFormat readers writers s = some t ∧
      (socketLoops behave requestFormat responseFormat readers writers size shared).exec t as =
        some s' := Option.bind_eq_some_iff.mp h

/-- With a reader there is a response. -/
theorem sendableResponse_some {τ : Type} (hreaders : readers.length > 0)
    {writeRequest : SidebandWriteRequest V} {readResult : Option responseFormat.Message}
    {service service' : MonikerState σ ε V τ}
    (h : (sendableResponse behave responseFormat readers writers writeRequest).run service =
      .ok (readResult, service')) :
    ∃ message : responseFormat.Message, readResult = some message ∧
      (responseFormat.serialize message.val).length < 2 ^ 31 ∧
      (handleRequest behave readers writers writeRequest).run service =
        .ok (some message.val, service') := by
  rw [sendableResponse, Exec.run_bind_eq_ok_iff] at h
  obtain ⟨result, service₁, hhandle, hsend⟩ := h
  have hsome : ∃ response, result = some response := by
    rw [handleRequest, Exec.run_bind_eq_ok_iff] at hhandle
    obtain ⟨values, service₂, -, hresponse⟩ := hhandle
    rw [if_pos hreaders, Exec.run_bind_eq_ok_iff] at hresponse
    obtain ⟨response, service₃, -, hdone⟩ := hresponse
    cases hdone
    exact ⟨response, rfl⟩
  obtain ⟨response, rfl⟩ := hsome
  rw [Exec.run_bind_eq_ok_iff] at hsend
  obtain ⟨message, service₂, hmessage, hdone⟩ := hsend
  cases hdone
  rw [WireFormat.sendable] at hmessage
  split_ifs at hmessage with hsize
  · cases hmessage
    exact ⟨_, rfl, hsize, hhandle⟩
  · cases hmessage

/-- A round of the client-first branch is a read, the endpoints' part and a write. -/
theorem run_sidebandClientFirst_of_calls {τ : Type} {T : MessageChannel τ V} {t t₁ t₂ : τ}
    {writeRequest : SidebandWriteRequest V} {readResult : SidebandReadResponse V} {byteSize : ℤ}
    {service service' : MonikerState σ ε V Unit} (hreaders : readers.length > 0)
    (hread : T.read.run t = .ok (some writeRequest, t₁)) (hcancel : writeRequest.cancel = false)
    (hhandle : (handleRequest behave readers writers writeRequest).run service =
      .ok (some readResult, service'))
    (hwrite : (T.write readResult).run t₁ = .ok (byteSize, t₂)) :
    (sidebandClientFirst behave T readers writers ()).run (service.withTransport t) =
      .ok (if byteSize = 0 then none else some (),
        MonikerState.withTransport
          { service' with events := service'.events ++ [.respond readResult.values] } t₂) := by
  rw [handleRequest, Exec.run_bind_eq_ok_iff] at hhandle
  obtain ⟨values, service₁, hcall, hhandle⟩ := hhandle
  rw [if_pos hreaders, Exec.run_bind_eq_ok_iff] at hhandle
  obtain ⟨response, service₂, hresponse, hdone⟩ := hhandle
  cases hdone
  have honRead : (onTransport T.read).run (service.withTransport t) =
      .ok (some writeRequest, service.withTransport t₁) := Exec.run_zoom_ok hread
  have honWrite : (onTransport (T.write readResult)).run (service'.withTransport t₁) =
      .ok (byteSize, service'.withTransport t₂) := Exec.run_zoom_ok hwrite
  rw [sidebandClientFirst, Exec.run_bind_ok honRead]
  dsimp only
  rw [hcancel, if_neg Bool.false_ne_true,
    Exec.run_bind_ok ((sameOver_callIndexed t₁ writers 0 _).run_ok hcall), if_pos hreaders,
    Exec.run_bind_ok ((sameOver_sidebandClientFirstResponse t₁).run_ok hresponse),
    writeSidebandResponse, bind_assoc, Exec.run_bind_ok honWrite]
  rfl

/-- One after the other, the server's steps are a round of the client-first branch. -/
theorem socketLoops_round {es : List RecvEvent} {counts : List ℕ} (hreaders : readers.length > 0)
    (hserver : s.server = .beginRead) (hlt : (s.party .owner).handle.allocated.length < 2 ^ 31)
    (h : (socketLoops behave requestFormat responseFormat readers writers size shared).exec s
      (.server :: es.map (.recv .owner) ++ .server :: .server :: .server ::
        counts.map (.send .owner) ++ [.server]) = some s') :
    ∃ next, (sidebandClientFirst behave (socketChannel requestFormat responseFormat) readers writers
        ()).run (s.service.withTransport
          ((s.party .owner).handle.withOutcomes (counts.map .accept) es)) =
      .ok (next, s'.service.withTransport ((s'.party .owner).handle.withOutcomes [] [])) ∧
      s'.server = if next.isSome then .beginRead else .returned := by
  rw [Machine.exec_append, Option.bind_eq_some_iff] at h
  obtain ⟨t, h, hlast⟩ := h
  rw [Machine.exec_append, Option.bind_eq_some_iff] at h
  obtain ⟨u, hread, hwrite⟩ := h
  -- the read
  obtain ⟨s₁, hstep₁, hrecvs⟩ := exec_server hread
  have hserver₁ := serverStep_of_eq_some hstep₁
  rw [hserver] at hserver₁
  obtain ⟨p₁, hp₁, hphase₁, hservice₁, hparty₁⟩ : ∃ p₁, (s.party .owner).beginRead = some p₁ ∧
      s₁.server = .reading ∧ s₁.service = s.service ∧ s₁.party .owner = p₁ := by
    cases hserver₁ with
    | beginRead hp => exact ⟨_, hp, rfl, rfl, s.party_setParty_self .owner _⟩
  obtain ⟨p₂, hp₂, rfl⟩ := exec_owner (f := PartyStep.recv) (fun _ _ => rfl) hrecvs
  rw [hparty₁] at hp₂
  obtain ⟨s₂, hstep₂, hwrite⟩ := exec_server hwrite
  have hserver₂ := serverStep_of_eq_some hstep₂
  rw [show (s₁.setParty .owner p₂).server = .reading from hphase₁] at hserver₂
  obtain ⟨payload, hidle₂, hlast₂, hphase₂, hservice₂, hparty₂⟩ : ∃ payload, p₂.call = .idle ∧
      p₂.read.getLast? = some payload ∧
      s₂.server = .afterRead requestFormat (requestFormat.messageLite.parse payload) ∧
      s₂.service = s.service ∧ s₂.party .owner = p₂ := by
    have hparty := s₁.party_setParty_self .owner p₂
    cases hserver₂ with
    | reading hidle hlast =>
      rw [hparty] at hidle hlast
      exact ⟨_, hidle, hlast, rfl, hservice₁, hparty⟩
  -- the endpoints
  obtain ⟨s₃, hstep₃, hwrite⟩ := exec_server hwrite
  have hserver₃ := serverStep_of_eq_some hstep₃
  obtain ⟨writeRequest, hparse, hcancel, hphase⟩ : ∃ writeRequest : requestFormat.Message,
      requestFormat.messageLite.parse payload = some writeRequest ∧
        writeRequest.val.cancel = false ∧ s₂.server = .handle writeRequest := by
    rw [hphase₂] at hserver₃ ⊢
    cases hparse : requestFormat.messageLite.parse payload with
    | none =>
      rw [hparse] at hserver₃
      cases hserver₃
    | some writeRequest =>
      rw [hparse, LoopPhase.afterRead] at hserver₃
      rw [LoopPhase.afterRead]
      split_ifs at hserver₃ ⊢ with hcancel
      · cases hserver₃
      · exact ⟨writeRequest, rfl, Bool.eq_false_of_not_eq_true hcancel, rfl⟩
  rw [hphase] at hserver₃
  obtain ⟨readResult, hresponse, hsize, hhandle, hphase₃, hparty₃⟩ :
      ∃ readResult : responseFormat.Message,
        (sendableResponse behave responseFormat readers writers writeRequest.val).run s.service =
          .ok (some readResult, s₃.service) ∧
        (responseFormat.serialize readResult.val).length < 2 ^ 31 ∧
        (handleRequest behave readers writers writeRequest.val).run s.service =
          .ok (some readResult.val, s₃.service) ∧
        s₃.server = .beginWrite readResult ∧ s₃.party .owner = p₂ := by
    cases hserver₃ with
    | handle hrun =>
      rw [hservice₂] at hrun
      obtain ⟨message, rfl, hsize, hhandle⟩ := sendableResponse_some hreaders hrun
      exact ⟨message, hrun, hsize, hhandle, rfl, hparty₂⟩
  -- the write
  obtain ⟨s₄, hstep₄, hsends⟩ := exec_server hwrite
  have hserver₄ := serverStep_of_eq_some hstep₄
  rw [hphase₃] at hserver₄
  obtain ⟨p₄, hp₄, hphase₄, hservice₄, hparty₄⟩ : ∃ p₄,
      p₂.beginWrite (responseFormat.serialize readResult.val) = some p₄ ∧
      s₄.server = .writing readResult ∧ s₄.service = s₃.service ∧ s₄.party .owner = p₄ := by
    cases hserver₄ with
    | beginWrite hp =>
      rw [hparty₃] at hp
      exact ⟨_, hp, rfl, rfl, s₃.party_setParty_self .owner _⟩
  obtain ⟨p₅, hp₅, rfl⟩ := exec_owner (f := PartyStep.send) (fun _ _ => rfl) hsends
  rw [hparty₄] at hp₅
  obtain ⟨s₆, hstep₆, hdone⟩ := exec_server hlast
  obtain rfl := Option.some.inj hdone
  have hserver₆ := serverStep_of_eq_some hstep₆
  rw [show (s₄.setParty .owner p₅).server = .writing readResult from hphase₄] at hserver₆
  obtain ⟨hidle₅, hphase₆, hservice₆, hparty₆⟩ : p₅.call = .idle ∧
      s₆.server = .afterWrite (byteSizeLong responseFormat.messageLite readResult) ∧
      s₆.service = { s₃.service with
        events := s₃.service.events ++ [.respond readResult.val.values] } ∧
      s₆.party .owner = p₅ := by
    have hparty := s₄.party_setParty_self .owner p₅
    cases hserver₆ with
    | writing hidle =>
      rw [hparty] at hidle
      refine ⟨hidle, rfl, ?_, hparty⟩
      rw [← hservice₄]
      rfl
  -- the calls of the message functions
  have hsteps₂ : (.beginRead :: es.map PartyStep.recv).foldlM SocketParty.step (s.party .owner) =
      some p₂ := by
    rw [List.foldlM_cons, SocketParty.step, hp₁]
    exact hp₂
  have hsteps₅ : (.beginWrite (responseFormat.messageLite.serialize readResult) ::
      counts.map PartyStep.send).foldlM SocketParty.step p₂ = some p₅ := by
    rw [List.foldlM_cons]
    exact (congrArg (Option.bind · _) hp₄).trans hp₅
  obtain ⟨payload', hread', hreads⟩ := readSidebandMessage_of_recvs requestFormat.messageLite
    (counts.map .accept) hlt hsteps₂ hidle₂
  obtain rfl : payload' = payload := by
    rw [hread', List.getLast?_concat] at hlast₂
    exact Option.some.inj hlast₂
  obtain ⟨-, hwrites⟩ := writeSidebandMessage_of_sends responseFormat.messageLite readResult []
    hsteps₅ hidle₅
  rw [hparse] at hreads
  have honRead : (socketChannel requestFormat responseFormat).read.run
      ((s.party .owner).handle.withOutcomes (counts.map .accept) es) =
        .ok (some writeRequest.val, p₂.handle.withOutcomes (counts.map .accept) []) :=
    Exec.run_bind_ok hreads
  have honWrite : ((socketChannel requestFormat responseFormat).write readResult.val).run
      (p₂.handle.withOutcomes (counts.map .accept) []) =
        .ok (byteSizeLong responseFormat.messageLite readResult,
          p₅.handle.withOutcomes [] []) := by
    simp only [socketChannel, WireFormat.sendable, dif_pos hsize, pure_bind]
    exact hwrites
  have hround := run_sidebandClientFirst_of_calls hreaders honRead hcancel hhandle honWrite
  rw [← hservice₆, ← hparty₆] at hround
  refine ⟨_, hround, ?_⟩
  rw [hphase₆, LoopPhase.afterWrite]
  by_cases hzero : byteSizeLong responseFormat.messageLite readResult = 0 <;> simp [hzero]

end Rounds

end Sideband
