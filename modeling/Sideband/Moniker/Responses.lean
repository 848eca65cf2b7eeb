import Sideband.Moniker.Requests

/-!
# The two ways to build a response

The client-first branches and `StreamRead` add a value to the response for each read endpoint, and
call it on that value. The server-first branches ask a new response for its values by index, and a
new response has none. `Responds` is what a response is for: one value for each read endpoint, in
list order, as the endpoint left it.

* `clientFirst_responds`: the three copies that add values build such a response.
* `sameResponse_iff`: the two copies that index build it exactly when there is no read endpoint;
  otherwise the first round of a server-first loop does not get past its response
  (`run_sidebandServerFirst_outOfBounds`, `run_streamServerFirst_outOfBounds`).
-/

namespace Sideband

open Foundation

section Responses

variable {σ ε V τ ρ : Type} (behave : ε → ℤ → V → σ → V × σ)

/-! ### Taking values by index -/

/-- A new response has no value to take. -/
theorem run_callIndexed_new {endpoints : EndpointList ε} (h : endpoints ≠ [])
    (s : MonikerState σ ε V τ) :
    (callIndexed behave endpoints 0 []).run s = .error .outOfBounds := by
  obtain ⟨e, endpoints, rfl⟩ := List.exists_cons_of_ne_nil h
  rfl

theorem run_sidebandServerFirstResponse_outOfBounds {readers : EndpointList ε} (h : readers ≠ [])
    (s : MonikerState σ ε V τ) :
    (sidebandServerFirstResponse behave readers).run s = .error .outOfBounds := by
  rw [sidebandServerFirstResponse, Exec.run_bind_error (run_callIndexed_new behave h s)]

theorem run_streamServerFirstResponse_outOfBounds {readers : EndpointList ε} (h : readers ≠ [])
    (s : MonikerState σ ε V τ) :
    (streamServerFirstResponse behave readers).run s = .error .outOfBounds := by
  rw [streamServerFirstResponse, Exec.run_bind_error (run_callIndexed_new behave h s)]

theorem run_sidebandServerFirst_outOfBounds {readers : EndpointList ε} (h : readers ≠ [])
    (T : MessageChannel τ V) (writers : EndpointList ε) (s : MonikerState σ ε V τ) :
    (sidebandServerFirst behave T readers writers ()).run s = .error .outOfBounds := by
  rw [sidebandServerFirst,
    Exec.run_bind_error (run_sidebandServerFirstResponse_outOfBounds behave h s)]

theorem run_streamServerFirst_outOfBounds {readers : EndpointList ε} (h : readers ≠ [])
    (writers : EndpointList ε) (request : MonikerWriteRequest V)
    {incoming : List (MonikerWriteRequest V)} {uncancelled : ℕ}
    {s : MonikerState σ ε V (GrpcStream V)} (hs : s.transport = ⟨incoming, uncancelled + 1⟩) :
    (streamServerFirst behave readers writers request).run s = .error .outOfBounds := by
  rw [streamServerFirst, Exec.run_bind_ok (run_isCancelled hs), if_neg Bool.false_ne_true,
    Exec.run_bind_error (run_streamServerFirstResponse_outOfBounds behave h _)]

/-! ### The response that is due -/

variable [Inhabited V]

/-- The response holds what the read endpoints left, one after the other, on new values, and they
were called once each. -/
def Responds (build : Exec (MonikerState σ ε V τ) ρ) (values : ρ → List V)
    (readers : List (ε × ℤ)) (s : MonikerState σ ε V τ) : Prop :=
  ∃ response, build.run s = .ok (response, s.called behave (readCalls readers)) ∧
    values response = (callAll behave (readCalls readers) s.shared).1

/-- The server-first branches build the response that is due, and the one that the client-first
branches build, with the same calls. -/
structure SameResponse (readers : List (ε × ℤ)) (s : MonikerState σ ε V τ) : Prop where
  sideband : Responds behave (sidebandServerFirstResponse behave (pointers readers))
    SidebandReadResponse.values readers s
  stream : Responds behave (streamServerFirstResponse behave (pointers readers))
    MonikerReadResult.values readers s
  sideband_eq : (sidebandServerFirstResponse behave (pointers readers)).run s =
    (sidebandClientFirstResponse behave (pointers readers)).run s
  stream_eq : (streamServerFirstResponse behave (pointers readers)).run s =
    (streamClientFirstResponse behave (pointers readers)).run s

theorem clientFirst_responds (readers : List (ε × ℤ)) (s : MonikerState σ ε V τ) :
    Responds behave (sidebandClientFirstResponse behave (pointers readers))
        SidebandReadResponse.values readers s ∧
      Responds behave (streamClientFirstResponse behave (pointers readers))
        MonikerReadResult.values readers s ∧
      Responds behave (streamReadResponse behave (pointers readers))
        MonikerReadResult.values readers s := by
  have hadd := run_callAdding behave readers [] s
  rw [List.nil_append] at hadd
  refine ⟨⟨_, Exec.run_bind_ok hadd, ?_⟩, ⟨_, Exec.run_bind_ok hadd, ?_⟩,
    ⟨_, Exec.run_bind_ok hadd, ?_⟩⟩
  · exact getD_asked behave readers s.shared
  · exact getD_asked behave readers s.shared
  · exact getD_asked behave readers s.shared

/-! ### The comparison -/

/-- The server-first branches build the response of the client-first ones exactly when no value
is to be read. With a reader they take `values(x)` of a response that has no values yet. -/
theorem sameResponse_iff (readers : List (ε × ℤ)) (s : MonikerState σ ε V τ) :
    SameResponse behave readers s ↔ readers = [] := by
  constructor
  · intro h
    by_contra hreaders
    have hpointers : pointers readers ≠ [] := mt pointers_eq_nil_iff.mp hreaders
    obtain ⟨response, hrun, -⟩ := h.sideband
    rw [run_sidebandServerFirstResponse_outOfBounds behave hpointers] at hrun
    cases hrun
  · rintro rfl
    obtain ⟨hsideband, hstream, -⟩ := clientFirst_responds behave [] s
    -- without an endpoint, neither loop does anything
    exact ⟨hsideband, hstream, rfl, rfl⟩

/-- One endpoint to read from. -/
theorem not_sameResponse_load : ¬ SameResponse storeLoad [(false, 1)] storeStream := by
  intro h
  obtain ⟨response, hrun, -⟩ := h.sideband
  cases hrun

end Responses

end Sideband
