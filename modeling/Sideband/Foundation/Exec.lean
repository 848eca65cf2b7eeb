import Mathlib.Order.Defs.Unbundled

/-!
# Calls that may wait or leave their memory

`Exec σ α` is a call that runs on a world `σ` and returns an `α`. A call that does not return
has a reason (`Stop`): it waits for something the world does not hold (`blocked`), or it
touched memory outside the region it was given (`outOfBounds`), after which nothing is
promised.

`Yields P x` says of a call what everything it returns has in common, `Steps R x` how the world it
returns in is related to the one it started in, and `returned` turns a call into a partial step.
`Checks x y` says that `y` is `x` with checks of what it touches.

`zoom` runs a call of a part on the whole; where the part is a lens of the whole, it goes
through sequences (`zoom_pure`, `zoom_bind`). The other lemmas are about `StateT.run`: how it goes
through `>>=` (`run_bind_ok`, `run_bind_error`, `run_bind_eq_ok_iff`) and through `zoom`.
-/

namespace Foundation

/-- Why a call did not return. The first is a wait, which the program is in until something
happens; the second is where the language defines nothing more. -/
inductive Stop
  /-- It waits for something that has not happened. -/
  | blocked
  /-- It touched memory outside the region it was given. -/
  | outOfBounds
  deriving DecidableEq, Repr

/-- A call that runs on a world `σ`. One that stops leaves no world behind: what a waiting call
has done so far cannot be seen, and after an access out of bounds nothing is promised. -/
abbrev Exec (σ α : Type) := StateT σ (Except Stop) α

namespace Exec

variable {σ τ α β : Type}

/-- Read or write a region through a checked access, where the program does not check. `none` is
an access that leaves the region. -/
def checked (x : Option α) : Exec σ α :=
  match x with
  | some a => pure a
  | none => throw .outOfBounds

/-- Run a call of a part of the world on the whole world: `get` takes the part out and `put` puts
what the call leaves of it back. -/
def zoom (get : σ → τ) (put : τ → σ → σ) (x : Exec τ α) : Exec σ α := fun s =>
  match x (get s) with
  | .ok (a, t) => .ok (a, put t s)
  | .error e => .error e

@[simp]
theorem pure_eq_ok (a : α) : (pure a : Except Stop α) = .ok a := rfl

@[simp]
theorem run_pure (a : α) (s : σ) : (pure a : Exec σ α).run s = .ok (a, s) := rfl

@[simp]
theorem run_get (s : σ) : (get : Exec σ σ).run s = .ok (s, s) := rfl

@[simp]
theorem run_set (s t : σ) : (set t : Exec σ PUnit).run s = .ok (⟨⟩, t) := rfl

@[simp]
theorem run_modify (f : σ → σ) (s : σ) : (modify f : Exec σ PUnit).run s = .ok (⟨⟩, f s) := rfl

@[simp]
theorem run_checked_some (a : α) (s : σ) : (checked (some a) : Exec σ α).run s = .ok (a, s) := rfl

@[simp]
theorem run_checked_none (s : σ) : (checked none : Exec σ α).run s = .error .outOfBounds := rfl

theorem run_bind_ok {x : Exec σ α} {f : α → Exec σ β} {s s' : σ} {a : α}
    (h : x.run s = .ok (a, s')) : (x >>= f).run s = (f a).run s' := by
  rw [StateT.run_bind, h]
  rfl

theorem run_bind_error {x : Exec σ α} {f : α → Exec σ β} {s : σ} {e : Stop}
    (h : x.run s = .error e) : (x >>= f).run s = .error e := by
  rw [StateT.run_bind, h]
  rfl

theorem run_zoom_ok {get : σ → τ} {put : τ → σ → σ} {x : Exec τ α} {s : σ} {t : τ} {a : α}
    (h : x.run (get s) = .ok (a, t)) : (zoom get put x).run s = .ok (a, put t s) := by
  change zoom get put x s = _
  rw [zoom, show x (get s) = .ok (a, t) from h]

theorem run_zoom_error {get : σ → τ} {put : τ → σ → σ} {x : Exec τ α} {s : σ} {e : Stop}
    (h : x.run (get s) = .error e) : (zoom get put x).run s = .error e := by
  change zoom get put x s = _
  rw [zoom, show x (get s) = .error e from h]

/-- A call on a part returns exactly when the call does; what it leaves of the part is put back. -/
theorem run_zoom_eq_ok_iff {get : σ → τ} {put : τ → σ → σ} {x : Exec τ α} {s s' : σ} {a : α} :
    (zoom get put x).run s = .ok (a, s') ↔ ∃ t, x.run (get s) = .ok (a, t) ∧ s' = put t s := by
  constructor
  · intro h
    cases hx : x.run (get s) with
    | error e =>
      rw [run_zoom_error hx] at h
      cases h
    | ok r =>
      rw [run_zoom_ok hx] at h
      cases h
      exact ⟨r.2, rfl, rfl⟩
  · rintro ⟨t, hx, rfl⟩
    exact run_zoom_ok hx

/-- A checked value is the value, and changes nothing. -/
theorem run_checked_eq_ok_iff {x : Option α} {s s' : σ} {a : α} :
    (checked x : Exec σ α).run s = .ok (a, s') ↔ x = some a ∧ s' = s := by
  constructor
  · intro h
    cases x with
    | none => cases h
    | some b =>
      cases h
      exact ⟨rfl, rfl⟩
  · rintro ⟨rfl, rfl⟩
    rfl

/-- A sequence returns exactly when its parts do, one after the other. -/
theorem run_bind_eq_ok_iff {x : Exec σ α} {f : α → Exec σ β} {s s' : σ} {b : β} :
    (x >>= f).run s = .ok (b, s') ↔
      ∃ a t, x.run s = .ok (a, t) ∧ (f a).run t = .ok (b, s') := by
  constructor
  · intro h
    cases hx : x.run s with
    | error e =>
      rw [run_bind_error hx] at h
      cases h
    | ok r =>
      rw [run_bind_ok hx] at h
      exact ⟨r.1, r.2, rfl, h⟩
  · rintro ⟨a, t, hx, hf⟩
    rw [run_bind_ok hx, hf]

/-- What a call that returns leaves; `none` if it stops. This is how a call becomes one step of a
machine, which then has no step where the call would wait. -/
def returned (x : Exec σ α) (s : σ) : Option (α × σ) := (x.run s).toOption

theorem returned_eq_some_iff {x : Exec σ α} {s s' : σ} {a : α} :
    x.returned s = some (a, s') ↔ x.run s = .ok (a, s') := by
  rw [returned]
  cases x.run s <;> simp [Except.toOption]

theorem run_map_ok {x : Exec σ α} (f : α → β) {s s' : σ} {a : α} (h : x.run s = .ok (a, s')) :
    (f <$> x).run s = .ok (f a, s') := by
  rw [StateT.run_map, h]
  rfl

theorem run_map_error {x : Exec σ α} (f : α → β) {s : σ} {e : Stop} (h : x.run s = .error e) :
    (f <$> x).run s = .error e := by
  rw [StateT.run_map, h]
  rfl

/-- Whatever the call returns has the property. Nothing is said of a call that does not return. -/
def Yields (P : α → Prop) (x : Exec σ α) : Prop := ∀ s a s', x.run s = .ok (a, s') → P a

theorem yields_pure {P : α → Prop} {a : α} (h : P a) : Yields P (pure a : Exec σ α) := by
  intro s b s' hrun
  cases hrun
  exact h

theorem Yields.bind {P : β → Prop} {f : α → Exec σ β} (hf : ∀ a, Yields P (f a))
    (x : Exec σ α) : Yields P (x >>= f) := by
  intro s b s' hrun
  obtain ⟨a, t, -, hrest⟩ := run_bind_eq_ok_iff.mp hrun
  exact hf a t b s' hrest

theorem Yields.map {P : β → Prop} {f : α → β} {x : Exec σ α} (hx : Yields (fun a => P (f a)) x) :
    Yields P (f <$> x) := by
  intro s b s' hrun
  rw [map_eq_pure_bind] at hrun
  obtain ⟨a, t, hrun, hpure⟩ := run_bind_eq_ok_iff.mp hrun
  cases hpure
  exact hx s a s' hrun

/-- A call that returns has gone along the relation. Nothing is said of the state that a call is
in when it does not return. -/
def Steps (R : σ → σ → Prop) (x : Exec σ α) : Prop := ∀ s a s', x.run s = .ok (a, s') → R s s'

section Steps

variable {R : σ → σ → Prop}

theorem steps_pure [Std.Refl R] (a : α) : Steps R (pure a) := by
  intro s b s' hrun
  cases hrun
  exact refl_of R s

theorem Steps.bind [IsTrans σ R] {x : Exec σ α} {f : α → Exec σ β} (hx : Steps R x)
    (hf : ∀ a, Steps R (f a)) : Steps R (x >>= f) := by
  intro s b s' hrun
  obtain ⟨a, t, hfirst, hrest⟩ := run_bind_eq_ok_iff.mp hrun
  exact trans_of R (hx s a t hfirst) (hf a t b s' hrest)

theorem Steps.map {x : Exec σ α} (hx : Steps R x) (f : α → β) : Steps R (f <$> x) := by
  intro s b s' hrun
  rw [map_eq_pure_bind] at hrun
  obtain ⟨a, t, hrun, hpure⟩ := run_bind_eq_ok_iff.mp hrun
  cases hpure
  exact hx s a s' hrun

theorem steps_get [Std.Refl R] : Steps R (get : Exec σ σ) := by
  intro s b s' hrun
  cases hrun
  exact refl_of R s

theorem steps_modify {f : σ → σ} (hf : ∀ s, R s (f s)) : Steps R (modify f : Exec σ PUnit) := by
  intro s b s' hrun
  cases hrun
  exact hf s

theorem steps_throw (e : Stop) : Steps R (throw e : Exec σ α) := by
  intro s b s' hrun
  cases hrun

theorem steps_checked [Std.Refl R] (x : Option α) : Steps R (checked x : Exec σ α) := by
  cases x with
  | none => exact steps_throw _
  | some a => exact steps_pure a

theorem steps_zoom {Q : τ → τ → Prop} {get : σ → τ} {put : τ → σ → σ} {x : Exec τ α}
    (hx : Steps Q x) (hput : ∀ s t, Q (get s) t → R s (put t s)) : Steps R (zoom get put x) := by
  intro s a s' hrun
  obtain ⟨t, hpart, rfl⟩ := run_zoom_eq_ok_iff.mp hrun
  exact hput s t (hx _ _ _ hpart)

end Steps

/-- `y` stops out of bounds, or does what `x` does. So `y` may stop before `x` would have, which
a model does where a pointer leads nowhere. -/
def Checks (x y : Exec σ α) : Prop := ∀ s, y.run s = .error .outOfBounds ∨ y.run s = x.run s

theorem checks_refl (x : Exec σ α) : Checks x x := fun _ => .inr rfl

theorem Checks.bind {x y : Exec σ α} {f g : α → Exec σ β} (hxy : Checks x y)
    (hfg : ∀ a, Checks (f a) (g a)) : Checks (x >>= f) (y >>= g) := by
  intro s
  rcases hxy s with hstop | hsame
  · exact .inl (run_bind_error hstop)
  · cases hx : x.run s with
    | error e => exact .inr (by rw [run_bind_error (hsame.trans hx), run_bind_error hx])
    | ok r =>
      obtain ⟨a, t⟩ := r
      rw [run_bind_ok (hsame.trans hx), run_bind_ok hx]
      exact hfg a t

/-- A call behind a test of the world. -/
theorem checks_test (p : σ → Prop) [DecidablePred p] (x : Exec σ α) :
    Checks x (do if p (← get) then x else throw .outOfBounds) := by
  intro s
  rw [run_bind_ok (run_get s)]
  by_cases hp : p s
  · exact .inr (by rw [if_pos hp])
  · exact .inl (by rw [if_neg hp]; rfl)

/-- What the call with checks returns, the call returns. -/
theorem Checks.run_eq {x y : Exec σ α} (h : Checks x y) {s : σ}
    (hs : y.run s ≠ .error .outOfBounds) : x.run s = y.run s :=
  ((h s).resolve_left hs).symm

/-- Running nothing on a part that can be put back is running nothing. -/
theorem zoom_pure {get : σ → τ} {put : τ → σ → σ} (hput : ∀ s, put (get s) s = s) (a : α) :
    (zoom get put (pure a) : Exec σ α) = pure a := by
  funext s
  change Except.ok (a, put (get s) s) = Except.ok (a, s)
  rw [hput]

/-- Running a sequence on a part is running its parts on the part, one after the other. -/
theorem zoom_bind {get : σ → τ} {put : τ → σ → σ} (hget : ∀ t s, get (put t s) = t)
    (hput : ∀ t t' s, put t' (put t s) = put t' s) (x : Exec τ α) (f : α → Exec τ β) :
    zoom get put (x >>= f) = zoom get put x >>= fun a => zoom get put (f a) := by
  funext s
  change (zoom get put (x >>= f)).run s = (zoom get put x >>= fun a => zoom get put (f a)).run s
  cases hx : x.run (get s) with
  | error e => rw [run_bind_error (run_zoom_error hx), run_zoom_error (run_bind_error hx)]
  | ok r =>
    obtain ⟨a, t⟩ := r
    have hget' : get (put t s) = t := hget t s
    rw [run_bind_ok (run_zoom_ok hx)]
    cases hf : (f a).run t with
    | error e =>
      have hf' : (f a).run (get (put t s)) = .error e := by rw [hget', hf]
      rw [run_zoom_error hf', run_zoom_error (by rw [run_bind_ok hx, hf])]
    | ok r =>
      have hf' : (f a).run (get (put t s)) = .ok (r.1, r.2) := by rw [hget', hf]
      rw [run_zoom_ok hf', hput, run_zoom_ok (a := r.1) (t := r.2) (by rw [run_bind_ok hx, hf])]

end Exec

end Foundation
