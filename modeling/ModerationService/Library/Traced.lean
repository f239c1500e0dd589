import Mathlib.Data.List.Basic

/-!
# Traced — programs that may throw and leave a trace

A program either returns a value or throws an exception, and in both cases leaves the list of events
it has caused.  It never reads its own trace, so its meaning is just the pair of the two.

* `bind` runs the second program only after the first has returned, and concatenates the traces;
* `tryCatch` runs the handler only after an exception, and keeps what the body had already done;
* `forEach` runs a body over a list of inputs, as a loop does; `forEach_eq` says what it does when
  no iteration lets an exception out.

`Ends see p r xs` is what a client proves about a program: how it ends, and what an observer of
single events has seen of it.  `Only P p` says that every event of the program satisfies `P`.  There
is one rule for each operation.
-/

namespace Library

/-- A program with exceptions `ε`, events `τ` and value `α`. -/
structure Traced (ε τ α : Type) where
  result : Except ε α
  trace : List τ

namespace Traced

variable {ε τ α β ι : Type}

/-! ## Operations -/

protected def pure (a : α) : Traced ε τ α :=
  ⟨.ok a, []⟩

protected def bind (p : Traced ε τ α) (f : α → Traced ε τ β) : Traced ε τ β :=
  match p.result with
  | .ok a => ⟨(f a).result, p.trace ++ (f a).trace⟩
  | .error e => ⟨.error e, p.trace⟩

protected def throw (e : ε) : Traced ε τ α :=
  ⟨.error e, []⟩

protected def tryCatch (p : Traced ε τ α) (handler : ε → Traced ε τ α) : Traced ε τ α :=
  match p.result with
  | .ok _ => p
  | .error e => ⟨(handler e).result, p.trace ++ (handler e).trace⟩

instance : Monad (Traced ε τ) where
  pure := Traced.pure
  bind := Traced.bind

instance : MonadExcept ε (Traced ε τ) where
  throw := Traced.throw
  tryCatch := Traced.tryCatch

def emit (event : τ) : Traced ε τ Unit :=
  ⟨.ok (), [event]⟩

/-- The outcome of a step that causes no event. -/
def ofExcept (result : Except ε α) : Traced ε τ α :=
  ⟨result, []⟩

def forEach (inputs : List ι) (body : ι → Traced ε τ Unit) : Traced ε τ Unit :=
  match inputs with
  | [] => pure ()
  | input :: inputs => do
      body input
      forEach inputs body

/-! ## Their results and traces -/

@[simp] theorem trace_emit (event : τ) : (emit event : Traced ε τ Unit).trace = [event] := rfl

/-- A program that returns hands its value on. -/
theorem bind_of_ok {p : Traced ε τ α} {a : α} (h : p.result = .ok a) (f : α → Traced ε τ β) :
    p >>= f = ⟨(f a).result, p.trace ++ (f a).trace⟩ := by
  show Traced.bind p f = _
  unfold Traced.bind
  rw [h]

/-- A program that throws skips what follows. -/
theorem bind_of_error {p : Traced ε τ α} {e : ε} (h : p.result = .error e)
    (f : α → Traced ε τ β) : p >>= f = ⟨.error e, p.trace⟩ := by
  show Traced.bind p f = _
  unfold Traced.bind
  rw [h]

/-- A program that returns without an event hands its value on, and that is all. -/
theorem bind_of_silent {p : Traced ε τ α} {a : α} (h : p = ⟨.ok a, []⟩) (f : α → Traced ε τ β) :
    p >>= f = f a := by
  subst h
  rfl

/-- What a program has done stays done, however it goes on. -/
theorem mem_trace_bind {p : Traced ε τ α} {event : τ} (h : event ∈ p.trace)
    (f : α → Traced ε τ β) : event ∈ (p >>= f).trace := by
  cases hresult : p.result with
  | ok a =>
      rw [bind_of_ok hresult]
      exact List.mem_append_left _ h
  | error e =>
      rw [bind_of_error hresult]
      exact h

/-- No exception, no handler. -/
theorem tryCatch_of_ok {p : Traced ε τ α} {a : α} (h : p.result = .ok a)
    (handler : ε → Traced ε τ α) : tryCatch p handler = p := by
  show Traced.tryCatch p handler = _
  unfold Traced.tryCatch
  rw [h]

theorem tryCatch_of_error {p : Traced ε τ α} {e : ε} (h : p.result = .error e)
    (handler : ε → Traced ε τ α) :
    tryCatch p handler = ⟨(handler e).result, p.trace ++ (handler e).trace⟩ := by
  show Traced.tryCatch p handler = _
  unfold Traced.tryCatch
  rw [h]

/-! ## Loops -/

section Loops

variable {inputs : List ι} {body : ι → Traced ε τ Unit}

/-- When every iteration returns, so does the loop, and its trace is the concatenation. -/
theorem forEach_eq (h : ∀ input ∈ inputs, (body input).result = .ok ()) :
    forEach inputs body = ⟨.ok (), inputs.flatMap (fun input => (body input).trace)⟩ := by
  induction inputs with
  | nil =>
      rfl
  | cons input inputs ih =>
      -- the first iteration returns, so the others run after it
      have hfirst := h input (by simp)
      have hrest := ih (fun other hother => h other (List.mem_cons_of_mem input hother))
      rw [forEach, bind_of_ok hfirst, hrest]
      simp

end Loops

/-! ## What an observer sees of a program -/

/-- `p` ends with `r`, and an observer of single events has seen `xs`. -/
structure Ends {γ : Type} (see : τ → Option γ) (p : Traced ε τ α) (r : Except ε α)
    (xs : List γ) : Prop where
  result : p.result = r
  observed : p.trace.filterMap see = xs

namespace Ends

variable {γ : Type} {see : τ → Option γ} {p : Traced ε τ α} {f : α → Traced ε τ β} {a : α} {e : ε}
  {r : Except ε α} {r' : Except ε β} {xs ys : List γ}

theorem pure (a : α) : Ends see (Pure.pure a : Traced ε τ α) (.ok a) [] :=
  ⟨rfl, rfl⟩

theorem emit_seen {event : τ} {x : γ} (h : see event = some x) :
    Ends see (emit event : Traced ε τ Unit) (.ok ()) [x] := by
  refine ⟨rfl, ?_⟩
  simp [h]

theorem emit_unseen {event : τ} (h : see event = none) :
    Ends see (emit event : Traced ε τ Unit) (.ok ()) [] := by
  refine ⟨rfl, ?_⟩
  simp [h]

theorem bind (h : Ends see p (.ok a) xs) (h' : Ends see (f a) r' ys) :
    Ends see (p >>= f) r' (xs ++ ys) := by
  rw [bind_of_ok h.result]
  refine ⟨h'.result, ?_⟩
  rw [List.filterMap_append, h.observed, h'.observed]

theorem bind_error (h : Ends see p (.error e) xs) : Ends see (p >>= f) (.error e) xs := by
  rw [bind_of_error h.result]
  exact ⟨rfl, h.observed⟩

theorem tryCatch_ok (h : Ends see p (.ok a) xs) (handler : ε → Traced ε τ α) :
    Ends see (tryCatch p handler) (.ok a) xs := by
  rw [tryCatch_of_ok h.result]
  exact h

theorem tryCatch_error {handler : ε → Traced ε τ α} (h : Ends see p (.error e) xs)
    (h' : Ends see (handler e) r ys) : Ends see (tryCatch p handler) r (xs ++ ys) := by
  rw [tryCatch_of_error h.result]
  refine ⟨h'.result, ?_⟩
  rw [List.filterMap_append, h.observed, h'.observed]

/-- The loop rule: iterations that return are observed one after the other. -/
theorem forEach {inputs : List ι} {body : ι → Traced ε τ Unit} {seen : ι → List γ}
    (h : ∀ input ∈ inputs, Ends see (body input) (.ok ()) (seen input)) :
    Ends see (Traced.forEach inputs body) (.ok ()) (inputs.flatMap seen) := by
  rw [forEach_eq (fun input hmem => (h input hmem).result)]
  refine ⟨rfl, ?_⟩
  rw [List.filterMap_flatMap]
  apply List.flatMap_congr
  intro input hmem
  exact (h input hmem).observed

end Ends

/-! ## What every event of a program satisfies -/

def Only (P : τ → Prop) (p : Traced ε τ α) : Prop :=
  ∀ event ∈ p.trace, P event

namespace Only

variable {P Q : τ → Prop} {p : Traced ε τ α} {f : α → Traced ε τ β}

theorem imp (h : Only P p) (h' : ∀ event, P event → Q event) : Only Q p :=
  fun event hevent => h' event (h event hevent)

theorem pure (a : α) : Only P (Pure.pure a : Traced ε τ α) := by
  intro event h
  cases h

theorem emit {event : τ} (h : P event) : Only P (Traced.emit event : Traced ε τ Unit) := by
  intro other hother
  have hsame : other = event := by
    simpa using hother
  exact hsame ▸ h

theorem throw (e : ε) : Only P (MonadExcept.throw e : Traced ε τ α) := by
  intro event h
  cases h

theorem ofExcept (result : Except ε α) : Only P (Traced.ofExcept result : Traced ε τ α) := by
  intro event h
  cases h

/-- What follows a program needs to be looked at for the values the program returns. -/
theorem bind (h : Only P p) (h' : ∀ a, p.result = .ok a → Only P (f a)) : Only P (p >>= f) := by
  intro event hevent
  cases hresult : p.result with
  | error e =>
      rw [bind_of_error hresult] at hevent
      exact h event hevent
  | ok a =>
      rw [bind_of_ok hresult] at hevent
      rcases List.mem_append.1 hevent with hfirst | hsecond
      · exact h event hfirst
      · exact h' a hresult event hsecond

theorem tryCatch {handler : ε → Traced ε τ α} (h : Only P p) (h' : ∀ e, Only P (handler e)) :
    Only P (MonadExcept.tryCatch p handler) := by
  intro event hevent
  cases hresult : p.result with
  | ok a =>
      rw [tryCatch_of_ok hresult] at hevent
      exact h event hevent
  | error e =>
      rw [tryCatch_of_error hresult] at hevent
      rcases List.mem_append.1 hevent with hfirst | hsecond
      · exact h event hfirst
      · exact h' e event hsecond

end Only

end Traced
end Library
