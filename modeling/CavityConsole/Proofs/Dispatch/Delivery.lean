import CavityConsole.Dispatch.Dispatcher

/-!
# What dispatching a line comes to

A line is refused exactly when it is no document, and then nobody hears of it. When the listeners
return, every other line is dispatched, and each of its calls is made, in order
(`makeCalls_of_returns`, `dispatchLine_of_returns`). What every single call keeps is kept, whether
or not they return (`makeCalls_keeps`).
-/

namespace CavityConsole.Dispatcher

variable {ν ρ σ : Type}

/-- Every call of a listener returns. -/
def Returns (hear : σ → Delivery ν ρ → Except σ σ) : Prop :=
  ∀ state call, ∃ after, hear state call = .ok after

/-- The state that a call leaves behind, whether or not it returns. -/
def after (hear : σ → Delivery ν ρ → Except σ σ) (state : σ) (call : Delivery ν ρ) : σ :=
  match hear state call with
  | .ok state => state
  | .error state => state

/-- Calls that return are all made, one after the other. -/
theorem makeCalls_of_returns {hear : σ → Delivery ν ρ → Except σ σ} (returns : Returns hear)
    (state : σ) (calls : List (Delivery ν ρ)) :
    makeCalls hear state calls = (calls.foldl (after hear) state, true) := by
  induction calls generalizing state with
  | nil => rfl
  | cons call calls ih =>
    obtain ⟨next, hnext⟩ := returns state call
    have hafter : after hear state call = next := by rw [after, hnext]
    rw [makeCalls, hnext, List.foldl_cons, hafter]
    exact ih next

/-- What every call keeps is kept by all of them, also when one of them breaks down. -/
theorem makeCalls_keeps {hear : σ → Delivery ν ρ → Except σ σ} {keeps : σ → Prop}
    {calls : List (Delivery ν ρ)}
    (h : ∀ state, keeps state → ∀ call ∈ calls, keeps (after hear state call)) {state : σ}
    (hstate : keeps state) : keeps (makeCalls hear state calls).1 := by
  induction calls generalizing state with
  | nil => exact hstate
  | cons call calls ih =>
    have hnext := h state hstate call List.mem_cons_self
    unfold after at hnext
    rw [makeCalls]
    cases hcall : hear state call with
    | error next =>
      rw [hcall] at hnext
      exact hnext
    | ok next =>
      rw [hcall] at hnext
      exact ih (fun state hstate call hmem => h state hstate call (List.mem_cons_of_mem _ hmem))
        hnext

variable (dispatcher : Dispatcher ν ρ) (note : σ → LogEntry → σ)

/-- A line that is no document is refused, and nothing happens. -/
theorem dispatchLine_of_error {hear : σ → Delivery ν ρ → Except σ σ} {line : String}
    {error : DecodeError} (h : Document.ofLine line = .error error) (state : σ) :
    dispatcher.dispatchLine note hear state line = (state, .refused error) := by
  rw [dispatchLine, h]

/-- A document is logged about and then delivered. -/
theorem dispatchLine_of_returns {hear : σ → Delivery ν ρ → Except σ σ} (returns : Returns hear)
    {line : String} {document : Document} (h : Document.ofLine line = .ok document) (state : σ) :
    dispatcher.dispatchLine note hear state line =
      ((dispatcher.calls (Routing.ofDocument document).1).foldl (after hear)
        ((Routing.ofDocument document).2.foldl note state), .dispatched) := by
  rw [dispatchLine, h]
  simp only [makeCalls_of_returns returns, if_pos]

end CavityConsole.Dispatcher
