import Mathlib.Order.WellFounded
import Mathlib.Tactic.Common

/-!
# Runs of a transition system

A system is a step function `step : σ → ε → Option σ`; `none` means that the event cannot
happen in that state (or that its handler never returns). `Run step ok init s` says that `s`
is reached from an initial state by events that are all allowed by `ok`, which sees the
state before the event, the event and the state after it. `steps step es n s` is the state after the
first `n` events of the sequence `es`; a rank that every event lowers brings any sequence to its end
(`exists_steps_of_rank`). `play` makes runs that can be evaluated.
-/

namespace NetLabs.Lib

section
variable {σ ε : Type*} {step : σ → ε → Option σ} {ok ok' : σ → ε → σ → Prop} {init : σ → Prop}

/-- The states reached by allowed events. -/
inductive Run (step : σ → ε → Option σ) (ok : σ → ε → σ → Prop) (init : σ → Prop) : σ → Prop
  | start {s : σ} : init s → Run step ok init s
  | next {s t : σ} {e : ε} : Run step ok init s → step s e = some t → ok s e t →
      Run step ok init t

namespace Run

/-- What holds initially and is kept by every allowed event holds in every state of a run. -/
theorem invariant {I : σ → Prop} (hinit : ∀ s, init s → I s)
    (hstep : ∀ s e t, Run step ok init s → I s → step s e = some t → ok s e t → I t)
    {s : σ} (h : Run step ok init s) : I s := by
  induction h with
  | start hs => exact hinit _ hs
  | next hrun he hok ih => exact hstep _ _ _ hrun ih he hok

/-- A run stays a run under restrictions that follow, in the states it passes through. -/
theorem mono (hok : ∀ s e t, Run step ok init s → ok s e t → ok' s e t) {s : σ}
    (h : Run step ok init s) : Run step ok' init s := by
  induction h with
  | start hs => exact .start hs
  | next hrun he hallow ih => exact ih.next he (hok _ _ _ hrun hallow)

/-- A run that goes on from a state of a run. -/
theorem trans {s t : σ} (h : Run step ok init s) (h' : Run step ok (· = s) t) :
    Run step ok init t := by
  induction h' with
  | start hs => exact hs ▸ h
  | next _ he hok ih => exact ih.next he hok

end Run

/-! ## Sequences of events -/

/-- The first `n` events of a sequence, one after the other. -/
def steps (step : σ → ε → Option σ) : (ℕ → ε) → ℕ → σ → Option σ
  | _, 0, s => some s
  | es, n + 1, s => (step s (es 0)).bind (steps step (fun i => es (i + 1)) n)

lemma steps_succ {es : ℕ → ε} {s t : σ} (h : step s (es 0) = some t) (n : ℕ) :
    steps step es (n + 1) s = steps step (fun i => es (i + 1)) n t := by
  rw [steps, h, Option.bind_some]

/-- **Progress by a rank.** If every allowed event can happen in every state that is not yet done,
and lowers the rank, then every sequence of allowed events comes to a state that is. -/
theorem exists_steps_of_rank {α : Type*} [Preorder α] [WellFoundedLT α] (rank : σ → α)
    (I done : σ → Prop) (good : ε → Prop)
    (hstep : ∀ s e, I s → ¬done s → good e → ∃ t, step s e = some t ∧ I t ∧ rank t < rank s)
    {s : σ} (hs : I s) {es : ℕ → ε} (hes : ∀ n, good (es n)) :
    ∃ n t, steps step es n s = some t ∧ I t ∧ done t := by
  induction hr : rank s using WellFoundedLT.induction generalizing s es with
  | ind r ih =>
    by_cases hdone : done s
    · exact ⟨0, s, rfl, hs, hdone⟩
    · obtain ⟨t, ht, hI, hlt⟩ := hstep s (es 0) hs hdone (hes 0)
      obtain ⟨n, u, hn, hu⟩ := ih (rank t) (hr ▸ hlt) hI (fun n => hes (n + 1)) rfl
      exact ⟨n + 1, u, (steps_succ ht n).trans hn, hu⟩

/-- A list of moves, one after the other, as long as each of them passes a test. A move may look at
the state for the event to choose. -/
def play (step : σ → ε → Option σ) (test : σ → ε → σ → Bool) : σ → List (σ → ε) → Option σ
  | s, [] => some s
  | s, f :: fs => (step s (f s)).bind fun t => if test s (f s) t then play step test t fs else none

/-- A test that passes a good event only when it is allowed makes a run of good moves. -/
lemma Run.play {good : ε → Prop} {test : σ → ε → σ → Bool}
    (htest : ∀ s e t, good e → test s e t = true → ok s e t) :
    ∀ {fs : List (σ → ε)} {s t : σ}, (∀ f ∈ fs, ∀ s, good (f s)) → Run step ok init s →
      NetLabs.Lib.play step test s fs = some t → Run step ok init t := by
  intro fs
  induction fs with
  | nil =>
    intro s t _ hs h
    obtain rfl := Option.some.inj h
    exact hs
  | cons f fs ih =>
    intro s t hgood hs h
    rw [NetLabs.Lib.play, Option.bind_eq_some_iff] at h
    obtain ⟨u, hu, hrest⟩ := h
    rw [Option.ite_none_right_eq_some] at hrest
    rw [List.forall_mem_cons] at hgood
    exact ih hgood.2 (hs.next hu (htest s (f s) u (hgood.1 s) hrest.1)) hrest.2

end
end NetLabs.Lib
