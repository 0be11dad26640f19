import Mathlib.Tactic.Common

/-!
# `while` loops with a round budget

`While.run cond body n s` runs `while (cond) body` from `s` for at most `n` rounds. The
result is `none` exactly when the loop is still going after `n` rounds, so a loop that
never ends is `none` for every budget. The rules below are the ones a loop needs:

* `run_inv`, partial correctness by an invariant;
* `exists_run`, total correctness by an invariant and a measure;
* `run_eq_none_of_stuck`, a round that changes nothing never ends;
* `run_none_all`, when every round either makes progress or is such a stuck round, a
  budget of one measure decides the loop;
* `Round.inv`, for what holds at the start of every round.

`scanl_inv` is the rule for a loop over a list, `foldlM_inv`, `foldlM_ok` and `foldlM_all` are those
for one whose body may fail.
-/

namespace NetLabs.Lib
namespace While

variable {σ : Type*} {cond : σ → Bool} {body : σ → σ}

/-- At most `n` rounds of `while (cond) body`; `none` if the loop is not over by then. -/
def run (cond : σ → Bool) (body : σ → σ) : ℕ → σ → Option σ
  | 0, s => if cond s then none else some s
  | n + 1, s => if cond s then run cond body n (body s) else some s

lemma run_of_not_cond {s : σ} (h : cond s = false) (n : ℕ) : run cond body n s = some s := by
  cases n <;> simp [run, h]

lemma run_succ_of_cond {s : σ} (h : cond s = true) (n : ℕ) :
    run cond body (n + 1) s = run cond body n (body s) := by
  simp [run, h]

lemma run_zero_of_cond {s : σ} (h : cond s = true) : run cond body 0 s = none := by
  simp [run, h]

/-- Partial correctness: what every round keeps holds when the loop is left, and the loop
is left only when its condition fails. -/
theorem run_inv {I : σ → Prop} (hbody : ∀ s, I s → cond s = true → I (body s)) :
    ∀ (n : ℕ) {s t : σ}, I s → run cond body n s = some t → I t ∧ cond t = false := by
  intro n
  induction n with
  | zero =>
    intro s t hs hrun
    cases hc : cond s with
    | false =>
      rw [run_of_not_cond hc] at hrun
      obtain rfl := Option.some.inj hrun
      exact ⟨hs, hc⟩
    | true =>
      rw [run_zero_of_cond hc] at hrun
      cases hrun
  | succ n ih =>
    intro s t hs hrun
    cases hc : cond s with
    | false =>
      rw [run_of_not_cond hc] at hrun
      obtain rfl := Option.some.inj hrun
      exact ⟨hs, hc⟩
    | true =>
      rw [run_succ_of_cond hc] at hrun
      exact ih (hbody s hs hc) hrun

/-- Total correctness: an invariant and a measure that every round lowers. -/
theorem exists_run {I : σ → Prop} (μ : σ → ℕ)
    (hbody : ∀ s, I s → cond s = true → I (body s) ∧ μ (body s) < μ s) :
    ∀ (n : ℕ) {s : σ}, I s → μ s ≤ n → ∃ t, run cond body n s = some t := by
  intro n
  induction n with
  | zero =>
    intro s hs hμ
    cases hc : cond s with
    | false => exact ⟨s, run_of_not_cond hc 0⟩
    | true =>
      have hlt := (hbody s hs hc).2
      omega
  | succ n ih =>
    intro s hs hμ
    cases hc : cond s with
    | false => exact ⟨s, run_of_not_cond hc (n + 1)⟩
    | true =>
      obtain ⟨hI, hlt⟩ := hbody s hs hc
      rw [run_succ_of_cond hc]
      exact ih hI (by omega)

/-- A round that leaves the state as it was is repeated for ever. -/
theorem run_eq_none_of_stuck {s : σ} (hc : cond s = true) (hb : body s = s) (n : ℕ) :
    run cond body n s = none := by
  induction n with
  | zero => exact run_zero_of_cond hc
  | succ n ih => rw [run_succ_of_cond hc, hb, ih]

/-- If every round either lowers the measure or is stuck, a budget of one measure decides
the loop: out of budget means the loop never ends. -/
theorem run_none_all {μ : σ → ℕ}
    (hbody : ∀ s, cond s = true → body s = s ∨ μ (body s) < μ s) :
    ∀ (n : ℕ) {s : σ}, μ s ≤ n → run cond body n s = none →
      ∀ m, run cond body m s = none := by
  intro n
  induction n with
  | zero =>
    intro s hμ hrun m
    cases hc : cond s with
    | false => rw [run_of_not_cond hc] at hrun; cases hrun
    | true =>
      rcases hbody s hc with hb | hlt
      · exact run_eq_none_of_stuck hc hb m
      · omega
  | succ n ih =>
    intro s hμ hrun m
    cases hc : cond s with
    | false => rw [run_of_not_cond hc] at hrun; cases hrun
    | true =>
      rcases hbody s hc with hb | hlt
      · exact run_eq_none_of_stuck hc hb m
      · rw [run_succ_of_cond hc] at hrun
        -- one round less on both sides: the budget of the measure and the budget `m`
        cases m with
        | zero => exact run_zero_of_cond hc
        | succ m => rw [run_succ_of_cond hc]; exact ih (by omega) hrun m

/-- The states in which a round of the loop starts, when the loop is entered in `s`. -/
inductive Round (cond : σ → Bool) (body : σ → σ) (s : σ) : σ → Prop
  | first : cond s = true → Round cond body s s
  | next {t : σ} : Round cond body s t → cond (body t) = true → Round cond body s (body t)

/-- What holds when the loop is entered and is kept by every round holds at the start of every
round, and so does the condition. -/
theorem Round.inv {I : σ → Prop} {s t : σ} (h : Round cond body s t) (hs : I s)
    (hbody : ∀ u, I u → cond u = true → I (body u)) : I t ∧ cond t = true := by
  induction h with
  | first hc => exact ⟨hs, hc⟩
  | next _ hc ih => exact ⟨hbody _ ih.1 ih.2, hc⟩

end While

/-- An invariant of a loop over a list: it holds before and after every round. -/
theorem scanl_inv {σ α : Type*} {f : σ → α → σ} {I : σ → Prop} :
    ∀ {l : List α} {s : σ}, (∀ a ∈ l, ∀ t, I t → I (f t a)) → I s →
      (∀ t ∈ l.scanl f s, I t) ∧ I (l.foldl f s) := by
  intro l
  induction l with
  | nil =>
    intro s _ hs
    simpa using hs
  | cons a l ih =>
    intro s hbody hs
    have hrest := ih (fun b hb => hbody b (List.mem_cons_of_mem a hb))
      (hbody a List.mem_cons_self s hs)
    rw [List.scanl_cons, List.foldl_cons]
    refine ⟨fun t ht => ?_, hrest.2⟩
    rcases List.mem_cons.mp ht with rfl | ht
    · exact hs
    · exact hrest.1 t ht

section
variable {σ α ε : Type*} {f : σ → α → Except ε σ}

/-- An invariant of a loop over a list that did not fail. -/
theorem foldlM_inv {I : σ → Prop} (hbody : ∀ {s a t}, f s a = .ok t → I s → I t) :
    ∀ (l : List α) {s t : σ}, l.foldlM f s = .ok t → I s → I t := by
  intro l
  induction l with
  | nil =>
    intro s t h hs
    obtain rfl : s = t := Except.ok.inj h
    exact hs
  | cons a l ih =>
    intro s t h hs
    rw [List.foldlM_cons] at h
    cases hfirst : f s a with
    | error e => rw [hfirst] at h; cases h
    | ok u =>
      rw [hfirst] at h
      exact ih h (hbody hfirst hs)

/-- A loop over a list whose body never fails. -/
theorem foldlM_ok (hbody : ∀ s a, ∃ t, f s a = .ok t) :
    ∀ (l : List α) (s : σ), ∃ t, l.foldlM f s = .ok t := by
  intro l
  induction l with
  | nil => exact fun s => ⟨s, rfl⟩
  | cons a l ih =>
    intro s
    obtain ⟨u, hu⟩ := hbody s a
    obtain ⟨t, ht⟩ := ih u
    refine ⟨t, ?_⟩
    rw [List.foldlM_cons, hu]
    exact ht

/-- What a round establishes for its own entry, and every round keeps, holds of all entries. -/
theorem foldlM_all {P : σ → α → Prop} (hset : ∀ {s a t}, f s a = .ok t → P t a)
    (hkeep : ∀ {s a t} b, f s a = .ok t → P s b → P t b) :
    ∀ (l : List α) {s t : σ}, l.foldlM f s = .ok t → ∀ a ∈ l, P t a := by
  intro l
  induction l with
  | nil => simp
  | cons b l ih =>
    intro s t h a ha
    rw [List.foldlM_cons] at h
    cases hfirst : f s b with
    | error e => rw [hfirst] at h; cases h
    | ok u =>
      rw [hfirst] at h
      rcases List.mem_cons.mp ha with rfl | ha
      · exact foldlM_inv (I := (P · a)) (hkeep a) l h (hset hfirst)
      · exact ih h a ha

end
end NetLabs.Lib
