import NetLabs.Lib.While

/-!
# Programs that may fault, and programs that may not

A program over concrete states may fault (`Except`), and it may never return (`Option`). Its
abstract counterpart cannot fault. `Refines view I x y` says that the concrete program `x` does not
fault, keeps the invariant `I`, and computes what the abstract program `y` computes, seen through
`view`. The rules below build a refinement along the text of the program: `pure`, `map`, `bind`,
and `runM` for a `while` loop whose body may fault.
-/

namespace NetLabs.Lib

variable {ε σ τ α β γ δ : Type*}

/-- The concrete program does not fault, keeps `I`, and is the abstract one seen through `view`. -/
def Refines (view : α → β) (I : α → Prop) (x : Except ε (Option α)) (y : Option β) : Prop :=
  ∃ r, x = .ok r ∧ r.map view = y ∧ ∀ a ∈ r, I a

namespace Refines

variable {view : α → β} {I : α → Prop} {x : Except ε (Option α)} {y : Option β}

lemma pure {a : α} (ha : I a) : Refines (ε := ε) view I (.ok (some a)) (some (view a)) :=
  ⟨some a, rfl, rfl, fun _ hb => Option.mem_some_iff.mp hb ▸ ha⟩

/-- A computation that cannot fault, on the result of one that can. -/
lemma map {view' : γ → δ} {J : γ → Prop} {f : α → γ} {g : β → δ} (h : Refines view I x y)
    (hf : ∀ a, I a → J (f a) ∧ view' (f a) = g (view a)) :
    Refines view' J (x.map (Option.map f)) (y.map g) := by
  obtain ⟨r, rfl, rfl, hr⟩ := h
  refine ⟨r.map f, rfl, ?_, ?_⟩
  · cases r with
    | none => rfl
    | some a => exact congrArg some (hf a (hr a rfl)).2
  · intro c hc
    obtain ⟨a, ha, rfl⟩ := Option.map_eq_some_iff.mp hc
    exact (hf a (hr a ha)).1

/-- The concrete program returned. -/
lemma of_eq_some {a : α} (h : Refines view I x y) (hx : x = .ok (some a)) :
    y = some (view a) ∧ I a := by
  obtain ⟨r, rfl, rfl, hr⟩ := h
  obtain rfl := Except.ok.inj hx
  exact ⟨rfl, hr a rfl⟩

end Refines

namespace While

/-- At most `n` rounds of a loop whose body may fault. -/
def runM (cond : σ → Bool) (body : σ → Except ε σ) : ℕ → σ → Except ε (Option σ)
  | 0, s => if cond s then .ok none else .ok (some s)
  | n + 1, s => if cond s then body s >>= runM cond body n else .ok (some s)

lemma runM_of_not_cond {cond : σ → Bool} {body : σ → Except ε σ} {s : σ} (h : cond s = false)
    (n : ℕ) : runM cond body n s = .ok (some s) := by
  cases n <;> simp [runM, h]

lemma runM_succ_of_cond {cond : σ → Bool} {body : σ → Except ε σ} {s : σ} (h : cond s = true)
    (n : ℕ) : runM cond body (n + 1) s = body s >>= runM cond body n := by
  simp [runM, h]

section
variable {cond : σ → Bool} {cond' : τ → Bool} {view : σ → τ} {I : σ → Prop}

/-- **Refinement of a loop**: rounds that do not fault, keep `I` and refine abstract rounds. -/
theorem runM_refines {body : σ → Except ε σ} {body' : τ → τ}
    (hcond : ∀ s, I s → cond s = cond' (view s))
    (hbody : ∀ s, I s → cond s = true → ∃ t, body s = .ok t ∧ I t ∧ view t = body' (view s)) :
    ∀ (n : ℕ) {s : σ}, I s → Refines view I (runM cond body n s) (run cond' body' n (view s)) := by
  intro n
  induction n with
  | zero =>
    intro s hs
    have hc := hcond s hs
    unfold runM run
    cases h : cond s with
    | false =>
      rw [h] at hc
      rw [← hc]
      exact .pure hs
    | true =>
      rw [h] at hc
      rw [← hc]
      exact ⟨none, rfl, rfl, fun _ ha => by cases ha⟩
  | succ n ih =>
    intro s hs
    have hc := hcond s hs
    unfold runM run
    cases h : cond s with
    | false =>
      rw [h] at hc
      rw [← hc]
      exact .pure hs
    | true =>
      rw [h] at hc
      rw [← hc]
      obtain ⟨t, ht, hI, hview⟩ := hbody s hs h
      rw [if_pos rfl, if_pos rfl, ht, ← hview]
      exact ih hI

/-- The same for a loop that cannot fault. -/
lemma run_view {body : σ → σ} {body' : τ → τ} (hcond : ∀ s, cond s = cond' (view s))
    (hbody : ∀ s, view (body s) = body' (view s)) :
    ∀ (n : ℕ) (s : σ), (run cond body n s).map view = run cond' body' n (view s) := by
  intro n
  induction n with
  | zero =>
    intro s
    rw [run, run, hcond s]
    split <;> rfl
  | succ n ih =>
    intro s
    rw [run, run, hcond s, ← hbody s, ← ih (body s)]
    split <;> rfl

end
end While
end NetLabs.Lib
