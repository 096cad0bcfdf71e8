import Mathlib.Data.Option.Basic

/-!
# Runs of a partial step

A system takes events one after another; an event that cannot happen leaves it
as it is. `EveryStep` asks something of every step of a run and the state it
starts from, and an invariant that such steps keep holds at the end of the run.
-/

namespace Runs

variable {σ ε : Type} (step : σ → ε → Option σ)

def next (s : σ) (e : ε) : σ := (step s e).getD s

def run (s : σ) (es : List ε) : σ := es.foldl (next step) s

def EveryStep (R : σ → ε → Prop) : σ → List ε → Prop
  | _, [] => True
  | s, e :: es => R s e ∧ EveryStep R (next step s e) es

instance EveryStep.decidable (R : σ → ε → Prop) [∀ s e, Decidable (R s e)] : ∀ s es, Decidable (EveryStep step R s es)
  | _, [] => isTrue trivial
  | s, e :: es => @instDecidableAnd _ _ _ (EveryStep.decidable R (next step s e) es)

variable {step} {R R' : σ → ε → Prop}

theorem next_of_step {s s' : σ} {e : ε} (h : step s e = some s') : next step s e = s' := by simp [next, h]

theorem next_keeps {P : σ → Prop} {s : σ} {e : ε} (hP : ∀ s', step s e = some s' → P s') (hs : P s) :
    P (next step s e) := by
  unfold next
  cases h : step s e with
  | none => exact hs
  | some s' => exact hP s' h

/-- A run that comes to `Q` has a step at which it does. -/
theorem exists_turn {Q : σ → Prop} (es : List ε) : ∀ {s}, ¬ Q s → Q (run step s es) →
    ∃ earlier e later s', es = earlier ++ e :: later ∧ ¬ Q (run step s earlier) ∧
      step (run step s earlier) e = some s' ∧ Q s' := by
  induction es with
  | nil => exact fun hs h => absurd h hs
  | cons e es ih =>
    intro s hs h
    by_cases hnext : Q (next step s e)
    · cases hstep : step s e with
      | none =>
        rw [next, hstep] at hnext
        exact absurd hnext hs
      | some s' =>
        rw [next_of_step hstep] at hnext
        exact ⟨[], e, es, s', rfl, hs, hstep, hnext⟩
    · obtain ⟨earlier, e', later, s', rfl, hrest⟩ := ih hnext h
      exact ⟨e :: earlier, e', later, s', rfl, hrest⟩

namespace EveryStep

theorem invariant {P : σ → Prop} (hP : ∀ s e s', step s e = some s' → R s e → P s → P s') (es : List ε) :
    ∀ s, P s → EveryStep step R s es → P (run step s es) := by
  induction es with
  | nil => exact fun s hs _ => hs
  | cons e es ih =>
    intro s hs hR
    exact ih _ (next_keeps (fun s' h => hP s e s' h hR.1 hs) hs) hR.2

theorem along {P : σ → Prop} (hP : ∀ s e s', step s e = some s' → R s e → P s → P s')
    (hR' : ∀ s e, P s → R s e → R' s e) (es : List ε) :
    ∀ s, P s → EveryStep step R s es → EveryStep step R' s es := by
  induction es with
  | nil => exact fun _ _ _ => trivial
  | cons e es ih =>
    intro s hs hR
    exact ⟨hR' s e hs hR.1, ih _ (next_keeps (fun s' h => hP s e s' h hR.1 hs) hs) hR.2⟩

theorem of_forall (hR : ∀ s e, R s e) (es : List ε) : ∀ s, EveryStep step R s es := by
  induction es with
  | nil => exact fun _ => trivial
  | cons e es ih => exact fun s => ⟨hR s e, ih _⟩

theorem of_mem (es : List ε) (hR : ∀ e ∈ es, ∀ s, R s e) : ∀ s, EveryStep step R s es := by
  induction es with
  | nil => exact fun _ => trivial
  | cons e es ih =>
    intro s
    exact ⟨hR e (List.mem_cons_self ..) s, ih (fun d hd => hR d (List.mem_cons_of_mem _ hd)) _⟩

/-- Where a function of the state commutes with every step, it commutes with the run. -/
theorem run_map {τ : Type} {step' : τ → ε → Option τ} {f : σ → τ} {P : σ → Prop}
    (hP : ∀ s e s', step s e = some s' → R s e → P s → P s')
    (hf : ∀ s e, P s → step' (f s) e = (step s e).map f) (es : List ε) :
    ∀ s, P s → EveryStep step R s es → run step' (f s) es = f (run step s es) := by
  induction es with
  | nil => exact fun _ _ _ => rfl
  | cons e es ih =>
    intro s hs hR
    have hnext : next step' (f s) e = f (next step s e) := by
      unfold next
      rw [hf s e hs]
      cases step s e <;> rfl
    have hrest := ih _ (next_keeps (fun s' h => hP s e s' h hR.1 hs) hs) hR.2
    unfold run at hrest ⊢
    rw [List.foldl_cons, List.foldl_cons, hnext]
    exact hrest

theorem append {es es' : List ε} : ∀ {s}, EveryStep step R s es → EveryStep step R (run step s es) es' →
    EveryStep step R s (es ++ es') := by
  induction es with
  | nil => exact fun _ h' => h'
  | cons e es ih => exact fun h h' => ⟨h.1, ih h.2 h'⟩

theorem and (es : List ε) : ∀ s, EveryStep step R s es → EveryStep step R' s es →
    EveryStep step (fun s e => R s e ∧ R' s e) s es := by
  induction es with
  | nil => exact fun _ _ _ => trivial
  | cons e es ih => exact fun s h h' => ⟨⟨h.1, h'.1⟩, ih _ h.2 h'.2⟩

end EveryStep

end Runs
