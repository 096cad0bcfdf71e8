import Mathlib.Data.List.Induction
import Mathlib.Data.Option.Basic

/-!
# Stores that forget

A store keeps a record for each key and drops some that have expired. Where an
operation cannot tell an expired record from none, a key fares as it would in a
store of its own that drops nothing.
-/

namespace Eviction

variable {τ κ ο ρ : Type}

structure Call (τ κ ο : Type) where
  time : τ
  key : κ
  op : ο
  deriving DecidableEq

section
variable (expired : τ → ρ → Bool) (act : τ → ο → Option ρ → Option ρ)

/-- What is stored is the record kept, unless that one has expired. -/
def Forgets (t : τ) (kept stored : Option ρ) : Prop := stored = kept ∨ stored = none ∧ kept.any (expired t) = true

structure Expiring [LE τ] : Prop where
  mono : ∀ {t t' r}, t ≤ t' → expired t r = true → expired t' r = true
  act_expired : ∀ {t o r}, expired t r = true → Forgets expired t (act t o (some r)) (act t o none)

/-- An operation acts on the record of its key and may drop expired records of the others. -/
structure Follows (step : (κ → Option ρ) → Call τ κ ο → κ → Option ρ) : Prop where
  own : ∀ m c, step m c c.key = act c.time c.op (m c.key)
  other : ∀ m c k, k ≠ c.key → step m c k = m k ∨ step m c k = (m k).filter fun r => !expired c.time r

end

/-- The record of a key that has a store of its own. -/
def ownRecord [DecidableEq κ] (act : τ → ο → Option ρ → Option ρ) (key : κ) (calls : List (Call τ κ ο)) : Option ρ :=
  (calls.filter (·.key = key)).foldl (fun r c => act c.time c.op r) none

abbrev InOrder [LE τ] (calls : List (Call τ κ ο)) : Prop := calls.Pairwise (·.time ≤ ·.time)

section
variable [LE τ] {expired : τ → ρ → Bool} {act : τ → ο → Option ρ → Option ρ}

theorem Forgets.later (hx : Expiring expired act) {t t' : τ} {kept stored : Option ρ} (h : Forgets expired t kept stored)
    (hle : t ≤ t') : Forgets expired t' kept stored := by
  rcases h with rfl | ⟨hnone, hkept⟩
  · exact Or.inl rfl
  · cases kept with
    | none => cases hkept
    | some r => exact Or.inr ⟨hnone, hx.mono hle hkept⟩

theorem Forgets.acted (hx : Expiring expired act) {t : τ} {kept stored : Option ρ} (h : Forgets expired t kept stored)
    (o : ο) : Forgets expired t (act t o kept) (act t o stored) := by
  rcases h with rfl | ⟨rfl, hkept⟩
  · exact Or.inl rfl
  · cases kept with
    | none => cases hkept
    | some r => exact hx.act_expired hkept

omit [LE τ] in
theorem Forgets.filter {t : τ} {kept stored : Option ρ} (h : Forgets expired t kept stored) :
    Forgets expired t kept (stored.filter fun r => !expired t r) := by
  rcases h with rfl | ⟨rfl, hkept⟩
  · cases hs : stored with
    | none => exact Or.inl rfl
    | some r =>
      by_cases hr : expired t r = true
      · exact Or.inr ⟨by simp [Option.filter, hr], hr⟩
      · exact Or.inl (by simp [Option.filter, hr])
  · exact Or.inr ⟨rfl, hkept⟩

variable [DecidableEq κ] {step : (κ → Option ρ) → Call τ κ ο → κ → Option ρ}

omit [LE τ] in
theorem ownRecord_snoc (key : κ) (calls : List (Call τ κ ο)) (c : Call τ κ ο) :
    ownRecord act key (calls ++ [c]) =
      if c.key = key then act c.time c.op (ownRecord act key calls) else ownRecord act key calls := by
  unfold ownRecord
  rw [List.filter_append, List.foldl_append]
  by_cases hk : c.key = key <;> simp [hk]

/-- Dropping is invisible: what is stored differs from a store of the key's own by expired records only. -/
theorem Follows.forgets (hs : Follows expired act step) (hx : Expiring expired act) (key : κ)
    (calls : List (Call τ κ ο)) :
    InOrder calls → ∀ now, (∀ c ∈ calls, c.time ≤ now) →
      Forgets expired now (ownRecord act key calls) (calls.foldl step (fun _ => none) key) := by
  induction calls using List.reverseRecOn with
  | nil => exact fun _ _ _ => Or.inl rfl
  | append_singleton calls c ih =>
    intro horder now hnow
    obtain ⟨hcalls, -, hlast⟩ := List.pairwise_append.mp horder
    have hbefore := ih hcalls c.time fun d hd => hlast d hd c (List.mem_singleton_self c)
    rw [ownRecord_snoc, List.foldl_append]
    refine Forgets.later hx (t := c.time) ?_ (hnow c (by simp))
    by_cases hk : c.key = key
    · subst hk
      rw [if_pos rfl, List.foldl_cons, List.foldl_nil, hs.own]
      exact hbefore.acted hx c.op
    · rw [if_neg hk, List.foldl_cons, List.foldl_nil]
      rcases hs.other (calls.foldl step fun _ => none) c key (Ne.symm hk) with h | h
      · rw [h]
        exact hbefore
      · rw [h]
        exact hbefore.filter

/-- What every operation leaves in its own record holds of all that is stored. -/
theorem Follows.stored (hs : Follows expired act step) {good : τ → ρ → Prop}
    (hmono : ∀ {t t' r}, t ≤ t' → good t r → good t' r)
    (hact : ∀ {t o r}, (∀ r₀, r = some r₀ → good t r₀) → ∀ r', act t o r = some r' → good t r')
    (calls : List (Call τ κ ο)) :
    InOrder calls → ∀ now, (∀ c ∈ calls, c.time ≤ now) →
      ∀ k r, calls.foldl step (fun _ => none) k = some r → good now r := by
  induction calls using List.reverseRecOn with
  | nil => exact fun _ _ _ k r h => by cases h
  | append_singleton calls c ih =>
    intro horder now hnow k r hr
    obtain ⟨hcalls, -, hlast⟩ := List.pairwise_append.mp horder
    have hbefore := ih hcalls c.time fun d hd => hlast d hd c (List.mem_singleton_self c)
    rw [List.foldl_append, List.foldl_cons, List.foldl_nil] at hr
    refine hmono (hnow c (by simp)) ?_
    by_cases hk : k = c.key
    · subst hk
      rw [hs.own] at hr
      exact hact (hbefore c.key) r hr
    · rcases hs.other (calls.foldl step fun _ => none) c k hk with h | h
      · exact hbefore k r (h ▸ hr)
      · exact hbefore k r (Option.filter_eq_some_iff.mp (h ▸ hr)).1

end

end Eviction
