import Mathlib.Computability.StateTransition
import Mathlib.Logic.Relation

/-!
# Chains of a partial successor

The chains of `next : α → Option α` are the classes of points that come to a
common point. Where every point comes to a head, a point with no successor,
each chain has exactly one head and `next` has no cycle; where `next` is
injective as well, a chain is linear.
-/

namespace Chain

open Relation
open StateTransition (Reaches)

variable {α β : Type} (next : α → Option α)

def Headed (a : α) : Prop := ∃ h, Reaches next a h ∧ next h = none

def SameChain : α → α → Prop := Join (Reaches next)

variable {next}

theorem SameChain.of_reaches {a b : α} (h : Reaches next a b) : SameChain next a b := ⟨b, h, .refl⟩

theorem eq_of_reaches {h b : α} (hh : next h = none) (hb : Reaches next h b) : b = h := by
  rcases ReflTransGen.cases_head hb with rfl | ⟨c, hc, -⟩
  · rfl
  · rw [Option.mem_def, hh] at hc
    cases hc

/-- From anywhere on the way the chain goes on to its end. -/
theorem reaches_end {a b h : α} (hh : next h = none) (hb : Reaches next a b) (hr : Reaches next a h) :
    Reaches next b h := by
  rcases StateTransition.reaches_total hb hr with h' | h'
  · exact h'
  · rw [eq_of_reaches hh h']
    exact .refl

theorem end_unique {a h h' : α} (hh : next h = none) (hh' : next h' = none) (hr : Reaches next a h)
    (hr' : Reaches next a h') : h = h' :=
  (eq_of_reaches hh (reaches_end hh' hr hr')).symm

theorem reaches_of_sameChain {a h : α} (hh : next h = none) (hs : SameChain next a h) : Reaches next a h := by
  obtain ⟨c, hac, hhc⟩ := hs
  rw [← eq_of_reaches hh hhc]
  exact hac

theorem existsUnique_head {a : α} (ha : Headed next a) : ∃! h, SameChain next a h ∧ next h = none := by
  obtain ⟨h, hr, hh⟩ := ha
  refine ⟨h, ⟨.of_reaches hr, hh⟩, fun h' ⟨hs', hh'⟩ => ?_⟩
  exact end_unique hh' hh (reaches_of_sameChain hh' hs') hr

theorem transGen_step {a b : α} (hb : b ∈ next a) (ha : TransGen (fun a b => b ∈ next a) a a) :
    TransGen (fun a b => b ∈ next a) b b := by
  obtain ⟨c, hc, hca⟩ := TransGen.head'_iff.mp ha
  obtain rfl : b = c := Option.mem_unique hb hc
  exact TransGen.tail' hca hb

theorem acyclic {a : α} (ha : Headed next a) : ¬ TransGen (fun a b => b ∈ next a) a a := by
  obtain ⟨h, hr, hh⟩ := ha
  intro hc
  have cycle : ∀ {b}, Reaches next a b → TransGen (fun a b => b ∈ next a) b b := fun hr => by
    induction hr with
    | refl => exact hc
    | tail _ hb ih => exact transGen_step hb ih
  obtain ⟨c, hc, -⟩ := TransGen.head'_iff.mp (cycle hr)
  rw [Option.mem_def, hh] at hc
  cases hc

theorem linear (hinj : ∀ a a' b, b ∈ next a → b ∈ next a' → a = a') {a b : α} (h : SameChain next a b) :
    Reaches next a b ∨ Reaches next b a := by
  obtain ⟨c, hac, hbc⟩ := h
  have hsw : Relator.RightUnique (Function.swap fun a b => b ∈ next a) := fun c a a' ha ha' => hinj a a' c ha ha'
  have ha := reflTransGen_swap.mpr hac
  have hb := reflTransGen_swap.mpr hbc
  rcases ReflTransGen.total_of_right_unique hsw ha hb with h1 | h1
  · exact Or.inr (reflTransGen_swap.mp h1)
  · exact Or.inl (reflTransGen_swap.mp h1)

/-- What every step keeps is the same all along a chain. -/
theorem constant {f : α → β} (hf : ∀ a b, b ∈ next a → f a = f b) {a b : α} (h : SameChain next a b) : f a = f b := by
  have along : ∀ {a c}, Reaches next a c → f a = f c := fun h => by
    induction h with
    | refl => rfl
    | tail _ hc ih => exact ih.trans (hf _ _ hc)
  obtain ⟨c, hac, hbc⟩ := h
  exact (along hac).trans (along hbc).symm

theorem reaches_mono {next' : α → Option α} (h : ∀ a b, b ∈ next a → b ∈ next' a) {a b : α} (hr : Reaches next a b) :
    Reaches next' a b :=
  ReflTransGen.mono h _ _ hr

end Chain
