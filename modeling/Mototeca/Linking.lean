import Mathlib.Data.Set.Insert
import Mathlib.Logic.Function.Basic

/-!
# Objects in one store, links in another

An object is put under a name never drawn before and then linked; who fails to
link it removes it again. The answer to a link may be lost, and the object is
removed all the same: only such links are left without an object.
-/

namespace Linking

variable {ι U : Type}

/-- The objects and the links there are, the name each link under way is to
have, the names to be removed, those whose answer was lost and all names drawn. -/
structure State (ι U : Type) where
  objects : Set U
  linked : Set U
  pending : ι → Option U
  orphans : Set U
  lost : Set U
  drawn : Set U

inductive Step [DecidableEq ι] (s : State ι U) : State ι U → Prop where
  | idle : Step s s
  | draw {t : ι} {u : U} (h : u ∉ s.drawn) (ht : s.pending t = none) :
      Step s { s with pending := Function.update s.pending t (some u), drawn := insert u s.drawn }
  | put {t : ι} {u : U} (h : s.pending t = some u) : Step s { s with objects := insert u s.objects }
  | giveUp {t : ι} {u : U} (h : s.pending t = some u) (hobjects : u ∉ s.objects) :
      Step s { s with pending := Function.update s.pending t none }
  | fail {t : ι} {u : U} (h : s.pending t = some u) :
      Step s { s with pending := Function.update s.pending t none, orphans := insert u s.orphans }
  | link {t : ι} {u : U} (h : s.pending t = some u) (hobjects : u ∈ s.objects ∨ u ∈ s.lost) :
      Step s { s with pending := Function.update s.pending t none, linked := insert u s.linked }
  | lose {t : ι} {u : U} (h : s.pending t = some u) :
      Step s { s with orphans := insert u s.orphans, lost := insert u s.lost }
  | remove {u : U} (h : u ∈ s.orphans) :
      Step s { s with objects := s.objects \ {u}, orphans := s.orphans \ {u} }

/-- What stays true, `first` being the objects there were at first. -/
structure Kept (first : Set U) (s : State ι U) : Prop where
  linked : ∀ u ∈ s.linked, u ∈ s.objects ∨ u ∈ s.lost
  objects : ∀ u ∈ s.objects, u ∈ first ∨ u ∈ s.linked ∨ (∃ t, s.pending t = some u) ∨ u ∈ s.orphans
  retained : ∀ u ∈ first, u ∈ s.objects
  pending : ∀ t u, s.pending t = some u → u ∈ s.drawn ∧ u ∉ first ∧ u ∉ s.linked
  apart : ∀ t t' u, s.pending t = some u → s.pending t' = some u → t = t'
  orphans : ∀ u ∈ s.orphans,
    u ∉ first ∧ (u ∈ s.linked → u ∈ s.lost) ∧ ∀ t, s.pending t = some u → u ∈ s.lost
  drawn : ∀ u, u ∈ first ∨ u ∈ s.linked ∨ u ∈ s.orphans → u ∈ s.drawn

theorem Kept.start {s : State ι U} (hlinked : ∀ u ∈ s.linked, u ∈ s.objects) (hpending : ∀ t, s.pending t = none)
    (horphans : ∀ u, u ∉ s.orphans) (hdrawn : ∀ u ∈ s.objects, u ∈ s.drawn) : Kept s.objects s where
  linked := fun u hu => .inl (hlinked u hu)
  objects := fun u hu => .inl hu
  retained := fun u hu => hu
  pending := fun t u hu => by
    rw [hpending t] at hu
    cases hu
  apart := fun t t' u hu _ => by
    rw [hpending t] at hu
    cases hu
  orphans := fun u hu => absurd hu (horphans u)
  drawn := fun u hu => hu.elim (hdrawn u) fun hu => hu.elim (fun hu => hdrawn u (hlinked u hu)) fun hu =>
    absurd hu (horphans u)

variable [DecidableEq ι] {first : Set U} {s s' : State ι U} {t : ι} {u : U}

theorem update_none {p : ι → Option U} {t' : ι} {v : U} (h : Function.update p t none t' = some v) :
    t' ≠ t ∧ p t' = some v := by
  by_cases ht : t' = t
  · rw [ht, Function.update_self] at h
    cases h
  · rw [Function.update_of_ne ht] at h
    exact ⟨ht, h⟩

theorem Kept.draw (h : Kept first s) (hu : u ∉ s.drawn) (ht : s.pending t = none) :
    Kept first { s with pending := Function.update s.pending t (some u), drawn := insert u s.drawn } := by
  have hnew : ∀ {t' v}, Function.update s.pending t (some u) t' = some v → t' = t ∧ v = u ∨ s.pending t' = some v := by
    intro t' v hv
    by_cases htt : t' = t
    · rw [htt, Function.update_self] at hv
      exact .inl ⟨htt, (Option.some.inj hv).symm⟩
    · rw [Function.update_of_ne htt] at hv
      exact .inr hv
  refine { h with
    objects := fun v hv => ?_
    pending := fun t' v hv => ?_
    apart := fun t₁ t₂ v h₁ h₂ => ?_
    orphans := fun v hv => ?_
    drawn := fun v hv => .inr (h.drawn v hv) }
  · refine (h.objects v hv).imp_right (Or.imp_right (Or.imp_left ?_))
    intro ⟨t', hp⟩
    have htt : t' ≠ t := by
      rintro rfl
      rw [ht] at hp
      cases hp
    exact ⟨t', (Function.update_of_ne htt _ _).trans hp⟩
  · rcases hnew hv with ⟨-, rfl⟩ | hold
    · exact ⟨.inl rfl, fun hin => hu (h.drawn v (.inl hin)), fun hin => hu (h.drawn v (.inr (.inl hin)))⟩
    · obtain ⟨hdrawn, hrest⟩ := h.pending t' v hold
      exact ⟨.inr hdrawn, hrest⟩
  · rcases hnew h₁ with ⟨rfl, rfl⟩ | hold₁
    · rcases hnew h₂ with ⟨rfl, -⟩ | hold₂
      · rfl
      · exact absurd (h.pending t₂ v hold₂).1 hu
    · rcases hnew h₂ with ⟨-, rfl⟩ | hold₂
      · exact absurd (h.pending t₁ v hold₁).1 hu
      · exact h.apart t₁ t₂ v hold₁ hold₂
  · obtain ⟨hfirst, hlinked, hpending⟩ := h.orphans v hv
    refine ⟨hfirst, hlinked, fun t' hp => ?_⟩
    rcases hnew hp with ⟨-, rfl⟩ | hold
    · exact absurd (h.drawn v (.inr (.inr hv))) hu
    · exact hpending t' hold

omit [DecidableEq ι] in
theorem Kept.put (h : Kept first s) (hu : s.pending t = some u) :
    Kept first { s with objects := insert u s.objects } := by
  refine { h with
    linked := fun v hv => (h.linked v hv).imp_left .inr
    objects := fun v hv => ?_
    retained := fun v hv => .inr (h.retained v hv) }
  rcases hv with rfl | hv
  · exact .inr (.inr (.inl ⟨t, hu⟩))
  · exact h.objects v hv

/-- The end of a link under way, whatever becomes of its name `u`. -/
theorem Kept.ends (h : Kept first s) (hu : s.pending t = some u) {linked orphans : Set U}
    (hlinked : s.linked ⊆ linked ∧ linked ⊆ insert u s.linked)
    (horphans : s.orphans ⊆ orphans ∧ orphans ⊆ insert u s.orphans) (hobject : u ∈ s.objects → u ∈ linked ∨ u ∈ orphans)
    (hkept : u ∈ linked → (u ∈ s.objects ∨ u ∈ s.lost) ∧ (u ∈ orphans → u ∈ s.lost)) :
    Kept first { s with pending := Function.update s.pending t none, linked := linked, orphans := orphans } where
  linked := by
    intro v hv
    rcases hlinked.2 hv with rfl | hold
    · exact (hkept hv).1
    · exact h.linked v hold
  objects := by
    intro v hv
    by_cases hvu : v = u
    · subst hvu
      exact .inr ((hobject hv).imp_right .inr)
    · rcases h.objects v hv with hfirst | hlink | ⟨t', hpend⟩ | horphan
      · exact .inl hfirst
      · exact .inr (.inl (hlinked.1 hlink))
      · have htt : t' ≠ t := by
          rintro rfl
          exact hvu (Option.some.inj (hpend.symm.trans hu))
        exact .inr (.inr (.inl ⟨t', (Function.update_of_ne htt _ _).trans hpend⟩))
      · exact .inr (.inr (.inr (horphans.1 horphan)))
  retained := h.retained
  pending := by
    intro t' v hv
    obtain ⟨htt, hv⟩ := update_none hv
    obtain ⟨hdrawn, hfirst, hlink⟩ := h.pending t' v hv
    refine ⟨hdrawn, hfirst, fun hin => ?_⟩
    rcases hlinked.2 hin with rfl | hold
    · exact htt (h.apart t' t v hv hu)
    · exact hlink hold
  apart := fun t₁ t₂ v h₁ h₂ => h.apart t₁ t₂ v (update_none h₁).2 (update_none h₂).2
  orphans := by
    intro v hv
    by_cases hvu : v = u
    · subst hvu
      refine ⟨(h.pending t v hu).2.1, fun hin => (hkept hin).2 hv, fun t' hv' => ?_⟩
      obtain ⟨htt, hv'⟩ := update_none hv'
      exact absurd (h.apart t' t v hv' hu) htt
    · obtain ⟨hfirst, hlost, hpend⟩ := h.orphans v ((horphans.2 hv).resolve_left hvu)
      exact ⟨hfirst, fun hin => hlost ((hlinked.2 hin).resolve_left hvu), fun t' hv' => hpend t' (update_none hv').2⟩
  drawn := by
    intro v hv
    by_cases hvu : v = u
    · rw [hvu]
      exact (h.pending t u hu).1
    · exact h.drawn v (hv.imp_right (Or.imp (fun hin => (hlinked.2 hin).resolve_left hvu)
        fun hin => (horphans.2 hin).resolve_left hvu))

theorem Kept.giveUp (h : Kept first s) (hu : s.pending t = some u) (hobjects : u ∉ s.objects) :
    Kept first { s with pending := Function.update s.pending t none } :=
  h.ends hu ⟨subset_rfl, Set.subset_insert _ _⟩ ⟨subset_rfl, Set.subset_insert _ _⟩ (fun hin => absurd hin hobjects)
    fun hin => absurd hin (h.pending t u hu).2.2

theorem Kept.fail (h : Kept first s) (hu : s.pending t = some u) :
    Kept first { s with pending := Function.update s.pending t none, orphans := insert u s.orphans } :=
  h.ends hu ⟨subset_rfl, Set.subset_insert _ _⟩ ⟨Set.subset_insert _ _, subset_rfl⟩ (fun _ => .inr (.inl rfl))
    fun hin => absurd hin (h.pending t u hu).2.2

theorem Kept.link (h : Kept first s) (hu : s.pending t = some u) (hobjects : u ∈ s.objects ∨ u ∈ s.lost) :
    Kept first { s with pending := Function.update s.pending t none, linked := insert u s.linked } :=
  h.ends hu ⟨Set.subset_insert _ _, subset_rfl⟩ ⟨subset_rfl, Set.subset_insert _ _⟩ (fun _ => .inl (.inl rfl))
    fun _ => ⟨hobjects, fun horphan => (h.orphans u horphan).2.2 t hu⟩

omit [DecidableEq ι] in
theorem Kept.lose (h : Kept first s) (hu : s.pending t = some u) :
    Kept first { s with orphans := insert u s.orphans, lost := insert u s.lost } := by
  obtain ⟨hdrawn, hfirst, hlink⟩ := h.pending t u hu
  refine { h with
    linked := fun v hv => (h.linked v hv).imp_right .inr
    objects := fun v hv => (h.objects v hv).imp_right (Or.imp_right (Or.imp_right .inr))
    orphans := fun v hv => ?_
    drawn := fun v hv => ?_ }
  · rcases hv with rfl | hv
    · exact ⟨hfirst, fun _ => .inl rfl, fun _ _ => .inl rfl⟩
    · obtain ⟨hfirst', hlost, hpend⟩ := h.orphans v hv
      exact ⟨hfirst', fun hin => .inr (hlost hin), fun t' ht' => .inr (hpend t' ht')⟩
  · rcases hv with hv | hv | rfl | hv
    · exact h.drawn v (.inl hv)
    · exact h.drawn v (.inr (.inl hv))
    · exact hdrawn
    · exact h.drawn v (.inr (.inr hv))

theorem Kept.remove (h : Kept first s) (hu : u ∈ s.orphans) :
    Kept first { s with objects := s.objects \ {u}, orphans := s.orphans \ {u} } := by
  obtain ⟨hfirst, hlost, -⟩ := h.orphans u hu
  refine { h with
    linked := fun v hv => ?_
    objects := fun v hv => ?_
    retained := fun v hv => ⟨h.retained v hv, fun heq => hfirst (heq ▸ hv)⟩
    orphans := fun v hv => h.orphans v hv.1
    drawn := fun v hv => h.drawn v (hv.imp_right (Or.imp_right And.left)) }
  · by_cases hvu : v = u
    · subst hvu
      exact .inr (hlost hv)
    · exact (h.linked v hv).imp_left fun hobject => ⟨hobject, hvu⟩
  · exact (h.objects v hv.1).imp_right (Or.imp_right (Or.imp_right fun horphan => ⟨horphan, hv.2⟩))

theorem Kept.step (h : Kept first s) (hs : Step s s') : Kept first s' := by
  cases hs with
  | idle => exact h
  | draw hu ht => exact h.draw hu ht
  | put hu => exact h.put hu
  | giveUp hu hobjects => exact h.giveUp hu hobjects
  | fail hu => exact h.fail hu
  | link hu hobjects => exact h.link hu hobjects
  | lose hu => exact h.lose hu
  | remove hu => exact h.remove hu

end Linking
