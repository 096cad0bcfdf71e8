import Mathlib.Data.List.Perm.Subperm
import Mathlib.Data.List.Sort

/-!
# Listings in descending order

A query with `ORDER BY … DESC` lists rows by a key, and rows with the same key
in any order. What holds of every such listing is what may be relied on.
-/

namespace Listing

variable {α κ : Type} [LinearOrder κ] {key : α → κ}

structure Lists (key : α → κ) (l m : List α) : Prop where
  perm : l.Perm m
  sorted : l.Pairwise fun a b => key b ≤ key a

def descending (key : α → κ) (m : List α) : List α := m.insertionSort fun a b => key b ≤ key a

/-- `l` with `n` in the place of `o`. -/
def replace [DecidableEq α] (o n : α) (l : List α) : List α := l.map fun a => if a = o then n else a

theorem lists_descending (m : List α) : Lists key (descending key m) m where
  perm := List.perm_insertionSort _ m
  sorted := by
    have htotal : Std.Total fun a b : α => key b ≤ key a := ⟨fun a b => le_total (key b) (key a)⟩
    have htrans : IsTrans α fun a b => key b ≤ key a := ⟨fun _ _ _ h h' => h'.trans h⟩
    exact List.pairwise_insertionSort _ m

theorem Lists.congr {l m m' : List α} (h : Lists key l m) (hm : m.Perm m') : Lists key l m' :=
  ⟨h.perm.trans hm, h.sorted⟩

theorem Lists.map {β : Type} {f : β → α} {l m : List β} (h : Lists (key ∘ f) l m) : Lists key (l.map f) (m.map f) :=
  ⟨h.perm.map f, List.pairwise_map.mpr h.sorted⟩

/-- Members with different keys can be listed in one way only. -/
theorem Lists.unique {l l' m : List α} (hl : Lists key l m) (hl' : Lists key l' m) (hkeys : (m.map key).Nodup) :
    l = l' := by
  refine List.Perm.eq_of_pairwise (fun a b ha hb hba hab => ?_) hl.sorted hl'.sorted (hl.perm.trans hl'.perm.symm)
  exact List.inj_on_of_nodup_map hkeys (hl.perm.mem_iff.mp ha) (hl'.perm.mem_iff.mp hb) (le_antisymm hab hba)

variable (key) in
/-- Pairs whose two keys agree on the order are in one order on both sides. -/
theorem descending_pairs {β κ' : Type} [LinearOrder κ'] (key' : β → κ') {l : List (α × β)} {m : List α} {m' : List β}
    (hm : m.Perm (l.map (·.1))) (hm' : m'.Perm (l.map (·.2)))
    (hkeys : ∀ p ∈ l, ∀ q ∈ l, key p.1 ≤ key q.1 ↔ key' p.2 ≤ key' q.2) (hnodup : (m.map key).Nodup) :
    ∃ l' : List (α × β), l'.Perm l ∧ descending key m = l'.map (·.1) ∧ descending key' m' = l'.map (·.2) := by
  have hl : Lists (fun p : α × β => key p.1) (descending _ l) l := lists_descending l
  have hpairs : (l.map fun p => key p.1).Nodup := by
    have hmap := (hm.map key).nodup_iff.mp hnodup
    rwa [List.map_map] at hmap
  have hnodup' : (m'.map key').Nodup := by
    refine (hm'.map key').nodup_iff.mpr ?_
    rw [List.map_map]
    refine List.Nodup.map_on (fun p hp q hq he => ?_) (List.Nodup.of_map _ hpairs)
    refine List.inj_on_of_nodup_map hpairs hp hq (le_antisymm ?_ ?_)
    · exact (hkeys p hp q hq).mpr (le_of_eq he)
    · exact (hkeys q hq p hp).mpr (le_of_eq (Eq.symm he))
  have hsorted : (descending (fun p : α × β => key p.1) l).Pairwise fun p q => key' q.2 ≤ key' p.2 :=
    hl.sorted.imp_of_mem fun hp hq hle => (hkeys _ (hl.perm.mem_iff.mp hq) _ (hl.perm.mem_iff.mp hp)).mp hle
  refine ⟨descending (fun p => key p.1) l, hl.perm, ?_, ?_⟩
  · exact (lists_descending m).unique ((Lists.map hl).congr hm.symm) hnodup
  · exact (lists_descending m').unique ⟨(hl.perm.map _).trans hm'.symm, List.pairwise_map.mpr hsorted⟩ hnodup'

/-- Of two members the one with the greater key can come first. -/
theorem exists_before {m : List α} {a b : α} (ha : a ∈ m) (hb : b ∈ m) (hne : a ≠ b) (hle : key b ≤ key a) :
    ∃ l, Lists key l m ∧ [a, b].Sublist l := by
  have hnodup : [a, b].Nodup := List.nodup_cons.mpr ⟨by simpa using hne, List.nodup_singleton b⟩
  have hpair : [a, b].Subperm m := by
    refine hnodup.subperm fun c hc => ?_
    rcases List.mem_cons.mp hc with rfl | hc
    · exact ha
    · exact List.mem_singleton.mp hc ▸ hb
  obtain ⟨l, hl, hsub⟩ := List.subperm_iff.mp hpair
  exact ⟨descending key l, (lists_descending l).congr hl, List.pair_sublist_insertionSort hle hsub⟩

section
variable [DecidableEq α] {o n : α} {l m : List α}

theorem replace_perm (h : l.Perm m) : (replace o n l).Perm (replace o n m) := h.map _

theorem replace_cons_self : replace o n (o :: l) = n :: replace o n l := by simp [replace]

theorem length_replace : (replace o n l).length = l.length := List.length_map _

theorem replace_of_not_mem (h : o ∉ l) : replace o n l = l := by
  refine (List.map_congr_left fun a ha => ?_).trans (List.map_id l)
  have hne : a ≠ o := fun he => h (he ▸ ha)
  rw [if_neg hne]
  rfl

/-- Every listing stays in order with `n` in the place of `o` exactly when no
other member has a key between those of `o` and `n`. -/
theorem sorted_replace_iff (ho : o ∈ m) :
    (∀ l, Lists key l m → (replace o n l).Pairwise fun a b => key b ≤ key a) ↔
      ∀ c ∈ m, c ≠ o → (key o ≤ key c → key n ≤ key c) ∧ (key c ≤ key o → key c ≤ key n) := by
  constructor
  · intro h c hc hne
    constructor
    · intro hle
      obtain ⟨l, hl, hsub⟩ := exists_before hc ho hne hle
      have hpair := (h l hl).sublist (hsub.map fun a => if a = o then n else a)
      simpa [hne] using hpair
    · intro hle
      obtain ⟨l, hl, hsub⟩ := exists_before ho hc (Ne.symm hne) hle
      have hpair := (h l hl).sublist (hsub.map fun a => if a = o then n else a)
      simpa [hne] using hpair
  · intro h l hl
    refine List.pairwise_map.mpr (hl.sorted.imp_of_mem fun {a b} ha hb hle => ?_)
    by_cases hao : a = o
    · by_cases hbo : b = o
      · rw [if_pos hao, if_pos hbo]
      · rw [if_pos hao, if_neg hbo]
        exact (h b (hl.perm.mem_iff.mp hb) hbo).2 (hao ▸ hle)
    · by_cases hbo : b = o
      · rw [if_neg hao, if_pos hbo]
        exact (h a (hl.perm.mem_iff.mp ha) hao).1 (hbo ▸ hle)
      · rw [if_neg hao, if_neg hbo]
        exact hle

end

end Listing
