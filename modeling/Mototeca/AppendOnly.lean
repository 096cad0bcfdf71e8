import Mathlib.Data.List.Nodup
import Mototeca.Chain

/-!
# Append-only records with corrections

Nothing is ever removed or edited. A correction is a new node, and the node it
replaces points to it. What holds of such a list after any number of steps is
`Inv`.
-/

namespace AppendOnly

open StateTransition (Reaches)
open Chain

/-- A record, what a correction may not change in it, and the correction. -/
structure Node (κ γ : Type) where
  id : κ
  label : γ
  next : Option κ

variable {κ γ : Type} [DecidableEq κ]

def succ (l : List (Node κ γ)) (a : κ) : Option κ := (l.find? fun n => decide (n.id = a)).bind (·.next)

def point (a b : κ) (n : Node κ γ) : Node κ γ := if n.id = a then { n with next := some b } else n

/-- One step; the flag says whether it begins a new chain. -/
inductive Step : Bool → List (Node κ γ) → List (Node κ γ) → Prop where
  | idle (l : List (Node κ γ)) : Step false l l
  | create {l : List (Node κ γ)} (a : κ) (g : γ) (fresh : ∀ n ∈ l, n.id ≠ a) : Step true l (l ++ [⟨a, g, none⟩])
  | replace {l : List (Node κ γ)} (o : Node κ γ) (a : κ) (fresh : ∀ n ∈ l, n.id ≠ a) (mem : o ∈ l)
      (last : o.next = none) : Step false l (l.map (point o.id a) ++ [⟨a, o.label, none⟩])

structure Inv (l : List (Node κ γ)) (chains : Nat) : Prop where
  ids : (l.map (·.id)).Nodup
  target : ∀ n ∈ l, ∀ b, n.next = some b → ∃ m ∈ l, m.id = b ∧ m.label = n.label
  once : ∀ n ∈ l, ∀ m ∈ l, ∀ b, n.next = some b → m.next = some b → n.id = m.id
  headed : ∀ n ∈ l, ∃ h ∈ l, Reaches (succ l) n.id h.id ∧ h.next = none
  count : (l.filter fun n => n.next.isNone).length = chains

@[simp] theorem point_id (a b : κ) (n : Node κ γ) : (point a b n).id = n.id := by
  unfold point; split <;> rfl

@[simp] theorem point_label (a b : κ) (n : Node κ γ) : (point a b n).label = n.label := by
  unfold point; split <;> rfl

theorem point_of_ne {a b : κ} {n : Node κ γ} (h : n.id ≠ a) : point a b n = n := by
  simp [point, h]

theorem map_point {a b : κ} {l : List (Node κ γ)} (h : ∀ n ∈ l, n.id ≠ a) : l.map (point a b) = l :=
  (List.map_congr_left fun n hn => point_of_ne (h n hn)).trans (List.map_id l)

theorem point_next {a b : κ} {n : Node κ γ} {c : κ} (h : (point a b n).next = some c) :
    (n.id = a ∧ c = b) ∨ n.next = some c := by
  by_cases hn : n.id = a
  · simp only [point, hn, ite_true, Option.some.injEq] at h
    exact Or.inl ⟨hn, h.symm⟩
  · rw [point_of_ne hn] at h
    exact Or.inr h

theorem inv_nil : Inv ([] : List (Node κ γ)) 0 :=
  ⟨List.nodup_nil, nofun, nofun, nofun, rfl⟩

theorem succ_eq {l : List (Node κ γ)} (hi : (l.map (·.id)).Nodup) {n : Node κ γ} (hn : n ∈ l) :
    succ l n.id = n.next := by
  rw [succ]
  cases hm : l.find? (fun m => decide (m.id = n.id)) with
  | none => simpa using List.find?_eq_none.mp hm n hn
  | some m =>
    have he : m.id = n.id := by simpa using List.find?_some hm
    rw [List.inj_on_of_nodup_map hi (List.mem_of_find?_eq_some hm) hn he, Option.bind_some]

theorem mem_succ {l : List (Node κ γ)} {a b : κ} (hb : b ∈ succ l a) : ∃ n ∈ l, n.id = a ∧ n.next = some b := by
  rw [succ, Option.mem_def, Option.bind_eq_some_iff] at hb
  obtain ⟨n, hn, hb⟩ := hb
  exact ⟨n, List.mem_of_find?_eq_some hn, by simpa using List.find?_some hn, hb⟩

theorem reaches_of_kept {l l' : List (Node κ γ)} (hi : (l'.map (·.id)).Nodup)
    (hkept : ∀ n ∈ l, ∀ b, n.next = some b → ∃ n' ∈ l', n'.id = n.id ∧ n'.next = some b) {a b : κ}
    (hr : Reaches (succ l) a b) : Reaches (succ l') a b := by
  refine reaches_mono (fun a b hb => ?_) hr
  obtain ⟨n, hn, rfl, hnext⟩ := mem_succ hb
  obtain ⟨n', hn', he, hnext'⟩ := hkept n hn b hnext
  rw [Option.mem_def, ← he, succ_eq hi hn', hnext']

/-! ## What a step keeps -/

section
variable {l : List (Node κ γ)} {chains : Nat} (h : Inv l chains)
include h

theorem Inv.create {a : κ} (g : γ) (fresh : ∀ n ∈ l, n.id ≠ a) : Inv (l ++ [⟨a, g, none⟩]) (chains + 1) := by
  have hi : ((l ++ [Node.mk a g none]).map (·.id)).Nodup := by
    rw [List.map_append]
    exact List.nodup_append'.mpr ⟨h.ids, List.nodup_singleton _, by simpa using fresh⟩
  have split : ∀ n ∈ l ++ [⟨a, g, none⟩], n ∈ l ∨ n = ⟨a, g, none⟩ := fun n hn => by simpa using hn
  refine ⟨hi, fun n hn b hb => ?_, fun n hn m hm b hb hb' => ?_, fun n hn => ?_, ?_⟩
  · rcases split n hn with hn | rfl
    · obtain ⟨m, hm, hmb⟩ := h.target n hn b hb
      exact ⟨m, List.mem_append_left _ hm, hmb⟩
    · cases hb
  · rcases split n hn with hn | rfl
    · rcases split m hm with hm | rfl
      · exact h.once n hn m hm b hb hb'
      · cases hb'
    · cases hb
  · rcases split n hn with hn | rfl
    · obtain ⟨t, ht, hr, hlast⟩ := h.headed n hn
      refine ⟨t, List.mem_append_left _ ht, reaches_of_kept hi (fun m hm b hb => ?_) hr, hlast⟩
      exact ⟨m, List.mem_append_left _ hm, rfl, hb⟩
    · exact ⟨_, hn, .refl, rfl⟩
  · rw [List.filter_append, List.length_append, h.count]
    rfl

section
variable {o : Node κ γ} {a : κ}

omit h in
theorem mem_replaced {n : Node κ γ} :
    n ∈ l.map (point o.id a) ++ [⟨a, o.label, none⟩] ↔ (∃ m ∈ l, n = point o.id a m) ∨ n = ⟨a, o.label, none⟩ := by
  rw [List.mem_append, List.mem_map, List.mem_singleton]
  constructor
  · rintro (⟨m, hm, rfl⟩ | rfl)
    · exact Or.inl ⟨m, hm, rfl⟩
    · exact Or.inr rfl
  · rintro (⟨m, hm, rfl⟩ | rfl)
    · exact Or.inl ⟨m, hm, rfl⟩
    · exact Or.inr rfl

omit h in
theorem old_mem_replaced {m : Node κ γ} (hm : m ∈ l) : point o.id a m ∈ l.map (point o.id a) ++ [⟨a, o.label, none⟩] :=
  List.mem_append_left _ (List.mem_map_of_mem hm)

omit h in
theorem new_mem_replaced : (⟨a, o.label, none⟩ : Node κ γ) ∈ l.map (point o.id a) ++ [⟨a, o.label, none⟩] :=
  List.mem_append_right _ (List.mem_singleton_self _)

theorem Inv.replaced_ids (fresh : ∀ n ∈ l, n.id ≠ a) :
    ((l.map (point o.id a) ++ [Node.mk a o.label none]).map (·.id)).Nodup := by
  rw [List.map_append, List.map_map]
  refine List.nodup_append'.mpr ⟨by simpa [Function.comp_def] using h.ids, List.nodup_singleton _, ?_⟩
  simpa using fresh

variable (mem : o ∈ l)
include mem

theorem Inv.replaced_target : ∀ n ∈ l.map (point o.id a) ++ [⟨a, o.label, none⟩], ∀ b, n.next = some b →
    ∃ m ∈ l.map (point o.id a) ++ [⟨a, o.label, none⟩], m.id = b ∧ m.label = n.label := by
  intro n hn b hb
  rcases mem_replaced.mp hn with ⟨m, hm, rfl⟩ | rfl
  · rcases point_next hb with ⟨hmo, rfl⟩ | hb
    · refine ⟨_, new_mem_replaced, rfl, ?_⟩
      rw [point_label, List.inj_on_of_nodup_map h.ids hm mem hmo]
    · obtain ⟨t, ht, hid, hl⟩ := h.target m hm b hb
      exact ⟨_, old_mem_replaced ht, by simpa using hid, by simpa using hl⟩
  · cases hb

omit mem in
theorem Inv.replaced_once (fresh : ∀ n ∈ l, n.id ≠ a) :
    ∀ n ∈ l.map (point o.id a) ++ [⟨a, o.label, none⟩], ∀ m ∈ l.map (point o.id a) ++ [⟨a, o.label, none⟩],
      ∀ b, n.next = some b → m.next = some b → n.id = m.id := by
  intro n hn m hm b hb hb'
  have notNew : ∀ m ∈ l, m.next ≠ some a := by
    intro m hm hma
    obtain ⟨t, ht, hid, -⟩ := h.target m hm a hma
    exact fresh t ht hid
  rcases mem_replaced.mp hn with ⟨n₀, hn₀, rfl⟩ | rfl
  · rcases mem_replaced.mp hm with ⟨m₀, hm₀, rfl⟩ | rfl
    · rcases point_next hb with ⟨hno, rfl⟩ | hn₁
      · rcases point_next hb' with ⟨hmo, -⟩ | hm₁
        · simp [hno, hmo]
        · exact absurd hm₁ (notNew m₀ hm₀)
      · rcases point_next hb' with ⟨-, rfl⟩ | hm₁
        · exact absurd hn₁ (notNew n₀ hn₀)
        · simpa using h.once n₀ hn₀ m₀ hm₀ b hn₁ hm₁
    · cases hb'
  · cases hb

variable (last : o.next = none)
include last

theorem Inv.replaced_reaches (fresh : ∀ n ∈ l, n.id ≠ a) {x y : κ} (hr : Reaches (succ l) x y) :
    Reaches (succ (l.map (point o.id a) ++ [⟨a, o.label, none⟩])) x y := by
  refine reaches_of_kept (h.replaced_ids fresh) (fun m hm b hb => ⟨_, old_mem_replaced hm, by simp, ?_⟩) hr
  have hne : m.id ≠ o.id := fun e => by
    rw [List.inj_on_of_nodup_map h.ids hm mem e, last] at hb
    cases hb
  rw [point_of_ne hne, hb]

theorem Inv.replaced_headed (fresh : ∀ n ∈ l, n.id ≠ a) : ∀ n ∈ l.map (point o.id a) ++ [⟨a, o.label, none⟩],
    ∃ t ∈ l.map (point o.id a) ++ [⟨a, o.label, none⟩],
      Reaches (succ (l.map (point o.id a) ++ [⟨a, o.label, none⟩])) n.id t.id ∧ t.next = none := by
  intro n hn
  rcases mem_replaced.mp hn with ⟨m, hm, rfl⟩ | rfl
  · rw [point_id]
    obtain ⟨t, ht, hr, hlast⟩ := h.headed m hm
    have hr := h.replaced_reaches mem last fresh hr
    by_cases hto : t.id = o.id
    · have hedge : a ∈ succ (l.map (point o.id a) ++ [⟨a, o.label, none⟩]) t.id := by
        have h1 := succ_eq (h.replaced_ids (o := o) fresh) (old_mem_replaced ht)
        rw [point_id] at h1
        rw [Option.mem_def, h1]
        simp [point, hto]
      exact ⟨_, new_mem_replaced, hr.tail hedge, rfl⟩
    · exact ⟨_, old_mem_replaced ht, by simpa using hr, by rw [point_of_ne hto, hlast]⟩
  · exact ⟨_, new_mem_replaced, .refl, rfl⟩

theorem Inv.replaced_count :
    ((l.map (point o.id a) ++ [Node.mk a o.label none]).filter fun n => n.next.isNone).length = chains := by
  obtain ⟨s, t, rfl⟩ := List.append_of_mem mem
  have hn := h.ids
  rw [List.map_append, List.map_cons, List.nodup_middle, List.nodup_cons, List.mem_append] at hn
  have hs : s.map (point o.id a) = s := map_point fun m hm e => hn.1 (Or.inl (e ▸ List.mem_map_of_mem hm))
  have ht : t.map (point o.id a) = t := map_point fun m hm e => hn.1 (Or.inr (e ▸ List.mem_map_of_mem hm))
  have hc := h.count
  simp only [List.filter_append, List.length_append, List.filter_cons, last, Option.isNone_none, ite_true,
    List.length_cons] at hc
  simp only [List.map_append, List.map_cons, hs, ht, List.filter_append, List.length_append, List.filter_cons,
    point, ite_true, Option.isNone_some, Bool.false_eq_true, ite_false, Option.isNone_none, List.filter_nil,
    List.length_cons, List.length_nil]
  omega

theorem Inv.replace (fresh : ∀ n ∈ l, n.id ≠ a) : Inv (l.map (point o.id a) ++ [⟨a, o.label, none⟩]) chains where
  ids := h.replaced_ids fresh
  target := h.replaced_target mem
  once := h.replaced_once fresh
  headed := h.replaced_headed mem last fresh
  count := h.replaced_count mem last

end

end

theorem Step.inv {starts : Bool} {l l' : List (Node κ γ)} {chains : Nat} (hs : Step starts l l') (h : Inv l chains) :
    Inv l' (chains + starts.toNat) := by
  cases hs with
  | idle => exact h
  | create a g fresh => exact h.create g fresh
  | replace o a fresh mem last => exact h.replace mem last fresh

/-! ## Chains -/

section
variable {l : List (Node κ γ)} {chains : Nat} (h : Inv l chains)
include h

theorem Inv.headed_id {n : Node κ γ} (hn : n ∈ l) : Headed (succ l) n.id := by
  obtain ⟨t, ht, hr, hlast⟩ := h.headed n hn
  exact ⟨t.id, hr, (succ_eq h.ids ht).trans hlast⟩

theorem Inv.existsUnique_last {n : Node κ γ} (hn : n ∈ l) :
    ∃! t, t ∈ l ∧ SameChain (succ l) n.id t.id ∧ t.next = none := by
  obtain ⟨t, ht, hr, hlast⟩ := h.headed n hn
  refine ⟨t, ⟨ht, .of_reaches hr, hlast⟩, fun t' ⟨ht', hs', hlast'⟩ => ?_⟩
  have hu := (existsUnique_head (h.headed_id hn)).unique ⟨hs', (succ_eq h.ids ht').trans hlast'⟩
    ⟨.of_reaches hr, (succ_eq h.ids ht).trans hlast⟩
  exact List.inj_on_of_nodup_map h.ids ht' ht hu

theorem Inv.acyclic (a : κ) : ¬ Relation.TransGen (fun a b => b ∈ succ l a) a a := by
  intro hc
  obtain ⟨b, hb, -⟩ := Relation.TransGen.head'_iff.mp hc
  obtain ⟨n, hn, rfl, -⟩ := mem_succ hb
  exact Chain.acyclic (h.headed_id hn) hc

theorem Inv.linear {a b : κ} (hs : SameChain (succ l) a b) : Reaches (succ l) a b ∨ Reaches (succ l) b a := by
  refine Chain.linear (fun x y c hx hy => ?_) hs
  obtain ⟨n, hn, rfl, hc⟩ := mem_succ hx
  obtain ⟨m, hm, rfl, hc'⟩ := mem_succ hy
  exact h.once n hn m hm c hc hc'

theorem Inv.label_eq {n m : Node κ γ} (hn : n ∈ l) (hm : m ∈ l) (hs : SameChain (succ l) n.id m.id) :
    n.label = m.label := by
  let f (a : κ) : Option γ := (l.find? fun n => decide (n.id = a)).map (·.label)
  have hf : ∀ {n}, n ∈ l → f n.id = some n.label := by
    intro n hn
    simp only [f]
    cases hm : l.find? (fun m => decide (m.id = n.id)) with
    | none => simpa using List.find?_eq_none.mp hm n hn
    | some m =>
      have he : m.id = n.id := by simpa using List.find?_some hm
      rw [List.inj_on_of_nodup_map h.ids (List.mem_of_find?_eq_some hm) hn he, Option.map_some]
  have hc : f n.id = f m.id := by
    refine Chain.constant (fun a b hb => ?_) hs
    obtain ⟨x, hx, rfl, hxb⟩ := mem_succ hb
    obtain ⟨y, hy, rfl, hl⟩ := h.target x hx b hxb
    rw [hf hx, hf hy, hl]
  rw [hf hn, hf hm] at hc
  exact Option.some.inj hc

end

end AppendOnly
