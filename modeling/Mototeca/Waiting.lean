import Mathlib.Data.Set.Card
import Mathlib.Data.Set.Finite.Lemmas
import Mathlib.Logic.Relation
import Mototeca.ReadCommitted
import Mototeca.Runs

/-!
# Bodies that lock in an order

A lock has one rank for who asks for it and one for who holds it. A body is orderly
when every lock it asks for ranks above those it holds, unless it holds one as strong
already or the lock is on a thing of its own making. Transactions with orderly bodies
never wait for each other in a circle (`Calm.acyclic`), and from every state they reach
they can all be brought to an end with no new one begun (`Calm.drain`).
-/

namespace ReadCommitted

open Runs (EveryStep)

variable {L D C K O E E' Q α β : Type}

/-! ## Orders of locks -/

section
variable [Locking K]

/-- A lock that is waited for ranks no higher than the one in its way. -/
structure LockOrder (K : Type) [Locking K] where
  asked : K → Nat
  held : K → Nat
  le : ∀ k k', conflict k' k = true → asked k ≤ held k'

/-- Whoever is in the way of `k` is in the way of a lock in `H`. -/
def Covered (H : K → Prop) (k : K) : Prop := ∃ k₀, H k₀ ∧ ∀ k', conflict k' k = true → conflict k' k₀ = true

/-- Who holds `H` may ask for `k` while the others hold `taken`. -/
def LockOrder.Allows (R : LockOrder K) (taken : Set K) (H : K → Prop) (k : K) : Prop :=
  Covered H k ∨ (∀ k' ∈ taken, conflict k' k = false) ∨ ∀ k₀, H k₀ → R.held k₀ < R.asked k

/-- The same of a list of locks, taken one after the other. -/
def LockOrder.AllowsAll (R : LockOrder K) (taken : Set K) : (K → Prop) → List K → Prop
  | _, [] => True
  | H, k :: ks => R.Allows taken H k ∧ R.AllowsAll taken (fun k' => k' = k ∨ H k') ks

variable {R : LockOrder K} {taken : Set K}

theorem LockOrder.AllowsAll.get : ∀ {ks : List K} {H : K → Prop}, R.AllowsAll taken H ks → ∀ (i : Nat) (k : K),
    ks[i]? = some k → R.Allows taken (fun k' => k' ∈ ks.take i ∨ H k') k := by
  intro ks
  induction ks with
  | nil =>
    intro H _ i k hk
    simp at hk
  | cons k₀ ks ih =>
    intro H h i k hk
    cases i with
    | zero =>
      obtain rfl : k₀ = k := by simpa using hk
      simpa using h.1
    | succ i =>
      have hrest := ih h.2 i k (by simpa using hk)
      have hsame : (fun k' => k' ∈ ks.take i ∨ k' = k₀ ∨ H k') = fun k' => k' ∈ (k₀ :: ks).take (i + 1) ∨ H k' := by
        funext k'
        simp only [List.take_succ_cons, List.mem_cons, eq_iff_iff]
        exact ⟨fun h => h.elim (fun h => .inl (.inr h)) (Or.imp_left .inl),
          fun h => h.elim (fun h => h.elim (fun h => .inr (.inl h)) .inl) fun h => .inr (.inr h)⟩
      exact hsame ▸ hrest

/-- Who holds a lock of the highest rank can take every lock that it may ask for. -/
theorem LockOrder.AllowsAll.free {others : Set K} (hothers : others ⊆ taken) : ∀ {ks : List K} {H : K → Prop},
    R.AllowsAll taken H ks → (∀ k' ∈ others, ∀ k₀, H k₀ → conflict k' k₀ = false) →
    (∀ k' ∈ others, ∃ k₀, H k₀ ∧ R.held k' ≤ R.held k₀) → ∀ k ∈ ks, ∀ k' ∈ others, conflict k' k = false := by
  intro ks
  induction ks with
  | nil => exact fun _ _ _ k hk => absurd hk List.not_mem_nil
  | cons k₁ ks ih =>
    intro H h hapart htop
    have hfree : ∀ k' ∈ others, conflict k' k₁ = false := by
      intro k' hk'
      by_contra hc
      rw [Bool.not_eq_false] at hc
      rcases h.1 with ⟨k₀, hk₀, hcover⟩ | hfresh | hup
      · exact Bool.false_ne_true ((hapart k' hk' k₀ hk₀).symm.trans (hcover k' hc))
      · exact Bool.false_ne_true ((hfresh k' (hothers hk')).symm.trans hc)
      · obtain ⟨k₀, hk₀, hle⟩ := htop k' hk'
        exact absurd (hup k₀ hk₀) (not_lt.mpr ((R.le k₁ k' hc).trans hle))
    have hrest := ih h.2 (fun k' hk' k₀ hk₀ => hk₀.elim (fun he => he ▸ hfree k' hk') (hapart k' hk' k₀))
      fun k' hk' => (htop k' hk').imp fun k₀ h => ⟨Or.inr h.1, h.2⟩
    intro k hk
    rcases List.mem_cons.mp hk with rfl | hk
    · exact hfree
    · exact hrest k hk

end

/-! ## Orderly bodies -/

section
variable [Locking K] (R : LockOrder K) (Fresh : Set K → D → O → Prop)

/-- Of a body that holds `H`. `Fresh taken d o` says that what `o` supplies is new to
the locks `taken` and to the contents `d`. -/
def Prog.Orderly (P : α → (K → Prop) → Prop) : Prog L D C K O E α → (K → Prop) → Prop
  | .ret a, H => P a H
  | .fail _, _ => True
  | .stmt _ keys _ next, H =>
    (∀ taken d o, Fresh taken d o → R.AllowsAll taken H (keys o d)) ∧
      ∀ o d, Prog.Orderly P (next o d) fun k => k ∈ keys o d ∨ H k

variable {R Fresh}

theorem orderly_ret {P : α → (K → Prop) → Prop} {H : K → Prop} {a : α} (h : P a H) :
    (.ret a : Prog L D C K O E α).Orderly R Fresh P H := h

theorem orderly_fail {P : α → (K → Prop) → Prop} {H : K → Prop} {e : E} :
    (.fail e : Prog L D C K O E α).Orderly R Fresh P H := trivial

theorem orderly_stmt {P : α → (K → Prop) → Prop} {H : K → Prop} {name : L} {keys : O → D → List K}
    {changes : O → D → List C} {next : O → D → Prog L D C K O E α}
    (hkeys : ∀ taken d o, Fresh taken d o → R.AllowsAll taken H (keys o d))
    (h : ∀ o d, (next o d).Orderly R Fresh P fun k => k ∈ keys o d ∨ H k) :
    (.stmt name keys changes next : Prog L D C K O E α).Orderly R Fresh P H := ⟨hkeys, h⟩

theorem orderly_read {P : α → (K → Prop) → Prop} {H : K → Prop} {name : L} {next : O → D → Prog L D C K O E α}
    (h : ∀ o d, (next o d).Orderly R Fresh P H) :
    (.stmt name (fun _ _ => []) (fun _ _ => []) next : Prog L D C K O E α).Orderly R Fresh P H :=
  ⟨fun _ _ _ _ => trivial, fun o d => by simpa using h o d⟩

theorem Prog.Orderly.mono {P P' : α → (K → Prop) → Prop} (h : ∀ a H, P a H → P' a H) :
    ∀ {p : Prog L D C K O E α} {H : K → Prop}, p.Orderly R Fresh P H → p.Orderly R Fresh P' H := by
  intro p
  induction p with
  | ret a => exact fun {H} => h a H
  | fail e => exact fun _ => trivial
  | stmt name keys changes next ih => exact fun hp => ⟨hp.1, fun o d => ih o d (hp.2 o d)⟩

theorem Prog.Orderly.bind {P : α → (K → Prop) → Prop} {P' : β → (K → Prop) → Prop} {k : α → Prog L D C K O E β}
    (hk : ∀ a H, P a H → (k a).Orderly R Fresh P' H) :
    ∀ {p : Prog L D C K O E α} {H : K → Prop}, p.Orderly R Fresh P H → (p.bind k).Orderly R Fresh P' H := by
  intro p
  induction p with
  | ret a => exact fun {H} => hk a H
  | fail e => exact fun _ => trivial
  | stmt name keys changes next ih => exact fun hp => ⟨hp.1, fun o d => ih o d (hp.2 o d)⟩

theorem Prog.Orderly.mapFail {P : α → (K → Prop) → Prop} (f : E → E') :
    ∀ {p : Prog L D C K O E α} {H : K → Prop}, p.Orderly R Fresh P H → (p.mapFail f).Orderly R Fresh P H := by
  intro p
  induction p with
  | ret a => exact fun hp => hp
  | fail e => exact fun _ => trivial
  | stmt name keys changes next ih => exact fun hp => ⟨hp.1, fun o d => ih o d (hp.2 o d)⟩

theorem orderly_query {P : α → (K → Prop) → Prop} {H : K → Prop} {name : L} {f : D → α} (h : ∀ d, P (f d) H) :
    (Prog.query name f : Prog L D C K O E α).Orderly R Fresh P H :=
  orderly_read fun _ d => h d

/-- Who holds nothing may ask for any lock. -/
theorem orderly_queryForUpdate {P : α → (K → Prop) → Prop} {name : L} {keys : D → Option K} {f : D → α}
    (h : ∀ d, P (f d) fun k => k ∈ (keys d).toList ∨ False) :
    (Prog.queryForUpdate name (fun d => (keys d).toList) f : Prog L D C K O E α).Orderly R Fresh P fun _ => False := by
  refine orderly_stmt (fun taken d o _ => ?_) fun _ d => h d
  dsimp only
  cases keys d with
  | none => trivial
  | some k => exact ⟨Or.inr (Or.inr fun _ => False.elim), trivial⟩

theorem orderly_write {P : α → (K → Prop) → Prop} {H : K → Prop} {name : L} {err : E} {keys : O → D → List K}
    {ok : O → D → Bool} {changes : O → D → List C} {result : O → α}
    (hkeys : ∀ taken d o, Fresh taken d o → R.AllowsAll taken H (keys o d))
    (h : ∀ o d, P (result o) fun k => k ∈ keys o d ∨ H k) :
    (Prog.write name err keys ok changes result : Prog L D C K O E α).Orderly R Fresh P H := by
  refine ⟨hkeys, fun o d => ?_⟩
  dsimp only
  by_cases hok : ok o d = true
  · rw [if_pos hok]
    exact h o d
  · rw [if_neg hok]
    trivial

end

/-! ## Waiting -/

/-- Where each transaction stands within its next statement: what supplies the
statement, and how many of its locks it has got. -/
structure Partway (O : Type) where
  supply : Nat → O
  got : Nat → Nat

section
variable (M : Machine L D C K O E Q α) (s : State L D C K O E Q α) (p : Partway O)

/-- The locks of the next statement of `t`, in the order in which it takes them. -/
def Machine.asks (t : Nat) : List K :=
  match s.txs t with
  | some ⟨_, .stmt _ keys _ _, w, _⟩ => keys (p.supply t) (M.view w s.db)
  | _ => []

def Machine.Has (t : Nat) (k : K) : Prop := k ∈ (M.asks s p t).take (p.got t) ∨ (t, k) ∈ s.locks

variable [Locking K]

/-- Nobody has got a lock that is in another's way, and the supplies are new to what the
others have. -/
structure Machine.Halfway (Fresh : Set K → D → O → Prop) : Prop where
  apart : ∀ t u, t ≠ u → ∀ k k', M.Has s p t k → M.Has s p u k' → conflict k k' = false
  fresh : ∀ t tx, s.txs t = some tx → Fresh {k | ∃ u, u ≠ t ∧ M.Has s p u k} (M.view tx.changes s.db) (p.supply t)

/-- `t` cannot get its next lock for one that `u` has. -/
def Machine.Waits (t u : Nat) : Prop :=
  u ≠ t ∧ ∃ k k', (M.asks s p t)[p.got t]? = some k ∧ M.Has s p u k' ∧ conflict k' k = true

end

/-! ## Machines of orderly bodies -/

section
variable [Locking K] (M : Machine L D C K O E Q α) (R : LockOrder K) (Fresh : Set K → D → O → Prop)

/-- The events of a server that takes no new requests: statements are supplied with
what is fresh, and only a body that has failed is rolled back. -/
def Machine.Closing (s : State L D C K O E Q α) : Event O Q → Prop
  | .begin _ _ => False
  | .exec t o => ∃ tx, s.txs t = some tx ∧ Fresh {k | ∃ u, (u, k) ∈ s.locks} (M.view tx.changes s.db) o
  | .commit _ => True
  | .rollback t => ∃ tx e, s.txs t = some tx ∧ tx.rest = .fail e

structure Calm (s : State L D C K O E Q α) : Prop where
  orderly : ∀ t tx, s.txs t = some tx → tx.rest.Orderly R Fresh (fun _ _ => True) fun k => (t, k) ∈ s.locks
  owned : ∀ t k, (t, k) ∈ s.locks → s.txs t ≠ none
  apart : ∀ t u, t ≠ u → ∀ k k', (t, k) ∈ s.locks → (u, k') ∈ s.locks → conflict k k' = false
  opened : {t | s.txs t ≠ none}.Finite

variable {M R Fresh}

theorem calm_init (d : D) : Calm R Fresh (Machine.init d : State L D C K O E Q α) where
  orderly t tx htx := by cases htx
  owned t k hk := by simp [Machine.init] at hk
  apart t u _ k k' hk := by simp [Machine.init] at hk
  opened := by simp [Machine.init]

variable {s s' : State L D C K O E Q α} {t : Nat}

theorem Calm.ended (hs : Calm R Fresh s) (hl : s'.locks = Machine.release s t)
    (ht : s'.txs = Function.update s.txs t none) : Calm R Fresh s' := by
  have hkept : ∀ u, u ≠ t → ∀ k, (u, k) ∈ s'.locks ↔ (u, k) ∈ s.locks := by
    intro u hu k
    rw [hl, Machine.mem_release]
    exact and_iff_left hu
  have hgone : ∀ u k, (u, k) ∈ s'.locks → u ≠ t ∧ (u, k) ∈ s.locks := by
    intro u k hk
    rw [hl, Machine.mem_release] at hk
    exact hk.symm
  refine ⟨fun u tx htx => ?_, fun u k hk => ?_, fun u v huv k k' hk hk' => ?_, hs.opened.subset fun u hu hn => ?_⟩
  · by_cases hu : u = t
    · simp [ht, hu] at htx
    · rw [ht, Function.update_of_ne hu] at htx
      simpa only [hkept u hu] using hs.orderly u tx htx
  · rw [ht, Function.update_of_ne (hgone u k hk).1]
    exact hs.owned u k (hgone u k hk).2
  · exact hs.apart u v huv k k' (hgone u k hk).2 (hgone v k' hk').2
  · by_cases hut : u = t
    · simp [ht, hut] at hu
    · simp [ht, Function.update_of_ne hut, hn] at hu

theorem Calm.begin (hM : ∀ q, (M.prog q).Orderly R Fresh (fun _ _ => True) fun _ => False) {q : Q} (hs : Calm R Fresh s)
    (h : M.step s (.begin t q) = some s') : Calm R Fresh s' := by
  obtain ⟨hn, rfl⟩ := M.step_begin h
  refine ⟨fun u tx htx => ?_, fun u k hk => ?_, hs.apart, (hs.opened.insert t).subset fun u hu => ?_⟩
  · by_cases hu : u = t
    · subst hu
      obtain rfl : _ = tx := by simpa using htx
      have hnone : (fun k => (u, k) ∈ s.locks) = fun _ => False :=
        funext fun k => propext ⟨fun hk => hs.owned u k hk hn, False.elim⟩
      simpa only [hnone] using hM q
    · simp only [Function.update_of_ne hu] at htx
      exact hs.orderly u tx htx
  · by_cases hu : u = t
    · simp [hu]
    · simpa [Function.update_of_ne hu] using hs.owned u k hk
  · by_cases hut : u = t
    · exact Or.inl hut
    · exact Or.inr (by simpa [Function.update_of_ne hut] using hu)

theorem Calm.exec {o : O} (hs : Calm R Fresh s) (h : M.step s (.exec t o) = some s') : Calm R Fresh s' := by
  obtain ⟨q, name, keys, changes, nx, w, seen, htx, hfree, rfl⟩ := M.step_exec h
  set ks := keys o (M.view w s.db) with hks
  have hown : (fun k => (t, k) ∈ Machine.take s t ks) = fun k => k ∈ ks ∨ (t, k) ∈ s.locks := by
    funext k
    simp
  have hother : ∀ u, u ≠ t → ∀ k, (u, k) ∈ Machine.take s t ks ↔ (u, k) ∈ s.locks := by
    intro u hut k
    simp [hut]
  refine ⟨fun u tx hu => ?_, fun u k hk => ?_, fun u v huv k k' hk hk' => ?_,
    (hs.opened.insert t).subset fun u hu => ?_⟩
  · by_cases hut : u = t
    · subst hut
      obtain rfl : _ = tx := by simpa using hu
      have hrest := (hs.orderly u _ htx).2 o (M.view w s.db)
      rw [← hks, ← hown] at hrest
      exact hrest
    · simp only [Function.update_of_ne hut] at hu
      simpa only [hother u hut] using hs.orderly u tx hu
  · by_cases hut : u = t
    · simp [hut]
    · simpa [Function.update_of_ne hut] using hs.owned u k ((hother u hut k).mp hk)
  · rcases Machine.mem_take.mp hk with ⟨rfl, hmem⟩ | hold
    · rw [Locking.symm]
      exact hfree k hmem v k' ((hother v huv.symm k').mp hk') huv.symm
    · rcases Machine.mem_take.mp hk' with ⟨rfl, hmem⟩ | hold'
      · exact hfree k' hmem u k hold huv
      · exact hs.apart u v huv k k' hold hold'
  · by_cases hut : u = t
    · exact Or.inl hut
    · exact Or.inr (by simpa [Function.update_of_ne hut] using hu)

theorem Calm.step (hM : ∀ q, (M.prog q).Orderly R Fresh (fun _ _ => True) fun _ => False) {e : Event O Q}
    (hs : Calm R Fresh s) (h : M.step s e = some s') : Calm R Fresh s' := by
  cases e with
  | begin t q => exact hs.begin hM h
  | exec t o => exact hs.exec h
  | commit t =>
    obtain ⟨q, a, w, seen, htx, rfl⟩ := M.step_commit h
    exact hs.ended rfl rfl
  | rollback t =>
    obtain ⟨-, rfl⟩ := M.step_rollback h
    exact hs.ended rfl rfl

theorem Calm.run (hM : ∀ q, (M.prog q).Orderly R Fresh (fun _ _ => True) fun _ => False) (hs : Calm R Fresh s)
    (es : List (Event O Q)) : Calm R Fresh (M.run s es) :=
  M.run_induction (P := Calm R Fresh) (fun _ _ _ hs h => hs.step hM h) es s hs

/-! ## No circle -/

/-- The next lock of a transaction that waits ranks above all that it has. -/
theorem Calm.uphill (hs : Calm R Fresh s) {p : Partway O} (hp : M.Halfway s p Fresh) {u : Nat} {k k' : K}
    (hk : (M.asks s p t)[p.got t]? = some k) (hut : u ≠ t) (hk' : M.Has s p u k') (hc : conflict k' k = true) :
    ∀ k₀, M.Has s p t k₀ → R.held k₀ < R.asked k := by
  have hasks : ∃ tx, s.txs t = some tx ∧
      R.AllowsAll {k | ∃ u, u ≠ t ∧ M.Has s p u k} (fun k => (t, k) ∈ s.locks) (M.asks s p t) := by
    unfold Machine.asks
    split
    · next q name keys changes next w seen htx =>
      exact ⟨_, htx, (hs.orderly t _ htx).1 _ _ _ (hp.fresh t _ htx)⟩
    · next hno =>
      rw [Machine.asks] at hk
      split at hk
      · next q name keys changes next w seen htx => exact absurd htx (hno _ _ _ _ _ _ _)
      · simp at hk
  obtain ⟨tx, -, hall⟩ := hasks
  rcases hall.get _ _ hk with ⟨k₀, hk₀, hcover⟩ | hfresh | hup
  · have hfree := hp.apart u t hut k' k₀ hk' hk₀
    exact absurd (hcover k' hc) (hfree ▸ Bool.false_ne_true)
  · exact absurd (hfresh k' ⟨u, hut, hk'⟩) (hc ▸ Bool.false_ne_true.symm)
  · exact hup

/-- The rank of the lock that `t` is to get next. -/
def LockOrder.next (R : LockOrder K) (M : Machine L D C K O E Q α) (s : State L D C K O E Q α) (p : Partway O)
    (t : Nat) : Nat :=
  ((M.asks s p t)[p.got t]?).elim 0 R.asked

theorem Calm.acyclic (hs : Calm R Fresh s) {p : Partway O} (hp : M.Halfway s p Fresh) :
    ¬ Relation.TransGen (M.Waits s p) t t := by
  -- Along every chain of waiting transactions the ranks rise.
  have hone : ∀ t u v, M.Waits s p t u → M.Waits s p u v → R.next M s p t < R.next M s p u := by
    rintro t u v ⟨-, k, k', hk, hk', hc⟩ ⟨hvu, k₁, k₁', hk₁, hk₁', hc₁⟩
    have hlt := hs.uphill hp hk₁ hvu hk₁' hc₁ k' hk'
    rw [LockOrder.next, LockOrder.next, hk, hk₁]
    exact (R.le k k' hc).trans_lt hlt
  have hchain : ∀ t u, Relation.TransGen (M.Waits s p) t u → ∀ v, M.Waits s p u v →
      R.next M s p t < R.next M s p u := by
    intro t u h
    induction h with
    | single h => exact fun v hv => hone _ _ v h hv
    | tail _ h ih => exact fun v hv => (ih _ h).trans (hone _ _ v h hv)
  intro h
  obtain ⟨u, hu, -⟩ := (Relation.TransGen.head'_iff (r := M.Waits s p)).mp h
  exact absurd (hchain t t h u hu) (lt_irrefl _)

/-! ## Bringing every transaction to its end -/

/-- No one else has a lock that ranks above all of `t`. -/
def LockOrder.Top (R : LockOrder K) (s : State L D C K O E Q α) (t : Nat) : Prop :=
  ∀ u k', (u, k') ∈ s.locks → u ≠ t → ∃ k₀, (t, k₀) ∈ s.locks ∧ R.held k' ≤ R.held k₀

theorem Calm.goes_on (hs : Calm R Fresh s) {q : Q} {name : L} {keys : O → D → List K} {changes : O → D → List C}
    {next : O → D → Prog L D C K O E α} {w : List C} {seen : List (L × D)}
    (htx : s.txs t = some ⟨q, .stmt name keys changes next, w, seen⟩) (htop : R.Top s t) {o : O}
    (ho : Fresh {k | ∃ u, (u, k) ∈ s.locks} (M.view w s.db) o) : (M.step s (.exec t o)).isSome = true := by
  have hothers : {k | ∃ u, u ≠ t ∧ (u, k) ∈ s.locks} ⊆ {k | ∃ u, (u, k) ∈ s.locks} := by
    rintro k ⟨u, -, hk⟩
    exact ⟨u, hk⟩
  have hfree := ((hs.orderly t _ htx).1 _ _ o ho).free hothers
    (fun k' ⟨u, hut, hk'⟩ k₀ hk₀ => hs.apart u t hut k' k₀ hk' hk₀) fun k' ⟨u, hut, hk'⟩ => htop u k' hk' hut
  have hall : (keys o (M.view w s.db)).all (Machine.canTake s t) = true := by
    rw [List.all_eq_true]
    intro k hk
    rw [Machine.canTake_iff]
    exact fun u k' hk' hut => hfree k hk k' ⟨u, hut, hk'⟩
  simp only [Machine.step, htx, hall, ite_true, Option.isSome_some]

variable (hM : ∀ q, (M.prog q).Orderly R Fresh (fun _ _ => True) fun _ => False)
  (hfresh : ∀ taken : Set K, taken.Finite → ∀ d, ∃ o, Fresh taken d o)

include hM hfresh in
theorem Calm.finish (p : Prog L D C K O E α) : ∀ (s : State L D C K O E Q α) (q : Q) (w : List C) (seen : List (L × D)),
    Calm R Fresh s → s.txs t = some ⟨q, p, w, seen⟩ → R.Top s t →
    ∃ es, EveryStep M.step (M.Closing Fresh) s es ∧ (M.run s es).txs = Function.update s.txs t none := by
  induction p with
  | ret a =>
    intro s q w seen hs htx _
    have hstep : M.step s (.commit t) = some ⟨M.view w s.db, Machine.release s t, Function.update s.txs t none,
        ⟨q, a, w, seen⟩ :: s.log⟩ := by
      simp only [Machine.step, htx]
    refine ⟨[.commit t], ⟨trivial, trivial⟩, ?_⟩
    rw [Machine.run_cons, Machine.run_nil, M.next_of_step hstep]
  | fail e =>
    intro s q w seen hs htx _
    have hstep : M.step s (.rollback t) = some ⟨s.db, Machine.release s t, Function.update s.txs t none, s.log⟩ := by
      simp only [Machine.step, htx]
    refine ⟨[.rollback t], ⟨⟨_, e, htx, rfl⟩, trivial⟩, ?_⟩
    rw [Machine.run_cons, Machine.run_nil, M.next_of_step hstep]
  | stmt name keys changes next ih =>
    intro s q w seen hs htx htop
    have hfinite : {k | ∃ u, (u, k) ∈ s.locks}.Finite := by
      refine ((s.locks.map (·.2)).finite_toSet).subset ?_
      rintro k ⟨u, hk⟩
      exact List.mem_map.mpr ⟨(u, k), hk, rfl⟩
    obtain ⟨o, ho⟩ := hfresh _ hfinite (M.view w s.db)
    obtain ⟨s', hstep⟩ := Option.isSome_iff_exists.mp (hs.goes_on htx htop ho)
    have hs' := hs.step hM hstep
    obtain ⟨_, _, _, _, _, _, _, htx', _, rfl⟩ := M.step_exec hstep
    obtain ⟨rfl, ⟨rfl, rfl, rfl, rfl⟩, rfl, rfl⟩ := by simpa using htx.symm.trans htx'
    obtain ⟨es, hes, htxs⟩ := ih o (M.view w s.db) _ q _ _ hs' (Function.update_self ..) fun u k' hk' hut => by
      rcases Machine.mem_take.mp hk' with ⟨rfl, -⟩ | hold
      · exact absurd rfl hut
      · exact (htop u k' hold hut).imp fun k₀ h => ⟨Machine.mem_take.mpr (Or.inr h.1), h.2⟩
    refine ⟨.exec t o :: es, ⟨⟨_, htx, ho⟩, ?_⟩, ?_⟩
    · rw [Runs.next_of_step hstep]
      exact hes
    · rw [Machine.run_cons, M.next_of_step hstep, htxs, Function.update_idem]

theorem Calm.exists_top (hs : Calm R Fresh s) (hopen : ∃ t, s.txs t ≠ none) :
    ∃ t, s.txs t ≠ none ∧ R.Top s t := by
  by_cases hlocks : s.locks = []
  · obtain ⟨t, ht⟩ := hopen
    exact ⟨t, ht, fun u k' hk' => by simp [hlocks] at hk'⟩
  · obtain ⟨⟨t, k₀⟩, hmem, hmax⟩ := Set.exists_max_image {l | l ∈ s.locks} (fun l => R.held l.2)
      s.locks.finite_toSet (List.exists_mem_of_ne_nil _ hlocks)
    exact ⟨t, hs.owned t k₀ hmem, fun u k' hk' _ => ⟨k₀, hmem, hmax (u, k') hk'⟩⟩

include hM hfresh in
/-- From every state the transactions under way can all end, with no new one begun. -/
theorem Calm.drain (n : Nat) : ∀ (s : State L D C K O E Q α), Calm R Fresh s → {t | s.txs t ≠ none}.ncard = n →
    ∃ es, EveryStep M.step (M.Closing Fresh) s es ∧ ∀ t, (M.run s es).txs t = none := by
  induction n with
  | zero =>
    intro s hs hn
    have hempty : {t | s.txs t ≠ none} = ∅ := (Set.ncard_eq_zero hs.opened).mp hn
    exact ⟨[], trivial, fun t => by simpa using Set.eq_empty_iff_forall_notMem.mp hempty t⟩
  | succ n ih =>
    intro s hs hn
    have hopen : {t | s.txs t ≠ none}.Nonempty := Set.nonempty_of_ncard_ne_zero (by omega)
    obtain ⟨t, ht, htop⟩ := hs.exists_top hopen
    obtain ⟨tx, htx⟩ := Option.ne_none_iff_exists'.mp ht
    obtain ⟨es, hes, htxs⟩ := Calm.finish hM hfresh tx.rest s tx.req tx.changes tx.seen hs htx htop
    have hleft : {u | (M.run s es).txs u ≠ none} = {u | s.txs u ≠ none} \ {t} := by
      ext u
      by_cases hu : u = t
      · simp [htxs, hu]
      · simp [htxs, hu]
    have hcard : {u | (M.run s es).txs u ≠ none}.ncard = n := by
      have hmem : t ∈ {u | s.txs u ≠ none} := by simp [htx]
      rw [hleft, Set.ncard_sdiff_singleton_of_mem hmem]
      omega
    obtain ⟨es', hes', hend⟩ := ih _ (hs.run hM es) hcard
    refine ⟨es ++ es', hes.append hes', fun u => ?_⟩
    rw [Machine.run_append]
    exact hend u

end

/-- No deadlock in `s`: however far the next statements have got with their locks, no
transactions wait for each other in a circle, and all under way can end with no new
one begun. -/
structure Machine.NeverStuck [Locking K] (M : Machine L D C K O E Q α) (Fresh : Set K → D → O → Prop)
    (s : State L D C K O E Q α) : Prop where
  acyclic : ∀ p, M.Halfway s p Fresh → ∀ t, ¬ Relation.TransGen (M.Waits s p) t t
  drains : ∃ es, EveryStep M.step (M.Closing Fresh) s es ∧ ∀ t, (M.run s es).txs t = none

theorem Calm.neverStuck [Locking K] {R : LockOrder K} {M : Machine L D C K O E Q α} {Fresh : Set K → D → O → Prop}
    (hM : ∀ q, (M.prog q).Orderly R Fresh (fun _ _ => True) fun _ => False)
    (hfresh : ∀ taken : Set K, taken.Finite → ∀ d, ∃ o, Fresh taken d o) {s : State L D C K O E Q α}
    (hs : Calm R Fresh s) : M.NeverStuck Fresh s :=
  ⟨fun _ hp _ => hs.acyclic hp, Calm.drain hM hfresh _ s hs rfl⟩

-- From here on a body is taken apart by the rules above.
attribute [irreducible] Prog.Orderly

end ReadCommitted
