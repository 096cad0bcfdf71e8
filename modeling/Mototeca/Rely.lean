import Mathlib.Tactic.Set
import Mototeca.ReadCommitted

/-!
# What a transaction knows while others commit

`wp` is the weakest precondition of a transaction body when other transactions
may commit between any two of its statements. What they may do to the contents
is a relation on contents, narrowed by the locks held (`Rules.rely`). A machine
whose bodies satisfy their `wp`, and whose commits stay within that relation,
gives each commit the facts its body established (`Discipline.good_run`).
-/

namespace ReadCommitted

/-- What a transaction has of its own: the locks it holds, its uncommitted
changes and the contents its statements saw. -/
structure Local (L D C K : Type) where
  held : K → Prop
  changes : List C
  seen : List (L × D)

def Local.start {L D C K : Type} : Local L D C K := ⟨fun _ => False, [], []⟩

/-- What a transaction assumes: an invariant of the committed contents, and
what the others may do to them while it holds the locks `H`. -/
structure Rules (D K : Type) where
  inv : D → Prop
  rely : (K → Prop) → D → D → Prop
  refl : ∀ H d, rely H d d
  trans : ∀ {H d d' d''}, rely H d d' → rely H d' d'' → rely H d d''

variable {L D C K O E E' Q α β : Type}

def Local.after (σ : Local L D C K) (ks : List K) (cs : List C) (name : L) (v : D) : Local L D C K :=
  ⟨fun k => k ∈ ks ∨ σ.held k, σ.changes ++ cs, σ.seen ++ [(name, v)]⟩

@[simp] theorem Local.after_held (σ : Local L D C K) (ks : List K) (cs : List C) (name : L) (v : D) (k : K) :
    (σ.after ks cs name v).held k ↔ k ∈ ks ∨ σ.held k := Iff.rfl

@[simp] theorem Local.after_changes (σ : Local L D C K) (ks : List K) (cs : List C) (name : L) (v : D) :
    (σ.after ks cs name v).changes = σ.changes ++ cs := rfl

@[simp] theorem Local.after_seen (σ : Local L D C K) (ks : List K) (cs : List C) (name : L) (v : D) :
    (σ.after ks cs name v).seen = σ.seen ++ [(name, v)] := rfl

section
variable (app : D → C → D) (ρ : Rules D K)

/-- Before each statement the committed contents may have moved from `d` to any
`d'` that the locks held allow. -/
def wp (P : α → Local L D C K → D → Prop) : Prog L D C K O E α → Local L D C K → D → Prop
  | .ret a, σ, d => P a σ d
  | .fail _, _, _ => True
  | .stmt name keys changes next, σ, d =>
    ∀ d', ρ.rely σ.held d d' → ρ.inv d' → ∀ o,
      let v := σ.changes.foldl app d'
      wp P (next o v) (σ.after (keys o v) (changes o v) name v) d'

variable {app ρ}

theorem wp_ret {P : α → Local L D C K → D → Prop} {a : α} {σ : Local L D C K} {d : D} (h : P a σ d) :
    wp app ρ P (.ret a : Prog L D C K O E α) σ d := h

theorem wp_fail {P : α → Local L D C K → D → Prop} {e : E} {σ : Local L D C K} {d : D} :
    wp app ρ P (.fail e : Prog L D C K O E α) σ d := trivial

theorem wp_stmt {P : α → Local L D C K → D → Prop} {name : L} {keys : O → D → List K} {changes : O → D → List C}
    {next : O → D → Prog L D C K O E α} {σ : Local L D C K} {d : D}
    (h : ∀ d', ρ.rely σ.held d d' → ρ.inv d' → ∀ o,
      let v := σ.changes.foldl app d'
      wp app ρ P (next o v) (σ.after (keys o v) (changes o v) name v) d') :
    wp app ρ P (.stmt name keys changes next) σ d := h

theorem wp_mono {P P' : α → Local L D C K → D → Prop} (h : ∀ a σ d, P a σ d → P' a σ d)
    (p : Prog L D C K O E α) : ∀ σ d, wp app ρ P p σ d → wp app ρ P' p σ d := by
  induction p with
  | ret a => exact fun σ d => h a σ d
  | fail e => exact fun _ _ _ => trivial
  | stmt name keys changes next ih =>
    intro σ d hp d' hr hi o
    exact ih o _ _ _ (hp d' hr hi o)

theorem wp_bind {P : β → Local L D C K → D → Prop} (p : Prog L D C K O E α)
    (k : α → Prog L D C K O E β) : ∀ σ d,
    wp app ρ (fun a => wp app ρ P (k a)) p σ d → wp app ρ P (p.bind k) σ d := by
  induction p with
  | ret a => exact fun _ _ h => h
  | fail e => exact fun _ _ _ => trivial
  | stmt name keys changes next ih =>
    intro σ d hp d' hr hi o
    exact ih o _ _ _ (hp d' hr hi o)

theorem wp_then {P : α → Local L D C K → D → Prop} {P' : β → Local L D C K → D → Prop}
    {p : Prog L D C K O E α} {k : α → Prog L D C K O E β} {σ : Local L D C K} {d : D} (hp : wp app ρ P p σ d)
    (hk : ∀ a σ d, P a σ d → wp app ρ P' (k a) σ d) : wp app ρ P' (p.bind k) σ d :=
  wp_bind p k σ d (wp_mono hk p σ d hp)

theorem wp_mapFail {P : α → Local L D C K → D → Prop} (f : E → E') (p : Prog L D C K O E α) :
    ∀ σ d, wp app ρ P p σ d → wp app ρ P (p.mapFail f) σ d := by
  induction p with
  | ret a => exact fun _ _ h => h
  | fail e => exact fun _ _ _ => trivial
  | stmt name keys changes next ih =>
    intro σ d hp d' hr hi o
    exact ih o _ _ _ (hp d' hr hi o)

theorem wp_and {P P' : α → Local L D C K → D → Prop} (p : Prog L D C K O E α) : ∀ σ d,
    wp app ρ P p σ d → wp app ρ P' p σ d → wp app ρ (fun a σ d => P a σ d ∧ P' a σ d) p σ d := by
  induction p with
  | ret a => exact fun _ _ h h' => ⟨h, h'⟩
  | fail e => exact fun _ _ _ _ => trivial
  | stmt name keys changes next ih =>
    intro σ d hp hp' d' hr hi o
    exact ih o _ _ _ (hp d' hr hi o) (hp' d' hr hi o)

theorem wp_true (p : Prog L D C K O E α) : ∀ (σ : Local L D C K) (d : D), wp app ρ (fun _ _ _ => True) p σ d := by
  induction p with
  | ret a => exact fun _ _ => trivial
  | fail e => exact fun _ _ => trivial
  | stmt name keys changes next ih => exact fun σ d d' _ _ o => ih o _ _ d'

/-- A body may assume more of the others than it needs. -/
theorem wp_narrow {P : α → Local L D C K → D → Prop} {ρ' : Rules D K} (hinv : ∀ d, ρ'.inv d → ρ.inv d)
    (hrely : ∀ H d d', ρ'.rely H d d' → ρ.rely H d d') (p : Prog L D C K O E α) :
    ∀ σ d, wp app ρ P p σ d → wp app ρ' P p σ d := by
  induction p with
  | ret a => exact fun _ _ h => h
  | fail e => exact fun _ _ _ => trivial
  | stmt name keys changes next ih =>
    intro σ d hp d' hr hi o
    exact ih o _ _ _ (hp d' (hrely _ _ _ hr) (hinv _ hi) o)

theorem wp_stable {P : α → Local L D C K → D → Prop}
    (hP : ∀ a σ d d', P a σ d → ρ.rely σ.held d d' → ρ.inv d' → P a σ d') (p : Prog L D C K O E α)
    {σ : Local L D C K} {d d' : D} (h : wp app ρ P p σ d) (hr : ρ.rely σ.held d d') (hi : ρ.inv d') :
    wp app ρ P p σ d' := by
  cases p with
  | ret a => exact hP a σ d d' h hr hi
  | fail e => trivial
  | stmt name keys changes next => exact fun d'' hr' hi' o => h d'' (ρ.trans hr hr') hi' o

theorem wp_query {P : α → Local L D C K → D → Prop} {name : L} {f : D → α} {σ : Local L D C K} {d : D}
    (h : ∀ d', ρ.rely σ.held d d' → ρ.inv d' →
      P (f (σ.changes.foldl app d')) (σ.after [] [] name (σ.changes.foldl app d')) d') :
    wp app ρ P (.query name f : Prog L D C K O E α) σ d :=
  fun d' hr hi _ => h d' hr hi

theorem wp_queryForUpdate {P : α → Local L D C K → D → Prop} {name : L} {keys : D → List K} {f : D → α}
    {σ : Local L D C K} {d : D}
    (h : ∀ d', ρ.rely σ.held d d' → ρ.inv d' →
      P (f (σ.changes.foldl app d')) (σ.after (keys (σ.changes.foldl app d')) [] name (σ.changes.foldl app d')) d') :
    wp app ρ P (.queryForUpdate name keys f : Prog L D C K O E α) σ d :=
  fun d' hr hi _ => h d' hr hi

end

/-! ## Facts that stay -/

/-- A fact that neither the commits of others nor the transaction's own next
statements undo. -/
structure Persistent (ρ : Rules D K) (F : Local L D C K → D → Prop) : Prop where
  rely : ∀ σ d d', F σ d → ρ.rely σ.held d d' → ρ.inv d' → F σ d'
  after : ∀ σ d ks cs name v, F σ d → F (σ.after ks cs name v) d

section
variable {app : D → C → D} {ρ : Rules D K}

theorem Persistent.and {F G : Local L D C K → D → Prop} (hF : Persistent ρ F) (hG : Persistent ρ G) :
    Persistent ρ fun σ d => F σ d ∧ G σ d :=
  ⟨fun σ d d' h hr hi => ⟨hF.rely σ d d' h.1 hr hi, hG.rely σ d d' h.2 hr hi⟩,
    fun σ d ks cs name v h => ⟨hF.after σ d ks cs name v h.1, hG.after σ d ks cs name v h.2⟩⟩

theorem persistent_seen (name : L) (p : D → Prop) :
    Persistent ρ fun (σ : Local L D C K) _ => ∃ v, (name, v) ∈ σ.seen ∧ p v :=
  ⟨fun _ _ _ h _ _ => h, fun _ _ _ _ _ _ ⟨v, hv, hp⟩ => ⟨v, List.mem_append_left _ hv, hp⟩⟩

theorem wp_frame {P : α → Local L D C K → D → Prop} {F : Local L D C K → D → Prop} (hF : Persistent ρ F)
    (p : Prog L D C K O E α) : ∀ σ d, wp app ρ P p σ d → F σ d → wp app ρ (fun a σ d => P a σ d ∧ F σ d) p σ d := by
  induction p with
  | ret a => exact fun _ _ h hf => ⟨h, hf⟩
  | fail e => exact fun _ _ _ _ => trivial
  | stmt name keys changes next ih =>
    intro σ d hp hf d' hr hi o
    exact ih o _ _ _ (hp d' hr hi o) (hF.after _ _ _ _ _ _ (hF.rely _ _ _ hf hr hi))

/-- Run `p` with the facts `F` at hand, then `k`. -/
theorem wp_seq {P : α → Local L D C K → D → Prop} {P' : β → Local L D C K → D → Prop}
    {F : Local L D C K → D → Prop} (hF : Persistent ρ F) {p : Prog L D C K O E α}
    {k : α → Prog L D C K O E β} {σ : Local L D C K} {d : D} (hp : wp app ρ P p σ d) (hf : F σ d)
    (hk : ∀ a σ d, P a σ d → F σ d → wp app ρ P' (k a) σ d) : wp app ρ P' (p.bind k) σ d :=
  wp_bind p k σ d (wp_mono (fun a σ d h => hk a σ d h.1 h.2) p σ d (wp_frame hF p σ d hp hf))

theorem wp_write {P : α → Local L D C K → D → Prop} {name : L} {err : E} {keys : O → D → List K}
    {ok : O → D → Bool} {changes : O → D → List C} {result : O → α} {σ : Local L D C K} {d : D}
    (h : ∀ d', ρ.rely σ.held d d' → ρ.inv d' → ∀ o, ok o (σ.changes.foldl app d') = true →
      P (result o) (σ.after (keys o (σ.changes.foldl app d')) (changes o (σ.changes.foldl app d')) name
        (σ.changes.foldl app d')) d') :
    wp app ρ P (.write name err keys ok changes result : Prog L D C K O E α) σ d := by
  intro d' hr hi o
  by_cases hok : ok o (σ.changes.foldl app d') = true
  · simpa only [hok, ite_true, wp] using h d' hr hi o hok
  · simp only [hok, Bool.false_eq_true, ite_false, wp]

/-- `σ'` comes after `σ` by statements with names in `Φ` and changes in `Ψ`. -/
structure Local.Grows (Φ : L → Prop) (Ψ : C → Prop) (σ σ' : Local L D C K) : Prop where
  seen : ∃ seen, σ'.seen = σ.seen ++ seen ∧ ∀ p ∈ seen, Φ p.1
  changes : ∃ w, σ'.changes = σ.changes ++ w ∧ ∀ c ∈ w, Ψ c

theorem Local.Grows.refl {Φ : L → Prop} {Ψ : C → Prop} (σ : Local L D C K) : σ.Grows Φ Ψ σ :=
  ⟨⟨[], (List.append_nil _).symm, nofun⟩, ⟨[], (List.append_nil _).symm, nofun⟩⟩

theorem Local.Grows.of_after {Φ : L → Prop} {Ψ : C → Prop} {σ σ' : Local L D C K} {ks : List K} {cs : List C} {name : L}
    {v : D} (hname : Φ name) (hcs : ∀ c ∈ cs, Ψ c) (h : (σ.after ks cs name v).Grows Φ Ψ σ') : σ.Grows Φ Ψ σ' := by
  obtain ⟨⟨seen, hseen, hΦ⟩, ⟨w, hw, hΨ⟩⟩ := h
  refine ⟨⟨(name, v) :: seen, ?_, ?_⟩, ⟨cs ++ w, ?_, ?_⟩⟩
  · rw [hseen, Local.after_seen, List.append_assoc, List.singleton_append]
  · exact List.forall_mem_cons.mpr ⟨hname, hΦ⟩
  · rw [hw, Local.after_changes, List.append_assoc]
  · exact List.forall_mem_append.mpr ⟨hcs, hΨ⟩

/-- The frame of a body that keeps to certain statements. -/
theorem wp_only {Φ : L → Prop} {Ψ : C → Prop} (p : Prog L D C K O E α) : ∀ (σ : Local L D C K) (d : D), p.Only Φ Ψ →
    wp app ρ (fun _ σ' _ => σ.Grows Φ Ψ σ') p σ d := by
  induction p with
  | ret a => exact fun σ _ _ => .refl σ
  | fail e => exact fun _ _ _ => trivial
  | stmt name keys changes next ih =>
    intro σ d h d' _ _ o
    obtain ⟨hname, hnext⟩ := h
    obtain ⟨hcs, hp⟩ := hnext o (σ.changes.foldl app d')
    exact wp_mono (fun _ _ _ hg => hg.of_after hname hcs) _ _ _ (ih o _ _ d' hp)

/-- A body run while others commit within `rely` ends as its precondition says. -/
theorem execAt_sound {P : α → Local L D C K → D → Prop} {broken : L → E} {o : L → O} {fault : Nat → Bool} {ds : Nat → D}
    {a : α} {w : List C} {n' : Nat} (hi : ∀ m, ρ.inv (ds m)) (hr : ∀ H m, ρ.rely H (ds m) (ds (m + 1)))
    (p : Prog L D C K O E α) : ∀ n σ d, wp app ρ P p σ d → (∀ H, ρ.rely H d (ds n)) →
      p.execAt app broken o ds fault n σ.changes = .ok (a, w, n') →
      ∃ σ' d', P a σ' d' ∧ σ'.changes = w ∧ ∀ H, ρ.rely H d' (ds n') := by
  induction p with
  | ret a₀ =>
    intro n σ d hp hd he
    obtain ⟨rfl, rfl, rfl⟩ : a₀ = a ∧ σ.changes = w ∧ n = n' := by simpa [Prog.execAt] using he
    exact ⟨σ, d, hp, rfl, hd⟩
  | fail e => exact fun n σ d _ _ he => by cases he
  | stmt name keys changes next ih =>
    intro n σ d hp hd he
    simp only [Prog.execAt] at he
    split at he
    · cases he
    · exact ih (o name) _ (n + 1) _ (ds n) (hp (ds n) (hd σ.held) (hi n) (o name)) (fun H => hr H n) he

/-- A body run with no one else about ends as its precondition says. -/
theorem exec_sound {P : α → Local L D C K → D → Prop} {broken : L → E} {o : L → O} {fault : Nat → Bool} {d : D} {a : α}
    {w : List C} {n' : Nat} (hi : ρ.inv d) (p : Prog L D C K O E α) :
    ∀ n σ, wp app ρ P p σ d → p.exec app broken o d fault n σ.changes = .ok (a, w, n') →
      ∃ σ', P a σ' d ∧ σ'.changes = w := by
  induction p with
  | ret a₀ =>
    intro n σ hp he
    obtain ⟨rfl, rfl, -⟩ : a₀ = a ∧ σ.changes = w ∧ n = n' := by simpa [Prog.exec] using he
    exact ⟨σ, hp, rfl⟩
  | fail e => exact fun n σ _ he => by cases he
  | stmt name keys changes next ih =>
    intro n σ hp he
    simp only [Prog.exec] at he
    split at he
    · cases he
    · exact ih (o name) _ (n + 1) _ (hp d (ρ.refl _ _) hi (o name)) he

end

/-! ## Soundness over every interleaving -/

def State.local (s : State L D C K O E Q α) (t : Nat) (tx : Tx L D C K O E Q α) : Local L D C K :=
  ⟨fun k => (t, k) ∈ s.locks, tx.changes, tx.seen⟩

theorem State.local_congr {s s' : State L D C K O E Q α} {t : Nat} {tx : Tx L D C K O E Q α}
    (h : ∀ k, (t, k) ∈ s'.locks ↔ (t, k) ∈ s.locks) : s'.local t tx = s.local t tx := by
  simp only [State.local, Local.mk.injEq, and_true]
  exact funext fun k => propext (h k)

variable [Locking K]

/-- Two transactions can hold `H` and `H'` at once. -/
def Apart (H H' : K → Prop) : Prop := ∀ k k', H k → H' k' → conflict k k' = false

theorem Apart.not_held {H H' : K → Prop} (h : Apart H H') {k k' : K} (hk' : H' k') (hc : conflict k k' = true) :
    ¬ H k := fun hk => Bool.false_ne_true ((h k k' hk hk').symm.trans hc)

/-- The transactions of a machine meet their preconditions, and their commits
stay within what the others assume. -/
structure Discipline (M : Machine L D C K O E Q α) (ρ : Rules D K)
    (Done : Q → α → Local L D C K → D → Prop) : Prop where
  start : ∀ q d, ρ.inv d → wp M.app ρ (Done q) (M.prog q) .start d
  stable : ∀ q a σ d d', Done q a σ d → ρ.rely σ.held d d' → ρ.inv d' → Done q a σ d'
  keep : ∀ q a σ d, Done q a σ d → ρ.inv d → ρ.inv (M.view σ.changes d)
  guar : ∀ q a σ d (H : K → Prop), Done q a σ d → ρ.inv d → Apart H σ.held → ρ.rely H d (M.view σ.changes d)

/-- What the bodies establish besides, by a proof of its own. -/
theorem Discipline.and {M : Machine L D C K O E Q α} {ρ : Rules D K} {Done More : Q → α → Local L D C K → D → Prop}
    (hD : Discipline M ρ Done) (hstart : ∀ q d, ρ.inv d → wp M.app ρ (More q) (M.prog q) .start d)
    (hstable : ∀ q a σ d d', More q a σ d → ρ.rely σ.held d d' → ρ.inv d' → More q a σ d') :
    Discipline M ρ fun q a σ d => Done q a σ d ∧ More q a σ d where
  start q d hi := wp_and _ _ _ (hD.start q d hi) (hstart q d hi)
  stable q a σ d d' h hr hi := ⟨hD.stable q a σ d d' h.1 hr hi, hstable q a σ d d' h.2 hr hi⟩
  keep q a σ d h := hD.keep q a σ d h.1
  guar q a σ d H h := hD.guar q a σ d H h.1

/-- A stronger invariant and rely, where the bodies establish what keeps them. -/
theorem Discipline.narrow {M : Machine L D C K O E Q α} {ρ ρ' : Rules D K} {Done More : Q → α → Local L D C K → D → Prop}
    (hD : Discipline M ρ Done) (hinv : ∀ d, ρ'.inv d → ρ.inv d) (hrely : ∀ H d d', ρ'.rely H d d' → ρ.rely H d d')
    (hstart : ∀ q d, ρ'.inv d → wp M.app ρ' (More q) (M.prog q) .start d)
    (hstable : ∀ q a σ d d', More q a σ d → ρ'.rely σ.held d d' → ρ'.inv d' → More q a σ d')
    (hkeep : ∀ q a σ d, Done q a σ d → More q a σ d → ρ'.inv d → ρ'.inv (M.view σ.changes d))
    (hguar : ∀ q a σ d (H : K → Prop), Done q a σ d → More q a σ d → ρ'.inv d → Apart H σ.held →
      ρ'.rely H d (M.view σ.changes d)) : Discipline M ρ' fun q a σ d => Done q a σ d ∧ More q a σ d where
  start q d hi := wp_and _ _ _ (wp_narrow hinv hrely _ _ _ (hD.start q d (hinv d hi))) (hstart q d hi)
  stable q a σ d d' h hr hi :=
    ⟨hD.stable q a σ d d' h.1 (hrely _ _ _ hr) (hinv _ hi), hstable q a σ d d' h.2 hr hi⟩
  keep q a σ d h hi := hkeep q a σ d h.1 h.2 hi
  guar q a σ d H h hi hH := hguar q a σ d H h.1 h.2 hi hH

/-- The contents are sound, every transaction under way meets its precondition,
only such a transaction holds a lock, and no two hold locks that conflict. -/
structure Good (M : Machine L D C K O E Q α) (ρ : Rules D K) (Done : Q → α → Local L D C K → D → Prop)
    (s : State L D C K O E Q α) : Prop where
  inv : ρ.inv s.db
  txs : ∀ t tx, s.txs t = some tx → wp M.app ρ (Done tx.req) tx.rest (s.local t tx) s.db
  locks : ∀ t k, (t, k) ∈ s.locks → s.txs t ≠ none
  apart : ∀ t u, t ≠ u → Apart (fun k => (t, k) ∈ s.locks) fun k => (u, k) ∈ s.locks

section
variable {M : Machine L D C K O E Q α} {ρ : Rules D K} {Done : Q → α → Local L D C K → D → Prop}

theorem good_init {d : D} (h : ρ.inv d) : Good M ρ Done (Machine.init d : State L D C K O E Q α) :=
  ⟨h, fun _ _ htx => by simp [Machine.init] at htx, fun _ _ hk => by simp [Machine.init] at hk,
    fun _ _ _ _ _ hk => by simp [Machine.init] at hk⟩

theorem Good.begin (hD : Discipline M ρ Done) {s s' : State L D C K O E Q α} {t : Nat} {q : Q}
    (hg : Good M ρ Done s) (h : M.step s (.begin t q) = some s') : Good M ρ Done s' := by
  obtain ⟨hn, rfl⟩ := M.step_begin h
  refine ⟨hg.inv, fun u tx hu => ?_, fun u k hk => ?_, hg.apart⟩
  · by_cases hut : u = t
    · subst hut
      simp only [Function.update_self, Option.some.injEq] at hu
      subst hu
      have hl : (State.local { s with txs := Function.update s.txs u (some ⟨q, M.prog q, [], []⟩) } u
          ⟨q, M.prog q, [], []⟩ : Local L D C K) = .start := by
        simp only [State.local, Local.start, Local.mk.injEq, and_true]
        exact funext fun k => propext ⟨fun hk => hg.locks u k hk hn, False.elim⟩
      rw [hl]
      exact hD.start q s.db hg.inv
    · simp only [Function.update_of_ne hut] at hu
      exact hg.txs u tx hu
  · by_cases hut : u = t
    · simp [hut]
    · simpa [Function.update_of_ne hut] using hg.locks u k hk

theorem Good.exec {s s' : State L D C K O E Q α} {t : Nat} {o : O} (hg : Good M ρ Done s)
    (h : M.step s (.exec t o) = some s') : Good M ρ Done s' := by
  obtain ⟨q, name, keys, changes, nx, w, seen, htx, hk, rfl⟩ := M.step_exec h
  set v := M.view w s.db with hv
  have hother : ∀ u, u ≠ t → ∀ k, (u, k) ∈ Machine.take s t (keys o v) ↔ (u, k) ∈ s.locks := fun u hut k => by
    simp [hut]
  refine ⟨hg.inv, fun u tx hu => ?_, fun u k hku => ?_, fun u u' hne k k' hku hku' => ?_⟩
  · by_cases hut : u = t
    · subst hut
      simp only [Function.update_self, Option.some.injEq] at hu
      subst hu
      have hw := hg.txs u _ htx s.db (ρ.refl _ _) hg.inv o
      have hl : (State.local { s with
            locks := Machine.take s u (keys o v)
            txs := Function.update s.txs u (some ⟨q, nx o v, w ++ changes o v, seen ++ [(name, v)]⟩) } u
          ⟨q, nx o v, w ++ changes o v, seen ++ [(name, v)]⟩ : Local L D C K) =
          (s.local u ⟨q, .stmt name keys changes nx, w, seen⟩).after (keys o v) (changes o v) name v := by
        simp [State.local, Local.after]
      rw [hl]
      exact hw
    · simp only [Function.update_of_ne hut] at hu
      rw [State.local_congr (s := s)]
      · exact hg.txs u tx hu
      · exact hother u hut
  · by_cases hut : u = t
    · simp [hut]
    · simp only [Function.update_of_ne hut]
      exact hg.locks u k ((hother u hut k).mp hku)
  · -- what `t` takes conflicts with nothing that another holds
    rcases Machine.mem_take.mp hku with ⟨rfl, hk₁⟩ | hold
    · rw [hother u' (Ne.symm hne)] at hku'
      rw [Locking.symm]
      exact hk k hk₁ u' k' hku' (Ne.symm hne)
    · rcases Machine.mem_take.mp hku' with ⟨rfl, hk₁⟩ | hold'
      · exact hk k' hk₁ u k hold hne
      · exact hg.apart u u' hne k k' hold hold'

theorem Good.ended {s s' : State L D C K O E Q α} {t : Nat} (hg : Good M ρ Done s)
    (hh : s'.locks = Machine.release s t) (ht : s'.txs = Function.update s.txs t none) (hi : ρ.inv s'.db)
    (hr : ∀ H : K → Prop, Apart H (fun k => (t, k) ∈ s.locks) → ρ.rely H s.db s'.db)
    (hP : ∀ q a σ d d', Done q a σ d → ρ.rely σ.held d d' → ρ.inv d' → Done q a σ d') :
    Good M ρ Done s' := by
  refine ⟨hi, fun u tx hu => ?_, fun u k hk => ?_, fun u u' hne k k' hk hk' => ?_⟩
  · by_cases hut : u = t
    · simp [ht, hut] at hu
    · simp only [ht, Function.update_of_ne hut] at hu
      have hl : s'.local u tx = s.local u tx := State.local_congr fun k => by rw [hh]; simp [hut]
      rw [hl]
      exact wp_stable (hP tx.req) tx.rest (hg.txs u tx hu) (hr _ (hg.apart u t hut)) hi
  · rw [hh, Machine.mem_release] at hk
    rw [ht, Function.update_of_ne hk.2]
    exact hg.locks u k hk.1
  · rw [hh, Machine.mem_release] at hk hk'
    exact hg.apart u u' hne k k' hk.1 hk'.1

theorem Good.done {s : State L D C K O E Q α} {e : Event O Q} {x : Entry L D C Q α} (hg : Good M ρ Done s)
    (h : Machine.committed s e = some x) : ∃ t, e = .commit t ∧
      Done x.req x.result ⟨fun k => (t, k) ∈ s.locks, x.changes, x.seen⟩ s.db ∧
      M.step s e = some { db := M.view x.changes s.db, locks := Machine.release s t,
                          txs := Function.update s.txs t none, log := x :: s.log } := by
  obtain ⟨t, rfl, htx, hstep⟩ := M.committed_some h
  exact ⟨t, rfl, hg.txs t _ htx, hstep⟩

theorem Good.step (hD : Discipline M ρ Done) {s s' : State L D C K O E Q α} {e : Event O Q}
    (hg : Good M ρ Done s) (h : M.step s e = some s') : Good M ρ Done s' := by
  cases e with
  | begin t q => exact hg.begin hD h
  | exec t o => exact hg.exec h
  | commit t =>
    obtain ⟨q, a, w, seen, htx, rfl⟩ := M.step_commit h
    have hdone := hg.txs t _ htx
    exact hg.ended rfl rfl (hD.keep _ _ _ _ hdone hg.inv)
      (fun H hH => hD.guar _ _ _ _ H hdone hg.inv hH) hD.stable
  | rollback t =>
    obtain ⟨-, rfl⟩ := M.step_rollback h
    exact hg.ended rfl rfl hg.inv (fun H _ => ρ.refl H _) hD.stable

theorem Good.run (hD : Discipline M ρ Done) (es : List (Event O Q)) {s : State L D C K O E Q α}
    (hg : Good M ρ Done s) : Good M ρ Done (M.run s es) :=
  M.run_induction (P := Good M ρ Done) (fun _ _ _ hg h => hg.step hD h) es s hg

/-- A fact about the commits so far and the contents that every commit keeps
holds after every run. -/
theorem run_history (hD : Discipline M ρ Done) {J : List (Entry L D C Q α) → D → Prop}
    (hJ : ∀ l d q a σ, ρ.inv d → Done q a σ d → J l d →
      J (⟨q, a, σ.changes, σ.seen⟩ :: l) (M.view σ.changes d))
    (es : List (Event O Q)) {s : State L D C K O E Q α} (hg : Good M ρ Done s) (h : J s.log s.db) :
    J (M.run s es).log (M.run s es).db := by
  refine (M.run_induction (P := fun s => Good M ρ Done s ∧ J s.log s.db) ?_ es s ⟨hg, h⟩).2
  rintro s e s' ⟨hg, hj⟩ he
  refine ⟨hg.step hD he, ?_⟩
  cases hc : Machine.committed s e with
  | some x =>
    obtain ⟨t, rfl, hdone, hstep⟩ := hg.done hc
    obtain rfl := Option.some.inj (hstep.symm.trans he)
    exact hJ _ _ _ _ _ hg.inv hdone hj
  | none =>
    obtain ⟨hdb, hlog⟩ := M.next_of_not_committed hc
    rw [M.next_of_step he] at hdb hlog
    rw [hdb, hlog]
    exact hj

theorem everyCommit (hD : Discipline M ρ Done) {R : D → Entry L D C Q α → Prop}
    (hR : ∀ d q a σ, ρ.inv d → Done q a σ d → R d ⟨q, a, σ.changes, σ.seen⟩) (es : List (Event O Q)) :
    ∀ {s : State L D C K O E Q α}, Good M ρ Done s → M.EveryCommit s es R := by
  induction es with
  | nil => exact fun _ _ hp => by cases hp
  | cons e es ih =>
    intro s hg p hp
    rcases List.mem_append.mp hp with hp | hp
    · obtain ⟨x, hx, rfl⟩ := List.mem_map.mp hp
      obtain ⟨t, -, hdone, -⟩ := hg.done (Option.mem_toList.mp hx)
      exact hR _ _ _ _ hg.inv hdone
    · exact ih (by simpa using hg.run hD [e]) p hp

/-- A property of the contents that a commit keeps exactly when `R` holds of it
survives a run exactly when `R` holds of every commit. -/
theorem everyCommit_iff (hD : Discipline M ρ Done) {I F : D → Prop} {R : D → Entry L D C Q α → Prop}
    (hI : ∀ d q a σ, ρ.inv d → Done q a σ d → I d → I (M.view σ.changes d))
    (hF : ∀ d q a σ, ρ.inv d → Done q a σ d → I d → F d →
      (F (M.view σ.changes d) ↔ R d ⟨q, a, σ.changes, σ.seen⟩)) (es : List (Event O Q)) :
    ∀ {s : State L D C K O E Q α}, Good M ρ Done s → I s.db → F s.db →
      ((∀ n, F (M.run s (es.take n)).db) ↔ M.EveryCommit s es R) := by
  induction es with
  | nil =>
    intro s _ _ hf
    refine ⟨fun _ p hp => (List.not_mem_nil hp).elim, fun _ n => ?_⟩
    rw [List.take_nil]
    exact hf
  | cons e es ih =>
    intro s hg hi hf
    have hg' : Good M ρ Done (M.next s e) := by simpa using hg.run hD [e]
    have hrun : (∀ n, F (M.run s ((e :: es).take n)).db) ↔ ∀ n, F (M.run (M.next s e) (es.take n)).db := by
      refine ⟨fun h n => h (n + 1), fun h n => ?_⟩
      cases n with
      | zero => exact hf
      | succ n => exact h n
    rw [hrun]
    cases hc : Machine.committed s e with
    | none =>
      obtain ⟨hdb, -⟩ := M.next_of_not_committed hc
      rw [ih hg' (hdb ▸ hi) (hdb ▸ hf)]
      simp only [Machine.EveryCommit, Machine.commits, hc, Option.toList_none, List.map_nil, List.nil_append]
    | some x =>
      obtain ⟨t, rfl, hdone, hstep⟩ := hg.done hc
      have hdb : (M.next s (.commit t)).db = M.view x.changes s.db := by rw [M.next_of_step hstep]
      have hi' : I (M.next s (.commit t)).db := by
        rw [hdb]
        exact hI _ _ _ _ hg.inv hdone hi
      have hiff : F (M.next s (.commit t)).db ↔ R s.db x := by
        rw [hdb]
        exact hF _ _ _ _ hg.inv hdone hi hf
      simp only [Machine.EveryCommit, Machine.commits, hc, Option.toList_some, List.map_cons, List.map_nil,
        List.singleton_append, List.forall_mem_cons]
      refine ⟨fun h => ?_, fun ⟨hr, hrest⟩ => ?_⟩
      · have hf' : F (M.next s (.commit t)).db := h 0
        exact ⟨hiff.mp hf', (ih hg' hi' hf').mp h⟩
      · exact (ih hg' hi' (hiff.mpr hr)).mpr hrest

end

-- From here on a precondition is taken apart by the rules above.
attribute [irreducible] wp

end ReadCommitted
