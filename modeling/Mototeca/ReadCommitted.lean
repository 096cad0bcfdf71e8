import Mathlib.Logic.Function.Basic

/-!
# Transactions at READ COMMITTED

A transaction is a program of statements. A statement sees the committed
contents with the transaction's own changes on top, waits for the locks it
takes, and may add changes. The changes reach the contents at the commit; the
locks are held until the transaction ends.
-/

namespace ReadCommitted

/-- Which locks two transactions cannot hold at once. -/
class Locking (K : Type) where
  conflict : K → K → Bool
  symm : ∀ k k', conflict k k' = conflict k' k

export Locking (conflict)

/-- The body of a transaction. `L` names the statements, `D` is the stored
contents, `C` one change to them, `K` what a statement can lock, `O` what the
server supplies to a statement and `E` the errors that end the body. -/
inductive Prog (L D C K O E α : Type) : Type where
  | ret (a : α)
  | fail (e : E)
  | stmt (name : L) (keys : O → D → List K) (changes : O → D → List C)
      (next : O → D → Prog L D C K O E α)

namespace Prog

variable {L D C K O E E' α β : Type}

def bind : Prog L D C K O E α → (α → Prog L D C K O E β) → Prog L D C K O E β
  | ret a, k => k a
  | fail e, _ => fail e
  | stmt n ks cs nx, k => stmt n ks cs fun o d => (nx o d).bind k

instance : Monad (Prog L D C K O E) where
  pure := ret
  bind := bind

@[simp] theorem pure_eq (a : α) : (pure a : Prog L D C K O E α) = ret a := rfl

@[simp] theorem bind_eq (p : Prog L D C K O E α) (k : α → Prog L D C K O E β) : p >>= k = p.bind k := rfl

@[simp] theorem ret_bind (a : α) (k : α → Prog L D C K O E β) : (ret a).bind k = k a := rfl

@[simp] theorem fail_bind (e : E) (k : α → Prog L D C K O E β) :
    (fail e : Prog L D C K O E α).bind k = fail e := rfl

theorem bind_congr {p : Prog L D C K O E α} {k k' : α → Prog L D C K O E β} (h : ∀ a, k a = k' a) :
    p.bind k = p.bind k' :=
  congrArg p.bind (funext h)

theorem bind_assoc {γ : Type} (p : Prog L D C K O E α) (k : α → Prog L D C K O E β) (k' : β → Prog L D C K O E γ) :
    (p.bind k).bind k' = p.bind fun a => (k a).bind k' := by
  induction p with
  | ret a => rfl
  | fail e => rfl
  | stmt n ks cs nx ih => simp only [bind, ih]

def mapFail (f : E → E') : Prog L D C K O E α → Prog L D C K O E' α
  | ret a => ret a
  | fail e => fail (f e)
  | stmt n ks cs nx => stmt n ks cs fun o d => (nx o d).mapFail f

def query (name : L) (f : D → α) : Prog L D C K O E α :=
  stmt name (fun _ _ => []) (fun _ _ => []) fun _ d => ret (f d)

/-- A statement that writes, or fails where a constraint refuses what it would write. -/
def write (name : L) (err : E) (keys : O → D → List K) (ok : O → D → Bool) (changes : O → D → List C)
    (result : O → α) : Prog L D C K O E α :=
  stmt name keys (fun o d => if ok o d then changes o d else []) fun o d =>
    if ok o d then ret (result o) else fail err

/-- A statement that locks what it reads, as `SELECT … FOR UPDATE` does. -/
def queryForUpdate (name : L) (keys : D → List K) (f : D → α) : Prog L D C K O E α :=
  stmt name (fun _ d => keys d) (fun _ _ => []) fun _ d => ret (f d)

/-! ## A body with no one else about -/

section
variable (app : D → C → D) (broken : L → E) (o : L → O) (d : D)

/-- The body run from statement number `n` with the changes `w` so far. A
statement whose number is a `fault` fails. The result comes with all changes and
the number of the next statement. -/
def exec (fault : Nat → Bool) : Prog L D C K O E α → Nat → List C → Except E (α × List C × Nat)
  | ret a, n, w => .ok (a, w, n)
  | fail e, _, _ => .error e
  | stmt name _ changes next, n, w =>
    if fault n then .error (broken name)
    else exec fault (next (o name) (w.foldl app d)) (n + 1) (w ++ changes (o name) (w.foldl app d))

def execKeys : Prog L D C K O E α → List C → List K
  | ret _, _ => []
  | fail _, _ => []
  | stmt name keys changes next, w =>
    keys (o name) (w.foldl app d) ++
      execKeys (next (o name) (w.foldl app d)) (w ++ changes (o name) (w.foldl app d))

def runs (R : α → List C → Prop) : Prog L D C K O E α → List C → Prop
  | ret a, w => R a w
  | fail _, _ => False
  | stmt name _ changes next, w => runs R (next (o name) (w.foldl app d)) (w ++ changes (o name) (w.foldl app d))

theorem runs_iff (R : α → List C → Prop) (p : Prog L D C K O E α) : ∀ n w, runs app o d R p w ↔
    ∃ a w' n', exec app broken o d (fun _ => false) p n w = .ok (a, w', n') ∧ R a w' := by
  induction p with
  | ret a =>
    refine fun n w => ⟨fun h => ⟨a, w, n, rfl, h⟩, fun ⟨a', w', n', he, h⟩ => ?_⟩
    obtain ⟨rfl, rfl, -⟩ : a = a' ∧ w = w' ∧ n = n' := by simpa [exec] using he
    exact h
  | fail e => exact fun n w => ⟨False.elim, fun ⟨_, _, _, he, _⟩ => by cases he⟩
  | stmt name keys changes next ih =>
    intro n w
    simp only [runs, exec, Bool.false_eq_true, ite_false]
    exact ih _ _ _ _

@[simp] theorem runs_ret (R : α → List C → Prop) (a : α) (w : List C) :
    runs app o d R (ret a : Prog L D C K O E α) w ↔ R a w := Iff.rfl

@[simp] theorem runs_fail (R : α → List C → Prop) (e : E) (w : List C) :
    runs app o d R (fail e : Prog L D C K O E α) w ↔ False := Iff.rfl

@[simp] theorem runs_bind (R : β → List C → Prop) (k : α → Prog L D C K O E β) (p : Prog L D C K O E α) :
    ∀ w, runs app o d R (p.bind k) w ↔ runs app o d (fun a w' => runs app o d R (k a) w') p w := by
  induction p with
  | ret a => exact fun _ => Iff.rfl
  | fail e => exact fun _ => Iff.rfl
  | stmt name keys changes next ih => exact fun _ => ih _ _ _

@[simp] theorem runs_query (R : α → List C → Prop) (name : L) (f : D → α) (w : List C) :
    runs app o d R (query name f : Prog L D C K O E α) w ↔ R (f (w.foldl app d)) w := by
  simp [query, runs]

@[simp] theorem runs_queryForUpdate (R : α → List C → Prop) (name : L) (keys : D → List K) (f : D → α) (w : List C) :
    runs app o d R (queryForUpdate name keys f : Prog L D C K O E α) w ↔ R (f (w.foldl app d)) w := by
  simp [queryForUpdate, runs]

@[simp] theorem runs_write (R : α → List C → Prop) (name : L) (e : E) (keys : O → D → List K) (ok : O → D → Bool)
    (changes : O → D → List C) (result : O → α) (w : List C) :
    runs app o d R (write name e keys ok changes result : Prog L D C K O E α) w ↔
      ok (o name) (w.foldl app d) = true ∧ R (result (o name)) (w ++ changes (o name) (w.foldl app d)) := by
  by_cases h : ok (o name) (w.foldl app d) = true
  · simp [write, runs, h]
  · simp [write, runs, h]

theorem exec_bind (fault : Nat → Bool) (k : α → Prog L D C K O E β) (p : Prog L D C K O E α) : ∀ n w,
    exec app broken o d fault (p.bind k) n w =
      (exec app broken o d fault p n w).bind fun r => exec app broken o d fault (k r.1) r.2.2 r.2.1 := by
  induction p with
  | ret a => exact fun _ _ => rfl
  | fail e => exact fun _ _ => rfl
  | stmt name keys changes next ih =>
    intro n w
    simp only [bind, exec]
    split
    · rfl
    · exact ih _ _ _ _

theorem exec_mapFail {broken' : L → E'} (f : E → E') (p : Prog L D C K O E α) : ∀ n w,
    exec app broken' o d (fun _ => false) (p.mapFail f) n w = (exec app broken o d (fun _ => false) p n w).mapError f := by
  induction p with
  | ret a => exact fun _ _ => rfl
  | fail e => exact fun _ _ => rfl
  | stmt name keys changes next ih => exact fun n w => ih _ _ _ _

@[simp] theorem exec_query (name : L) (f : D → α) (n : Nat) (w : List C) :
    exec app broken o d (fun _ => false) (query name f : Prog L D C K O E α) n w = .ok (f (w.foldl app d), w, n + 1) := by
  simp [query, exec]

@[simp] theorem exec_queryForUpdate (name : L) (keys : D → List K) (f : D → α) (n : Nat) (w : List C) :
    exec app broken o d (fun _ => false) (queryForUpdate name keys f : Prog L D C K O E α) n w =
      .ok (f (w.foldl app d), w, n + 1) := by
  simp [queryForUpdate, exec]

/-- Every failure the body can end in satisfies `Φ`. -/
def FailsOnly (Φ : E → Prop) : Prog L D C K O E α → Prop
  | ret _ => True
  | fail e => Φ e
  | stmt _ _ _ next => ∀ o d, FailsOnly Φ (next o d)

theorem FailsOnly.bind {Φ : E → Prop} {k : α → Prog L D C K O E β} (hk : ∀ a, (k a).FailsOnly Φ) :
    ∀ {p : Prog L D C K O E α}, p.FailsOnly Φ → (p.bind k).FailsOnly Φ := by
  intro p
  induction p with
  | ret a => exact fun _ => hk a
  | fail e => exact fun h => h
  | stmt name keys changes next ih => exact fun h o d => ih o d (h o d)

theorem failsOnly_write {Φ : E → Prop} (name : L) {e : E} (he : Φ e) (keys : O → D → List K) (ok : O → D → Bool)
    (changes : O → D → List C) (result : O → α) :
    (write name e keys ok changes result : Prog L D C K O E α).FailsOnly Φ := by
  intro o d
  by_cases h : ok o d = true <;> simp [h, FailsOnly, he]

theorem FailsOnly.exec {Φ : E → Prop} {e : E} : ∀ {p : Prog L D C K O E α}, p.FailsOnly Φ → ∀ n w,
    exec app broken o d (fun _ => false) p n w = .error e → Φ e := by
  intro p
  induction p with
  | ret a => exact fun _ _ _ he => by cases he
  | fail e' =>
    intro h n w he
    obtain rfl := Except.error.inj he
    exact h
  | stmt name keys changes next ih =>
    intro h n w he
    simp only [Prog.exec, Bool.false_eq_true, ite_false] at he
    exact ih _ _ (h _ _) _ _ he

/-- Every statement the body can reach has its name in `Φ` and its changes in `Ψ`. -/
def Only (Φ : L → Prop) (Ψ : C → Prop) : Prog L D C K O E α → Prop
  | ret _ => True
  | fail _ => True
  | stmt name _ changes next => Φ name ∧ ∀ o d, (∀ c ∈ changes o d, Ψ c) ∧ Only Φ Ψ (next o d)

theorem Only.bind {Φ : L → Prop} {Ψ : C → Prop} {k : α → Prog L D C K O E β} (hk : ∀ a, (k a).Only Φ Ψ) :
    ∀ {p : Prog L D C K O E α}, p.Only Φ Ψ → (p.bind k).Only Φ Ψ := by
  intro p
  induction p with
  | ret a => exact fun _ => hk a
  | fail e => exact fun _ => trivial
  | stmt name keys changes next ih => exact fun h => ⟨h.1, fun o d => ⟨(h.2 o d).1, ih o d (h.2 o d).2⟩⟩

theorem Only.mapFail {Φ : L → Prop} {Ψ : C → Prop} (f : E → E') :
    ∀ {p : Prog L D C K O E α}, p.Only Φ Ψ → (p.mapFail f).Only Φ Ψ := by
  intro p
  induction p with
  | ret a => exact fun h => h
  | fail e => exact fun h => h
  | stmt name keys changes next ih => exact fun h => ⟨h.1, fun o d => ⟨(h.2 o d).1, ih o d (h.2 o d).2⟩⟩

theorem only_query {Φ : L → Prop} {Ψ : C → Prop} {name : L} (h : Φ name) (f : D → α) :
    (query name f : Prog L D C K O E α).Only Φ Ψ :=
  ⟨h, fun _ _ => ⟨nofun, trivial⟩⟩

theorem only_queryForUpdate {Φ : L → Prop} {Ψ : C → Prop} {name : L} (h : Φ name) (keys : D → List K) (f : D → α) :
    (queryForUpdate name keys f : Prog L D C K O E α).Only Φ Ψ :=
  ⟨h, fun _ _ => ⟨nofun, trivial⟩⟩

theorem only_write {Φ : L → Prop} {Ψ : C → Prop} {name : L} (h : Φ name) (err : E) (keys : O → D → List K)
    (ok : O → D → Bool) {changes : O → D → List C} (hc : ∀ o d, ∀ c ∈ changes o d, Ψ c) (result : O → α) :
    (write name err keys ok changes result : Prog L D C K O E α).Only Φ Ψ := by
  refine ⟨h, fun o d => ?_⟩
  dsimp only
  by_cases hok : ok o d = true
  · rw [if_pos hok, if_pos hok]
    exact ⟨hc o d, trivial⟩
  · rw [if_neg hok, if_neg hok]
    exact ⟨nofun, trivial⟩

/-- The body run while others commit: statement number `n` sees `ds n`. -/
def execAt (ds : Nat → D) (fault : Nat → Bool) : Prog L D C K O E α → Nat → List C → Except E (α × List C × Nat)
  | ret a, n, w => .ok (a, w, n)
  | fail e, _, _ => .error e
  | stmt name _ changes next, n, w =>
    if fault n then .error (broken name)
    else execAt ds fault (next (o name) (w.foldl app (ds n))) (n + 1) (w ++ changes (o name) (w.foldl app (ds n)))

theorem execAt_const (fault : Nat → Bool) (p : Prog L D C K O E α) : ∀ n w,
    execAt app broken o (fun _ => d) fault p n w = exec app broken o d fault p n w := by
  induction p with
  | ret a => exact fun _ _ => rfl
  | fail e => exact fun _ _ => rfl
  | stmt name keys changes next ih => exact fun n w => by simp only [execAt, exec, ih]

theorem execAt_bind {ds : Nat → D} {fault : Nat → Bool} {k : α → Prog L D C K O E β} {a : α} {w' : List C} {n' : Nat}
    (p : Prog L D C K O E α) : ∀ n w, execAt app broken o ds fault p n w = .ok (a, w', n') →
      execAt app broken o ds fault (p.bind k) n w = execAt app broken o ds fault (k a) n' w' := by
  induction p with
  | ret a₀ =>
    intro n w h
    obtain ⟨rfl, rfl, rfl⟩ : a₀ = a ∧ w = w' ∧ n = n' := by simpa [execAt] using h
    rfl
  | fail e => exact fun n w h => by cases h
  | stmt name keys changes next ih =>
    intro n w h
    simp only [bind, execAt] at h ⊢
    split at h
    · cases h
    · rename_i hf
      rw [if_neg hf]
      exact ih _ _ _ _ h

theorem execAt_mapFail {broken' : L → E'} {ds : Nat → D} {fault : Nat → Bool} {f : E → E'} {r : α × List C × Nat}
    (p : Prog L D C K O E α) : ∀ n w, execAt app broken o ds fault p n w = .ok r →
      execAt app broken' o ds fault (p.mapFail f) n w = .ok r := by
  induction p with
  | ret a => exact fun _ _ h => by cases h; rfl
  | fail e => exact fun n w h => by cases h
  | stmt name keys changes next ih =>
    intro n w h
    simp only [mapFail, execAt] at h ⊢
    split at h
    · cases h
    · rename_i hf
      rw [if_neg hf]
      exact ih _ _ _ _ h

theorem le_of_exec {fault : Nat → Bool} {a : α} {w' : List C} {n' : Nat} (p : Prog L D C K O E α) : ∀ n w,
    exec app broken o d fault p n w = .ok (a, w', n') → n ≤ n' := by
  induction p with
  | ret a => intro n w h; simp only [exec, Except.ok.injEq, Prod.mk.injEq] at h; omega
  | fail e => intro n w h; cases h
  | stmt name keys changes next ih =>
    intro n w h
    simp only [exec] at h
    split at h
    · cases h
    · have := ih _ _ _ _ h; omega

theorem le_of_execAt {ds : Nat → D} {fault : Nat → Bool} {a : α} {w' : List C} {n' : Nat} (p : Prog L D C K O E α) :
    ∀ n w, execAt app broken o ds fault p n w = .ok (a, w', n') → n ≤ n' := by
  induction p with
  | ret a => intro n w h; simp only [execAt, Except.ok.injEq, Prod.mk.injEq] at h; omega
  | fail e => intro n w h; cases h
  | stmt name keys changes next ih =>
    intro n w h
    simp only [execAt] at h
    split at h
    · cases h
    · have := ih _ _ _ _ h; omega

theorem exec_of_fault {fault : Nat → Bool} {r : α × List C × Nat} (p : Prog L D C K O E α) : ∀ n w,
    exec app broken o d fault p n w = .ok r → exec app broken o d (fun _ => false) p n w = .ok r := by
  induction p with
  | ret a => exact fun _ _ h => h
  | fail e => exact fun _ _ h => h
  | stmt name keys changes next ih =>
    intro n w h
    simp only [exec, Bool.false_eq_true, ite_false] at h ⊢
    split at h
    · cases h
    · exact ih _ _ _ _ h

theorem exec_fault (fault : Nat → Bool) {a : α} {w' : List C} {n' : Nat} (p : Prog L D C K O E α) : ∀ n w,
    exec app broken o d (fun _ => false) p n w = .ok (a, w', n') →
    (exec app broken o d fault p n w = .ok (a, w', n') ∧ ∀ i, n ≤ i → i < n' → fault i = false) ∨
    ((∃ e, exec app broken o d fault p n w = .error e) ∧ ∃ i, n ≤ i ∧ i < n' ∧ fault i = true) := by
  induction p with
  | ret a =>
    intro n w h
    refine Or.inl ⟨h, fun i hn hi => ?_⟩
    simp only [exec, Except.ok.injEq, Prod.mk.injEq] at h
    omega
  | fail e => intro n w h; cases h
  | stmt name keys changes next ih =>
    intro n w h
    simp only [exec, Bool.false_eq_true, ite_false] at h
    have hn := le_of_exec app broken o d _ _ _ h
    cases hf : fault n with
    | true => exact Or.inr ⟨⟨broken name, by simp only [exec, hf, ite_true]⟩, n, by omega, by omega, hf⟩
    | false =>
      simp only [exec, hf, Bool.false_eq_true, ite_false]
      rcases ih _ _ _ _ h with ⟨he, hall⟩ | ⟨he, i, h1, h2, h3⟩
      · refine Or.inl ⟨he, fun i h1 h2 => ?_⟩
        by_cases hi : i = n
        · rw [hi, hf]
        · exact hall i (by omega) h2
      · exact Or.inr ⟨he, i, by omega, h2, h3⟩

end

end Prog

/-- A transaction under way: who asked for it, the statements it has left, its
uncommitted changes, and the contents that each statement so far saw. -/
structure Tx (L D C K O E Q α : Type) where
  req : Q
  rest : Prog L D C K O E α
  changes : List C
  seen : List (L × D)

structure Entry (L D C Q α : Type) where
  req : Q
  result : α
  changes : List C
  seen : List (L × D)

/-- What a server runs: how a change acts on the contents, and the body of the
transaction that a request asks for. -/
structure Machine (L D C K O E Q α : Type) where
  app : D → C → D
  prog : Q → Prog L D C K O E α

/-- The committed contents, the locks held, each with its transaction, the transactions
under way and the commits so far, the latest first. -/
structure State (L D C K O E Q α : Type) where
  db : D
  locks : List (Nat × K)
  txs : Nat → Option (Tx L D C K O E Q α)
  log : List (Entry L D C Q α)

/-- One step of one transaction. `rollback` is the end with an error, at any
point: a failed statement, a failed commit or the body's own `fail`. -/
inductive Event (O Q : Type) where
  | begin (t : Nat) (q : Q)
  | exec (t : Nat) (o : O)
  | commit (t : Nat)
  | rollback (t : Nat)
  deriving DecidableEq

namespace Machine

variable {L D C K O E Q α : Type} (M : Machine L D C K O E Q α)

def view (w : List C) (d : D) : D := w.foldl M.app d

@[simp] theorem view_nil (d : D) : M.view [] d = d := rfl

@[simp] theorem view_cons (c : C) (w : List C) (d : D) : M.view (c :: w) d = M.view w (M.app d c) := rfl

def init (d : D) : State L D C K O E Q α := ⟨d, [], fun _ => none, []⟩

def take (s : State L D C K O E Q α) (t : Nat) (ks : List K) : List (Nat × K) := ks.map (Prod.mk t) ++ s.locks

def release (s : State L D C K O E Q α) (t : Nat) : List (Nat × K) := s.locks.filter (·.1 != t)

@[simp] theorem mem_take {s : State L D C K O E Q α} {t u : Nat} {ks : List K} {k : K} :
    (u, k) ∈ take s t ks ↔ (u = t ∧ k ∈ ks) ∨ (u, k) ∈ s.locks := by
  simp only [take, List.mem_append, List.mem_map, Prod.mk.injEq, exists_eq_right_right]
  rw [eq_comm (a := u), and_comm]

@[simp] theorem mem_release {s : State L D C K O E Q α} {t u : Nat} {k : K} :
    (u, k) ∈ release s t ↔ (u, k) ∈ s.locks ∧ u ≠ t := by
  simp [release]

variable [Locking K]

def canTake (s : State L D C K O E Q α) (t : Nat) (k : K) : Bool :=
  s.locks.all fun l => l.1 == t || !conflict l.2 k

theorem canTake_iff {s : State L D C K O E Q α} {t : Nat} {k : K} :
    canTake s t k = true ↔ ∀ u k', (u, k') ∈ s.locks → u ≠ t → conflict k' k = false := by
  simp only [canTake, List.all_eq_true, Bool.or_eq_true, beq_iff_eq, Bool.not_eq_true', Prod.forall]
  exact forall₃_congr fun u k' _ => or_iff_not_imp_left

/-- `none`: the event cannot happen in this state. -/
def step (s : State L D C K O E Q α) : Event O Q → Option (State L D C K O E Q α)
  | .begin t q =>
    match s.txs t with
    | some _ => none
    | none => some { s with txs := Function.update s.txs t (some ⟨q, M.prog q, [], []⟩) }
  | .exec t o =>
    match s.txs t with
    | some ⟨q, .stmt name keys changes next, w, seen⟩ =>
      let v := M.view w s.db
      if (keys o v).all (canTake s t) then
        some { s with
          locks := take s t (keys o v)
          txs := Function.update s.txs t (some ⟨q, next o v, w ++ changes o v, seen ++ [(name, v)]⟩) }
      else none
    | _ => none
  | .commit t =>
    match s.txs t with
    | some ⟨q, .ret a, w, seen⟩ =>
      some { db := M.view w s.db, locks := release s t, txs := Function.update s.txs t none,
             log := ⟨q, a, w, seen⟩ :: s.log }
    | _ => none
  | .rollback t =>
    match s.txs t with
    | some _ => some { s with locks := release s t, txs := Function.update s.txs t none }
    | none => none

def next (s : State L D C K O E Q α) (e : Event O Q) : State L D C K O E Q α := (M.step s e).getD s

theorem next_of_step {s s' : State L D C K O E Q α} {e : Event O Q} (h : M.step s e = some s') : M.next s e = s' := by
  rw [next, h, Option.getD_some]

/-- The state after a run. Ranging over every list of events ranges over every
interleaving. -/
def run (s : State L D C K O E Q α) (es : List (Event O Q)) : State L D C K O E Q α := es.foldl M.next s

@[simp] theorem run_nil (s : State L D C K O E Q α) : M.run s [] = s := rfl

@[simp] theorem run_cons (s : State L D C K O E Q α) (e : Event O Q) (es : List (Event O Q)) :
    M.run s (e :: es) = M.run (M.next s e) es := rfl

theorem run_append (s : State L D C K O E Q α) (es es' : List (Event O Q)) :
    M.run s (es ++ es') = M.run (M.run s es) es' := by
  simp [run, List.foldl_append]

theorem run_induction {P : State L D C K O E Q α → Prop}
    (hstep : ∀ s e s', P s → M.step s e = some s' → P s') (es : List (Event O Q)) :
    ∀ s, P s → P (M.run s es) := by
  induction es with
  | nil => exact fun s h => h
  | cons e es ih =>
    intro s h
    rw [run_cons]
    refine ih _ ?_
    unfold next
    cases he : M.step s e with
    | none => exact h
    | some s' => exact hstep s e s' h he

def committed (s : State L D C K O E Q α) : Event O Q → Option (Entry L D C Q α)
  | .commit t =>
    match s.txs t with
    | some ⟨q, .ret a, w, seen⟩ => some ⟨q, a, w, seen⟩
    | _ => none
  | _ => none

def commits (s : State L D C K O E Q α) : List (Event O Q) → List (D × Entry L D C Q α)
  | [] => []
  | e :: es => ((committed s e).toList.map fun x => (s.db, x)) ++ commits (M.next s e) es

def EveryCommit (s : State L D C K O E Q α) (es : List (Event O Q)) (R : D → Entry L D C Q α → Prop) : Prop :=
  ∀ p ∈ M.commits s es, R p.1 p.2

instance (s : State L D C K O E Q α) (es : List (Event O Q)) (R : D → Entry L D C Q α → Prop)
    [∀ d x, Decidable (R d x)] : Decidable (M.EveryCommit s es R) :=
  inferInstanceAs (Decidable (∀ p ∈ M.commits s es, R p.1 p.2))

/-! ## What a step does -/

theorem step_begin {s s' : State L D C K O E Q α} {t : Nat} {q : Q} (h : M.step s (.begin t q) = some s') :
    s.txs t = none ∧ s' = { s with txs := Function.update s.txs t (some ⟨q, M.prog q, [], []⟩) } := by
  simp only [step] at h
  split at h
  · cases h
  · rename_i hn; exact ⟨hn, by simpa using h.symm⟩

theorem step_exec {s s' : State L D C K O E Q α} {t : Nat} {o : O} (h : M.step s (.exec t o) = some s') :
    ∃ q name keys changes nx w seen, s.txs t = some ⟨q, .stmt name keys changes nx, w, seen⟩ ∧
      (∀ k ∈ keys o (M.view w s.db), ∀ u k', (u, k') ∈ s.locks → u ≠ t → conflict k' k = false) ∧
      s' = { s with
        locks := take s t (keys o (M.view w s.db))
        txs := Function.update s.txs t (some ⟨q, nx o (M.view w s.db), w ++ changes o (M.view w s.db),
          seen ++ [(name, M.view w s.db)]⟩) } := by
  simp only [step] at h
  split at h
  · rename_i q name keys changes nx w seen htx
    split at h
    · rename_i hk
      refine ⟨q, name, keys, changes, nx, w, seen, htx, fun k hkm => ?_, by simpa using h.symm⟩
      exact canTake_iff.mp (List.all_eq_true.mp hk k hkm)
    · cases h
  · cases h

theorem step_commit {s s' : State L D C K O E Q α} {t : Nat} (h : M.step s (.commit t) = some s') :
    ∃ q a w seen, s.txs t = some ⟨q, .ret a, w, seen⟩ ∧
      s' = { db := M.view w s.db, locks := release s t, txs := Function.update s.txs t none,
             log := ⟨q, a, w, seen⟩ :: s.log } := by
  simp only [step] at h
  split at h
  · rename_i q a w seen htx; exact ⟨q, a, w, seen, htx, by simpa using h.symm⟩
  · cases h

theorem step_rollback {s s' : State L D C K O E Q α} {t : Nat} (h : M.step s (.rollback t) = some s') :
    (s.txs t).isSome ∧ s' = { s with locks := release s t, txs := Function.update s.txs t none } := by
  simp only [step] at h
  split at h
  · rename_i htx; exact ⟨by simp [htx], by simpa using h.symm⟩
  · cases h

theorem txs_next {s : State L D C K O E Q α} {e : Event O Q} {t : Nat} {tx : Tx L D C K O E Q α}
    (h : (M.next s e).txs t = some tx) : (∃ tx', s.txs t = some tx' ∧ tx'.req = tx.req) ∨ e = .begin t tx.req := by
  have other : ∀ {u : Nat} {v : Option (Tx L D C K O E Q α)}, u ≠ t → Function.update s.txs u v t = some tx →
      ∃ tx', s.txs t = some tx' ∧ tx'.req = tx.req := fun hu h =>
    ⟨tx, by rwa [Function.update_of_ne (Ne.symm hu)] at h, rfl⟩
  unfold next at h
  cases he : M.step s e with
  | none =>
    rw [he] at h
    exact Or.inl ⟨tx, h, rfl⟩
  | some s' =>
    simp only [he, Option.getD_some] at h
    cases e with
    | begin u q =>
      obtain ⟨-, rfl⟩ := M.step_begin he
      by_cases hu : u = t
      · subst hu
        obtain rfl : _ = tx := by simpa using h
        exact Or.inr rfl
      · exact Or.inl (other hu h)
    | exec u o =>
      obtain ⟨q, name, keys, changes, nx, w, seen, htx, -, rfl⟩ := M.step_exec he
      by_cases hu : u = t
      · subst hu
        obtain rfl : _ = tx := by simpa using h
        exact Or.inl ⟨_, htx, rfl⟩
      · exact Or.inl (other hu h)
    | commit u =>
      obtain ⟨q, a, w, seen, -, rfl⟩ := M.step_commit he
      by_cases hu : u = t
      · simp [hu] at h
      · exact Or.inl (other hu h)
    | rollback u =>
      obtain ⟨-, rfl⟩ := M.step_rollback he
      by_cases hu : u = t
      · simp [hu] at h
      · exact Or.inl (other hu h)

theorem committed_some {s : State L D C K O E Q α} {e : Event O Q} {x : Entry L D C Q α}
    (h : committed s e = some x) : ∃ t, e = .commit t ∧ s.txs t = some ⟨x.req, .ret x.result, x.changes, x.seen⟩ ∧
      M.step s e = some { db := M.view x.changes s.db, locks := release s t, txs := Function.update s.txs t none,
                          log := x :: s.log } := by
  cases e with
  | commit t =>
    simp only [committed] at h
    split at h
    · rename_i q a w seen htx
      obtain rfl := Option.some.inj h
      exact ⟨t, rfl, htx, by simp only [step, htx]⟩
    · cases h
  | _ => cases h

theorem next_of_not_committed {s : State L D C K O E Q α} {e : Event O Q} (h : committed s e = none) :
    (M.next s e).db = s.db ∧ (M.next s e).log = s.log := by
  unfold next
  cases he : M.step s e with
  | none => exact ⟨rfl, rfl⟩
  | some s' =>
    cases e with
    | begin t q => obtain ⟨-, rfl⟩ := M.step_begin he; exact ⟨rfl, rfl⟩
    | exec t o => obtain ⟨_, _, _, _, _, _, _, _, _, rfl⟩ := M.step_exec he; exact ⟨rfl, rfl⟩
    | rollback t => obtain ⟨-, rfl⟩ := M.step_rollback he; exact ⟨rfl, rfl⟩
    | commit t =>
      obtain ⟨q, a, w, seen, htx, -⟩ := M.step_commit he
      simp [committed, htx] at h

/-- The statements of transaction `t` by name, each with what `o` supplies to it. -/
def execs (t : Nat) (o : L → O) (names : List L) : List (Event O Q) := names.map fun l => .exec t (o l)

/-- A transaction that no one holds up does what `exec` says. -/
theorem run_alone (broken : L → E) (o : L → O) {t : Nat} {q : Q} {d : D} {a : α} {w' : List C} {n' : Nat}
    (p : Prog L D C K O E α) : ∀ (n : Nat) (w : List C) (seen : List (L × D)) (s : State L D C K O E Q α), s.db = d →
    s.txs t = some ⟨q, p, w, seen⟩ → p.exec M.app broken o d (fun _ => false) n w = .ok (a, w', n') →
    (∀ k ∈ p.execKeys M.app o d w, ∀ u k', (u, k') ∈ s.locks → u ≠ t → conflict k' k = false) →
    ∃ names seen', (M.run s (execs t o names ++ [.commit t])).db = M.view w' d ∧
      (M.run s (execs t o names ++ [.commit t])).log = ⟨q, a, w', seen'⟩ :: s.log := by
  induction p with
  | ret a₀ =>
    rintro n w seen s rfl htx he -
    obtain ⟨rfl, rfl, -⟩ : a₀ = a ∧ w = w' ∧ n = n' := by simpa [Prog.exec] using he
    refine ⟨[], seen, ?_⟩
    simp [execs, next, step, htx]
  | fail e => exact fun n w seen s hd htx he _ => by cases he
  | stmt name keys changes nx ih =>
    rintro n w seen s rfl htx he hfree
    simp only [Prog.exec, Bool.false_eq_true, ite_false] at he
    have hall : (keys (o name) (M.view w s.db)).all (canTake s t) = true := by
      rw [List.all_eq_true]
      intro k hk
      exact canTake_iff.mpr (hfree k (List.mem_append_left _ hk))
    let s₁ : State L D C K O E Q α := { s with
      locks := take s t (keys (o name) (M.view w s.db))
      txs := Function.update s.txs t (some ⟨q, nx (o name) (M.view w s.db), w ++ changes (o name) (M.view w s.db),
        seen ++ [(name, M.view w s.db)]⟩) }
    have hs₁ : M.next s (.exec t (o name)) = s₁ := by
      unfold next
      simp only [step, htx, hall, ite_true, Option.getD_some, s₁]
    obtain ⟨names, seen', hdb, hlog⟩ := ih (o name) (M.view w s.db) (n + 1) _ _ s₁ rfl (Function.update_self ..) he
      (fun k hk u k' hl hu => by
        rcases mem_take.mp hl with ⟨rfl, -⟩ | hl
        · exact absurd rfl hu
        · exact hfree k (List.mem_append_right _ hk) u k' hl hu)
    refine ⟨name :: names, seen', ?_⟩
    rw [execs, List.map_cons, List.cons_append, run_cons, hs₁]
    exact ⟨hdb, hlog⟩

end Machine

end ReadCommitted
