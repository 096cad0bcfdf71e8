import Mathlib.Data.Option.Defs
import Mototeca.ReadCommitted

/-!
# Two runs that look alike

The same calls on two contents that `R` relates. When every body goes the same way
on both, each step of one run is a step of the other, and the two give the same
answers, whatever is interleaved with what.
-/

namespace ReadCommitted

variable {L D C K O E E' Q α β : Type}

section
variable (R : D → D → Prop) (Safe : C → Prop)

/-- Two bodies that lock and change the same on related contents and end alike, with
results that `T` relates. Their changes are `Safe`. -/
def Prog.Alike (T : α → β → Prop) : Prog L D C K O E α → Prog L D C K O E β → Prop
  | .ret a, .ret b => T a b
  | .fail e, .fail e' => e = e'
  | .stmt name keys changes next, .stmt name' keys' changes' next' => name = name' ∧ ∀ o d d', R d d' →
      keys o d = keys' o d' ∧ changes o d = changes' o d' ∧ (∀ c ∈ changes o d, Safe c) ∧
        Prog.Alike T (next o d) (next' o d')
  | _, _ => False

variable {R Safe}

theorem alike_ret {T : α → β → Prop} {a : α} {b : β} (h : T a b) :
    (.ret a : Prog L D C K O E α).Alike R Safe T (.ret b) := h

theorem alike_fail {T : α → β → Prop} {e : E} : (.fail e : Prog L D C K O E α).Alike R Safe T (.fail e) := rfl

theorem alike_stmt {T : α → β → Prop} {name : L} {keys keys' : O → D → List K} {changes changes' : O → D → List C}
    {next : O → D → Prog L D C K O E α} {next' : O → D → Prog L D C K O E β}
    (h : ∀ o d d', R d d' → keys o d = keys' o d' ∧ changes o d = changes' o d' ∧ (∀ c ∈ changes o d, Safe c) ∧
      (next o d).Alike R Safe T (next' o d')) :
    (.stmt name keys changes next : Prog L D C K O E α).Alike R Safe T (.stmt name keys' changes' next') := ⟨rfl, h⟩

theorem Prog.Alike.bind {γ δ : Type} {T : α → β → Prop} {T' : γ → δ → Prop} {k : α → Prog L D C K O E γ}
    {k' : β → Prog L D C K O E δ} (hk : ∀ a b, T a b → (k a).Alike R Safe T' (k' b)) :
    ∀ {p : Prog L D C K O E α} {p' : Prog L D C K O E β}, p.Alike R Safe T p' →
      (p.bind k).Alike R Safe T' (p'.bind k') := by
  intro p
  induction p with
  | ret a =>
    intro p' h
    cases p' with
    | ret b => exact hk a b h
    | fail e => exact h.elim
    | stmt name keys changes next => exact h.elim
  | fail e =>
    intro p' h
    cases p' with
    | ret b => exact h.elim
    | fail e' => exact h
    | stmt name keys changes next => exact h.elim
  | stmt name keys changes next ih =>
    intro p' h
    cases p' with
    | ret b => exact h.elim
    | fail e => exact h.elim
    | stmt name' keys' changes' next' =>
      refine ⟨h.1, fun o d d' hR => ?_⟩
      obtain ⟨hkeys, hchanges, hsafe, hnext⟩ := h.2 o d d' hR
      exact ⟨hkeys, hchanges, hsafe, ih o d hnext⟩

theorem Prog.Alike.andThen {T : β → β → Prop} {p : Prog L D C K O E α} {k : α → Prog L D C K O E β}
    (hp : p.Alike R Safe Eq p) (hk : ∀ a, (k a).Alike R Safe T (k a)) : (p.bind k).Alike R Safe T (p.bind k) := by
  refine hp.bind fun a a' h => ?_
  rw [← h]
  exact hk a

theorem Prog.Alike.mapFail {T : α → β → Prop} (f : E → E') :
    ∀ {p : Prog L D C K O E α} {p' : Prog L D C K O E β}, p.Alike R Safe T p' →
      (p.mapFail f).Alike R Safe T (p'.mapFail f) := by
  intro p
  induction p with
  | ret a =>
    intro p' h
    cases p' with
    | ret b => exact h
    | fail e => exact h.elim
    | stmt name keys changes next => exact h.elim
  | fail e =>
    intro p' h
    cases p' with
    | ret b => exact h.elim
    | fail e' => exact congrArg f h
    | stmt name keys changes next => exact h.elim
  | stmt name keys changes next ih =>
    intro p' h
    cases p' with
    | ret b => exact h.elim
    | fail e => exact h.elim
    | stmt name' keys' changes' next' =>
      refine ⟨h.1, fun o d d' hR => ?_⟩
      obtain ⟨hkeys, hchanges, hsafe, hnext⟩ := h.2 o d d' hR
      exact ⟨hkeys, hchanges, hsafe, ih o d hnext⟩

theorem alike_read {T : α → β → Prop} {name : L} {next : O → D → Prog L D C K O E α}
    {next' : O → D → Prog L D C K O E β} (h : ∀ o d d', R d d' → (next o d).Alike R Safe T (next' o d')) :
    (.stmt name (fun _ _ => []) (fun _ _ => []) next : Prog L D C K O E α).Alike R Safe T
      (.stmt name (fun _ _ => []) (fun _ _ => []) next') :=
  ⟨rfl, fun o d d' hR => ⟨rfl, rfl, fun _ hc => absurd hc List.not_mem_nil, h o d d' hR⟩⟩

theorem alike_query {T : α → α → Prop} {name : L} {f : D → α} (h : ∀ d d', R d d' → T (f d) (f d')) :
    (Prog.query name f : Prog L D C K O E α).Alike R Safe T (Prog.query name f) :=
  alike_read fun _ d d' hR => h d d' hR

theorem alike_queryForUpdate {T : α → α → Prop} {name : L} {keys : D → List K} {f : D → α}
    (hkeys : ∀ d d', R d d' → keys d = keys d') (h : ∀ d d', R d d' → T (f d) (f d')) :
    (Prog.queryForUpdate name keys f : Prog L D C K O E α).Alike R Safe T (Prog.queryForUpdate name keys f) :=
  ⟨rfl, fun _ d d' hR => ⟨hkeys d d' hR, rfl, fun _ hc => absurd hc List.not_mem_nil, h d d' hR⟩⟩

theorem alike_write {name : L} {err : E} {keys : O → D → List K} {ok : O → D → Bool} {changes : O → D → List C}
    {result : O → α} (hkeys : ∀ o d d', R d d' → keys o d = keys o d') (hok : ∀ o d d', R d d' → ok o d = ok o d')
    (hchanges : ∀ o d d', R d d' → changes o d = changes o d') (hsafe : ∀ o d, ∀ c ∈ changes o d, Safe c) :
    (Prog.write name err keys ok changes result : Prog L D C K O E α).Alike R Safe Eq
      (Prog.write name err keys ok changes result) := by
  refine ⟨rfl, fun o d d' hR => ?_⟩
  dsimp only
  rw [hkeys o d d' hR, hok o d d' hR, hchanges o d d' hR]
  refine ⟨rfl, rfl, fun c hc => ?_, ?_⟩
  · by_cases h : ok o d' = true
    · rw [if_pos h] at hc
      exact hsafe o d' c hc
    · rw [if_neg h] at hc
      exact absurd hc List.not_mem_nil
  · by_cases h : ok o d' = true
    · rw [if_pos h]
      exact alike_ret rfl
    · rw [if_neg h]
      exact alike_fail

end

/-! ## What a client sees -/

def Prog.outcome : Prog L D C K O E α → Option (Except E α)
  | .ret a => some (.ok a)
  | .fail e => some (.error e)
  | .stmt .. => none

/-- What transaction `t` has come to, if it is under way. -/
def State.answer (s : State L D C K O E Q α) (t : Nat) : Option (Option (Except E α)) :=
  (s.txs t).map fun tx => tx.rest.outcome

def State.replies (s : State L D C K O E Q α) : List (Q × α) := s.log.map fun x => (x.req, x.result)

/-- No client tells the two states apart: the same calls wait, have failed and were answered. -/
structure SameToClients (s s' : State L D C K O E Q α) : Prop where
  waiting : s.locks = s'.locks
  answers : s.answer = s'.answer
  replies : s.replies = s'.replies

/-! ## Runs side by side -/

section
variable (R : D → D → Prop) (Safe : C → Prop)

structure Tx.Alike (tx tx' : Tx L D C K O E Q α) : Prop where
  req : tx.req = tx'.req
  rest : tx.rest.Alike R Safe Eq tx'.rest
  changes : tx.changes = tx'.changes
  safe : ∀ c ∈ tx.changes, Safe c

structure Twins (s s' : State L D C K O E Q α) : Prop where
  db : R s.db s'.db
  locks : s.locks = s'.locks
  txs : ∀ t, Option.Rel (Tx.Alike R Safe) (s.txs t) (s'.txs t)
  replies : s.replies = s'.replies

variable {R Safe}

theorem twins_init {d d' : D} (h : R d d') :
    Twins R Safe (Machine.init d : State L D C K O E Q α) (Machine.init d') :=
  ⟨h, rfl, fun _ => .none, rfl⟩

theorem Prog.Alike.outcome {p p' : Prog L D C K O E α} (h : p.Alike R Safe Eq p') : p.outcome = p'.outcome := by
  cases p <;> cases p' <;> simp_all [Prog.Alike, Prog.outcome]

theorem Twins.sameToClients {s s' : State L D C K O E Q α} (h : Twins R Safe s s') : SameToClients s s' := by
  refine ⟨h.locks, funext fun t => ?_, h.replies⟩
  have ht := h.txs t
  unfold State.answer
  generalize s.txs t = tx at ht
  generalize s'.txs t = tx' at ht
  cases ht with
  | none => rfl
  | some ht => exact congrArg some ht.rest.outcome

theorem foldl_related {app : D → C → D} (happ : ∀ c d d', Safe c → R d d' → R (app d c) (app d' c)) {w : List C}
    (hw : ∀ c ∈ w, Safe c) : ∀ {d d' : D}, R d d' → R (w.foldl app d) (w.foldl app d') := by
  induction w with
  | nil => exact fun h => h
  | cons c w ih =>
    intro d d' h
    exact ih (fun c hc => hw c (List.mem_cons_of_mem _ hc)) (happ c d d' (hw c List.mem_cons_self) h)

/-- A body run while others commit ends the same beside either of two related histories. -/
theorem Prog.Alike.execAt {app : D → C → D} {broken : L → E} {o : L → O} {ds ds' : Nat → D} {fault : Nat → Bool}
    (happ : ∀ c d d', Safe c → R d d' → R (app d c) (app d' c)) (hds : ∀ n, R (ds n) (ds' n)) :
    ∀ {p p' : Prog L D C K O E α}, p.Alike R Safe Eq p' → ∀ n w, (∀ c ∈ w, Safe c) →
      Prog.execAt app broken o ds fault p n w = Prog.execAt app broken o ds' fault p' n w := by
  intro p
  induction p with
  | ret a =>
    intro p' h n w _
    cases p' with
    | ret b =>
      obtain rfl : a = b := h
      rfl
    | fail e => exact h.elim
    | stmt name keys changes next => exact h.elim
  | fail e =>
    intro p' h n w _
    cases p' with
    | ret b => exact h.elim
    | fail e' =>
      obtain rfl : e = e' := h
      rfl
    | stmt name keys changes next => exact h.elim
  | stmt name keys changes next ih =>
    intro p' h n w hw
    cases p' with
    | ret b => exact h.elim
    | fail e => exact h.elim
    | stmt name' keys' changes' next' =>
      obtain ⟨rfl, hstmt⟩ := h
      obtain ⟨-, hchanges, hsafe, hnext⟩ := hstmt (o name) _ _ (foldl_related happ hw (hds n))
      simp only [Prog.execAt]
      by_cases hf : fault n = true
      · rw [if_pos hf, if_pos hf]
      · rw [if_neg hf, if_neg hf, hchanges]
        refine ih _ _ hnext _ _ fun c hc => ?_
        exact (List.mem_append.mp hc).elim (hw c) fun hc => hsafe c (hchanges ▸ hc)

variable {M : Machine L D C K O E Q α} {s s' : State L D C K O E Q α}

theorem rel_update {r : Tx L D C K O E Q α → Tx L D C K O E Q α → Prop}
    {f f' : Nat → Option (Tx L D C K O E Q α)} (hf : ∀ t, Option.Rel r (f t) (f' t)) (t : Nat)
    {x x' : Option (Tx L D C K O E Q α)} (hx : Option.Rel r x x') :
    ∀ u, Option.Rel r (Function.update f t x u) (Function.update f' t x' u) := by
  intro u
  by_cases hu : u = t
  · subst hu
    simpa using hx
  · simpa [Function.update_of_ne hu] using hf u

variable [Locking K]

/-- A step of one is a step of the other, and the two still look alike. -/
theorem Twins.step (happ : ∀ c d d', Safe c → R d d' → R (M.app d c) (M.app d' c)) (hs : Twins R Safe s s')
    {e : Event O Q} (he : ∀ t q, e = .begin t q → (M.prog q).Alike R Safe Eq (M.prog q)) :
    Option.Rel (Twins R Safe) (M.step s e) (M.step s' e) := by
  have hrelease : ∀ t, Machine.release s t = Machine.release s' t := by
    intro t
    unfold Machine.release
    rw [hs.locks]
  cases e with
  | begin t q =>
    have ht := hs.txs t
    simp only [Machine.step]
    generalize s.txs t = tx at ht
    generalize s'.txs t = tx' at ht
    cases ht with
    | some ht => exact .none
    | none =>
      refine .some ⟨hs.db, hs.locks, rel_update hs.txs t (.some ?_), hs.replies⟩
      exact ⟨rfl, he t q rfl, rfl, fun _ hc => absurd hc List.not_mem_nil⟩
  | exec t o =>
    have ht := hs.txs t
    simp only [Machine.step]
    generalize s.txs t = tx at ht
    generalize s'.txs t = tx' at ht
    cases ht with
    | none => exact .none
    | @some tx tx' ht =>
      obtain ⟨q, rest, w, seen⟩ := tx
      obtain ⟨q', rest', w', seen'⟩ := tx'
      obtain ⟨rfl, hrest, rfl, hsafe⟩ := ht
      dsimp only at hrest hsafe
      cases rest with
      | ret a => cases rest' with
        | stmt name keys changes next => exact hrest.elim
        | _ => exact .none
      | fail e => cases rest' with
        | stmt name keys changes next => exact hrest.elim
        | _ => exact .none
      | stmt name keys changes next => cases rest' with
        | ret a => exact hrest.elim
        | fail e => exact hrest.elim
        | stmt name' keys' changes' next' =>
          have hview : R (M.view w s.db) (M.view w s'.db) := foldl_related happ hsafe hs.db
          obtain ⟨hkeys, hchanges, hnew, hnext⟩ := hrest.2 o _ _ hview
          have htake : Machine.canTake s t = Machine.canTake s' t := by
            funext k
            unfold Machine.canTake
            rw [hs.locks]
          dsimp only
          rw [← hkeys, ← htake]
          by_cases hall : (keys o (M.view w s.db)).all (Machine.canTake s t) = true
          · rw [if_pos hall, if_pos hall]
            refine .some ⟨hs.db, by rw [Machine.take, hs.locks, Machine.take], rel_update hs.txs t (.some ⟨rfl, hnext, by rw [hchanges], ?_⟩),
              hs.replies⟩
            intro c hc
            exact (List.mem_append.mp hc).elim (hsafe c) (hnew c)
          · rw [if_neg hall, if_neg hall]
            exact .none
  | commit t =>
    have ht := hs.txs t
    simp only [Machine.step]
    generalize s.txs t = tx at ht
    generalize s'.txs t = tx' at ht
    cases ht with
    | none => exact .none
    | @some tx tx' ht =>
      obtain ⟨q, rest, w, seen⟩ := tx
      obtain ⟨q', rest', w', seen'⟩ := tx'
      obtain ⟨rfl, hrest, rfl, hsafe⟩ := ht
      dsimp only at hrest hsafe
      cases rest with
      | fail e => cases rest' with
        | ret a => exact hrest.elim
        | _ => exact .none
      | stmt name keys changes next => cases rest' with
        | ret a => exact hrest.elim
        | _ => exact .none
      | ret a => cases rest' with
        | fail e => exact hrest.elim
        | stmt name keys changes next => exact hrest.elim
        | ret a' =>
          obtain rfl : a = a' := hrest
          exact .some ⟨foldl_related happ hsafe hs.db, hrelease t, rel_update hs.txs t .none,
            congrArg ((q, a) :: ·) hs.replies⟩
  | rollback t =>
    have ht := hs.txs t
    simp only [Machine.step]
    generalize s.txs t = tx at ht
    generalize s'.txs t = tx' at ht
    cases ht with
    | none => exact .none
    | some ht => exact .some ⟨hs.db, hrelease t, rel_update hs.txs t .none, hs.replies⟩

/-- Every run of calls that cannot tell the contents apart looks the same on both. -/
theorem Twins.run (happ : ∀ c d d', Safe c → R d d' → R (M.app d c) (M.app d' c)) (es : List (Event O Q)) :
    ∀ {s s' : State L D C K O E Q α}, Twins R Safe s s' →
      (∀ t q, .begin t q ∈ es → (M.prog q).Alike R Safe Eq (M.prog q)) → Twins R Safe (M.run s es) (M.run s' es) := by
  induction es with
  | nil => exact fun hs _ => hs
  | cons e es ih =>
    intro s s' hs hall
    rw [Machine.run_cons, Machine.run_cons]
    refine ih ?_ fun t q hq => hall t q (List.mem_cons_of_mem _ hq)
    have hstep := hs.step happ (e := e) fun t q he => hall t q (he ▸ List.mem_cons_self)
    unfold Machine.next
    generalize M.step s e = x at hstep
    generalize M.step s' e = x' at hstep
    cases hstep with
    | none => exact hs
    | some h => exact h

end

attribute [irreducible] Prog.Alike

end ReadCommitted
