import Mathlib.Tactic.Linarith
import Mototeca.Eviction
import Mototeca.Login

/-!
# Login locks

Runs of a `LoginThrottle` for any keys, against a throttle of one key that
drops nothing. A lock ends `lockout` after the last failure at the latest, so
a record `evictStaleLocked` drops would be replaced by the next `Fail` anyway.
-/

namespace Mototeca

open Eviction

inductive ThrottleOp where
  | locked
  | fail
  | succeed
  deriving DecidableEq

abbrev ThrottleCall := Eviction.Call Time String ThrottleOp

namespace Accounts

variable (limit : Nat) (lockout : Time)

def fresh (now : Time) (record : LoginFailures) : Bool := now - record.lastFailure ≤ lockout

/-- One method of a throttle that knows one key and drops nothing. -/
def keep (now : Time) : ThrottleOp → Option LoginFailures → Option LoginFailures
  | .locked, record => record
  | .fail, record => some (failOn limit lockout now ((record.filter (fresh lockout now)).getD ⟨0, now, none⟩))
  | .succeed, _ => none

def call (accounts : Accounts) (c : ThrottleCall) : Accounts :=
  match c.op with
  | .locked => accounts
  | .fail => accounts.fail limit lockout c.time c.key
  | .succeed => accounts.succeed c.key

def after (calls : List ThrottleCall) : Accounts := calls.foldl (call limit lockout) fun _ => none

def lockedAt (now : Time) (record : Option LoginFailures) : Bool :=
  record.any fun record => record.lockedUntil.any fun u => now < u

/-- `lastFailure` is past, and the lock ends `lockout` after it at the latest. -/
def Within (now : Time) (record : LoginFailures) : Prop :=
  record.lastFailure ≤ now ∧ ∀ u, record.lockedUntil = some u → u ≤ record.lastFailure + lockout

/-- Locked from `t` on for `lockout`, whatever fails meanwhile. -/
def Holds (t : Time) (record : Option LoginFailures) : Prop :=
  ∃ last count u, record = some ⟨count, last, some u⟩ ∧ t ≤ last ∧ t + lockout ≤ u

variable {limit lockout}

theorem fail_fresh {accounts : Accounts} {now : Time} {key : String} {record : LoginFailures}
    (h : (accounts key).filter (fresh lockout now) = some record) :
    accounts.fail limit lockout now key = Function.update accounts key (some (failOn limit lockout now record)) := by
  unfold fail
  split
  · next r hr =>
    obtain rfl : r = record := Option.some.inj (hr.symm.trans h)
    rfl
  · next hr => exact absurd (hr.symm.trans h) (by simp)

theorem fail_new {accounts : Accounts} {now : Time} {key : String}
    (h : (accounts key).filter (fresh lockout now) = none) :
    accounts.fail limit lockout now key =
      Function.update (accounts.evictStale lockout now) key (some (failOn limit lockout now ⟨0, now, none⟩)) := by
  unfold fail
  split
  · next r hr => exact absurd (hr.symm.trans h) (by simp)
  · rfl

theorem follows_call : Follows (stale lockout) (keep limit lockout) (call limit lockout) where
  own accounts c := by
    obtain ⟨now, key, op⟩ := c
    cases op with
    | locked => rfl
    | succeed => exact Function.update_self ..
    | fail =>
      cases h : (accounts key).filter (fresh lockout now) with
      | none => simp [call, keep, fail_new h, h]
      | some record => simp [call, keep, fail_fresh h, h]
  other accounts c k hk := by
    obtain ⟨now, key, op⟩ := c
    cases op with
    | locked => exact Or.inl rfl
    | succeed => exact Or.inl (Function.update_of_ne hk ..)
    | fail =>
      cases h : (accounts key).filter (fresh lockout now) with
      | none =>
        refine Or.inr ?_
        simp only [call, fail_new h]
        exact Function.update_of_ne hk ..
      | some record =>
        refine Or.inl ?_
        simp only [call, fail_fresh h]
        exact Function.update_of_ne hk ..

theorem stale_iff {now : Time} {record : LoginFailures} : stale lockout now record = true ↔
    record.lastFailure + lockout < now ∧ ∀ u, record.lockedUntil = some u → u < now := by
  unfold stale
  rw [Bool.and_eq_true, decide_eq_true_eq]
  refine and_congr ⟨fun h => by linarith, fun h => by linarith⟩ ?_
  cases record.lockedUntil <;> simp

theorem fresh_iff {now : Time} {record : LoginFailures} :
    fresh lockout now record = true ↔ now ≤ record.lastFailure + lockout := by
  unfold fresh
  rw [decide_eq_true_eq]
  exact ⟨fun h => by linarith, fun h => by linarith⟩

theorem stale_not_fresh {now : Time} {record : LoginFailures} (h : stale lockout now record = true) :
    fresh lockout now record = false := by
  rw [Bool.eq_false_iff, ne_eq, fresh_iff, not_le]
  exact (stale_iff.mp h).1

theorem stale_not_locked {now : Time} {record : LoginFailures} (h : stale lockout now record = true) :
    lockedAt now (some record) = false := by
  have hlock := (stale_iff.mp h).2
  cases hu : record.lockedUntil with
  | none => simp [lockedAt, hu]
  | some u => simp [lockedAt, hu, (hlock u hu).le]

theorem stale_mono {now now' : Time} {record : LoginFailures} (hle : now ≤ now')
    (h : stale lockout now record = true) : stale lockout now' record = true := by
  obtain ⟨hlast, hlock⟩ := stale_iff.mp h
  exact stale_iff.mpr ⟨hlast.trans_le hle, fun u hu => (hlock u hu).trans_le hle⟩

/-- `Fail` replaces a stale record, `Succeed` deletes it, and `Locked` leaves it as it is. -/
theorem expiring : Expiring (stale lockout) (keep limit lockout) where
  mono hle h := stale_mono hle h
  act_expired {t o r} h := by
    cases o with
    | locked => exact Or.inr ⟨rfl, h⟩
    | fail => exact Or.inl (by simp [keep, Option.filter, stale_not_fresh h])
    | succeed => exact Or.inl rfl

theorem lockedAt_forgets {now : Time} {kept stored : Option LoginFailures}
    (h : Forgets (stale lockout) now kept stored) : lockedAt now stored = lockedAt now kept := by
  rcases h with rfl | ⟨rfl, hkept⟩
  · rfl
  · cases kept with
    | none => rfl
    | some record => exact (stale_not_locked hkept).symm

/-! ## One key -/

theorem failOn_within {now : Time} {record : LoginFailures} (h : Within lockout now record) :
    Within lockout now (failOn limit lockout now record) := by
  unfold failOn
  split
  · exact ⟨le_rfl, fun u hu => (Option.some.inj hu).symm.le⟩
  · refine ⟨le_rfl, fun u hu => ?_⟩
    have := h.2 u hu
    have := h.1
    linarith

theorem keep_within {now : Time} {op : ThrottleOp} {record : Option LoginFailures}
    (h : ∀ r, record = some r → Within lockout now r) :
    ∀ r, keep limit lockout now op record = some r → Within lockout now r := by
  intro r hr
  cases op with
  | locked => exact h r hr
  | succeed => cases hr
  | fail =>
    obtain rfl := Option.some.inj hr
    refine failOn_within ?_
    cases hf : record.filter (fresh lockout now) with
    | none => exact ⟨le_rfl, nofun⟩
    | some r => exact h r (Option.filter_eq_some_iff.mp hf).1

theorem failOn_holds {t now : Time} {record : LoginFailures} (hlow : t ≤ now) (h : Holds lockout t (some record)) :
    Holds lockout t (some (failOn limit lockout now record)) := by
  obtain ⟨last, count, u, hrecord, hlast, hu⟩ := h
  obtain rfl := Option.some.inj hrecord
  unfold failOn
  split
  · exact ⟨now, 0, now + lockout, rfl, hlow, by linarith⟩
  · exact ⟨now, count + 1, u, rfl, hlow, hu⟩

/-- Before its lock ends a record is fresh, so a `Fail` keeps it. -/
theorem keep_holds {t now : Time} {op : ThrottleOp} {record : Option LoginFailures} (hlow : t ≤ now)
    (hhigh : now < t + lockout) (hop : op ≠ .succeed) (h : Holds lockout t record) :
    Holds lockout t (keep limit lockout now op record) := by
  cases op with
  | locked => exact h
  | succeed => exact absurd rfl hop
  | fail =>
    obtain ⟨last, count, u, rfl, hlast, hu⟩ := h
    have hfresh : fresh lockout now ⟨count, last, some u⟩ = true := fresh_iff.mpr (by show now ≤ last + lockout; linarith)
    have hkeep : keep limit lockout now .fail (some ⟨count, last, some u⟩) =
        some (failOn limit lockout now ⟨count, last, some u⟩) := by
      simp [keep, Option.filter, hfresh]
    rw [hkeep]
    exact failOn_holds hlow ⟨last, count, u, rfl, hlast, hu⟩

theorem Holds.locked {t now : Time} {record : Option LoginFailures} (h : Holds lockout t record)
    (hhigh : now < t + lockout) : lockedAt now record = true := by
  obtain ⟨last, count, u, rfl, -, hu⟩ := h
  simp only [lockedAt, Option.any_some, decide_eq_true_eq]
  linarith

theorem holds_foldl {t now : Time} (hhigh : now < t + lockout) (calls : List ThrottleCall) :
    (∀ c ∈ calls, t ≤ c.time ∧ c.time ≤ now ∧ c.op ≠ .succeed) → ∀ record, Holds lockout t record →
      Holds lockout t (calls.foldl (fun r c => keep limit lockout c.time c.op r) record) := by
  induction calls with
  | nil => exact fun _ _ h => h
  | cons c calls ih =>
    intro hcalls record h
    obtain ⟨hlow, hle, hop⟩ := hcalls c List.mem_cons_self
    exact ih (fun d hd => hcalls d (List.mem_cons_of_mem _ hd)) _ (keep_holds hlow (hle.trans_lt hhigh) hop h)

/-! ## Any keys -/

theorem after_forgets {calls : List ThrottleCall} (hordered : InOrder calls) {now : Time}
    (hnow : ∀ c ∈ calls, c.time ≤ now) (key : String) :
    Forgets (stale lockout) now (ownRecord (keep limit lockout) key calls) (after limit lockout calls key) :=
  follows_call.forgets expiring key calls hordered now hnow

theorem after_snoc (calls : List ThrottleCall) (c : ThrottleCall) :
    after limit lockout (calls ++ [c]) = call limit lockout (after limit lockout calls) c := by
  unfold after
  rw [List.foldl_append, List.foldl_cons, List.foldl_nil]

theorem after_within {calls : List ThrottleCall} (hordered : InOrder calls) {now : Time}
    (hnow : ∀ c ∈ calls, c.time ≤ now) : ∀ k r, after limit lockout calls k = some r → Within lockout now r :=
  (follows_call : Follows (stale lockout) (keep limit lockout) _).stored
    (fun hle h => ⟨h.1.trans hle, h.2⟩) keep_within calls hordered now hnow

theorem filter_fresh_forgets {now : Time} {kept stored : Option LoginFailures}
    (h : Forgets (stale lockout) now kept stored) :
    stored.filter (fresh lockout now) = kept.filter (fresh lockout now) := by
  rcases h with rfl | ⟨rfl, hkept⟩
  · rfl
  · cases kept with
    | none => rfl
    | some record => simp [Option.filter, stale_not_fresh hkept]

theorem counted_eq (accounts : Accounts) (now : Time) (key : String) :
    accounts.counted lockout now key =
      (((accounts key).filter (fresh lockout now)).getD ⟨0, now, none⟩).count := by
  unfold counted
  cases h : (accounts key).filter (fresh lockout now) with
  | none =>
    split
    · next r hr => exact absurd (hr.symm.trans h) (by simp)
    · rfl
  | some record =>
    split
    · next r hr => exact congrArg LoginFailures.count (Option.some.inj (hr.symm.trans h))
    · next hr => exact absurd (hr.symm.trans h) (by simp)

theorem keep_fail_holds {now : Time} {record : Option LoginFailures}
    (hlimit : limit ≤ ((record.filter (fresh lockout now)).getD ⟨0, now, none⟩).count + 1) :
    Holds lockout now (keep limit lockout now .fail record) := by
  refine ⟨now, 0, now + lockout, ?_, le_rfl, le_rfl⟩
  simp only [keep, failOn]
  rw [if_pos hlimit]

/-- The lock a `Fail` sets lasts until `lockout` later or the key's next `Succeed`. -/
theorem ownRecord_holds {before between : List ThrottleCall} {t now : Time} {key : String}
    (hlimit : limit ≤ ((((ownRecord (keep limit lockout) key before).filter (fresh lockout t)).getD ⟨0, t, none⟩).count + 1))
    (hbetween : ∀ c ∈ between, t ≤ c.time ∧ c.time ≤ now ∧ ¬(c.key = key ∧ c.op = .succeed)) (hnow : now < t + lockout) :
    Holds lockout t (ownRecord (keep limit lockout) key (before ++ ⟨t, key, .fail⟩ :: between)) := by
  unfold ownRecord
  rw [List.filter_append, List.foldl_append, List.filter_cons_of_pos (by simp), List.foldl_cons]
  refine holds_foldl hnow _ (fun c hc => ?_) _ (keep_fail_holds hlimit)
  obtain ⟨hc, hkey⟩ := List.mem_filter.mp hc
  obtain ⟨hlow, hhigh, hop⟩ := hbetween c hc
  exact ⟨hlow, hhigh, fun h => hop ⟨of_decide_eq_true hkey, h⟩⟩

theorem evictStale_recent {accounts : Accounts} {now : Time} {k : String} {record : LoginFailures}
    (hwithin : ∀ k r, accounts k = some r → Within lockout now r)
    (h : accounts.evictStale lockout now k = some record) : now - lockout ≤ record.lastFailure := by
  obtain ⟨hk, hstale⟩ := Option.filter_eq_some_iff.mp h
  by_contra hlast
  have hold : record.lastFailure + lockout < now := by linarith
  refine absurd (stale_iff.mpr ⟨hold, fun u hu => ?_⟩) (by simpa using hstale)
  exact ((hwithin k record hk).2 u hu).trans_lt hold

end Accounts

open Accounts

/-- What a `LoginThrottle` drops changes no answer, a lock it sets lasts, and a
`Fail` that inserts leaves no old failure behind. -/
theorem throttle_as_alone (limit : Nat) (lockout : Time) (hlockout : 0 < lockout) :
    (∀ (before : List ThrottleCall) (now : Time) (key : String), InOrder (before ++ [⟨now, key, .locked⟩]) →
      (after limit lockout before).locked now key = lockedAt now (ownRecord (keep limit lockout) key before)) ∧
    (∀ (before between : List ThrottleCall) (t now : Time) (key : String),
      InOrder (before ++ ⟨t, key, .fail⟩ :: between ++ [⟨now, key, .locked⟩]) →
      limit ≤ (after limit lockout before).counted lockout t key + 1 →
      (∀ c ∈ between, ¬(c.key = key ∧ c.op = .succeed)) → now < t + lockout →
      (after limit lockout (before ++ ⟨t, key, .fail⟩ :: between)).locked now key = true) ∧
    (∀ (before : List ThrottleCall) (t : Time) (key : String), InOrder (before ++ [⟨t, key, .fail⟩]) →
      (after limit lockout before key).filter (fresh lockout t) = none →
      ∀ k record, after limit lockout (before ++ [⟨t, key, .fail⟩]) k = some record →
        t - lockout ≤ record.lastFailure) := by
  refine ⟨fun before now key hordered => ?_, fun before between t now key hordered hlimit hop hnow => ?_,
    fun before t key hordered hnew k record hrecord => ?_⟩
  · obtain ⟨hbefore, -, hlast⟩ := List.pairwise_append.mp hordered
    exact lockedAt_forgets (after_forgets hbefore (fun c hc => hlast c hc _ (List.mem_singleton_self _)) key)
  · obtain ⟨hcalls, -, hlast⟩ := List.pairwise_append.mp hordered
    have hpast := fun c hc => hlast c hc _ (List.mem_singleton_self _)
    obtain ⟨hbefore, hrest, hle⟩ := List.pairwise_append.mp hcalls
    have hkept : Forgets (stale lockout) t (ownRecord (keep limit lockout) key before) (after limit lockout before key) :=
      after_forgets hbefore (fun c hc => hle c hc _ List.mem_cons_self) key
    rw [counted_eq, filter_fresh_forgets hkept] at hlimit
    have hholds : Holds lockout t (ownRecord (keep limit lockout) key (before ++ ⟨t, key, .fail⟩ :: between)) := by
      refine ownRecord_holds hlimit (fun c hc => ⟨List.rel_of_pairwise_cons hrest hc, ?_, hop c hc⟩) hnow
      exact hpast c (by simp [hc])
    exact (lockedAt_forgets (after_forgets hcalls hpast key)).trans (hholds.locked hnow)
  · obtain ⟨hbefore, -, hlast⟩ := List.pairwise_append.mp hordered
    have hpast := fun c hc => hlast c hc _ (List.mem_singleton_self _)
    have hwithin : ∀ k r, after limit lockout before k = some r → Within lockout t r := after_within hbefore hpast
    have hrun : after limit lockout (before ++ [⟨t, key, .fail⟩]) = (after limit lockout before).fail limit lockout t key :=
      after_snoc ..
    rw [hrun, fail_new hnew] at hrecord
    by_cases hk : k = key
    · subst hk
      rw [Function.update_self] at hrecord
      obtain rfl := Option.some.inj hrecord
      rw [failOn_lastFailure]
      linarith
    · rw [Function.update_of_ne hk] at hrecord
      exact evictStale_recent hwithin hrecord

/-- `a` is locked from 10 to 20, fails again at 15, and is dropped when `b` fails at 26. -/
def sampleFailures : List ThrottleCall := [⟨0, "a", .fail⟩, ⟨10, "a", .fail⟩, ⟨15, "a", .fail⟩]

theorem throttle_as_alone_sample :
    (after 2 10 sampleFailures).locked 19 "a" = true ∧
      (after 2 10 (sampleFailures ++ [⟨26, "b", .fail⟩])).locked 26 "a" =
        lockedAt 26 (ownRecord (keep 2 10) "a" (sampleFailures ++ [⟨26, "b", .fail⟩])) ∧
      ∀ k record, after 2 10 (sampleFailures ++ [⟨26, "b", .fail⟩]) k = some record → 26 - 10 ≤ record.lastFailure := by
  obtain ⟨hanswers, hlasts, hrecent⟩ := throttle_as_alone 2 10 (by decide)
  exact ⟨hlasts [⟨0, "a", .fail⟩] [⟨15, "a", .fail⟩] 10 19 "a" (by decide) (by decide) (by decide) (by decide),
    hanswers _ 26 "a" (by decide), hrecent sampleFailures 26 "b" (by decide) (by decide)⟩

end Mototeca
