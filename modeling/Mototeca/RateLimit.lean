import Mathlib.Data.Rat.Floor
import Mathlib.Tactic.Positivity
import Mototeca.TokenBucket
import Mototeca.Tokens

/-!
# The rate limiter

`internal/server/ratelimit.go`, with its `float64`s as exact rationals and every
duration within the range of `time.Duration`.
-/

namespace Mototeca

structure Bucket where
  tokens : ℚ
  lastSeen : Time

structure RateLimiter where
  buckets : String → Option Bucket
  rate : ℚ
  burst : ℚ

def newRateLimiter (ratePerSecond burst : ℚ) : RateLimiter := ⟨fun _ => none, ratePerSecond, burst⟩

/-- `d.Seconds()`. -/
def seconds (d : Time) : ℚ := d / 1000000000

/-- `time.Duration(q)`. -/
def duration (q : ℚ) : Time := q.num.tdiv q.den

namespace RateLimiter

def idleUntilFull (l : RateLimiter) : Time := duration (l.burst / l.rate * 1000000000) + 60 * second

def evictStaleLocked (l : RateLimiter) (now : Time) : RateLimiter :=
  { l with buckets := fun key => (l.buckets key).filter fun b => !(now - b.lastSeen > l.idleUntilFull) }

def put (l : RateLimiter) (key : String) (b : Bucket) : RateLimiter :=
  { l with buckets := fun k => if k = key then some b else l.buckets k }

/-- What `Allow` does with the bucket it found or made. -/
def take (l : RateLimiter) (now : Time) (key : String) (b : Bucket) : RateLimiter × Bool :=
  let tokens := TokenBucket.refill l.rate l.burst b.tokens (seconds (now - b.lastSeen))
  if tokens < 1 then (l.put key ⟨tokens, now⟩, false) else (l.put key ⟨tokens - 1, now⟩, true)

def allow (l : RateLimiter) (now : Time) (key : String) : RateLimiter × Bool :=
  match l.buckets key with
  | none => (l.evictStaleLocked now).take now key ⟨l.burst, now⟩
  | some b => l.take now key b

/-- A limiter and the calls it admitted, in order. -/
structure Served where
  limiter : RateLimiter
  admitted : List (Time × String)

namespace Served

def call (s : Served) (c : Time × String) : Served where
  limiter := (s.limiter.allow c.1 c.2).1
  admitted := if (s.limiter.allow c.1 c.2).2 then s.admitted ++ [c] else s.admitted

/-- The calls of `key` that were admitted. -/
def callsOf (s : Served) (key : String) : List (Time × String) := s.admitted.filter (·.2 == key)

/-- How many calls of `key` were admitted in `[t, now]`. -/
def admittedIn (s : Served) (key : String) (t now : Time) : Nat :=
  (s.callsOf key).countP fun c => t ≤ c.1 && c.1 ≤ now

/-- The times `key` was admitted at, in seconds, the latest first. -/
def times (s : Served) (key : String) : List ℚ := ((s.callsOf key).map fun c => seconds c.1).reverse

end Served

def serve (rate burst : ℚ) (calls : List (Time × String)) : Served :=
  calls.foldl Served.call ⟨newRateLimiter rate burst, []⟩

abbrev Ordered (calls : List (Time × String)) : Prop := calls.Pairwise (·.1 ≤ ·.1)

section
variable {rate burst : ℚ}

@[simp] theorem serve_nil : serve rate burst [] = ⟨newRateLimiter rate burst, []⟩ := rfl

@[simp] theorem serve_snoc (calls : List (Time × String)) (c : Time × String) :
    serve rate burst (calls ++ [c]) = (serve rate burst calls).call c := by
  simp [serve, List.foldl_append]

theorem seconds_le {t u : Time} : seconds t ≤ seconds u ↔ t ≤ u := by
  unfold seconds
  rw [div_le_div_iff_of_pos_right (by norm_num)]
  exact Int.cast_le

theorem seconds_sub (t u : Time) : seconds (t - u) = seconds t - seconds u := by
  unfold seconds
  rw [Int.cast_sub, sub_div]

theorem lt_duration_add_one {q : ℚ} (hq : 0 ≤ q) : q < duration q + 1 := by
  have h : duration q = ⌊q⌋ := by
    rw [duration, Int.tdiv_eq_ediv_of_nonneg (Rat.num_nonneg.mpr hq), Rat.floor_def']
  rw [h]
  exact Int.lt_floor_add_one q

/-- A bucket is only dropped once it has had time to refill. -/
theorem idle_long_enough (l : RateLimiter) (hrate : 0 < l.rate) (hburst : 1 ≤ l.burst) {d : Time}
    (hd : l.idleUntilFull < d) : l.burst ≤ seconds d * l.rate := by
  have hq : 0 ≤ l.burst / l.rate * 1000000000 := by positivity
  have hlt := lt_duration_add_one hq
  have hle : duration (l.burst / l.rate * 1000000000) + 1 ≤ d :=
    Int.add_one_le_of_lt (lt_of_le_of_lt (le_add_of_nonneg_right (by decide)) hd)
  have hcast : ((duration (l.burst / l.rate * 1000000000) : Time) : ℚ) + 1 ≤ d := by exact_mod_cast hle
  have hsec : l.burst / l.rate ≤ seconds d := by
    unfold seconds
    rw [le_div_iff₀ (by norm_num)]
    linarith
  rwa [div_le_iff₀ hrate] at hsec

end

namespace Served

structure Sound (rate burst : ℚ) (s : Served) (now : Time) : Prop where
  limits : s.limiter.rate = rate ∧ s.limiter.burst = burst
  sorted : ∀ key, (s.times key).Pairwise (· ≥ ·)
  past : ∀ key, ∀ t ∈ s.times key, t ≤ seconds now
  found : ∀ key b, s.limiter.buckets key = some b →
    b.lastSeen ≤ now ∧ TokenBucket.Tracks rate burst (s.times key) b.tokens (seconds b.lastSeen)
  missing : ∀ key, s.limiter.buckets key = none → TokenBucket.Full rate burst (s.times key) (seconds now)

variable {rate burst : ℚ}

theorem times_snoc (l : RateLimiter) (admitted : List (Time × String)) (now : Time) (key k : String) :
    times ⟨l, admitted ++ [(now, key)]⟩ k =
      if k = key then seconds now :: times ⟨l, admitted⟩ k else times ⟨l, admitted⟩ k := by
  by_cases hk : k = key
  · subst hk
    simp [times, callsOf, List.filter_append]
  · have hne : key ≠ k := fun h => hk h.symm
    simp [times, callsOf, List.filter_append, hk, hne]

theorem Sound.init (now : Time) : (serve rate burst []).Sound rate burst now where
  limits := ⟨rfl, rfl⟩
  sorted _ := List.Pairwise.nil
  past _ _ h := nomatch h
  found _ _ h := nomatch h
  missing _ _ := TokenBucket.full_nil _

theorem Sound.advance {s : Served} {now now' : Time} (h : s.Sound rate burst now) (hle : now ≤ now') :
    s.Sound rate burst now' where
  limits := h.limits
  sorted := h.sorted
  past key t ht := (h.past key t ht).trans (seconds_le.mpr hle)
  found key b hb := ⟨(h.found key b hb).1.trans hle, (h.found key b hb).2⟩
  missing key hb := (h.missing key hb).mono (seconds_le.mpr hle)

/-- Eviction forgets nothing. -/
theorem Sound.evict {s : Served} {now : Time} (h : s.Sound rate burst now) (hrate : 0 < rate) (hburst : 1 ≤ burst) :
    (⟨s.limiter.evictStaleLocked now, s.admitted⟩ : Served).Sound rate burst now where
  limits := h.limits
  sorted := h.sorted
  past := h.past
  found key b hb := h.found key b (Option.filter_eq_some_iff.mp hb).1
  missing key hb := by
    cases hkey : s.limiter.buckets key with
    | none => exact h.missing key hkey
    | some b =>
      obtain ⟨hseen, htracks⟩ := h.found key b hkey
      have hidle : s.limiter.idleUntilFull < now - b.lastSeen := by
        have hgone : ¬ now - b.lastSeen ≤ s.limiter.idleUntilFull := by
          intro hle
          simp [evictStaleLocked, hkey, Option.filter_some, not_lt.mpr hle] at hb
        exact not_le.mp hgone
      have hfull := idle_long_enough s.limiter (by rwa [h.limits.1]) (by rwa [h.limits.2]) hidle
      rw [h.limits.1, h.limits.2, seconds_sub] at hfull
      exact htracks.full hrate.le (seconds_le.mpr hseen) hfull

/-- What `take` leaves of a state, and the call if it is admitted. -/
def taken (s : Served) (now : Time) (key : String) (b : Bucket) : Served :=
  ⟨(s.limiter.take now key b).1, if (s.limiter.take now key b).2 then s.admitted ++ [(now, key)] else s.admitted⟩

theorem Sound.put {s : Served} {now : Time} (h : s.Sound rate burst now) {key : String} {b : Bucket}
    {admitted : List (Time × String)} (hother : ∀ k, k ≠ key → times ⟨s.limiter, admitted⟩ k = s.times k)
    (hsorted : (times ⟨s.limiter, admitted⟩ key).Pairwise (· ≥ ·))
    (hpast : ∀ t ∈ times ⟨s.limiter, admitted⟩ key, t ≤ seconds now) (hseen : b.lastSeen = now)
    (htracks : TokenBucket.Tracks rate burst (times ⟨s.limiter, admitted⟩ key) b.tokens (seconds now)) :
    (⟨s.limiter.put key b, admitted⟩ : Served).Sound rate burst now where
  limits := h.limits
  sorted k := by
    by_cases hk : k = key
    · exact hk ▸ hsorted
    · have hsame := hother k hk
      exact hsame ▸ h.sorted k
  past k := by
    by_cases hk : k = key
    · exact hk ▸ hpast
    · have hsame := hother k hk
      exact hsame ▸ h.past k
  found k c hc := by
    by_cases hk : k = key
    · subst hk
      simp only [RateLimiter.put, if_true, Option.some.injEq] at hc
      subst hc
      exact ⟨hseen.le, hseen.symm ▸ htracks⟩
    · simp only [RateLimiter.put, if_neg hk] at hc
      have hsame := hother k hk
      exact hsame ▸ h.found k c hc
  missing k hc := by
    by_cases hk : k = key
    · simp [RateLimiter.put, hk] at hc
    · simp only [RateLimiter.put, if_neg hk] at hc
      have hsame := hother k hk
      exact hsame ▸ h.missing k hc

theorem Sound.taken {s : Served} {now : Time} (h : s.Sound rate burst now) (hrate : 0 < rate) (hburst : 1 ≤ burst)
    {key : String} {b : Bucket} (hseen : b.lastSeen ≤ now)
    (htracks : TokenBucket.Tracks rate burst (s.times key) b.tokens (seconds b.lastSeen)) :
    (s.taken now key b).Sound rate burst now ∧
      ((s.limiter.take now key b).2 = true ↔ 1 ≤ TokenBucket.level rate burst (s.times key) (seconds now)) := by
  have hle : seconds b.lastSeen ≤ seconds now := seconds_le.mpr hseen
  have hlevel := htracks.level (seconds now) hle
  have hother : ∀ k, k ≠ key → times ⟨s.limiter, s.admitted ++ [(now, key)]⟩ k = s.times k := fun k hk => by
    rw [times_snoc, if_neg hk]
  have hself : times ⟨s.limiter, s.admitted ++ [(now, key)]⟩ key = seconds now :: s.times key := by
    rw [times_snoc, if_pos rfl]
  unfold Served.taken RateLimiter.take
  rw [h.limits.1, h.limits.2, seconds_sub]
  by_cases hone : TokenBucket.refill rate burst b.tokens (seconds now - seconds b.lastSeen) < 1
  · simp only [if_pos hone, Bool.false_eq_true, if_false, false_iff, not_le]
    refine ⟨h.put (fun _ _ => rfl) (h.sorted key) (h.past key) rfl ?_, hlevel ▸ hone⟩
    exact htracks.refused hrate.le (zero_le_one.trans hburst) hle
  · have hone' := not_lt.mp hone
    simp only [if_neg hone, if_true, true_iff]
    refine ⟨h.put hother ?_ ?_ rfl ?_, hlevel ▸ hone'⟩
    · rw [hself]
      exact List.pairwise_cons.mpr ⟨h.past key, h.sorted key⟩
    · rw [hself]
      intro t ht
      rcases List.mem_cons.mp ht with rfl | ht
      · exact le_rfl
      · exact h.past key t ht
    · rw [hself]
      exact htracks.admitted hle hone'

/-- A call is admitted when the bucket its caller's calls leave holds a token. -/
theorem Sound.call {s : Served} {now : Time} (h : s.Sound rate burst now) (hrate : 0 < rate) (hburst : 1 ≤ burst)
    (key : String) :
    (s.call (now, key)).Sound rate burst now ∧
      ((s.limiter.allow now key).2 = true ↔ 1 ≤ TokenBucket.level rate burst (s.times key) (seconds now)) := by
  unfold Served.call RateLimiter.allow
  cases hb : s.limiter.buckets key with
  | some b => exact h.taken hrate hburst (h.found key b hb).1 (h.found key b hb).2
  | none =>
    have hfresh : TokenBucket.Tracks rate burst (s.times key) s.limiter.burst (seconds now) := by
      rw [h.limits.2]
      exact .fresh hrate.le (zero_le_one.trans hburst) (h.missing key hb)
    exact (h.evict hrate hburst).taken hrate hburst (b := ⟨s.limiter.burst, now⟩) le_rfl hfresh

theorem Sound.serve (hrate : 0 < rate) (hburst : 1 ≤ burst) (calls : List (Time × String)) :
    Ordered calls → ∀ now, (∀ c ∈ calls, c.1 ≤ now) → (serve rate burst calls).Sound rate burst now := by
  induction calls using List.reverseRecOn with
  | nil => exact fun _ now _ => Sound.init now
  | append_singleton calls c ih =>
    intro hordered now hnow
    obtain ⟨hcalls, -, hc⟩ := List.pairwise_append.mp hordered
    have hbefore := ih hcalls c.1 fun d hd => hc d hd c (List.mem_singleton_self c)
    rw [serve_snoc]
    exact (hbefore.call hrate hburst c.2).1.advance (hnow c (by simp))

theorem Sound.level_iff {s : Served} {now : Time} (h : s.Sound rate burst now) (hburst : 1 ≤ burst) (key : String) :
    1 ≤ TokenBucket.level rate burst (s.times key) (seconds now) ↔
      ∀ c ∈ s.callsOf key, (s.admittedIn key c.1 now : ℚ) + 1 ≤ burst + rate * seconds (now - c.1) := by
  have hpast : ∀ c ∈ s.callsOf key, c.1 ≤ now := fun c hc =>
    seconds_le.mp (h.past key _ (List.mem_reverse.mpr (List.mem_map_of_mem hc)))
  have hcount : ∀ c ∈ s.callsOf key,
      (s.times key).countP (fun x => seconds c.1 ≤ x) = s.admittedIn key c.1 now := fun c _ => by
    unfold times admittedIn
    rw [List.countP_reverse, List.countP_map]
    refine List.countP_congr fun d hd => ?_
    simp [seconds_le, hpast d hd]
  rw [TokenBucket.le_level_iff (h.sorted key) (h.past key)]
  refine ⟨fun hall c hc => ?_, fun hall => ⟨hburst, fun t ht => ?_⟩⟩
  · rw [← hcount c hc, seconds_sub]
    exact hall.2 _ (List.mem_reverse.mpr (List.mem_map_of_mem hc))
  · obtain ⟨c, hc, rfl⟩ := List.mem_map.mp (List.mem_reverse.mp ht)
    rw [hcount c hc, ← seconds_sub]
    exact hall c hc

theorem Sound.allow_congr {s s' : Served} {now : Time} (h : s.Sound rate burst now) (h' : s'.Sound rate burst now)
    (hrate : 0 < rate) (hburst : 1 ≤ burst) {key : String} (hsame : s.callsOf key = s'.callsOf key) :
    (s.limiter.allow now key).2 = (s'.limiter.allow now key).2 := by
  rw [Bool.eq_iff_iff, (h.call hrate hburst key).2, (h'.call hrate hburst key).2]
  unfold times
  rw [hsame]

theorem callsOf_call (s : Served) (c : Time × String) (key : String) :
    (s.call c).callsOf key =
      if c.2 = key ∧ (s.limiter.allow c.1 c.2).2 = true then s.callsOf key ++ [c] else s.callsOf key := by
  unfold Served.call callsOf
  by_cases hallow : (s.limiter.allow c.1 c.2).2 = true
  · simp only [hallow, if_true, and_true, List.filter_append]
    by_cases hkey : c.2 = key <;> simp [hkey]
  · simp [hallow]

theorem callsOf_sublist (rate burst : ℚ) (key : String) (calls : List (Time × String)) :
    ((serve rate burst calls).callsOf key).Sublist calls := by
  induction calls using List.reverseRecOn with
  | nil => exact List.nil_sublist _
  | append_singleton calls c ih =>
    rw [serve_snoc, callsOf_call]
    split
    · exact ih.append (List.Sublist.refl [c])
    · exact ih.trans (List.sublist_append_left calls [c])

/-- The admitted calls of one key are all admitted when they are served alone. -/
theorem callsOf_alone (hrate : 0 < rate) (hburst : 1 ≤ burst) (key : String) (calls : List (Time × String)) :
    Ordered calls →
      (serve rate burst ((serve rate burst calls).callsOf key)).callsOf key = (serve rate burst calls).callsOf key := by
  induction calls using List.reverseRecOn with
  | nil => exact fun _ => rfl
  | append_singleton calls c ih =>
    intro hordered
    obtain ⟨hcalls, -, hc⟩ := List.pairwise_append.mp hordered
    have hpast : ∀ d ∈ calls, d.1 ≤ c.1 := fun d hd => hc d hd c (List.mem_singleton_self c)
    have hsub := callsOf_sublist rate burst key calls
    have hsound := Sound.serve hrate hburst calls hcalls c.1 hpast
    have halone := Sound.serve hrate hburst _ (hcalls.sublist hsub) c.1 fun d hd => hpast d (hsub.subset hd)
    have hsame := ih hcalls
    rw [serve_snoc, callsOf_call]
    by_cases hin : c.2 = key ∧ ((serve rate burst calls).limiter.allow c.1 c.2).2 = true
    · obtain ⟨rfl, hallow⟩ := hin
      have hallow' := (halone.allow_congr hsound hrate hburst hsame).trans hallow
      rw [if_pos ⟨rfl, hallow⟩, serve_snoc, callsOf_call, if_pos ⟨rfl, hallow'⟩, hsame]
    · rw [if_neg hin]
      exact hsame

end Served

/-- Neither the calls that were refused, nor those of others, nor the buckets dropped change the answer. -/
theorem allow_iff (rate burst : ℚ) (hrate : 0 < rate) (hburst : 1 ≤ burst) (calls : List (Time × String))
    (now : Time) (key : String) (hordered : Ordered (calls ++ [(now, key)])) :
    let s := serve rate burst calls
    ((s.limiter.allow now key).2 = true ↔
        ∀ c ∈ s.callsOf key, (s.admittedIn key c.1 now : ℚ) + 1 ≤ burst + rate * seconds (now - c.1)) ∧
      ((serve rate burst (s.callsOf key)).limiter.allow now key).2 = (s.limiter.allow now key).2 := by
  intro s
  obtain ⟨hcalls, -, hnow⟩ := List.pairwise_append.mp hordered
  have hpast : ∀ c ∈ calls, c.1 ≤ now := fun c hc => hnow c hc (now, key) (List.mem_singleton_self _)
  have hsub := Served.callsOf_sublist rate burst key calls
  have hsound := Served.Sound.serve hrate hburst calls hcalls now hpast
  have halone := Served.Sound.serve hrate hburst _ (hcalls.sublist hsub) now fun c hc => hpast c (hsub.subset hc)
  constructor
  · rw [(hsound.call hrate hburst key).2]
    exact hsound.level_iff hburst key
  · exact halone.allow_congr hsound hrate hburst (Served.callsOf_alone hrate hburst key calls hcalls)

def twoCallers : List (Time × String) := [(0, "a"), (0, "b"), (0, "a"), (second, "a")]

theorem twoCallers_ordered : Ordered (twoCallers ++ [(second, "a")]) := by decide

theorem twoCallers_allow :
    let s := serve 1 1 twoCallers
    ((s.limiter.allow second "a").2 = true ↔
        ∀ c ∈ s.callsOf "a", (s.admittedIn "a" c.1 second : ℚ) + 1 ≤ 1 + 1 * seconds (second - c.1)) ∧
      ((serve 1 1 (s.callsOf "a")).limiter.allow second "a").2 = (s.limiter.allow second "a").2 :=
  allow_iff 1 1 (by norm_num) le_rfl twoCallers second "a" twoCallers_ordered

end RateLimiter

end Mototeca
