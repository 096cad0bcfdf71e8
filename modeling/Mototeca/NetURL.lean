import Mathlib.Data.List.Basic
import Mathlib.Data.List.TakeWhile
import Mototeca.GoText

/-!
# URLs and slash-separated paths as Go reads them

`path.Join` and the `Path` of `url.Parse`. What comes before the first `?` or
`#` decides the path. An escape in it shortens the text, and an authority is
all that can stand between a scheme and the path.
-/

namespace Mototeca

/-! ## `path.Clean` -/

/-- One element of a path, onto those before it, the last first. -/
def cleanStep (rooted : Bool) (above : List Bytes) (element : Bytes) : List Bytes :=
  if element = [] ∨ element = [46] then above
  else if element = [46, 46] then
    match above with
    | [] => if rooted then [] else [[46, 46]]
    | last :: rest => if last = [46, 46] then [46, 46] :: above else rest
  else element :: above

def cleanElements (p : Bytes) : List Bytes :=
  ((p.splitOn 47).foldl (cleanStep (p.head? == some 47)) []).reverse

def clean (p : Bytes) : Bytes :=
  if p.head? = some 47 then 47 :: [47].intercalate (cleanElements p)
  else if cleanElements p = [] then [46]
  else [47].intercalate (cleanElements p)

/-- `path.Join`. -/
def joinPath (elements : List Bytes) : Bytes :=
  match elements.filter (· ≠ []) with
  | [] => []
  | elements => clean ([47].intercalate elements)

/-! ## `url.Parse` -/

def hasControl (s : Bytes) : Bool := s.any fun b => b < 32 || b == 127

def unhex (b : UInt8) : UInt8 := if b ≤ 57 then b - 48 else if b ≤ 70 then b - 55 else b - 87

def unescape : Bytes → Option Bytes
  | [] => some []
  | 37 :: a :: b :: rest =>
    if isHex a && isHex b then (unescape rest).map ((unhex a * 16 + unhex b) :: ·) else none
  | c :: rest => if c = 37 then none else (unescape rest).map (c :: ·)

def isLetter (b : UInt8) : Bool := (65 ≤ b && b ≤ 90) || (97 ≤ b && b ≤ 122)

/-- The bytes a scheme may have after its first letter. -/
def isSchemeByte (b : UInt8) : Bool := isLetter b || (48 ≤ b && b ≤ 57) || b == 43 || b == 45 || b == 46

/-- The scheme, empty if there is none, and the rest; `none` when a `:` comes first. -/
def getScheme (raw : Bytes) : Option (Bytes × Bytes) :=
  match raw.dropWhile isSchemeByte with
  | 58 :: rest =>
    match raw.takeWhile isSchemeByte with
    | [] => none
    | c :: scheme => if isLetter c then some (c :: scheme, rest) else some ([], raw)
  | _ => some ([], raw)

/-- What follows the scheme, up to its path. `acceptsAuthority` is what parses as `[userinfo@]host[:port]`. -/
def pathAfter (acceptsAuthority : Bytes → Bool) (scheme rest : Bytes) : Option Bytes :=
  if rest.head? ≠ some 47 then
    if scheme ≠ [] then some [] -- no path at all
    else if (rest.takeWhile (· != 47)).contains 58 then none
    else unescape rest
  else if [47, 47] <+: rest ∧ (scheme ≠ [] ∨ ¬ [47, 47, 47] <+: rest) then
    if acceptsAuthority ((rest.drop 2).takeWhile (· != 47)) then unescape ((rest.drop 2).dropWhile (· != 47))
    else none
  else unescape rest

/-- The path of a URL with neither query nor fragment. -/
def hierarchicalPath (acceptsAuthority : Bytes → Bool) (raw : Bytes) : Option Bytes :=
  (getScheme raw).bind fun p => pathAfter acceptsAuthority p.1 p.2

/-- The `Path` of `url.Parse`, `none` on an error. -/
def urlPath (acceptsAuthority : Bytes → Bool) (raw : Bytes) : Option Bytes :=
  if hasControl (raw.takeWhile (· != 35)) then none
  else if (unescape ((raw.dropWhile (· != 35)).drop 1)).isNone then none
  else hierarchicalPath acceptsAuthority (raw.takeWhile fun b => b != 35 && b != 63)

/-! ## Escapes -/

/-- The second text is what the first unescapes to. -/
inductive Unescapes : Bytes → Bytes → Prop
  | nil : Unescapes [] []
  | plain {c : UInt8} {s r : Bytes} (hc : c ≠ 37) (h : Unescapes s r) : Unescapes (c :: s) (c :: r)
  | escape {a b : UInt8} {s r : Bytes} (ha : isHex a = true) (hb : isHex b = true) (h : Unescapes s r) :
    Unescapes (37 :: a :: b :: s) ((unhex a * 16 + unhex b) :: r)

theorem unescape_plain_cons {c : UInt8} (hc : c ≠ 37) (s : Bytes) :
    unescape (c :: s) = (unescape s).map (c :: ·) := by
  rw [unescape.eq_def]
  split
  · next h => cases h
  · next h => exact absurd (List.cons.inj h).1 hc
  · next h =>
    obtain ⟨rfl, rfl⟩ := List.cons.inj h
    rw [if_neg hc]

theorem Unescapes.eq {s r : Bytes} (h : Unescapes s r) : unescape s = some r := by
  induction h with
  | nil => rw [unescape]
  | plain hc _ ih => rw [unescape_plain_cons hc, ih]; rfl
  | escape ha hb _ ih => rw [unescape, ha, hb, ih]; rfl

theorem unescapes_iff {s r : Bytes} : unescape s = some r ↔ Unescapes s r := by
  refine ⟨fun h => ?_, Unescapes.eq⟩
  induction s using unescape.induct generalizing r with
  | case1 =>
    rw [unescape] at h
    obtain rfl := Option.some.inj h
    exact .nil
  | case2 a b rest hex ih =>
    rw [unescape, if_pos hex] at h
    obtain ⟨r', hr', rfl⟩ := Option.map_eq_some_iff.mp h
    obtain ⟨ha, hb⟩ := Bool.and_eq_true_iff.mp hex
    exact .escape ha hb (ih hr')
  | case3 a b rest hex =>
    rw [unescape, if_neg hex] at h
    cases h
  | case4 rest h' =>
    rw [unescape.eq_def] at h
    split at h
    · next hs => cases hs
    · next a b rest' hs => exact absurd (List.cons.inj hs).2 (h' a b rest' rfl)
    · next hs =>
      obtain ⟨rfl, rfl⟩ := List.cons.inj hs
      rw [if_pos rfl] at h
      cases h
  | case5 c rest h' hc ih =>
    rw [unescape_plain_cons hc] at h
    obtain ⟨r', hr', rfl⟩ := Option.map_eq_some_iff.mp h
    exact .plain hc (ih hr')

theorem Unescapes.refl {s : Bytes} (h : (37 : UInt8) ∉ s) : Unescapes s s := by
  induction s with
  | nil => exact .nil
  | cons c s ih =>
    simp only [List.mem_cons, not_or] at h
    exact .plain (Ne.symm h.1) (ih h.2)

theorem Unescapes.length_le {s r : Bytes} (h : Unescapes s r) : r.length ≤ s.length := by
  induction h with
  | nil => exact Nat.le_refl _
  | plain _ _ ih => simpa using ih
  | escape _ _ _ ih => simp only [List.length_cons]; omega

theorem Unescapes.no_percent {s r : Bytes} (h : Unescapes s r) (hlen : r.length = s.length) : (37 : UInt8) ∉ s := by
  induction h with
  | nil => simp
  | plain hc _ ih =>
    have := ih (by simpa using hlen)
    simp [Ne.symm hc, this]
  | escape _ _ h _ =>
    have := h.length_le
    simp only [List.length_cons] at hlen
    omega

/-- No escape reaches over a slash. -/
theorem Unescapes.append {s t r : Bytes} (h : Unescapes (s ++ 47 :: t) r) :
    ∃ s' t', Unescapes s s' ∧ Unescapes (47 :: t) t' ∧ r = s' ++ t' := by
  generalize hu : s ++ 47 :: t = u at h
  induction h generalizing s with
  | nil => cases s <;> cases hu
  | @plain c v r' hc h ih =>
    cases s with
    | nil =>
      rw [List.nil_append] at hu
      exact ⟨[], _, .nil, hu ▸ .plain hc h, rfl⟩
    | cons d s =>
      obtain ⟨rfl, hv⟩ := List.cons.inj hu
      obtain ⟨s', t', hs', ht', rfl⟩ := ih hv
      exact ⟨d :: s', t', .plain hc hs', ht', rfl⟩
  | @escape a b v r' ha hb h ih =>
    rcases s with _ | ⟨_, _ | ⟨_, _ | ⟨_, s⟩⟩⟩
    · cases hu
    · simp only [List.cons_append, List.nil_append, List.cons.injEq] at hu
      exact absurd (hu.2.1 ▸ ha) (by decide)
    · simp only [List.cons_append, List.nil_append, List.cons.injEq] at hu
      exact absurd (hu.2.2.1 ▸ hb) (by decide)
    · simp only [List.cons_append, List.cons.injEq] at hu
      obtain ⟨rfl, rfl, rfl, hv⟩ := hu
      obtain ⟨s', t', hs', ht', rfl⟩ := ih hv
      exact ⟨_, t', .escape ha hb hs', ht', rfl⟩

/-- A path that unescapes to a proper suffix of itself would do so for ever. -/
theorem Unescapes.not_suffix : ∀ (n : Nat) (p c y : Bytes), p.length ≤ n → c ≠ [] → p = c ++ 47 :: y →
    ¬ Unescapes p (47 :: y) := by
  intro n
  induction n with
  | zero =>
    rintro p c y hp hc rfl -
    simp at hp
  | succ n ih =>
    rintro p c y hp hc rfl h
    obtain ⟨c', z, hc', hz, hy⟩ := h.append
    have hne : c' ≠ [] := fun he => by
      subst he
      cases hc'
      exact hc rfl
    cases hz with
    | @plain _ _ z _ hz' =>
      refine ih (47 :: y) c' z ?_ hne hy (.plain (by decide) hz')
      have := List.length_pos_iff.mpr hc
      simp only [List.length_append, List.length_cons] at hp ⊢
      omega

/-! ## Schemes -/

theorem takeWhile_append_stop {α : Type} {p : α → Bool} {x : α} (hx : p x = false) (s t : List α) :
    (s ++ x :: t).takeWhile p = s.takeWhile p := by
  induction s with
  | nil => simp [hx]
  | cons c s ih => by_cases hc : p c = true <;> simp [hc, ih]

theorem dropWhile_append_stop {α : Type} {p : α → Bool} {x : α} (hx : p x = false) (s t : List α) :
    (s ++ x :: t).dropWhile p = s.dropWhile p ++ x :: t := by
  induction s with
  | nil => simp [hx]
  | cons c s ih => by_cases hc : p c = true <;> simp [hc, ih]

/-- A slash ends the search for a scheme. -/
theorem getScheme_append (s t : Bytes) :
    getScheme (s ++ 47 :: t) = (getScheme s).map fun p => (p.1, p.2 ++ 47 :: t) := by
  have hslash : isSchemeByte 47 = false := by decide
  unfold getScheme
  rw [takeWhile_append_stop hslash, dropWhile_append_stop hslash]
  rcases s.dropWhile isSchemeByte with _ | ⟨c, rest⟩
  · rfl
  · by_cases hc : c = 58
    · subst hc
      cases s.takeWhile isSchemeByte with
      | nil => rfl
      | cons d scheme =>
        simp only [List.cons_append]
        split <;> rfl
    · simp only [List.cons_append]
      split
      · next h => exact absurd (List.cons.inj h).1 hc
      · split
        · next h => exact absurd (List.cons.inj h).1 hc
        · rfl

theorem getScheme_rest {raw scheme rest : Bytes} (h : getScheme raw = some (scheme, rest)) :
    raw = scheme ++ 58 :: rest ∨ scheme = [] ∧ rest = raw := by
  unfold getScheme at h
  split at h
  · next rest' hdrop =>
    split at h
    · cases h
    · next c scheme' htake =>
      split at h
      · obtain ⟨rfl, rfl⟩ := Prod.mk.inj (Option.some.inj h)
        refine Or.inl ?_
        rw [← htake, ← hdrop, List.takeWhile_append_dropWhile]
      · obtain ⟨rfl, rfl⟩ := Prod.mk.inj (Option.some.inj h)
        exact Or.inr ⟨rfl, rfl⟩
  · obtain ⟨rfl, rfl⟩ := Prod.mk.inj (Option.some.inj h)
    exact Or.inr ⟨rfl, rfl⟩

/-! ## URLs with a path of their own -/

section
variable {acceptsAuthority : Bytes → Bool}

/-- Nothing but a scheme and an authority. -/
def AtRoot (acceptsAuthority : Bytes → Bool) (base : Bytes) : Prop :=
  ∃ scheme rest, getScheme base = some (scheme, rest) ∧
    (rest = [] ∨ ∃ authority, rest = 47 :: 47 :: authority ∧ authority ≠ [] ∧ (47 : UInt8) ∉ authority ∧
      acceptsAuthority authority = true)

theorem unescape_root {t : Bytes} : unescape (47 :: t) = some (47 :: t) ↔ (37 : UInt8) ∉ t := by
  constructor
  · intro h
    have := (unescapes_iff.mp h).no_percent rfl
    simp only [List.mem_cons, not_or] at this
    exact this.2
  · intro h
    refine Unescapes.eq (.refl ?_)
    simpa using h

theorem unescape_longer {c t : Bytes} (hc : c ≠ []) : unescape (c ++ 47 :: t) ≠ some (47 :: t) := fun h =>
  Unescapes.not_suffix _ _ c t (Nat.le_refl _) hc rfl (unescapes_iff.mp h)

theorem pathAfter_rootless {scheme c t : Bytes} (hc : c ≠ []) (hhead : c.head? ≠ some 47) :
    pathAfter acceptsAuthority scheme (c ++ 47 :: t) ≠ some (47 :: t) := by
  have hhead' : (c ++ 47 :: t).head? ≠ some 47 := by
    cases c with
    | nil => exact absurd rfl hc
    | cons => exact hhead
  unfold pathAfter
  rw [if_pos hhead']
  split
  · simp
  · split
    · simp
    · exact unescape_longer hc

theorem takeWhile_slash {a : Bytes} (h : (47 : UInt8) ∉ a) : a.takeWhile (· != 47) = a ∧ a.dropWhile (· != 47) = [] := by
  have hall : ∀ b ∈ a, (b != 47) = true := fun b hb => bne_iff_ne.mpr fun e => h (e ▸ hb)
  exact ⟨List.takeWhile_eq_self_iff.mpr hall, List.dropWhile_eq_nil_iff.mpr hall⟩

theorem pathAfter_authority {scheme a t : Bytes} (ha : a ≠ []) :
    pathAfter acceptsAuthority scheme (47 :: 47 :: a ++ 47 :: t) = some (47 :: t) ↔
      (47 : UInt8) ∉ a ∧ acceptsAuthority a = true ∧ (37 : UInt8) ∉ t := by
  have htake : (a ++ 47 :: t).takeWhile (· != 47) = a.takeWhile (· != 47) := takeWhile_append_stop rfl a t
  have hdrop : (a ++ 47 :: t).dropWhile (· != 47) = a.dropWhile (· != 47) ++ 47 :: t := dropWhile_append_stop rfl a t
  have hhead : ¬ (47 :: 47 :: a ++ 47 :: t).head? ≠ some 47 := by simp
  unfold pathAfter
  rw [if_neg hhead]
  split
  · simp only [List.cons_append, List.drop_succ_cons, List.drop_zero, htake, hdrop]
    by_cases hmem : (47 : UInt8) ∈ a
    · simp only [hmem, not_true_eq_false, false_and, iff_false]
      have hne : a.dropWhile (· != 47) ≠ [] := fun h => by
        simpa using List.dropWhile_eq_nil_iff.mp h 47 hmem
      split
      · exact unescape_longer hne
      · simp
    · obtain ⟨htake', hdrop'⟩ := takeWhile_slash hmem
      rw [htake', hdrop', List.nil_append]
      by_cases hok : acceptsAuthority a = true
      · simp [hmem, hok, unescape_root]
      · simp [hok]
  · next hroot =>
    have hmem : (47 : UInt8) ∈ a := by
      cases a with
      | nil => exact absurd rfl ha
      | cons d a =>
        by_contra hmem
        simp only [List.mem_cons, not_or] at hmem
        refine hroot ⟨by simp, Or.inr ?_⟩
        simp [hmem.1]
    simp only [hmem, not_true_eq_false, false_and, iff_false]
    exact unescape_longer (List.cons_ne_nil _ _)

theorem pathAfter_path {scheme c t : Bytes} {d : UInt8} (hd : d ≠ 47) :
    pathAfter acceptsAuthority scheme (47 :: d :: c ++ 47 :: t) ≠ some (47 :: t) := by
  have hhead : ¬ (47 :: d :: c ++ 47 :: t).head? ≠ some 47 := by simp
  have hslashes : ¬ [47, 47] <+: 47 :: d :: c ++ 47 :: t := by simp [Ne.symm hd]
  unfold pathAfter
  rw [if_neg hhead, if_neg fun h => hslashes h.1]
  exact unescape_longer (List.cons_ne_nil _ _)

theorem pathAfter_root {scheme t : Bytes} (ht : t.head? ≠ some 47) :
    pathAfter acceptsAuthority scheme (47 :: t) = unescape (47 :: t) := by
  have hhead : ¬ (47 :: t).head? ≠ some 47 := by simp
  have hslashes : ¬ [47, 47] <+: 47 :: t := by
    rintro ⟨u, hu⟩
    simp only [List.cons_append, List.nil_append, List.cons.injEq, true_and] at hu
    exact ht (by rw [← hu]; rfl)
  unfold pathAfter
  rw [if_neg hhead, if_neg fun h => hslashes h.1]

/-- The path appended to `base` is the whole path where `base` has none. -/
theorem hierarchicalPath_iff {base t : Bytes} (hbase : base.getLast? ≠ some 47) (ht : t.head? ≠ some 47) :
    hierarchicalPath acceptsAuthority (base ++ 47 :: t) = some (47 :: t) ↔
      AtRoot acceptsAuthority base ∧ (37 : UInt8) ∉ t := by
  unfold hierarchicalPath AtRoot
  rw [getScheme_append]
  cases hscheme : getScheme base with
  | none => simp
  | some p =>
    obtain ⟨scheme, rest⟩ := p
    have hrest : rest ≠ [] → rest.getLast? ≠ some 47 := by
      intro hne
      rcases getScheme_rest hscheme with rfl | ⟨-, rfl⟩
      · cases rest with
        | nil => exact absurd rfl hne
        | cons c rest => simpa [List.getLast?_append] using hbase
      · exact hbase
    have hroot : (∃ s r, some (scheme, rest) = some (s, r) ∧ (r = [] ∨ ∃ authority, r = 47 :: 47 :: authority ∧
        authority ≠ [] ∧ (47 : UInt8) ∉ authority ∧ acceptsAuthority authority = true)) ↔
        rest = [] ∨ ∃ authority, rest = 47 :: 47 :: authority ∧
          authority ≠ [] ∧ (47 : UInt8) ∉ authority ∧ acceptsAuthority authority = true :=
      ⟨fun ⟨_, _, he, h⟩ => by obtain ⟨rfl, rfl⟩ := Prod.mk.inj (Option.some.inj he); exact h, fun h => ⟨_, _, rfl, h⟩⟩
    rw [hroot, Option.map_some, Option.bind_some]
    match rest, hrest with
    | [], _ => simp [pathAfter_root ht, unescape_root]
    | c :: rest, hrest =>
      by_cases hc : c = 47
      · subst hc
        match rest, hrest with
        | [], hrest => exact absurd rfl (hrest (List.cons_ne_nil _ _))
        | d :: rest, hrest =>
          by_cases hd : d = 47
          · subst hd
            have hne : rest ≠ [] := by
              rintro rfl
              exact hrest (List.cons_ne_nil _ _) rfl
            rw [pathAfter_authority hne]
            simp [hne, and_assoc]
          · exact iff_of_false (pathAfter_path hd) (by simp [hd])
      · have hhead : (c :: rest).head? ≠ some 47 := by simpa using hc
        exact iff_of_false (pathAfter_rootless (List.cons_ne_nil _ _) hhead) (by simp [hc])

/-- `s` has neither a query nor a fragment. -/
def Unbroken (s : Bytes) : Prop := (35 : UInt8) ∉ s ∧ (63 : UInt8) ∉ s

theorem urlPath_some {raw path : Bytes} (h : urlPath acceptsAuthority raw = some path) :
    hasControl (raw.takeWhile (· != 35)) = false ∧
      hierarchicalPath acceptsAuthority (raw.takeWhile fun b => b != 35 && b != 63) = some path := by
  unfold urlPath at h
  split at h
  · cases h
  · next hcontrol =>
    split at h
    · cases h
    · exact ⟨by simpa using hcontrol, h⟩

theorem urlPath_unbroken {raw path : Bytes} (hraw : Unbroken raw) :
    urlPath acceptsAuthority raw = some path ↔
      hasControl raw = false ∧ hierarchicalPath acceptsAuthority raw = some path := by
  have hfragment : ∀ b ∈ raw, (b != 35) = true := fun b hb => bne_iff_ne.mpr fun e => hraw.1 (e ▸ hb)
  have hquery : ∀ b ∈ raw, (b != 35 && b != 63) = true := fun b hb =>
    Bool.and_eq_true_iff.mpr ⟨hfragment b hb, bne_iff_ne.mpr fun e => hraw.2 (e ▸ hb)⟩
  unfold urlPath
  rw [List.takeWhile_eq_self_iff.mpr hfragment, List.takeWhile_eq_self_iff.mpr hquery,
    List.dropWhile_eq_nil_iff.mpr hfragment]
  cases hcontrol : hasControl raw with
  | true => simp
  | false => simp [unescape]

/-- Past a query or a fragment, nothing of a URL is in its path. -/
theorem urlPath_broken {head s t path path' : Bytes} (hhead : ¬ Unbroken head)
    (h : urlPath acceptsAuthority (head ++ s) = some path) (h' : urlPath acceptsAuthority (head ++ t) = some path') :
    path = path' := by
  have hsame : ∀ u : Bytes, (head ++ u).takeWhile (fun b => b != 35 && b != 63) =
      head.takeWhile fun b => b != 35 && b != 63 := by
    intro u
    have hbreak : ∃ b ∈ head, (b != 35 && b != 63) = false := by
      by_cases hfragment : (35 : UInt8) ∈ head
      · exact ⟨35, hfragment, by decide⟩
      · by_cases hquery : (63 : UInt8) ∈ head
        · exact ⟨63, hquery, by decide⟩
        · exact absurd ⟨hfragment, hquery⟩ hhead
    obtain ⟨b, hb, hstop⟩ := hbreak
    obtain ⟨x, y, rfl⟩ := List.append_of_mem hb
    rw [List.append_assoc, List.cons_append]
    have hcut := takeWhile_append_stop (p := fun b : UInt8 => b != 35 && b != 63) hstop x
    rw [hcut, hcut]
  have heq := (urlPath_some h).2
  rw [hsame s, ← hsame t, (urlPath_some h').2] at heq
  exact (Option.some.inj heq).symm

end

/-! ## Joining a file to its directory -/

/-- What `path.Join` puts before the name of a file. -/
def dirOf (p : Bytes) : Bytes :=
  (if p.head? = some 47 then [47] else []) ++ (cleanElements p).flatMap fun element => element ++ [47]

/-- An element that `path.Clean` leaves as it is. -/
def IsName (name : Bytes) : Prop := name ≠ [] ∧ name ≠ [46] ∧ name ≠ [46, 46] ∧ (47 : UInt8) ∉ name

theorem intercalate_snoc (l : List Bytes) (name : Bytes) :
    [47].intercalate (l ++ [name]) = (l.flatMap fun element => element ++ [47]) ++ name := by
  induction l with
  | nil => simp
  | cons element l ih =>
    rw [List.cons_append, List.intercalate_cons_of_ne_nil (by simp), ih]
    simp

theorem cleanStep_name {name : Bytes} (h : IsName name) (rooted : Bool) (above : List Bytes) :
    cleanStep rooted above name = name :: above := by
  unfold cleanStep
  rw [if_neg (not_or.mpr ⟨h.1, h.2.1⟩), if_neg h.2.2.1]

theorem cleanElements_name {name : Bytes} (h : IsName name) : cleanElements name = [name] := by
  rw [cleanElements, List.splitOn_eq_singleton h.2.2.2, List.foldl_cons, List.foldl_nil, cleanStep_name h]
  rfl

theorem cleanElements_append {p name : Bytes} (hp : p ≠ []) (h : IsName name) :
    cleanElements (p ++ 47 :: name) = cleanElements p ++ [name] := by
  rw [cleanElements, List.head?_append_of_ne_nil p hp, List.splitOn_append_cons_self, List.splitOn_eq_singleton h.2.2.2, List.foldl_append,
    List.foldl_cons, List.foldl_nil, cleanStep_name h, List.reverse_cons]
  rfl

theorem clean_name {p name : Bytes} (hp : p ≠ []) (h : IsName name) : clean (p ++ 47 :: name) = dirOf p ++ name := by
  unfold clean dirOf
  rw [List.head?_append_of_ne_nil p hp, cleanElements_append hp h, intercalate_snoc]
  split
  · rfl
  · rw [if_neg (by simp)]
    rfl

theorem joinPath_name {p name : Bytes} (h : IsName name) : joinPath [p, name] = dirOf p ++ name := by
  have hname : (decide (name ≠ [])) = true := decide_eq_true h.1
  by_cases hp : p = []
  · subst hp
    have hhead : name.head? ≠ some 47 := fun he => h.2.2.2 (List.mem_of_head? he)
    have hdir : dirOf [] = [] := rfl
    simp only [joinPath, List.filter, hname, ne_eq, not_true_eq_false, decide_false, List.intercalate_singleton]
    rw [hdir, clean, if_neg hhead, cleanElements_name h, if_neg (List.cons_ne_nil _ _), List.intercalate_singleton]
    rfl
  · have hkeep : [p, name].filter (· ≠ []) = [p, name] := by simp [hp, h.1]
    simp only [joinPath, hkeep]
    have hjoin : [47].intercalate [p, name] = p ++ 47 :: name := by simp [List.intercalate_cons_cons]
    rw [hjoin, clean_name hp h]

end Mototeca
