import Mathlib.Data.Set.Insert
import Mathlib.Logic.Function.Basic

/-!
# Store and forward

A sender stores items until a receiver has carried out a request for each. Its
workers take an item up, post a request for it, wait for the answer, and drop
the item once the answer is good. The receiver carries out a request at most
once, at any time after it is posted.

An item that is only dropped after a request for it was carried out is never
lost (`Honest`); items that are taken up with care are delivered at most once
(`Once`).
-/

namespace Forwarding

variable {ι ω : Type}

inductive Hand (ι : Type) where
  | empty
  | waiting (a : ι) (r : Nat)
  | answered (a : ι)

/-- `posts` are the requests in order, each with the item it is for, if any;
`done` are those carried out, and `dropped` the items that a worker dropped. -/
structure State (ι ω : Type) where
  stored : Set ι
  hand : ω → Hand ι
  posts : List (Option ι)
  done : Set Nat
  dropped : Set ι

def State.For (s : State ι ω) (r : Nat) (a : ι) : Prop := s.posts[r]? = some (some a)

def State.Delivered (s : State ι ω) (a : ι) : Prop := ∃ r ∈ s.done, s.For r a

def State.Holds (s : State ι ω) (w : ω) (a : ι) : Prop := (∃ r, s.hand w = .waiting a r) ∨ s.hand w = .answered a

theorem State.For.append {s : State ι ω} {r : Nat} {a : ι} (h : s.For r a) (l : List (Option ι)) :
    (s.posts ++ l)[r]? = some (some a) := by
  obtain ⟨hr, -⟩ := List.getElem?_eq_some_iff.mp h
  rw [List.getElem?_append_left hr]
  exact h

inductive Move (ι ω : Type) where
  | other
  | put (a : ι)
  | discard (a : ι)
  | take (w : ω) (a : ι)
  | accept (w : ω)
  | fail (w : ω)
  | drop (w : ω)
  | carry (r : Nat)
  | restart

/-- Anyone may take any item up, stored or not, and give up at any time. -/
inductive Step [DecidableEq ω] (s : State ι ω) : Move ι ω → State ι ω → Prop
  | other (n : Nat) : Step s .other { s with posts := s.posts ++ List.replicate n none }
  | put (a : ι) : Step s (.put a) { s with stored := insert a s.stored }
  | discard (a : ι) : Step s (.discard a) { s with stored := s.stored \ {a} }
  | take {w : ω} {a : ι} : s.hand w = .empty → Step s (.take w a) { s with
      posts := s.posts ++ [some a], hand := Function.update s.hand w (.waiting a s.posts.length) }
  | accept {w : ω} {a : ι} {r : Nat} : s.hand w = .waiting a r →
      Step s (.accept w) { s with hand := Function.update s.hand w (.answered a) }
  | fail (w : ω) : Step s (.fail w) { s with hand := Function.update s.hand w .empty }
  | drop {w : ω} {a : ι} : s.hand w = .answered a → Step s (.drop w) { s with
      stored := s.stored \ {a}, dropped := insert a s.dropped, hand := Function.update s.hand w .empty }
  | carry {r : Nat} : r < s.posts.length → r ∉ s.done → Step s (.carry r) { s with done := insert r s.done }
  | restart : Step s .restart { s with hand := fun _ => .empty }

section
variable [DecidableEq ω] {s s' : State ι ω} {act : Move ι ω} {r : Nat} {a : ι}

theorem State.For.step (h : s.For r a) (hs : Step s act s') : s'.For r a := by
  cases hs with
  | other _ => exact h.append _
  | take _ => exact h.append _
  | _ => exact h

theorem done_step (hr : r ∈ s.done) (hs : Step s act s') : r ∈ s'.done := by
  cases hs with
  | carry => exact Set.mem_insert_of_mem _ hr
  | _ => exact hr

theorem State.Delivered.step (h : s.Delivered a) (hs : Step s act s') : s'.Delivered a := by
  obtain ⟨r, hr, hf⟩ := h
  exact ⟨r, done_step hr hs, hf.step hs⟩

theorem waiting_of_step (hs : Step s act s') {w : ω} (h : s'.hand w = .waiting a r) :
    s.hand w = .waiting a r ∨ act = .take w a ∧ r = s.posts.length ∧ s'.posts = s.posts ++ [some a] := by
  cases hs with
  | @take v b hv =>
    by_cases hw : w = v
    · subst hw
      obtain ⟨rfl, rfl⟩ : b = a ∧ s.posts.length = r := by simpa using h
      exact Or.inr ⟨rfl, rfl, rfl⟩
    · exact Or.inl (by simpa [hw] using h)
  | @accept v b q hv => by_cases hw : w = v <;> simp_all
  | fail v => by_cases hw : w = v <;> simp_all
  | @drop v b hv => by_cases hw : w = v <;> simp_all
  | restart => cases h
  | _ => exact Or.inl h

theorem answered_of_step (hs : Step s act s') {w : ω} (h : s'.hand w = .answered a) :
    s.hand w = .answered a ∧ act ≠ .drop w ∨ act = .accept w ∧ ∃ r, s.hand w = .waiting a r := by
  cases hs with
  | @accept v b q hv =>
    by_cases hw : w = v
    · subst hw
      obtain rfl : b = a := by simpa using h
      exact Or.inr ⟨rfl, q, hv⟩
    · exact Or.inl ⟨by simpa [hw] using h, by simp⟩
  | @take v b hv => by_cases hw : w = v <;> simp_all
  | fail v => by_cases hw : w = v <;> simp_all
  | @drop v b hv =>
    by_cases hw : w = v
    · subst hw
      simp at h
    · exact Or.inl ⟨by simpa [hw] using h, by simp [Ne.symm hw]⟩
  | restart => cases h
  | _ => exact Or.inl ⟨h, by simp⟩

theorem dropped_of_step (hs : Step s act s') (h : a ∈ s'.dropped) :
    a ∈ s.dropped ∨ ∃ w, act = .drop w ∧ s.hand w = .answered a := by
  cases hs with
  | @drop w b hw =>
    rcases Set.mem_insert_iff.mp h with rfl | h
    · exact Or.inr ⟨w, rfl, hw⟩
    · exact Or.inl h
  | _ => exact Or.inl h

theorem done_of_step (hs : Step s act s') (h : r ∈ s'.done) :
    r ∈ s.done ∨ act = .carry r ∧ r < s.posts.length := by
  cases hs with
  | @carry q hq _ =>
    rcases Set.mem_insert_iff.mp h with rfl | h
    · exact Or.inr ⟨rfl, hq⟩
    · exact Or.inl h
  | _ => exact Or.inl h

theorem for_of_step (hs : Step s act s') (h : s'.For r a) (hr : r < s.posts.length) : s.For r a := by
  cases hs with
  | other _ => exact (List.getElem?_append_left hr).symm.trans h
  | take _ => exact (List.getElem?_append_left hr).symm.trans h
  | _ => exact h

theorem length_posts_step (hs : Step s act s') : s.posts.length ≤ s'.posts.length := by
  cases hs with
  | other _ => simp
  | take _ => simp
  | _ => exact le_rfl

/-- Only taking an item up posts a request for it. -/
theorem taken_of_posted (hs : Step s act s') (h : some a ∈ s'.posts.drop s.posts.length) : ∃ w, act = .take w a := by
  cases hs with
  | other n =>
    rw [List.drop_left] at h
    cases List.eq_of_mem_replicate h
  | @take w b hw =>
    rw [List.drop_left] at h
    cases List.mem_singleton.mp h
    exact ⟨w, rfl⟩
  | _ =>
    rw [List.drop_length] at h
    cases h

/-! ## Nothing is lost -/

/-- A good answer is given to a request that was carried out. -/
def Truthful (s : State ι ω) : Move ι ω → Prop
  | .accept w => ∀ a r, s.hand w = .waiting a r → r ∈ s.done
  | _ => True

structure Honest (s : State ι ω) : Prop where
  waiting : ∀ w a r, s.hand w = .waiting a r → s.For r a
  answered : ∀ w a, s.hand w = .answered a → s.Delivered a

theorem waiting_step (hs : Step s act s') (h : ∀ w a r, s.hand w = .waiting a r → s.For r a) :
    ∀ w a r, s'.hand w = .waiting a r → s'.For r a := by
  intro w a r hw
  rcases waiting_of_step hs hw with hw | ⟨-, rfl, hp⟩
  · exact (h w a r hw).step hs
  · simp [State.For, hp]

theorem Honest.step (h : Honest s) (hs : Step s act s') (ht : Truthful s act) : Honest s' := by
  refine ⟨waiting_step hs h.waiting, fun w a hw => ?_⟩
  rcases answered_of_step hs hw with ⟨hw, -⟩ | ⟨rfl, r, hw⟩
  · exact (h.answered w a hw).step hs
  · exact State.Delivered.step ⟨r, ht a r hw, h.waiting w a r hw⟩ hs

omit [DecidableEq ω] in
theorem Honest.of_empty (h : ∀ w, s.hand w = .empty) : Honest s where
  waiting w a r hw := by simp [h] at hw
  answered w a hw := by simp [h] at hw

/-- An item goes out of the store by a discard, or once it is delivered. -/
theorem Honest.leaves (h : Honest s) (hs : Step s act s') (ha : a ∈ s.stored) (ha' : a ∉ s'.stored) :
    act = .discard a ∨ s.Delivered a := by
  cases hs with
  | put b => exact absurd (Set.mem_insert_of_mem b ha) ha'
  | discard b =>
    by_cases hb : a = b
    · exact Or.inl (by rw [hb])
    · exact absurd ⟨ha, hb⟩ ha'
  | @drop w b hw =>
    by_cases hb : a = b
    · exact Or.inr (h.answered w a (by rw [hb, hw]))
    · exact absurd ⟨ha, hb⟩ ha'
  | _ => exact absurd ha ha'

/-! ## Nothing is delivered twice -/

/-- An item is taken up by one worker at a time and never again once dropped,
a request is carried out while its worker waits for the answer, and a worker
only fails, and the sender only restarts, on requests that were not carried out. -/
def Careful (s : State ι ω) : Move ι ω → Prop
  | .take _ a => a ∉ s.dropped ∧ ∀ w, ¬ s.Holds w a
  | .carry r => ∀ a, s.For r a → ∃ w, s.hand w = .waiting a r
  | .fail w => ∃ a r, s.hand w = .waiting a r ∧ r ∉ s.done
  | .restart => ∀ w a, s.hand w ≠ .answered a ∧ ∀ r, s.hand w = .waiting a r → r ∉ s.done
  | _ => True

structure Once (s : State ι ω) : Prop where
  waiting : ∀ w a r, s.hand w = .waiting a r → s.For r a
  posted : ∀ r ∈ s.done, r < s.posts.length
  alone : ∀ w w' a, s.Holds w a → s.Holds w' a → w = w'
  held : ∀ w a, s.Holds w a → a ∉ s.dropped
  /-- A delivered item was dropped, or its worker is the one with the request. -/
  place : ∀ r a, r ∈ s.done → s.For r a → a ∈ s.dropped ∨ ∃ w, s.hand w = .answered a ∨ s.hand w = .waiting a r
  once : ∀ r r' a, r ∈ s.done → r' ∈ s.done → s.For r a → s.For r' a → r = r'

theorem holds_of_step (hs : Step s act s') {w : ω} (h : s'.Holds w a) :
    s.Holds w a ∧ act ≠ .drop w ∨ act = .take w a := by
  rcases h with ⟨r, hw⟩ | hw
  · rcases waiting_of_step hs hw with hold | ⟨rfl, -, -⟩
    · refine Or.inl ⟨Or.inl ⟨r, hold⟩, fun hd => ?_⟩
      subst hd
      cases hs with
      | drop hv =>
        rw [hv] at hold
        cases hold
    · exact Or.inr rfl
  · rcases answered_of_step hs hw with ⟨hw, hd⟩ | ⟨rfl, r, hw⟩
    · exact Or.inl ⟨Or.inr hw, hd⟩
    · exact Or.inl ⟨Or.inl ⟨r, hw⟩, by simp⟩

namespace Once

omit [DecidableEq ω] in
theorem of_empty (h : ∀ w, s.hand w = .empty) (hd : s.done = ∅) : Once s where
  waiting w a r hw := by simp [h] at hw
  posted r hr := by simp [hd] at hr
  alone w w' a hw := by simp [State.Holds, h] at hw
  held w a hw := by simp [State.Holds, h] at hw
  place r a hr := by simp [hd] at hr
  once r r' a hr := by simp [hd] at hr

theorem alone_step (h : Once s) (hs : Step s act s') (hc : Careful s act) :
    ∀ w w' a, s'.Holds w a → s'.Holds w' a → w = w' := by
  intro w w' a hw hw'
  rcases holds_of_step hs hw with ⟨hw, -⟩ | rfl
  · rcases holds_of_step hs hw' with ⟨hw', -⟩ | rfl
    · exact h.alone w w' a hw hw'
    · exact absurd hw (hc.2 w)
  · rcases holds_of_step hs hw' with ⟨hw', -⟩ | he
    · exact absurd hw' (hc.2 w')
    · injection he

theorem held_step (h : Once s) (hs : Step s act s') (hc : Careful s act) :
    ∀ w a, s'.Holds w a → a ∉ s'.dropped := by
  intro w a hw hd
  rcases dropped_of_step hs hd with hd | ⟨v, rfl, hv⟩
  · rcases holds_of_step hs hw with ⟨hw, -⟩ | rfl
    · exact h.held w a hw hd
    · exact hc.1 hd
  · rcases holds_of_step hs hw with ⟨hw, hne⟩ | he
    · exact hne (by rw [h.alone w v a hw (Or.inr hv)])
    · cases he

theorem place_step (h : Once s) (hs : Step s act s') (hc : Careful s act) :
    ∀ r a, r ∈ s'.done → s'.For r a →
      a ∈ s'.dropped ∨ ∃ w, s'.hand w = .answered a ∨ s'.hand w = .waiting a r := by
  intro r a hr hf
  rcases done_of_step hs hr with hr | ⟨rfl, hlt⟩
  · have hf := for_of_step hs hf (h.posted r hr)
    rcases h.place r a hr hf with hd | ⟨w, hw⟩
    · left
      cases hs with
      | drop => exact Set.mem_insert_of_mem _ hd
      | _ => exact hd
    · cases hs with
      | @take v b hv =>
        refine Or.inr ⟨w, ?_⟩
        have hne : w ≠ v := fun he => by subst he; simp [hv] at hw
        simpa [hne] using hw
      | @accept v b q hv =>
        refine Or.inr ⟨w, ?_⟩
        by_cases hne : w = v
        · subst hne
          obtain ⟨rfl, -⟩ : b = a ∧ q = r := by simpa [hv] using hw
          simp
        · simpa [hne] using hw
      | fail v =>
        refine Or.inr ⟨w, ?_⟩
        obtain ⟨b, q, hv, hq⟩ := hc
        have hne : w ≠ v := fun he => by
          subst he
          obtain ⟨-, rfl⟩ : b = a ∧ q = r := by simpa [hv] using hw
          exact hq hr
        simpa [hne] using hw
      | @drop v b hv =>
        by_cases hne : w = v
        · subst hne
          obtain rfl : b = a := by simpa [hv] using hw
          exact Or.inl (Set.mem_insert _ _)
        · exact Or.inr ⟨w, by simpa [hne] using hw⟩
      | restart =>
        rcases hw with hw | hw
        · exact absurd hw (hc w a).1
        · exact absurd hr ((hc w a).2 r hw)
      | _ => exact Or.inr ⟨w, hw⟩
  · cases hs with
    | carry _ _ =>
      obtain ⟨w, hw⟩ := hc a hf
      exact Or.inr ⟨w, Or.inr hw⟩

omit [DecidableEq ω] in
theorem waits_alone (h : Once s) {w : ω} (hw : s.hand w = .waiting a r) {q : Nat} (hq : q ∈ s.done)
    (hf : s.For q a) : q = r := by
  rcases h.place q a hq hf with hd | ⟨v, hv⟩
  · exact absurd hd (h.held w a (Or.inl ⟨r, hw⟩))
  · obtain rfl : v = w := h.alone v w a (hv.elim Or.inr fun hv => Or.inl ⟨q, hv⟩) (Or.inl ⟨r, hw⟩)
    rw [hw] at hv
    rcases hv with hv | hv
    · cases hv
    · injection hv with _ hv
      exact hv.symm

theorem once_step (h : Once s) (hs : Step s act s') (hc : Careful s act) :
    ∀ r r' a, r ∈ s'.done → r' ∈ s'.done → s'.For r a → s'.For r' a → r = r' := by
  intro r r' a hr hr' hf hf'
  rcases done_of_step hs hr with hr | ⟨rfl, hlt⟩
  · have hf := for_of_step hs hf (h.posted r hr)
    rcases done_of_step hs hr' with hr' | ⟨rfl, hlt⟩
    · exact h.once r r' a hr hr' hf (for_of_step hs hf' (h.posted r' hr'))
    · obtain ⟨w, hw⟩ := hc a (for_of_step hs hf' hlt)
      exact h.waits_alone hw hr hf
  · have hf := for_of_step hs hf hlt
    obtain ⟨w, hw⟩ := hc a hf
    rcases done_of_step hs hr' with hr' | ⟨he, -⟩
    · exact (h.waits_alone hw hr' (for_of_step hs hf' (h.posted r' hr'))).symm
    · injection he

theorem step (h : Once s) (hs : Step s act s') (hc : Careful s act) : Once s' where
  waiting := waiting_step hs h.waiting
  posted r hr := by
    rcases done_of_step hs hr with hr | ⟨-, hlt⟩
    · exact (h.posted r hr).trans_le (length_posts_step hs)
    · exact hlt.trans_le (length_posts_step hs)
  alone := h.alone_step hs hc
  held := h.held_step hs hc
  place := h.place_step hs hc
  once := h.once_step hs hc

end Once

end

end Forwarding
