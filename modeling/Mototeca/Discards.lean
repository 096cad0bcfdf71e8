import Mototeca.Flushing
import Mototeca.Runs

/-!
# Discarded drafts

A `flush` goes through a list that it took before its first request. A draft
discarded in the meantime is still sent, unless no flush has it to come when
the discard completes and none takes it from a list that is out of date.
-/

namespace Mototeca.Mobile

open Forwarding

/-- The `load` ends with this query. -/
def Load.finishes (dart : Dart) (db : OutboxDb) (ok : Bool) (load : Load) : Bool :=
  match load.step dart db with
  | .ok (.inl _) => !ok
  | _ => true

def FlushPhase.running : FlushPhase → Bool
  | .threw => false
  | _ => true

def Flush.toCome (flush : Flush) (id : Nat) : Bool := flush.phase.running && flush.left.any fun draft => draft.id == id

theorem finishes_of_ended {dart : Dart} {db : OutboxDb} {ok : Bool} {load : Load}
    (h : ok = true → ∀ next, load.step dart db ≠ .ok (.inl next)) : load.finishes dart db ok = true := by
  unfold Load.finishes
  split
  · next again hagain =>
    cases ok with
    | false => rfl
    | true => exact absurd hagain (h rfl again)
  · rfl

namespace Oficina

variable (dart : Dart) (s : Oficina)

/-- A discard of the draft has completed. -/
def discarded (id : Nat) : Bool := s.loads.any fun task => task.1 == .discard id && task.2.isNone

def toCome (id : Nat) : Bool := s.flushes.any fun flush => flush.toCome id

/-- The step starts no request to create a discarded draft. -/
def spares (e : Event) : Bool :=
  ((Runs.next (step dart) s e).requests.drop s.requests.length).all fun sent =>
    sent.origin.item.all fun id => !s.discarded id

/-- No flush has the draft still to come when its discard completes, and none
takes a list that holds a discarded draft. -/
def settled : Event → Bool
  | .load j ok =>
    match s.loads[j]? with
    | some (.discard id, some load) => !load.finishes dart s.db ok || !s.toCome id
    | _ => true
  | .resume i =>
    match s.flushes[i]? with
    | some ⟨.ensured, _, _, _⟩ => s.outbox.drafts.all fun draft => !s.discarded draft.id
    | _ => true
  | _ => true

variable {dart s} {s' : Oficina} {id : Nat}

/-! ## What a step adds to the lists -/

theorem discarded_iff : s.discarded id = true ↔ (LoadReason.discard id, none) ∈ s.loads := by
  simp only [discarded, List.any_eq_true, Bool.and_eq_true, beq_iff_eq, Option.isNone_iff_eq_none]
  constructor
  · rintro ⟨⟨reason, load⟩, hmem, rfl, rfl⟩
    exact hmem
  · exact fun hmem => ⟨_, hmem, rfl, rfl⟩

theorem toCome_setFlush {i : Nat} {flush flush' : Flush} (h : (s.setFlush i flush').toCome id = true)
    (hi : s.flushes[i]? = some flush) (hrunning : flush.phase.running = true)
    (hleft : ∀ draft ∈ flush'.left, draft ∈ flush.left) : s.toCome id = true := by
  obtain ⟨f, hf, hid⟩ := List.any_eq_true.mp h
  rcases List.mem_or_eq_of_mem_set hf with hf | rfl
  · exact List.any_eq_true.mpr ⟨f, hf, hid⟩
  · simp only [Flush.toCome, Bool.and_eq_true, List.any_eq_true] at hid
    obtain ⟨-, draft, hdraft, heq⟩ := hid
    refine List.any_eq_true.mpr ⟨flush, List.mem_of_getElem? hi, ?_⟩
    simp only [Flush.toCome, hrunning, Bool.true_and, List.any_eq_true]
    exact ⟨draft, hleft draft hdraft, heq⟩

theorem toCome_startFlush (h : s.startFlush.toCome id = true) : s.toCome id = true := by
  obtain ⟨f, hf, hid⟩ := List.any_eq_true.mp h
  rcases List.mem_append.mp hf with hf | hf
  · exact List.any_eq_true.mpr ⟨f, hf, hid⟩
  · rw [List.mem_singleton.mp hf] at hid
    simp [Flush.toCome] at hid

theorem toCome_restart : s.restart.toCome id = false := by
  simp only [toCome, restart, List.any_map, List.any_eq_false]
  intro f _
  simp [Flush.toCome, FlushPhase.running]

/-- Only a flush that takes its list gets drafts to come. -/
theorem toCome_resume {i : Nat} (h : s.resume dart i = some s') (hid : s'.toCome id = true) :
    s.toCome id = true ∨ (∃ left sent failed, s.flushes[i]? = some ⟨.ensured, left, sent, failed⟩) ∧
      ∃ draft ∈ s.outbox.drafts, draft.id = id := by
  cases resume_cases h with
  | list hf =>
    obtain ⟨f, hmem, hcome⟩ := List.any_eq_true.mp hid
    rcases List.mem_or_eq_of_mem_set hmem with hmem | rfl
    · exact Or.inl (List.any_eq_true.mpr ⟨f, hmem, hcome⟩)
    · refine Or.inr ⟨⟨_, _, _, hf⟩, ?_⟩
      simpa [Flush.toCome, FlushPhase.running] using hcome
  | finish hf => exact Or.inl (toCome_setFlush hid hf rfl fun _ hd => hd)
  | take hf => exact Or.inl (toCome_setFlush (s := s.sendRequest _ _) hid hf rfl fun _ hd => List.mem_cons_of_mem _ hd)
  | attached hf => exact Or.inl (toCome_setFlush hid hf rfl fun _ hd => hd)
  | attach hf => exact Or.inl (toCome_setFlush (s := s.sendRequest _ _) hid hf rfl fun _ hd => hd)

theorem toCome_flushAnswer {i : Nat} {answer : Option Answer} {now : DateTime}
    (h : s.flushAnswer dart i answer now = some s') (hid : s'.toCome id = true) : s.toCome id = true := by
  cases flushAnswer_cases h with
  | created hf => exact toCome_setFlush (s := { s with session := _ }) hid hf rfl fun _ hd => hd
  | refused hf => exact toCome_setFlush (s := { s with session := _ }) hid hf rfl fun _ hd => hd
  | uploaded hf => exact toCome_setFlush (s := { s with session := _ }) hid hf rfl fun _ hd => hd

theorem toCome_diskLoaded {i : Nat} {flush done threw : Flush} {ok : Bool} {load : Load} {again : Load → Flush}
    (h : s.DiskLoaded dart i ok load again done threw s') (hid : s'.toCome id = true)
    (hf : s.flushes[i]? = some flush) (hrunning : flush.phase.running = true)
    (hagain : ∀ load, (again load).left = flush.left) (hdone : done.left = flush.left)
    (hthrew : threw.left = flush.left) : s.toCome id = true := by
  cases h with
  | again => exact toCome_setFlush hid hf hrunning fun _ hd => hagain _ ▸ hd
  | done => exact toCome_setFlush (s := { s with outbox := _ }) hid hf hrunning fun _ hd => hdone ▸ hd
  | threw => exact toCome_setFlush hid hf hrunning fun _ hd => hthrew ▸ hd

theorem toCome_disk {i : Nat} {ok : Bool} (h : s.disk dart i ok = some s') (hid : s'.toCome id = true) :
    s.toCome id = true := by
  cases disk_cases h with
  | ensuring hf hload => exact toCome_diskLoaded hload hid hf rfl (fun _ => rfl) rfl rfl
  | removed hf hok hs' =>
    subst hs'
    exact toCome_setFlush (s := { s with db := _, removed := _ }) hid hf rfl fun _ hd => hd
  | notRemoved hf hok hs' =>
    subst hs'
    exact toCome_setFlush hid hf rfl fun _ hd => hd
  | reloading hf hload => exact toCome_diskLoaded hload hid hf rfl (fun _ => rfl) rfl rfl

/-! ### The other tasks -/

/-- The step moves no flush and completes no discard. -/
structure Aside (s s' : Oficina) : Prop where
  flushes : s'.flushes = s.flushes
  loads : ∀ id, (LoadReason.discard id, none) ∈ s'.loads → (LoadReason.discard id, none) ∈ s.loads

theorem Aside.of_eq (hflushes : s'.flushes = s.flushes) (hloads : s'.loads = s.loads) : s.Aside s' :=
  ⟨hflushes, fun _ h => hloads ▸ h⟩

theorem aside_startLoad (reason : LoadReason) : s.Aside (s.startLoad reason) := by
  refine ⟨rfl, fun id h => ?_⟩
  rcases List.mem_append.mp h with h | h
  · exact h
  · cases List.mem_singleton.mp h

theorem aside_save {screen : NewRecord} {now : DateTime} (h : s.save dart screen now = some s') : s.Aside s' := by
  cases save_cases h with
  | @queued db =>
    have hload := aside_startLoad (s := { s with db }) .add
    exact ⟨hload.flushes, hload.loads⟩
  | revising => exact .of_eq rfl rfl
  | creating => exact .of_eq rfl rfl

theorem aside_saveAnswer {k : Nat} {answer : Option Answer} {mounted : Bool} {now : DateTime}
    (h : s.saveAnswer dart k answer mounted now = some s') : s.Aside s' := by
  cases saveAnswer_cases h with
  | upload files =>
    cases files with
    | nil => exact .of_eq rfl rfl
    | cons a files => exact .of_eq rfl rfl
  | ended => exact .of_eq rfl rfl

theorem aside_reply {k : Nat} {yes mounted : Bool} (h : s.reply dart k yes mounted = some s') : s.Aside s' := by
  cases reply_cases h with
  | sent => exact .of_eq rfl rfl
  | gone => exact .of_eq rfl rfl
  | cancelled => exact .of_eq rfl rfl

theorem aside_api {r : Nat} {creates : Bool} (h : s.api r creates = some s') : s.Aside s' := by
  cases api_cases h with
  | refused => exact .of_eq rfl rfl
  | created => exact .of_eq rfl rfl

theorem loads_resume {i : Nat} (h : s.resume dart i = some s') : s'.loads = s.loads := by
  cases resume_cases h <;> rfl

theorem loads_flushAnswer {i : Nat} {answer : Option Answer} {now : DateTime}
    (h : s.flushAnswer dart i answer now = some s') : s'.loads = s.loads := by
  cases flushAnswer_cases h <;> rfl

theorem loads_disk {i : Nat} {ok : Bool} (h : s.disk dart i ok = some s') : s'.loads = s.loads := by
  cases disk_cases h with
  | ensuring hf hload => cases hload <;> rfl
  | removed hf hok hs' => rw [hs']; rfl
  | notRemoved hf hok hs' => rw [hs']; rfl
  | reloading hf hload => cases hload <;> rfl

/-- Only the last query of a discard's reload completes it. -/
theorem discarded_loadStep {j : Nat} {ok : Bool} (h : s.loadStep dart j ok = some s')
    (hd : (LoadReason.discard id, none) ∈ s'.loads) :
    (LoadReason.discard id, none) ∈ s.loads ∨
      ∃ load, s.loads[j]? = some (.discard id, some load) ∧ load.finishes dart s.db ok = true := by
  cases loadStep_cases h with
  | next hj =>
    rcases List.mem_or_eq_of_mem_set hd with hd | heq
    · exact Or.inl hd
    · cases heq
  | @ended reason load outbox hj hload =>
    rcases List.mem_or_eq_of_mem_set hd with hd | heq
    · exact Or.inl hd
    · obtain ⟨rfl, -⟩ := Prod.mk.inj heq
      exact Or.inr ⟨load, hj, finishes_of_ended hload⟩

theorem flushes_loadStep {j : Nat} {ok : Bool} (h : s.loadStep dart j ok = some s') : s'.flushes = s.flushes := by
  cases loadStep_cases h <;> rfl

/-! ## No flush has a discarded draft to come -/

def Spared (s : Oficina) : Prop := ∀ id, s.discarded id = true → s.toCome id = false

theorem Spared.of_aside (hs : s.Spared) (h : s.Aside s') : s'.Spared := by
  intro id hid
  rw [toCome, h.flushes]
  exact hs id (discarded_iff.mpr (h.loads id (discarded_iff.mp hid)))

/-- The flush steps complete no discard. -/
theorem Spared.of_loads (hs : s.Spared) (hloads : s'.loads = s.loads)
    (hcome : ∀ id, s'.toCome id = true → s.toCome id = true ∨ s.discarded id = false) : s'.Spared := by
  intro id hid
  have hid : s.discarded id = true := by rwa [discarded, hloads] at hid
  cases hc : s'.toCome id with
  | false => rfl
  | true =>
    rcases hcome id hc with hc | hd
    · rw [hs id hid] at hc
      cases hc
    · rw [hid] at hd
      cases hd

theorem Spared.load {j : Nat} {ok : Bool} (hs : s.Spared) (h : s.loadStep dart j ok = some s')
    (hsettled : s.settled dart (.load j ok) = true) : s'.Spared := by
  intro id hid
  have hsame : s'.toCome id = s.toCome id := by
    rw [toCome, flushes_loadStep h]
    rfl
  rw [hsame]
  rcases discarded_loadStep h (discarded_iff.mp hid) with hid | ⟨load, hj, hfinishes⟩
  · exact hs id (discarded_iff.mpr hid)
  · simpa [settled, hj, hfinishes] using hsettled

theorem Spared.resume {i : Nat} (hs : s.Spared) (h : s.resume dart i = some s')
    (hsettled : s.settled dart (.resume i) = true) : s'.Spared := by
  refine hs.of_loads (loads_resume h) fun id hid => ?_
  rcases toCome_resume h hid with hid | ⟨⟨left, sent, failed, hf⟩, draft, hdraft, rfl⟩
  · exact Or.inl hid
  · simp only [settled, hf, List.all_eq_true, Bool.not_eq_true'] at hsettled
    exact Or.inr (hsettled draft hdraft)

theorem Spared.step {e : Event} (hs : s.Spared) (h : s.step dart e = some s') (hsettled : s.settled dart e = true) :
    s'.Spared := by
  cases e with
  | restart =>
    cases h
    exact fun id _ => toCome_restart
  | signIn token =>
    cases h
    exact hs.of_loads rfl fun id hid => Or.inl (toCome_startFlush (s := { s with session := some token }) hid)
  | signOut =>
    cases h
    exact hs
  | send =>
    cases h
    exact hs.of_loads rfl fun id hid => Or.inl (toCome_startFlush hid)
  | openScreen =>
    cases h
    split
    · exact hs
    · exact hs.of_aside (aside_startLoad .screen)
  | discard id =>
    cases h
    have hload := aside_startLoad (s := { s with db := s.db.delete id }) (.discard id)
    exact hs.of_aside ⟨hload.flushes, hload.loads⟩
  | save screen now => exact hs.of_aside (aside_save h)
  | reply k yes mounted => exact hs.of_aside (aside_reply h)
  | saveAnswer k answer mounted now => exact hs.of_aside (aside_saveAnswer h)
  | load j ok => exact hs.load h hsettled
  | resume i => exact hs.resume h hsettled
  | flushAnswer i answer now =>
    exact hs.of_loads (loads_flushAnswer h) fun id hid => Or.inl (toCome_flushAnswer h hid)
  | disk i ok => exact hs.of_loads (loads_disk h) fun id hid => Or.inl (toCome_disk h hid)
  | api r creates => exact hs.of_aside (aside_api h)

/-- A flush takes up the first of the drafts it has to come. -/
theorem toCome_of_take {e : Event} {i : Nat} (h : s.action dart e = .take i id) : s.toCome id = true := by
  have hacts := action_cases dart s e
  rw [h] at hacts
  cases hacts with
  | take hf =>
    refine List.any_eq_true.mpr ⟨_, List.mem_of_getElem? hf, ?_⟩
    simp [Flush.toCome, FlushPhase.running]

theorem Spared.spares (hs : s.Spared) (e : Event) : s.spares dart e = true := by
  cases h : s.step dart e with
  | none => simp [Oficina.spares, Runs.next, h]
  | some s' =>
    rw [Oficina.spares, Runs.next_of_step h, List.all_eq_true]
    intro sent hsent
    have hpost : sent.origin.item ∈ s'.view.posts.drop s.view.posts.length := by
      rw [view, view, List.length_map, ← List.map_drop]
      exact List.mem_map_of_mem hsent
    cases ho : sent.origin.item with
    | none => rfl
    | some id =>
      rw [ho] at hpost
      obtain ⟨i, hi⟩ := taken_of_posted (view_step h) hpost
      have hcome := toCome_of_take hi
      cases hd : s.discarded id with
      | false => simp [hd]
      | true =>
        rw [hs id hd] at hcome
        cases hcome

end Oficina

/-- In a run of settled steps no request is started for a draft once its discard has completed. -/
theorem discarded_never_sent (dart : Dart) (es : List Event)
    (settled : Runs.EveryStep (Oficina.step dart) (fun s e => s.settled dart e) .init es) :
    Runs.EveryStep (Oficina.step dart) (fun s e => s.spares dart e) .init es :=
  Runs.EveryStep.along (P := Oficina.Spared) (fun _ _ _ h hsettled hs => hs.step h hsettled)
    (fun _ e hs _ => hs.spares e) es _ (fun _ _ => rfl) settled

/-! ## A discard while another draft is on its way -/

def discardedFirst : List Event := queued ++ [.discard 1, .load 1 true, .signIn "token", .resume 0, .resume 0]

theorem discardedFirst_spares :
    Runs.EveryStep (Oficina.step sampleDart) (fun s e => s.spares sampleDart e) .init discardedFirst :=
  discarded_never_sent sampleDart discardedFirst (by decide +kernel)

/-- Draft 2 is discarded while draft 1 is being sent. -/
def discardedMeanwhile : List Event :=
  queued ++ .save sampleScreen sampleNow :: List.replicate 7 (.load 1 true) ++
    [.signIn "token", .resume 0, .resume 0, .discard 2, .load 2 true, .load 2 true, .load 2 true, .load 2 true,
      .flushAnswer 0 none sampleNow, .resume 0]

theorem discardedMeanwhile_sent :
    ¬ Runs.EveryStep (Oficina.step sampleDart) (fun s e => s.spares sampleDart e) .init discardedMeanwhile := by
  decide +kernel

end Mototeca.Mobile
