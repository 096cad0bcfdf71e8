import Mototeca.Forwarding
import Mototeca.OficinaSteps

/-!
# The outbox stores and forwards

Every step of the app is a step of the store-and-forward sender whose items
are the drafts and whose workers are the flushes (`step_view`).
-/

namespace Mototeca.Mobile

open Forwarding ServiceRecordRepository

/-! ## The view -/

def Origin.item : Origin → Option Nat
  | .draft id => some id
  | _ => none

/-- A flush has a draft in hand from its request to its delete. -/
def FlushPhase.hand : FlushPhase → Hand Nat
  | .creating draft r => .waiting draft.id r
  | .attaching draft _ _ | .uploading draft _ _ _ | .removing draft => .answered draft.id
  | _ => .empty

namespace Oficina

def hand (s : Oficina) (i : Nat) : Hand Nat :=
  match s.flushes[i]? with
  | some flush => flush.phase.hand
  | none => .empty

def view (s : Oficina) : State Nat Nat where
  stored := {id | id ∈ s.db.ids}
  hand := s.hand
  posts := s.requests.map (·.origin.item)
  done := {r | r ∈ s.created}
  dropped := {id | id ∈ s.removed}

variable (dart : Dart) (s : Oficina)

def isFor (r id : Nat) : Bool := (s.requests[r]?).any fun sent => sent.origin == .draft id

def action : Event → Move Nat Nat
  | .restart => .restart
  | .discard id => .discard id
  | .save _ _ => if s.session.isNone then .put s.db.nextDraft else .other
  | .resume i =>
    match s.flushes[i]? with
    | some ⟨.ready, draft :: _, _, _⟩ => .take i draft.id
    | _ => .other
  | .flushAnswer i answer now =>
    match s.flushes[i]? with
    | some ⟨.creating _ _, _, _, _⟩ =>
      if (record dart now (answer.map (·.response))).isOk then .accept i else .fail i
    | _ => .other
  | .disk i ok =>
    match s.flushes[i]? with
    | some ⟨.removing _, _, _, _⟩ => if ok then .drop i else .fail i
    | _ => .other
  | .api r creates => if creates then .carry r else .other
  | _ => .other

/-- The events that are moves of the sender, each with its move. -/
inductive Acts : Event → Move Nat Nat → Prop where
  | restart : Acts .restart .restart
  | discard (id : Nat) : Acts (.discard id) (.discard id)
  | put {screen now} (hsession : s.session.isNone = true) : Acts (.save screen now) (.put s.db.nextDraft)
  | take {i draft left sent failed} (hf : s.flushes[i]? = some ⟨.ready, draft :: left, sent, failed⟩) :
      Acts (.resume i) (.take i draft.id)
  | accept {i answer now draft r left sent failed}
      (hf : s.flushes[i]? = some ⟨.creating draft r, left, sent, failed⟩)
      (hrecord : (record dart now (answer.map (·.response))).isOk = true) :
      Acts (.flushAnswer i answer now) (.accept i)
  | refused {i answer now draft r left sent failed}
      (hf : s.flushes[i]? = some ⟨.creating draft r, left, sent, failed⟩)
      (hrecord : (record dart now (answer.map (·.response))).isOk = false) :
      Acts (.flushAnswer i answer now) (.fail i)
  | drop {i draft left sent failed} (hf : s.flushes[i]? = some ⟨.removing draft, left, sent, failed⟩) :
      Acts (.disk i true) (.drop i)
  | notRemoved {i draft left sent failed} (hf : s.flushes[i]? = some ⟨.removing draft, left, sent, failed⟩) :
      Acts (.disk i false) (.fail i)
  | carry (r : Nat) : Acts (.api r true) (.carry r)
  | other (e : Event) : Acts e .other

variable {dart s} {s' : Oficina}

theorem action_cases (dart : Dart) (s : Oficina) (e : Event) : s.Acts dart e (s.action dart e) := by
  cases e with
  | restart => exact .restart
  | discard id => exact .discard id
  | save screen now =>
    simp only [action]
    split
    · next hsession => exact .put hsession
    · exact .other _
  | resume i =>
    simp only [action]
    split
    · next hf => exact .take hf
    · exact .other _
  | flushAnswer i answer now =>
    simp only [action]
    split
    · next hf =>
      split
      · next hrecord => exact .accept hf hrecord
      · next hrecord => exact .refused hf (Bool.eq_false_iff.mpr hrecord)
    · exact .other _
  | disk i ok =>
    simp only [action]
    split
    · next hf =>
      cases ok with
      | true => exact .drop hf
      | false => exact .notRemoved hf
    · exact .other _
  | api r creates =>
    cases creates with
    | true => exact .carry r
    | false => exact .other _
  | _ => exact .other _

theorem isFor_iff {r id : Nat} : s.isFor r id = true ↔ s.view.For r id := by
  cases hs : s.requests[r]? with
  | none => simp [isFor, State.For, view, hs]
  | some sent => cases ho : sent.origin <;> simp [isFor, State.For, view, hs, ho, Origin.item]

theorem hand_of {i : Nat} {flush : Flush} (h : s.flushes[i]? = some flush) : s.hand i = flush.phase.hand := by
  simp [hand, h]

theorem hand_setFlush {i : Nat} (hi : i < s.flushes.length) (flush : Flush) :
    (s.setFlush i flush).hand = Function.update s.hand i flush.phase.hand := by
  funext j
  by_cases h : j = i
  · subst h
    simp [hand, setFlush, hi]
  · simp [hand, setFlush, h, Ne.symm h]

theorem view_setFlush {i : Nat} (hi : i < s.flushes.length) (flush : Flush) :
    (s.setFlush i flush).view = { s.view with hand := Function.update s.view.hand i flush.phase.hand } := by
  simp only [view, hand_setFlush hi]
  rfl

theorem lt_of_flush {i : Nat} {flush : Flush} (h : s.flushes[i]? = some flush) : i < s.flushes.length :=
  (List.getElem?_eq_some_iff.mp h).1

theorem view_setFlush_same {i : Nat} {flush flush' : Flush} (hf : s.flushes[i]? = some flush)
    (hh : flush.phase.hand = flush'.phase.hand) : (s.setFlush i flush').view = s.view := by
  rw [view_setFlush (lt_of_flush hf), ← hh, ← hand_of hf]
  exact congrArg (fun hand => { s.view with hand }) (Function.update_eq_self i s.hand)

theorem view_startFlush : s.startFlush.view = s.view := by
  have hhand : s.startFlush.hand = s.hand := by
    funext i
    rcases lt_trichotomy i s.flushes.length with hi | rfl | hi
    · simp [hand, startFlush, List.getElem?_append_left hi]
    · simp only [hand, startFlush, List.getElem?_concat_length, List.getElem?_length]
      split <;> rfl
    · have hlen : (s.flushes ++ [⟨if s.outbox.loaded then .ensured else .ensuring .drafts, [], 0, 0⟩])[i]? = none :=
        List.getElem?_eq_none (by simp; omega)
      simp [hand, startFlush, hlen, List.getElem?_eq_none hi.le]
  simp only [view, hhand]
  rfl

theorem view_sendRequest (origin : Origin) (request : HttpRequest) :
    (s.sendRequest origin request).view = { s.view with posts := s.view.posts ++ [origin.item] } := by
  simp only [view, sendRequest, List.map_append]
  rfl

theorem mem_cons_set (a : Nat) (l : List Nat) : {b | b ∈ a :: l} = insert a {b | b ∈ l} := by
  ext b
  simp

theorem mem_ids_delete (db : OutboxDb) (id : Nat) : {a | a ∈ (db.delete id).ids} = {a | a ∈ db.ids} \ {id} := by
  ext a
  simp only [OutboxDb.ids, OutboxDb.delete, Set.mem_ofPred_eq, Set.mem_sdiff, Set.mem_singleton_iff, List.mem_map,
    List.mem_filter, bne_iff_ne]
  constructor
  · rintro ⟨row, ⟨hrow, hne⟩, rfl⟩
    exact ⟨⟨row, hrow, rfl⟩, hne⟩
  · rintro ⟨⟨row, hrow, rfl⟩, hne⟩
    exact ⟨row, ⟨hrow, hne⟩, rfl⟩

theorem drafts_foldlM {α : Type} {f : OutboxDb → α → Option OutboxDb}
    (hf : ∀ db a db', f db a = some db' → db'.drafts = db.drafts) (l : List α) :
    ∀ db db', l.foldlM f db = some db' → db'.drafts = db.drafts := by
  induction l with
  | nil =>
    intro db db' h
    cases h
    rfl
  | cons a l ih =>
    intro db db' h
    obtain ⟨mid, ha, hl⟩ := Option.bind_eq_some_iff.mp h
    exact (ih mid db' hl).trans (hf db a mid ha)

theorem ids_add {db db' : OutboxDb} {draft : OutboxDraft} (h : db.add dart draft = some db') :
    db'.ids = db.ids ++ [db.nextDraft] := by
  obtain ⟨db₁, hdraft, h⟩ := Option.bind_eq_some_iff.mp h
  obtain ⟨db₂, hoperations, h⟩ := Option.bind_eq_some_iff.mp h
  obtain ⟨db₃, hparts, hattachments⟩ := Option.bind_eq_some_iff.mp h
  have hkept : db'.drafts = db₁.drafts := by
    refine (drafts_foldlM ?_ _ _ _ hattachments).trans ((drafts_foldlM ?_ _ _ _ hparts).trans
      (drafts_foldlM ?_ _ _ _ hoperations))
    · intro db a db' h
      unfold OutboxDb.insertAttachment at h
      split at h <;> cases h
      rfl
    · intro db a db' h
      unfold OutboxDb.insertPart at h
      split at h <;> cases h
      rfl
    · intro db a db' h
      unfold OutboxDb.insertOperation at h
      split at h <;> cases h
      rfl
  unfold OutboxDb.insertDraft at hdraft
  split at hdraft
  · cases hdraft
    simp [OutboxDb.ids, hkept]
  · cases hdraft

theorem mem_ids_add {db db' : OutboxDb} {draft : OutboxDraft} (h : db.add dart draft = some db') :
    {a | a ∈ db'.ids} = insert db.nextDraft {a | a ∈ db.ids} := by
  rw [ids_add h]
  ext a
  simp [or_comm]

theorem view_remove (id : Nat) :
    ({ s with db := s.db.delete id, removed := id :: s.removed } : Oficina).view =
      { s.view with stored := s.view.stored \ {id}, dropped := insert id s.view.dropped } := by
  simp only [view, mem_ids_delete, mem_cons_set]
  rfl

theorem view_restart : s.restart.view = { s.view with hand := fun _ => .empty } := by
  have hhand : s.restart.hand = fun _ => .empty := by
    funext i
    simp only [hand, restart, List.getElem?_map]
    cases s.flushes[i]? with
    | none => rfl
    | some flush => rfl
  simp only [view, hhand]
  rfl

/-! ## The steps -/

theorem step_same (h : s'.view = s.view) : Step s.view .other s'.view := by
  rw [h]
  simpa using Step.other (s := s.view) 0

theorem step_sent (origin : Origin) {request : HttpRequest} (ho : origin.item = none)
    (h : s'.view = (s.sendRequest origin request).view) : Step s.view .other s'.view := by
  rw [h, view_sendRequest, ho]
  exact Step.other 1

theorem step_resume {i : Nat} (h : s.resume dart i = some s') : Step s.view (s.action dart (.resume i)) s'.view := by
  cases resume_cases h with
  | list hf =>
    simp only [action, hf]
    exact step_same (view_setFlush_same hf rfl)
  | finish hf =>
    simp only [action, hf]
    exact step_same (view_setFlush_same hf rfl)
  | @take draft left sent failed hf =>
    have hlen : s.view.posts.length = s.requests.length := List.length_map _
    have htake := Step.take (s := s.view) (w := i) (a := draft.id) (hand_of hf)
    rw [hlen] at htake
    simp only [action, hf]
    rw [sendDraft, view_setFlush (s := s.sendRequest _ _) (lt_of_flush hf), view_sendRequest]
    exact htake
  | attached hf =>
    simp only [action, hf]
    exact step_same (view_setFlush_same hf rfl)
  | attach hf =>
    simp only [action, hf]
    exact step_sent (.draftFile _) rfl (view_setFlush_same (s := s.sendRequest _ _) hf rfl)

theorem step_flushAnswer {i : Nat} {answer : Option Answer} {now : DateTime}
    (h : s.flushAnswer dart i answer now = some s') :
    Step s.view (s.action dart (.flushAnswer i answer now)) s'.view := by
  cases flushAnswer_cases h with
  | @created draft r left sent failed session created hf heard hrecord =>
    simp only [action, hf, hrecord]
    rw [view_setFlush (s := { s with session }) (lt_of_flush hf)]
    exact Step.accept (s := s.view) (hand_of hf)
  | @refused draft r left sent failed session thrown hf heard hrecord =>
    simp only [action, hf, hrecord]
    rw [view_setFlush (s := { s with session }) (lt_of_flush hf)]
    exact Step.fail (s := s.view) i
  | @uploaded draft record r files left sent failed session hf heard =>
    simp only [action, hf]
    exact step_same (view_setFlush_same (s := { s with session }) hf rfl)

theorem view_diskLoaded {i : Nat} {flush done threw : Flush} {ok : Bool} {load : Load} {again : Load → Flush}
    (h : s.DiskLoaded dart i ok load again done threw s') (hf : s.flushes[i]? = some flush)
    (hagain : ∀ load, flush.phase.hand = (again load).phase.hand) (hdone : flush.phase.hand = done.phase.hand)
    (hthrew : flush.phase.hand = threw.phase.hand) : s'.view = s.view := by
  cases h with
  | again => exact view_setFlush_same hf (hagain _)
  | @done drafts => exact view_setFlush_same (s := { s with outbox := .ofLoad drafts }) hf hdone
  | threw => exact view_setFlush_same hf hthrew

theorem step_disk {i : Nat} {ok : Bool} (h : s.disk dart i ok = some s') :
    Step s.view (s.action dart (.disk i ok)) s'.view := by
  cases disk_cases h with
  | ensuring hf hload =>
    simp only [action, hf]
    exact step_same (view_diskLoaded hload hf (fun _ => rfl) rfl rfl)
  | @removed draft left sent failed hf hok hs' =>
    subst hok hs'
    have hdrop := Step.drop (s := s.view) (w := i) (hand_of hf)
    simp only [action, hf, ite_true]
    rw [view_setFlush (s := { s with db := s.db.delete draft.id, removed := draft.id :: s.removed }) (lt_of_flush hf),
      view_remove]
    exact hdrop
  | notRemoved hf hok hs' =>
    subst hok hs'
    simp only [action, hf, Bool.false_eq_true, ite_false]
    rw [view_setFlush (lt_of_flush hf)]
    exact Step.fail (s := s.view) i
  | reloading hf hload =>
    simp only [action, hf]
    exact step_same (view_diskLoaded hload hf (fun _ => rfl) rfl rfl)

theorem view_loadStep {j : Nat} {ok : Bool} (h : s.loadStep dart j ok = some s') : s'.view = s.view := by
  cases loadStep_cases h with
  | next => rfl
  | ended => rfl

theorem step_saveAnswer {k : Nat} {answer : Option Answer} {mounted : Bool} {now : DateTime}
    (h : s.saveAnswer dart k answer mounted now = some s') : Step s.view .other s'.view := by
  cases saveAnswer_cases h with
  | upload files =>
    cases files with
    | nil => exact step_same rfl
    | cons a files => exact step_sent (.screen k) rfl rfl
  | ended => exact step_same rfl

theorem step_reply {k : Nat} {yes mounted : Bool} (h : s.reply dart k yes mounted = some s') :
    Step s.view .other s'.view := by
  cases reply_cases h with
  | sent => exact step_sent (.screen k) rfl rfl
  | gone => exact step_same rfl
  | cancelled => exact step_same rfl

theorem step_save {screen : NewRecord} {now : DateTime} (h : s.save dart screen now = some s') :
    Step s.view (s.action dart (.save screen now)) s'.view := by
  cases save_cases h with
  | queued hsession hadd =>
    have hput := Step.put (s := s.view) s.db.nextDraft
    have hstored := mem_ids_add hadd
    simp only [action, hsession, ite_true]
    rw [show insert s.db.nextDraft s.view.stored = _ from hstored.symm] at hput
    exact hput
  | revising hsession =>
    simp only [action, hsession, Bool.false_eq_true, ite_false]
    exact step_sent (.screen s.saves.length) rfl rfl
  | creating hsession =>
    simp only [action, hsession, Bool.false_eq_true, ite_false]
    exact step_sent (.screen s.saves.length) rfl rfl

theorem step_api {r : Nat} {creates : Bool} (h : s.api r creates = some s') :
    Step s.view (s.action dart (.api r creates)) s'.view := by
  cases api_cases h with
  | refused hr hnew hcreates =>
    simp only [action, hcreates, Bool.false_eq_true, ite_false]
    exact step_same rfl
  | created hr hnew hcreates =>
    obtain ⟨hlt, -⟩ := List.getElem?_eq_some_iff.mp hr
    have hcarry : Step s.view (.carry r) _ := Step.carry (by simpa [view] using hlt) (by simpa [view] using hnew)
    have hdone : insert r s.view.done = {q | q ∈ r :: s.created} := (mem_cons_set r s.created).symm
    rw [hdone] at hcarry
    simp only [action, hcreates, ite_true]
    exact hcarry

/-- The app is a store-and-forward sender. -/
theorem view_step {e : Event} (h : s.step dart e = some s') : Step s.view (s.action dart e) s'.view := by
  cases e with
  | restart =>
    cases h
    rw [view_restart]
    exact Step.restart
  | signIn token =>
    cases h
    exact step_same (view_startFlush (s := { s with session := some token }))
  | signOut =>
    cases h
    exact step_same rfl
  | send =>
    cases h
    exact step_same view_startFlush
  | openScreen =>
    cases h
    refine step_same ?_
    split <;> rfl
  | discard id =>
    cases h
    have hdiscard := Step.discard (s := s.view) id
    have hstored : s.view.stored \ {id} = {a | a ∈ (s.db.delete id).ids} := (mem_ids_delete s.db id).symm
    rw [hstored] at hdiscard
    exact hdiscard
  | save screen now => exact step_save h
  | reply k yes mounted => exact step_reply h
  | saveAnswer k answer mounted now => exact step_saveAnswer h
  | load j ok => exact step_same (view_loadStep h)
  | resume i => exact step_resume h
  | flushAnswer i answer now => exact step_flushAnswer h
  | disk i ok => exact step_disk h
  | api r creates => exact step_api h

theorem view_init : (∀ i, init.view.hand i = .empty) ∧ init.view.done = ∅ :=
  ⟨fun _ => rfl, by simp [view, init]⟩

end Oficina

end Mototeca.Mobile
