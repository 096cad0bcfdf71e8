import Mathlib.Data.List.Induction
import Mototeca.ServerSound
import Mototeca.Tokens

/-!
# Who may write what

A request reaches its handler with the subject of the token in its
`Authorization` header. Over every run of token issues and transactions, what a
commit writes belongs to the subject of an unexpired token that the request
presented, if only issued pairs of payload and signature verify.
-/

namespace Mototeca

open ReadCommitted

/-! ## Requests with headers -/

structure HttpRequest where
  /-- `Authorization`, empty where the request has none. -/
  header : Bytes
  /-- `time.Now()` where the token is verified. -/
  verifiedAt : Time
  now : Time
  call : Call
  deriving DecidableEq

/-- `Interceptor`. The upload route is outside it and reads the header in `authenticate`. -/
def authenticated (signer : Signer) (q : HttpRequest) : Except Failure Request :=
  match q.call with
  | .upload _ => .ok ⟨(bearerToken q.header).bind fun token => signer.verify token q.verifiedAt, q.now, q.call⟩
  | _ =>
    match bearerToken q.header with
    | none => .ok ⟨none, q.now, q.call⟩
    | some token =>
      match signer.verify token q.verifiedAt with
      | none => .error (.connect .unauthenticated "sessão expirada — entre novamente")
      | some subject => .ok ⟨some subject, q.now, q.call⟩

def api (P : Platform) (signer : Signer) : Machine Stmt DB Change Key (Nat → UUID) Failure HttpRequest Reply :=
  ⟨DB.apply, fun q => withSession (authenticated signer q) (serve P)⟩

/-- A sign-in hands out a token, or a transaction takes a step. -/
inductive ApiEvent where
  | issue (subject : Subject) (now : Time)
  | transaction (e : Event (Nat → UUID) HttpRequest)

namespace ApiEvent

def issued (signer : Signer) : ApiEvent → Option (Subject × Time)
  | issue subject now => if (signer.issue subject now).isOk then some (subject, now) else none
  | transaction _ => none

def transaction? : ApiEvent → Option (Event (Nat → UUID) HttpRequest)
  | issue _ _ => none
  | transaction e => some e

end ApiEvent

def issuedIn (signer : Signer) (es : List ApiEvent) : List (Subject × Time) := es.filterMap (·.issued signer)

abbrev ApiState := State Stmt DB Change Key (Nat → UUID) Failure HttpRequest Reply

def apiRun (P : Platform) (signer : Signer) (init : SoundDB) (es : List ApiEvent) : ApiState :=
  (api P signer).run (Machine.init init.db) (es.filterMap ApiEvent.transaction?)

/-! ## Presenting a token -/

/-- The request carries the payload and the signature of an unexpired token issued for `s`. -/
def Presents (signer : Signer) (issued : List (Subject × Time)) (q : HttpRequest) (s : Subject) : Prop :=
  ∃ token issuedAt, bearerToken q.header = some token ∧ (s, issuedAt) ∈ issued ∧
    Signer.decode token = some (signer.payload s issuedAt, signer.sign (signer.payload s issuedAt)) ∧
    q.verifiedAt ≤ signer.expiry issuedAt * second

/-- HMAC-SHA256 as an ideal MAC: a presented pair verifies only if it was issued before. -/
def IdealMac (signer : Signer) (es : List ApiEvent) : Prop :=
  ∀ before t q after, es = before ++ .transaction (.begin t q) :: after →
    ∀ token payload, bearerToken q.header = some token → Signer.decode token = some (payload, signer.sign payload) →
      ∃ s issuedAt, (s, issuedAt) ∈ issuedIn signer before ∧ payload = signer.payload s issuedAt

/-- What a commit writes, and for whom the request presented a token. -/
structure Authorised (signer : Signer) (issued : List (Subject × Time)) (d : DB)
    (e : Entry Stmt DB Change HttpRequest Reply) : Prop where
  inserted : ∀ r, .insertServiceRecord r ∈ e.changes → Presents signer issued e.req ⟨.workshop, r.workshopID⟩
  superseded : ∀ id new, .setSupersededBy id new ∈ e.changes → ∃ r, d.serviceRecord id = some r ∧
    Presents signer issued e.req ⟨.workshop, r.workshopID⟩
  attached : ∀ a, .insertAttachment a ∈ e.changes → ∃ r,
    (e.changes.foldl DB.apply d).serviceRecord a.serviceRecordID = some r ∧
      Presents signer issued e.req ⟨.workshop, r.workshopID⟩
  owned : ∀ id owner, .setCurrentOwner id owner ∈ e.changes →
    (∀ o, owner = some o → Presents signer issued e.req ⟨.owner, o⟩) ∧
      ∀ v o, d.vehicle id = some v → v.currentOwnerID = some o → Presents signer issued e.req ⟨.owner, o⟩
  registered : ∀ v, .insertVehicle v ∈ e.changes → v.currentOwnerID = none
  /-- The request speaks for one subject, so for one kind. -/
  single : ∀ s s', Presents signer issued e.req s → Presents signer issued e.req s' → s = s'

/-! ## The subject of a request -/

section
variable {signer : Signer}

theorem mem_issuedIn {es : List ApiEvent} {s : Subject} {issuedAt : Time} (h : (s, issuedAt) ∈ issuedIn signer es) :
    (58 : UInt8) ∉ s.id := by
  obtain ⟨e, -, he⟩ := List.mem_filterMap.mp h
  cases e with
  | transaction e => cases he
  | issue subject now =>
    simp only [ApiEvent.issued] at he
    cases hi : signer.issue subject now with
    | error message => simp [hi, Except.isOk, Except.toBool] at he
    | ok token =>
      obtain ⟨rfl, -⟩ : subject = s ∧ now = issuedAt := by simpa [hi, Except.isOk, Except.toBool] using he
      exact (Signer.issue_ok hi).2

theorem Presents.eq {es : List ApiEvent} {q : HttpRequest} {s s' : Subject}
    (h : Presents signer (issuedIn signer es) q s)
    (h' : Presents signer (issuedIn signer es) q s') : s = s' := by
  obtain ⟨token, issuedAt, hb, hm, hd, -⟩ := h
  obtain ⟨token', issuedAt', hb', hm', hd', -⟩ := h'
  obtain rfl : token = token' := Option.some.inj (hb.symm.trans hb')
  have hp := Option.some.inj (hd.symm.trans hd')
  exact Signer.payload_inj (mem_issuedIn hm) (mem_issuedIn hm') (Prod.mk.inj hp).1

theorem authenticated_subject {q : HttpRequest} {r : Request} (h : authenticated signer q = .ok r) : r.call = q.call ∧
    ∀ s, r.subject = some s →
      ∃ token, bearerToken q.header = some token ∧ signer.verify token q.verifiedAt = some s := by
  unfold authenticated at h
  split at h
  · obtain rfl := Except.ok.inj h
    exact ⟨rfl, fun s hs => Option.bind_eq_some_iff.mp hs⟩
  · split at h
    · obtain rfl := Except.ok.inj h
      exact ⟨rfl, fun s hs => by cases hs⟩
    · rename_i token hb
      split at h
      · cases h
      · rename_i subject hv
        obtain rfl := Except.ok.inj h
        exact ⟨rfl, fun s hs => ⟨token, hb, hv.trans hs⟩⟩

theorem require_ok {subject : Option Subject} {want : Kind} {message : String} {id : Bytes}
    (h : require subject want message = .ok id) : subject = some ⟨want, id⟩ := by
  unfold require subjectFrom at h
  cases subject with
  | none => cases h
  | some s =>
    obtain ⟨kind, sid⟩ := s
    by_cases hid : sid = []
    · simp [hid, Option.filter] at h
    · by_cases hk : kind = want
      · obtain rfl : sid = id := by simpa [hid, hk, Option.filter] using h
        rw [hk]
      · simp [hid, hk, Option.filter] at h

theorem authenticateUpload_ok {subject : Option Subject} {id : Bytes} (h : authenticateUpload subject = .ok id) :
    subject = some ⟨.workshop, id⟩ := by
  unfold authenticateUpload at h
  split at h
  · obtain rfl := Except.ok.inj h
    rfl
  · cases h

theorem presents_of_authenticated {before : List ApiEvent} {q : HttpRequest} {r : Request} {s : Subject}
    (hmac : ∀ token payload, bearerToken q.header = some token →
      Signer.decode token = some (payload, signer.sign payload) →
        ∃ s issuedAt, (s, issuedAt) ∈ issuedIn signer before ∧ payload = signer.payload s issuedAt)
    (h : authenticated signer q = .ok r) (hs : r.subject = some s) : Presents signer (issuedIn signer before) q s := by
  obtain ⟨token, hb, hv⟩ := (authenticated_subject h).2 s hs
  obtain ⟨payload, hd, hread⟩ := Signer.verify_some hv
  obtain ⟨s₀, issuedAt, hm, rfl⟩ := hmac token payload hb hd
  obtain ⟨rfl, hle⟩ := Signer.read_payload (mem_issuedIn hm) hread
  exact ⟨token, issuedAt, hb, hm, hd, hle⟩

theorem Presents.mono {issued issued' : List (Subject × Time)} {q : HttpRequest} {s : Subject}
    (h : Presents signer issued q s) (hsub : ∀ p ∈ issued, p ∈ issued') : Presents signer issued' q s := by
  obtain ⟨token, issuedAt, hb, hm, hd, hle⟩ := h
  exact ⟨token, issuedAt, hb, hsub _ hm, hd, hle⟩

end

/-! ## What a commit writes -/

section
variable {w : Written}

theorem Written.mem_insertServiceRecord {r : ServiceRecordRow} (h : .insertServiceRecord r ∈ w.changes) :
    r = w.record := by
  unfold Written.changes Written.mechanicChanges Written.operationChanges Written.partChanges
    Written.replacedChanges at h
  cases hw : w.replaced <;> simpa [hw] using h

theorem Written.mem_setSupersededBy {id new : UUID} (h : .setSupersededBy id new ∈ w.changes) :
    ∃ rows, w.replaced = some (id, rows) := by
  unfold Written.changes Written.mechanicChanges Written.operationChanges Written.partChanges
    Written.replacedChanges at h
  cases hw : w.replaced with
  | none => simp [hw] at h
  | some p =>
    obtain ⟨rfl, -⟩ : id = p.1 ∧ new = w.record.id := by simpa [hw] using h
    exact ⟨p.2, rfl⟩

theorem Written.mem_insertAttachment {a : AttachmentRow} (h : .insertAttachment a ∈ w.changes) :
    ∃ original rows, w.replaced = some (original, rows) ∧ a ∈ rows := by
  unfold Written.changes Written.mechanicChanges Written.operationChanges Written.partChanges
    Written.replacedChanges at h
  cases hw : w.replaced with
  | none => simp [hw] at h
  | some p => exact ⟨p.1, p.2, rfl, by simpa [hw] using h⟩

theorem Written.not_mem_vehicle (w : Written) :
    (∀ id owner, .setCurrentOwner id owner ∉ w.changes) ∧ ∀ v, .insertVehicle v ∉ w.changes := by
  unfold Written.changes Written.mechanicChanges Written.operationChanges Written.partChanges
    Written.replacedChanges
  cases hw : w.replaced <;> simp

theorem Writes.view_record {now : Time} {input : CreateInput} {rev : Option Revision} {σ : SqlLocal} {d : DB}
    (h : Writes now input rev w σ d) (hd : Schema d) : ∃ r,
      (w.changes.foldl DB.apply d).serviceRecord w.record.id = some r ∧ r.workshopID = input.workshopID := by
  have hd' : Schema (w.changes.foldl DB.apply d) := schema_view _ _ hd (h.lawful hd)
  have hmem : ∃ r ∈ (w.changes.foldl DB.apply d).serviceRecords, r.id = w.record.id ∧
      r.workshopID = w.record.workshopID := by
    rw [w.view]
    cases w.replaced with
    | none => exact ⟨w.record, List.mem_append_right _ (List.mem_singleton_self _), rfl, rfl⟩
    | some p => exact ⟨_, List.mem_map_of_mem (List.mem_append_right _ (List.mem_singleton_self _)), by simp, by simp⟩
  obtain ⟨r, hr, hid, hws⟩ := hmem
  exact ⟨r, hid ▸ hd'.serviceRecord_of_mem hr, hws.trans h.workshopID⟩

end

structure ActsFor (subject : Option Subject) (d : DB) (changes : List Change) : Prop where
  inserted : ∀ r, .insertServiceRecord r ∈ changes → subject = some ⟨.workshop, r.workshopID⟩
  superseded : ∀ id new, .setSupersededBy id new ∈ changes → ∃ r, d.serviceRecord id = some r ∧
    subject = some ⟨.workshop, r.workshopID⟩
  attached : ∀ a, .insertAttachment a ∈ changes → ∃ r,
    (changes.foldl DB.apply d).serviceRecord a.serviceRecordID = some r ∧ subject = some ⟨.workshop, r.workshopID⟩
  owned : ∀ id owner, .setCurrentOwner id owner ∈ changes →
    (∀ o, owner = some o → subject = some ⟨.owner, o⟩) ∧
      ∀ v o, d.vehicle id = some v → v.currentOwnerID = some o → subject = some ⟨.owner, o⟩
  registered : ∀ v, .insertVehicle v ∈ changes → v.currentOwnerID = none

theorem Writes.actsFor {now : Time} {input : CreateInput} {rev : Option Revision} {w : Written} {σ : SqlLocal} {d : DB}
    (h : Writes now input rev w σ d) (hd : Schema d) (hrev : ∀ r, rev = some r → r.workshopID = input.workshopID) :
    ActsFor (some ⟨.workshop, input.workshopID⟩) d w.changes where
  inserted r hr := by rw [Written.mem_insertServiceRecord hr, h.workshopID]
  superseded id new hc := by
    obtain ⟨rows, hw⟩ := Written.mem_setSupersededBy hc
    obtain ⟨r, ids, o, hr, -, -, ho, -, hws, -⟩ := h.original hw
    exact ⟨o, ho, by rw [hws, hrev r hr]⟩
  attached a ha := by
    obtain ⟨original, rows, hw, hrow⟩ := Written.mem_insertAttachment ha
    obtain ⟨r, ids, o, -, -, rfl, -⟩ := h.original hw
    obtain ⟨n, hn, hws⟩ := h.view_record hd
    exact ⟨n, by rw [carriedRows_recordID a hrow]; exact hn, by rw [hws]⟩
  owned id owner hc := absurd hc (w.not_mem_vehicle.1 id owner)
  registered v hc := absurd hc (w.not_mem_vehicle.2 v)

theorem Done.actsFor {P : Platform} {q : Request} {a : Reply} {σ : SqlLocal} {d : DB} (h : Done P q a σ d)
    (hd : Schema d) : ActsFor q.subject d σ.changes := by
  cases h with
  | create session writes =>
    have hact := writes.actsFor hd (fun r hr => by cases hr)
    rw [writes.changes, require_ok session]
    exact hact
  | revise session found writes =>
    have hact := writes.actsFor hd (fun r hr => by rw [← Option.some.inj hr]; rfl)
    rw [writes.changes, require_ok session]
    exact hact
  | upload session form attaches =>
    obtain ⟨r, hr, hws⟩ := attaches.record
    rw [attaches.changes, authenticateUpload_ok session]
    refine ⟨by simp, by simp, fun a ha => ?_, by simp, by simp⟩
    obtain rfl : a = _ := by simpa using ha
    exact ⟨r, hr, by rw [hws]⟩
  | register registers =>
    rw [registers.changes]
    refine ⟨by simp, by simp, by simp, by simp, fun v hv => ?_⟩
    obtain rfl : v = _ := by simpa using hv
    rfl
  | claim session plate suffix claims =>
    rw [claims.changes, require_ok session]
    refine ⟨by simp, by simp, by simp, fun id owner hc => ?_, by simp⟩
    obtain ⟨rfl, rfl⟩ : id = _ ∧ owner = _ := by simpa using hc
    refine ⟨fun o ho => by rw [Option.some.inj ho], fun v o hv ho => ?_⟩
    obtain rfl := Option.some.inj (claims.vehicle.symm.trans hv)
    rcases claims.owner with hown | hown
    · rw [hown] at ho; cases ho
    · rw [Option.some.inj (hown.symm.trans ho)]
  | release session releases =>
    rw [releases.changes, require_ok session]
    refine ⟨by simp, by simp, by simp, fun id owner hc => ?_, by simp⟩
    obtain ⟨rfl, rfl⟩ : id = _ ∧ owner = _ := by simpa using hc
    refine ⟨fun o ho => (by cases ho), fun v o hv ho => ?_⟩
    obtain rfl := Option.some.inj (releases.vehicle.symm.trans hv)
    rw [Option.some.inj (releases.owner.symm.trans ho)]

/-! ## Over every run -/

def Admitted (P : Platform) (signer : Signer) (q : HttpRequest) (a : Reply) (σ : SqlLocal) (d : DB) : Prop :=
  ∃ r, authenticated signer q = .ok r ∧ Done P r a σ d

theorem api_discipline (P : Platform) (signer : Signer) : Discipline (api P signer) pg (Admitted P signer) where
  start _ d _ := wp_withSession fun r hr => wp_mono (fun _ _ _ h => ⟨r, hr, h⟩) _ _ _ (wp_serve P r d)
  stable _ _ _ _ _ := fun ⟨r, hr, h⟩ hk hi => ⟨r, hr, h.stable hk hi⟩
  keep _ _ _ _ := fun ⟨_, _, h⟩ hi => (server_discipline P).keep _ _ _ _ h hi
  guar _ _ _ _ _ := fun ⟨_, _, h⟩ hi hH => (server_discipline P).guar _ _ _ _ _ h hi hH

theorem begun (P : Platform) (signer : Signer) (init : SoundDB) (es : List ApiEvent) : ∀ t tx,
    (apiRun P signer init es).txs t = some tx →
      ∃ before after, es = before ++ .transaction (.begin t tx.req) :: after := by
  induction es using List.reverseRecOn with
  | nil => exact fun t tx h => by cases h
  | append_singleton es e ih =>
    have old : ∀ t req, (∃ before after, es = before ++ ApiEvent.transaction (.begin t req) :: after) →
        ∃ before after, es ++ [e] = before ++ .transaction (.begin t req) :: after :=
      fun t req ⟨before, after, h⟩ => ⟨before, after ++ [e], by simp [h]⟩
    intro t tx htx
    cases e with
    | issue s now =>
      have hrun : apiRun P signer init (es ++ [.issue s now]) = apiRun P signer init es := by
        simp [apiRun, ApiEvent.transaction?, List.filterMap_append, List.filterMap_cons]
      exact old t tx.req (ih t tx (hrun ▸ htx))
    | transaction e =>
      have hrun : apiRun P signer init (es ++ [.transaction e]) = (api P signer).next (apiRun P signer init es) e := by
        simp [apiRun, ApiEvent.transaction?, List.filterMap_append, Machine.run_append]
      rw [hrun] at htx
      rcases Machine.txs_next _ htx with ⟨tx', htx', hreq⟩ | rfl
      · exact old t tx.req (hreq ▸ ih t tx' htx')
      · exact ⟨es, [], rfl⟩

/-- Whatever was issued and requested, in any order and with any headers, a
commit at the end of the run writes for the subject whose token its request
presented. -/
theorem authorised (P : Platform) (signer : Signer) (init : SoundDB) (es : List ApiEvent) (hmac : IdealMac signer es)
    (t : Nat) (x : Entry Stmt DB Change HttpRequest Reply)
    (hx : Machine.committed (apiRun P signer init es) (.commit t) = some x) :
    Authorised signer (issuedIn signer es) (apiRun P signer init es).db x := by
  have hg : Good (api P signer) pg (Admitted P signer) (apiRun P signer init es) :=
    (good_init init.schema).run (api_discipline P signer) _
  obtain ⟨_, -, ⟨r, hr, hdone⟩, -⟩ := hg.done hx
  obtain ⟨_, -, htx, -⟩ := (api P signer).committed_some hx
  obtain ⟨before, after, hes⟩ := begun P signer init es _ _ htx
  have hact := hdone.actsFor hg.inv
  -- The token was verified when the transaction began.
  have hp : ∀ s, r.subject = some s → Presents signer (issuedIn signer es) x.req s := fun s hs =>
    (presents_of_authenticated (hmac before _ _ after hes) hr hs).mono fun p hp => by
      rw [hes, issuedIn, List.filterMap_append]
      exact List.mem_append_left _ hp
  exact {
    inserted := fun row hrow => hp _ (hact.inserted row hrow)
    superseded := fun id new hc => by
      obtain ⟨o, ho, hs⟩ := hact.superseded id new hc
      exact ⟨o, ho, hp _ hs⟩
    attached := fun a ha => by
      obtain ⟨o, ho, hs⟩ := hact.attached a ha
      exact ⟨o, ho, hp _ hs⟩
    owned := fun id owner hc =>
      ⟨fun o ho => hp _ ((hact.owned id owner hc).1 o ho),
        fun v o hv ho => hp _ ((hact.owned id owner hc).2 v o hv ho)⟩
    registered := hact.registered
    single := fun s s' hs hs' => hs.eq hs' }

/-! ## A session of one hour -/

def sampleHeader : Bytes :=
  match sampleSigner.issue ⟨.workshop, uuid "1"⟩ 0 with
  | .ok token => ascii "Bearer " ++ token
  | .error _ => []

def signedIn : List ApiEvent :=
  [.issue ⟨.workshop, uuid "1"⟩ 0,
    .transaction (.begin 0 ⟨sampleHeader, 0, 0, (createRequest "1" 100 false).call⟩)] ++
    List.replicate 4 (.transaction (.exec 0 fun _ => uuid "7"))

theorem signedIn_idealMac : IdealMac sampleSigner signedIn := by
  intro before t q after hes token payload hb hd
  match before, hes with
  | [], hes => simp [signedIn] at hes
  | [e], hes =>
    obtain ⟨rfl, ⟨-, rfl⟩, -⟩ : ApiEvent.issue ⟨.workshop, uuid "1"⟩ 0 = e ∧ (0 = t ∧ _ = q) ∧ _ := by
      simpa [signedIn] using hes
    have hp : (bearerToken sampleHeader).bind Signer.decode =
        some (sampleSigner.payload ⟨.workshop, uuid "1"⟩ 0,
          sampleSigner.sign (sampleSigner.payload ⟨.workshop, uuid "1"⟩ 0)) := by
      decide +kernel
    rw [hb, Option.bind_some, hd] at hp
    exact ⟨⟨.workshop, uuid "1"⟩, 0, by decide +kernel, (Prod.mk.inj (Option.some.inj hp)).1⟩
  | e :: e' :: before, hes =>
    obtain ⟨-, -, hrest⟩ : _ ∧ _ ∧ List.replicate 4 _ = before ++ .transaction (.begin t q) :: after := by
      simpa only [signedIn, List.cons_append, List.nil_append, List.cons.injEq] using hes
    have hm : ApiEvent.transaction (.begin t q) ∈ List.replicate 4 (.transaction (.exec 0 fun _ => uuid "7")) := by
      rw [hrest]
      simp
    simpa using List.eq_of_mem_replicate hm

theorem signedIn_authorised : ∃ x, Machine.committed (apiRun plain sampleSigner garage signedIn) (.commit 0) = some x ∧
    Authorised sampleSigner (issuedIn sampleSigner signedIn) (apiRun plain sampleSigner garage signedIn).db x := by
  have hsome : (Machine.committed (apiRun plain sampleSigner garage signedIn) (.commit 0)).isSome = true := by
    decide +kernel
  obtain ⟨x, hx⟩ := Option.isSome_iff_exists.mp hsome
  exact ⟨x, hx, authorised plain sampleSigner garage signedIn signedIn_idealMac 0 x hx⟩

end Mototeca
