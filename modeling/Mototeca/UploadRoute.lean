import Mathlib.Algebra.Order.BigOperators.Group.List
import Mototeca.Atomicity
import Mototeca.Attachments
import Mototeca.Authorisation

/-!
# The upload route and its two stores

`UploadHandler.ServeHTTP` puts a file into object storage and then links it to
its record in Postgres. Whatever fails and whatever others commit meanwhile, the
request leaves an object for each row it inserted and no other, once the orphan
is removed.
-/

namespace Mototeca

open ReadCommitted

/-! ## Object storage -/

def maxPhotoBytes : Nat := 8 <<< 20

def allowedTypes : List (String × String) :=
  [("image/jpeg", ".jpg"), ("image/png", ".png"), ("image/webp", ".webp"), ("application/pdf", ".pdf")]

inductive PutError where
  | unsupportedType
  | size
  | storing
  deriving DecidableEq

/-- What the route takes from the bucket, from `net/http` and from the order of a Go map. An object goes by its URL. -/
structure Storage where
  /-- The URL of a new object of a record, whose name is a random uuid and an extension. -/
  newURL : UUID → String → List String → String
  newURL_fresh : ∀ recordID extension objects, newURL recordID extension objects ∉ objects
  detectContentType : Bytes → String
  supportedTypes : List String
  supportedTypes_perm : supportedTypes.Perm (allowedTypes.map (·.1))

structure FilePart where
  content : Bytes
  /-- Whether it can be read and rewound. -/
  readable : Bool
  deriving DecidableEq

namespace Storage

variable (S : Storage)

/-- `Store.Put`: the URL of the object and the objects there are then. -/
def put (recordID : UUID) (contentType : String) (size : Nat) (fails : Bool) (objects : List String) :
    Except PutError (String × List String) :=
  match allowedTypes.find? (·.1 == contentType) with
  | none => .error .unsupportedType
  | some (_, extension) =>
    if size = 0 ∨ maxPhotoBytes < size then .error .size
    else if fails then .error .storing
    else .ok (S.newURL recordID extension objects, objects ++ [S.newURL recordID extension objects])

/-- `sniffContentType`. Reading the head of an empty file fails. -/
def sniffContentType (file : FilePart) : Option String :=
  if !file.readable || file.content.isEmpty then none else some (S.detectContentType (file.content.take 512))

end Storage

/-! ## The route -/

/-- What `ParseMultipartForm` makes of the body, and the form's fields. -/
inductive UploadBody where
  | tooLarge
  | malformed
  | form (kind phase : String) (file : Option FilePart)
  deriving DecidableEq

structure UploadHTTPRequest where
  authorization : Bytes
  pathID : Bytes
  body : UploadBody
  deriving DecidableEq

/-- What fails during a request. Its database statements are numbered from 0. -/
structure UploadFaults where
  statement : Nat → Bool
  put : Bool
  begin : Bool
  commit : Bool
  delete : Bool

structure UploadForm where
  kind : String
  phase : Option String
  contentType : String
  size : Nat
  deriving DecidableEq

structure UploadReply where
  id : UUID
  url : String
  kind : String
  phase : Option String
  deriving DecidableEq

structure UploadOutcome where
  answer : Except Failure UploadReply
  objects : List String
  changes : List Change
  /-- The record that an object was put for, and the number of the next statement then. -/
  stored : Option (UUID × Nat)

/-- The HTTP status of a Connect error. -/
def Code.status : Code → Nat
  | .invalidArgument | .failedPrecondition => 400
  | .unauthenticated => 401
  | .permissionDenied => 403
  | .notFound => 404
  | .alreadyExists => 409
  | .resourceExhausted => 429
  | .internal => 500

def Failure.status : Failure → Nat
  | .http status _ _ => status
  | .connect code _ => code.status

def UploadOutcome.status (r : UploadOutcome) : Nat :=
  match r.answer with
  | .ok _ => 200
  | .error e => e.status

def putError (S : Storage) : PutError → Failure
  | .unsupportedType => .http 400 "invalid_argument" ("tipo não suportado; envie " ++ ", ".intercalate S.supportedTypes)
  | _ => .http 500 "internal" "falha ao guardar o arquivo"

def linkError : WriteError → Failure
  | .record e => uploadError e
  | _ => .http 500 "internal" "falha ao vincular o arquivo"

def wirePhase (P : Platform) (phase : Option String) : Option String :=
  phase.map fun p => "PHOTO_PHASE_" ++ mapUpper P.toUpper p

namespace UploadHandler

def authenticate (signer : Signer) (verifiedAt : Time) (authorization : Bytes) : Except Failure Bytes :=
  authenticateUpload ((bearerToken authorization).bind fun token => signer.verify token verifiedAt)

/-- `ServeHTTP` from the body to the content type. -/
def readForm (S : Storage) : UploadBody → Except Failure UploadForm
  | .tooLarge => .error (.http 413 "invalid_argument"
      ("arquivo acima do limite de " ++ toString (maxPhotoBytes >>> 20) ++ " MiB"))
  | .malformed => .error (.http 400 "invalid_argument" "envie o arquivo como multipart/form-data")
  | .form kind phase file =>
    match attachmentKind kind phase with
    | .error message => .error (.http 400 "invalid_argument" message)
    | .ok (kind, phase) =>
      match file with
      | none => .error (.http 400 "invalid_argument" "campo \"file\" é obrigatório")
      | some file =>
        match S.sniffContentType file with
        | none => .error (.http 400 "invalid_argument" "não foi possível ler o arquivo")
        | some contentType => .ok ⟨kind, phase, contentType, file.content.length⟩

section
variable (ids : Stmt → Nat → UUID) (ds : Nat → DB) (faults : UploadFaults) (now : Time)

/-- `Repository.AddAttachment`, whose first statement has the number `n`. -/
def addAttachment (workshopID recordID : Bytes) (a : Attachment) (n : Nat) :
    Except WriteError (Attachment × List Change) :=
  if validID recordID && faults.begin then .error .begin
  else
    match (Mototeca.addAttachment now workshopID recordID a).execAt DB.apply RecordError.sql ids ds
        faults.statement n [] with
    | .error e => .error (.record e)
    | .ok (stored, changes, _) => if faults.commit then .error .commit else .ok (stored, changes)

def removeOrphan (url : String) (objects : List String) : List String :=
  if faults.delete then objects else objects.filter (· != url)

/-- `ServeHTTP` from the file to the response. -/
def storeFile (P : Platform) (S : Storage) (workshopID recordID : Bytes) (form : UploadForm) (n : Nat)
    (objects : List String) : UploadOutcome :=
  match S.put recordID form.contentType form.size faults.put objects with
  | .error e => ⟨.error (putError S e), objects, [], none⟩
  | .ok (url, objects) =>
    match addAttachment ids ds faults now workshopID recordID ⟨[], url, form.kind, form.phase⟩ n with
    | .error e => ⟨.error (linkError e), removeOrphan faults url objects, [], some (recordID, n)⟩
    | .ok (stored, changes) =>
      ⟨.ok ⟨stored.id, stored.url, stored.kind, wirePhase P stored.phase⟩, objects, changes, some (recordID, n)⟩

def serveHTTP (P : Platform) (S : Storage) (signer : Signer) (verifiedAt : Time) (req : UploadHTTPRequest)
    (objects : List String) : UploadOutcome :=
  match authenticate signer verifiedAt req.authorization with
  | .error e => ⟨.error e, objects, [], none⟩
  | .ok workshopID =>
    match (findByID P req.pathID).execAt DB.apply RecordError.sql ids ds faults.statement 0 [] with
    | .error _ => ⟨.error (.http 500 "internal" "falha ao enviar o arquivo"), objects, [], none⟩
    | .ok (none, _, _) => ⟨.error (.http 404 "not_found" "registro não encontrado"), objects, [], none⟩
    | .ok (some record, _, n) =>
      if record.workshopID ≠ workshopID then
        ⟨.error (.http 404 "not_found" "registro não encontrado"), objects, [], none⟩
      else
        match readForm S req.body with
        | .error e => ⟨.error e, objects, [], none⟩
        | .ok form => storeFile ids ds faults now P S workshopID record.id form n objects

end

/-! ## Every exit -/

/-- The objects grew by those of the rows inserted, one or none, and the answer says which. -/
structure InStep (objects : List String) (r : UploadOutcome) (rows : List AttachmentRow) : Prop where
  changes : r.changes = rows.map .insertAttachment
  atMostOne : rows.length ≤ 1
  objects : r.objects = objects ++ rows.map (·.url)
  status : r.status = 200 ↔ rows.length = 1

theorem inStep_refused {objects : List String} {e : Failure} {stored : Option (UUID × Nat)} (he : e.status ≠ 200) :
    InStep objects ⟨.error e, objects, [], stored⟩ [] where
  changes := rfl
  atMostOne := Nat.zero_le 1
  objects := (List.append_nil _).symm
  status := ⟨fun h => absurd h he, fun h => by cases h⟩

theorem authenticate_status {signer : Signer} {verifiedAt : Time} {authorization : Bytes} {e : Failure}
    (h : authenticate signer verifiedAt authorization = .error e) : e.status ≠ 200 := by
  unfold authenticate authenticateUpload at h
  split at h
  · cases h
  · obtain rfl := Except.error.inj h
    decide

theorem readForm_status {S : Storage} {body : UploadBody} {e : Failure} (h : readForm S body = .error e) :
    e.status ≠ 200 := by
  unfold readForm at h
  repeat' split at h
  all_goals cases h <;> simp [Failure.status]

theorem putError_status (S : Storage) (e : PutError) : (putError S e).status ≠ 200 := by
  cases e <;> simp [putError, Failure.status]

theorem linkError_status (e : WriteError) : (linkError e).status ≠ 200 := by
  cases e with
  | record e => cases e <;> simp [linkError, uploadError, Failure.status]
  | _ => simp [linkError, Failure.status]

theorem put_ok {S : Storage} {recordID : UUID} {contentType : String} {size : Nat} {fails : Bool}
    {objects objects' : List String} {url : String}
    (h : S.put recordID contentType size fails objects = .ok (url, objects')) :
    url ∉ objects ∧ objects' = objects ++ [url] := by
  unfold Storage.put at h
  split at h
  · cases h
  · split at h
    · cases h
    · split at h
      · cases h
      · obtain ⟨rfl, rfl⟩ := Prod.mk.inj (Except.ok.inj h)
        exact ⟨S.newURL_fresh _ _ _, rfl⟩

theorem removeOrphan_put {faults : UploadFaults} (hdelete : faults.delete = false) {url : String}
    {objects : List String} (hurl : url ∉ objects) : removeOrphan faults url (objects ++ [url]) = objects := by
  have hkeep : objects.filter (· != url) = objects :=
    List.filter_eq_self.mpr fun u hu => bne_iff_ne.mpr fun he => hurl (he ▸ hu)
  simp [removeOrphan, hdelete, hkeep]

end UploadHandler

/-! ## While others commit -/

/-- The rules of one who holds no lock. -/
def unlocked : Rules DB Key :=
  ⟨Schema, fun _ => Keeps fun _ => False, fun _ => Keeps.refl _, fun h h' => h.trans h'⟩

instance : Orderly unlocked := ⟨fun _ h => h, fun _ _ _ h => h⟩

theorem run_keeps (P : Platform) (es : List ServerEvent) {s : ServerState} (hg : Good (server P) pg (Done P) s) :
    Keeps (fun _ => False) s.db ((server P).run s es).db :=
  run_history (server_discipline P) (J := fun _ d => Keeps (fun _ => False) s.db d)
    (fun _ _ _ _ _ hd h hJ => hJ.trans (h.keeps hd)) es hg (Keeps.refl _ _)

/-- The database at each statement of a request before which `others` happened, statement by statement. -/
def world (P : Platform) (init : SoundDB) (others : Nat → List ServerEvent) (n : Nat) : DB :=
  (serverRun P init ((List.range (n + 1)).flatMap others)).db

section
variable (P : Platform) (init : SoundDB) (others : Nat → List ServerEvent)

theorem world_schema (n : Nat) : Schema (world P init others n) := (serverRun_good P init _).inv

theorem world_keeps (n : Nat) : Keeps (fun _ => False) (world P init others n) (world P init others (n + 1)) := by
  have hlater : world P init others (n + 1) =
      ((server P).run (serverRun P init ((List.range (n + 1)).flatMap others)) (others (n + 1))).db := by
    rw [world, List.range_succ, List.flatMap_append, List.flatMap_singleton, serverRun, Machine.run_append]
    rfl
  rw [hlater]
  exact run_keeps P _ (serverRun_good P init _)

variable {P init others}

/-- A record that `findByID` loaded is in the table from then on. -/
theorem findByID_world {id : Bytes} {ids : Stmt → Nat → UUID} {fault : Nat → Bool} {record : ServiceRecord}
    {changes : List Change} {n : Nat}
    (h : (findByID P id).execAt DB.apply RecordError.sql ids (world P init others) fault 0 [] =
      .ok (some record, changes, n)) :
    changes = [] ∧ ∃ row, (world P init others n).serviceRecord record.id = some row ∧
      row.workshopID = record.workshopID := by
  have hwp : wp DB.apply unlocked _ (findByID P id) .start (world P init others 0) := wp_findByID P id rfl
  obtain ⟨σ, d, ⟨hnone, hfound⟩, rfl, hkeeps⟩ :=
    execAt_sound (world_schema P init others) (fun _ => world_keeps P init others) _ 0 .start _ hwp
      (fun _ => Keeps.refl _ _) h
  have hidentifies : Identifies id record σ (world P init others n) := (hfound record rfl).keeps (hkeeps fun _ => False)
  obtain ⟨hid, row, _, hrow, hworkshop, -⟩ := hidentifies
  exact ⟨hnone, row, hid ▸ hrow, hworkshop⟩

end

namespace UploadHandler

section
variable {P : Platform} {S : Storage} {init : SoundDB} {others : Nat → List ServerEvent} {ids : Stmt → Nat → UUID}
  {faults : UploadFaults} {now : Time} {objects : List String}

theorem addAttachment_exec {ds : Nat → DB} {workshopID recordID : Bytes} {a stored : Attachment} {n : Nat}
    {changes : List Change} (h : addAttachment ids ds faults now workshopID recordID a n = .ok (stored, changes)) :
    ∃ n', (Mototeca.addAttachment now workshopID recordID a).execAt DB.apply RecordError.sql ids ds faults.statement n []
      = .ok (stored, changes, n') := by
  unfold addAttachment at h
  split at h
  · cases h
  · split at h
    · cases h
    · rename_i stored' changes' n' hexec
      split at h
      · cases h
      · obtain ⟨rfl, rfl⟩ := Prod.mk.inj (Except.ok.inj h)
        exact ⟨n', hexec⟩

theorem addAttachment_ok {workshopID recordID : Bytes} {a stored : Attachment} {n : Nat} {changes : List Change}
    (h : addAttachment ids (world P init others) faults now workshopID recordID a n = .ok (stored, changes)) :
    changes = [.insertAttachment ⟨stored.id, canonicalID recordID, a.url, a.kind, a.phase, now⟩] := by
  obtain ⟨n', hexec⟩ := addAttachment_exec h
  have hwp : wp DB.apply unlocked _ (Mototeca.addAttachment now workshopID recordID a) .start
      (world P init others n) := wp_addAttachment_inserts now workshopID recordID a rfl
  obtain ⟨σ, d, hinserts, rfl, -⟩ :=
    execAt_sound (world_schema P init others) (fun _ => world_keeps P init others) _ n .start _ hwp
      (fun _ => Keeps.refl _ _) hexec
  exact hinserts

theorem storeFile_inStep (hdelete : faults.delete = false) (workshopID recordID : Bytes) (form : UploadForm) (n : Nat) :
    ∃ rows, InStep objects
      (storeFile ids (world P init others) faults now P S workshopID recordID form n objects) rows := by
  unfold storeFile
  cases hput : S.put recordID form.contentType form.size faults.put objects with
  | error e => exact ⟨[], inStep_refused (putError_status S e)⟩
  | ok p =>
    obtain ⟨url, objects'⟩ := p
    obtain ⟨hurl, rfl⟩ := put_ok hput
    dsimp only
    split
    · rename_i e _
      rw [removeOrphan_put hdelete hurl]
      exact ⟨[], inStep_refused (linkError_status e)⟩
    · rename_i stored changes hadd
      obtain rfl := addAttachment_ok hadd
      exact ⟨[⟨stored.id, canonicalID recordID, url, form.kind, form.phase, now⟩], {
        changes := rfl
        atMostOne := le_rfl
        objects := rfl
        status := ⟨fun _ => rfl, fun _ => rfl⟩ }⟩

theorem storeFile_stored {workshopID recordID : Bytes} {form : UploadForm} {n : Nat} {p : UUID × Nat}
    (h : p ∈ (storeFile ids (world P init others) faults now P S workshopID recordID form n objects).stored) :
    p = (recordID, n) := by
  unfold storeFile at h
  split at h
  · cases h
  · split at h
    · exact (Option.mem_some.mp h).symm
    · exact (Option.mem_some.mp h).symm

theorem readForm_ok {body : UploadBody} {form : UploadForm} (h : readForm S body = .ok form) :
    ∃ kind phase file,
      body = .form kind phase (some file) ∧ attachmentKind kind phase = .ok (form.kind, form.phase) := by
  unfold readForm at h
  split at h
  · cases h
  · cases h
  · rename_i kind phase file
    split at h
    · cases h
    · rename_i kind' phase' hkind
      split at h
      · cases h
      · rename_i file
        split at h
        · cases h
        · obtain rfl := Except.ok.inj h
          exact ⟨kind, phase, file, rfl, hkind⟩

theorem storeFile_ok {workshopID recordID : Bytes} {form : UploadForm} {n : Nat} {reply : UploadReply}
    (h : (storeFile ids (world P init others) faults now P S workshopID recordID form n objects).answer = .ok reply) :
    ∃ url stored n', reply = ⟨stored.id, stored.url, stored.kind, wirePhase P stored.phase⟩ ∧
      (Mototeca.addAttachment now workshopID recordID ⟨[], url, form.kind, form.phase⟩).execAt DB.apply RecordError.sql
        ids (world P init others) faults.statement n [] = .ok (stored,
          (storeFile ids (world P init others) faults now P S workshopID recordID form n objects).changes, n') := by
  unfold storeFile at h ⊢
  split at h
  · cases h
  · rename_i url objects' hput
    split at h
    · cases h
    · rename_i stored changes hadd
      obtain ⟨n', hexec⟩ := addAttachment_exec hadd
      exact ⟨url, stored, n', (Except.ok.inj h).symm, hexec⟩

/-- A request answered with the new attachment has run the transaction `upload`. -/
theorem serveHTTP_upload {signer : Signer} {verifiedAt : Time} {req : UploadHTTPRequest} {reply : UploadReply}
    (broken : Stmt → Failure)
    (h : (serveHTTP ids (world P init others) faults now P S signer verifiedAt req objects).answer = .ok reply) :
    ∃ workshopID q stored n, authenticate signer verifiedAt req.authorization = .ok workshopID ∧
      q.pathID = req.pathID ∧ reply = ⟨stored.id, stored.url, stored.kind, wirePhase P stored.phase⟩ ∧
      (upload P now workshopID q).execAt DB.apply broken ids (world P init others) faults.statement 0 [] =
        .ok (stored, (serveHTTP ids (world P init others) faults now P S signer verifiedAt req objects).changes, n) := by
  unfold serveHTTP at h ⊢
  cases hauth : authenticate signer verifiedAt req.authorization with
  | error e =>
    rw [hauth] at h
    cases h
  | ok workshopID =>
    rw [hauth] at h
    dsimp only at h ⊢
    split at h
    · cases h
    · cases h
    · rename_i record changes n hfound
      split at h
      · cases h
      · rename_i hown
        split at h
        · cases h
        · rename_i form hform
          obtain ⟨kind, phase, file, hbody, hkind⟩ := readForm_ok hform
          obtain ⟨url, stored, n', hreply, hadd⟩ := storeFile_ok h
          obtain ⟨rfl, -⟩ := findByID_world hfound
          refine ⟨workshopID, ⟨req.pathID, kind, phase, url⟩, stored, n', rfl, rfl, hreply, ?_⟩
          rw [if_neg hown, upload, Prog.bind_eq, Prog.execAt_bind _ _ _ _ _ _ (Prog.execAt_mapFail _ _ _ _ _ _ hfound)]
          dsimp only
          rw [if_neg hown, hkind]
          exact Prog.execAt_mapFail _ _ _ _ _ _ hadd

theorem storeFile_put_first {workshopID recordID : Bytes} {form : UploadForm} {n : Nat} {a : AttachmentRow}
    (h : .insertAttachment a ∈
      (storeFile ids (world P init others) faults now P S workshopID recordID form n objects).changes) :
    (storeFile ids (world P init others) faults now P S workshopID recordID form n objects).stored = some (recordID, n) ∧
      ∃ objects', S.put recordID form.contentType form.size faults.put objects = .ok (a.url, objects') := by
  unfold storeFile at h ⊢
  cases hput : S.put recordID form.contentType form.size faults.put objects with
  | error e =>
    rw [hput] at h
    cases h
  | ok p =>
    obtain ⟨url, objects'⟩ := p
    rw [hput] at h
    dsimp only at h ⊢
    cases hadd : addAttachment ids (world P init others) faults now workshopID recordID ⟨[], url, form.kind, form.phase⟩ n with
    | error e =>
      rw [hadd] at h
      cases h
    | ok p =>
      obtain ⟨stored, changes⟩ := p
      rw [hadd] at h
      obtain rfl := addAttachment_ok hadd
      obtain rfl := Change.insertAttachment.inj (List.mem_singleton.mp h)
      exact ⟨rfl, objects', rfl⟩

/-- The file of a row that a request inserts was put before the transaction that inserts
it, whose first statement has the number that `stored` gives. -/
theorem serveHTTP_put_first {signer : Signer} {verifiedAt : Time} {req : UploadHTTPRequest} {a : AttachmentRow}
    (h : .insertAttachment a ∈
      (serveHTTP ids (world P init others) faults now P S signer verifiedAt req objects).changes) :
    ∃ recordID form n objects',
      (serveHTTP ids (world P init others) faults now P S signer verifiedAt req objects).stored = some (recordID, n) ∧
        S.put recordID (UploadForm.contentType form) form.size faults.put objects = .ok (a.url, objects') := by
  unfold serveHTTP at h ⊢
  cases hauth : authenticate signer verifiedAt req.authorization with
  | error e =>
    rw [hauth] at h
    cases h
  | ok workshopID =>
    rw [hauth] at h
    dsimp only at h ⊢
    split at h
    · cases h
    · cases h
    · rename_i record changes n hfound
      split at h
      · cases h
      · rename_i hown
        split at h
        · cases h
        · rename_i form hform
          obtain ⟨hstored, objects', hput⟩ := storeFile_put_first h
          exact ⟨record.id, form, n, objects', by simp only [if_neg hown]; exact hstored, hput⟩

end

/-- Whatever fails but the delete, and whatever others commit meanwhile, objects
and rows stay in step, and an object is put only for a record of the caller. -/
theorem serveHTTP_inStep (P : Platform) (S : Storage) (signer : Signer) (init : SoundDB)
    (others : Nat → List ServerEvent) (ids : Stmt → Nat → UUID) (faults : UploadFaults) (now verifiedAt : Time)
    (req : UploadHTTPRequest) (objects : List String) (hdelete : faults.delete = false) :
    let r := serveHTTP ids (world P init others) faults now P S signer verifiedAt req objects
    (∃ rows, InStep objects r rows) ∧
      ∀ p ∈ r.stored, ∃ workshopID row, authenticate signer verifiedAt req.authorization = .ok workshopID ∧
        (world P init others p.2).serviceRecord p.1 = some row ∧ row.workshopID = workshopID := by
  intro r
  simp only [r, serveHTTP]
  cases hauth : authenticate signer verifiedAt req.authorization with
  | error e => exact ⟨⟨[], inStep_refused (authenticate_status hauth)⟩, nofun⟩
  | ok workshopID =>
    dsimp only
    split
    · exact ⟨⟨[], inStep_refused (by simp [Failure.status])⟩, nofun⟩
    · exact ⟨⟨[], inStep_refused (by simp [Failure.status])⟩, nofun⟩
    · rename_i record changes n hfound
      split
      · exact ⟨⟨[], inStep_refused (by simp [Failure.status])⟩, nofun⟩
      · rename_i hown
        cases hform : readForm S req.body with
        | error e => exact ⟨⟨[], inStep_refused (readForm_status hform)⟩, nofun⟩
        | ok form =>
          refine ⟨storeFile_inStep hdelete workshopID record.id form n, fun p hp => ?_⟩
          obtain rfl := storeFile_stored hp
          obtain ⟨-, row, hrow, hworkshop⟩ := findByID_world hfound
          exact ⟨workshopID, row, rfl, hrow, hworkshop.trans (not_not.mp hown)⟩

/-! ## A file whose row is refused -/

def longURL (objects : List String) : String := String.ofList ('f' :: objects.flatMap String.toList)

theorem longURL_fresh (objects : List String) : longURL objects ∉ objects := by
  intro h
  have hsub : (longURL objects).toList.Sublist (objects.flatMap String.toList) :=
    List.sublist_flatten_of_mem (List.mem_map_of_mem h)
  have hle := hsub.length_le
  rw [longURL, String.toList_ofList, List.length_cons] at hle
  omega

def sampleStorage : Storage where
  newURL _ _ := longURL
  newURL_fresh _ _ := longURL_fresh
  detectContentType _ := "image/png"
  supportedTypes := allowedTypes.map (·.1)
  supportedTypes_perm := List.Perm.refl _

/-- The last statement, the row's `INSERT`, fails. -/
def insertFails : UploadFaults := ⟨fun n => n == 6, false, false, false, false⟩

def onePhoto : UploadHTTPRequest := ⟨sampleHeader, uuid "7", .form "photo" "after" (some ⟨[0x89], true⟩)⟩

def created (n : Nat) : List ServerEvent := if n = 0 then createRecord else []

theorem insertFails_inStep : insertFails.delete = false ∧
    let r := serveHTTP (fun _ _ => uuid "9") (world plain garage created) insertFails 0 plain sampleStorage sampleSigner
      0 onePhoto ["g"]
    (∃ rows, InStep ["g"] r rows) ∧
      ∀ p ∈ r.stored, ∃ workshopID row, authenticate sampleSigner 0 onePhoto.authorization = .ok workshopID ∧
        (world plain garage created p.2).serviceRecord p.1 = some row ∧ row.workshopID = workshopID :=
  ⟨rfl, serveHTTP_inStep plain sampleStorage sampleSigner garage created _ insertFails 0 0 onePhoto ["g"] rfl⟩

example : (serveHTTP (fun _ _ => uuid "9") (world plain garage created) insertFails 0 plain sampleStorage sampleSigner
    0 onePhoto ["g"]).stored = some (uuid "7", 4) := by
  decide +kernel

end UploadHandler

end Mototeca
