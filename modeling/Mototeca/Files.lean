import Mototeca.Linking
import Mototeca.Runs
import Mototeca.UploadRoute

/-!
# Rows in the database, files in the bucket

The upload route puts a file, inserts its row and deletes the file again when
`AddAttachment` returns an error. A commit may go through with its answer lost:
the handler then deletes a file that a row names. No other interleaving leaves
a row without its file, nor a file that no row, upload or delete accounts for.
-/

namespace Mototeca

open ReadCommitted

/-! ## The two stores -/

def Request.url (q : Request) : Option String :=
  match q.call with
  | .upload req => some req.url
  | _ => none

/-- The server with its bucket, the files to be deleted by `removeOrphan`, those whose
commit was not heard of, and every name that `Put` has generated. -/
structure Stores where
  server : ServerState
  objects : List String
  orphans : List String
  lost : List String
  drawn : List String

inductive StoresEvent where
  | database (e : ServerEvent)
  | put (t : Nat)
  /-- `tx.Commit` returns an error, whether or not the commit goes through. -/
  | unheard (t : Nat)
  | removeOrphan (url : String)

namespace Stores

/-- The URL of the upload that the transaction is part of. -/
def pending (s : Stores) (t : Nat) : Option String := (s.server.txs t).bind fun tx => tx.req.url

/-- The stores around a step of the server. A name is a new uuid, no row is inserted
before its file is put, as `serveHTTP_put_first` says of the handler, and a failed upload
has its file deleted if there is one. -/
def around (s : Stores) : ServerEvent → Option Stores
  | .begin _ q =>
    match q.url with
    | none => some s
    | some url => if url ∈ s.drawn then none else some { s with drawn := url :: s.drawn }
  | .exec _ _ => some s
  | .commit t =>
    match s.pending t with
    | none => some s
    | some url => if url ∈ s.objects ∨ url ∈ s.lost then some s else none
  | .rollback t =>
    match s.pending t with
    | none => some s
    | some url => if url ∈ s.objects then some { s with orphans := url :: s.orphans } else some s

def step (P : Platform) (s : Stores) : StoresEvent → Option Stores
  | .database e =>
    match s.around e, (Mototeca.server P).step s.server e with
    | some s', some server => some { s' with server := server }
    | _, _ => none
  | .put t => (s.pending t).map fun url => { s with objects := url :: s.objects }
  | .unheard t =>
    match Machine.committed s.server (.commit t), s.pending t with
    | some _, some url =>
      if url ∈ s.objects then some { s with orphans := url :: s.orphans, lost := url :: s.lost } else none
    | _, _ => none
  | .removeOrphan url =>
    if url ∈ s.orphans then
      some { s with objects := s.objects.filter (· != url), orphans := s.orphans.filter (· != url) }
    else none

def run (P : Platform) (s : Stores) (es : List StoresEvent) : Stores := Runs.run (step P) s es

end Stores

/-- A database and a bucket that has the file of every row. -/
structure FiledDB extends SoundDB where
  objects : List String
  filed : ∀ a ∈ db.attachments, a.url ∈ objects

def FiledDB.stores (init : FiledDB) : Stores := ⟨Machine.init init.db, init.objects, [], [], init.objects⟩

/-! ## One step -/

def DB.urls (d : DB) : Set String := {url | ∃ a ∈ d.attachments, a.url = url}

/-- The URLs of a database after a transaction: those it had and that of the upload, if it is one. -/
def Request.files (q : Request) (d : DB) : Set String :=
  match q.url with
  | some url => insert url d.urls
  | none => d.urls

section
variable {P : Platform} {q : Request} {a : Reply} {σ : SqlLocal} {d : DB}

theorem urls_append {rows rows' : List AttachmentRow} (h : ∀ b ∈ rows', ∃ a ∈ rows, a.url = b.url) (url : String) :
    (∃ a ∈ rows ++ rows', a.url = url) ↔ ∃ a ∈ rows, a.url = url := by
  constructor
  · intro ⟨b, hb, hurl⟩
    rcases List.mem_append.mp hb with hb | hb
    · exact ⟨b, hb, hurl⟩
    · obtain ⟨a, ha, hsame⟩ := h b hb
      exact ⟨a, ha, hsame.trans hurl⟩
  · intro ⟨a, ha, hurl⟩
    exact ⟨a, List.mem_append_left _ ha, hurl⟩

theorem Writes.urls {now : Time} {input : CreateInput} {rev : Option Revision} {w : Written}
    (h : Writes now input rev w σ d) : (σ.changes.foldl DB.apply d).urls = d.urls := by
  have hview := w.view d
  rw [← h.changes] at hview
  refine Set.ext fun url => ?_
  change (∃ a ∈ (σ.changes.foldl DB.apply d).attachments, a.url = url) ↔ _
  rw [hview]
  refine urls_append (fun b hb => ?_) url
  cases hrep : w.replaced with
  | none => simp [hrep] at hb
  | some p =>
    obtain ⟨original, rows⟩ := p
    simp only [hrep, Option.elim_some] at hb
    obtain ⟨r, ids, o, -, -, rfl, -⟩ := h.original hrep
    obtain ⟨p, hp, rfl⟩ := List.mem_map.mp hb
    have hmem : p.1 ∈ d.attachmentsOf original := (List.mem_zipIdx' hp).2 ▸ List.getElem_mem _
    exact ⟨p.1, (mem_attachmentsOf.mp hmem).1, rfl⟩

theorem Done.urls (h : Done P q a σ d) : (σ.changes.foldl DB.apply d).urls = q.files d := by
  cases h with
  | create session writes => exact writes.urls
  | revise session found writes => exact writes.urls
  | upload session form attaches =>
    rw [attaches.changes]
    refine Set.ext fun url => ⟨fun ⟨b, hb, hurl⟩ => ?_, fun hin => ?_⟩
    · rcases List.mem_append.mp hb with hb | hb
      · exact .inr ⟨b, hb, hurl⟩
      · rw [List.mem_singleton.mp hb] at hurl
        exact .inl hurl.symm
    · rcases hin with rfl | ⟨b, hb, hurl⟩
      · exact ⟨_, List.mem_append_right _ (List.mem_singleton_self _), rfl⟩
      · exact ⟨b, List.mem_append_left _ hb, hurl⟩
  | register registers => rw [registers.changes]; rfl
  | claim session plate suffix claims => rw [claims.changes]; rfl
  | release session releases => rw [releases.changes]; rfl

end

def names (l : List String) : Set String := {name | name ∈ l}

theorem names_cons (name : String) (l : List String) : names (name :: l) = insert name (names l) :=
  Set.ext fun _ => List.mem_cons

theorem names_filter (name : String) (l : List String) : names (l.filter (· != name)) = names l \ {name} := by
  refine Set.ext fun x => List.mem_filter.trans (and_congr_right fun _ => ?_)
  rw [bne_iff_ne]
  rfl

namespace Stores

/-- The stores as objects and links. -/
def linking (s : Stores) : Linking.State Nat String :=
  ⟨names s.objects, s.server.db.urls, s.pending, names s.orphans, names s.lost, names s.drawn⟩

section
variable {P : Platform} {s s' : Stores}

theorem step_database {e : ServerEvent} (h : s.step P (.database e) = some s') :
    ∃ around server, s.around e = some around ∧ (Mototeca.server P).step s.server e = some server ∧
      s' = { around with server := server } := by
  simp only [step] at h
  split at h
  · rename_i around server haround hserver
    exact ⟨around, server, haround, hserver, (Option.some.inj h).symm⟩
  · cases h

theorem linking_update {around : Stores} {server : ServerState} {t : Nat}
    {tx : Option (Tx Stmt DB Change Key (Nat → UUID) Failure Request Reply)}
    (htxs : server.txs = Function.update s.server.txs t tx) : linking { around with server := server } =
      ⟨names around.objects, server.db.urls, Function.update s.pending t (tx.bind fun tx => tx.req.url),
        names around.orphans, names around.lost, names around.drawn⟩ := by
  have hpending : ∀ u, (server.txs u).bind (fun tx => tx.req.url) =
      Function.update s.pending t (tx.bind fun tx => tx.req.url) u := by
    intro u
    by_cases hu : u = t
    · simp [htxs, hu]
    · simp [htxs, hu, pending]
  simp only [linking, Linking.State.mk.injEq, true_and, and_true]
  exact funext hpending

theorem links_begin {t : Nat} {q : Request} (h : s.step P (.database (.begin t q)) = some s') :
    Linking.Step s.linking s'.linking := by
  obtain ⟨around, server, haround, hserver, rfl⟩ := step_database h
  obtain ⟨hnone, hs⟩ := Machine.step_begin _ hserver
  have htxs : server.txs = Function.update s.server.txs t (some ⟨q, (Mototeca.server P).prog q, [], []⟩) := by rw [hs]
  have hdb : server.db = s.server.db := by rw [hs]
  have hpending : s.pending t = none := by simp [pending, hnone]
  rw [linking_update htxs, hdb, Option.bind_some]
  cases hq : q.url with
  | none =>
    simp only [Stores.around, hq, Option.some.injEq] at haround
    subst haround
    rw [← hpending, Function.update_eq_self]
    exact .idle
  | some url =>
    simp only [Stores.around, hq] at haround
    split at haround
    · cases haround
    · rename_i hdrawn
      obtain rfl := Option.some.inj haround
      rw [names_cons]
      exact .draw hdrawn hpending

theorem links_exec {t : Nat} {o : Nat → UUID} (h : s.step P (.database (.exec t o)) = some s') :
    Linking.Step s.linking s'.linking := by
  obtain ⟨around, server, haround, hserver, rfl⟩ := step_database h
  obtain ⟨q, name, keys, changes, nx, w, seen, htx, -, hs⟩ := Machine.step_exec _ hserver
  have htxs := congrArg State.txs hs
  have hdb : server.db = s.server.db := by rw [hs]
  have hpending : s.pending t = q.url := by simp [pending, htx]
  simp only [Stores.around, Option.some.injEq] at haround
  subst haround
  rw [linking_update htxs, hdb, Option.bind_some, ← hpending, Function.update_eq_self]
  exact .idle

theorem links_commit {t : Nat} (hg : Good (Mototeca.server P) pg (Done P) s.server)
    (h : s.step P (.database (.commit t)) = some s') : Linking.Step s.linking s'.linking := by
  obtain ⟨around, server, haround, hserver, rfl⟩ := step_database h
  obtain ⟨q, a, w, seen, htx, hs⟩ := Machine.step_commit _ hserver
  have htxs : server.txs = Function.update s.server.txs t none := by rw [hs]
  have hpending : s.pending t = q.url := by simp [pending, htx]
  have hcommitted : Machine.committed s.server (.commit t) = some ⟨q, a, w, seen⟩ := by simp [Machine.committed, htx]
  obtain ⟨u, -, hdone, -⟩ := hg.done hcommitted
  have hurls : server.db.urls = q.files s.server.db := by
    rw [hs]
    exact Done.urls hdone
  rw [linking_update htxs, hurls, Request.files, Option.bind_none]
  cases hq : q.url with
  | none =>
    simp only [Stores.around, hpending, hq, Option.some.injEq] at haround
    subst haround
    have hsame : Function.update s.pending t none = s.pending := by
      rw [← hq, ← hpending, Function.update_eq_self]
    rw [hsame]
    exact .idle
  | some url =>
    simp only [Stores.around, hpending, hq] at haround
    split at haround
    · rename_i hput
      obtain rfl := Option.some.inj haround
      exact .link (hpending.trans hq) hput
    · cases haround

theorem links_rollback {t : Nat} (h : s.step P (.database (.rollback t)) = some s') :
    Linking.Step s.linking s'.linking := by
  obtain ⟨around, server, haround, hserver, rfl⟩ := step_database h
  obtain ⟨-, hs⟩ := Machine.step_rollback _ hserver
  have htxs : server.txs = Function.update s.server.txs t none := by rw [hs]
  have hdb : server.db = s.server.db := by rw [hs]
  rw [linking_update htxs, hdb, Option.bind_none]
  cases hp : s.pending t with
  | none =>
    simp only [Stores.around, hp, Option.some.injEq] at haround
    subst haround
    rw [← hp, Function.update_eq_self]
    exact .idle
  | some url =>
    simp only [Stores.around, hp] at haround
    split at haround
    · obtain rfl := Option.some.inj haround
      rw [names_cons]
      exact .fail hp
    · rename_i hput
      obtain rfl := Option.some.inj haround
      exact .giveUp hp hput

theorem links_put {t : Nat} (h : s.step P (.put t) = some s') : Linking.Step s.linking s'.linking := by
  obtain ⟨url, hp, rfl⟩ := Option.map_eq_some_iff.mp h
  have hobjects := names_cons url s.objects
  unfold linking
  rw [hobjects]
  exact .put hp

theorem step_unheard {t : Nat} (h : s.step P (.unheard t) = some s') : ∃ url, s.pending t = some url ∧
    s' = { s with orphans := url :: s.orphans, lost := url :: s.lost } := by
  simp only [step] at h
  split at h
  · rename_i x url hcommitted hp
    split at h
    · exact ⟨url, hp, (Option.some.inj h).symm⟩
    · cases h
  · cases h

theorem step_removeOrphan {url : String} (h : s.step P (.removeOrphan url) = some s') : url ∈ s.orphans ∧
    s' = { s with objects := s.objects.filter (· != url), orphans := s.orphans.filter (· != url) } := by
  simp only [step] at h
  split at h
  · rename_i horphan
    exact ⟨horphan, (Option.some.inj h).symm⟩
  · cases h

theorem links_unheard {t : Nat} (h : s.step P (.unheard t) = some s') : Linking.Step s.linking s'.linking := by
  obtain ⟨url, hp, rfl⟩ := step_unheard h
  have horphans := names_cons url s.orphans
  have hlost := names_cons url s.lost
  unfold linking
  rw [horphans, hlost]
  exact .lose hp

theorem links_removeOrphan {url : String} (h : s.step P (.removeOrphan url) = some s') :
    Linking.Step s.linking s'.linking := by
  obtain ⟨horphan, rfl⟩ := step_removeOrphan h
  have hobjects := names_filter url s.objects
  have horphans := names_filter url s.orphans
  unfold linking
  rw [hobjects, horphans]
  exact .remove horphan

/-- A step of the stores is a step of objects and links. -/
theorem links (hg : Good (Mototeca.server P) pg (Done P) s.server) {e : StoresEvent} (h : s.step P e = some s') :
    Linking.Step s.linking s'.linking := by
  cases e with
  | database e =>
    cases e with
    | begin t q => exact links_begin h
    | exec t o => exact links_exec h
    | commit t => exact links_commit hg h
    | rollback t => exact links_rollback h
  | put t => exact links_put h
  | unheard t => exact links_unheard h
  | removeOrphan url => exact links_removeOrphan h

theorem good_step (hg : Good (Mototeca.server P) pg (Done P) s.server) {e : StoresEvent} (h : s.step P e = some s') :
    Good (Mototeca.server P) pg (Done P) s'.server := by
  cases e with
  | database e =>
    obtain ⟨around, server, -, hserver, rfl⟩ := step_database h
    exact hg.step (server_discipline P) hserver
  | put t =>
    obtain ⟨url, -, rfl⟩ := Option.map_eq_some_iff.mp h
    exact hg
  | unheard t =>
    obtain ⟨url, -, rfl⟩ := step_unheard h
    exact hg
  | removeOrphan url =>
    obtain ⟨-, rfl⟩ := step_removeOrphan h
    exact hg

theorem lost_step {es : List StoresEvent} {e : StoresEvent} (he : e ∈ es) (h : s.step P e = some s')
    (hlost : ∀ url ∈ s.lost, ∃ t, StoresEvent.unheard t ∈ es) : ∀ url ∈ s'.lost, ∃ t, StoresEvent.unheard t ∈ es := by
  cases e with
  | database e =>
    obtain ⟨around, server, haround, -, rfl⟩ := step_database h
    have hsame : around.lost = s.lost := by
      unfold Stores.around at haround
      repeat' split at haround
      all_goals cases haround <;> rfl
    exact fun url hurl => hlost url (hsame ▸ hurl)
  | put t =>
    obtain ⟨url, -, rfl⟩ := Option.map_eq_some_iff.mp h
    exact hlost
  | unheard t => exact fun _ _ => ⟨t, he⟩
  | removeOrphan url =>
    obtain ⟨-, rfl⟩ := step_removeOrphan h
    exact hlost

end

end Stores

/-! ## Whole runs -/

theorem FiledDB.kept (init : FiledDB) : Linking.Kept (names init.objects) init.stores.linking := by
  refine Linking.Kept.start (s := init.stores.linking) (fun url hurl => ?_) (fun _ => rfl) (fun _ => List.not_mem_nil)
    fun _ h => h
  obtain ⟨a, ha, rfl⟩ := hurl
  exact init.filed a ha

/-- Where a file can be missing or left over, in every interleaving of calls, uploads, failures
and deletes: a row has its file unless the answer to its commit was lost, a file belongs to a
row, to an upload under way or to the deletes, and the files there were at first stay. -/
theorem files_in_every_run (P : Platform) (init : FiledDB) (es : List StoresEvent) :
    let s := Stores.run P init.stores es
    (∀ a ∈ s.server.db.attachments, a.url ∈ s.objects ∨ a.url ∈ s.lost) ∧
      (∀ url ∈ s.objects, url ∈ init.objects ∨ (∃ a ∈ s.server.db.attachments, a.url = url) ∨
        (∃ t, s.pending t = some url) ∨ url ∈ s.orphans) ∧
      (∀ url ∈ init.objects, url ∈ s.objects) ∧
      ∀ url ∈ s.lost, ∃ t, StoresEvent.unheard t ∈ es := by
  have hinvariant := Runs.EveryStep.invariant (P := fun s => Good (server P) pg (Done P) s.server ∧
      Linking.Kept (names init.objects) s.linking ∧ ∀ url ∈ s.lost, ∃ t, StoresEvent.unheard t ∈ es)
    (R := fun _ e => e ∈ es) (fun s e s' h he ⟨hg, hkept, hlost⟩ =>
      ⟨Stores.good_step hg h, hkept.step (Stores.links hg h), Stores.lost_step he h hlost⟩) es init.stores
    ⟨good_init init.schema, init.kept, nofun⟩ (.of_mem es (fun e he _ => he) _)
  obtain ⟨-, hkept, hlost⟩ := hinvariant
  exact ⟨fun a ha => hkept.linked _ ⟨a, ha, rfl⟩, hkept.objects, hkept.retained, hlost⟩

def filedGarage : FiledDB := { garage with objects := [], filed := nofun }

/-- A photo's commit goes through after its file was deleted, the answer having been lost. -/
def lostAnswer : List StoresEvent :=
  (createRecord ++ [Event.begin 1 (uploadRequest "1" "7")] ++ List.replicate 7 (Event.exec 1 fun _ => uuid "9")).map
    StoresEvent.database ++ [.put 1, .unheard 1, .removeOrphan "/uploads/a.jpg", .database (.commit 1)]

example : (Stores.run plain filedGarage.stores lostAnswer).server.db.attachments.map (·.url) = ["/uploads/a.jpg"] ∧
    (Stores.run plain filedGarage.stores lostAnswer).objects = [] := by
  decide +kernel

end Mototeca
