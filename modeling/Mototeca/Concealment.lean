import Mototeca.Outcomes

/-!
# Records of other workshops

A revision is refused for a record of another workshop as it is for no record at
all. The contents of the request are checked between the lookup of the handler,
which any record passes, and the lookup that asks whose record it is.
-/

namespace Mototeca

open ReadCommitted

/-- `d` has no record of that id, `d'` one that another workshop wrote, superseded
or not. -/
structure OthersRecord (d d' : DB) (id workshopID : Bytes) : Prop where
  valid : validID id = true
  absent : d.serviceRecord (canonicalID id) = none
  foreign : ∃ row, d'.serviceRecord (canonicalID id) = some row ∧ row.workshopID ≠ workshopID

/-- Both states refuse the call with one code and message, and stay as they are. -/
def RefusedAlike (P : Platform) (g : Generator) (d d' : DB) (q : Request) : Prop :=
  ∃ code message, undisturbed g d (serve P q) = (.error (.connect code message), d) ∧
    undisturbed g d' (serve P q) = (.error (.connect code message), d')

theorem undisturbed_bind_error {α β : Type} {g : Generator} {d : DB} {p : Sql Failure α} {e : Failure}
    (k : α → Sql Failure β) (h : undisturbed g d p = (.error e, d)) : undisturbed g d (p.bind k) = (.error e, d) := by
  unfold undisturbed at h ⊢
  rw [Prog.exec_bind]
  cases hexec : p.exec DB.apply (fun _ => .connect .internal "") g.ids d (fun _ => false) 0 [] with
  | error e' =>
    rw [hexec] at h
    obtain rfl := Except.error.inj (congrArg Prod.fst h)
    rfl
  | ok r =>
    rw [hexec] at h
    cases congrArg Prod.fst h

section
variable {P : Platform} {g : Generator} {subject : Option Subject} {now : Time} {req : ReviseServiceRecordRequest}
  {workshopID : Bytes} {d d' : DB}

theorem serve_revise_refused (hsession : requireWorkshopID subject = .ok workshopID) {e : Failure}
    (h : undisturbed g d (reviseServiceRecord P now workshopID req) = (.error e, d)) :
    undisturbed g d (serve P ⟨subject, now, .reviseServiceRecord req⟩) = (.error e, d) := by
  unfold serve
  simp only [hsession, withSession]
  exact undisturbed_bind_error _ h

theorem recordID_ne_nil (h : validID req.recordID = true) : req.recordID ≠ [] := by
  intro hnil
  rw [hnil] at h
  cases h

theorem serve_revise_absent (hsession : requireWorkshopID subject = .ok workshopID)
    (h : OthersRecord d d' req.recordID workshopID) :
    undisturbed g d (serve P ⟨subject, now, .reviseServiceRecord req⟩) =
      (.error (.connect .notFound "registro não encontrado"), d) :=
  serve_revise_refused hsession (revise_unknown (recordID_ne_nil h.valid) fun _ => h.absent)

theorem serve_revise_foreign (hsession : requireWorkshopID subject = .ok workshopID) (hd' : Schema d')
    (h : OthersRecord d d' req.recordID workshopID) (hvalid : req.Acceptable workshopID) :
    undisturbed g d' (serve P ⟨subject, now, .reviseServiceRecord req⟩) =
      (.error (.connect .notFound "registro não encontrado"), d') := by
  obtain ⟨row, hrow, hforeign⟩ := h.foreign
  obtain ⟨v, hv⟩ := hd'.vehicle_of_record (serviceRecord_some hrow).1
  exact serve_revise_refused hsession (revise_foreign hd' (recordID_ne_nil h.valid) h.valid hrow hv
    (hvalid.valid _ _ _) hforeign)

theorem serve_revise_invalid (hsession : requireWorkshopID subject = .ok workshopID) (hd' : Schema d')
    (h : OthersRecord d d' req.recordID workshopID) (hinvalid : ¬ req.Acceptable workshopID) : ∃ message,
    undisturbed g d' (serve P ⟨subject, now, .reviseServiceRecord req⟩) =
      (.error (.connect .invalidArgument message), d') := by
  obtain ⟨row, hrow, -⟩ := h.foreign
  obtain ⟨v, hv⟩ := hd'.vehicle_of_record (serviceRecord_some hrow).1
  obtain ⟨message, hrefused⟩ : ∃ message, undisturbed g d' (reviseServiceRecord P now workshopID req) =
      (.error (.connect .invalidArgument message), d') :=
    revise_invalid hd' (recordID_ne_nil h.valid) h.valid hrow hv fun hvalid =>
      hinvalid (RecordMsg.acceptable_of_valid hvalid)
  exact ⟨message, serve_revise_refused hsession hrefused⟩

/-- Another workshop's record looks like none exactly when the contents of the
request pass `Validate`. -/
theorem refusedAlike_iff (hsession : requireWorkshopID subject = .ok workshopID) (hd' : Schema d')
    (h : OthersRecord d d' req.recordID workshopID) :
    RefusedAlike P g d d' ⟨subject, now, .reviseServiceRecord req⟩ ↔ req.Acceptable workshopID := by
  constructor
  · intro halike
    obtain ⟨code, message, hd, hrefused⟩ := halike
    by_contra hinvalid
    obtain ⟨message', hother⟩ : ∃ message,
        undisturbed g d' (serve P ⟨subject, now, .reviseServiceRecord req⟩) =
          (.error (.connect .invalidArgument message), d') := serve_revise_invalid hsession hd' h hinvalid
    rw [serve_revise_absent hsession h] at hd
    rw [hother] at hrefused
    simp only [Prod.mk.injEq, Except.error.injEq, Failure.connect.injEq, and_true] at hd hrefused
    rw [← hd.1] at hrefused
    cases hrefused.1
  · intro hvalid
    exact ⟨_, _, serve_revise_absent hsession h, serve_revise_foreign hsession hd' h hvalid⟩

end

/-! ## A record of the workshop next door -/

def neighbour : SoundDB where
  db := { garage.db with serviceRecords := [⟨uuid "7", uuid "3", uuid "2", none, 1000, none, none, none, 0⟩] }
  schema := by
    refine ⟨List.nodup_singleton _, by simp [garage], by simp [garage], garage.schema.plateText, ?_, ?_, ?_, ?_, nofun,
      nofun, nofun⟩
    · intro r hr
      rw [List.mem_singleton.mp hr]
      exact ⟨_, List.mem_singleton_self _, rfl⟩
    · intro r hr
      rw [List.mem_singleton.mp hr]
      decide
    · intro r hr n hn
      rw [List.mem_singleton.mp hr] at hn
      cases hn
    · intro r hr r' hr' n hn
      rw [List.mem_singleton.mp hr] at hn
      cases hn

def neighbourRevision (operations : List Int) : ReviseServiceRecordRequest :=
  ⟨⟨none, operations, 2000, none, none, []⟩, uuid "7"⟩

theorem othersRecord_neighbour (operations : List Int) :
    OthersRecord garage.db neighbour.db (neighbourRevision operations).recordID (uuid "1") :=
  ⟨(by decide : validID (uuid "7") = true), rfl, _, rfl, by decide⟩

theorem neighbour_not_refusedAlike :
    OthersRecord garage.db neighbour.db (neighbourRevision []).recordID (uuid "1") ∧
      ¬ RefusedAlike plain sameID garage.db neighbour.db
        ⟨some ⟨.workshop, uuid "1"⟩, 0, .reviseServiceRecord (neighbourRevision [])⟩ := by
  refine ⟨othersRecord_neighbour [], ?_⟩
  intro halike
  obtain ⟨code, message, habsent, hforeign⟩ := halike
  have hnotFound : (undisturbed sameID garage.db (serve plain
      ⟨some ⟨.workshop, uuid "1"⟩, 0, .reviseServiceRecord (neighbourRevision [])⟩)).1 =
      .error (.connect .notFound "registro não encontrado") := by decide +kernel
  have hinvalid : (undisturbed sameID neighbour.db (serve plain
      ⟨some ⟨.workshop, uuid "1"⟩, 0, .reviseServiceRecord (neighbourRevision [])⟩)).1 =
      .error (.connect .invalidArgument "selecione ao menos uma operação") := by decide +kernel
  rw [habsent] at hnotFound
  rw [hforeign] at hinvalid
  rw [hnotFound] at hinvalid
  cases hinvalid

theorem refusedAlike_iff_neighbour :
    RefusedAlike plain sameID garage.db neighbour.db
        ⟨some ⟨.workshop, uuid "1"⟩, 0, .reviseServiceRecord (neighbourRevision [1])⟩ ↔
      (neighbourRevision [1]).Acceptable (uuid "1") :=
  refusedAlike_iff rfl neighbour.schema (othersRecord_neighbour [1])

end Mototeca
