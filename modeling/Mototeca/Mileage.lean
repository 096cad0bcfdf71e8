import Mototeca.ServerSound

/-!
# The odometer rule

An unconfirmed create reads the highest mileage of the vehicle in one statement
and inserts its record in a later one, with no lock on the vehicle between them.
The rule holds of the records that the check could see, and of no others.
-/

namespace Mototeca

open ReadCommitted

/-- A create without the client's word that the lower reading is right. -/
def Request.unconfirmed (q : Request) : Bool :=
  match q.call with
  | .createServiceRecord req => !req.confirmLowerMileage
  | _ => false

def insertedRecords (w : List Change) : List ServiceRecordRow :=
  w.filterMap fun c => match c with
    | .insertServiceRecord r => some r
    | _ => none

/-- An unconfirmed create commits no record below a current one of its vehicle. -/
def OdometerKept (d : DB) (e : Commit) : Prop :=
  e.req.unconfirmed = true → ∀ r ∈ insertedRecords e.changes,
    ∀ c ∈ d.currentRecords r.vehicleID, c.mileageKm ≤ r.mileageKm

/-- Between the check of an unconfirmed create and its commit, another
transaction committed a record of the same vehicle with a higher mileage. -/
def OvertakenSinceCheck (d : DB) (e : Commit) : Prop :=
  e.req.unconfirmed = true ∧ ∃ r ∈ insertedRecords e.changes, ∃ p ∈ e.seen, p.1 = Stmt.highestMileage ∧
    ∃ c ∈ d.currentRecords r.vehicleID, r.mileageKm < c.mileageKm ∧ c ∉ p.2.serviceRecords

instance (d : DB) (e : Commit) : Decidable (OdometerKept d e) :=
  inferInstanceAs (Decidable (_ → ∀ r ∈ insertedRecords e.changes, ∀ c ∈ d.currentRecords r.vehicleID, _))

theorem insertedRecords_append (w₁ w₂ : List Change) :
    insertedRecords (w₁ ++ w₂) = insertedRecords w₁ ++ insertedRecords w₂ :=
  List.filterMap_append

theorem insertedRecords_map {β : Type} (l : List β) {f : β → Change} (hf : ∀ b r, f b ≠ .insertServiceRecord r) :
    insertedRecords (l.map f) = [] := by
  rw [insertedRecords, List.filterMap_map, List.filterMap_eq_nil_iff]
  intro b _
  cases hfb : f b with
  | insertServiceRecord r => exact absurd hfb (hf b r)
  | _ => simp [hfb]

theorem Written.insertedRecords_changes (w : Written) : insertedRecords w.changes = [w.record] := by
  have hmech : insertedRecords w.mechanicChanges = [] := insertedRecords_map _ (by simp)
  have hops : insertedRecords w.operationChanges = [] := insertedRecords_map _ (by simp)
  have hparts : insertedRecords w.partChanges = [] := insertedRecords_map _ (by simp)
  have hrep : insertedRecords w.replacedChanges = [] := by
    unfold Written.replacedChanges
    split
    · rfl
    · exact insertedRecords_map _ (by simp)
  have hrec : insertedRecords (.insertServiceRecord w.record :: w.operationChanges) =
      w.record :: insertedRecords w.operationChanges := rfl
  simp only [Written.changes, insertedRecords_append, hmech, hrec, hops, hparts, hrep, List.nil_append,
    List.append_nil]

theorem Done.odometer {P : Platform} {q : Request} {a : Reply} {σ : SqlLocal} {d : DB} (h : Done P q a σ d) :
    OdometerKept d ⟨q, a, σ.changes, σ.seen⟩ ↔ ¬ OvertakenSinceCheck d ⟨q, a, σ.changes, σ.seen⟩ := by
  refine ⟨fun hk ⟨hu, r, hr, p, _, _, c, hc, hlt, _⟩ => ?_, fun hn hu r hr c hc => ?_⟩
  · exact absurd (hk hu r hr c hc) (by omega)
  · cases h with
    | create session writes =>
      rename_i now req workshopID w
      simp only [Request.unconfirmed, Bool.not_eq_true'] at hu
      obtain rfl : r = w.record := by
        simpa [writes.changes, Written.insertedRecords_changes] using hr
      obtain ⟨v, hv, hmax⟩ := writes.odometer rfl hu
      by_contra hlt
      refine hn ⟨by simpa [Request.unconfirmed] using hu, w.record, hr, _, hv, rfl, c, hc, by omega, fun hcv => ?_⟩
      obtain ⟨-, hveh, hcur⟩ := mem_currentRecords.mp hc
      have hle := hmax c (mem_currentRecords.mpr ⟨hcv, hveh, hcur⟩)
      rw [writes.mileageKm] at hlt
      exact hlt hle
    | _ => cases hu

/-- Whatever the interleaving, an unconfirmed create keeps the odometer rule at
its commit exactly when no higher record was committed since its check. -/
theorem odometerKept_iff (P : Platform) (init : SoundDB) (es : List ServerEvent) :
    (server P).EveryCommit (Machine.init init.db) es fun d e => OdometerKept d e ↔ ¬ OvertakenSinceCheck d e :=
  everyCommit (server_discipline P) (fun _ _ _ _ _ h => h.odometer) es (good_init init.schema)

/-! ## Two shops at once -/

def createStatements (t : Nat) (id : String) : List ServerEvent := List.replicate 4 (.exec t fun _ => uuid id)

def twoShops : List ServerEvent :=
  [.begin 0 (createRequest "1" 50000 false), .begin 1 (createRequest "2" 40000 false)] ++
    createStatements 0 "7" ++ createStatements 1 "8" ++ [.commit 0, .commit 1]

theorem twoShops_roll_back : ¬ (server plain).EveryCommit (Machine.init garage.db) twoShops OdometerKept := by
  decide +kernel

end Mototeca
