import Mototeca.ServerSound

/-!
# Who holds a vehicle

A claim decides under the lock of the vehicle's row; a release is one
conditional update. Either way a vehicle passes from one owner to another only
through a release.
-/

namespace Mototeca

open ReadCommitted

def lastSix (chassi : String) : List Char := chassi.toList.drop (chassi.toList.length - chassiSuffixLength)

/-- What one event makes of a vehicle: `x` is the call that the event commits. -/
inductive Handover (P : Platform) (x : Option Commit) (v : VehicleRow) : VehicleRow → Prop where
  | same : Handover P x v v
  | released {c : Commit} {plate : String} {ownerID : UUID} (commit : x = some c)
      (holds : v.currentOwnerID = some ownerID)
      (call : c.req.call = .releaseVehicle plate) (session : requireOwnerID c.req.subject = .ok ownerID)
      (names : normalizePlate P plate = v.plate) : Handover P x v { v with currentOwnerID := none }
  | claimed {c : Commit} {req : ClaimVehicleRequest} {ownerID : UUID} (commit : x = some c)
      (free : v.currentOwnerID = none) (call : c.req.call = .claimVehicle req)
      (session : requireOwnerID c.req.subject = .ok ownerID) (names : normalizePlate P req.plate = v.plate)
      (papers : (normalizeChassiSuffix P req.chassiSuffix).toList = lastSix v.chassi) :
      Handover P x v { v with currentOwnerID := some ownerID }

theorem lastSix_of_suffix {suffix chassi : String} (hv : validateChassiSuffix suffix = none)
    (hs : suffix.toList.isSuffixOf chassi.toList = true) : suffix.toList = lastSix chassi := by
  rw [validateChassiSuffix, refuse_eq_none, Bool.not_eq_false', matchesChassiSuffix, Bool.and_eq_true,
    beq_iff_eq] at hv
  rw [lastSix, ← hv.1]
  exact List.suffix_iff_eq_drop.mp (List.isSuffixOf_iff_suffix.mp hs)

section
variable {P : Platform} {q : Request} {a : Reply} {σ : SqlLocal} {d : DB}

theorem mem_setOwner {d : DB} {id : UUID} {owner : Option UUID} {v : VehicleRow} (hv : v ∈ d.vehicles) :
    setOwner id owner v ∈ (d.apply (.setCurrentOwner id owner)).vehicles :=
  List.mem_map_of_mem hv

theorem Done.handover (h : Done P q a σ d) (hd : Schema d) {v : VehicleRow} (hv : v ∈ d.vehicles) :
    ∃ v' ∈ (σ.changes.foldl DB.apply d).vehicles, Handover P (some ⟨q, a, σ.changes, σ.seen⟩) v v' := by
  cases h with
  | create session writes => exact ⟨v, by rw [writes.changes, Written.view]; exact hv, .same⟩
  | revise session found writes => exact ⟨v, by rw [writes.changes, Written.view]; exact hv, .same⟩
  | upload session form attaches => exact ⟨v, by rw [attaches.changes]; exact hv, .same⟩
  | register registers => exact ⟨v, by rw [registers.changes]; exact List.mem_append_left _ hv, .same⟩
  | claim session plate suffix claims =>
    rename_i now req ownerID v₀ owned
    rw [claims.changes]
    refine ⟨_, mem_setOwner hv, ?_⟩
    by_cases hid : v.id = v₀.id
    · obtain rfl : v = v₀ := hd.vehicle_eq hv (vehicle_some claims.vehicle).1 hid
      rcases claims.owner with hnone | hsome
      · have hset : setOwner v.id (some ownerID) v = { v with currentOwnerID := some ownerID } := by simp [setOwner]
        rw [hset]
        exact .claimed rfl hnone rfl session claims.plate.symm (lastSix_of_suffix suffix claims.suffix)
      · have hset : setOwner v.id (some ownerID) v = v := by simp [setOwner, ← hsome]
        rw [hset]
        exact .same
    · rw [setOwner, if_neg hid]
      exact .same
  | release session releases =>
    rename_i now plate ownerID v₀
    rw [releases.changes]
    refine ⟨_, mem_setOwner hv, ?_⟩
    by_cases hid : v.id = v₀.id
    · obtain rfl : v = v₀ := hd.vehicle_eq hv (vehicle_some releases.vehicle).1 hid
      have hset : setOwner v.id none v = { v with currentOwnerID := none } := by simp [setOwner]
      rw [hset]
      exact .released rfl releases.owner rfl session releases.plate.symm
    · rw [setOwner, if_neg hid]
      exact .same

end

/-! ## Claiming again -/

theorem exec_claim_again {P : Platform} {subject : Option Subject} (now : Time) {req : ClaimVehicleRequest}
    {ownerID : UUID} {v : VehicleRow} {d : DB} (hd : Schema d) (session : requireOwnerID subject = .ok ownerID)
    (plate : (normalizePlate P req.plate == "") = false)
    (suffix : validateChassiSuffix (normalizeChassiSuffix P req.chassiSuffix) = none) (hv : v ∈ d.vehicles)
    (hp : v.plate = normalizePlate P req.plate)
    (hs : (normalizeChassiSuffix P req.chassiSuffix).toList.isSuffixOf v.chassi.toList = true)
    (hown : v.currentOwnerID = some ownerID) (hex : d.owners.contains ownerID = true) (broken : Stmt → Failure)
    (o : Stmt → Nat → UUID) :
    ∃ owned, (serve P ⟨subject, now, .claimVehicle req⟩).exec DB.apply broken o d (fun _ => false) 0 [] =
        .ok (.owned owned, [.setCurrentOwner v.id (some ownerID)], 3) ∧
      ∀ k ∈ (serve P ⟨subject, now, .claimVehicle req⟩).execKeys DB.apply o d [],
        k = .vehicle v.id ∨ k ∈ ownerKeys v.id ownerID := by
  have hfind : d.vehicleByPlate (normalizePlate P req.plate) = some v := by
    rw [← hp]
    exact find?_key_eq_some hd.plates hv
  have hveh : (d.apply (.setCurrentOwner v.id (some ownerID))).vehicle v.id = some v := by
    rw [vehicle_setOwner, hd.vehicle_of_mem hv, Option.map_some]
    simp [setOwner, ← hown]
  have hmem : ownerID ∈ d.owners := by simpa using hex
  have htext : DB.storable (normalizePlate P req.plate) = true := hp ▸ hd.plateText v hv
  refine ⟨(d.apply (.setCurrentOwner v.id (some ownerID))).ownedVehicle v, ?_, ?_⟩
  · simp [serve, session, withSession, claimVehicle, plate, suffix, claim, lockClaimed, htext, Prog.queryForUpdate,
      Prog.query, Prog.write, Prog.mapFail, Prog.bind, Prog.exec, hfind, hs, hown, hmem, hveh]
  · simp [serve, session, withSession, claimVehicle, plate, suffix, claim, lockClaimed, htext, Prog.queryForUpdate,
      Prog.query, Prog.write, Prog.mapFail, Prog.bind, Prog.execKeys, hfind, hs, hown, hmem, hveh, ownerKeys]

theorem setOwner_noop {d : DB} (hd : Schema d) {v : VehicleRow} (hv : v ∈ d.vehicles) {owner : Option UUID}
    (hown : v.currentOwnerID = owner) : d.apply (.setCurrentOwner v.id owner) = d := by
  have hmap : d.vehicles.map (setOwner v.id owner) = d.vehicles := by
    refine (List.map_congr_left fun v' hv' => ?_).trans (List.map_id _)
    by_cases hid : v'.id = v.id
    · obtain rfl := hd.vehicle_eq hv' hv hid
      simp [setOwner, ← hown]
    · simp [setOwner, hid]
  rw [apply_setCurrentOwner, hmap]

/-- A committed claim made again at once, as the transaction `t` with the ids
`o`, succeeds and changes nothing. -/
def RepeatsIdly (P : Platform) (s : ServerState) (t : Nat) (q : Request) (o : Stmt → Nat → UUID) : Prop :=
  ∃ names, let s' := (server P).run s (.begin t q :: (Machine.execs t o names ++ [.commit t]))
    s'.db = s.db ∧ ∃ owned changes seen, s'.log = ⟨q, .owned owned, changes, seen⟩ :: s.log

theorem repeatsIdly_of_good {P : Platform} {s : ServerState} (hg : Good (server P) pg (Done P) s) {t : Nat}
    {c : Commit} (hc : Machine.committed s (.commit t) = some c) {req : ClaimVehicleRequest}
    (hcall : c.req.call = .claimVehicle req)
    (now : Time) (o : Stmt → Nat → UUID) :
    RepeatsIdly P ((server P).next s (.commit t)) t { c.req with now := now } o := by
  obtain ⟨u, hu, hdone, hstep⟩ := hg.done hc
  obtain rfl : t = u := by simpa using hu
  have hg' := hg.step (server_discipline P) hstep
  rw [(server P).next_of_step hstep]
  obtain ⟨⟨subject, now₀, call⟩, result, changes, seen⟩ := c
  obtain rfl : call = .claimVehicle req := hcall
  generalize hs' : (⟨(server P).view changes s.db, Machine.release s t, Function.update s.txs t none,
    ⟨⟨subject, now₀, .claimVehicle req⟩, result, changes, seen⟩ :: s.log⟩ : ServerState) = s' at hg' ⊢
  cases hdone with
  | claim session plate suffix claims =>
    rename_i ownerID v owned
    obtain ⟨hm, hid⟩ := vehicle_some claims.vehicle
    have hch : changes = [.setCurrentOwner v.id (some ownerID)] := claims.changes
    have hdb : s'.db = s.db.apply (.setCurrentOwner v.id (some ownerID)) := by
      rw [← hs', hch]
      rfl
    have hown : (setOwner v.id (some ownerID) v).currentOwnerID = some ownerID := by simp [setOwner]
    have hid' : (setOwner v.id (some ownerID) v).id = v.id := setOwner_id _ _ _
    have hm' : setOwner v.id (some ownerID) v ∈ s'.db.vehicles := by
      rw [hdb]
      exact mem_setOwner hm
    obtain ⟨owned', hexec, hkeys⟩ := exec_claim_again (P := P) now hg'.inv session plate suffix hm'
      ((setOwner_plate _ _ _).trans claims.plate) (by rw [setOwner_chassi]; exact claims.suffix) hown
      (by rw [hdb]; exact claims.exists_) (fun _ => .connect .internal "") o
    rw [hid'] at hexec hkeys
    let s₁ : ServerState := { s' with
      txs := Function.update s'.txs t (some ⟨⟨subject, now, .claimVehicle req⟩,
        serve P ⟨subject, now, .claimVehicle req⟩, [], []⟩) }
    have hbegin : (server P).next s' (.begin t ⟨subject, now, .claimVehicle req⟩) = s₁ := by
      have hnone : s'.txs t = none := by rw [← hs']; exact Function.update_self ..
      unfold Machine.next
      simp only [Machine.step, hnone, Option.getD_some, s₁]
      rfl
    have hfree : ∀ k, k = .vehicle v.id ∨ k ∈ ownerKeys v.id ownerID → ∀ u k', (u, k') ∈ s'.locks → u ≠ t →
        conflict k' k = false := by
      -- the first claim held every lock that the second asks for
      intro k hk u k' hu hne
      have hheld : (t, k) ∈ s.locks := by
        rcases hk with rfl | hk
        · exact claims.held
        · exact claims.updated k hk
      rw [← hs', Machine.mem_release] at hu
      exact hg.apart u t hne k' k hu.1 hheld
    obtain ⟨names, seen', hdb', hlog⟩ := (server P).run_alone (fun _ => .connect .internal "") o _ 0 [] [] s₁ rfl
      (Function.update_self ..) hexec (fun k hk => hfree k (hkeys k hk))
    refine ⟨names, ?_, owned', [.setCurrentOwner v.id (some ownerID)], seen', ?_⟩
    · rw [Machine.run_cons, hbegin, hdb']
      exact hid' ▸ setOwner_noop hg'.inv hm' hown
    · rw [Machine.run_cons, hbegin, hlog]

/-- In every run: a vehicle changes hands only through a release, whatever
commits nothing leaves the vehicles alone, and claiming again is idle. -/
theorem vehicle_changes_hands (P : Platform) (init : SoundDB) (es : List ServerEvent) (e : ServerEvent) :
    let s := serverRun P init es
    let s' := (server P).next s e
    (∀ v ∈ s.db.vehicles, ∃ v' ∈ s'.db.vehicles, Handover P (Machine.committed s e) v v') ∧
    (Machine.committed s e = none → s'.db.vehicles = s.db.vehicles) ∧
    ∀ t c req, e = .commit t → Machine.committed s e = some c → c.req.call = .claimVehicle req →
      ∀ now o, RepeatsIdly P s' t { c.req with now := now } o := by
  have hg := serverRun_good P init es
  refine ⟨fun v hv => ?_, fun h => by rw [((server P).next_of_not_committed h).1], ?_⟩
  · cases hc : Machine.committed (serverRun P init es) e with
    | none =>
      refine ⟨v, ?_, .same⟩
      rw [((server P).next_of_not_committed hc).1]
      exact hv
    | some c =>
      obtain ⟨t, rfl, hdone, hstep⟩ := hg.done hc
      rw [(server P).next_of_step hstep]
      exact hdone.handover hg.inv hv
  · rintro t c req rfl hc hcall now o
    exact repeatsIdly_of_good hg hc hcall now o

end Mototeca
