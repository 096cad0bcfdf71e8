import Mototeca.DemoRiders

/-!
# When a bike is registered alike

A call about bikes is answered alike exactly when it meets a condition on its
texts. Here that condition, and registration: the demo leaves the lengths of names
and what Postgres can store unchecked.
-/

namespace Mototeca

open ReadCommitted ProtoJson Pairing
open Mobile (Dart DemoBackend DemoBike DemoGarage DemoError)

/-! ## When both do the same -/

/-- Both sides read the same of the texts of a call, and its year is an `int32`. -/
def BikeCall.Alike (P : Platform) (dart : Dart) : BikeCall → Prop
  | .createVehicle req => NormalizedAlike dart P req.plate ∧ req.ReadAs dart (req.normalized P) ∧
      DB.fitsInteger req.year = true
  | .claimVehicle req => NormalizedAlike dart P req.plate ∧
      dart.toUpperCase (Mobile.trim req.chassiSuffix) = normalizeChassiSuffix P req.chassiSuffix
  | .releaseVehicle plate => NormalizedAlike dart P plate
  | .getVehicleByPlate plate => NormalizedAlike dart P plate

/-- What the demo does not check of a registration is in order. -/
def VehicleInput.Meets (currentYear : Int) (input : VehicleInput) : Prop :=
  matchesPlate input.plate = true → matchesChassi input.chassi = true → input.make ≠ "" →
    input.make.length ≤ maxNameLength ∧ (input.model ≠ "" → input.model.length ≤ maxNameLength ∧
      (1950 ≤ input.year → input.year ≤ currentYear + 1 →
        DB.storable input.make = true ∧ DB.storable input.model = true))

/-- A plate that Postgres takes as a parameter. -/
def Searchable (P : Platform) (plate : String) : Prop :=
  normalizePlate P plate ≠ "" ∧ DB.storable (normalizePlate P plate) = true

def BikeAsked.Meets (P : Platform) (a : BikeAsked) : Prop :=
  match a.call with
  | .createVehicle req => (req.normalized P).Meets (P.year a.now)
  | .claimVehicle req => a.subject.kind = .owner → normalizePlate P req.plate ≠ "" ∧
      (Mobile.stringLength (normalizeChassiSuffix P req.chassiSuffix) = Mobile.chassiSuffixLength →
        matchesChassiSuffix (normalizeChassiSuffix P req.chassiSuffix) = true ∧
          DB.storable (normalizePlate P req.plate) = true)
  | .releaseVehicle plate => a.subject.kind = .owner → Searchable P plate
  | .getVehicleByPlate plate => a.subject.kind = .workshop → Searchable P plate

/-! ## Characters of plates and chassis -/

section
variable {P : Platform} {dart : Dart} {n : RiderNames} {d : DB} {s : DemoGarage} {a : BikeAsked}

section
variable {req : VehicleInput} (ha : a.call = .createVehicle req)
include ha

variable {input : VehicleInput} (hinput : req.normalized P = input) (hsigned : a.subject.id ≠ [])
include hinput hsigned

omit hinput hsigned

end

end

end Mototeca
