import Mototeca.DemoAnswers

/-!
# Bikes that change hands on both sides

A claim, a release and the lookup by plate, on the server and on a demo that
holds the same.
-/

namespace Mototeca

open ReadCommitted ProtoJson Pairing
open Mobile (Dart DemoBackend DemoBike DemoGarage DemoError)

section
variable {P : Platform} {dart : Dart} {n : RiderNames} {d : DB} {s : DemoGarage} {a : BikeAsked}

/-! ## Sessions -/

section
variable {req : ClaimVehicleRequest} (ha : a.call = .claimVehicle req)
include ha

end

/-! ## Release -/

section
variable {plate : String} (ha : a.call = .releaseVehicle plate)
include ha

end

/-! ## The lookup by plate -/

section
variable {plate : String} (ha : a.call = .getVehicleByPlate plate)
include ha

end

end

end Mototeca
