import Mototeca.BikeOutcomes
import Mototeca.DemoBikes
import Mototeca.DemoFollows
import Mototeca.Plates

/-!
# Calls about bikes, to the server and to the demo

One call of a signed-in user is sent to both. What the demo makes of the members
it reads is written out here, and so is when its checks and those of the server
come to the same end.
-/

namespace Mototeca

open ReadCommitted ProtoJson
open Mobile (Json JsonMap Dart DemoBike DemoGarage DemoError asString asInt)

/-! ## One call, to both -/

structure RiderNames extends Names where
  owner : UUID → String

inductive BikeCall where
  | createVehicle (req : VehicleInput)
  | claimVehicle (req : ClaimVehicleRequest)
  | releaseVehicle (plate : String)
  | getVehicleByPlate (plate : String)

def textField (name value : String) : String × Option Json := (name, (nonzero "" value).map .string)

def VehicleInput.fields (req : VehicleInput) : List (String × Option Json) :=
  [textField "plate" req.plate, textField "chassi" req.chassi, textField "make" req.make, textField "model" req.model,
    ("year", (nonzero 0 req.year).map integer)]

def ClaimVehicleRequest.fields (req : ClaimVehicleRequest) : List (String × Option Json) :=
  [textField "plate" req.plate, textField "chassiSuffix" req.chassiSuffix]

/-- A call with the clocks of both sides and the ids of the server. The demo asks
its clock for the year only. -/
structure BikeAsked where
  subject : Subject
  call : BikeCall
  now : Time
  generator : Generator
  year : Int

inductive BikeReply where
  | stored (reply : Reply)
  | vehicle (msg : VehicleMsg)

inductive DemoReply where
  | registered (bike : DemoBike)
  | owned (json : Mobile.DemoBackend.OwnedVehicleJson)
  | released
  | vehicle (bike : DemoBike)

namespace BikeAsked

variable (a : BikeAsked)

def body (P : Platform) : Sql Failure BikeReply :=
  match a.call with
  | .createVehicle req => (serve P ⟨some a.subject, a.now, .createVehicle req⟩).bind fun reply => .ret (.stored reply)
  | .claimVehicle req => (serve P ⟨some a.subject, a.now, .claimVehicle req⟩).bind fun reply => .ret (.stored reply)
  | .releaseVehicle plate =>
    (serve P ⟨some a.subject, a.now, .releaseVehicle plate⟩).bind fun reply => .ret (.stored reply)
  | .getVehicleByPlate plate => (getVehicleByPlate P (some a.subject) plate).bind fun msg => .ret (.vehicle msg)

def server (P : Platform) (d : DB) : Except Failure BikeReply × DB := undisturbed a.generator d (a.body P)

def token (n : RiderNames) : String :=
  match a.subject.kind with
  | .workshop => "demo-w-" ++ n.workshop a.subject.id
  | .owner => "demo-o-" ++ n.owner a.subject.id

def demo (dart : Dart) (n : RiderNames) (s : DemoGarage) : Except DemoError DemoReply × DemoGarage :=
  match a.call with
  | .createVehicle req =>
    let answer := s.createVehicle dart a.year (members req.fields) (some (a.token n))
    (answer.1.map .registered, answer.2)
  | .claimVehicle req =>
    let answer := s.claimVehicle dart (members req.fields) (some (a.token n))
    (answer.1.map .owned, answer.2)
  | .releaseVehicle plate =>
    let answer := s.releaseVehicle dart (members [textField "plate" plate]) (some (a.token n))
    (answer.1.map fun _ => .released, answer.2)
  | .getVehicleByPlate plate =>
    ((s.getVehicle dart (members [textField "plate" plate]) (some (a.token n))).map .vehicle, s)

end BikeAsked

/-! ## What the demo reads -/

section
variable {a : BikeAsked} {n : RiderNames}

variable {dart : Dart} {s : DemoGarage}

/-- `input` is what the app's side reads of `req`. -/
structure VehicleInput.ReadAs (dart : Dart) (req input : VehicleInput) : Prop where
  plate : Mobile.normalizePlate dart req.plate = input.plate
  chassi : dart.toUpperCase (Mobile.trim req.chassi) = input.chassi
  make : Mobile.trim req.make = input.make
  model : Mobile.trim req.model = input.model
  year : req.year = input.year

end

end Mototeca
