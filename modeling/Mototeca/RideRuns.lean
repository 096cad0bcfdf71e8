import Mototeca.DemoRides

/-!
# Runs of calls to both

Writes of records and calls about bikes, in any order.
-/

namespace Mototeca

open ReadCommitted ProtoJson Pairing
open Mobile (Dart DemoBackend DemoBike DemoGarage DemoError DemoRecord)

/-! ## One step -/

structure RiderTwin where
  names : RiderNames
  db : DB
  demo : DemoGarage

/-- The two without what only owners see. -/
def RiderTwin.records (t : RiderTwin) : Twin := ⟨t.names.toNames, t.db, t.demo.backend⟩

inductive DemoAsked where
  | record (a : Asked)
  | bike (a : BikeAsked)

namespace DemoAsked

def demoRecord (dart : Dart) (n : Names) (s : DemoGarage) (a : Asked) : Except DemoError DemoRecord × DemoGarage :=
  match a.write with
  | .create req => s.createRecord dart a.moment (members req.fields) (some (a.token n))
  | .revise req recordId => s.reviseRecord a.moment (members (req.fields recordId)) (some (a.token n))

def step (P : Platform) (dart : Dart) (t : RiderTwin) : DemoAsked → RiderTwin
  | .record a =>
    { names := { t.names with toNames := (t.records.step P dart a).names }
      db := (a.server P t.db).2
      demo := (demoRecord dart t.names.toNames t.demo a).2 }
  | .bike a => { t with db := (a.server P t.db).2, demo := (a.demo dart t.names t.demo).2 }

def Meets (P : Platform) : DemoAsked → Prop
  | .record _ => True
  | .bike a => a.Meets P

end DemoAsked

def RiderTwin.Mirrors (t : RiderTwin) : Prop := MirrorsGarage t.names t.db t.demo

section
variable {s : DemoGarage} {dart : Dart} {n : Names} {a : Asked}

end

/-! ## Every step -/

section
variable {P : Platform} {dart : Dart} {t : RiderTwin}

end

/-! ## Every run -/

def claimed : BikeAsked where
  subject := ⟨.owner, uuid "5"⟩
  call := .claimVehicle ⟨"abc-1d23", "000001"⟩
  now := 6000
  generator := sameID
  year := 2026

end Mototeca
