import Mathlib.Data.List.Nodup
import Mototeca.Chain
import Mototeca.Psql

/-!
# Applying the migrations

`scripts/migrate.sh` runs one `psql` after another: each file not yet recorded
in `schema_migrations`, and then the insert that records it. A kill leaves what
was committed before it, and the next run starts from there.
-/

namespace Mototeca.Migrations

open Psql
open Relation (ReflTransGen)
open StateTransition (Reaches)

variable {κ Stmt : Type}

/-- A file of `db/migrations`; `content` is `none` where it cannot be read. -/
structure MigrationFile (Stmt : Type) where
  version : String
  content : Option (List (Line Stmt))
  deriving DecidableEq

/-- What the database holds, and the versions in `schema_migrations`; `tracked` is
`none` while there is no such table. -/
structure Db (κ : Type) where
  contents : κ
  tracked : Option (List String)
  deriving DecidableEq

/-- How the server takes statements: what one leaves of the contents it sees, unless it
fails, and whether `public.workshops` is among these. -/
structure Server (κ Stmt : Type) where
  apply : κ → Stmt → Option κ
  hasWorkshops : κ → Bool

inductive Pc (κ Stmt : Type) where
  | guard
  | createTable
  | loop (ahead : List (MigrationFile Stmt))
  /-- Inside `psql -f`, with `remaining` ahead. -/
  | psql (file : MigrationFile Stmt) (remaining : List (Line Stmt)) (opened : Option κ) (after : List (MigrationFile Stmt))
  | record (file : MigrationFile Stmt) (after : List (MigrationFile Stmt))
  | done
  | failed
  deriving DecidableEq

structure Script (κ Stmt : Type) where
  pc : Pc κ Stmt
  db : Db κ
  deriving DecidableEq

/-- `"$dir"/*.sql`. The pattern stands for itself where no file matches it. -/
def glob (files : List (MigrationFile Stmt)) : List (MigrationFile Stmt) :=
  if files.isEmpty then [⟨"*", none⟩] else files

def Script.start (db : Db κ) : Script κ Stmt := ⟨.guard, db⟩

def step (S : Server κ Stmt) (files : List (MigrationFile Stmt)) : Script κ Stmt → Option (Script κ Stmt)
  | ⟨.guard, db⟩ =>
    if db.tracked.isNone && S.hasWorkshops db.contents then some ⟨.failed, db⟩ else some ⟨.createTable, db⟩
  | ⟨.createTable, db⟩ => some ⟨.loop (glob files), { db with tracked := some (db.tracked.getD []) }⟩
  | ⟨.loop [], db⟩ => some ⟨.done, db⟩
  | ⟨.loop (file :: ahead), db⟩ =>
    match db.tracked with
    | none => some ⟨.failed, db⟩
    | some versions =>
      if file.version ∈ versions then some ⟨.loop ahead, db⟩
      else
        match file.content with
        | some lines => some ⟨.psql file lines none ahead, db⟩
        | none => some ⟨.failed, db⟩
  | ⟨.psql file [] _ after, db⟩ => some ⟨.record file after, db⟩
  | ⟨.psql file (line :: remaining) opened after, db⟩ =>
    match Session.exec S.apply ⟨db.contents, opened⟩ line with
    | some σ => some ⟨.psql file remaining σ.opened after, { db with contents := σ.contents }⟩
    | none => some ⟨.failed, db⟩
  | ⟨.record file after, db⟩ =>
    match db.tracked with
    | none => some ⟨.failed, db⟩
    | some versions =>
      if file.version ∈ versions then some ⟨.failed, db⟩
      else some ⟨.loop after, { db with tracked := some (versions ++ [file.version]) }⟩
  | ⟨.done, _⟩ => none
  | ⟨.failed, _⟩ => none

def versionsOf (files : List (MigrationFile Stmt)) : List String := files.map MigrationFile.version

/-- The files that `db` has not recorded. -/
def Db.pending (db : Db κ) (files : List (MigrationFile Stmt)) : List (MigrationFile Stmt) :=
  files.drop (db.tracked.getD []).length

section
variable {S : Server κ Stmt} {files before rest : List (MigrationFile Stmt)} {db db' : Db κ}

theorem versionsOf_append (files files' : List (MigrationFile Stmt)) :
    versionsOf (files ++ files') = versionsOf files ++ versionsOf files' :=
  List.map_append

theorem version_not_recorded {file : MigrationFile Stmt} {after : List (MigrationFile Stmt)}
    (hnodup : (versionsOf (before ++ file :: after)).Nodup) : file.version ∉ versionsOf before := by
  rw [versionsOf_append, List.nodup_append] at hnodup
  exact fun hmem => hnodup.2.2 _ hmem _ (List.mem_map_of_mem List.mem_cons_self) rfl

/-! ## Every state of a run -/

/-- Where a run is that has recorded `before`, with `rest` not recorded. -/
def Pc.At (before rest : List (MigrationFile Stmt)) : Pc κ Stmt → Prop
  | .guard => False
  | .createTable => False
  | .loop ahead => ∃ skipped, ahead = skipped ++ rest ∧ skipped ⊆ before
  | .psql file _ _ after => rest = file :: after
  | .record file after => rest = file :: after
  | .done => True
  | .failed => True

/-- What the guard lets through: `before` recorded, on any contents. -/
structure Recorded (S : Server κ Stmt) (files before rest : List (MigrationFile Stmt)) (db : Db κ) : Prop where
  split : glob files = before ++ rest
  tracked : db.tracked.getD [] = versionsOf before
  passes : (db.tracked.isNone && S.hasWorkshops db.contents) = false

theorem Recorded.of_tracked (hsplit : glob files = before ++ rest) (h : db.tracked = some (versionsOf before)) :
    Recorded S files before rest db :=
  ⟨hsplit, by rw [h]; rfl, by rw [h]; rfl⟩

inductive Underway (S : Server κ Stmt) (files : List (MigrationFile Stmt)) (db : Db κ) : Script κ Stmt → Prop
  | guard : Underway S files db ⟨.guard, db⟩
  | createTable : Underway S files db ⟨.createTable, db⟩
  | tracked {before rest : List (MigrationFile Stmt)} {pc : Pc κ Stmt} {c : κ} (split : glob files = before ++ rest)
    (place : pc.At before rest) : Underway S files db ⟨pc, ⟨c, some (versionsOf before)⟩⟩

theorem Underway.next_loop (hnodup : (versionsOf (glob files)).Nodup) (hsplit : glob files = before ++ rest)
    {ahead skipped : List (MigrationFile Stmt)} (hahead : ahead = skipped ++ rest) (hskipped : skipped ⊆ before) {c : κ}
    {s' : Script κ Stmt} (hstep : step S files ⟨.loop ahead, ⟨c, some (versionsOf before)⟩⟩ = some s') :
    Underway S files db s' := by
  cases ahead with
  | nil =>
    obtain rfl := Option.some.inj hstep
    exact .tracked hsplit trivial
  | cons file ahead =>
    cases skipped with
    | cons skip skipped =>
      obtain ⟨rfl, rfl⟩ := List.cons.inj hahead
      have hrecorded : file.version ∈ versionsOf before := List.mem_map_of_mem (hskipped List.mem_cons_self)
      simp only [step, if_pos hrecorded, Option.some.injEq] at hstep
      rw [← hstep]
      exact .tracked hsplit ⟨skipped, rfl, fun _ hmem => hskipped (List.mem_cons_of_mem _ hmem)⟩
    | nil =>
      obtain rfl : file :: ahead = rest := hahead
      rw [hsplit] at hnodup
      simp only [step, if_neg (version_not_recorded hnodup)] at hstep
      cases hcontent : file.content with
      | none =>
        rw [hcontent] at hstep
        obtain rfl := Option.some.inj hstep
        exact .tracked hsplit trivial
      | some lines =>
        rw [hcontent] at hstep
        obtain rfl := Option.some.inj hstep
        exact .tracked hsplit rfl

theorem Underway.next_tracked (hnodup : (versionsOf (glob files)).Nodup) (hsplit : glob files = before ++ rest)
    {pc : Pc κ Stmt} (hat : pc.At before rest) {c : κ} {s' : Script κ Stmt}
    (hstep : step S files ⟨pc, ⟨c, some (versionsOf before)⟩⟩ = some s') : Underway S files db s' := by
  cases pc with
  | guard => cases hat
  | createTable => cases hat
  | loop ahead =>
    obtain ⟨skipped, hahead, hskipped⟩ := hat
    exact .next_loop hnodup hsplit hahead hskipped hstep
  | psql file remaining opened after =>
    cases remaining with
    | nil =>
      obtain rfl := Option.some.inj hstep
      exact .tracked hsplit hat
    | cons line remaining =>
      simp only [step] at hstep
      cases hline : Session.exec S.apply ⟨c, opened⟩ line with
      | none =>
        rw [hline] at hstep
        obtain rfl := Option.some.inj hstep
        exact .tracked hsplit trivial
      | some σ =>
        rw [hline] at hstep
        obtain rfl := Option.some.inj hstep
        exact .tracked hsplit hat
  | record file after =>
    obtain rfl : rest = file :: after := hat
    rw [hsplit] at hnodup
    simp only [step, if_neg (version_not_recorded hnodup), Option.some.injEq] at hstep
    rw [← hstep, show versionsOf before ++ [file.version] = versionsOf (before ++ [file]) by simp [versionsOf]]
    exact .tracked (by rw [hsplit, List.append_assoc, List.singleton_append]) ⟨[], rfl, List.nil_subset _⟩
  | done => cases hstep
  | failed => cases hstep

theorem Recorded.underway (hnodup : (versionsOf (glob files)).Nodup) (hdb : Recorded S files before rest db)
    {s : Script κ Stmt} (hs : Reaches (step S files) (.start db) s) : Underway S files db s := by
  induction hs with
  | refl => exact .guard
  | tail hs hstep ih =>
    cases ih with
    | guard =>
      simp only [step, hdb.passes, Bool.false_eq_true, ite_false, Option.mem_def, Option.some.injEq] at hstep
      rw [← hstep]
      exact .createTable
    | createTable =>
      simp only [step, hdb.tracked, Option.mem_def, Option.some.injEq] at hstep
      rw [← hstep]
      exact .tracked hdb.split ⟨before, hdb.split, fun _ hmem => hmem⟩
    | tracked hsplit hat => exact .next_tracked hnodup hsplit hat hstep

/-- Wherever a run is killed, what it has recorded is the files up to one of them. -/
theorem Recorded.of_reaches (hnodup : (versionsOf (glob files)).Nodup) (hdb : Recorded S files before rest db)
    {s : Script κ Stmt} (hs : Reaches (step S files) (.start db) s) : ∃ before rest, Recorded S files before rest s.db := by
  cases hdb.underway hnodup hs with
  | guard => exact ⟨before, rest, hdb⟩
  | createTable => exact ⟨before, rest, hdb⟩
  | tracked hsplit => exact ⟨_, _, .of_tracked hsplit rfl⟩

/-! ## Where a run ends -/

variable {origin : κ} {k : Nat}

end

/-! ## The migrations of the repository -/

def empty : Db (List String) := ⟨[], none⟩

end Mototeca.Migrations
