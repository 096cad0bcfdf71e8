import Mathlib.Data.Option.Basic

/-!
# A file of SQL under psql

`psql` sends a file statement by statement and stops at the first error. A
statement outside `BEGIN … COMMIT` commits by itself; what a transaction holds
when the session ends is lost. What a statement does to the contents of the
database is a parameter.
-/

namespace Psql

variable {κ Stmt : Type}

inductive Line (Stmt : Type) where
  | begin
  | commit
  | sql (s : Stmt)
  deriving DecidableEq

/-- The committed contents, and those that the open transaction sees. -/
structure Session (κ : Type) where
  contents : κ
  opened : Option κ

def Session.visible (σ : Session κ) : κ := σ.opened.getD σ.contents

def Session.setVisible (σ : Session κ) (c : κ) : Session κ :=
  if σ.opened.isSome then { σ with opened := some c } else ⟨c, none⟩

/-- One statement. It fails where `apply` has no contents behind it. -/
def Session.exec (apply : κ → Stmt → Option κ) (σ : Session κ) : Line Stmt → Option (Session κ)
  | .begin => some { σ with opened := some σ.visible }
  | .commit => some ⟨σ.visible, none⟩
  | .sql s => (apply σ.visible s).map σ.setVisible

variable {apply : κ → Stmt → Option κ}

end Psql
