import Mototeca.Outcomes
import Mototeca.Strangers

/-!
# What the calls about bikes answer

With no fault and nobody else about: registration, claim, release and the lookup
by plate as functions of the request and the tables.
-/

namespace Mototeca

open ReadCommitted

section
variable {P : Platform} {g : Generator} {d : DB}

end

end Mototeca
