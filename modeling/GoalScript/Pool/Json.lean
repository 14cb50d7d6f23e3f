import GoalScript.Pool.Service

namespace GoalScript

def Pool.toJson {ε : Type} (p : Pool ε) : Json :=
  .object [("available", .ofNat p.idle.length), ("created", .ofNat p.created),
    ("live", .ofNat p.live)]

namespace PoolError

def word : PoolError → String
  | .closed => "Closed"
  | .unknownApp .. => "UnknownApp"

def toJson (e : PoolError) : Json :=
  .object [("error", .text e.word), ("message", .text e.message)]

end PoolError

end GoalScript
