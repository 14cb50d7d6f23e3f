import GoalScript.Plan.Parser
import GoalScript.Value.Tagged

namespace GoalScript

def Argument.toJson : Argument → Json
  | .literal v => .object [("literal", v.tagged)]
  | .reference expr => .object [("variable", .text expr)]

def Segment.toJson : Segment → Json
  | .property name => .object [("property", .text name)]
  | .index (.position n) => .object [("position", .ofNat n)]
  | .index (.key k) => .object [("key", .text k)]
  | .index (.lookup word) => .object [("lookup", .text word)]
  | .query path => .object [("json_path", .text path)]
  | .method name args =>
    .object [("method", .text name), ("args", .array (args.map Argument.toJson))]

def Operand.toJson : Operand → Json
  | .number x => .object [("number", Number.tagged x)]
  | .duration ms => .object [("duration_ms", .int ms)]
  | .reference expr => .object [("variable", .text expr)]

def Arithmetic.toJson (a : Arithmetic) : Json :=
  .object [("op", .text a.op.symbol.toString), ("operand", a.operand.toJson)]

def Plan.toJson (p : Plan) : Json :=
  .object [("expr", .text p.expr), ("root", .text p.root),
    ("segments", .array (p.segments.map Segment.toJson)),
    ("arithmetic", .ofOption (p.arithmetic.map Arithmetic.toJson)),
    ("parent", .ofText? p.parent?)]

end GoalScript
