import GrowthGrammar.Expr.Basic

/-!
# Outlines of expressions

The tree of an expression as nested lists that start with the kind of each node. Unlike the text it
was read from, an outline shows what binds to what.
-/

namespace GrowthGrammar

def Sign.kind : Sign → String
  | plus => "pos"
  | minus => "neg"

def Operation.kind : Operation → String
  | add => "add"
  | sub => "sub"
  | mul => "mul"
  | div => "div"

namespace Expr

def outlineNode (items : List String) : String :=
  "(" ++ " ".intercalate items ++ ")"

def outline : Expr → String
  | number literal => outlineNode ["number", literal]
  | hexadecimal literal => outlineNode ["hex", literal]
  | truth value => outlineNode [if value then "true" else "false"]
  | random => outlineNode ["random"]
  | reference name => outlineNode ["var", name]
  | signed sign operand => outlineNode [sign.kind, operand.outline]
  | binary operation left right => outlineNode [operation.kind, left.outline, right.outline]

end Expr

end GrowthGrammar
