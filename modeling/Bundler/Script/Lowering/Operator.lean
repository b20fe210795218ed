/-
The operators whose meaning depends on symbols: `typeof` and `instanceof`
become calls of helpers.
-/
import Bundler.Script.Lowering.Basic

namespace Bundler.Script

def lowerInstanceof (r : Rewrite Fresh) : Rewrite Fresh
  | .expr, .binary .instanceof left right =>
    return callHelper "_instanceof" [← r.expr left, ← r.expr right]
  | k, x => r.mapChildren k x

/-- Whether an expression is the name of a type for which `typeof` needs no
help. -/
def isPlainTypeName : Expr → Bool
  | .lit (.str value _) => ["undefined", "boolean", "number", "string", "function"].contains value
  | _ => false

def isTypeof : Expr → Bool
  | .unary .typeof _ => true
  | _ => false

def BinaryOp.isEquality : BinaryOp → Bool
  | .eq | .notEq | .strictEq | .strictNotEq => true
  | _ => false

/-- The type of a value. A name may be that of no variable. -/
def typeOf (e : Expr) : Expr :=
  match e with
  | .ident _ =>
    .cond (.binary .strictEq (.unary .typeof e) (.str "undefined")) (.str "undefined")
      (callHelper "_type_of" [e])
  | _ => callHelper "_type_of" [e]

def lowerTypeof (r : Rewrite Fresh) : Rewrite Fresh
  | .expr, .binary op left right => do
    if op.isEquality && ((isTypeof left && isPlainTypeName right) || (isTypeof right && isPlainTypeName left)) then
      return .binary op left right
    else return .binary op (← r.expr left) (← r.expr right)
  | .expr, .unary .typeof e => return typeOf (← r.expr e)
  | k, x => r.mapChildren k x

end Bundler.Script
