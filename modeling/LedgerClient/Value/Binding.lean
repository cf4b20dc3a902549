import LedgerClient.Value.Basic

/-!
# Binding of arguments

Arguments are bound to parameters by position first, then by name, then by default. An argument too
many, an unknown or repeated name and a missing argument are refused.
-/

namespace LedgerClient

structure Parameter where
  name : String
  default : Option Value

namespace Parameter

def required (name : String) : Parameter := ⟨name, none⟩

def optional (name : String) : Parameter := ⟨name, some .null⟩

def bindNamed (named : List (String × Value)) : List Parameter → Option (List Value)
  | [] => some []
  | p :: rest => do
    let v ← (named.lookup p.name).or p.default
    let others ← bindNamed named rest
    return v :: others

/-- The values of the parameters in order. -/
def bind (params : List Parameter) (args : List Value) (named : List (String × Value)) :
    Except Fault (List Value) :=
  let unbound := params.drop args.length
  if params.length < args.length then .error .wrongType
  else if named.any fun n => !(unbound.any fun p => p.name = n.1) then .error .wrongType
  else match bindNamed named unbound with
    | some rest => .ok (args ++ rest)
    | none => .error .wrongType

theorem bind_nil : bind [] [] [] = .ok [] := rfl

end Parameter

end LedgerClient
