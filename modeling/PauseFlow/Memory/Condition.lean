import PauseFlow.Variable.Registry

namespace PauseFlow

inductive Relation where
  | equal
  | different
deriving DecidableEq

def Relation.negate : Relation → Relation
  | equal => different
  | different => equal

/-- Whether the relation holds of two values that are, or are not, equal. -/
def Relation.holds : Relation → (same : Bool) → Bool
  | equal, same => same
  | different, same => !same

/-- What a variable is compared with or assigned from. -/
inductive Operand where
  | var (var : Var)
  | constant (value : AbstractValue)
deriving DecidableEq

/-- A comparison of a variable with an operand. -/
structure Condition where
  left : Var
  relation : Relation
  right : Operand
deriving DecidableEq

/-- The condition that holds exactly when this one does not. -/
def Condition.negate (condition : Condition) : Condition :=
  { condition with relation := condition.relation.negate }

end PauseFlow
