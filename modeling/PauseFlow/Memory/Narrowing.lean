import PauseFlow.Memory.Basic
import PauseFlow.Memory.Condition

/-! Adding knowledge to a memory. Each operation answers whether the knowledge fits and
gives the memory to go on with: the old one when it does not fit. -/
namespace PauseFlow.Memory

/-- Narrow a variable to a value. -/
def narrow (memory : Memory) (registry : Variables) (var : Var) (value : AbstractValue) :
    Bool × Memory :=
  let root := memory.root var
  let met := (memory.classValue registry root).meet registry.table value
  if met = .bottom || memory.isExcluded root met then (false, memory)
  else (true, { memory with facts := memory.facts.insert root met })

/-- Let the pairs that mention one root mention another one instead. -/
def renameApart (apart : OrderedMap (Var × Var) Unit) (old new : Var) :
    OrderedMap (Var × Var) Unit :=
  (apart.keys.filter fun pair => pair.1 = old || pair.2 = old).foldl
    (fun renamed pair =>
      (renamed.erase pair).insert (sorted new (if pair.1 = old then pair.2 else pair.1)) ())
    apart

/-- Append the elements that are not there yet. -/
def appendNew (present added : List AbstractValue) : List AbstractValue :=
  added.foldl (fun grown value => if value ∈ grown then grown else grown ++ [value]) present

/-- The exclusions of both classes, recorded at the new root. -/
def mergeExcluded (excluded : OrderedMap Var (List AbstractValue)) (kept dropped : Var) :
    OrderedMap Var (List AbstractValue) :=
  match excluded.get? dropped with
  | none => excluded
  | some moved =>
    (excluded.erase dropped).insert kept (appendNew ((excluded.get? kept).getD []) moved)

/-- Record that two variables hold the very same value. The root of the left class
becomes the root of the merged class. -/
def unite (memory : Memory) (registry : Variables) (left right : Var) : Bool × Memory :=
  let kept := memory.root left
  let dropped := memory.root right
  if kept = dropped then (true, memory)
  else if memory.apart.contains (sorted kept dropped) then (false, memory)
  else
    let met := (memory.classValue registry kept).meet registry.table
      (memory.classValue registry dropped)
    if met = .bottom || memory.isExcluded kept met || memory.isExcluded dropped met then
      (false, memory)
    else
      (true,
        { links := memory.links.insert dropped kept
          facts := (memory.facts.erase dropped).insert kept met
          apart := renameApart memory.apart dropped kept
          excluded := mergeExcluded memory.excluded kept dropped })

/-- Record that two variables hold different values. -/
def separate (memory : Memory) (registry : Variables) (left right : Var) : Bool × Memory :=
  let leftRoot := memory.root left
  let rightRoot := memory.root right
  if leftRoot = rightRoot then (false, memory)
  else
    let leftValue := memory.classValue registry leftRoot
    if leftValue.isIdentityConstant && leftValue = memory.classValue registry rightRoot then
      (false, memory)
    else (true, { memory with apart := memory.apart.insert (sorted leftRoot rightRoot) () })

/-- What a value other than the given one must be, when that can be said as a value:
the other truth value, or anything but `null`. -/
def complement? : AbstractValue → Option AbstractValue
  | .primitive .boolean (some (.boolean value)) => some (.boolean !value)
  | .reference fact => if fact.nullability = .null then some (.notNull .top) else none
  | _ => none

/-- Record that a variable does not hold a value. Nothing is learnt from excluding a
value that is no constant. -/
def exclude (memory : Memory) (registry : Variables) (var : Var) (value : AbstractValue) :
    Bool × Memory :=
  let root := memory.root var
  let current := memory.classValue registry root
  if current.isConstant && current = value then (false, memory)
  else
    match complement? value with
    | some other => memory.narrow registry var other
    | none =>
      if value.isConstant then
        (true, { memory with excluded :=
          memory.excluded.insert root (appendNew (memory.exclusions root) [value]) })
      else (true, memory)

/-- What is known of an operand. -/
def operandValue (memory : Memory) (registry : Variables) : Operand → AbstractValue
  | .var var => memory.value registry var
  | .constant value => value

/-- A comparison of a floating-point variable. It is numeric, so facts about bit patterns
decide it only when both numbers are known, or one is a NaN. Against a known number other
than zero it fixes or rules out the bits; zero stands for both signed zeros. -/
def assumeFloating (memory : Memory) (registry : Variables) (condition : Condition) :
    Bool × Memory :=
  let left := (memory.value registry condition.left).floatingConstant
  let right := (memory.operandValue registry condition.right).floatingConstant
  match left, right with
  | some left, some right =>
    (condition.relation.holds (Binary64.numericallyEqual left right), memory)
  | _, _ =>
    if (left <|> right).any Binary64.isNaN then (condition.relation.holds false, memory)
    else
      match condition.right, right with
      | .constant value, some bits =>
        if Binary64.isZero bits then (true, memory)
        else
          match condition.relation with
          | .equal => memory.narrow registry condition.left value
          | .different => memory.exclude registry condition.left value
      | _, _ => (true, memory)

/-- Assume a condition. -/
def assume (memory : Memory) (registry : Variables) (condition : Condition) : Bool × Memory :=
  if (memory.value registry condition.left).isFloating then
    memory.assumeFloating registry condition
  else
    match condition.relation, condition.right with
    | .equal, .var right => memory.unite registry condition.left right
    | .equal, .constant value => memory.narrow registry condition.left value
    | .different, .var right => memory.separate registry condition.left right
    | .different, .constant value => memory.exclude registry condition.left value

end PauseFlow.Memory
