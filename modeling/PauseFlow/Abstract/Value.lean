import PauseFlow.Abstract.FloatBits
import PauseFlow.Hierarchy.TypeBound

namespace PauseFlow

/-- A primitive constant. Floating-point constants are bit patterns, so signed zeros and
NaN payloads stay apart. -/
inductive PrimitiveValue where
  | boolean (value : Bool)
  | integral (value : Int)
  | char (value : Char)
  | floating (bits : UInt64)
deriving DecidableEq

inductive Nullability where
  | null
  | notNull
  | nullable
deriving DecidableEq

/-- The knowledge of both sides; none if they contradict each other. -/
def Nullability.meet? : Nullability → Nullability → Option Nullability
  | null, notNull => none
  | notNull, null => none
  | nullable, other => some other
  | known, _ => some known

/-- An object known by content: a string by its text, an enum case by class and name. -/
inductive ReferenceConstant where
  | string (text : String)
  | enumCase (owner : ClassId) (name : String)
deriving DecidableEq

/-- Knowledge about a reference. -/
structure ReferenceFact where
  nullability : Nullability
  bound : TypeBound
  constant : Option ReferenceConstant
deriving DecidableEq

/-- The set of runtime values a variable may hold. -/
inductive AbstractValue where
  /-- No value. -/
  | bottom
  /-- Any value. -/
  | top
  | primitive (kind : PrimitiveKind) (value : Option PrimitiveValue)
  | reference (fact : ReferenceFact)
deriving DecidableEq

namespace AbstractValue

/-- Knowledge about a variable declared with a type. -/
def ofType : JvmType → AbstractValue
  | .primitive kind => primitive kind none
  | type => reference ⟨.nullable, .instanceOf type, none⟩

def int (value : Int) : AbstractValue := primitive .int (some (.integral value))

def boolean (value : Bool) : AbstractValue := primitive .boolean (some (.boolean value))

def float (bits : UInt32) : AbstractValue :=
  primitive .float (some (.floating bits.toUInt64))

def double (bits : UInt64) : AbstractValue := primitive .double (some (.floating bits))

def null : AbstractValue := reference ⟨.null, .top, none⟩

def notNull (bound : TypeBound) : AbstractValue := reference ⟨.notNull, bound, none⟩

def stringConstant (text : String) (stringClass : ClassId) : AbstractValue :=
  reference ⟨.notNull, .exact (.ofClass stringClass), some (.string text)⟩

def enumConstant (owner : ClassId) (name : String) : AbstractValue :=
  reference ⟨.notNull, .exact (.ofClass owner), some (.enumCase owner name)⟩

def isReference : AbstractValue → Bool
  | reference _ => true
  | _ => false

/-- Whether the content is known: a primitive value, `null`, a text or an enum case. -/
def isConstant : AbstractValue → Bool
  | primitive _ value => value.isSome
  | reference fact => fact.nullability = .null || fact.constant.isSome
  | _ => false

/-- Whether equal content means the same value. Equal texts may live in different
objects, so strings do not count. -/
def isIdentityConstant : AbstractValue → Bool
  | primitive _ value => value.isSome
  | reference fact =>
    match fact.constant with
    | some (.enumCase _ _) => true
    | some (.string _) => false
    | none => fact.nullability = .null
  | _ => false

def isFloating : AbstractValue → Bool
  | primitive kind _ => kind.isFloating
  | _ => false

/-- The number held by a floating constant, as a 64-bit pattern. -/
def floatingConstant : AbstractValue → Option UInt64
  | primitive .float (some (.floating bits)) =>
    if bits.toNat < Nat.pow 2 32 then some (Binary32.widen bits.toUInt32) else none
  | primitive .double (some (.floating bits)) => some bits
  | _ => none

/-- What is known about the runtime type of the content. -/
def bound : AbstractValue → TypeBound
  | reference fact => fact.bound
  | bottom => .bottom
  | _ => .top

/-- The knowledge of two references. A constant is never `null`; of two disjoint runtime
types only `null` can be an instance. -/
def meetReferences (table : ClassTable) (left right : ReferenceFact) : AbstractValue :=
  match left.nullability.meet? right.nullability with
  | none => bottom
  | some nullability =>
    if left.constant.isSome && right.constant.isSome && left.constant ≠ right.constant then bottom
    else
      let constant := left.constant <|> right.constant
      if nullability = .null then
        if constant.isSome then bottom else null
      else
        let bound := left.bound.meet table right.bound
        if bound = .bottom then
          if nullability = .nullable && constant.isNone then null else bottom
        else reference ⟨if constant.isSome then .notNull else nullability, bound, constant⟩

/-- The knowledge of both sides. -/
def meet (table : ClassTable) : AbstractValue → AbstractValue → AbstractValue
  | bottom, _ => bottom
  | _, bottom => bottom
  | top, other => other
  | other, top => other
  | primitive leftKind leftValue, primitive rightKind rightValue =>
    if leftKind ≠ rightKind then bottom
    else if leftValue.isSome && rightValue.isSome && leftValue ≠ rightValue then bottom
    else primitive leftKind (leftValue <|> rightValue)
  | reference left, reference right => meetReferences table left right
  | _, _ => bottom

end AbstractValue

end PauseFlow
