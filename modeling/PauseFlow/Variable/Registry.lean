import PauseFlow.Abstract.Value
import PauseFlow.Data.KeyOrder

/-! The variables of one control flow. A variable is known by its origin in the source;
asking for a known origin again gives the same variable. -/
namespace PauseFlow

/-- A variable, numbered in order of creation. -/
structure Var where
  index : Nat
deriving DecidableEq

namespace Var

/-- Variables are ordered by creation. -/
instance : KeyOrder Var where
  before left right := KeyOrder.before left.index right.index
  irreflexive var := KeyOrder.irreflexive var.index
  transitive := KeyOrder.transitive
  connected notLeft notRight := congrArg Var.mk (KeyOrder.connected notLeft notRight)

end Var

/-- A property of an object that is tracked like a field. -/
inductive DerivedField where
  | arrayLength
  | collectionSize
  /-- The primitive inside a box. -/
  | unboxed
deriving DecidableEq

/-- The type of a derived field, given what is known about the object. Only a box can be
unboxed, but the box type may become known later. -/
def DerivedField.declaredValue? (field : DerivedField) (table : ClassTable)
    (qualifier : AbstractValue) : Option AbstractValue :=
  match field with
  | arrayLength => some (.ofType (.primitive .int))
  | collectionSize => some (.ofType (.primitive .int))
  | unboxed =>
    match qualifier.bound with
    | .exact (.ofClass id) => ofBox id
    | .instanceOf (.ofClass id) => ofBox id
    | .top => some .top
    | _ => none
where
  ofBox (id : ClassId) : Option AbstractValue :=
    (PrimitiveKind.ofBoxName? (table.nameOf id)).map fun kind => .ofType (.primitive kind)

/-- Where a variable comes from in the source. -/
inductive Origin where
  | localName (name : String)
  | this
  | field (qualifier : Var) (name : String)
  | derived (qualifier : Var) (field : DerivedField)
  /-- The synthetic flag that switches the assertions of the enclosing class off. -/
  | assertionsDisabled
deriving DecidableEq

/-- The variable an origin hangs off. -/
def Origin.qualifier? : Origin → Option Var
  | field qualifier _ => some qualifier
  | derived qualifier _ => some qualifier
  | _ => none

structure VariableInfo where
  origin : Origin
  declared : AbstractValue
deriving DecidableEq

/-- The variables of a control flow in order of creation, over the classes it can see. -/
structure Variables where
  table : ClassTable
  infos : List VariableInfo
deriving DecidableEq

namespace Variables

def ofTable (table : ClassTable) : Variables := ⟨table, []⟩

def size (registry : Variables) : Nat := registry.infos.length

/-- Every variable, in order of creation. -/
def all (registry : Variables) : List Var := (List.range registry.size).map .mk

def info? (registry : Variables) (var : Var) : Option VariableInfo := registry.infos[var.index]?

def origin? (registry : Variables) (var : Var) : Option Origin :=
  (registry.info? var).map fun info => info.origin

/-- What the declaration says; nothing is known of a variable outside the registry. -/
def declared (registry : Variables) (var : Var) : AbstractValue :=
  (registry.info? var).elim .top (·.declared)

def find? (registry : Variables) (origin : Origin) : Option Var :=
  (registry.infos.findIdx? fun info => info.origin = origin).map .mk

/-- The variable of an origin, created with the given declaration on first use. -/
def request (registry : Variables) (origin : Origin) (declared : AbstractValue) :
    Variables × Var :=
  match registry.find? origin with
  | some var => (registry, var)
  | none => ({ registry with infos := registry.infos ++ [⟨origin, declared⟩] }, ⟨registry.size⟩)

def requestAssertionsDisabled (registry : Variables) : Variables × Var :=
  registry.request .assertionsDisabled (.ofType (.primitive .boolean))

/-- The variable of a derived field of `qualifier`, of which `known` is known now. None
unless the qualifier can be an object that has the field. -/
def requestDerived (registry : Variables) (field : DerivedField) (qualifier : Var)
    (known : AbstractValue) : Variables × Option Var :=
  if known.isReference || known = .top then
    match field.declaredValue? registry.table known with
    | some declared =>
      let (registry, var) := registry.request (.derived qualifier field) declared
      (registry, some var)
    | none => (registry, none)
  else (registry, none)

/-- The variables that hang directly off `qualifier`, in order of creation. -/
def dependents (registry : Variables) (qualifier : Var) : List Var :=
  registry.infos.zipIdx.filterMap fun (info, index) =>
    if info.origin.qualifier? = some qualifier then some ⟨index⟩ else none

/-- What hangs off `var` within a number of qualification steps, innermost first, and
`var` itself at the end. -/
def subtree (registry : Variables) : (steps : Nat) → Var → List Var
  | 0, var => [var]
  | steps + 1, var => (registry.dependents var).flatMap (registry.subtree steps) ++ [var]

/-- Everything whose meaning is lost when `var` changes. Dependents are created after
their qualifier, so chains are shorter than the registry. -/
def invalidatedBy (registry : Variables) (var : Var) : List Var :=
  registry.subtree registry.size var

end Variables

end PauseFlow
