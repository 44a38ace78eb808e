import PauseFlow.Debuggee.Heap

/-! A pause as the debugger lives through it: the suspended process, the queries made so
far, and what may happen while a query is under way. -/
namespace PauseFlow

/-- Something that happens at a query. -/
inductive Disturbance where
  /-- The query fails, whatever its answer was. -/
  | fault (fault : Fault)
  /-- The user cancels. -/
  | cancel
  /-- The sources are edited. -/
  | edit
deriving DecidableEq

/-- What a query asks of the debuggee. -/
inductive Question where
  | location (frame : FrameRef)
  | frameLoader (frame : FrameRef)
  | localValue (frame : FrameRef) (name : String)
  | thisObject (frame : FrameRef)
  | objectType (id : ObjectId)
  | typeInfo (id : TypeId)
  | fieldByName (id : TypeId) (name : String)
  | fieldValue (id : ObjectId) (field : FieldId)
  | stringText (id : ObjectId)
  | arrayLength (id : ObjectId)
  | assertionStatus (location : Location)
deriving DecidableEq

/-- A query that was made: what was asked, how many read accesses were held, what happened
at it, and how it failed, if it did. -/
structure QueryRecord where
  question : Question
  readers : Nat
  disturbances : List Disturbance
  fault : Option Fault
deriving DecidableEq

structure Session where
  heap : Heap
  /-- Queries made, the latest first. -/
  journal : List QueryRecord
  /-- Number of the last query before the connection is lost. -/
  lastServed : Option Nat
  /-- What happens at the queries of given numbers. -/
  schedule : List (Nat × Disturbance)
  /-- Number of edits, wrapping in 64 bits. -/
  edits : UInt64
  cancelled : Bool
  /-- Read accesses to the analysis model that are held. -/
  readers : Nat
deriving DecidableEq

namespace Session

def ofHeap (heap : Heap) : Session := ⟨heap, [], none, [], 0, false, 0⟩

/-- How many queries were made. -/
def queries (session : Session) : Nat := session.journal.length

/-- Lose the connection after `more` further queries. The number of the last of them wraps
in 64 bits. -/
def failAfter (session : Session) (more : Nat) : Session :=
  { session with lastServed := some ((session.queries + more) % Nat.pow 2 64) }

/-- Let something happen at the `ahead`-th query from now. -/
def scheduleAfter (session : Session) (ahead : Nat) (disturbance : Disturbance) : Session :=
  { session with schedule := session.schedule ++ [(session.queries + ahead, disturbance)] }

/-- Edit the sources once. -/
def edit (session : Session) : Session := { session with edits := session.edits + 1 }

def cancel (session : Session) : Session := { session with cancelled := true }

/-- Let the next run have a fresh cancellation. -/
def uncancel (session : Session) : Session := { session with cancelled := false }

def isReadAccessHeld (session : Session) : Bool := 0 < session.readers

def acquireRead (session : Session) : Session := { session with readers := session.readers + 1 }

def releaseRead (session : Session) : Session := { session with readers := session.readers - 1 }

/-- What happens at the query of a number, in order of scheduling. -/
def disturbancesAt (session : Session) (number : Nat) : List Disturbance :=
  (session.schedule.filter fun entry => entry.1 = number).map (·.2)

/-- What a disturbance leaves behind apart from the answer of the query. -/
def disturb (session : Session) : Disturbance → Session
  | .fault _ => session
  | .cancel => session.cancel
  | .edit => session.edit

end Session

/-- The answer of a query after a disturbance. -/
def Disturbance.replaceAnswer {Answer : Type} (answer : Except Fault Answer) :
    Disturbance → Except Fault Answer
  | fault cause => .error cause
  | cancel => answer
  | edit => answer

/-- Steps of a pause that may fail. A failure keeps what happened before it. -/
abbrev PauseM (Failure Answer : Type) := ExceptT Failure (StateM Session) Answer

/-- Steps that fail as queries do. -/
abbrev Query (Answer : Type) := PauseM Fault Answer

namespace Session

/-- Make one query: it is answered from the heap unless the connection is lost, then
everything scheduled for it happens. -/
def ask {Answer : Type} (session : Session) (question : Question)
    (answer : Heap → Except Fault Answer) : Except Fault Answer × Session :=
  let number := session.queries + 1
  let served :=
    if session.lastServed.any (· < number) then .error .notConnected else answer session.heap
  let disturbances := session.disturbancesAt number
  let result := disturbances.foldl Disturbance.replaceAnswer served
  let record : QueryRecord := ⟨question, session.readers, disturbances,
    match result with | .error fault => some fault | .ok _ => none⟩
  (result, disturbances.foldl disturb { session with journal := record :: session.journal })

end Session

namespace Query

def ask {Answer : Type} (question : Question) (answer : Heap → Except Fault Answer) :
    Query Answer :=
  ExceptT.mk fun session => session.ask question answer

/-- The value if there is one. -/
def orFail {Value : Type} (value : Option Value) (fault : Fault) : Except Fault Value :=
  value.elim (.error fault) .ok

def location (frame : FrameRef) : Query Location :=
  ask (.location frame) fun heap =>
    (orFail (heap.frame? frame) (.unknownFrame frame)).map (·.location)

/-- The loader of the type that a frame executes in. -/
def frameLoader (frame : FrameRef) : Query (Option ObjectId) :=
  ask (.frameLoader frame) fun heap =>
    (orFail (heap.frame? frame) (.unknownFrame frame)).map (·.loader)

/-- The value of a local; none if it is not in scope. -/
def localValue (frame : FrameRef) (name : String) : Query (Option LiveValue) :=
  ask (.localValue frame name) fun heap =>
    (orFail (heap.frame? frame) (.unknownFrame frame)).map fun content => content.locals.lookup name

def thisObject (frame : FrameRef) : Query (Option ObjectRef) :=
  ask (.thisObject frame) fun heap =>
    (orFail (heap.frame? frame) (.unknownFrame frame)).map (·.this)

def objectType (id : ObjectId) : Query TypeId :=
  ask (.objectType id) fun heap => (orFail (heap.instance? id) (.unknownObject id)).map (·.typeId)

def typeInfo (id : TypeId) : Query TypeInfo :=
  ask (.typeInfo id) fun heap => (orFail (heap.type? id) (.unknownType id)).map (·.info)

/-- The field of that name that a type declares itself. -/
def fieldByName (id : TypeId) (name : String) : Query (Option FieldId) :=
  ask (.fieldByName id name) fun heap => .ok (heap.declaredField? id name)

def fieldValue (id : ObjectId) (field : FieldId) : Query LiveValue :=
  ask (.fieldValue id field) fun heap =>
    (orFail (heap.instance? id) (.unknownObject id)).map fun object => object.value field

def stringText (id : ObjectId) : Query String :=
  ask (.stringText id) fun heap =>
    (orFail (heap.instance? id) (.unknownObject id)).bind fun object =>
      orFail object.text (.notAString id)

def arrayLength (id : ObjectId) : Query Int32 :=
  ask (.arrayLength id) fun heap =>
    (orFail (heap.instance? id) (.unknownObject id)).bind fun object =>
      orFail object.length (.notAnArray id)

/-- Whether assertions are on at a location; none if that cannot be determined. -/
def assertionStatus (location : Location) : Query (Option Bool) :=
  ask (.assertionStatus location) fun heap => .ok (heap.assertions.lookup location.signature).join

end Query

end PauseFlow
