import PauseFlow.Logging.FieldValue
import PauseFlow.Logging.Level
import PauseFlow.Text.Alphanumeric
import PauseFlow.Text.Blank
import PauseFlow.Text.Bytes

namespace PauseFlow.Logging

/-- A field by name, and the value it must have, if any. -/
structure FieldTest where
  name : String
  value : Option FieldValue
deriving DecidableEq

structure Directive where
  target : Option String
  span : Option String
  field : Option FieldTest
  level : Level
deriving DecidableEq

namespace FieldTest

/-- A name, and a value after an equals sign; what follows a second one is dropped. -/
def ofText? (text : List Char) : Option FieldTest :=
  match Text.pieces '=' text with
  | name :: value :: _ =>
    (FieldValue.ofText? value).map fun value => ⟨String.ofList name, some value⟩
  | _ => some ⟨String.ofList text, none⟩

def text (test : FieldTest) : String :=
  match test.value with
  | none => test.name
  | some value => test.name ++ "=" ++ value.text

/-- Tests without a value come first, then the order is by name and value. -/
def compare (left right : FieldTest) : Ordering :=
  (Ord.compare left.value.isSome right.value.isSome).then <|
    (Ord.compare left.name right.name).then <|
      match left.value, right.value with
      | some left, some right => left.compare right
      | _, _ => .eq

end FieldTest

namespace Directive

/-- What may start a target. -/
def startsTarget (char : Char) : Bool := char ∈ ['-', ':', '_'] || Text.isAlphanumeric char

/-- A level after an equals sign; without one, everything. -/
def levelText? (text : List Char) : Option Level :=
  if text = [] then some .trace else Level.ofText? text

/-- A level for everything, or a target for which everything is logged. -/
def ofLevelOrTarget (text : List Char) : Directive :=
  match Level.ofText? text with
  | some level => ⟨none, none, none, level⟩
  | none => ⟨some (String.ofList text), none, none, .trace⟩

/-- A text under inspection. Positions are found in the text without the blanks around it,
and the parts are cut from the whole text after as many bytes. -/
structure Source where
  whole : List Char
  trimmed : List Char

namespace Source

def ofText (text : List Char) : Source := ⟨text, Text.trim text⟩

/-- What is left of the trimmed text from a position on. -/
def rest (source : Source) (position : Nat) : List Char := source.trimmed.drop position

/-- The first position from `start` on where one of the characters stands, or the end. -/
def find (source : Source) (start : Nat) (chars : List Char) : Nat :=
  start + ((source.rest start).takeWhile (· ∉ chars)).length

/-- What is left of the whole text from a position on. -/
def tail? (source : Source) (position : Nat) : Option (List Char) :=
  Text.dropBytes? source.whole (Text.byteCount (source.trimmed.take position))

/-- The part of the whole text between two positions. -/
def cut? (source : Source) (start stop : Nat) : Option String := do
  let size := Text.byteCount ((source.rest start).take (stop - start))
  return String.ofList (← Text.takeBytes? (← source.tail? start) size)

/-- The level from a position on. -/
def level? (source : Source) (position : Nat) : Option Level :=
  (source.tail? position).bind levelText?

end Source

/-- What follows the bracket after a span: nothing, or a level. -/
def afterSpan? (source : Source) (directive : Directive) (position : Nat) : Option Directive :=
  match source.rest position with
  | [] => some directive
  | '=' :: _ => (source.level? (position + 1)).map fun level => { directive with level := level }
  | _ => none

/-- A span, from the position after its bracket: a name, a field in braces, or both. -/
def span? (source : Source) (target : Option String) (start : Nat) : Option Directive := do
  let stop := source.find start [']', '\x7b']
  let name ← source.cut? start stop
  match source.rest stop with
  | ']' :: _ => afterSpan? source ⟨target, some name, none, .trace⟩ (stop + 1)
  | '\x7b' :: _ =>
    let close := source.find (stop + 1) ['\x7d']
    let field ← source.cut? (stop + 1) close
    let span := if name = "" then none else some name
    match source.rest close with
    | '\x7d' :: ']' :: _ =>
      if field = "" then none
      else do
        let field ← FieldTest.ofText? field.toList
        afterSpan? source ⟨target, span, some field, .trace⟩ (close + 2)
    | _ => none
  | _ => none

/-- A directive without commas: a level, a target with an optional level, or a span with an
optional target in front and an optional level behind. -/
def ofText? (text : List Char) : Option Directive :=
  let source := Source.ofText text
  match source.trimmed with
  | [] => none
  | '[' :: _ => span? source none 1
  | first :: _ =>
    if startsTarget first then do
      let stop := source.find 0 ['=', '[']
      match source.rest stop with
      | '=' :: _ =>
        let target ← source.cut? 0 stop
        return ⟨some target, none, none, ← source.level? (stop + 1)⟩
      | '[' :: _ =>
        let target ← source.cut? 0 stop
        span? source (some target) (stop + 1)
      | _ => return ofLevelOrTarget source.whole
    else none

/-- The target and the span in front of a level. -/
def scopeText (directive : Directive) : String :=
  let braced := directive.field.elim "" fun field => "\x7b" ++ field.text ++ "\x7d"
  let bracketed :=
    if directive.span.isSome ∨ directive.field.isSome then
      "[" ++ directive.span.getD "" ++ braced ++ "]"
    else ""
  directive.target.getD "" ++ bracketed

def hasScope (directive : Directive) : Bool :=
  directive.target.isSome || directive.span.isSome || directive.field.isSome

def text (directive : Directive) : String :=
  (if directive.hasScope then directive.scopeText ++ "=" else "") ++ directive.level.name

/-- Directives that can be decided from a target and field names alone. -/
def isStatic (directive : Directive) : Bool :=
  directive.span.isNone && (directive.field.all fun field => field.value.isNone)

/-- Directives that depend on the span or on fields. -/
def isDynamic (directive : Directive) : Bool :=
  directive.span.isSome || directive.field.isSome

/-- How specific a scope is: by the length of the target, whether there is a span and
whether there is a field; then by the texts themselves. The level does not count. -/
def compareScope (left right : Directive) : Ordering :=
  let compareWith {α : Type} (compare : α → α → Ordering) : Option α → Option α → Ordering
    | none, none => .eq
    | none, some _ => .lt
    | some _, none => .gt
    | some left, some right => compare left right
  let targetLength (directive : Directive) := directive.target.map String.utf8ByteSize
  (compareWith Ord.compare (targetLength left) (targetLength right)).then <|
    (Ord.compare left.span.isSome right.span.isSome).then <|
      (Ord.compare left.field.isSome right.field.isSome).then <|
        (compareWith Ord.compare left.target right.target).then <|
          (compareWith Ord.compare left.span right.span).then <|
            compareWith FieldTest.compare left.field right.field

end Directive

end PauseFlow.Logging
