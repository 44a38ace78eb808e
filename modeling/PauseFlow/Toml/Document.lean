import PauseFlow.Toml.Statement

namespace PauseFlow.Toml

/-- A header with the assignments below it. -/
structure Section where
  header : Header
  assignments : List Assignment

/-- The assignments before the first header, and the sections. -/
def sections : List Statement → List Assignment × List Section
  | [] => ([], [])
  | .assignment assignment :: rest =>
    let (first, others) := sections rest
    (assignment :: first, others)
  | .header header :: rest =>
    let (first, others) := sections rest
    ([], ⟨header, first⟩ :: others)

/-- Set all keys of one section. -/
def fill (assignments : List Assignment) (entries : Entries) : Option Entries :=
  assignments.foldlM Assignment.applyTo entries

def Section.applyTo (entries : Entries) (part : Section) : Option Entries :=
  let change := if part.header.isElement then Entries.openElement else Entries.openTable
  entries.changeAt (change part.header.key (fill part.assignments)) part.header.parents

def ofStatements? (statements : List Statement) : Option Table := do
  let (first, others) := sections statements
  let entries ← fill first []
  return sealEntries (← others.foldlM Section.applyTo entries)

/-- Read a document; none if it is not well formed. -/
def read? (text : String) : Option Table :=
  statements.readAll text.toList >>= ofStatements?

end PauseFlow.Toml
