namespace PauseFlow

structure Queue (Element : Type) where
  front : List Element
  /-- The elements behind those, the latest first. -/
  back : List Element

namespace Queue

variable {Element : Type}

def toList (queue : Queue Element) : List Element := queue.front ++ queue.back.reverse

def ofList (elements : List Element) : Queue Element := ⟨elements, []⟩

/-- Put elements at the end. -/
def append (queue : Queue Element) (elements : List Element) : Queue Element :=
  ⟨queue.front, elements.reverse ++ queue.back⟩

/-- The next element, and the queue without it. -/
def pop? (queue : Queue Element) : Option (Element × Queue Element) :=
  match queue.front with
  | first :: rest => some (first, ⟨rest, queue.back⟩)
  | [] =>
    match queue.back.reverse with
    | first :: rest => some (first, ⟨rest, []⟩)
    | [] => none

theorem toList_ofList (elements : List Element) : (ofList elements).toList = elements := by
  simp [ofList, toList]

theorem toList_append (queue : Queue Element) (elements : List Element) :
    (queue.append elements).toList = queue.toList ++ elements := by
  simp [append, toList]

theorem toList_of_pop? {queue rest : Queue Element} {first : Element}
    (popped : queue.pop? = some (first, rest)) : queue.toList = first :: rest.toList := by
  obtain ⟨front, back⟩ := queue
  cases front with
  | cons head tail =>
    simp only [pop?, Option.some.injEq, Prod.mk.injEq] at popped
    obtain ⟨rfl, rfl⟩ := popped
    rfl
  | nil =>
    simp only [pop?] at popped
    split at popped
    · rename_i head tail reversed
      simp only [Option.some.injEq, Prod.mk.injEq] at popped
      obtain ⟨rfl, rfl⟩ := popped
      simp [toList, reversed]
    · cases popped

theorem toList_of_pop?_eq_none {queue : Queue Element} (empty : queue.pop? = none) :
    queue.toList = [] := by
  obtain ⟨front, back⟩ := queue
  cases front with
  | cons head tail => simp [pop?] at empty
  | nil =>
    simp only [pop?] at empty
    split at empty
    · cases empty
    · rename_i reversed
      simp [toList, reversed]

end Queue

end PauseFlow
