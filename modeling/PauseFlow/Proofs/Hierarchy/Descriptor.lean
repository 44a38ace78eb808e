import PauseFlow.Proofs.Hierarchy.Naming

/-! The grammar of signatures. The reader takes any name between `L` and `;` that is known once its
slashes are dots. Of what it takes, exactly the signatures without dots whose class names are made
of proper segments are field descriptors, and exactly those without dots are written back. -/
namespace PauseFlow

private theorem PrimitiveKind.ofDescriptor?_descriptor (kind : PrimitiveKind) :
    ofDescriptor? kind.descriptor = some kind := by
  cases kind <;> rfl

namespace Signature

/-- What a signature denotes over a table, with the names that may stand between `L` and `;`. -/
inductive Denotes (table : ClassTable) (allows : List Char → Prop) :
    List Char → JvmType → Prop where
  | primitive (kind : PrimitiveKind) : Denotes table allows [kind.descriptor] (.primitive kind)
  | ofClass {name : List Char} {id : ClassId} (allowed : allows name)
      (known : table.lookup (dotted name) = some id) :
      Denotes table allows ('L' :: (name ++ [';'])) (.ofClass id)
  | arrayOf {signature : List Char} {type : JvmType} (element : Denotes table allows signature type) :
      Denotes table allows ('[' :: signature) (.arrayOf type)

/-- Letters that the segments of a class name are made of. -/
def isSegmentLetter (letter : Char) : Bool := letter ∉ ['.', ';', '[', '/']

/-- Segments with slashes between them, none of them empty. -/
inductive InternalName : List Char → Prop where
  | segment {segment : List Char} (nonempty : segment ≠ [])
      (letters : ∀ letter ∈ segment, isSegmentLetter letter = true) : InternalName segment
  | within {segment name : List Char} (nonempty : segment ≠ [])
      (letters : ∀ letter ∈ segment, isSegmentLetter letter = true) (rest : InternalName name) :
      InternalName (segment ++ '/' :: name)

/-- A text with slashes for dots. -/
def slashed (text : List Char) : List Char :=
  text.map fun letter => if letter = '.' then '/' else letter

/-- Whether the class at the bottom of a type has a name of proper segments with dots between. -/
def ProperlyNamed (table : ClassTable) : JvmType → Prop
  | .primitive _ => True
  | .ofClass id => InternalName (slashed (table.nameOf id).toList)
  | .arrayOf element => ProperlyNamed table element

/-- The signature of a type, with slashes in the name of its class. -/
def written (table : ClassTable) : JvmType → List Char
  | .primitive kind => [kind.descriptor]
  | .ofClass id => 'L' :: (slashed (table.nameOf id).toList ++ [';'])
  | .arrayOf element => '[' :: written table element

private theorem slashed_dotted (name : List Char) : slashed (dotted name).toList = slashed name :=
    by
  simp only [slashed, dotted, String.toList_ofList, List.map_map]
  refine List.map_congr_left fun letter _ => ?_
  by_cases slash : letter = '/'
  · simp [slash]
  · simp [slash]

private theorem dotted_slashed (name : List Char) : dotted (slashed name) = dotted name := by
  simp only [slashed, dotted, List.map_map]
  refine congrArg String.ofList (List.map_congr_left fun letter _ => ?_)
  by_cases dot : letter = '.'
  · simp [dot]
  · simp [dot]

private theorem slashed_eq_self_iff {text : List Char} : slashed text = text ↔ '.' ∉ text := by
  constructor
  · intro same member
    have replaced : '.' ∈ slashed text := same.symm ▸ member
    obtain ⟨letter, _, becomes⟩ := List.mem_map.mp replaced
    split at becomes
    · cases becomes
    · rename_i other
      exact other becomes
  · intro free
    have kept : ∀ letter ∈ text, (if letter = '.' then '/' else letter) = id letter := by
      intro letter member
      refine if_neg fun dot => free ?_
      rwa [← dot]
    exact (List.map_congr_left kept).trans (List.map_id text)

/-- Slashes for dots leave a letter alone that is neither. -/
theorem slashed_eq_cons_iff {text rest : List Char} {letter : Char} (noSlash : letter ≠ '/')
    (noDot : letter ≠ '.') :
    slashed text = letter :: rest ↔ ∃ tail, text = letter :: tail ∧ slashed tail = rest := by
  constructor
  · intro same
    obtain ⟨first, tail, rfl, becomes, remains⟩ := List.map_eq_cons_iff.mp same
    split at becomes
    · exact absurd becomes.symm noSlash
    · exact ⟨tail, by rw [becomes], remains⟩
  · rintro ⟨tail, rfl, rfl⟩
    simp [slashed, noDot]

section Reading

variable {table : ClassTable} {allows : List Char → Prop} {signature : List Char} {type : JvmType}

private theorem className?_eq_some_iff {name : List Char} :
    className? signature = some name ↔ signature = 'L' :: (name ++ [';']) := by
  constructor
  · intro spelled
    unfold className? at spelled
    split at spelled
    · rename_i rest
      split at spelled
      · rename_i ended
        obtain ⟨front, rfl⟩ := List.getLast?_eq_some_iff.mp ended
        rw [List.dropLast_concat, Option.some.injEq] at spelled
        rw [spelled]
      · cases spelled
    · cases spelled
  · rintro rfl
    simp [className?]

private theorem denotes_of_elementType? (denotes : elementType? table signature = some type) :
    Denotes table (· ≠ []) signature type := by
  unfold elementType? at denotes
  split at denotes
  · rename_i letter
    obtain ⟨kind, described, rfl⟩ := Option.map_eq_some_iff.mp denotes
    have same : kind.descriptor = letter := by simpa using List.find?_some described
    exact same ▸ .primitive kind
  · split at denotes
    · cases denotes
    · rename_i name nonempty spelled
      obtain ⟨id, known, rfl⟩ := Option.map_eq_some_iff.mp denotes
      rw [className?_eq_some_iff.mp spelled]
      exact .ofClass nonempty known
    · cases denotes

/-- What the reader makes of a list of letters. -/
def typeOf? (table : ClassTable) (signature : List Char) : Option JvmType :=
  (elementType? table (element signature)).map fun type => type.arrayOfDepth (depth signature)

private theorem typeOf?_bracket (table : ClassTable) (rest : List Char) :
    typeOf? table ('[' :: rest) = (typeOf? table rest).map .arrayOf := by
  simp only [typeOf?, Option.map_map]
  rfl

private theorem typeOf?_of_ne {first : Char} (other : first ≠ '[') (table : ClassTable)
    (rest : List Char) : typeOf? table (first :: rest) = elementType? table (first :: rest) := by
  simp [typeOf?, element, depth, other, JvmType.arrayOfDepth]

private theorem typeOf?_eq_some_iff :
    typeOf? table signature = some type ↔ Denotes table (· ≠ []) signature type := by
  constructor
  · intro denotes
    induction signature generalizing type with
    | nil => cases denotes
    | cons first rest ih =>
      by_cases bracket : first = '['
      · subst bracket
        rw [typeOf?_bracket] at denotes
        obtain ⟨element, known, rfl⟩ := Option.map_eq_some_iff.mp denotes
        exact .arrayOf (ih known)
      · rw [typeOf?_of_ne bracket] at denotes
        exact denotes_of_elementType? denotes
  · intro denotes
    induction denotes with
    | primitive kind =>
      have other : kind.descriptor ≠ '[' := by cases kind <;> decide
      rw [typeOf?_of_ne other]
      simp [elementType?, kind.ofDescriptor?_descriptor]
    | @ofClass name id nonempty known =>
      have spelled : className? ('L' :: (name ++ [';'])) = some name := className?_eq_some_iff.mpr rfl
      obtain ⟨letter, rest, rfl⟩ := List.exists_cons_of_ne_nil nonempty
      rw [typeOf?_of_ne (by decide)]
      simp only [List.cons_append] at spelled
      simp [elementType?, spelled, known]
    | arrayOf _ ih => rw [typeOf?_bracket, ih, Option.map_some]

/-- Written back, a signature has slashes for dots. -/
theorem Denotes.written_eq (denotes : Denotes table allows signature type) :
    written table type = slashed signature := by
  induction denotes with
  | primitive kind => cases kind <;> rfl
  | ofClass _ known =>
    rw [written, ClassTable.nameOf_of_lookup known, slashed_dotted]
    simp [slashed]
  | arrayOf _ ih =>
    rw [written, ih]
    rfl

/-- A signature denotes what it denotes with slashes for dots. -/
theorem Denotes.of_slashed (denotes : Denotes table (· ≠ []) signature type) {other : List Char}
    (same : slashed other = slashed signature) : Denotes table (· ≠ []) other type := by
  induction denotes generalizing other with
  | primitive kind =>
    have letters : kind.descriptor ≠ '/' ∧ kind.descriptor ≠ '.' := by cases kind <;> decide
    have kept : slashed [kind.descriptor] = [kind.descriptor] := by cases kind <;> rfl
    obtain ⟨tail, rfl, nothing⟩ := (slashed_eq_cons_iff letters.1 letters.2).mp (same.trans kept)
    obtain rfl : tail = [] := List.map_eq_nil_iff.mp nothing
    exact .primitive kind
  | @ofClass name id nonempty known =>
    have parts : slashed ('L' :: (name ++ [';'])) = 'L' :: (slashed name ++ [';']) := by
      simp [slashed]
    obtain ⟨tail, rfl, rest⟩ := (slashed_eq_cons_iff (by decide) (by decide)).mp (same.trans parts)
    obtain ⟨own, last, rfl, sameName, closing⟩ := List.map_eq_append_iff.mp rest
    obtain ⟨nothing, rfl, empty⟩ := (slashed_eq_cons_iff (by decide) (by decide)).mp closing
    obtain rfl : nothing = [] := List.map_eq_nil_iff.mp empty
    refine .ofClass (fun none => nonempty ?_) ?_
    · rw [none] at sameName
      exact List.map_eq_nil_iff.mp sameName.symm
    · rw [← dotted_slashed own, show slashed own = slashed name from sameName, dotted_slashed]
      exact known
  | arrayOf _ ih =>
    obtain ⟨tail, rfl, rest⟩ := (slashed_eq_cons_iff (by decide) (by decide)).mp same
    exact .arrayOf (ih rest)

end Reading

namespace InternalName

private theorem ne_nil {name : List Char} (internal : InternalName name) : name ≠ [] := by
  cases internal with
  | segment nonempty _ => exact nonempty
  | within _ _ _ => simp

private theorem dot_not_mem {name : List Char} (internal : InternalName name) : '.' ∉ name := by
  induction internal with
  | segment _ letters => exact fun member => absurd (letters '.' member) (by decide)
  | within _ letters _ ih =>
    intro member
    rcases List.mem_append.mp member with inSegment | later
    · exact absurd (letters '.' inSegment) (by decide)
    · rcases List.mem_cons.mp later with dot | inRest
      · cases dot
      · exact ih inRest

end InternalName

/-- Field descriptors are the signatures without dots, of classes with proper names. -/
theorem denotes_internalName_iff {table : ClassTable} {signature : List Char} {type : JvmType} :
    Denotes table InternalName signature type ↔
      Denotes table (· ≠ []) signature type ∧ '.' ∉ signature ∧ ProperlyNamed table type := by
  constructor
  · intro denotes
    induction denotes with
    | primitive kind => exact ⟨.primitive kind, by cases kind <;> decide, trivial⟩
    | @ofClass name id internal known =>
      have free := internal.dot_not_mem
      refine ⟨.ofClass internal.ne_nil known, by simp [free], ?_⟩
      rw [ProperlyNamed, ClassTable.nameOf_of_lookup known, slashed_dotted,
        slashed_eq_self_iff.mpr free]
      exact internal
    | arrayOf _ ih => exact ⟨.arrayOf ih.1, by simp [ih.2.1], ih.2.2⟩
  · rintro ⟨denotes, free, proper⟩
    induction denotes with
    | primitive kind => exact .primitive kind
    | ofClass nonempty known =>
      simp only [List.mem_cons, List.mem_append, not_or] at free
      rw [ProperlyNamed, ClassTable.nameOf_of_lookup known, slashed_dotted,
        slashed_eq_self_iff.mpr free.2.1] at proper
      exact .ofClass proper known
    | arrayOf _ ih =>
      simp only [List.mem_cons, not_or] at free
      exact .arrayOf (ih free.2 proper)

/-- The reader takes brackets and a primitive descriptor, or brackets, `L`, a name that is known with
dots for slashes, and `;`. What it takes is a field descriptor if it has no dots and its class has a
proper name. It is written back if it has no dots, and with slashes for them otherwise. Signatures
that differ in dots for slashes, and only these, denote the same type. -/
theorem type?_fieldDescriptor_iff (table : ClassTable) (signature : String) (type : JvmType) :
    (type? table signature = some type ↔ Denotes table (· ≠ []) signature.toList type) ∧
    (Denotes table InternalName signature.toList type ↔
      type? table signature = some type ∧ '.' ∉ signature.toList ∧ ProperlyNamed table type) ∧
    (type? table signature = some type →
      written table type = slashed signature.toList ∧
      (written table type = signature.toList ↔ '.' ∉ signature.toList) ∧
      ∀ other, type? table other = some type ↔
        slashed other.toList = slashed signature.toList) := by
  have reads : ∀ text, type? table text = some type ↔ Denotes table (· ≠ []) text.toList type :=
    fun text => typeOf?_eq_some_iff
  refine ⟨reads signature, ?_, fun taken => ?_⟩
  · rw [reads signature]
    exact denotes_internalName_iff
  · have denotes := (reads signature).mp taken
    refine ⟨denotes.written_eq, ?_, fun other => ?_⟩
    · rw [denotes.written_eq]
      exact slashed_eq_self_iff
    · constructor
      · intro again
        exact ((reads other).mp again).written_eq.symm.trans denotes.written_eq
      · intro same
        exact (reads other).mpr (denotes.of_slashed same)

/-- A dotted name is taken, is no field descriptor, and comes back with slashes. -/
theorem type?_fieldDescriptor_iff_dotted :
    let strings := JvmType.arrayOf (.ofClass ⟨1⟩)
    type? .wellKnown "[Ljava.lang.String;" = some strings ∧
      ¬ Denotes .wellKnown InternalName "[Ljava.lang.String;".toList strings ∧
      written .wellKnown strings = "[Ljava/lang/String;".toList ∧
      type? .wellKnown "[Ljava/lang/String;" = some strings := by
  intro strings
  have taken : type? .wellKnown "[Ljava.lang.String;" = some strings := by decide +kernel
  obtain ⟨_, descriptor, back⟩ := type?_fieldDescriptor_iff .wellKnown "[Ljava.lang.String;" strings
  obtain ⟨rewritten, _, same⟩ := back taken
  refine ⟨taken, fun proper => ?_, ?_, (same _).mpr (by decide +kernel)⟩
  · exact absurd (descriptor.mp proper).2.1 (by decide +kernel)
  · rw [rewritten]
    decide +kernel

end Signature

end PauseFlow
