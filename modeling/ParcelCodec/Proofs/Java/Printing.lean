import ParcelCodec.Java.Type
import ParcelCodec.Proofs.Codec.Tame
import ParcelCodec.Proofs.Java.Parsing

/-!
# Printing a type and parsing it back

A printed type falls into the tokens that it is made of (`JavaType.words`), which derive the type as
it is written (`JavaType.written`), so parsing the printed text gives just that.  A type can be told
from how it is written, so no two types are printed alike.

Main statement: `JavaType.parse_display`.
-/

namespace ParcelCodec.JavaType

open ParcelCodec.TypeSyntax ParcelCodec.TypeSyntax.Token

/-! ## §1. A resolved type as it is written, and its tokens. -/

mutual

/-- The type with the same primitives, names, arguments and brackets. -/
def written : JavaType → TypeSyntax
  | .primitive p => .primitive p
  | .declared name args => .named name (writtenArgs args)
  | .array component => .array component.written

/-- Type arguments as they are written. -/
def writtenArgs : List JavaType → List TypeSyntax
  | [] => []
  | t :: rest => t.written :: writtenArgs rest

end

mutual

/-- The texts of the tokens of a type. -/
def words : JavaType → List String
  | .primitive p => [p.keyword]
  | .declared name args =>
    if args.isEmpty then [name]
    else name :: "<" :: ([","].intercalate (wordsOfArgs args) ++ [">"])
  | .array component => component.words ++ ["[]"]

/-- The texts of the tokens of each type argument. -/
def wordsOfArgs : List JavaType → List (List String)
  | [] => []
  | t :: rest => t.words :: wordsOfArgs rest

end

mutual

/-- A type can be told from how it is written. -/
theorem written_inj : ∀ {t t' : JavaType}, t.written = t'.written → t = t'
  | .primitive p, t', h => by
    cases t' with
    | primitive p' =>
      simp only [written, TypeSyntax.primitive.injEq] at h
      rw [h]
    | _ => simp [written] at h
  | .declared name args, t', h => by
    cases t' with
    | declared name' args' =>
      simp only [written, TypeSyntax.named.injEq] at h
      rw [h.1, writtenArgs_inj h.2]
    | _ => simp [written] at h
  | .array component, t', h => by
    cases t' with
    | array component' =>
      simp only [written, TypeSyntax.array.injEq] at h
      rw [written_inj h]
    | _ => simp [written] at h

/-- Arguments that are written alike are equal. -/
theorem writtenArgs_inj : ∀ {ts ts' : List JavaType}, writtenArgs ts = writtenArgs ts' → ts = ts'
  | [], [], _ => rfl
  | [], _ :: _, h => by simp [writtenArgs] at h
  | _ :: _, [], h => by simp [writtenArgs] at h
  | t :: rest, t' :: rest', h => by
    simp only [writtenArgs, List.cons.injEq] at h
    rw [written_inj h.1, writtenArgs_inj h.2]

end

/-- All names of the type are names to the parser. -/
def WellNamed (t : JavaType) : Prop := ∀ name ∈ t.names, IsName name

/-- All names of type arguments are names to the parser. -/
def WellNamedArgs (args : List JavaType) : Prop := ∀ name ∈ namesOfArgs args, IsName name

/-- A well-named type has a name that can be written, and well-named arguments. -/
theorem wellNamed_declared {name : String} {args : List JavaType}
    (h : WellNamed (.declared name args)) : IsName name ∧ WellNamedArgs args :=
  List.forall_mem_cons.mp h

theorem wellNamed_array {component : JavaType} (h : WellNamed (.array component)) :
    WellNamed component := h

theorem wellNamedArgs_cons {t : JavaType} {rest : List JavaType}
    (h : WellNamedArgs (t :: rest)) : WellNamed t ∧ WellNamedArgs rest :=
  List.forall_mem_append.mp h

/-! ## §2. The tokens derive what is written. -/

/-- Another pair of brackets behind a type that is no wildcard. -/
theorem isReference_brackets {ws : List String} {t : TypeSyntax} (h : IsReference ws t) :
    IsReference (ws ++ ["[]"]) (.array t) := by
  have replicate (n : Nat) :
      List.replicate n "[]" ++ ["[]"] = List.replicate (n + 1) "[]" := List.replicate_succ'.symm
  cases h with
  | primitive p n =>
    rw [List.cons_append, replicate, ← arrays_succ]
    exact .primitive p (n + 1)
  | name isName n =>
    rw [List.cons_append, replicate, ← arrays_succ]
    exact .name isName (n + 1)
  | generic isName args n =>
    rw [List.cons_append, List.cons_append, List.append_assoc, List.cons_append, replicate,
      ← arrays_succ]
    exact .generic isName args (n + 1)

mutual

/-- The words of a type derive what is written for it. -/
theorem isReference_words : ∀ t : JavaType, WellNamed t → IsReference t.words t.written
  | .primitive p, _ => .primitive p 0
  | .declared name args, h => by
    obtain ⟨isName, wellNamed⟩ := wellNamed_declared h
    unfold words written
    by_cases bare : args = []
    · subst bare
      exact .name isName 0
    · rw [if_neg (mt List.isEmpty_iff.mp bare)]
      exact .generic isName (areArguments_words args bare wellNamed) 0
  | .array component, h => isReference_brackets (isReference_words component (wellNamed_array h))

/-- The words of some arguments derive what is written for them. -/
theorem areArguments_words : ∀ args : List JavaType, args ≠ [] → WellNamedArgs args →
    AreArguments ([","].intercalate (wordsOfArgs args)) (writtenArgs args)
  | [], filled, _ => absurd rfl filled
  | [t], _, h => by
    have only : AreArguments t.words [t.written] :=
      .last (.reference (isReference_words t (wellNamedArgs_cons h).1))
    simpa [wordsOfArgs, writtenArgs] using only
  | t :: next :: rest, _, h => by
    obtain ⟨first, others⟩ := wellNamedArgs_cons h
    rw [wordsOfArgs, wordsOfArgs, List.intercalate_cons_cons, List.append_assoc]
    exact .more (.reference (isReference_words t first))
      (areArguments_words (next :: rest) nofun others)

end

/-! ## §3. The printed text falls into the tokens. -/

/-- A keyword is a name without a dot. -/
theorem isDottedName_keyword (p : Java.Primitive) : IsDottedName p.keyword.toList :=
  (isTypeName_iff _).mp (isTypeName_keyword p)

/-- A printed type starts with the first character of a name. -/
theorem exists_start_display : ∀ t : JavaType, WellNamed t →
    ∃ c cs, t.display.toList = c :: cs ∧ isNameStart c = true
  | .primitive p, _ => exists_start (isDottedName_keyword p)
  | .declared name args, h => by
    obtain ⟨c, cs, same, start⟩ := exists_start (wellNamed_declared h).1.1
    unfold display
    split
    · exact ⟨c, cs, same, start⟩
    · simp only [String.toList_append, same]
      exact ⟨c, _, rfl, start⟩
  | .array component, h => by
    obtain ⟨c, cs, same, start⟩ := exists_start_display component (wellNamed_array h)
    exact ⟨c, cs ++ ['[', ']'], by simp [display, same], start⟩

/-- So do printed type arguments. -/
theorem exists_start_displayArgs (t : JavaType) (rest : List JavaType) (h : WellNamed t) :
    ∃ c cs, (", ".intercalate (displayArgs (t :: rest))).toList = c :: cs ∧
      isNameStart c = true := by
  obtain ⟨c, cs, same, start⟩ := exists_start_display t h
  cases rest with
  | nil => exact ⟨c, cs, by simpa [displayArgs] using same, start⟩
  | cons next rest =>
    rw [displayArgs, displayArgs, String.intercalate_cons_cons, String.toList_append,
      String.toList_append, same]
    exact ⟨c, _, rfl, start⟩

mutual

/-- The text of a type spells its words, in front of whatever follows a break. -/
theorem spells_display : ∀ t : JavaType, WellNamed t → ∀ {rest : List Char} {ws : List String},
    Breaks rest → Spells rest ws → Spells (t.display.toList ++ rest) (t.words ++ ws)
  | .primitive p, _, rest, ws, breaks, spelled =>
    spells_name (isDottedName_keyword p) breaks spelled
  | .declared name args, h, rest, ws, breaks, spelled => by
    obtain ⟨isName, wellNamed⟩ := wellNamed_declared h
    unfold display words
    by_cases bare : args = []
    · subst bare
      exact spells_name isName.1 breaks spelled
    · rw [if_neg (mt List.isEmpty_iff.mp bare), if_neg (mt List.isEmpty_iff.mp bare)]
      have closed : Spells ('>' :: rest) (">" :: ws) := spells_mark (by decide) spelled
      have inner := spells_displayArgs args bare wellNamed closed
      have opened : Spells ('<' :: _) ("<" :: _) := spells_mark (by decide) inner
      have whole := spells_name isName.1 (breaks_cons (by decide) _) opened
      simpa using whole
  | .array component, h, rest, ws, breaks, spelled => by
    have breaks' : Breaks ('[' :: ']' :: rest) := breaks_cons (by decide) _
    have whole := spells_display component (wellNamed_array h) breaks' (spells_brackets spelled)
    simpa [display, words] using whole

/-- So does the text of its arguments, in front of the closing bracket. -/
theorem spells_displayArgs : ∀ args : List JavaType, args ≠ [] → WellNamedArgs args →
    ∀ {rest : List Char} {ws : List String}, Spells ('>' :: rest) ws →
      Spells ((", ".intercalate (displayArgs args)).toList ++ '>' :: rest)
        ([","].intercalate (wordsOfArgs args) ++ ws)
  | [], filled, _, _, _, _ => absurd rfl filled
  | [t], _, h, rest, ws, spelled => by
    have only := spells_display t (wellNamedArgs_cons h).1 (breaks_cons (by decide) rest) spelled
    simpa [displayArgs, wordsOfArgs] using only
  | t :: next :: others, _, h, rest, ws, spelled => by
    obtain ⟨first, behind⟩ := wellNamedArgs_cons h
    have more := spells_displayArgs (next :: others) nofun behind spelled
    obtain ⟨c, cs, same, start⟩ := exists_start_displayArgs next others (wellNamedArgs_cons behind).1
    have blank : Spells (' ' :: _) _ := spells_blank (fun d rest eq => by
      rw [same] at eq
      cases eq
      exact isBlank_of_isNamePart (isNamePart_of_isNameStart start)) more
    have comma : Spells (',' :: _) ("," :: _) := spells_mark (by decide) blank
    have whole := spells_display t first (breaks_cons (by decide) _) comma
    rw [displayArgs, displayArgs, wordsOfArgs, wordsOfArgs, String.intercalate_cons_cons,
      List.intercalate_cons_cons]
    simpa [displayArgs, wordsOfArgs] using whole

end

/-- **Printing a type and parsing it back is the identity**, so no two types are printed alike. -/
theorem parse_display {t : JavaType} (h : WellNamed t) :
    TypeSyntax.parse t.display = .ok t.written ∧
      ∀ t' : JavaType, WellNamed t' → t'.display = t.display → t' = t := by
  have parsed {t : JavaType} (h : WellNamed t) : TypeSyntax.parse t.display = .ok t.written := by
    have spelled := spells_display t h breaks_nil spells_nil
    rw [List.append_nil, List.append_nil] at spelled
    obtain ⟨before, done, scanned, empty, texts⟩ := spelled _ .start (Nat.le_refl _)
    have derived : IsType (before.map Token.text) t.written := by
      rw [texts]
      exact .reference (isReference_words t h)
    have scanned' : scan t.display = .ok (before ++ [done]) := scanned
    rw [TypeSyntax.parse, scanned']
    exact (ofTokens_eq_ok_iff _ _).mpr ⟨before, done, [], rfl, empty, derived⟩
  refine ⟨parsed h, fun t' h' alike => written_inj ?_⟩
  have same := parsed h'
  rw [alike, parsed h] at same
  exact (Except.ok.inj same).symm

/-- A map from strings to arrays of lists of `int[]`. -/
def nested : JavaType :=
  .declared "java.util.Map" [.named "String",
    .array (.declared "java.util.List" [.array (.primitive .int)])]

/-- Nested arguments and brackets: the printed text has `>[]>` at its end. -/
theorem parse_display_nested :
    nested.display = "java.util.Map<String, java.util.List<int[]>[]>" ∧ WellNamed nested ∧
      TypeSyntax.parse nested.display = .ok nested.written := by
  have wellNamed : WellNamed nested := by
    have names : nested.names = ["java.util.Map", "String", "java.util.List"] := by decide
    intro name mem
    rw [names] at mem
    have test : isTypeName name = true ∧ Java.Primitive.ofKeyword? name = none := by
      simp only [List.mem_cons, List.not_mem_nil, or_false] at mem
      rcases mem with rfl | rfl | rfl <;> decide
    exact ⟨(isTypeName_iff name).mp test.1, test.2⟩
  exact ⟨by decide, wellNamed, (parse_display wellNamed).1⟩

end ParcelCodec.JavaType
