import ParcelCodec.Java.Source
import ParcelCodec.Proofs.Codec.Makes
import ParcelCodec.Proofs.Codec.Rule
import ParcelCodec.Proofs.Compilation.Links
import ParcelCodec.Proofs.NameScope

/-!
# Creating arrays in source text

Source text creates an array by the class of its innermost elements, which must be bare, with the
length in the first pair of brackets and an empty pair for each further dimension
(`Java.arrayCreation`).  The text of a creation is that one for arrays of one dimension only: the
length is put behind the whole text of the component, and whether something has type arguments is
asked of the component, which has none if it is an array itself.

Main statement: `Java.created_iff_one_dimension`.
-/

namespace ParcelCodec

namespace JavaType

/-! ## §1. Bases and dimensions. -/

/-- The type of what an array holds in the end: the type without its pairs of brackets. -/
def base : JavaType → JavaType
  | .primitive p => .primitive p
  | .declared name args => .declared name args
  | .array component => component.base

/-- The number of pairs of brackets of a type. -/
def dimensions : JavaType → Nat
  | .primitive _ => 0
  | .declared _ _ => 0
  | .array component => component.dimensions + 1

theorem base_eq_self {ty : JavaType} (flat : ty.dimensions = 0) : ty.base = ty := by
  cases ty with
  | array component => cases flat
  | _ => rfl

theorem dimensions_base (ty : JavaType) : ty.base.dimensions = 0 := by
  induction ty using JavaType.base.induct with
  | case1 p => rfl
  | case2 name args => rfl
  | case3 component ih => exact ih

/-- Only what is no array has type arguments. -/
theorem args_of_dimensions {ty : JavaType} (deep : ty.dimensions ≠ 0) : ty.args = [] := by
  cases ty with
  | array component => rfl
  | _ => exact absurd rfl deep

/-- A type without type arguments is bare. -/
theorem erasure_of_args {ty : JavaType} (flat : ty.dimensions = 0) (bare : ty.args = []) :
    ty.erasure = ty := by
  cases ty with
  | primitive p => rfl
  | declared name args =>
    change args = [] at bare
    rw [bare]
    rfl
  | array component => cases flat

/-- Empty pairs of brackets. -/
def brackets (n : Nat) : String := String.join (List.replicate n "[]")

theorem brackets_succ (n : Nat) : brackets (n + 1) = "[]" ++ brackets n := by
  unfold brackets
  rw [List.replicate_succ, String.join_cons]

theorem brackets_succ' (n : Nat) : brackets (n + 1) = brackets n ++ "[]" := by
  unfold brackets
  rw [List.replicate_succ', String.join_append, String.join_cons, String.join_nil,
    String.append_empty]

/-- A type is written with its pairs of brackets behind its base. -/
theorem display_eq (ty : JavaType) : ty.display = ty.base.display ++ brackets ty.dimensions := by
  induction ty using JavaType.base.induct with
  | case1 p => exact (String.append_empty (s := _)).symm
  | case2 name args => exact (String.append_empty (s := _)).symm
  | case3 component ih =>
    show component.display ++ "[]" = component.base.display ++ brackets (component.dimensions + 1)
    rw [ih, brackets_succ', String.append_assoc]

end JavaType

namespace Codebook

variable {b : Codebook} {ty : JavaType}

/-! ## §2. Arrays and tagged values. -/

/-- A class never falls under the rule for arrays. -/
theorem structural_ne_array {name : String} {args : List JavaType} {component : JavaType} :
    b.structural name args ≠ .ok (.array component) := by
  have fallback : structural.fallback b name args ≠ .ok (.array component) := by
    unfold structural.fallback
    split
    · nofun
    · split
      · nofun
      · split <;> nofun
  intro h
  unfold structural at h
  split at h
  · cases h
  · split at h
    · unfold collection at h
      split at h <;> cases h
    · split at h
      · split at h <;> cases h
      · split at h
        · split at h
          · split at h <;> cases h
          · exact fallback h
        · exact fallback h

/-- Only an array falls under the rule for arrays. -/
theorem array_of_classify {component : JavaType} (h : b.classify ty = .ok (.array component)) :
    ty = .array component := by
  rcases rule_of_classify h with ⟨_, _, _, same⟩ | ⟨_, _, same⟩ | h
  · cases same
  · cases same
  · cases ty with
    | primitive p => cases h
    | array component' =>
      cases h
      rfl
    | declared name args => exact absurd h structural_ne_array

/-- No array is a tagged value. -/
theorem dimensions_of_tagged (h : b.classify ty = .ok (.leaf .tagged)) : ty.dimensions = 0 := by
  rcases rule_of_classify h with ⟨_, _, _, same⟩ | ⟨l, exact, same⟩ | h
  · cases same
  · cases same
    unfold exactLeaf? at exact
    split at exact <;> first | cases exact | rfl
  · cases ty with
    | array component => cases h
    | _ => rfl

end Codebook

namespace Java

open JavaType (brackets)
open Surroundings (arrayTypes)

/-! ## §3. Creations. -/

/-- The text that creates an array with elements of some type: the bare base with the length in the
first pair of brackets, and a cast if the base has type arguments. -/
def arrayCreation (element : JavaType) (length : String) : String :=
  let bare := "new " ++ element.base.erasure.display ++ ("[" ++ length ++ "]")
    ++ brackets element.dimensions
  if element.base.args.isEmpty then bare else "(" ++ element.display ++ "[]) " ++ bare

/-- Elements that are no arrays are created as they should be. -/
theorem newArraySource_eq_arrayCreation {element : JavaType} (flat : element.dimensions = 0)
    (length : String) : newArraySource element length = arrayCreation element length := by
  unfold newArraySource arrayCreation
  rw [JavaType.base_eq_self flat, flat]
  by_cases bare : element.args = []
  · rw [JavaType.erasure_of_args flat bare]
    simp [bare, brackets, String.append_assoc]
  · have cast : "[]) new " = "[]) " ++ "new " := rfl
    simp only [List.isEmpty_iff, bare, if_false, brackets, List.replicate_zero, String.join_nil,
      String.append_empty, String.append_assoc]
    rw [cast, String.append_assoc]

/-- The length of an array of arrays stands behind the pairs of brackets of its elements. -/
theorem newArraySource_eq {element : JavaType} (deep : element.dimensions ≠ 0) (length : String) :
    newArraySource element length = "new " ++ element.base.display
      ++ brackets element.dimensions ++ "[" ++ length ++ "]" := by
  unfold newArraySource
  rw [JavaType.args_of_dimensions deep, if_pos List.isEmpty_nil, JavaType.display_eq]
  simp only [String.append_assoc]

/-- A text that does not start with a closing bracket stands in no empty pair of brackets. -/
theorem brackets_append_ne {length : String} {c : Char} {cs : List Char}
    (starts : length.toList = c :: cs) (opens : c ≠ ']') (n : Nat) :
    brackets (n + 1) ++ ("[" ++ length ++ "]") ≠ "[" ++ length ++ "]" ++ brackets (n + 1) := by
  intro same
  have texts := congrArg String.toList same
  rw [JavaType.brackets_succ] at texts
  simp [starts] at texts
  exact opens texts.1.symm

/-- Arrays of arrays are not created as they should be. -/
theorem newArraySource_ne_arrayCreation {element : JavaType} (deep : element.dimensions ≠ 0)
    {length : String} {c : Char} {cs : List Char} (starts : length.toList = c :: cs)
    (opens : c ≠ ']') : newArraySource element length ≠ arrayCreation element length := by
  obtain ⟨n, dimensions⟩ := Nat.exists_eq_succ_of_ne_zero deep
  rw [newArraySource_eq deep]
  unfold arrayCreation
  by_cases bare : element.base.args = []
  · rw [if_pos (List.isEmpty_iff.mpr bare), JavaType.erasure_of_args element.dimensions_base bare,
      dimensions]
    simp only [String.append_assoc]
    intro same
    have behind := (String.append_right_inj _).mp ((String.append_right_inj _).mp same)
    exact brackets_append_ne starts opens n (by simpa only [String.append_assoc] using behind)
  · -- One text starts with the creation and the other one with the cast.
    intro same
    have texts := congrArg String.toList same
    simp [bare] at texts

/-- The length is put where it belongs if the elements are no arrays, and only then. -/
theorem newArraySource_eq_arrayCreation_iff (element : JavaType) {length : String} {c : Char}
    {cs : List Char} (starts : length.toList = c :: cs) (opens : c ≠ ']') :
    newArraySource element length = arrayCreation element length ↔ element.dimensions = 0 := by
  refine ⟨fun same => ?_, fun flat => newArraySource_eq_arrayCreation flat length⟩
  by_contra deep
  exact newArraySource_ne_arrayCreation deep starts opens same

/-! ## §4. The creation in a codec. -/

/-- A fresh name starts like its base. -/
theorem toList_fresh (scope : NameScope) (base : String) :
    ∃ cs, (scope.fresh base).toList = base.toList ++ cs := by
  obtain ⟨m, -, found, -⟩ := scope.exists_fresh base
  rw [found]
  cases m with
  | zero => exact ⟨[], (List.append_nil _).symm⟩
  | succ m =>
    refine ⟨scope.separator.toList ++ (toString (m + 1)).toList, ?_⟩
    unfold NameScope.candidate
    rw [String.toList_append, String.toList_append, List.append_assoc]

/-- What an array codec creates is an array of the type that it is for. -/
theorem arrayTypes_of_makes {b : Codebook} {ty : JavaType} {e : Codec}
    (made : b.Makes ty (.array ty e)) : (arrayTypes ty e).2 = .array (arrayTypes ty e).1
      ∧ ty.dimensions = (arrayTypes ty e).1.dimensions + 1 := by
  cases made with
  | @array _ component _ rule he =>
    obtain rfl := Codebook.array_of_classify rule
    unfold arrayTypes
    by_cases tagged : e.isTagged = true
    · have flat : component.dimensions = 0 := by
        cases he with
        | @leaf _ l rule =>
          cases l <;> first | exact Codebook.dimensions_of_tagged rule | cases tagged
        | _ => cases tagged
      rw [if_pos tagged]
      exact ⟨rfl, congrArg (· + 1) flat⟩
    · rw [if_neg tagged, he.type_eq]
      exact ⟨rfl, rfl⟩

/-- An array that is read is created by the length that was read and elements of some type.  The
text of the creation is as it should be exactly if the array has one dimension. -/
theorem created_iff_one_dimension {b : Codebook} {ty : JavaType} {e : Codec}
    (made : b.Makes ty (.array ty e)) (s : Surroundings) (scope : NameScope) :
    ∃ element length array loop,
      (s.readPresent (.array ty e) scope).stmts =
        [.declare length .int (.read .int none),
          .declare array (.array element) (.newArray element (.var length)), loop]
      ∧ ty.dimensions = element.dimensions + 1
      ∧ (exprSource (.newArray element (.var length)) = arrayCreation element length
        ↔ ty.dimensions = 1) := by
  obtain ⟨type, dimensions⟩ := arrayTypes_of_makes made
  obtain ⟨cs, starts⟩ := toList_fresh scope "length"
  obtain ⟨loop, stmts⟩ : ∃ loop, (s.readPresent (.array ty e) scope).stmts =
      [.declare (scope.fresh "length") .int (.read .int none),
        .declare ((scope.drawn "length").fresh "array") (arrayTypes ty e).2
          (.newArray (arrayTypes ty e).1 (.var (scope.fresh "length"))), loop] := ⟨_, rfl⟩
  rw [type] at stmts
  refine ⟨_, _, _, _, stmts, dimensions, ?_⟩
  rw [dimensions, Nat.add_eq_right]
  exact newArraySource_eq_arrayCreation_iff _ starts (by decide)

/-- An array of lists of words. -/
def wordLists : JavaType := .array (.declared "java.util.List" [.named JavaType.stringName])

/-- What codecs are chosen from without a model. -/
def builtIns : Codebook := (Compilation.workshop ⟨[], []⟩ .default).codebook []

/-- The codec of the array of lists, which is created with a cast. -/
theorem created_iff_one_dimension_wordLists :
    ∃ e, builtIns.Makes wordLists (.array wordLists e)
      ∧ ∃ element length array loop,
        (Surroundings.readPresent ⟨.empty, none⟩ (.array wordLists e) .locals).stmts =
          [.declare length .int (.read .int none),
            .declare array (.array element) (.newArray element (.var length)), loop]
        ∧ exprSource (.newArray element (.var length)) = arrayCreation element length := by
  obtain ⟨e, made⟩ : ∃ e, builtIns.Makes wordLists (.array wordLists e) :=
    ⟨_, .array rfl (.sequence rfl (.leaf rfl))⟩
  obtain ⟨element, length, array, loop, stmts, -, created⟩ :=
    created_iff_one_dimension made ⟨.empty, none⟩ .locals
  exact ⟨e, made, element, length, array, loop, stmts, created.mpr rfl⟩

/-- A class with a table of words. -/
def grid : Model := ⟨[Compilation.plainClass "Grid" [("words", "String[][]")]], []⟩

/-- A row of the table. -/
def row : JavaType := .array (.named JavaType.stringName)

/-- The table is created with an empty pair of brackets in front of its length, in a companion that
is compiled without findings. -/
theorem grid_created_inside_out :
    (Compilation.ofModel grid .default).diagnostics = []
      ∧ (∃ k ∈ (Compilation.ofModel grid .default).companions, ∃ codec ∈ k.codecs,
        ∃ line ∈ bodySource codec.read.body,
          line.text = "java.lang.String[][] array = " ++ exprSource (.newArray row (.var "length"))
            ++ ";")
      ∧ exprSource (.newArray row (.var "length")) = "new java.lang.String[][length]"
      ∧ arrayCreation row "length" = "new java.lang.String[length][]" := by
  decide +kernel

end Java

end ParcelCodec
