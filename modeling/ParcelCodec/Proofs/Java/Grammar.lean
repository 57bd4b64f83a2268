import ParcelCodec.Java.TypeSyntax.Parser

/-!
# The grammar of type text

The grammar that the parser of types goes by, over the texts of the tokens:

```text
Type   ::= '?' | '?' 'extends' Ref | '?' 'super' Ref | Ref
Ref    ::= primitive '[]'* | name [ '<' Type (',' Type)* '>' ] '[]'*
Bounds ::= Ref ('&' Ref)*
```

A name is made of identifiers with dots between them and is no primitive keyword; `extends` and
`super` are names like any other, except behind a question mark.
-/

namespace ParcelCodec.TypeSyntax

/-! ## §1. Names. -/

/-- An identifier: a letter, `_` or `$`, and then any of these and digits. -/
def IsIdentifier (word : List Char) : Prop :=
  ∃ c rest, word = c :: rest ∧ Token.isNameStart c = true ∧ ∀ d ∈ rest, Token.isNamePart d = true

/-- Identifiers with dots between them. -/
def IsDottedName (cs : List Char) : Prop :=
  ∃ word words, (∀ w ∈ word :: words, IsIdentifier w) ∧ cs = ['.'].intercalate (word :: words)

/-- What a token that names a class or a type variable looks like. -/
def IsName (text : String) : Prop :=
  IsDottedName text.toList ∧ Java.Primitive.ofKeyword? text = none

theorem isNamePart_of_isNameStart {c : Char} (h : Token.isNameStart c = true) :
    Token.isNamePart c = true := by
  rw [Token.isNamePart, h, Bool.true_or]

theorem IsIdentifier.isNamePart {word : List Char} (h : IsIdentifier word) :
    ∀ c ∈ word, Token.isNamePart c = true := by
  obtain ⟨c, rest, rfl, start, parts⟩ := h
  exact List.forall_mem_cons.mpr ⟨isNamePart_of_isNameStart start, parts⟩

theorem IsIdentifier.not_mem_dot {word : List Char} (h : IsIdentifier word) : '.' ∉ word :=
  fun dot => absurd (h.isNamePart '.' dot) (by decide)

/-- The test for dotted names finds exactly the dotted names. -/
theorem isTypeName_iff (text : String) : isTypeName text = true ↔ IsDottedName text.toList := by
  have identifiers : isTypeName text = true
      ↔ ∀ word ∈ Text.segments '.' text.toList, IsIdentifier word := by
    refine List.all_eq_true.trans (forall₂_congr fun segment _ => ?_)
    rcases segment with _ | ⟨c, rest⟩
    · exact iff_of_false Bool.false_ne_true fun ⟨_, _, e, _⟩ => nomatch e
    · rw [Bool.and_eq_true, List.all_eq_true]
      exact ⟨fun h => ⟨c, rest, rfl, h⟩, fun ⟨_, _, e, h⟩ => by cases e; exact h⟩
  rw [identifiers]
  constructor
  · intro each
    obtain ⟨word, words, split⟩ :=
      List.exists_cons_of_ne_nil (Text.segments_ne_nil '.' text.toList)
    rw [split] at each
    exact ⟨word, words, each, by rw [← split, Text.intercalate_segments]⟩
  · rintro ⟨word, words, each, joined⟩
    rw [joined, Text.segments_intercalate fun w hw => (each w hw).not_mem_dot]
    exact each

/-! ## §2. Types. -/

/-- A type with a number of array brackets behind it. -/
def arrays : Nat → TypeSyntax → TypeSyntax
  | 0, ty => ty
  | n + 1, ty => arrays n (.array ty)

mutual

/-- A type or a wildcard. -/
inductive IsType : List String → TypeSyntax → Prop
  | wildcard : IsType ["?"] (.wildcard none none)
  | upper {ws t} (bound : IsReference ws t) :
      IsType ("?" :: "extends" :: ws) (.wildcard (some t) none)
  | lower {ws t} (bound : IsReference ws t) :
      IsType ("?" :: "super" :: ws) (.wildcard none (some t))
  | reference {ws t} (plain : IsReference ws t) : IsType ws t

/-- A type that is no wildcard. -/
inductive IsReference : List String → TypeSyntax → Prop
  | primitive (p : Java.Primitive) (n : Nat) :
      IsReference (p.keyword :: List.replicate n "[]") (arrays n (.primitive p))
  | name {name} (isName : IsName name) (n : Nat) :
      IsReference (name :: List.replicate n "[]") (arrays n (.named name []))
  | generic {name ws ts} (isName : IsName name) (args : AreArguments ws ts) (n : Nat) :
      IsReference (name :: "<" :: (ws ++ ">" :: List.replicate n "[]")) (arrays n (.named name ts))

/-- Type arguments with commas between them. -/
inductive AreArguments : List String → List TypeSyntax → Prop
  | last {ws t} (only : IsType ws t) : AreArguments ws [t]
  | more {ws ws' t ts} (first : IsType ws t) (rest : AreArguments ws' ts) :
      AreArguments (ws ++ "," :: ws') (t :: ts)

end

/-- Bounds with ampersands between them. -/
inductive AreBounds : List String → List TypeSyntax → Prop
  | last {ws t} (only : IsReference ws t) : AreBounds ws [t]
  | more {ws ws' t ts} (first : IsReference ws t) (rest : AreBounds ws' ts) :
      AreBounds (ws ++ "&" :: ws') (t :: ts)

theorem arrays_succ (n : Nat) (ty : TypeSyntax) : arrays (n + 1) ty = .array (arrays n ty) := by
  induction n generalizing ty with
  | zero => rfl
  | succ n ih => exact ih (.array ty)

theorem isTypeName_keyword (p : Java.Primitive) : isTypeName p.keyword = true := by
  cases p <;> decide

theorem isTypeName_of_isName {name : String} (h : IsName name) : isTypeName name = true :=
  (isTypeName_iff name).mpr h.1

/-- A type that is no wildcard starts with a name. -/
theorem IsReference.exists_head {ws : List String} {t : TypeSyntax} (h : IsReference ws t) :
    ∃ name rest, ws = name :: rest ∧ isTypeName name = true := by
  cases h with
  | primitive p n => exact ⟨_, _, rfl, isTypeName_keyword p⟩
  | name isName n => exact ⟨_, _, rfl, isTypeName_of_isName isName⟩
  | generic isName args n => exact ⟨_, _, rfl, isTypeName_of_isName isName⟩

theorem AreBounds.length_pos : ∀ {ws : List String} {ts : List TypeSyntax}, AreBounds ws ts →
    0 < ws.length
  | _, _, .last only => by
    obtain ⟨_, _, rfl, _⟩ := only.exists_head
    simp
  | _, _, .more _ _ => by
    rw [List.length_append, List.length_cons]
    omega

/-! ## §3. Whole token lists. -/

/-- Tokens that derive something, an empty token, and then anything. -/
def Spelled (derives : List String → Prop) (tokens : List Token) : Prop :=
  ∃ before done after, tokens = before ++ done :: after ∧ done.text = "" ∧
    derives (before.map Token.text)

end ParcelCodec.TypeSyntax
