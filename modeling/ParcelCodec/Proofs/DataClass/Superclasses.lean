import ParcelCodec.DataClass.Eligibility
import ParcelCodec.Proofs.Java.Spacing

/-!
# Superclasses that are companions

A class must not extend a companion.  Which class a superclass text names is settled twice: subtypes
are found by parsing the text and qualifying the name, and the test for companions cuts the text at
its type arguments and looks at no declaration.  The two agree exactly if the name stands in the text
as it is, without white space around its dots, and is qualified by its package or by itself
(`superclassName_eq_iff`).

Main statement: `extension_reported_iff`.
-/

namespace ParcelCodec

/-! ## §1. The first token of a text. -/

namespace TypeSyntax

open Token

/-- No white space stands in a dotted name. -/
theorem unspaced_name {name : List Char} (h : IsDottedName name) : unspaced name = name :=
  List.filter_eq_self.mpr fun c hc => by rw [isBlank_of_mem_name h c hc]; rfl

/-- A dotted name that is written as a slice is written as a name. -/
theorem Token.IsSlice.exists_word {slice name : List Char} (h : IsSlice slice)
    (isName : IsDottedName name) (written : unspaced slice = name) :
    ∃ word more, slice = word ++ more ∧ IsIdentifier word ∧ IsFurther more := by
  obtain ⟨c, cs, rfl, start⟩ := exists_start isName
  cases h with
  | name isWord more => exact ⟨_, _, rfl, isWord, more⟩
  | @mark d mark =>
    obtain ⟨rfl, -⟩ : d = c ∧ [] = cs := by
      simpa [unspaced, not_isBlank_of_isMark mark] using written
    rw [not_isNameStart (not_isNamePart_of_isMark mark)] at start
    cases start
  | brackets _ =>
    obtain rfl := (List.cons.inj written).1
    cases start

/-- No name as it is written ends in white space. -/
theorem Token.exists_last {word more : List Char} (isWord : IsIdentifier word)
    (isMore : IsFurther more) :
    ∃ front last, word ++ more = front ++ [last] ∧ Text.isBlank last = false := by
  induction isMore generalizing word with
  | nil =>
    rcases List.eq_nil_or_concat word with rfl | ⟨front, last, rfl⟩
    · obtain ⟨c, rest, none, -⟩ := isWord
      cases none
    · refine ⟨front, last, by rw [List.append_nil, List.concat_eq_append], ?_⟩
      exact isBlank_of_isNamePart (isWord.isNamePart last (by simp))
  | @cons left right word' rest _ _ isWord' _ ih =>
    obtain ⟨front, last, split, filled⟩ := ih isWord'
    have whole := congrArg (word ++ (left ++ '.' :: right) ++ ·) split
    exact ⟨word ++ (left ++ '.' :: right) ++ front, last, by simpa using whole, filled⟩

/-- Text without tokens is white space. -/
theorem Token.FallsInto.blank {cs : List Char} {parts : List (List Char)} (h : FallsInto cs parts)
    (none : texts parts = []) : ∀ c ∈ cs, Text.isBlank c = true := by
  induction h with
  | nil => exact nofun
  | @cons part rest parts lexeme _ ih =>
    rw [texts_cons, List.append_eq_nil_iff, List.map_eq_nil_iff, ofLexeme] at none
    obtain ⟨first, others⟩ := none
    split at first
    · next blank =>
      exact List.forall_mem_append.mpr ⟨List.all_eq_true.mp blank, ih others⟩
    · cases first

/-- The first token of a text is written behind white space. -/
theorem Token.FallsInto.exists_first {cs : List Char} {parts : List (List Char)} {w : String}
    {ws : List String} (h : FallsInto cs parts) (some : texts parts = w :: ws) :
    ∃ before slice rest parts', cs = before ++ (slice ++ rest) ∧
      (∀ c ∈ before, Text.isBlank c = true) ∧ IsSlice slice ∧ unspaced slice = w.toList ∧
        FallsInto rest parts' ∧ texts parts' = ws := by
  induction h with
  | nil => cases some
  | @cons part rest parts lexeme more ih =>
    rcases (lexeme?_eq_some lexeme).2 with isSlice | ⟨-, blank⟩
    · rw [texts_cons, ofLexeme, if_neg (by rw [isSlice.filled]; exact Bool.false_ne_true)] at some
      obtain ⟨rfl, rfl⟩ := List.cons.inj some
      exact ⟨[], part, rest, parts, rfl, List.forall_mem_nil _, isSlice,
        String.toList_ofList.symm, more, rfl⟩
    · rw [texts_of_blank blank] at some
      obtain ⟨before, slice, rest', parts', rfl, others, found⟩ := ih some
      exact ⟨part ++ before, slice, rest', parts', by rw [List.append_assoc],
        List.forall_mem_append.mpr ⟨blank, others⟩, found⟩

theorem isName_of_isTypeName {name : String}
    (h : isTypeName name = true ∧ Java.Primitive.ofKeyword? name = none) : IsName name :=
  ⟨(isTypeName_iff name).mp h.1, h.2⟩

/-- A named type starts with its name, and nothing but type arguments may follow. -/
theorem IsType.exists_more {ws : List String} {name : String} {args : List TypeSyntax}
    (h : IsType ws (.named name args)) :
    IsName name ∧ ∃ more, ws = name :: more ∧ (more = [] ∨ ∃ more', more = "<" :: more') := by
  generalize same : TypeSyntax.named name args = t at h
  have bare {n : Nat} {t : TypeSyntax} (same : .named name args = arrays n t) :
      n = 0 ∧ .named name args = t := by
    cases n with
    | zero => exact ⟨rfl, same⟩
    | succ n =>
      rw [arrays_succ] at same
      cases same
  cases h with
  | wildcard | upper _ | lower _ => cases same
  | reference plain =>
    cases plain with
    | primitive p n => cases (bare same).2
    | name isName n =>
      obtain ⟨rfl, ⟨⟩⟩ := bare same
      exact ⟨isName, _, rfl, .inl rfl⟩
    | generic isName args n =>
      obtain ⟨rfl, ⟨⟩⟩ := bare same
      exact ⟨isName, _, rfl, .inr ⟨_, rfl⟩⟩

/-- How a name is written in a text: behind white space, and in front of the end or of type
arguments, with more white space between. -/
structure Written (name : String) (text slice : List Char) : Prop where
  isName : IsDottedName name.toList
  isSlice : IsSlice slice
  unspaced : unspaced slice = name.toList
  around : ∃ before behind rest, text = before ++ slice ++ behind ++ rest ∧
    (∀ c ∈ before, Text.isBlank c = true) ∧ (∀ c ∈ behind, Text.isBlank c = true) ∧
      ∀ c cs, rest = c :: cs → c = '<'

/-- A text that is parsed to a named type has its name written in it. -/
theorem exists_written {text name : String} {args : List TypeSyntax}
    (parsed : parse text = .ok (.named name args)) : ∃ slice, Written name text.toList slice := by
  obtain ⟨tokens, done, scanned, isType⟩ := (parse_eq_ok_iff _ _).mp parsed
  obtain ⟨isName, more, same, next⟩ := isType.exists_more
  obtain ⟨parts, falls, each⟩ := exists_fallsInto scanned
  have spelled : texts parts = name :: more := by
    rw [List.map_append] at each
    rw [← same]
    exact (List.append_inj' each rfl).1.symm
  obtain ⟨before, slice, rest, parts', split, blank, isSlice, written, falls', others⟩ :=
    falls.exists_first spelled
  refine ⟨slice, isName.1, isSlice, written, before, ?_⟩
  rcases next with rfl | ⟨more', rfl⟩
  · exact ⟨rest, [], by rw [split]; simp, blank, falls'.blank others, nofun⟩
  · obtain ⟨behind, angle, rest', -, rfl, blank', isAngle, written', -⟩ :=
      falls'.exists_first others
    refine ⟨behind, angle ++ rest', by rw [split]; simp, blank, blank', ?_⟩
    obtain ⟨c, cs, rfl, filled⟩ := isAngle.exists_head
    have first : unspaced (c :: cs) = c :: Token.unspaced cs :=
      List.filter_cons_of_pos (by rw [filled]; rfl)
    rintro _ _ ⟨⟩
    exact (List.cons.inj (first.symm.trans written')).1

/-! ## §2. Written names. -/

variable {name : String} {text slice : List Char}

theorem Written.exists_word (h : Written name text slice) :
    ∃ word more, slice = word ++ more ∧ IsIdentifier word ∧ IsFurther more :=
  h.isSlice.exists_word h.isName h.unspaced

theorem Written.first (h : Written name text slice) :
    ∃ c rest, slice = c :: rest ∧ Text.isBlank c = false := h.isSlice.exists_head

theorem Written.last (h : Written name text slice) :
    ∃ front c, slice = front ++ [c] ∧ Text.isBlank c = false := by
  obtain ⟨word, more, rfl, isWord, isMore⟩ := h.exists_word
  exact exists_last isWord isMore

/-- A character that is no white space is in a written name if it is in the name. -/
theorem Written.mem_iff (h : Written name text slice) {c : Char} (filled : Text.isBlank c = false) :
    c ∈ slice ↔ c ∈ name.toList := by
  rw [← h.unspaced]
  simp [Token.unspaced, filled]

theorem Written.isDotted (h : Written name text slice) :
    isDotted (.ofList slice) = isDotted name := by
  rw [Bool.eq_iff_iff]
  simp only [ParcelCodec.isDotted, List.contains_iff_mem, String.toList_ofList]
  exact h.mem_iff rfl

/-- A written name that has no dot is the name. -/
theorem Written.eq_of_not_isDotted (h : Written name text slice)
    (single : ParcelCodec.isDotted name = false) : slice = name.toList := by
  have noDot : '.' ∉ slice := by
    rw [h.mem_iff rfl]
    simpa [ParcelCodec.isDotted] using single
  obtain ⟨word, more, rfl, isWord, isMore⟩ := h.exists_word
  cases isMore with
  | nil =>
    have alone : IsDottedName word := ⟨word, [], List.forall_mem_singleton.mpr isWord, by simp⟩
    rw [← h.unspaced, List.append_nil, unspaced_name alone]
  | cons _ _ _ _ => exact absurd (by simp) noDot

/-- A name stands in the text as it is if that is how it is written. -/
theorem Written.prefix_iff (h : Written name text slice) :
    name.toList <+: text.dropWhile Text.isBlank ↔ slice = name.toList := by
  obtain ⟨before, behind, rest, split, blank, -⟩ := h.around
  have trimmed : text.dropWhile Text.isBlank = slice ++ (behind ++ rest) := by
    obtain ⟨c, cs, rfl, filled⟩ := h.first
    rw [split, List.append_assoc, List.append_assoc, List.dropWhile_append_of_pos blank]
    exact List.dropWhile_cons_of_neg (by rw [filled]; nofun)
  rw [trimmed]
  refine ⟨fun stands => ?_, fun same => same ▸ List.prefix_append ..⟩
  have shorter : name.toList.length ≤ slice.length := by
    rw [← h.unspaced]
    exact List.length_filter_le ..
  obtain ⟨more, rfl⟩ := List.prefix_of_prefix_length_le stands (List.prefix_append ..) shorter
  -- What follows the name in the slice would be white space, and no slice ends in any.
  have same := h.unspaced
  rw [unspaced_append, unspaced_name h.isName] at same
  have none : Token.unspaced more = [] := by simpa using same
  rcases List.eq_nil_or_concat more with rfl | ⟨front, last, rfl⟩
  · exact List.append_nil _
  · obtain ⟨front', last', split, filled⟩ := h.last
    rw [List.concat_eq_append, ← List.append_assoc] at split
    obtain ⟨-, ends⟩ := List.append_inj' split rfl
    have blank := List.filter_eq_nil_iff.mp none last (by simp)
    rw [List.singleton_inj.mp ends, filled] at blank
    exact absurd rfl blank

end TypeSyntax

/-! ## §3. The name that the test looks for. -/

namespace Text

/-- Trimming leaves what stands between white space and starts and ends without any. -/
theorem trimBlank_append {before slice behind : List Char}
    (blank : ∀ c ∈ before, isBlank c = true) (blank' : ∀ c ∈ behind, isBlank c = true)
    (first : ∃ c rest, slice = c :: rest ∧ isBlank c = false)
    (last : ∃ front c, slice = front ++ [c] ∧ isBlank c = false) :
    trimBlank (before ++ slice ++ behind) = slice := by
  have front : (slice ++ behind).dropWhile isBlank = slice ++ behind := by
    obtain ⟨c, rest, rfl, filled⟩ := first
    exact List.dropWhile_cons_of_neg (by rw [filled]; nofun)
  have back : slice.reverse.dropWhile isBlank = slice.reverse := by
    obtain ⟨front, c, rfl, filled⟩ := last
    rw [List.reverse_append]
    exact List.dropWhile_cons_of_neg (by rw [filled]; nofun)
  have blank'' : ∀ c ∈ behind.reverse, isBlank c = true :=
    fun c hc => blank' c (List.mem_reverse.mp hc)
  rw [trimBlank, List.append_assoc, List.dropWhile_append_of_pos blank, front, List.reverse_append,
    List.dropWhile_append_of_pos blank'', back, List.reverse_reverse]

end Text

namespace DataClass

open TypeSyntax (AreArguments Token Written exists_written isName_of_isTypeName isTypeName parse
  parse_eq_ok_iff)
open TypeSyntax.Token (unspaced unspaced_append)

variable {c : Catalog} {d : TypeDecl} {text name package q : String} {args : List TypeSyntax}

/-- What a name stands for where no declaration is looked at. -/
def plainName (package name : String) : String :=
  if isDotted name then name else qualified package name

/-- A name that stands at the front of a text as it is, with no white space around its dots. -/
def StandsIn (name text : String) : Prop := name.toList <+: text.toList.dropWhile Text.isBlank

/-- The test takes the name as it is written. -/
theorem superclassName_eq {slice : List Char} (h : Written name text.toList slice) :
    superclassName package text = plainName package (.ofList slice) := by
  obtain ⟨before, behind, rest, split, blank, blank', angle⟩ := h.around
  have noAngle : ∀ c ∈ before ++ slice ++ behind, (c != '<') = true := by
    have ofBlank {c : Char} (blank : Text.isBlank c = true) : (c != '<') = true := by
      rw [bne_iff_ne]
      rintro rfl
      cases blank
    refine List.forall_mem_append.mpr ⟨List.forall_mem_append.mpr
      ⟨fun c hc => ofBlank (blank c hc), fun c hc => ?_⟩, fun c hc => ofBlank (blank' c hc)⟩
    rw [bne_iff_ne]
    rintro rfl
    rcases TypeSyntax.Token.mem_name h.isName _ ((h.mem_iff rfl).mp hc) with dot | part
    · cases dot
    · cases part
  have cut : text.toList.takeWhile (· != '<') = before ++ slice ++ behind := by
    rw [split]
    refine (TypeSyntax.Token.takeWhile_dropWhile_append _ rest noAngle ?_).1
    rintro c cs rfl
    rw [angle c cs rfl]
    rfl
  rw [superclassName, cut, Text.trimBlank_append blank blank' h.first h.last]
  rfl

theorem isDotted_of_implicitName? {full : String} (h : Java.implicitName? name = some full) :
    isDotted name = false := by
  have single : ∀ entry ∈ Java.implicitNames, isDotted entry.1 = false := by decide
  obtain ⟨front, back, split, -⟩ := List.lookup_eq_some_iff.mp h
  exact single (name, full) (by rw [split]; simp)

/-- A dotted name is qualified by the package or by itself. -/
theorem eq_of_qualify? (resolved : c.qualify? name package = some q)
    (dotted : isDotted name = true) : q = qualified package name ∨ q = name := by
  unfold Catalog.qualify? at resolved
  dsimp only at resolved
  split at resolved
  · exact .inl (Option.some.inj resolved).symm
  · split at resolved
    · next full implicit =>
      rw [isDotted_of_implicitName? implicit] at dotted
      cases dotted
    · exact .inr (Option.some.inj resolved).symm

/-- Behind a package, a name would be longer than what is written. -/
theorem qualified_of_unspaced (isName : TypeSyntax.IsDottedName name.toList)
    (written : unspaced (qualified package name).toList = name.toList) :
    qualified package name = name := by
  unfold qualified at written ⊢
  split
  · rfl
  · next some =>
    have length := congrArg List.length written
    rw [if_neg some, String.toList_append, String.toList_append, unspaced_append,
      TypeSyntax.unspaced_name isName, unspaced_append] at length
    have dot : unspaced ".".toList = ['.'] := rfl
    simp only [dot, List.length_append, List.length_singleton] at length
    omega

/-- The test looks for the class that the superclass is resolved to exactly if the name stands in the
text as it is and is what it stands for. -/
theorem superclassName_eq_iff (parsed : parse text = .ok (.named name args))
    (resolved : c.qualify? name package = some q) :
    superclassName package text = q ↔ q = plainName package name ∧ StandsIn name text := by
  obtain ⟨slice, written⟩ := exists_written parsed
  rw [superclassName_eq written, StandsIn, written.prefix_iff]
  constructor
  · intro same
    by_cases dotted : isDotted name = true
    · -- No package is put in front, so what is looked for is the name as it is written.
      have alone : .ofList slice = q := by
        rw [← same, plainName, if_pos (written.isDotted.trans dotted)]
      rcases eq_of_qualify? resolved dotted with rfl | rfl
      · have chars : slice = (qualified package name).toList := by
          rw [← alone, String.toList_ofList]
        have package := qualified_of_unspaced written.isName (chars ▸ written.unspaced)
        rw [package] at chars ⊢
        exact ⟨(if_pos dotted).symm, chars⟩
      · refine ⟨(if_pos dotted).symm, ?_⟩
        rw [← alone, String.toList_ofList]
    · -- Without a dot there is no place for white space.
      have single : isDotted name = false := Bool.eq_false_iff.mpr dotted
      have chars := written.eq_of_not_isDotted single
      rw [chars, String.ofList_toList] at same
      exact ⟨same.symm, chars⟩
  · rintro ⟨same, chars⟩
    rw [same, chars, String.ofList_toList]

/-! ## §4. What is reported. -/

theorem mem_findingIf {condition : Bool} {finding : Finding} {message : String} {u : Unresolved} :
    u ∈ findingIf condition finding message ↔ condition = true ∧ u = ⟨finding, message⟩ := by
  unfold findingIf
  split <;> simp [*]

/-- The finding is made only by the test for companions, and it tells the class that the test looks
for. -/
theorem mem_objections_iff {x : Diagnostic} (is : x.finding = .extendsGeneratedClass) :
    x ∈ objections c d ↔ ∃ text, d.superclass = some text ∧
      superclassName d.package text ∈ companionNames c ∧
      x = ⟨.extendsGeneratedClass, d.qualifiedName, quoted d.qualifiedName
        ++ " extends the generated class " ++ quoted (superclassName d.package text)⟩ := by
  have kind : ∀ u ∈ kindFindings d.qualifiedName d.kind, u.finding ≠ .extendsGeneratedClass := by
    unfold kindFindings
    cases d.kind <;> simp
  have other {condition : Bool} {finding : Finding} {message : String} {u : Unresolved}
      (hu : u ∈ findingIf condition finding message) (apart : finding ≠ .extendsGeneratedClass) :
      u.finding ≠ .extendsGeneratedClass := by
    rw [(mem_findingIf.mp hu).2]
    exact apart
  constructor
  · intro hx
    obtain ⟨u, hu, rfl⟩ := List.mem_map.mp hx
    have is : u.finding = .extendsGeneratedClass := is
    simp only [List.mem_append] at hu
    rcases hu with (((((hu | hu) | hu) | hu) | hu) | hu) | hu
    · exact absurd is (kind u hu)
    -- Five more findings are about other things.
    iterate 5 · exact absurd is (other hu (by decide))
    · unfold superclassFindings at hu
      split at hu
      · cases hu
      · next text extended =>
        obtain ⟨generated, rfl⟩ := mem_findingIf.mp hu
        exact ⟨text, extended, List.contains_iff_mem.mp generated, rfl⟩
  · rintro ⟨text, extended, generated, rfl⟩
    refine List.mem_map.mpr ⟨⟨.extendsGeneratedClass, _⟩, List.mem_append_right _ ?_, rfl⟩
    unfold superclassFindings
    rw [extended]
    exact mem_findingIf.mpr ⟨List.contains_iff_mem.mpr generated, rfl⟩

theorem reported_iff (extended : d.superclass = some text) :
    (∃ x ∈ objections c d, x.finding = .extendsGeneratedClass) ↔
      superclassName d.package text ∈ companionNames c := by
  constructor
  · rintro ⟨x, hx, is⟩
    obtain ⟨text', extended', generated, -⟩ := (mem_objections_iff is).mp hx
    rw [extended] at extended'
    exact Option.some.inj extended' ▸ generated
  · intro generated
    exact ⟨_, (mem_objections_iff rfl).mpr ⟨text, extended, generated, rfl⟩, rfl⟩

/-- **When a class that extends a companion is reported.**  A class whose superclass is resolved to a
companion is reported for it exactly if the superclass stands in its text as it is, without white
space around the dots, and is what it stands for where no declaration is looked at; or else if the
name as it is written happens to be the one of another companion. -/
theorem extension_reported_iff (extended : d.superclass = some text)
    (parsed : parse text = .ok (.named name args))
    (resolved : c.qualify? name d.package = some q) (generated : q ∈ companionNames c) :
    (∃ x ∈ objections c d, x.finding = .extendsGeneratedClass) ↔
      (q = plainName d.package name ∧ StandsIn name text) ∨
      ∃ slice, Written name text.toList slice ∧ plainName d.package (.ofList slice) ≠ q ∧
        plainName d.package (.ofList slice) ∈ companionNames c := by
  rw [reported_iff extended, ← superclassName_eq_iff parsed resolved]
  constructor
  · intro reported
    by_cases same : superclassName d.package text = q
    · exact .inl same
    · obtain ⟨slice, written⟩ := exists_written parsed
      rw [superclassName_eq written] at same reported
      exact .inr ⟨slice, written, same, reported⟩
  · rintro (same | ⟨slice, written, -, other⟩)
    · rwa [same]
    · rwa [superclassName_eq written]

/-- A parcelable class of a package, with no members. -/
def bareClass (package name : String) (superclass : Option String) (dataClass : Bool) : TypeDecl where
  package
  name
  kind := .classType
  modifiers := [.isPublic, .isStatic]
  typeParams := []
  superclass
  interfaces := [Java.parcelableName]
  annotations := []
  dataClass
  fields := []
  constructors := []
  methods := []

/-- A data class, a class that has the name of its companion, and further classes. -/
def taken (more : List TypeDecl) : Catalog where
  model := ⟨[bareClass "com.a" "Taken" none true, bareClass "com.a" "TakenCodec" none false] ++ more,
    []⟩
  suffix := "Codec"

/-- A class that extends the companion of its own package by its simple name, with type arguments. -/
theorem extension_reported_near :
    ∃ x ∈ objections (taken []) (bareClass "com.a" "Near" (some " TakenCodec < String >") true),
      x.finding = .extendsGeneratedClass := by
  have args : AreArguments ["String"] [.named "String" []] :=
    .last (.reference (.name (isName_of_isTypeName (by decide +kernel)) 0))
  have parsed : parse " TakenCodec < String >" = .ok (.named "TakenCodec" [.named "String" []]) :=
    (parse_eq_ok_iff _ _).mpr ⟨[⟨"TakenCodec", 1, 2⟩, ⟨"<", 1, 13⟩, ⟨"String", 1, 15⟩, ⟨">", 1, 22⟩],
      ⟨"", 1, 23⟩, by decide +kernel,
      .reference (.generic (isName_of_isTypeName (by decide +kernel)) args 0)⟩
  have resolved : (taken []).qualify? "TakenCodec" "com.a" = some "com.a.TakenCodec" := by
    decide +kernel
  have generated : "com.a.TakenCodec" ∈ companionNames (taken []) := by decide +kernel
  have plain : "com.a.TakenCodec" = plainName "com.a" "TakenCodec" := by decide +kernel
  have stands : StandsIn "TakenCodec" " TakenCodec < String >" :=
    ⟨" < String >".toList, by decide +kernel⟩
  exact (extension_reported_iff rfl parsed resolved generated).mpr (.inl ⟨plain, stands⟩)

theorem parse_of_scanned (p p' : Position) (scanned : Token.scan text = .ok [⟨name, p⟩, ⟨"", p'⟩])
    (isName : isTypeName name = true ∧ Java.Primitive.ofKeyword? name = none) :
    parse text = .ok (.named name []) :=
  (parse_eq_ok_iff _ _).mpr
    ⟨[⟨name, p⟩], ⟨"", p'⟩, scanned, .reference (.name (isName_of_isTypeName isName) 0)⟩

/-- A class of another package that extends the companion by its simple name. -/
def far : TypeDecl := bareClass "com.b" "Far" (some "TakenCodec") true

/-- A class that writes white space around a dot in the name of the companion. -/
def spaced : TypeDecl := bareClass "com.a" "Spaced" (some "com.a . TakenCodec") true

/-- Both extend the companion by the rules for subtypes, and neither is reported for it. -/
theorem extension_unreported :
    "com.a.TakenCodec" ∈ companionNames (taken [far, spaced]) ∧
      ∀ d ∈ [far, spaced], d ∈ (taken [far, spaced]).model.dataClasses ∧
        (∃ text name args, d.superclass = some text ∧ parse text = .ok (.named name args) ∧
          (taken [far, spaced]).qualify? name d.package = some "com.a.TakenCodec") ∧
        ∀ x ∈ objections (taken [far, spaced]) d, x.finding ≠ .extendsGeneratedClass := by
  have unnamed : superclassName "com.b" "TakenCodec" ∉ companionNames (taken [far, spaced]) ∧
      superclassName "com.a" "com.a . TakenCodec" ∉ companionNames (taken [far, spaced]) := by
    decide +kernel
  refine ⟨by decide +kernel, List.forall_mem_cons.mpr ⟨⟨by decide +kernel, ?_, ?_⟩,
    List.forall_mem_singleton.mpr ⟨by decide +kernel, ?_, ?_⟩⟩⟩
  · have parsed : parse "TakenCodec" = .ok (.named "TakenCodec" []) :=
      parse_of_scanned ⟨1, 1⟩ ⟨1, 11⟩ (by decide +kernel) (by decide +kernel)
    exact ⟨_, _, _, rfl, parsed, by decide +kernel⟩
  · exact fun x hx is => unnamed.1 ((reported_iff (d := far) rfl).mp ⟨x, hx, is⟩)
  · have parsed : parse "com.a . TakenCodec" = .ok (.named "com.a.TakenCodec" []) :=
      parse_of_scanned ⟨1, 1⟩ ⟨1, 19⟩ (by decide +kernel) (by decide +kernel)
    exact ⟨_, _, _, rfl, parsed, by decide +kernel⟩
  · exact fun x hx is => unnamed.2 ((reported_iff (d := spaced) rfl).mp ⟨x, hx, is⟩)

end DataClass

end ParcelCodec
