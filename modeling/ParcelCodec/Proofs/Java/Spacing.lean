import ParcelCodec.Proofs.Java.Parsing
import ParcelCodec.Proofs.Java.Positions

/-!
# White space in type text

White space stands between lexemes, around the dots of a name and inside a pair of brackets, and
none of it reaches a token.  So more of it may be put wherever it is not inside an identifier
(`Apart`): lexeme after lexeme, the longer text falls apart as the shorter one does.  A name is the
only lexeme that looks at what follows it, and it looks through white space: whether it goes on is
settled by the next two characters that are none (`dotted?_eq_none_iff`).

Main statement: `respaced_alike`.
-/

namespace ParcelCodec.TypeSyntax

namespace Token

/-- A text without its white space. -/
def unspaced (cs : List Char) : List Char := cs.filter fun c => !Text.isBlank c

variable {space : List Char}

/-- White space is taken out of two texts one after the other. -/
theorem unspaced_append (cs cs' : List Char) :
    unspaced (cs ++ cs') = unspaced cs ++ unspaced cs' := List.filter_append ..

/-- Nothing is left of white space. -/
theorem unspaced_of_blank (blank : ∀ c ∈ space, Text.isBlank c = true) : unspaced space = [] :=
  List.filter_eq_nil_iff.mpr fun c hc => by simp [blank c hc]

/-- White space inside a text makes no difference to what is left of it. -/
theorem unspaced_insert (blank : ∀ c ∈ space, Text.isBlank c = true) (front back : List Char) :
    unspaced (front ++ (space ++ back)) = unspaced (front ++ back) := by
  rw [unspaced_append, unspaced_append, unspaced_of_blank blank, unspaced_append, List.nil_append]

/-- White space in white space is white space. -/
theorem blank_insert {left right : List Char} (run : ∀ c ∈ left ++ right, Text.isBlank c = true)
    (blank : ∀ c ∈ space, Text.isBlank c = true) :
    ∀ c ∈ left ++ (space ++ right), Text.isBlank c = true := by
  obtain ⟨first, second⟩ := List.forall_mem_append.mp run
  exact List.forall_mem_append.mpr ⟨first, List.forall_mem_append.mpr ⟨blank, second⟩⟩

/-- What is left in front fails the test. -/
theorem head_dropWhile (p : Char → Bool) (cs : List Char) :
    ∀ c rest, cs.dropWhile p = c :: rest → p c = false := by
  intro c rest first
  have := List.head?_dropWhile_not p cs
  rw [first] at this
  simpa using this

/-! ## §1. Where a name ends. -/

/-- White space in front makes no difference to what is left of a text. -/
theorem unspaced_dropWhile (cs : List Char) : unspaced (cs.dropWhile Text.isBlank) = unspaced cs := by
  have split := congrArg unspaced (cs.takeWhile_append_dropWhile (p := Text.isBlank))
  rw [unspaced_append, unspaced_of_blank fun _ hc => List.mem_takeWhile_imp hc] at split
  exact split

/-- A text is white space and then the first character that is none. -/
theorem unspaced_eq_cons {cs : List Char} {c : Char} {rest : List Char}
    (h : cs.dropWhile Text.isBlank = c :: rest) : unspaced cs = c :: unspaced rest := by
  rw [← unspaced_dropWhile, h]
  exact List.filter_cons_of_pos (by rw [head_dropWhile _ _ _ _ h]; rfl)

theorem unspaced_eq_nil {cs : List Char} (h : cs.dropWhile Text.isBlank = []) : unspaced cs = [] := by
  rw [← unspaced_dropWhile, h]
  rfl

/-- There is no identifier exactly where no character starts one. -/
theorem identifier?_eq_none_iff (cs : List Char) :
    identifier? cs = none ↔ ∀ c rest, cs = c :: rest → isNameStart c = false := by
  rcases cs with _ | ⟨c, rest⟩
  · exact iff_of_true rfl nofun
  · by_cases start : isNameStart c = true
    · exact iff_of_false (by simp [identifier?, start]) fun h => by simp [h c rest rfl] at start
    · exact iff_of_true (by simp [identifier?, start]) fun _ _ same => by
        rw [← (List.cons.inj same).1]
        exact Bool.eq_false_iff.mpr start

/-- A name does not go on behind it unless a dot and the start of an identifier come next, apart from
white space. -/
theorem dotted?_eq_none_iff (cs : List Char) :
    dotted? cs = none ↔ ∀ c rest, unspaced cs = '.' :: c :: rest → isNameStart c = false := by
  rcases first : cs.dropWhile Text.isBlank with _ | ⟨c, behind⟩
  · rw [unspaced_eq_nil first, dotted?, first]
    exact iff_of_true rfl fun _ _ same => absurd same (List.cons_ne_nil _ _).symm
  · rw [unspaced_eq_cons first]
    by_cases dot : c = '.'
    · -- Behind a dot, the first character that is no white space decides.
      subst dot
      rw [dotted?_of_dot first, Option.map_eq_none_iff, identifier?_eq_none_iff]
      rcases second : behind.dropWhile Text.isBlank with _ | ⟨d, rest⟩
      · rw [unspaced_eq_nil second]
        exact iff_of_true (fun _ _ same => absurd same (List.cons_ne_nil _ _).symm)
          fun _ _ same => absurd (List.cons.inj same).2 (List.cons_ne_nil _ _).symm
      · rw [unspaced_eq_cons second]
        exact ⟨fun h _ _ same => h _ _ (by rw [(List.cons.inj (List.cons.inj same).2).1]),
          fun h _ _ same => h _ _ (by rw [(List.cons.inj same).1])⟩
    · refine iff_of_true ?_ fun _ _ same => absurd (List.cons.inj same).1 dot
      unfold dotted?
      rw [first]
      split
      · next same => exact absurd (List.cons.inj same).1 dot
      · rfl

/-- White space inside a text that starts with no part of a name. -/
theorem Ended.insert {front back : List Char} (h : Ended (front ++ back))
    (blank : ∀ c ∈ space, Text.isBlank c = true) : Ended (front ++ (space ++ back)) where
  part := by
    rcases front with _ | ⟨d, front⟩
    · rcases space with _ | ⟨d, space⟩
      · exact h.part
      · rintro c cs ⟨⟩
        exact not_isNamePart_of_isBlank (blank _ List.mem_cons_self)
    · rintro c cs ⟨⟩
      exact h.part _ _ rfl
  dot := by
    rw [dotted?_eq_none_iff, unspaced_insert blank, ← dotted?_eq_none_iff]
    exact h.dot

/-! ## §2. Lexemes in front of other text. -/

/-- A run of white space is one lexeme, up to where it ends. -/
theorem lexeme?_blank {rest : List Char} (some : space ≠ [])
    (blank : ∀ c ∈ space, Text.isBlank c = true)
    (ends : ∀ c cs, rest = c :: cs → Text.isBlank c = false) :
    lexeme? (space ++ rest) = .some (space, rest) := by
  obtain ⟨c, space, rfl⟩ := List.exists_cons_of_ne_nil some
  obtain ⟨first, others⟩ := List.forall_mem_cons.mp blank
  have noName : isNameStart c = false := not_isNameStart (not_isNamePart_of_isBlank first)
  have noMark : isMark c = false := by
    by_contra mark
    rw [not_isBlank_of_isMark (Bool.not_eq_false _ ▸ mark)] at first
    cases first
  have noBracket : c ≠ '[' := by
    rintro rfl
    cases first
  have run := takeWhile_dropWhile_append space rest others ends
  simp [lexeme?, identifier?, noName, noMark, noBracket, first, run]

/-- A text that starts with a name. -/
def StartsName (cs : List Char) : Prop := ∃ c rest, cs = c :: rest ∧ isNameStart c = true

/-- A slice is one lexeme, in front of text that does not go on with it if it is a name. -/
theorem lexeme?_slice {part rest : List Char} (h : IsSlice part)
    (ended : StartsName part → Ended rest) : lexeme? (part ++ rest) = some (part, rest) := by
  cases h with
  | name isWord more =>
    obtain ⟨c, parts, rfl, start, all⟩ := isWord
    exact lexeme?_name ⟨c, parts, rfl, start, all⟩ more (ended ⟨c, _, rfl, start⟩)
  | @mark c mark =>
    have noName : isNameStart c = false := not_isNameStart (not_isNamePart_of_isMark mark)
    simp [lexeme?, identifier?, noName, mark]
  | @brackets inner blank =>
    have run := takeWhile_dropWhile_append _ (']' :: rest) blank (by
      rintro _ _ ⟨⟩
      rfl)
    have shape : '[' :: inner ++ [']'] ++ rest = '[' :: (inner ++ ']' :: rest) := by simp
    have noName : isNameStart '[' = false ∧ isMark '[' = false := by decide
    rw [shape]
    simp [lexeme?, identifier?, noName, run]

/-- An identifier goes as far as it can. -/
theorem ends_of_identifier? {cs word rest : List Char} (h : identifier? cs = some (word, rest)) :
    ∀ c cs', rest = c :: cs' → isNamePart c = false := by
  unfold identifier? at h
  split at h
  · cases h
  · next d cs =>
    split at h
    · obtain rfl := (Prod.mk.inj (Option.some.inj h)).2
      exact head_dropWhile isNamePart cs
    · cases h

/-- So does a part behind a dot, which is not empty. -/
theorem ends_of_dotted? {cs part rest : List Char} (h : dotted? cs = some (part, rest)) :
    part ≠ [] ∧ ∀ c cs', rest = c :: cs' → isNamePart c = false := by
  unfold dotted? at h
  split at h
  · split at h
    · next found =>
      cases h
      exact ⟨by simp, ends_of_identifier? found⟩
    · cases h
  · cases h

/-- A run of dotted identifiers goes on as long as it can. -/
theorem ended_dottedRun {n : Nat} : ∀ {cs : List Char}, cs.length ≤ n →
    (∀ c cs', cs = c :: cs' → isNamePart c = false) → Ended (dottedRun n cs).2 := by
  induction n with
  | zero =>
    intro cs fits _
    obtain rfl := List.length_eq_zero_iff.mp (Nat.le_zero.mp fits)
    exact ⟨nofun, rfl⟩
  | succ n ih =>
    intro cs fits ends
    unfold dottedRun
    split
    · next part rest found =>
      obtain ⟨some, behind⟩ := ends_of_dotted? found
      have shorter : rest.length ≤ n := by
        have taken := List.length_pos_iff.mpr some
        rw [(dotted?_eq_some found).1, List.length_append] at fits
        omega
      exact ih shorter behind
    · next none => exact ⟨ends, none⟩

/-- Where a lexeme is a name, it has ended behind it. -/
theorem ended_of_lexeme? {part rest : List Char} (h : lexeme? (part ++ rest) = some (part, rest))
    (name : StartsName part) : Ended rest := by
  obtain ⟨c, part, rfl, start⟩ := name
  unfold lexeme? at h
  split at h
  · next word behind found =>
    obtain rfl := (Prod.mk.inj (Option.some.inj h)).2
    exact ended_dottedRun (Nat.le_refl _) (ends_of_identifier? found)
  · next none =>
    have := (identifier?_eq_none_iff _).mp none c _ rfl
    rw [start] at this
    cases this

/-! ## §3. Texts as sequences of lexemes. -/

/-- A text falls into lexemes, one after the other. -/
inductive FallsInto : (text : List Char) → (parts : List (List Char)) → Prop
  | nil : FallsInto [] []
  | cons {part rest : List Char} {parts : List (List Char)}
    (lexeme : lexeme? (part ++ rest) = some (part, rest)) (more : FallsInto rest parts) :
    FallsInto (part ++ rest) (part :: parts)

/-- The texts of the tokens that some lexemes make. -/
def texts (parts : List (List Char)) : List String :=
  parts.flatMap fun part => (ofLexeme .start part).map Token.text

/-- The lexemes of a text make their tokens one after another. -/
theorem texts_cons (part : List Char) (parts : List (List Char)) :
    texts (part :: parts) = (ofLexeme .start part).map Token.text ++ texts parts :=
  List.flatMap_cons ..

/-- What a lexeme makes depends on what is left of it without its white space. -/
theorem texts_congr {part part' : List Char} {parts parts' : List (List Char)}
    (same : unspaced part = unspaced part') (others : texts parts = texts parts') :
    texts (part :: parts) = texts (part' :: parts') := by
  have blank_iff : ∀ cs : List Char, cs.all Text.isBlank = true ↔ unspaced cs = [] := by
    intro cs
    rw [List.all_eq_true, unspaced, List.filter_eq_nil_iff]
    simp
  have blank : part.all Text.isBlank = part'.all Text.isBlank := by
    rw [Bool.eq_iff_iff, blank_iff, blank_iff, same]
  rw [texts_cons, texts_cons, others, ofLexeme, ofLexeme, blank]
  unfold unspaced at same
  rw [same]

/-- White space makes no token. -/
theorem texts_of_blank {part : List Char} (blank : ∀ c ∈ part, Text.isBlank c = true)
    (parts : List (List Char)) : texts (part :: parts) = texts parts := by
  rw [texts_cons, ofLexeme, if_pos (List.all_eq_true.mpr blank)]
  rfl

/-- Text that is scanned falls into lexemes that make its tokens. -/
theorem exists_fallsInto {n : Nat} : ∀ {p : Position} {cs : List Char} {tokens : List Token},
    scanFrom n p cs = .ok tokens →
      ∃ parts, FallsInto cs parts ∧ tokens.map Token.text = texts parts ++ [""] := by
  have nothing : ∀ {n p tokens}, scanFrom n p [] = .ok tokens →
      ∃ parts, FallsInto [] parts ∧ tokens.map Token.text = texts parts ++ [""] := by
    intro n p tokens scanned
    rw [scanFrom_nil] at scanned
    cases scanned
    exact ⟨[], .nil, rfl⟩
  induction n with
  | zero =>
    intro p cs tokens scanned
    rcases cs with _ | ⟨c, cs⟩
    · exact nothing scanned
    · cases scanned
  | succ n ih =>
    intro p cs tokens scanned
    rcases cs with _ | ⟨c, cs⟩
    · exact nothing scanned
    · obtain ⟨k, part, rest, others, same, lexeme, behind, rfl⟩ := exists_lexeme scanned
      obtain rfl : n = k := Nat.succ.inj same
      obtain ⟨parts, falls, each⟩ := ih behind
      have split := (lexeme?_eq_some lexeme).1
      rw [split] at lexeme ⊢
      refine ⟨part :: parts, .cons lexeme falls, ?_⟩
      rw [List.map_append, each, texts_cons, List.append_assoc]
      unfold ofLexeme
      split <;> rfl

/-- A text that falls into lexemes spells what they make. -/
theorem FallsInto.spells {cs : List Char} {parts : List (List Char)} (h : FallsInto cs parts) :
    Spells cs (texts parts) := by
  induction h with
  | nil => exact spells_nil
  | @cons part rest parts lexeme _ ih =>
    have taken := (lexeme?_eq_some lexeme).2.length_pos
    exact spells_lexeme ih lexeme (by rw [List.length_append]; omega)

/-! ## §4. More white space. -/

/-- A slice starts with a character that is not white space. -/
theorem IsSlice.exists_head {slice : List Char} (h : IsSlice slice) :
    ∃ c rest, slice = c :: rest ∧ Text.isBlank c = false := by
  cases h with
  | name isWord more =>
    obtain ⟨c, parts, rfl, start, -⟩ := isWord
    exact ⟨c, _, rfl, isBlank_of_isNamePart (isNamePart_of_isNameStart start)⟩
  | @mark c isMark => exact ⟨c, [], rfl, not_isBlank_of_isMark isMark⟩
  | brackets blank => exact ⟨'[', _, rfl, rfl⟩

/-- Text that falls into lexemes does so behind its leading white space. -/
theorem FallsInto.trimmed {cs : List Char} {parts : List (List Char)} (h : FallsInto cs parts) :
    ∃ parts', FallsInto (cs.dropWhile Text.isBlank) parts' ∧ texts parts' = texts parts := by
  cases h with
  | nil => exact ⟨[], .nil, rfl⟩
  | @cons part rest parts lexeme more =>
    rcases (lexeme?_eq_some lexeme).2 with isSlice | ⟨some, blank⟩
    · obtain ⟨c, part, rfl, filled⟩ := isSlice.exists_head
      have kept : (c :: part ++ rest).dropWhile Text.isBlank = c :: part ++ rest :=
        List.dropWhile_cons_of_neg (by rw [filled]; nofun)
      rw [kept]
      exact ⟨_, .cons lexeme more, rfl⟩
    · -- The lexeme is the whole run of white space.
      have run := @lexeme?_blank (part ++ rest.takeWhile Text.isBlank) _ (by simp [some])
        (List.forall_mem_append.mpr ⟨blank, fun _ hc => List.mem_takeWhile_imp hc⟩)
        (head_dropWhile _ rest)
      rw [List.append_assoc, List.takeWhile_append_dropWhile, lexeme] at run
      have whole : rest = rest.dropWhile Text.isBlank := (Prod.mk.inj (Option.some.inj run)).2
      rw [List.dropWhile_append_of_pos blank, ← whole]
      exact ⟨parts, more, (texts_of_blank blank parts).symm⟩

/-- More white space in front of a text makes no further tokens. -/
theorem FallsInto.behind_space {cs : List Char} {parts : List (List Char)} (h : FallsInto cs parts)
    (blank : ∀ c ∈ space, Text.isBlank c = true) :
    ∃ parts', FallsInto (space ++ cs) parts' ∧ texts parts' = texts parts := by
  obtain ⟨parts', falls, same⟩ := h.trimmed
  have runBlank : ∀ c ∈ space ++ cs.takeWhile Text.isBlank, Text.isBlank c = true :=
    List.forall_mem_append.mpr ⟨blank, fun _ hc => List.mem_takeWhile_imp hc⟩
  have split : space ++ cs = space ++ cs.takeWhile Text.isBlank ++ cs.dropWhile Text.isBlank := by
    rw [List.append_assoc, List.takeWhile_append_dropWhile]
  rw [split]
  by_cases none : space ++ cs.takeWhile Text.isBlank = []
  · rw [none]
    exact ⟨parts', falls, same⟩
  · have lexeme := lexeme?_blank none runBlank (head_dropWhile _ cs)
    exact ⟨_, .cons lexeme falls, (texts_of_blank runBlank parts').trans same⟩

/-- A lexeme stays one in front of other text that ends a name if the old one does. -/
theorem FallsInto.cons_of_keeps {part rest rest' : List Char} {parts parts' : List (List Char)}
    (lexeme : lexeme? (part ++ rest) = some (part, rest)) (keeps : Ended rest → Ended rest')
    (falls : FallsInto rest' parts') (same : texts parts' = texts parts) :
    ∃ parts'', FallsInto (part ++ rest') parts'' ∧ texts parts'' = texts (part :: parts) := by
  rcases (lexeme?_eq_some lexeme).2 with isSlice | ⟨-, blank⟩
  · have stays := @lexeme?_slice _ rest' isSlice fun name =>
      keeps (ended_of_lexeme? lexeme name)
    exact ⟨_, .cons stays falls, texts_congr rfl same⟩
  · obtain ⟨parts'', falls', same'⟩ := falls.behind_space blank
    exact ⟨parts'', falls', same'.trans (same.trans (texts_of_blank blank parts).symm)⟩

/-! ## §5. White space inside a lexeme. -/

/-- A place that is not between two parts of a name. -/
def Apart (left right : List Char) : Prop :=
  ∀ front c d back, left = front ++ [c] → right = d :: back → isNamePart c = true →
    isNamePart d = false

theorem Apart.nil (right : List Char) : Apart [] right :=
  fun _ _ _ _ split => absurd split (by simp)

/-- Where the whole can stand in front of a text, its end can. -/
theorem Apart.of_append {front left right : List Char} (h : Apart (front ++ left) right) :
    Apart left right := by
  rintro before c d back rfl rfl
  exact h (front ++ before) c d back (List.append_assoc ..).symm rfl

/-- What can stand in front of a text can stand in front of its start. -/
theorem Apart.of_append_right {left right back : List Char} (h : Apart left (right ++ back)) :
    Apart left right := by
  rintro before c d behind rfl rfl
  exact h before c d (behind ++ back) rfl rfl

/-- No place inside an identifier is one. -/
theorem Apart.of_isIdentifier {left right : List Char} (apart : Apart left right)
    (h : IsIdentifier (left ++ right)) : left = [] ∨ right = [] := by
  rcases List.eq_nil_or_concat left with rfl | ⟨front, c, rfl⟩
  · exact .inl rfl
  · rcases right with _ | ⟨d, back⟩
    · exact .inr rfl
    · have parts := h.isNamePart
      have first := parts c (by simp)
      have second := parts d (by simp)
      rw [List.concat_eq_append] at apart
      rw [apart front c d back rfl rfl first] at second
      cases second

/-- More white space in the further identifiers of a name. -/
theorem IsFurther.insert {cs : List Char} (h : IsFurther cs)
    (blank : ∀ c ∈ space, Text.isBlank c = true) : ∀ {left right : List Char}, cs = left ++ right →
      Apart left right → right ≠ [] → IsFurther (left ++ (space ++ right)) := by
  induction h with
  | nil =>
    intro left right split _ some
    exact absurd (List.append_eq_nil_iff.mp split.symm).2 some
  | @cons before behind word more beforeBlank behindBlank isWord isMore ih =>
    intro left right split apart some
    rcases List.append_eq_append_iff.mp split with ⟨left, rfl, tail⟩ | ⟨right, head, rfl⟩
    · -- Behind the word.
      have grown := IsFurther.cons beforeBlank behindBlank isWord
        (ih tail apart.of_append some)
      simpa using grown
    · rcases List.append_eq_append_iff.mp head with ⟨left, rfl, word⟩ | ⟨right, dotted, rfl⟩
      · rw [word] at isWord
        rcases apart.of_append.of_append_right.of_isIdentifier isWord with rfl | rfl
        · -- At the start of the word.
          have grown := IsFurther.cons beforeBlank (List.forall_mem_append.mpr ⟨behindBlank, blank⟩)
            isWord isMore
          simpa using grown
        · -- At its end.
          have grown := IsFurther.cons beforeBlank behindBlank isWord
            (@ih [] _ rfl (.nil more) (by simpa using some))
          simpa using grown
      · rcases List.append_eq_append_iff.mp dotted with ⟨left, rfl, dot⟩ | ⟨right, rfl, rfl⟩
        · rcases left with _ | ⟨c, left⟩
          · -- Right in front of the dot.
            obtain rfl := dot
            have grown := IsFurther.cons (List.forall_mem_append.mpr ⟨beforeBlank, blank⟩)
              behindBlank isWord isMore
            simpa using grown
          · -- Behind the dot.
            obtain ⟨rfl, rfl⟩ := List.cons.inj dot
            have grown := IsFurther.cons beforeBlank (blank_insert behindBlank blank) isWord isMore
            simpa using grown
        · -- In the white space in front of the dot.
          have grown := IsFurther.cons (blank_insert beforeBlank blank) behindBlank isWord isMore
          simpa using grown

/-- More white space inside a slice. -/
theorem IsSlice.insert {slice left right : List Char} (h : IsSlice slice)
    (blank : ∀ c ∈ space, Text.isBlank c = true) (split : slice = left ++ right)
    (apart : Apart left right) (some : left ≠ []) (some' : right ≠ []) :
    IsSlice (left ++ (space ++ right)) := by
  cases h with
  | @name word more isWord isMore =>
    rcases List.append_eq_append_iff.mp split with ⟨left, rfl, tail⟩ | ⟨right, rfl, rfl⟩
    · -- In the further identifiers of a name.
      have grown := isMore.insert blank tail apart.of_append some'
      simpa using IsSlice.name isWord grown
    · rcases apart.of_append_right.of_isIdentifier isWord with rfl | rfl
      · exact absurd rfl some
      · have grown := isMore.insert blank (List.nil_append more).symm (.nil more) (by simpa using some')
        simpa using IsSlice.name isWord grown
  | mark _ =>
    -- A mark is one character, and has no inside.
    rcases List.append_eq_singleton_iff.mp split.symm with ⟨rfl, -⟩ | ⟨-, rfl⟩
    · exact absurd rfl some
    · exact absurd rfl some'
  | @brackets inner' innerBlank =>
    obtain ⟨c, left, rfl⟩ := List.exists_cons_of_ne_nil some
    obtain ⟨right, d, rfl⟩ := List.eq_nil_or_concat right |>.resolve_left some'
    obtain ⟨rfl, inner⟩ := List.cons.inj split
    rw [List.concat_eq_append]
    replace inner : inner' ++ [']'] = left ++ right ++ [d] := by simpa using inner
    obtain ⟨rfl, last⟩ := List.append_inj' inner rfl
    obtain rfl := List.singleton_inj.mp last
    simpa using IsSlice.brackets (blank_insert innerBlank blank)

/-- White space at any place that is not inside an identifier makes no further tokens. -/
theorem FallsInto.insert {cs : List Char} {parts : List (List Char)} (h : FallsInto cs parts)
    (blank : ∀ c ∈ space, Text.isBlank c = true) : ∀ {front back : List Char}, cs = front ++ back →
      Apart front back →
        ∃ parts', FallsInto (front ++ (space ++ back)) parts' ∧ texts parts' = texts parts := by
  induction h with
  | nil =>
    intro front back split _
    obtain ⟨rfl, rfl⟩ := List.append_eq_nil_iff.mp split.symm
    exact FallsInto.nil.behind_space blank
  | @cons part rest parts lexeme more ih =>
    intro front back split apart
    rcases List.append_eq_append_iff.mp split with ⟨front, rfl, rfl⟩ | ⟨part', rfl, rfl⟩
    · -- Behind the lexeme.
      obtain ⟨parts', falls, same⟩ := ih rfl apart.of_append
      rw [List.append_assoc]
      exact falls.cons_of_keeps lexeme (fun ended => ended.insert blank) same
    · by_cases atStart : front = []
      · -- In front of it.
        subst atStart
        exact (FallsInto.cons lexeme more).behind_space blank
      by_cases atEnd : part' = []
      · -- At its end.
        subst atEnd
        obtain ⟨parts', falls, same⟩ := more.behind_space blank
        rw [List.append_nil] at lexeme ⊢
        exact falls.cons_of_keeps lexeme (fun ended => @Ended.insert _ [] _ ended blank) same
      rcases (lexeme?_eq_some lexeme).2 with isSlice | ⟨-, run⟩
      · -- Inside a token, which stays one: if it is a name, it ends where it ended before.
        have grown := isSlice.insert blank rfl apart.of_append_right atStart atEnd
        have starts : StartsName (front ++ (space ++ part')) → StartsName (front ++ part') := by
          obtain ⟨c, front, rfl⟩ := List.exists_cons_of_ne_nil atStart
          rintro ⟨_, _, ⟨⟩, start⟩
          exact ⟨c, _, rfl, start⟩
        have stays := lexeme?_slice grown fun name => ended_of_lexeme? lexeme (starts name)
        refine ⟨_, ?_, texts_congr (unspaced_insert blank front part') rfl⟩
        simpa using FallsInto.cons stays more
      · -- Inside white space, which may even run into more of it behind the lexeme.
        obtain ⟨parts', falls, same⟩ := more.behind_space (blank_insert run blank)
        refine ⟨parts', by simpa using falls, same.trans (texts_of_blank run parts).symm⟩

/-! ## §6. Where lexemes meet. -/

/-- More text in front matters only if there was none. -/
theorem Apart.append_left {front left right : List Char} (h : Apart left right)
    (alone : left = [] → Apart front right) : Apart (front ++ left) right := by
  rcases List.eq_nil_or_concat left with rfl | ⟨before, last, rfl⟩
  · simpa using alone rfl
  · rintro front' c d back split behind part
    rw [List.concat_eq_append, ← List.append_assoc] at split
    obtain ⟨-, same⟩ := List.append_inj' split rfl
    exact h before c d back (by rw [List.concat_eq_append, same]) behind part

/-- A lexeme ends between no two parts of a name. -/
theorem apart_of_lexeme? {part rest : List Char}
    (h : lexeme? (part ++ rest) = some (part, rest)) : Apart part rest := by
  -- All but names end with a character that is no part of one.
  have other (front : List Char) {last : Char} (no : isNamePart last = false) :
      Apart (front ++ [last]) rest := by
    rintro before c d back split - isPart
    obtain ⟨-, same⟩ := List.append_inj' split rfl
    rw [List.singleton_inj.mp same, isPart] at no
    cases no
  rcases (lexeme?_eq_some h).2 with isSlice | ⟨some, blank⟩
  · cases isSlice with
    | name isWord more =>
      obtain ⟨c, parts, rfl, start, -⟩ := isWord
      rintro _ _ d back - rfl -
      exact (ended_of_lexeme? h ⟨c, _, rfl, start⟩).part d back rfl
    | mark isMark => exact other [] (not_isNamePart_of_isMark isMark)
    | brackets _ => exact other _ (by decide)
  · obtain ⟨front, last, rfl⟩ := (List.eq_nil_or_concat part).resolve_left some
    rw [List.concat_eq_append] at blank ⊢
    exact other front (not_isNamePart_of_isBlank (blank last (by simp)))

/-- The lexemes of a text make up all of it. -/
theorem FallsInto.flatten {cs : List Char} {parts : List (List Char)} (h : FallsInto cs parts) :
    cs = parts.flatten := by
  induction h with
  | nil => rfl
  | cons _ _ ih => rw [List.flatten_cons, ← ih]

/-- Lexemes meet at places that are not inside an identifier. -/
theorem FallsInto.apart {before after : List (List Char)} : ∀ {cs : List Char},
    FallsInto cs (before ++ after) → Apart before.flatten after.flatten := by
  induction before with
  | nil => exact fun _ => .nil _
  | cons part before ih =>
    rintro _ (_ | @⟨_, rest, _, lexeme, more⟩)
    refine (ih more).append_left fun none => ?_
    have whole : rest = before.flatten ++ after.flatten :=
      more.flatten.trans (List.flatten_append ..)
    rw [none, List.nil_append] at whole
    rw [← whole]
    exact apart_of_lexeme? lexeme

end Token

/-! ## §7. Texts with more white space. -/

open Token

/-- A text that falls into lexemes is scanned, and its tokens are those of the lexemes with the one
that ends it. -/
theorem scan_of_fallsInto {cs : List Char} {parts : List (List Char)} (h : FallsInto cs parts) :
    ∃ tokens, scan (.ofList cs) = .ok tokens ∧ tokens.map Token.text = texts parts ++ [""] := by
  obtain ⟨before, done, scanned, empty, each⟩ :=
    h.spells (String.ofList cs).length .start (Nat.le_of_eq String.length_ofList.symm)
  refine ⟨before ++ [done], ?_, by simp [each, empty]⟩
  unfold scan
  rwa [String.toList_ofList]

/-- What the texts of the tokens derive, they derive for every text that has them. -/
theorem derived_of_alike {text text' : String} {tokens tokens' : List Token}
    (scanned : scan text = .ok tokens) (scanned' : scan text' = .ok tokens')
    (alike : tokens'.map Token.text = tokens.map Token.text) (derives : List String → Prop) :
    (∃ before done, scan text' = .ok (before ++ [done]) ∧ derives (before.map Token.text)) ↔
      ∃ before done, scan text = .ok (before ++ [done]) ∧ derives (before.map Token.text) := by
  obtain ⟨before, done, rfl, -, -⟩ := exists_of_scan scanned
  obtain ⟨before', done', rfl, -, -⟩ := exists_of_scan scanned'
  have same : before'.map Token.text = before.map Token.text := by
    simp only [List.map_append] at alike
    exact (List.append_inj' alike rfl).1
  have only {text : String} {before : List Token} {done : Token}
      (scanned : scan text = .ok (before ++ [done])) :
      (∃ before done, scan text = .ok (before ++ [done]) ∧ derives (before.map Token.text)) ↔
        derives (before.map Token.text) := by
    refine ⟨fun ⟨front, last, again, derived⟩ => ?_, fun derived => ⟨_, _, scanned, derived⟩⟩
    obtain ⟨rfl, -⟩ := List.append_inj' (Except.ok.inj (scanned.symm.trans again)) rfl
    exact derived
  rw [only scanned, only scanned', same]

/-- **White space makes no difference to type text.**  Wherever more of it is put into a text that is
scanned, except inside an identifier, the texts of the tokens stay as they are, and so does what the
text is parsed to, if anything.  Such a place is the start or the end, any next to a dot, to a
bracket or to other white space, and any between two lexemes; and the tokens are what the lexemes
are without their white space. -/
theorem respaced_alike {text : String} {tokens : List Token} (scanned : scan text = .ok tokens) :
    (∀ front space back, text.toList = front ++ back → Apart front back →
      (∀ c ∈ space, Text.isBlank c = true) →
        (∃ tokens', scan (.ofList (front ++ (space ++ back))) = .ok tokens' ∧
          tokens'.map Token.text = tokens.map Token.text) ∧
        (∀ t, parse (.ofList (front ++ (space ++ back))) = .ok t ↔ parse text = .ok t) ∧
        ∀ ts, parseBounds (.ofList (front ++ (space ++ back))) = .ok ts
          ↔ parseBounds text = .ok ts) ∧
    ∃ parts, FallsInto text.toList parts ∧ tokens.map Token.text = texts parts ++ [""] ∧
      ∀ before after, parts = before ++ after → Apart before.flatten after.flatten := by
  obtain ⟨parts, falls, each⟩ := exists_fallsInto scanned
  refine ⟨fun front space back split apart blank => ?_, parts, falls, each, ?_⟩
  · obtain ⟨parts', falls', same⟩ := falls.insert blank split apart
    obtain ⟨tokens', scanned', each'⟩ := scan_of_fallsInto falls'
    have alike : tokens'.map Token.text = tokens.map Token.text := by rw [each, each', same]
    refine ⟨⟨tokens', scanned', alike⟩, fun t => ?_, fun ts => ?_⟩
    · rw [parse_eq_ok_iff, parse_eq_ok_iff]
      exact derived_of_alike scanned scanned' alike (IsType · t)
    · rw [parseBounds_eq_ok_iff, parseBounds_eq_ok_iff]
      exact derived_of_alike scanned scanned' alike (AreBounds · ts)
  · rintro before after rfl
    exact falls.apart

/-- A line break and a fixed blank in front of the dot of a name. -/
theorem respaced_alike_before_dot :
    (∃ tokens, scan "C<a\n\u00A0.b[]>" = .ok tokens
      ∧ tokens.map Token.text = ["C", "<", "a.b", "[]", ">", ""]) ∧
    ∀ t, parse "C<a\n\u00A0.b[]>" = .ok t ↔ parse "C<a.b[]>" = .ok t := by
  have scanned : scan "C<a.b[]>" = .ok [⟨"C", 1, 1⟩, ⟨"<", 1, 2⟩, ⟨"a.b", 1, 3⟩, ⟨"[]", 1, 6⟩,
      ⟨">", 1, 8⟩, ⟨"", 1, 9⟩] := by decide +kernel
  have apart : Apart ['C', '<', 'a'] ['.', 'b', '[', ']', '>'] := by
    rintro _ _ _ _ - ⟨⟩ -
    rfl
  have blank : ∀ c ∈ ['\n', '\u00A0'], Text.isBlank c = true :=
    List.forall_mem_cons.mpr ⟨rfl, List.forall_mem_singleton.mpr rfl⟩
  obtain ⟨tokens, parsed, -⟩ :=
    (respaced_alike scanned).1 ['C', '<', 'a'] ['\n', '\u00A0'] _ rfl apart blank
  exact ⟨tokens, parsed⟩

end ParcelCodec.TypeSyntax
