import Mathlib.Data.List.DropRight
import ParcelCodec.Proofs.Java.Scanning

/-!
# Where tokens stand

Scanning goes from lexeme to lexeme and moves its position along, over line breaks and wide
characters that stand inside names and brackets as well.  The position is always the true one of the
text that was read so far: its line counts the line breaks, and its column the bytes behind the last
of them (`Position.behind`).  So the tokens are slices of the text, one behind the other with
nothing but white space between them, and each knows where it starts.

Main statement: `scanned_in_place`.
-/

namespace ParcelCodec

/-! ## §1. True positions. -/

namespace Position

/-- What stands behind the last line break of a text, or the whole text if it has none. -/
def lastLine (cs : List Char) : List Char := cs.rtakeWhile (· ≠ '\n')

/-- The number of bytes of a text in UTF-8. -/
def bytes (cs : List Char) : Nat := (String.ofList cs).utf8ByteSize

/-- The place behind a text that starts at the first line and column. -/
def behind (cs : List Char) : Position := ⟨1 + cs.count '\n', 1 + bytes (lastLine cs)⟩

theorem bytes_concat (cs : List Char) (c : Char) : bytes (cs ++ [c]) = bytes cs + c.utf8Size := by
  unfold bytes
  rw [String.ofList_append, String.utf8ByteSize_append, ← String.utf8ByteSize_singleton]
  rfl

theorem lastLine_concat_break (cs : List Char) : lastLine (cs ++ ['\n']) = [] := by
  unfold lastLine
  rw [List.rtakeWhile_concat, if_neg (by decide)]

theorem lastLine_concat (cs : List Char) {c : Char} (h : c ≠ '\n') :
    lastLine (cs ++ [c]) = lastLine cs ++ [c] := by
  unfold lastLine
  rw [List.rtakeWhile_concat, if_pos (decide_eq_true h)]

/-- One more character takes a true position to the next one. -/
theorem step_behind (cs : List Char) (c : Char) : (behind cs).step c = behind (cs ++ [c]) := by
  by_cases h : c = '\n'
  · subst h
    simp only [step, behind, if_true, lastLine_concat_break, List.count_append,
      List.count_singleton_self, Nat.add_assoc]
    rfl
  · have unbroken : [c].count '\n' = 0 := List.count_eq_zero.mpr fun among =>
      h (List.mem_singleton.mp among).symm
    simp only [step, behind, if_neg h, lastLine_concat cs h, bytes_concat, List.count_append,
      unbroken, Nat.add_zero, Nat.add_assoc]

/-- Moving a true position along some text leads to a true position. -/
theorem after_behind (before cs : List Char) :
    (behind before).after cs = behind (before ++ cs) := by
  induction cs generalizing before with
  | nil => exact congrArg behind (List.append_nil before).symm
  | cons c cs ih =>
    show ((behind before).step c).after cs = _
    rw [step_behind, ih, List.append_assoc, List.singleton_append]

end Position

namespace TypeSyntax.Token

open Position (behind)

/-! ## §2. Slices. -/

/-- A token as it is written. -/
inductive IsSlice : List Char → Prop
  | name {word rest : List Char} (isWord : IsIdentifier word) (more : IsFurther rest) :
    IsSlice (word ++ rest)
  | mark {c : Char} (isMark : isMark c = true) : IsSlice [c]
  | brackets {space : List Char} (blank : ∀ c ∈ space, Text.isBlank c = true) :
    IsSlice ('[' :: space ++ [']'])

/-- The token of a slice that stands behind some text: the slice without its white space, at the
place where the slice starts. -/
def ofSlice (before slice : List Char) : Token :=
  ⟨.ofList (slice.filter fun c => !Text.isBlank c), behind before⟩

/-- A text that stands behind another one is made of the slices of some tokens, in order, and of
white space between them. -/
inductive Covers : (before text : List Char) → List Token → Prop
  | nil {before : List Char} : Covers before [] []
  | space {before space text : List Char} {tokens : List Token}
    (blank : ∀ c ∈ space, Text.isBlank c = true) (rest : Covers (before ++ space) text tokens) :
    Covers before (space ++ text) tokens
  | token {before slice text : List Char} {tokens : List Token} (isSlice : IsSlice slice)
    (rest : Covers (before ++ slice) text tokens) :
    Covers before (slice ++ text) (ofSlice before slice :: tokens)

/-- A lexeme is a slice or some white space. -/
def IsLexeme (part : List Char) : Prop :=
  IsSlice part ∨ part ≠ [] ∧ ∀ c ∈ part, Text.isBlank c = true

/-- A slice is no white space. -/
theorem IsSlice.filled {slice : List Char} (h : IsSlice slice) :
    slice.all Text.isBlank = false := by
  cases h with
  | name isWord more =>
    obtain ⟨c, parts, rfl, start, -⟩ := isWord
    simp [isBlank_of_isNamePart (isNamePart_of_isNameStart start)]
  | mark isMark => simp [not_isBlank_of_isMark isMark]
  | brackets blank => rfl

theorem IsLexeme.length_pos {part : List Char} (h : IsLexeme part) : 0 < part.length := by
  rcases h with isSlice | ⟨some, -⟩
  · refine List.length_pos_iff.mpr fun none => ?_
    have filled := isSlice.filled
    rw [none] at filled
    cases filled
  · exact List.length_pos_iff.mpr some

/-! ## §3. What a text starts with. -/

theorem identifier?_eq_some {cs word rest : List Char} (h : identifier? cs = some (word, rest)) :
    cs = word ++ rest ∧ IsIdentifier word := by
  unfold identifier? at h
  split at h
  · cases h
  · next c cs =>
    by_cases start : isNameStart c = true
    · rw [if_pos start] at h
      cases h
      refine ⟨?_, c, _, rfl, start, fun d hd => List.mem_takeWhile_imp hd⟩
      rw [List.cons_append, List.takeWhile_append_dropWhile]
    · rw [if_neg start] at h
      cases h

theorem dotted?_eq_some {cs part rest : List Char} (h : dotted? cs = some (part, rest)) :
    cs = part ++ rest ∧ ∀ {more : List Char}, IsFurther more → IsFurther (part ++ more) := by
  unfold dotted? at h
  split at h
  · next behindDot dot =>
    split at h
    · next word behindWord found =>
      cases h
      obtain ⟨same, isWord⟩ := identifier?_eq_some found
      have leftBlank : ∀ c ∈ cs.takeWhile Text.isBlank, Text.isBlank c = true :=
        fun _ hc => List.mem_takeWhile_imp hc
      have rightBlank : ∀ c ∈ behindDot.takeWhile Text.isBlank, Text.isBlank c = true :=
        fun _ hc => List.mem_takeWhile_imp hc
      refine ⟨?_, fun more => ?_⟩
      · calc cs = cs.takeWhile Text.isBlank ++ '.' :: behindDot := by
              rw [← dot, List.takeWhile_append_dropWhile]
          _ = cs.takeWhile Text.isBlank
                ++ '.' :: (behindDot.takeWhile Text.isBlank ++ (word ++ rest)) := by
              rw [← same, List.takeWhile_append_dropWhile]
          _ = _ := by simp only [List.append_assoc, List.cons_append]
      · simpa only [List.append_assoc, List.cons_append] using
          IsFurther.cons leftBlank rightBlank isWord more
    · cases h
  · cases h

/-- A run of dotted identifiers takes from a text what it answers. -/
theorem dottedRun_eq (n : Nat) (cs : List Char) :
    cs = (dottedRun n cs).1 ++ (dottedRun n cs).2 ∧ IsFurther (dottedRun n cs).1 := by
  induction n generalizing cs with
  | zero => exact ⟨rfl, .nil⟩
  | succ n ih =>
    unfold dottedRun
    split
    · next part rest found =>
      obtain ⟨same, further⟩ := dotted?_eq_some found
      obtain ⟨others, more⟩ := ih rest
      refine ⟨?_, further more⟩
      rw [List.append_assoc, ← others, same]
    · exact ⟨rfl, .nil⟩

/-- What is found at the start of a text is a lexeme there. -/
theorem lexeme?_eq_some {cs part rest : List Char} (h : lexeme? cs = some (part, rest)) :
    cs = part ++ rest ∧ IsLexeme part := by
  unfold lexeme? at h
  split at h
  · next word behindWord found =>
    cases h
    obtain ⟨same, isWord⟩ := identifier?_eq_some found
    obtain ⟨others, more⟩ := dottedRun_eq behindWord.length behindWord
    exact ⟨by rw [List.append_assoc, ← others, same], .inl (.name isWord more)⟩
  · split at h
    · cases h
    · next c cs _ =>
      -- A mark stands by itself, brackets must close, and blanks are taken together.
      by_cases mark : isMark c = true
      · rw [if_pos mark] at h
        cases h
        exact ⟨rfl, .inl (.mark mark)⟩
      · rw [if_neg mark] at h
        split at h
        · next opening =>
          subst opening
          split at h
          · next behindClosing closing =>
            cases h
            refine ⟨?_, .inl (.brackets fun _ hc => List.mem_takeWhile_imp hc)⟩
            simp only [List.cons_append, List.append_assoc, List.nil_append]
            rw [← closing, List.takeWhile_append_dropWhile]
          · cases h
        · split at h
          · next blank =>
            cases h
            refine ⟨by rw [List.cons_append, List.takeWhile_append_dropWhile], .inr ⟨nofun, ?_⟩⟩
            exact List.forall_mem_cons.mpr ⟨blank, fun _ hc => List.mem_takeWhile_imp hc⟩
          · cases h

/-- Where a text starts with a lexeme, one is found. -/
theorem isSome_lexeme? {part : List Char} (h : IsLexeme part) (text : List Char) :
    (lexeme? (part ++ text)).isSome = true := by
  -- A token's first character decides by itself that some lexeme is found; how far it reaches is
  -- another matter.
  rcases h with isSlice | ⟨some, blank⟩
  · cases isSlice with
    | @name word rest isWord more =>
      obtain ⟨c, parts, rfl, start, -⟩ := isWord
      have found : (identifier? (c :: (parts ++ rest ++ text))).isSome = true := by
        simp only [identifier?, start, if_true, Option.isSome_some]
      show (lexeme? (c :: (parts ++ rest ++ text))).isSome = true
      unfold lexeme?
      split
      · rfl
      · next none =>
        rw [none] at found
        cases found
    | mark isMark =>
      unfold lexeme?
      split
      · rfl
      · show (if _ then _ else _ : Option (List Char × List Char)).isSome = true
        rw [if_pos isMark]
        rfl
    | @brackets space blank =>
      have closing : (space ++ [']'] ++ text).dropWhile Text.isBlank = ']' :: text := by
        rw [List.append_assoc, List.dropWhile_append_of_pos blank]
        rfl
      show (lexeme? ('[' :: (space ++ [']'] ++ text))).isSome = true
      unfold lexeme?
      split
      · rfl
      · simp only [closing]
        rfl
  · obtain ⟨c, part, rfl⟩ := List.exists_cons_of_ne_nil some
    have first := blank c List.mem_cons_self
    show (lexeme? (c :: (part ++ text))).isSome = true
    unfold lexeme?
    split
    · rfl
    · show (if _ then _ else _ : Option (List Char × List Char)).isSome = true
      split
      · rfl
      · split
        · next opening =>
          rw [opening] at first
          cases first
        · rfl

/-! ## §4. Scanning in place. -/

/-- One more lexeme in front of covered text. -/
theorem Covers.lexeme {before part text : List Char} {tokens : List Token} (h : IsLexeme part)
    (rest : Covers (before ++ part) text tokens) :
    Covers before (part ++ text) (ofLexeme (behind before) part ++ tokens) := by
  rcases h with isSlice | ⟨-, blank⟩
  · have token : ofLexeme (behind before) part = [ofSlice before part] := by
      unfold ofLexeme
      rw [isSlice.filled]
      rfl
    rw [token]
    exact .token isSlice rest
  · have nothing : ofLexeme (behind before) part = [] := if_pos (List.all_eq_true.mpr blank)
    rw [nothing]
    exact .space blank rest

/-- Some text that is followed by other text and in front of which no lexeme stands. -/
structure IsStray (stray rest : List Char) : Prop where
  some : stray ≠ []
  unread : ∀ part text, stray ++ rest = part ++ text → ¬ IsLexeme part

/-- What scanning comes to behind some text: tokens that cover the text that is left and an empty
one at its end, or an error about the first text that no lexeme starts. -/
def InPlace (before cs : List Char) : Except SyntaxError (List Token) → Prop
  | .ok tokens => ∃ slices, Covers before cs slices
      ∧ tokens = slices ++ [⟨"", behind (before ++ cs)⟩]
  | .error e => ∃ covered stray rest slices, cs = covered ++ (stray ++ rest)
      ∧ Covers before covered slices ∧ IsStray stray rest
      ∧ e = ⟨behind (before ++ covered), .strayText (.ofList stray)⟩

theorem InPlace.lexeme {before part text : List Char} {answer : Except SyntaxError (List Token)}
    (h : IsLexeme part) (rest : InPlace (before ++ part) text answer) :
    InPlace before (part ++ text) ((ofLexeme (behind before) part ++ ·) <$> answer) := by
  rcases answer with e | tokens
  · obtain ⟨covered, stray, rest, slices, rfl, covers, isStray, rfl⟩ := rest
    exact ⟨part ++ covered, stray, rest, _, (List.append_assoc ..).symm, covers.lexeme h, isStray,
      by rw [List.append_assoc]⟩
  · obtain ⟨slices, covers, rfl⟩ := rest
    exact ⟨_, covers.lexeme h, by rw [List.append_assoc, List.append_assoc]⟩

/-- The text before the next lexeme is the front of its text. -/
theorem exists_stray (cs : List Char) : ∃ rest, cs = stray cs ++ rest := by
  induction cs with
  | nil => exact ⟨[], rfl⟩
  | cons c cs ih =>
    unfold stray
    split
    · exact ⟨_, rfl⟩
    · obtain ⟨rest, same⟩ := ih
      exact ⟨rest, congrArg (c :: ·) same⟩

/-- Where no lexeme is found, the text before the next one is stray. -/
theorem isStray_of_lexeme? {cs : List Char} (some : cs ≠ []) (none : lexeme? cs = none) :
    ∃ rest, cs = stray cs ++ rest ∧ IsStray (stray cs) rest := by
  obtain ⟨rest, same⟩ := exists_stray cs
  refine ⟨rest, same, ?_, fun part text split isLexeme => ?_⟩
  · obtain ⟨c, cs, rfl⟩ := List.exists_cons_of_ne_nil some
    unfold stray
    rw [none]
    exact List.cons_ne_nil _ _
  · have found := isSome_lexeme? isLexeme text
    rw [← split, ← same, none] at found
    cases found

theorem scanFrom_of_none {n : Nat} {p : Position} {cs : List Char} (some : cs ≠ [])
    (none : lexeme? cs = none) :
    scanFrom (n + 1) p cs = .error ⟨p, .strayText (.ofList (stray cs))⟩ := by
  obtain ⟨c, cs, rfl⟩ := List.exists_cons_of_ne_nil some
  simp only [scanFrom, none]

/-- Scanning that starts at a true position stays at true positions. -/
theorem inPlace_scanFrom (n : Nat) : ∀ before cs : List Char, cs.length ≤ n →
    InPlace before cs (scanFrom n (behind before) cs) := by
  have nothing : ∀ n before, InPlace before [] (scanFrom n (behind before) []) := by
    intro n before
    rw [scanFrom_nil]
    exact ⟨[], .nil, by rw [List.append_nil, List.nil_append]⟩
  induction n with
  | zero =>
    intro before cs fits
    obtain rfl := List.length_eq_zero_iff.mp (Nat.le_zero.mp fits)
    exact nothing 0 before
  | succ n ih =>
    intro before cs fits
    by_cases some : cs = []
    · subst some
      exact nothing _ before
    · rcases found : lexeme? cs with _ | ⟨part, text⟩
      · obtain ⟨rest, same, isStray⟩ := isStray_of_lexeme? some found
        rw [scanFrom_of_none some found]
        exact ⟨[], stray cs, rest, [], same, .nil, isStray, by rw [List.append_nil]⟩
      · obtain ⟨rfl, isLexeme⟩ := lexeme?_eq_some found
        have shorter : text.length ≤ n := by
          have taken := isLexeme.length_pos
          rw [List.length_append] at fits
          omega
        rw [scanFrom_succ found, Position.after_behind]
        exact (ih (before ++ part) text shorter).lexeme isLexeme

/-- The tokens of a text are slices of it, one behind the other with nothing but white space around
them, each with its white space removed and at its true position, and the empty token stands at the
end of the text.  If there are no such tokens, the error quotes text that no lexeme starts, and it
stands at the true position of that text, behind slices and white space. -/
theorem scanned_in_place (text : String) :
    match scan text with
    | .ok tokens => ∃ slices, Covers [] text.toList slices
        ∧ tokens = slices ++ [⟨"", behind text.toList⟩]
    | .error e => ∃ covered stray rest slices, text.toList = covered ++ (stray ++ rest)
        ∧ Covers [] covered slices ∧ IsStray stray rest
        ∧ e = ⟨behind covered, .strayText (.ofList stray)⟩ := by
  have inPlace : InPlace [] text.toList (scan text) :=
    inPlace_scanFrom text.length [] text.toList (Nat.le_refl _)
  unfold InPlace at inPlace
  exact inPlace

end TypeSyntax.Token

end ParcelCodec
