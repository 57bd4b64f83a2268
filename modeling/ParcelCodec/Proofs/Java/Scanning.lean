import Mathlib.Data.List.Basic
import ParcelCodec.Proofs.Java.Grammar

/-!
# How type text falls into tokens

Scanning goes from lexeme to lexeme, so what a text spells is known lexeme by lexeme (`Spells`):
a mark, a pair of brackets and a blank stand for themselves whatever follows, and a dotted name ends
where neither a further character nor a further dot follows (`Ended`).

Main statements: `exists_of_scan`, `spells_name`.
-/

namespace ParcelCodec.TypeSyntax.Token

/-! ## §1. One lexeme after the other. -/

/-- A run of characters ends where another kind of character starts. -/
theorem takeWhile_dropWhile_append {p : Char → Bool} (front cs : List Char)
    (all : ∀ c ∈ front, p c = true) (ends : ∀ c rest, cs = c :: rest → p c = false) :
    (front ++ cs).takeWhile p = front ∧ (front ++ cs).dropWhile p = cs := by
  have nothing : cs.takeWhile p = [] ∧ cs.dropWhile p = cs := by
    rcases cs with _ | ⟨c, rest⟩
    · exact ⟨rfl, rfl⟩
    · simp [ends c rest rfl]
  rw [List.takeWhile_append_of_pos all, List.dropWhile_append_of_pos all, nothing.1, nothing.2,
    List.append_nil]
  exact ⟨rfl, rfl⟩

/-- The token that a lexeme makes, unless it is white space. -/
def ofLexeme (p : Position) (part : List Char) : List Token :=
  if part.all Text.isBlank then []
  else [⟨.ofList (part.filter fun c => !Text.isBlank c), p⟩]

theorem scanFrom_nil (n : Nat) (p : Position) : scanFrom n p [] = .ok [⟨"", p⟩] := by
  cases n <;> rfl

/-- Scanning goes on behind a lexeme, with its tokens in front. -/
theorem scanFrom_succ {n : Nat} {p : Position} {cs part rest : List Char}
    (lexeme : lexeme? cs = some (part, rest)) :
    scanFrom (n + 1) p cs = (ofLexeme p part ++ ·) <$> scanFrom n (p.after part) rest := by
  rcases cs with _ | ⟨c, cs⟩
  · cases lexeme
  · simp only [scanFrom, lexeme, ofLexeme]
    rcases scanFrom n (p.after part) rest with e | tokens
    · rfl
    · by_cases blank : part.all Text.isBlank = true
      · simp only [blank, if_true]
        rfl
      · simp only [blank, Bool.false_eq_true, if_false]
        rfl

/-- Scanning that succeeds reads a first lexeme, unless there is nothing to read. -/
theorem exists_lexeme {n : Nat} {p : Position} {c : Char} {cs : List Char} {tokens : List Token}
    (scanned : scanFrom n p (c :: cs) = .ok tokens) :
    ∃ k part rest others, n = k + 1 ∧ lexeme? (c :: cs) = some (part, rest) ∧
      scanFrom k (p.after part) rest = .ok others ∧ tokens = ofLexeme p part ++ others := by
  rcases n with _ | k
  · cases scanned
  · rcases lexeme : lexeme? (c :: cs) with _ | ⟨part, rest⟩
    · unfold scanFrom at scanned
      rw [lexeme] at scanned
      cases scanned
    · rw [scanFrom_succ lexeme] at scanned
      rcases others : scanFrom k (p.after part) rest with e | tokens
      · rw [others] at scanned
        cases scanned
      · rw [others] at scanned
        cases scanned
        exact ⟨k, part, rest, tokens, rfl, rfl, others, rfl⟩

/-- No lexeme makes an empty token. -/
theorem text_of_mem_ofLexeme {p : Position} {part : List Char} {t : Token}
    (h : t ∈ ofLexeme p part) : t.text ≠ "" := by
  unfold ofLexeme at h
  split at h
  · cases h
  · next filled =>
    obtain ⟨c, hc, apart⟩ : ∃ c ∈ part, Text.isBlank c = false := by simpa using filled
    obtain rfl := List.mem_singleton.mp h
    intro empty
    have nothing : part.filter (fun c => !Text.isBlank c) = [] := by simpa using empty
    exact absurd (List.filter_eq_nil_iff.mp nothing c hc) (by simp [apart])

/-- The token that ends a text is the last one, and the only one that is empty. -/
theorem exists_of_scanFrom {n : Nat} : ∀ {p : Position} {cs : List Char} {tokens : List Token},
    scanFrom n p cs = .ok tokens → ∃ before done,
      tokens = before ++ [done] ∧ done.text = "" ∧ ∀ t ∈ before, t.text ≠ "" := by
  induction n with
  | zero =>
    intro p cs tokens scanned
    rcases cs with _ | ⟨c, cs⟩
    · cases scanned
      exact ⟨[], _, rfl, rfl, nofun⟩
    · cases scanned
  | succ n ih =>
    intro p cs tokens scanned
    rcases cs with _ | ⟨c, cs⟩
    · cases scanned
      exact ⟨[], _, rfl, rfl, nofun⟩
    · obtain ⟨k, part, rest, others, same, -, behind, rfl⟩ := exists_lexeme scanned
      obtain rfl : n = k := Nat.succ.inj same
      obtain ⟨before, done, rfl, empty, filled⟩ := ih behind
      refine ⟨ofLexeme p part ++ before, done, (List.append_assoc ..).symm, empty, ?_⟩
      exact List.forall_mem_append.mpr ⟨fun _ => text_of_mem_ofLexeme, filled⟩

/-- The tokens of a text are some with text and an empty one at the end. -/
theorem exists_of_scan {text : String} {tokens : List Token} (scanned : scan text = .ok tokens) :
    ∃ before done, tokens = before ++ [done] ∧ done.text = "" ∧ ∀ t ∈ before, t.text ≠ "" :=
  exists_of_scanFrom scanned

/-! ## §2. What a text spells. -/

/-- A text falls into tokens with these texts, and an empty one. -/
def Spells (cs : List Char) (ws : List String) : Prop :=
  ∀ n p, cs.length ≤ n → ∃ before done, scanFrom n p cs = .ok (before ++ [done]) ∧
    done.text = "" ∧ before.map Token.text = ws

theorem spells_nil : Spells [] [] := fun n p _ => ⟨[], ⟨"", p⟩, scanFrom_nil n p, rfl, rfl⟩

/-- A lexeme in front puts its tokens in front. -/
theorem spells_lexeme {cs part rest : List Char} {ws : List String} (spelled : Spells rest ws)
    (lexeme : lexeme? cs = some (part, rest)) (shorter : rest.length < cs.length) :
    Spells cs ((ofLexeme .start part).map Token.text ++ ws) := by
  intro n p fits
  obtain ⟨n, rfl⟩ : ∃ k, n = k + 1 := ⟨n - 1, by omega⟩
  obtain ⟨before, done, scanned, empty, texts⟩ := spelled n (p.after part) (by omega)
  refine ⟨ofLexeme p part ++ before, done, ?_, empty, ?_⟩
  · rw [scanFrom_succ lexeme, scanned, List.append_assoc]
    rfl
  · rw [List.map_append, texts]
    unfold ofLexeme
    split <;> rfl

/-- A mark spells itself. -/
theorem spells_mark {c : Char} (mark : c ∈ ['<', '>', ',']) {rest : List Char} {ws : List String}
    (spelled : Spells rest ws) : Spells (c :: rest) (c.toString :: ws) := by
  have lexeme : lexeme? (c :: rest) = some ([c], rest) := by
    simp only [List.mem_cons, List.not_mem_nil, or_false] at mark
    rcases mark with rfl | rfl | rfl <;> rfl
  have token : (ofLexeme .start [c]).map Token.text = [c.toString] := by
    simp only [List.mem_cons, List.not_mem_nil, or_false] at mark
    rcases mark with rfl | rfl | rfl <;> rfl
  simpa [token] using spells_lexeme spelled lexeme (by simp)

/-- Two brackets spell one word. -/
theorem spells_brackets {rest : List Char} {ws : List String} (spelled : Spells rest ws) :
    Spells ('[' :: ']' :: rest) ("[]" :: ws) :=
  have lexeme : lexeme? ('[' :: ']' :: rest) = some (['[', ']'], rest) := rfl
  spells_lexeme spelled lexeme (by simp only [List.length_cons]; omega)

/-- A single blank is no token. -/
theorem spells_blank {cs : List Char} {ws : List String}
    (filled : ∀ c rest, cs = c :: rest → Text.isBlank c = false) (spelled : Spells cs ws) :
    Spells (' ' :: cs) ws := by
  have single : cs.takeWhile Text.isBlank = [] ∧ cs.dropWhile Text.isBlank = cs :=
    takeWhile_dropWhile_append [] cs nofun filled
  have lexeme : lexeme? (' ' :: cs) = some ([' '], cs) := by
    show some (' ' :: cs.takeWhile Text.isBlank, cs.dropWhile Text.isBlank) = _
    rw [single.1, single.2]
  exact spells_lexeme spelled lexeme (by simp)

/-! ## §3. Names. -/

/-- No part of a name is white space. -/
theorem isBlank_of_isNamePart {c : Char} (h : isNamePart c = true) : Text.isBlank c = false := by
  have le_iff (a b : Char) : a ≤ b ↔ a.toNat ≤ b.toNat := Iff.rfl
  have within : (c.toNat = 36 ∨ 48 ≤ c.toNat) ∧ c.toNat ≤ 122 := by
    simp only [isNamePart, isNameStart, Bool.or_eq_true, Bool.and_eq_true, decide_eq_true_eq,
      beq_iff_eq, le_iff] at h
    rcases h with (((⟨low, high⟩ | ⟨low, high⟩) | rfl) | rfl) | ⟨low, high⟩
    · exact ⟨.inr (Nat.le_trans (by decide) low), Nat.le_trans high (by decide)⟩
    · exact ⟨.inr (Nat.le_trans (by decide) low), Nat.le_trans high (by decide)⟩
    · decide
    · decide
    · exact ⟨.inr (Nat.le_trans (by decide) low), Nat.le_trans high (by decide)⟩
  simp [Text.isBlank]
  omega

/-- White space stands in no name. -/
theorem not_isNamePart_of_isBlank {c : Char} (h : Text.isBlank c = true) : isNamePart c = false := by
  by_contra part
  rw [isBlank_of_isNamePart (Bool.not_eq_false _ ▸ part)] at h
  cases h

theorem not_isNameStart {c : Char} (h : isNamePart c = false) : isNameStart c = false :=
  (Bool.or_eq_false_iff.mp h).1

/-- Neither does a mark. -/
theorem not_isNamePart_of_isMark {c : Char} (h : isMark c = true) : isNamePart c = false := by
  simp only [isMark, Bool.or_eq_true, beq_iff_eq] at h
  rcases h with (((rfl | rfl) | rfl) | rfl) | rfl <;> decide

/-- A mark is no white space. -/
theorem not_isBlank_of_isMark {c : Char} (h : isMark c = true) : Text.isBlank c = false := by
  simp only [isMark, Bool.or_eq_true, beq_iff_eq] at h
  rcases h with (((rfl | rfl) | rfl) | rfl) | rfl <;> decide

/-- An identifier ends before a text that starts with no part of a name. -/
theorem identifier?_append {word : List Char} (h : IsIdentifier word) {rest : List Char}
    (ends : ∀ c cs, rest = c :: cs → isNamePart c = false) :
    identifier? (word ++ rest) = some (word, rest) := by
  obtain ⟨c, parts, rfl, start, all⟩ := h
  have run := takeWhile_dropWhile_append parts rest all ends
  rw [List.cons_append, identifier?, if_pos start, run.1, run.2]

/-- The further identifiers of a name as they are written: each behind a dot, with white space
around the dot. -/
inductive IsFurther : List Char → Prop
  | nil : IsFurther []
  | cons {left right word rest : List Char} (leftBlank : ∀ c ∈ left, Text.isBlank c = true)
    (rightBlank : ∀ c ∈ right, Text.isBlank c = true) (isWord : IsIdentifier word)
    (more : IsFurther rest) : IsFurther (left ++ '.' :: right ++ word ++ rest)

/-- A text that starts with no further part of a name. -/
structure Ended (rest : List Char) : Prop where
  part : ∀ c cs, rest = c :: cs → isNamePart c = false
  dot : dotted? rest = none

/-- What a dot leads to is settled by what stands behind it and its white space. -/
theorem dotted?_of_dot {cs behind : List Char} (dot : cs.dropWhile Text.isBlank = '.' :: behind) :
    dotted? cs = (identifier? (behind.dropWhile Text.isBlank)).map fun p =>
      (cs.takeWhile Text.isBlank ++ '.' :: behind.takeWhile Text.isBlank ++ p.1, p.2) := by
  simp only [dotted?, dot]
  cases identifier? (behind.dropWhile Text.isBlank) <;> rfl

/-- A further identifier of a name, behind a dot with white space around it. -/
theorem dotted?_further {left right word rest : List Char}
    (leftBlank : ∀ c ∈ left, Text.isBlank c = true) (rightBlank : ∀ c ∈ right, Text.isBlank c = true)
    (isWord : IsIdentifier word) (ends : ∀ c cs, rest = c :: cs → isNamePart c = false) :
    dotted? (left ++ '.' :: right ++ word ++ rest) = some (left ++ '.' :: right ++ word, rest) := by
  have before := takeWhile_dropWhile_append left ('.' :: (right ++ (word ++ rest))) leftBlank (by
    rintro _ _ ⟨⟩
    rfl)
  have behind := takeWhile_dropWhile_append right (word ++ rest) rightBlank (by
    obtain ⟨c, parts, rfl, start, -⟩ := isWord
    rintro _ _ ⟨⟩
    exact isBlank_of_isNamePart (isNamePart_of_isNameStart start))
  have shape : left ++ '.' :: right ++ word ++ rest = left ++ '.' :: (right ++ (word ++ rest)) := by
    simp
  rw [shape, dotted?_of_dot before.2, before.1, behind.1, behind.2, identifier?_append isWord ends]
  rfl

/-- No part of a name stands in front of a dot, or where a name has ended. -/
theorem IsFurther.ends {further rest : List Char} (h : IsFurther further) (ended : Ended rest) :
    ∀ c cs, further ++ rest = c :: cs → isNamePart c = false := by
  cases h with
  | nil => exact ended.part
  | @cons left right word more leftBlank _ _ _ =>
    rcases left with _ | ⟨d, left⟩
    · rintro _ _ ⟨⟩
      rfl
    · rintro _ _ ⟨⟩
      exact not_isNamePart_of_isBlank (leftBlank _ List.mem_cons_self)

/-- The further parts of a name are taken as a whole. -/
theorem dottedRun_further {further rest : List Char} (h : IsFurther further) (ended : Ended rest) :
    ∀ n, further.length ≤ n → dottedRun n (further ++ rest) = (further, rest) := by
  induction h with
  | nil =>
    intro n _
    cases n with
    | zero => rfl
    | succ n => rw [List.nil_append, dottedRun, ended.dot]
  | @cons left right word more leftBlank rightBlank isWord isMore ih =>
    intro n fits
    obtain ⟨n, rfl⟩ : ∃ k, n = k + 1 := ⟨n - 1, by simp at fits; omega⟩
    have step := dotted?_further leftBlank rightBlank isWord (isMore.ends ended)
    rw [← List.append_assoc] at step
    simp only [dottedRun, step, ih n (by simp at fits; omega)]

/-- A name as it is written is one lexeme, in front of text that does not go on with it. -/
theorem lexeme?_name {word further rest : List Char} (isWord : IsIdentifier word)
    (isFurther : IsFurther further) (ended : Ended rest) :
    lexeme? (word ++ further ++ rest) = some (word ++ further, rest) := by
  have run := dottedRun_further isFurther ended (further ++ rest).length
    (by rw [List.length_append]; omega)
  rw [List.append_assoc]
  simp only [lexeme?, identifier?_append isWord (isFurther.ends ended), run]

/-- Texts behind which a name has ended: none, or one that starts with one of these marks. -/
def Breaks (rest : List Char) : Prop :=
  ∀ c cs, rest = c :: cs → c ∈ ['<', '>', ',', '[']

theorem breaks_nil : Breaks [] := nofun

theorem breaks_cons {c : Char} (h : c ∈ ['<', '>', ',', '[']) (rest : List Char) :
    Breaks (c :: rest) := by
  rintro _ _ ⟨⟩
  exact h

/-- A name ends where a mark stands or the text ends. -/
theorem Breaks.ended {rest : List Char} (h : Breaks rest) : Ended rest := by
  rcases rest with _ | ⟨c, rest⟩
  · exact ⟨nofun, rfl⟩
  · have among := h c rest rfl
    simp only [List.mem_cons, List.not_mem_nil, or_false] at among
    refine ⟨?_, by rcases among with rfl | rfl | rfl | rfl <;> rfl⟩
    rintro _ _ ⟨⟩
    rcases among with rfl | rfl | rfl | rfl <;> decide

/-- The further identifiers of a name, each behind a dot. -/
def furtherOf (words : List (List Char)) : List Char :=
  words.flatMap ('.' :: ·)

/-- The words of a name are the first one and its further parts. -/
theorem intercalate_eq (word : List Char) (words : List (List Char)) :
    ['.'].intercalate (word :: words) = word ++ furtherOf words := by
  induction words generalizing word with
  | nil => simp [furtherOf]
  | cons next rest ih =>
    rw [List.intercalate_cons_cons, ih]
    simp [furtherOf]

/-- Identifiers with dots in front are the further parts of a name. -/
theorem isFurther_furtherOf {words : List (List Char)} (each : ∀ w ∈ words, IsIdentifier w) :
    IsFurther (furtherOf words) := by
  induction words with
  | nil => exact .nil
  | cons word words ih =>
    obtain ⟨first, others⟩ := List.forall_mem_cons.mp each
    have further := @IsFurther.cons [] [] _ _ nofun nofun first (ih others)
    simpa [furtherOf] using further

/-- A dotted name is one lexeme where it breaks. -/
theorem lexeme?_append {name : List Char} (h : IsDottedName name) {rest : List Char}
    (breaks : Breaks rest) : lexeme? (name ++ rest) = some (name, rest) := by
  obtain ⟨word, words, each, rfl⟩ := h
  obtain ⟨first, others⟩ := List.forall_mem_cons.mp each
  rw [intercalate_eq]
  exact lexeme?_name first (isFurther_furtherOf others) breaks.ended

/-- A dotted name is made of parts of names and dots. -/
theorem mem_name {name : List Char} (h : IsDottedName name) :
    ∀ c ∈ name, c = '.' ∨ isNamePart c = true := by
  obtain ⟨word, words, each, rfl⟩ := h
  obtain ⟨first, others⟩ := List.forall_mem_cons.mp each
  rw [intercalate_eq]
  refine List.forall_mem_append.mpr ⟨fun c hc => .inr (first.isNamePart c hc), ?_⟩
  intro c hc
  obtain ⟨next, mem, hc⟩ := List.mem_flatMap.mp hc
  rcases List.mem_cons.mp hc with rfl | hc
  · exact .inl rfl
  · exact .inr ((others next mem).isNamePart c hc)

/-- There is no white space in a dotted name. -/
theorem isBlank_of_mem_name {name : List Char} (h : IsDottedName name) :
    ∀ c ∈ name, Text.isBlank c = false := by
  intro c hc
  rcases mem_name h c hc with rfl | part
  · rfl
  · exact isBlank_of_isNamePart part

/-- A dotted name starts with the first character of an identifier. -/
theorem exists_start {name : List Char} (h : IsDottedName name) :
    ∃ c cs, name = c :: cs ∧ isNameStart c = true := by
  obtain ⟨word, words, each, rfl⟩ := h
  obtain ⟨c, cs, rfl, start, _⟩ := each word List.mem_cons_self
  exact ⟨c, _, intercalate_eq _ _, start⟩

/-- A dotted name is one token where it breaks. -/
theorem spells_name {name : String} (h : IsDottedName name.toList) {rest : List Char}
    {ws : List String} (breaks : Breaks rest) (spelled : Spells rest ws) :
    Spells (name.toList ++ rest) (name :: ws) := by
  have filled := isBlank_of_mem_name h
  obtain ⟨c, cs, same, _⟩ := exists_start h
  have some : ¬ name.toList.all Text.isBlank = true := by
    rw [same] at filled ⊢
    simp [filled c List.mem_cons_self]
  have kept : name.toList.filter (fun c => !Text.isBlank c) = name.toList :=
    List.filter_eq_self.mpr fun c hc => by rw [filled c hc]; rfl
  have token : (ofLexeme .start name.toList).map Token.text = [name] := by
    rw [ofLexeme, if_neg some, kept, String.ofList_toList]
    rfl
  have shorter : rest.length < (name.toList ++ rest).length := by
    rw [List.length_append, same, List.length_cons]
    omega
  simpa [token] using spells_lexeme spelled (lexeme?_append h breaks) shorter

end ParcelCodec.TypeSyntax.Token
