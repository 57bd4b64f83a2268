/-!
# Segments

A text falls into segments at every separator: a package name at its dots, a path at its slashes.
Nothing is lost but the separators, so writing them back between the segments restores the text,
and words without separators come apart again as they were joined.
-/

namespace ParcelCodec.Text

/-- The segments between separators; there is always at least one. -/
def segments (separator : Char) : List Char → List (List Char)
  | [] => [[]]
  | c :: rest =>
    if c = separator then [] :: segments separator rest
    else
      match segments separator rest with
      | [] => [[c]]
      | first :: others => (c :: first) :: others

theorem segments_ne_nil (separator : Char) (cs : List Char) : segments separator cs ≠ [] := by
  cases cs with
  | nil => simp [segments]
  | cons c rest =>
    unfold segments
    split
    · simp
    · split <;> simp

/-- Joining the segments of a text restores it. -/
theorem intercalate_segments (separator : Char) (cs : List Char) :
    [separator].intercalate (segments separator cs) = cs := by
  induction cs with
  | nil => rfl
  | cons c rest ih =>
    unfold segments
    cases h : segments separator rest with
    | nil => exact absurd h (segments_ne_nil separator rest)
    | cons first others =>
      rw [h] at ih
      by_cases hc : c = separator
      · simp [hc, ← ih, List.intercalate]
      · cases others <;> simp_all [List.intercalate]

theorem segments_append {separator : Char} {word : List Char} (free : separator ∉ word)
    (cs : List Char) :
    segments separator (word ++ separator :: cs) = word :: segments separator cs := by
  induction word with
  | nil => simp [segments]
  | cons c rest ih =>
    have apart : c ≠ separator := fun e => free (e ▸ List.mem_cons_self)
    rw [List.cons_append, segments, if_neg apart, ih fun h => free (List.mem_cons_of_mem _ h)]

theorem segments_of_not_mem {separator : Char} {word : List Char} (free : separator ∉ word) :
    segments separator word = [word] := by
  induction word with
  | nil => rfl
  | cons c rest ih =>
    have apart : c ≠ separator := fun e => free (e ▸ List.mem_cons_self)
    rw [segments, if_neg apart, ih fun h => free (List.mem_cons_of_mem _ h)]

/-- Joining words and taking the segments apart again changes nothing. -/
theorem segments_intercalate {separator : Char} {word : List Char} {words : List (List Char)}
    (free : ∀ w ∈ word :: words, separator ∉ w) :
    segments separator ([separator].intercalate (word :: words)) = word :: words := by
  induction words generalizing word with
  | nil => simpa [List.intercalate] using segments_of_not_mem (free word List.mem_cons_self)
  | cons next rest ih =>
    have joined : [separator].intercalate (word :: next :: rest)
        = word ++ separator :: [separator].intercalate (next :: rest) := by
      simp [List.intercalate]
    rw [joined, segments_append (free word List.mem_cons_self),
      ih fun w hw => free w (List.mem_cons_of_mem _ hw)]

end ParcelCodec.Text
