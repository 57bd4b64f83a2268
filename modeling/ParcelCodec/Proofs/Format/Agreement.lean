import ParcelCodec.Proofs.Format.Codec
import ParcelCodec.Proofs.Wire.Progress

/-!
# Decodings that agree

Two decodings along one codec that differ in how they read instances, or array lengths, do the
same until one of them stops early.  A tolerance says which early stops are accepted and what the
other side may do instead; decodings that agree in their parts agree as wholes.

Main statements: `decodeWith_agree` and `decodeInstance_agree`.
-/

namespace ParcelCodec.Format

open DataClass (Descriptor Property)
open Wire (Cursor Onward Advances)

/-! ## §1. Tolerances. -/

/-- The failure of an outcome, if it is one. -/
def failure? {α : Type} : Except RunError α → Option RunError
  | .ok _ => none
  | .error e => some e

/-- Where one side may stop early, and how the other side may end then. -/
structure Tolerance where
  /-- The first side stops with a failure, and the second side ends with one or, if there is none,
  with a success. -/
  Stops : RunError → Option RunError → Prop
  restated : ∀ {e o} (fault : DecodeFault), Stops e o →
    Stops (Calls.restated (.decode fault) e) (o.map (Calls.restated (.decode fault)))
  /-- Where a success is accepted, the second side may go on in any way. -/
  any_of_success : ∀ {e}, Stops e none → ∀ o, Stops e o

/-- Whatever failure the first side stops with is accepted. -/
def lenient : Tolerance where
  Stops _ _ := True
  restated _ _ := trivial
  any_of_success _ _ := trivial

variable {t : Tolerance} {c₀ : Cursor} {α β : Type}

/-- Outcomes that are the same, unless the first side stopped early. -/
def Tolerance.Related (t : Tolerance) (r r' : Except RunError α × Cursor) : Prop :=
  r = r' ∨ ∃ e, r.1 = .error e ∧ t.Stops e (failure? r'.1)

/-- Reads with related outcomes wherever they start, from some cursor on. -/
def Agree (t : Tolerance) (c₀ : Cursor) (x y : Reading α) : Prop :=
  ∀ c, Onward c₀ c → t.Related (x c) (y c)

namespace Agree

/-- A reading agrees with itself. -/
theorem refl (x : Reading α) : Agree t c₀ x x := fun _ _ => .inl rfl

/-- Where a read answers, the one that it agrees with gives the same answer. -/
theorem ok {x y : Reading α} {c c' : Cursor} {a : α} (h : Agree lenient c x y)
    (run : x c = (.ok a, c')) : y c = (.ok a, c') := by
  rcases h c (Onward.refl c) with same | ⟨e, stopped, -⟩
  · rw [← same, run]
  · rw [run] at stopped
    cases stopped

/-- Readings in a row agree if each does, as the first one only moves forward. -/
theorem bind {x y : Reading α} {f g : α → Reading β} (hx : Agree t c₀ x y)
    (forward : Advances 0 x) (hf : ∀ a, Agree t c₀ (f a) (g a)) :
    Agree t c₀ (x >>= f) (y >>= g) := by
  intro c hc
  have onward := (forward c).1
  rcases hx c hc with same | ⟨e, stopped, ends⟩
  · rcases h : x c with ⟨e | a, c'⟩
    · rw [Step.bind_error h, Step.bind_error (same ▸ h)]
      exact .inl rfl
    · rw [Step.bind_ok h, Step.bind_ok (same ▸ h)]
      rw [h] at onward
      exact hf a c' (hc.trans onward)
  · rcases h : x c with ⟨e' | a, c'⟩
    · rw [h] at stopped
      cases stopped
      refine .inr ⟨e, by rw [Step.bind_error h], ?_⟩
      rcases h' : y c with ⟨e' | a, c''⟩
      · rw [h'] at ends
        rw [Step.bind_error h']
        exact ends
      · rw [h'] at ends
        exact t.any_of_success ends _
    · rw [h] at stopped
      cases stopped

theorem map {x y : Reading α} (f : α → β) (hx : Agree t c₀ x y) (forward : Advances 0 x) :
    Agree t c₀ (do return f (← x)) (do return f (← y)) :=
  hx.bind forward fun a => refl (pure (f a))

/-- A choice between readings agrees if both of them do. -/
theorem ite {p : Prop} [Decidable p] {x y x' y' : Reading α} (hx : Agree t c₀ x x')
    (hy : Agree t c₀ y y') : Agree t c₀ (if p then x else y) (if p then x' else y') := by
  split
  · exact hx
  · exact hy

/-- Restating faults keeps readings in agreement. -/
theorem restated {x y : Reading α} (fault : DecodeFault) (hx : Agree t c₀ x y) :
    Agree t c₀ (Step.mapError (Calls.restated (.decode fault)) x)
      (Step.mapError (Calls.restated (.decode fault)) y) := by
  intro c hc
  rw [Step.mapError_apply, Step.mapError_apply]
  rcases hx c hc with same | ⟨e, stopped, ends⟩
  · rw [same]
    exact .inl rfl
  · rcases h : x c with ⟨e' | a, c'⟩
    · rw [h] at stopped
      cases stopped
      refine .inr ⟨_, rfl, ?_⟩
      have restated := t.restated fault ends
      rcases h' : y c with ⟨e' | a, c''⟩ <;> rw [h'] at restated <;> exact restated
    · rw [h] at stopped
      cases stopped

/-- Readings that agree agree when they are repeated. -/
theorem replicate {x y : Reading α} (hx : Agree t c₀ x y) (forward : Advances 0 x) :
    ∀ n, Agree t c₀ (Step.replicate n x) (Step.replicate n y)
  | 0 => refl _
  | n + 1 =>
    hx.bind forward fun a => (replicate hx forward n).map (a :: ·)
      (Advances.replicate_zero forward n)

end Agree

/-! ## §2. Tagged values. -/

section Tagged

variable {fault : DecodeFault} {hook hook' : Reading Value}

/-- Counted items agree if each item does. -/
theorem agree_counted {bad : RunError} {item item' : Reading α} {wrap : List α → Value}
    (h : Agree t c₀ item item') (forward : Advances 0 item) :
    Agree t c₀ (Wire.Read.counted bad item wrap) (Wire.Read.counted bad item' wrap) := by
  refine (Agree.refl _).bind ((Wire.Read.advances_slot Wire.Read.advances_length).weaken
    (Nat.zero_le _)) fun n => ?_
  cases n with
  | none => exact .refl _
  | some n => exact (h.replicate forward n).map wrap (Advances.replicate_zero forward n)

theorem agree_pair {item item' : Reading α} (h : Agree t c₀ item item')
    (forward : Advances 0 item) :
    Agree t c₀ (Wire.Read.pair item item) (Wire.Read.pair item' item') :=
  h.bind forward fun a => h.map (fun b => (a, b)) forward

/-- What stands behind a tag is read alike if the hook and the items are. -/
theorem agree_payload {bad : RunError} {item item' : Reading Value}
    (hh : Agree t c₀ hook hook') (hi : Agree t c₀ item item') (forward : Advances 0 item)
    (tag : Int32) :
    Agree t c₀ (Wire.Read.payload bad hook item tag) (Wire.Read.payload bad hook' item' tag) := by
  unfold Wire.Read.payload
  refine .ite (.refl _) (.ite (.refl _) (.ite (.refl _) (.ite (.refl _) (.ite (.refl _) ?_))))
  refine .ite (.refl _) (.ite (.refl _) (.ite (.refl _) (.ite (.refl _) (.ite (.refl _) ?_))))
  -- Only lists, maps and instances depend on the hook.
  refine .ite (agree_counted hi forward) (.ite ?_ (.ite hh (.refl _)))
  exact agree_counted (agree_pair hi forward) (Wire.Read.advances_pair forward forward)

/-- Tagged values of any depth are read alike if the hook reads alike. -/
theorem agree_taggedWithin {bad : RunError} (h : Agree t c₀ hook hook')
    (forward : Advances 0 hook) : ∀ depth,
    Agree t c₀ (Wire.Read.taggedWithin bad hook depth) (Wire.Read.taggedWithin bad hook' depth)
  | 0 => .refl _
  | depth + 1 =>
    (Agree.refl _).bind ((Wire.Read.advances_slot Wire.Read.advances_int).weaken (Nat.zero_le _))
      fun tag => agree_payload h (agree_taggedWithin h forward depth)
        ((Wire.Read.advances_taggedWithin forward depth).weaken (Nat.zero_le _)) tag

end Tagged

/-! ## §3. Reads along a codec move forward. -/

section Forward

/-- An operation of the wire takes as many bytes as its read. -/
theorem advances_ofOp {k : Nat} {op : Wire.Op} {read : Wire.Read α} (h : Advances k read) :
    Advances k (Reading.ofOp op read) := by
  intro c
  unfold Reading.ofOp
  exact h.mapError _ c

theorem advances_readInt : Advances 4 readInt := advances_ofOp Wire.Read.advances_int

theorem advances_toCount (n : Int32) : Advances 0 (toCount n) := .ite (.pure _) (.fail 0 _)

/-- The number of the elements takes a slot of its own. -/
theorem wide_readCount : Advances 4 readCount := advances_readInt.andThen advances_toCount

/-- A count moves forward, whether it is accepted or not. -/
theorem advances_readCount : Advances 0 readCount := wide_readCount.weaken (Nat.zero_le _)

variable {readers : Readers} (forward : ∀ name, Advances 0 (readers name))

include forward

theorem advances_readNamed : Advances 0 (readNamed readers) := by
  refine ((advances_ofOp Wire.Read.advances_string).weaken (Nat.zero_le _)).andThen fun name => ?_
  cases name with
  | none => exact .pure _
  | some name => exact forward name

theorem advances_readTagged : Advances 0 (readTagged readers) := by
  intro c
  unfold readTagged
  exact (Wire.Read.advances_tagged ((advances_readNamed forward).mapError _)).weaken
    (Nat.zero_le _) c

/-- Whatever the layout of a leaf, reading it moves forward. -/
theorem advances_readLayout (l : Layout) : Advances 0 (readLayout readers l) := by
  cases l with
  | op op =>
    cases op with
    | parcelable => exact advances_readNamed forward
    | value => exact advances_readTagged forward
    | _ => exact (advances_ofOp (Wire.Op.advances_read _)).weaken (Nat.zero_le _)
  | constant =>
    refine ((advances_ofOp Wire.Read.advances_string).weaken (Nat.zero_le _)).andThen fun name => ?_
    cases name with
    | none => exact .pure _
    | some name => exact .pure _
  | instanceOf name => exact forward name

omit forward

/-- So does reading a slot, with or without a marker. -/
theorem advances_readSlot (c : Codec) (nullable : Bool) {direct : Reading Value}
    (h : Advances 0 direct) : Advances 0 (readSlot c nullable direct) := by
  unfold readSlot
  exact .ite ((advances_readInt.andThen fun _ => .ite h (.pure _)).weaken (Nat.zero_le _)) h

theorem advances_readPair {first : Reading α} {second : Reading β} (hf : Advances 0 first)
    (hs : Advances 0 second) : Advances 0 (readPair first second) :=
  hf.andThen fun a => hs.map fun b => (a, b)

/-- So does reading a count and as many elements. -/
theorem advances_readElements {count : Reading Nat} {element : Reading α} (hc : Advances 0 count)
    (he : Advances 0 element) : Advances 0 (readElements count element) :=
  hc.andThen fun n => Advances.replicate_zero he n

include forward

/-- Decoding along a codec moves forward, if the count of an array does. -/
theorem advances_decodeWith {count : Reading Nat} (hc : Advances 0 count) :
    ∀ c : Codec, Advances 0 (decodeWith count readers c)
  | .leaf ty l => advances_readLayout forward (l.layout ty)
  | .array _ e =>
    (advances_readElements hc (advances_readSlot _ _ (advances_decodeWith hc e))).map _
  | .sequence _ _ _ e =>
    (advances_readElements advances_readCount
      (advances_readSlot _ _ (advances_decodeWith hc e))).map _
  | .map _ _ k v =>
    (advances_readElements advances_readCount (advances_readPair
      (advances_readSlot _ _ (advances_decodeWith hc k))
      (advances_readSlot _ _ (advances_decodeWith hc v)))).map _
  | .sparseArray _ e =>
    (advances_readElements advances_readCount (advances_readPair
      (advances_readInt.weaken (Nat.zero_le _))
      (advances_readSlot _ _ (advances_decodeWith hc e)))).map _
  | .adapter _ _ _ => .fail 0 _

/-- An element of an array takes four bytes at least: its marker, or a primitive value. -/
theorem advances_element {count : Reading Nat} (hc : Advances 0 count) (e : Codec) :
    Advances 4 (readSlot e true (decodeWith count readers e)) := by
  have direct := advances_decodeWith forward hc e
  unfold readSlot
  split
  · exact advances_readInt.andThen fun _ => .ite direct (.pure _)
  · next unmarked =>
    cases e with
    | leaf ty l =>
      cases l with
      | primitive p =>
        cases p with
        | _ => exact advances_ofOp (Wire.Op.advances_read _)
      | _ => exact absurd rfl unmarked
    | adapter ty use deps => exact .fail 4 _
    | _ => exact absurd rfl unmarked

omit forward

/-- Reading properties one after another moves forward. -/
theorem advances_readFields {read : Property → Reading Value} (h : ∀ p, Advances 0 (read p)) :
    ∀ ps, Advances 0 (readFields read ps)
  | [] => .pure _
  | p :: rest =>
    (advances_readSlot _ _ (h p)).andThen fun v =>
      (advances_readFields h rest).map ((p.name, v) :: ·)

/-- Decoding an instance moves forward. -/
theorem advances_decodeInstance {read : Property → Reading Value} (h : ∀ p, Advances 0 (read p))
    (d : Descriptor) : Advances 0 (decodeInstance read d) := by
  unfold decodeInstance
  exact .ite (.pure _) ((advances_readFields h d.properties).map _)

end Forward

/-! ## §4. Decodings agree if their parts do. -/

section Decodings

variable {readers readers' : Readers} (forward : ∀ name, Advances 0 (readers name))
  (h : ∀ name, Agree t c₀ (readers name) (readers' name))

include h

/-- An enum is read alike on both sides. -/
theorem agree_readNamed : Agree t c₀ (readNamed readers) (readNamed readers') := by
  refine (Agree.refl _).bind ((advances_ofOp Wire.Read.advances_string).weaken (Nat.zero_le _))
    fun name => ?_
  cases name with
  | none => exact .refl _
  | some name => exact h name

include forward

/-- A tagged value is read alike if parcelables are. -/
theorem agree_readTagged : Agree t c₀ (readTagged readers) (readTagged readers') := by
  intro c hc
  unfold readTagged Wire.Read.tagged
  exact agree_taggedWithin ((agree_readNamed h).restated _)
    ((advances_readNamed forward).mapError _) _ c hc

/-- Leaves are read alike if instances and parcelables are. -/
theorem agree_readLayout (l : Layout) :
    Agree t c₀ (readLayout readers l) (readLayout readers' l) := by
  cases l with
  | op op =>
    cases op with
    | parcelable => exact agree_readNamed h
    | value => exact agree_readTagged forward h
    | _ => exact .refl _
  | constant => exact .refl _
  | instanceOf name => exact h name

omit forward h

/-- Slots are read alike if the values behind their markers are. -/
theorem agree_readSlot {c : Codec} {nullable : Bool} {direct direct' : Reading Value}
    (h : Agree t c₀ direct direct') :
    Agree t c₀ (readSlot c nullable direct) (readSlot c nullable direct') := by
  unfold readSlot
  refine .ite ?_ h
  exact (Agree.refl _).bind (advances_readInt.weaken (Nat.zero_le _)) fun _ => .ite h (.refl _)

theorem agree_readPair {first first' : Reading α} {second second' : Reading β}
    (hf : Agree t c₀ first first') (forward : Advances 0 first)
    (hs : Agree t c₀ second second') (forward' : Advances 0 second) :
    Agree t c₀ (readPair first second) (readPair first' second') :=
  hf.bind forward fun a => hs.map (fun b => (a, b)) forward'

/-- Elements are read alike behind one count. -/
theorem agree_readElements {element element' : Reading α} (h : Agree t c₀ element element')
    (forward : Advances 0 element) :
    Agree t c₀ (readElements readCount element) (readElements readCount element') :=
  (Agree.refl _).bind advances_readCount fun n => h.replicate forward n

/-- Array lengths may be read in different ways, as long as the arrays agree. -/
def ArraysAgree (t : Tolerance) (c₀ : Cursor) (count count' : Reading Nat) : Prop :=
  ∀ element element' : Reading Value, Agree t c₀ element element' → Advances 4 element →
    Advances 4 element' → Agree t c₀ (readElements count element) (readElements count' element')

/-- Arrays whose counts are read in one way agree. -/
theorem arraysAgree_readCount : ArraysAgree t c₀ readCount readCount :=
  fun _ _ h forward _ => agree_readElements h (forward.weaken (Nat.zero_le _))

include forward h

/-- Decodings along a codec agree if they agree on instances and on arrays. -/
theorem decodeWith_agree {count count' : Reading Nat} (hc : Advances 0 count)
    (hc' : Advances 0 count') (arrays : ArraysAgree t c₀ count count')
    (forward' : ∀ name, Advances 0 (readers' name)) :
    ∀ c : Codec, Agree t c₀ (decodeWith count readers c) (decodeWith count' readers' c)
  | .leaf ty l => agree_readLayout forward h (l.layout ty)
  | .array _ e => by
    have element := decodeWith_agree hc hc' arrays forward' e
    have wide := advances_element forward hc e
    have wide' := advances_element forward' hc' e
    -- The two counts may refuse different lengths, so arrays are left to a hypothesis.
    refine (arrays _ _ (agree_readSlot element) wide wide').map _ ?_
    exact advances_readElements hc (wide.weaken (Nat.zero_le _))
  | .sequence _ kind box e => by
    have element := decodeWith_agree hc hc' arrays forward' e
    have moves := advances_readSlot e box.nulls
      (advances_decodeWith forward hc e)
    exact (agree_readElements (agree_readSlot element) moves).map _
      (advances_readElements advances_readCount moves)
  | .map _ box k v => by
    have key := decodeWith_agree hc hc' arrays forward' k
    have value := decodeWith_agree hc hc' arrays forward' v
    have keyMoves := advances_readSlot k box.nulls
      (advances_decodeWith forward hc k)
    have valueMoves := advances_readSlot v true
      (advances_decodeWith forward hc v)
    have entry := agree_readPair (agree_readSlot key) keyMoves (agree_readSlot value) valueMoves
    have entryMoves := advances_readPair keyMoves valueMoves
    exact (agree_readElements entry entryMoves).map _
      (advances_readElements advances_readCount entryMoves)
  | .sparseArray _ e => by
    have element := decodeWith_agree hc hc' arrays forward' e
    have moves := advances_readSlot e true (advances_decodeWith forward hc e)
    have keyMoves := advances_readInt.weaken (Nat.zero_le 4)
    have entry := agree_readPair (Agree.refl readInt) keyMoves (agree_readSlot element) moves
    have entryMoves := advances_readPair keyMoves moves
    exact (agree_readElements entry entryMoves).map _
      (advances_readElements advances_readCount entryMoves)
  | .adapter _ _ _ => .refl _

omit forward h

/-- Properties are read alike, one after another, if each of them is. -/
theorem readFields_agree {read read' : Property → Reading Value} :
    ∀ {ps : List Property}, (∀ p ∈ ps, Agree t c₀ (read p) (read' p)) →
      (∀ p, Advances 0 (read p)) → Agree t c₀ (readFields read ps) (readFields read' ps)
  | [], _, _ => .refl _
  | p :: rest, h, forward =>
    (agree_readSlot (h p List.mem_cons_self)).bind (advances_readSlot _ _ (forward p)) fun v =>
      (readFields_agree (fun q hq => h q (List.mem_cons_of_mem p hq)) forward).map
        ((p.name, v) :: ·) (advances_readFields forward rest)

/-- Decodings of an instance agree if they agree on its properties. -/
theorem decodeInstance_agree {read read' : Property → Reading Value} {d : Descriptor}
    (h : ∀ p ∈ d.properties, Agree t c₀ (read p) (read' p)) (forward : ∀ p, Advances 0 (read p)) :
    Agree t c₀ (decodeInstance read d) (decodeInstance read' d) := by
  unfold decodeInstance
  exact .ite (.refl _) ((readFields_agree h forward).map _
    (advances_readFields forward d.properties))

end Decodings

end ParcelCodec.Format
