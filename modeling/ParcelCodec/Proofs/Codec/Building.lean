import ParcelCodec.Proofs.Codec.Sharing
import ParcelCodec.Proofs.Codec.Tame
import ParcelCodec.Proofs.Compilation.Rounds

/-!
# Which codecs are built in finitely many steps

Building a codec comes to an end if no endless chain of types leaves the type, and in particular
under a tame registry; a type that refers back to itself is no exception, since it is refused where
it comes up again.  But only types that come up again are refused, and adapters can be declared
whose dependencies grow for ever: two of them are enough to enumerate all pairs of numerals.

Main statements: `build_ends` and `counting_never_ends`.
-/

namespace ParcelCodec

namespace Codebook

open ParcelCodec.Shelf (Shares)

/-! ## §1. Where building ends. -/

/-- Where no endless chain of types leaves a type, or no adapter lets types grow, the codec of the
type is built or refused after finitely many steps, on whatever shelf earlier builds have left. -/
theorem build_ends (b : Codebook) (ty : JavaType) (h : ¬ b.Endless ty ∨ b.registry.Tame) :
    ∃ depth answer, ((∃ c, answer = .ok c ∧ Makes b ty c) ∨ ∃ u, answer = .error (.unresolved u))
      ∧ ∀ depth' ≥ depth, Shares b (Shelf.buildBelow b depth' [] ty) answer := by
  have finite : ¬ b.Endless ty := h.elim id fun tame => not_endless_of_tame tame ty
  -- The depth at which a search without any shelf ends does for all shelves.
  obtain ⟨depth, ended⟩ := exists_finished finite
  have alone : ∀ t : JavaType, t.weighed ∈ [] → Relation.TransGen (Needs b) t ty :=
    fun _ none => absurd none List.not_mem_nil
  refine ⟨depth, b.buildBelow depth [] ty, ?_, fun depth' deeper => ?_⟩
  · obtain ⟨s, built, -⟩ := Shelf.shares_buildBelow alone ended .empty Shelf.sound_empty
    rcases answer : b.buildBelow depth [] ty with (u | ty') | c
    · exact .inr ⟨u, rfl⟩
    · exact absurd answer (ended ty')
    · rw [answer] at built
      exact .inl ⟨c, rfl, (Shelf.yields_buildBelow depth [] ty Shelf.sound_empty built).1⟩
  · have same := buildBelow_of_le ended deeper
    rw [← same]
    exact Shelf.shares_buildBelow alone (same.symm ▸ ended)

/-! ## §2. Declarations. -/

/-- A class with type parameters that says nothing else. -/
def generic (name : String) (params : List String) : TypeDecl where
  package := "app"
  name := name
  kind := .classType
  modifiers := []
  typeParams := params.map (⟨·, []⟩)
  superclass := none
  interfaces := []
  annotations := []
  dataClass := false
  fields := []
  constructors := []
  methods := []

/-- An adapter that depends on the adapter of one other type. -/
def leadingTo (next name handles : String) (params : List String) : AdapterDecl where
  package := "app"
  name := name
  kind := .classType
  modifiers := [.isPublic]
  typeParams := params.map (⟨·, []⟩)
  handles := handles
  priority := .default
  nullSafe := false
  singleton := false
  constructor := [⟨"next", "brine.parcel.TypeAdapter<" ++ next ++ ">"⟩]

/-- What such an adapter is registered as. -/
def leadingEntry (next : Pattern) (name ident : String) (handles : Pattern)
    (params : List String) : AdapterEntry where
  adapter := "app." ++ name
  ident := ident
  params := params
  handles := handles
  priority := .default
  nullSafe := false
  singleton := false
  deps := [.adapter next]

/-- What codecs are chosen from where nothing is rejected. -/
def ofModel (m : Model) : Codebook := (Compilation.workshop m .default).codebook []

/-- Boxes that depend on lists, and loops that depend on themselves. -/
def turning : Model where
  types := [generic "Box" ["T"], generic "Loop" ["T"]]
  adapters := [leadingTo "java.util.List<T>" "BoxAdapter" "Box<T>" ["T"],
    leadingTo "Loop<T>" "LoopAdapter" "Loop<T>" ["T"]]

/-- A loop is refused where it comes up again, after finitely many steps. -/
theorem build_ends_turning :
    (ofModel turning).registry.Tame
    ∧ ∃ depth answer,
      ((∃ c, answer = .ok c
          ∧ Makes (ofModel turning) (.declared "app.Loop" [.named "java.lang.String"]) c)
        ∨ ∃ u, answer = .error (.unresolved u))
      ∧ ∀ depth' ≥ depth, Shares (ofModel turning)
        (Shelf.buildBelow (ofModel turning) depth' []
          (.declared "app.Loop" [.named "java.lang.String"]))
        answer := by
  have entries : (ofModel turning).registry.entries
      = [leadingEntry (.declared "java.util.List" [.var "T"]) "BoxAdapter" "BOX_ADAPTER"
          (.declared "app.Box" [.var "T"]) ["T"],
        leadingEntry (.declared "app.Loop" [.var "T"]) "LoopAdapter" "LOOP_ADAPTER"
          (.declared "app.Loop" [.var "T"]) ["T"]] := by
    decide +kernel
  have tame : (ofModel turning).registry.Tame := by
    refine ⟨fun _ => 1, fun _ => Nat.one_pos, ?_⟩
    rw [entries]
    simp [leadingEntry, Pattern.mass, Pattern.massOfArgs]
  exact ⟨tame, build_ends (ofModel turning) (.declared "app.Loop" [.named "java.lang.String"])
    (.inr tame)⟩

/-! ## §3. Adapters that count for ever. -/

variable {b : Codebook}

/-- Where each of infinitely many different types needs the next one and nothing else, building
goes on for ever. -/
theorem unbounded_of_chain {f : Nat → JavaType} (distinct : Function.Injective f)
    (next : ∀ i, ∃ rule, b.classify (f i) = .ok rule ∧ rule.parts = [f (i + 1)]) (depth : Nat) :
    ∀ (i : Nat) (above : List (Nat × JavaType)), (∀ j ≥ i, (f j).weighed ∉ above) →
      ∃ ty, Shelf.buildBelow b depth above (f i) .empty = (.error (.unbounded ty), .empty) := by
  induction depth with
  | zero => exact fun i _ _ => ⟨f i, rfl⟩
  | succ depth ih =>
    intro i above new
    obtain ⟨rule, classified, parts⟩ := next i
    -- The types still to come differ from the one at hand, so the refusal never applies.
    have later : ∀ j ≥ i + 1, (f j).weighed ∉ (f i).weighed :: above := by
      intro j le again
      rcases List.mem_cons.mp again with same | again
      · have := distinct (JavaType.weighed_inj.mp same)
        omega
      · exact new j (by omega) again
    obtain ⟨ty, below⟩ := ih (i + 1) _ later
    have unseen : ¬ above.contains (f i).weighed = true :=
      fun again => new i (Nat.le_refl i) (List.contains_iff_mem.mp again)
    refine ⟨ty, ?_⟩
    unfold Shelf.buildBelow
    rw [Step.get_bind]
    simp only [show Shelf.empty.get? (f i) = none from rfl, unseen, classified]
    rw [compose_eq, parts, map_eq_pure_bind]
    refine Step.bind_error (Step.bind_error ?_)
    rw [List.mapM_cons]
    exact Step.bind_error below

/-- Numerals and pairs, with adapters that lead from each pair of numerals to the next one. -/
def counting : Model where
  types := [generic "Zero" [], generic "Succ" ["T"], generic "Pair" ["A", "B"]]
  adapters := [leadingTo "Pair<A, Succ<B>>" "ShiftAdapter" "Pair<Succ<A>, B>" ["A", "B"],
    leadingTo "Pair<Succ<B>, Zero>" "TurnAdapter" "Pair<Zero, B>" ["B"]]

/-- The type of a number. -/
def numeral : Nat → JavaType
  | 0 => .named "app.Zero"
  | n + 1 => .declared "app.Succ" [numeral n]

/-- The type of a pair of numbers. -/
def numerals (p : Nat × Nat) : JavaType := .declared "app.Pair" [numeral p.1, numeral p.2]

/-- The pairs of numbers one after another: along a diagonal, and then on to the next one. -/
def pairAt : Nat → Nat × Nat
  | 0 => (0, 0)
  | i + 1 =>
    match pairAt i with
    | (a + 1, b) => (a, b + 1)
    | (0, b) => (b + 1, 0)

/-- How many pairs come before those on a diagonal. -/
def diagonal : Nat → Nat
  | 0 => 0
  | n + 1 => diagonal n + (n + 1)

/-- The place of a pair says which one it is. -/
theorem place_pairAt (i : Nat) : diagonal ((pairAt i).1 + (pairAt i).2) + (pairAt i).2 = i := by
  induction i with
  | zero => rfl
  | succ i ih =>
    rw [pairAt]
    generalize pairAt i = p at ih ⊢
    rcases p with ⟨_ | a, b⟩
    · simp only [Nat.zero_add, Nat.add_zero, diagonal] at ih ⊢
      omega
    · simp only at ih ⊢
      rw [show a + (b + 1) = a + 1 + b from by omega]
      omega

theorem numeral_injective : Function.Injective numeral := by
  intro m n same
  induction m generalizing n with
  | zero =>
    cases n with
    | zero => rfl
    | succ n => simp [numeral, JavaType.named] at same
  | succ m ih =>
    cases n with
    | zero => simp [numeral, JavaType.named] at same
    | succ n =>
      simp only [numeral, JavaType.declared.injEq, List.cons.injEq, and_true, true_and] at same
      rw [ih same]

theorem numerals_pairAt_injective : Function.Injective fun i => numerals (pairAt i) := by
  intro i j same
  simp only [numerals, JavaType.declared.injEq, List.cons.injEq, and_true, true_and] at same
  have first := numeral_injective same.1
  have second := numeral_injective same.2
  rw [← place_pairAt i, ← place_pairAt j, first, second]

/-- The adapter that goes on along a diagonal. -/
def shift : AdapterEntry :=
  leadingEntry (.declared "app.Pair" [.var "A", .declared "app.Succ" [.var "B"]])
    "ShiftAdapter" "SHIFT_ADAPTER"
    (.declared "app.Pair" [.declared "app.Succ" [.var "A"], .var "B"]) ["A", "B"]

/-- The adapter that goes on to the next diagonal. -/
def turn : AdapterEntry :=
  leadingEntry (.declared "app.Pair" [.declared "app.Succ" [.var "B"], .declared "app.Zero" []])
    "TurnAdapter" "TURN_ADAPTER"
    (.declared "app.Pair" [.declared "app.Zero" [], .var "B"]) ["B"]

/-- The adapters that count are registered. -/
theorem entries_counting : (ofModel counting).registry.entries = [shift, turn] := by
  decide +kernel

theorem not_primitive_numeral (n : Nat) : (numeral n).isPrimitive = false := by
  cases n <;> rfl

/-- Only adapters handle pairs of numerals. -/
theorem classify_numerals {p : Nat × Nat} {found : AdapterMatch}
    (handles : (ofModel counting).registry.handlerAt? (numerals p) .default = some found) :
    (ofModel counting).classify (numerals p) = .ok (.adapter found) := by
  have high : (ofModel counting).registry.handlerAt? (numerals p) .high = none := by
    unfold Registry.handlerAt?
    rw [entries_counting]
    rfl
  have exact : exactLeaf? (numerals p) = none := by
    have unboxed : Java.Primitive.ofBoxed? "app.Pair" = none := by decide
    have unknown : Java.platformOp? "app.Pair" = none := by decide
    simp [exactLeaf?, numerals, unboxed, unknown]
  unfold classify
  simp [high, handles, exact]
  rfl

/-- A pair of numerals needs the next one. -/
theorem next_of_counting (i : Nat) : ∃ rule,
    (ofModel counting).classify (numerals (pairAt i)) = .ok rule
      ∧ rule.parts = [numerals (pairAt (i + 1))] := by
  rw [pairAt]
  generalize pairAt i = p
  rcases p with ⟨_ | a, b⟩
  · have handles : (ofModel counting).registry.handlerAt? (numerals (0, b)) .default
        = some ⟨turn, [("B", numeral b)]⟩ := by
      unfold Registry.handlerAt?
      rw [entries_counting]
      simp [shift, turn, leadingEntry, numerals, numeral, JavaType.named, Pattern.match?,
        Pattern.matchArgs?, not_primitive_numeral]
    exact ⟨_, classify_numerals handles, rfl⟩
  · have handles : (ofModel counting).registry.handlerAt? (numerals (a + 1, b)) .default
        = some ⟨shift, [("B", numeral b), ("A", numeral a)]⟩ := by
      unfold Registry.handlerAt?
      rw [entries_counting]
      simp [shift, turn, leadingEntry, numerals, numeral, Pattern.match?, Pattern.matchArgs?,
        not_primitive_numeral, List.lookup_nil, List.lookup_cons]
    exact ⟨_, classify_numerals handles, rfl⟩

/-- Two adapters without any finding make building go on for ever: no depth is enough. -/
theorem counting_never_ends :
    (Registry.build ⟨counting, Options.default.companionSuffix⟩).2 = []
    ∧ ∀ depth, ∃ ty, Shelf.buildBelow (ofModel counting) depth [] (numerals (0, 0)) .empty
      = (.error (.unbounded ty), .empty) :=
  ⟨by decide +kernel, fun depth => unbounded_of_chain numerals_pairAt_injective next_of_counting
    depth 0 [] fun _ _ none => absurd none List.not_mem_nil⟩

end Codebook

end ParcelCodec
