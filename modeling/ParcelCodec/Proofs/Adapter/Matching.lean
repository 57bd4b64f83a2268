import ParcelCodec.Proofs.Adapter.Pattern

/-!
# Matching finds the assignment

A pattern is a type under an assignment of types to its variables, none of them primitive.  Matching
decides whether there is such an assignment, and finds it.

What it finds grows from left to right.  It never binds more than some assignment does under which
the pattern is the type, so no such assignment is missed; and in the end it binds all variables of
the pattern, so there is only one.

Main statement: `match?_iff_assignment`.
-/

namespace ParcelCodec

/-! ## §1. Assignments. -/

/-- No type that is bound is a primitive one. -/
def Bindings.HoldsReferences (b : Bindings) : Prop :=
  ∀ v ty, b.lookup v = some ty → ty.isPrimitive = false

/-- Bindings assign types that are not primitive to the variables of a pattern, and to nothing
else. -/
structure Bindings.Assigns (b : Bindings) (p : Pattern) : Prop where
  domain : ∀ v, (b.lookup v).isSome = p.mentions v
  references : b.HoldsReferences

/-- Matching leads from some bindings to others: some variables are bound in addition, none of them
to a primitive type. -/
structure Bindings.Grows (b b' : Bindings) (mentioned : String → Bool) : Prop where
  domain : ∀ v, (b'.lookup v).isSome = ((b.lookup v).isSome || mentioned v)
  references : b.HoldsReferences → b'.HoldsReferences

namespace Bindings.Grows

variable {b b' b'' : Bindings}

theorem refl (b : Bindings) : b.Grows b fun _ => false where
  domain _ := (Bool.or_false _).symm
  references held := held

/-- A variable that is bound already adds nothing. -/
theorem again {name : String} {bound : JavaType} (found : b.lookup name = some bound) :
    b.Grows b (name == ·) where
  domain v := by
    by_cases same : name = v
    · subst same
      rw [found]
      rfl
    · rw [beq_false_of_ne same, Bool.or_false]
  references held := held

/-- A free variable is bound. -/
theorem cons {name : String} {ty : JavaType} (reference : ty.isPrimitive = false) :
    b.Grows ((name, ty) :: b) (name == ·) where
  domain v := by
    rw [List.lookup_cons]
    by_cases same : v = name
    · subst same
      rw [beq_self_eq_true, Bool.or_true]
      rfl
    · rw [beq_false_of_ne same, beq_false_of_ne (Ne.symm same), Bool.or_false]
  references held := by
    intro v bound found
    rw [List.lookup_cons] at found
    split at found
    · cases found
      exact reference
    · exact held v bound found

theorem trans {mentioned mentioned' : String → Bool} (h : b.Grows b' mentioned)
    (h' : b'.Grows b'' mentioned') : b.Grows b'' fun v => mentioned v || mentioned' v where
  domain v := by rw [h'.domain, h.domain, Bool.or_assoc]
  references held := h'.references (h.references held)

end Bindings.Grows

namespace Pattern

/-! ## §2. What matching binds. -/

mutual

/-- Matching a pattern binds the variables in it. -/
theorem grows_match? : ∀ {p : Pattern} {ty : JavaType} {b b' : Bindings},
    p.match? ty b = some b' → b.Grows b' fun v => p.mentions v
  | .var name, ty, b, b', h => by
    obtain ⟨reference, ⟨found, rfl⟩ | ⟨-, rfl⟩⟩ := match?_var_iff.mp h
    · exact .again found
    · exact .cons reference
  | .primitive p, ty, b, b', h => by
    obtain ⟨-, rfl⟩ := match?_primitive_iff.mp h
    exact .refl _
  | .declared name ps, ty, b, b', h => by
    obtain ⟨tys, -, inner⟩ := match?_declared_iff.mp h
    exact grows_matchArgs? inner
  | .array p, ty, b, b', h => by
    obtain ⟨t, -, inner⟩ := match?_array_iff.mp h
    exact grows_match? (p := p) inner

theorem grows_matchArgs? : ∀ {ps : List Pattern} {tys : List JavaType} {b b' : Bindings},
    matchArgs? ps tys b = some b' → b.Grows b' fun v => anyMentions v ps
  | [], tys, b, b', h => by
    obtain ⟨-, rfl⟩ := matchArgs?_nil_iff.mp h
    exact .refl _
  | p :: ps, tys, b, b', h => by
    obtain ⟨t, ts, between, -, first, others⟩ := matchArgs?_cons_iff.mp h
    exact (grows_match? first).trans (grows_matchArgs? others)

end

/-- From no bindings, matching leads to an assignment under which the pattern is the type. -/
theorem assigns_of_match? {p : Pattern} {ty : JavaType} {b : Bindings}
    (h : p.match? ty [] = some b) : b.Assigns p ∧ p.substitute b = ty := by
  have grown := grows_match? h
  refine ⟨⟨fun v => ?_, grown.references nofun⟩, (substitute_of_match? h).2 b (.refl b)⟩
  rw [grown.domain v]
  rfl

/-! ## §3. What matching finds. -/

mutual

/-- A pattern matches what it is under an assignment, and binds no more than the assignment does,
if that much was bound before. -/
theorem match?_substitute {s : Bindings} (references : s.HoldsReferences) :
    ∀ {p : Pattern} {b : Bindings}, (∀ v, p.mentions v = true → (s.lookup v).isSome = true) →
      s.Extends b → ∃ b', p.match? (p.substitute s) b = some b' ∧ s.Extends b'
  | .var name, b, bound, held => by
    obtain ⟨ty, found⟩ := Option.isSome_iff_exists.mp (bound name (beq_self_eq_true name))
    have same : s.typeOf name = ty := by
      unfold Bindings.typeOf
      rw [found]
      rfl
    have reference := references name ty found
    rw [substitute, same]
    rcases before : b.lookup name with _ | other
    · refine ⟨(name, ty) :: b, match?_var_iff.mpr ⟨reference, .inr ⟨before, rfl⟩⟩, ?_⟩
      intro v image h
      rw [List.lookup_cons] at h
      split at h
      · next here =>
        cases h
        rw [eq_of_beq here]
        exact found
      · exact held v image h
    · -- What was bound before is what the assignment binds.
      cases (held name other before).symm.trans found
      exact ⟨b, match?_var_iff.mpr ⟨reference, .inl ⟨before, rfl⟩⟩, held⟩
  | .primitive p, b, _, held => ⟨b, match?_primitive_iff.mpr ⟨rfl, rfl⟩, held⟩
  | .declared name ps, b, bound, held => by
    obtain ⟨b', matched, held⟩ := matchArgs?_substitute references (l := ps) bound held
    exact ⟨b', match?_declared_iff.mpr ⟨_, rfl, matched⟩, held⟩
  | .array p, b, bound, held => by
    obtain ⟨b', matched, held⟩ := match?_substitute references (p := p) bound held
    exact ⟨b', match?_array_iff.mpr ⟨_, rfl, matched⟩, held⟩

theorem matchArgs?_substitute {s : Bindings} (references : s.HoldsReferences) :
    ∀ {l : List Pattern} {b : Bindings},
      (∀ v, anyMentions v l = true → (s.lookup v).isSome = true) → s.Extends b →
        ∃ b', matchArgs? l (substituteArgs s l) b = some b' ∧ s.Extends b'
  | [], b, _, held => ⟨b, rfl, held⟩
  | p :: rest, b, bound, held => by
    obtain ⟨between, first, held⟩ := match?_substitute references (p := p)
      (fun v hv => bound v (by rw [anyMentions, hv, Bool.true_or])) held
    obtain ⟨b', others, held⟩ := matchArgs?_substitute references (l := rest)
      (fun v hv => bound v (by rw [anyMentions, hv, Bool.or_true])) held
    exact ⟨b', matchArgs?_cons_iff.mpr ⟨_, _, between, rfl, first, others⟩, held⟩

end

/-- From no bindings, a pattern matches what it is under an assignment. -/
theorem exists_match?_substitute {s : Bindings} {p : Pattern} (references : s.HoldsReferences)
    (bound : ∀ v, p.mentions v = true → (s.lookup v).isSome = true) :
    ∃ b, p.match? (p.substitute s) [] = some b ∧ s.Extends b :=
  match?_substitute references bound nofun

/-- **Matching is sound and complete.**  A pattern matches a type, from no bindings, exactly if it
is that type under some assignment to its variables; and what it binds is such an assignment, and the
only one. -/
theorem match?_iff_assignment (p : Pattern) (ty : JavaType) :
    ((p.match? ty []).isSome = true ↔ ∃ s : Bindings, s.Assigns p ∧ p.substitute s = ty) ∧
    ∀ b, p.match? ty [] = some b → b.Assigns p ∧ p.substitute b = ty ∧
      ∀ s : Bindings, s.Assigns p → p.substitute s = ty → ∀ v, s.lookup v = b.lookup v := by
  -- An assignment extends whatever is bound in the end.
  have found : ∀ s : Bindings, s.Assigns p → p.substitute s = ty →
      ∃ b, p.match? ty [] = some b ∧ s.Extends b := by
    intro s assigned same
    subst same
    refine exists_match?_substitute assigned.references fun v mentioned => ?_
    rw [assigned.domain, mentioned]
  refine ⟨⟨?_, ?_⟩, ?_⟩
  · intro matched
    obtain ⟨b, matched⟩ := Option.isSome_iff_exists.mp matched
    exact ⟨b, assigns_of_match? matched⟩
  · rintro ⟨s, assigned, same⟩
    obtain ⟨b, matched, -⟩ := found s assigned same
    rw [matched]
    rfl
  · intro b matched
    obtain ⟨assigned, same⟩ := assigns_of_match? matched
    refine ⟨assigned, same, ?_⟩
    intro s assigned' same' v
    obtain ⟨b', matched', extends'⟩ := found s assigned' same'
    cases matched.symm.trans matched'
    rcases bound : b.lookup v with _ | image
    · -- Both leave free what does not stand in the pattern.
      have free := assigned.domain v
      rw [bound, ← assigned'.domain v] at free
      exact Option.isNone_iff_eq_none.mp (Option.isSome_eq_false_iff.mp free.symm)
    · exact extends' v image bound

/-- Maps to lists of their own keys. -/
def keyed : Pattern := .declared "java.util.Map" [.var "K", .declared "java.util.List" [.var "K"]]

/-- A map from one type to lists of another. -/
def listsBy (key element : JavaType) : JavaType :=
  .declared "java.util.Map" [key, .declared "java.util.List" [element]]

/-- A variable that stands twice is assigned one type, and there is no assignment for two. -/
theorem match?_iff_assignment_keyed :
    (∀ s : Bindings, s.Assigns keyed →
      keyed.substitute s = listsBy (.named JavaType.stringName) (.named JavaType.stringName) →
        s.lookup "K" = some (.named JavaType.stringName)) ∧
    ¬ ∃ s : Bindings, s.Assigns keyed ∧
      keyed.substitute s = listsBy (.named JavaType.stringName) .object := by
  have matched : keyed.match? (listsBy (.named JavaType.stringName) (.named JavaType.stringName)) []
      = some [("K", .named JavaType.stringName)] := by decide
  have refused : keyed.match? (listsBy (.named JavaType.stringName) .object) [] = none := by decide
  constructor
  · intro s assigned same
    obtain ⟨-, unique⟩ := match?_iff_assignment keyed _
    exact (unique _ matched).2.2 s assigned same "K"
  · intro assignment
    have some := (match?_iff_assignment keyed _).1.mpr assignment
    rw [refused] at some
    cases some

end Pattern

end ParcelCodec
