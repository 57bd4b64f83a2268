import ParcelCodec.Adapter.Registry

/-!
# Matching, substitution and reading

A pattern matches a type only if it is that type once its variables stand for what they are bound
to, and what they are bound to stands in the type.  A type is read as a pattern node by node.  How
heavy a pattern is depends on how heavy its names and its variables are.

Main statements: `substitute_congr`, `substitute_of_match?`, `forall_match?` and `mass_substitute`.
-/

namespace ParcelCodec

/-! ## §1. Equality of patterns is decidable. -/

namespace Pattern

mutual

/-- Whether two patterns are equal. -/
def same : Pattern → Pattern → Bool
  | .var n, .var m => n == m
  | .primitive p, .primitive q => p == q
  | .declared n ps, .declared m qs => n == m && sameAll ps qs
  | .array p, .array q => same p q
  | _, _ => false

/-- Whether two lists of patterns are equal. -/
def sameAll : List Pattern → List Pattern → Bool
  | [], [] => true
  | p :: ps, q :: qs => same p q && sameAll ps qs
  | _, _ => false

end

mutual

/-- The comparison of two patterns decides whether they are equal. -/
theorem same_iff : ∀ {p q : Pattern}, p.same q = true ↔ p = q
  | .var _, q => by cases q <;> simp [same]
  | .primitive _, q => by cases q <;> simp [same]
  | .declared _ ps, q => by cases q <;> simp [same, sameAll_iff (l := ps)]
  | .array p, q => by cases q <;> simp [same, same_iff (p := p)]

/-- Likewise for two lists of patterns. -/
theorem sameAll_iff : ∀ {l l' : List Pattern}, sameAll l l' = true ↔ l = l'
  | [], qs => by cases qs <;> simp [sameAll]
  | p :: ps, qs => by cases qs <;> simp [sameAll, same_iff (p := p), sameAll_iff (l := ps)]

end

instance : DecidableEq Pattern := fun _ _ => decidable_of_iff _ same_iff

end Pattern

deriving instance DecidableEq for DependencyPattern

deriving instance DecidableEq for AdapterEntry

/-! ## §2. Matching. -/

/-- Bindings that bind whatever others bind, to the same types. -/
def Bindings.Extends (b' b : Bindings) : Prop :=
  ∀ name ty, b.lookup name = some ty → b'.lookup name = some ty

/-- Bindings extend themselves. -/
theorem Bindings.Extends.refl (b : Bindings) : b.Extends b := fun _ _ h => h

/-- An extension of an extension is an extension. -/
theorem Bindings.Extends.trans {b b' b'' : Bindings} (h : b''.Extends b') (h' : b'.Extends b) :
    b''.Extends b :=
  fun name ty found => h name ty (h' name ty found)

/-- A new binding takes nothing away. -/
theorem Bindings.extends_cons {b : Bindings} {name : String} {ty : JavaType}
    (free : b.lookup name = none) : Bindings.Extends ((name, ty) :: b) b := by
  intro other bound found
  rw [List.lookup_cons]
  split
  · next same =>
    rw [eq_of_beq same, free] at found
    cases found
  · exact found

namespace Pattern

/-- A variable matches what is not primitive: what it is bound to already, or, if it is free,
anything. -/
theorem match?_var_iff {name : String} {ty : JavaType} {b b' : Bindings} :
    (Pattern.var name).match? ty b = some b' ↔ ty.isPrimitive = false ∧
      (b.lookup name = some ty ∧ b' = b ∨ b.lookup name = none ∧ b' = (name, ty) :: b) := by
  unfold match?
  by_cases primitive : ty.isPrimitive = true
  · rw [if_pos primitive, primitive]
    exact ⟨nofun, nofun⟩
  · rw [if_neg primitive, Bool.eq_false_iff.mpr primitive]
    rcases bound : b.lookup name with _ | other
    · show some ((name, ty) :: b) = some b' ↔ _
      rw [Option.some_inj]
      constructor
      · intro same
        exact ⟨rfl, .inr ⟨rfl, same.symm⟩⟩
      · rintro ⟨-, ⟨found, -⟩ | ⟨-, same⟩⟩
        · cases found
        · exact same.symm
    · show (if other = ty then some b else none) = some b' ↔ _
      rw [Option.ite_none_right_eq_some, Option.some_inj, Option.some_inj]
      constructor
      · rintro ⟨same, kept⟩
        exact ⟨rfl, .inl ⟨same, kept.symm⟩⟩
      · rintro ⟨-, ⟨same, kept⟩ | ⟨free, -⟩⟩
        · exact ⟨same, kept.symm⟩
        · cases free

/-- A primitive pattern matches that primitive alone and binds nothing. -/
theorem match?_primitive_iff {q : Java.Primitive} {ty : JavaType} {b b' : Bindings} :
    (Pattern.primitive q).match? ty b = some b' ↔ ty = .primitive q ∧ b' = b := by
  cases ty with
  | primitive p => simp [match?, eq_comm]
  | _ => simp [match?]

/-- A declared pattern matches a type of its name whose arguments match in turn. -/
theorem match?_declared_iff {name : String} {ps : List Pattern} {ty : JavaType} {b b' : Bindings} :
    (Pattern.declared name ps).match? ty b = some b' ↔
      ∃ tys, ty = .declared name tys ∧ matchArgs? ps tys b = some b' := by
  cases ty with
  | declared other tys =>
    unfold match?
    rw [Option.ite_none_right_eq_some]
    constructor
    · rintro ⟨rfl, h⟩
      exact ⟨tys, rfl, h⟩
    · rintro ⟨tys', same, h⟩
      cases same
      exact ⟨rfl, h⟩
  | _ => simp [match?]

/-- An array pattern matches an array whose component matches. -/
theorem match?_array_iff {p : Pattern} {ty : JavaType} {b b' : Bindings} :
    (Pattern.array p).match? ty b = some b' ↔ ∃ t, ty = .array t ∧ p.match? t b = some b' := by
  cases ty with
  | array t => simp [match?]
  | _ => simp [match?]

/-- No patterns match no types, and bind nothing. -/
theorem matchArgs?_nil_iff {tys : List JavaType} {b b' : Bindings} :
    matchArgs? [] tys b = some b' ↔ tys = [] ∧ b' = b := by
  cases tys with
  | nil => simp [matchArgs?, eq_comm]
  | cons t ts => simp [matchArgs?]

/-- Patterns match one after another, each from what was bound before it. -/
theorem matchArgs?_cons_iff {p : Pattern} {ps : List Pattern} {tys : List JavaType}
    {b b' : Bindings} : matchArgs? (p :: ps) tys b = some b' ↔
      ∃ t ts between, tys = t :: ts ∧ p.match? t b = some between
        ∧ matchArgs? ps ts between = some b' := by
  cases tys with
  | nil => simp [matchArgs?]
  | cons t ts =>
    have step : matchArgs? (p :: ps) (t :: ts) b = (p.match? t b).bind (matchArgs? ps ts) := by
      rw [matchArgs?]
      cases p.match? t b <;> rfl
    rw [step, Option.bind_eq_some_iff]
    constructor
    · rintro ⟨between, first, others⟩
      exact ⟨t, ts, between, rfl, first, others⟩
    · rintro ⟨_, _, between, same, first, others⟩
      cases same
      exact ⟨between, first, others⟩

mutual

/-- A pattern is the same type under all bindings that agree on the variables in it. -/
theorem substitute_congr {b b' : Bindings} : ∀ {p : Pattern},
    (∀ v, p.mentions v = true → b.typeOf v = b'.typeOf v) → p.substitute b = p.substitute b'
  | .var name, agree => agree name (beq_self_eq_true name)
  | .primitive _, _ => rfl
  | .declared name args, agree => by
    rw [substitute, substitute, substituteArgs_congr agree]
  | .array component, agree => by
    rw [substitute, substitute, substitute_congr (p := component) agree]

/-- Only the bindings of the variables that occur bear on a substitution. -/
theorem substituteArgs_congr {b b' : Bindings} : ∀ {ps : List Pattern},
    (∀ v, anyMentions v ps = true → b.typeOf v = b'.typeOf v) →
      substituteArgs b ps = substituteArgs b' ps
  | [], _ => rfl
  | p :: rest, agree => by
    have first : p.substitute b = p.substitute b' :=
      substitute_congr fun v hv => agree v (by rw [anyMentions, hv, Bool.true_or])
    have others : substituteArgs b rest = substituteArgs b' rest :=
      substituteArgs_congr fun v hv => agree v (by rw [anyMentions, hv, Bool.or_true])
    rw [substituteArgs, substituteArgs, first, others]

end

mutual

/-- A pattern that matches a type is that type under the bindings it leads to, and under all that
extend them. -/
theorem substitute_of_match? : ∀ {p : Pattern} {ty : JavaType} {b b' : Bindings},
    p.match? ty b = some b' →
      b'.Extends b ∧ ∀ b'' : Bindings, b''.Extends b' → p.substitute b'' = ty
  | .var name, ty, b, b', h => by
    have stands : ∀ b'' : Bindings, b''.lookup name = some ty →
        (Pattern.var name).substitute b'' = ty := by
      intro b'' found
      rw [substitute, Bindings.typeOf, found]
      rfl
    obtain ⟨-, ⟨found, rfl⟩ | ⟨free, rfl⟩⟩ := match?_var_iff.mp h
    · -- A variable that comes up again matches what it is bound to already.
      exact ⟨.refl _, fun b'' held => stands b'' (held name ty found)⟩
    · exact ⟨Bindings.extends_cons free,
        fun b'' held => stands b'' (held name ty List.lookup_cons_self)⟩
  | .primitive p, ty, b, b', h => by
    obtain ⟨rfl, rfl⟩ := match?_primitive_iff.mp h
    exact ⟨.refl _, fun _ _ => rfl⟩
  | .declared name ps, ty, b, b', h => by
    obtain ⟨tys, rfl, inner⟩ := match?_declared_iff.mp h
    obtain ⟨kept, substituted⟩ := substitute_of_matchArgs? inner
    exact ⟨kept, fun b'' held => by rw [substitute, substituted b'' held]⟩
  | .array p, ty, b, b', h => by
    obtain ⟨t, rfl, inner⟩ := match?_array_iff.mp h
    obtain ⟨kept, substituted⟩ := substitute_of_match? inner
    exact ⟨kept, fun b'' held => by rw [substitute, substituted b'' held]⟩

/-- The list form of `substitute_of_match?`. -/
theorem substitute_of_matchArgs? : ∀ {ps : List Pattern} {tys : List JavaType} {b b' : Bindings},
    matchArgs? ps tys b = some b' →
      b'.Extends b ∧ ∀ b'' : Bindings, b''.Extends b' → substituteArgs b'' ps = tys
  | [], tys, b, b', h => by
    obtain ⟨rfl, rfl⟩ := matchArgs?_nil_iff.mp h
    exact ⟨.refl _, fun _ _ => rfl⟩
  | p :: ps, tys, b, b', h => by
    obtain ⟨t, ts, between, rfl, first, others⟩ := matchArgs?_cons_iff.mp h
    obtain ⟨kept, substituted⟩ := substitute_of_match? first
    obtain ⟨kept', substituted'⟩ := substitute_of_matchArgs? others
    -- What the later patterns bind leaves the first one what it matched.
    refine ⟨kept'.trans kept, fun b'' held => ?_⟩
    rw [substituteArgs, substituted b'' (held.trans kept'), substituted' b'' held]

end

/-- What holds of a type holds of whatever stands in it. -/
structure Hereditary (P : JavaType → Prop) : Prop where
  args : ∀ name tys, P (.declared name tys) → ∀ t ∈ tys, P t
  component : ∀ t, P (.array t) → P t

mutual

/-- What holds of a type and of whatever stands in it holds of what a pattern binds. -/
theorem forall_match? {P : JavaType → Prop} (inside : Hereditary P) : ∀ {p : Pattern}
    {ty : JavaType} {b b' : Bindings}, p.match? ty b = some b' → P ty →
      (∀ e ∈ b, P e.2) → ∀ e ∈ b', P e.2
  | .var name, ty, b, b', h, holds, before => by
    obtain ⟨-, ⟨-, rfl⟩ | ⟨-, rfl⟩⟩ := match?_var_iff.mp h
    · exact before
    · exact List.forall_mem_cons.mpr ⟨holds, before⟩
  | .primitive p, ty, b, b', h, _, before => by
    obtain ⟨-, rfl⟩ := match?_primitive_iff.mp h
    exact before
  | .declared name ps, ty, b, b', h, holds, before => by
    obtain ⟨tys, rfl, inner⟩ := match?_declared_iff.mp h
    exact forall_matchArgs? inside inner (inside.args name tys holds) before
  | .array p, ty, b, b', h, holds, before => by
    obtain ⟨t, rfl, inner⟩ := match?_array_iff.mp h
    exact forall_match? inside inner (inside.component t holds) before

/-- What every matched type passes on to its parts holds of every binding made. -/
theorem forall_matchArgs? {P : JavaType → Prop} (inside : Hereditary P) : ∀ {ps : List Pattern}
    {tys : List JavaType} {b b' : Bindings}, matchArgs? ps tys b = some b' → (∀ t ∈ tys, P t) →
      (∀ e ∈ b, P e.2) → ∀ e ∈ b', P e.2
  | [], tys, b, b', h, _, before => by
    obtain ⟨-, rfl⟩ := matchArgs?_nil_iff.mp h
    exact before
  | p :: ps, tys, b, b', h, holds, before => by
    obtain ⟨t, ts, between, rfl, first, others⟩ := matchArgs?_cons_iff.mp h
    obtain ⟨here, there⟩ := List.forall_mem_cons.mp holds
    exact forall_matchArgs? inside others there (forall_match? inside first here before)

end

end Pattern

/-! ## §3. Reading. -/

namespace AdapterScope

variable {s : AdapterScope}

/-- An array is read as an array pattern over its component's. -/
theorem pattern_array {component : TypeSyntax} {p : Pattern}
    (h : s.pattern (.array component) = .ok p) :
    ∃ q, s.pattern component = .ok q ∧ p = .array q := by
  rw [pattern] at h
  rcases inner : s.pattern component with e | q
  · rw [inner] at h
    cases h
  · rw [inner] at h
    cases h
    exact ⟨q, rfl, rfl⟩

/-- A name is read as a variable if it is a bare type parameter, and else as the class that it
names. -/
theorem pattern_named {name : String} {args : List TypeSyntax} {p : Pattern}
    (h : s.pattern (.named name args) = .ok p) :
    (args.isEmpty && s.params.contains name) = true ∧ p = .var name ∨
      (args.isEmpty && s.params.contains name) = false ∧
        ∃ full ps, s.catalog.qualify? name s.package = some full ∧
          (s.catalog.arity? full).all (· == args.length) = true ∧
          s.patterns args = .ok ps ∧ p = .declared full ps := by
  rw [pattern] at h
  split at h
  · next bare =>
    cases h
    exact .inl ⟨bare, rfl⟩
  · next other =>
    refine .inr ⟨Bool.eq_false_iff.mpr other, ?_⟩
    split at h
    · cases h
    · next full qualified =>
      split at h
      · next arity =>
        rcases inner : s.patterns args with e | ps
        · rw [inner] at h
          cases h
        · rw [inner] at h
          cases h
          exact ⟨full, ps, qualified, arity, rfl, rfl⟩
      · cases h

/-- Patterns are read one after the other. -/
theorem patterns_cons {t : TypeSyntax} {rest : List TypeSyntax} {ps : List Pattern}
    (h : s.patterns (t :: rest) = .ok ps) :
    ∃ q qs, s.pattern t = .ok q ∧ s.patterns rest = .ok qs ∧ ps = q :: qs := by
  rw [patterns] at h
  split at h
  · cases h
  · next q first =>
    rcases others : s.patterns rest with e | qs
    · rw [others] at h
      cases h
    · rw [others] at h
      cases h
      exact ⟨q, qs, first, rfl, rfl⟩

end AdapterScope

/-! ## §4. Weights. -/

mutual

/-- How heavy a type is where names are given weights. -/
def JavaType.mass (w : String → Nat) : JavaType → Nat
  | .primitive _ => 1
  | .declared name args => w name + JavaType.massOfArgs w args
  | .array component => component.mass w + 1

/-- How heavy several types are together. -/
def JavaType.massOfArgs (w : String → Nat) : List JavaType → Nat
  | [] => 0
  | t :: rest => t.mass w + JavaType.massOfArgs w rest

end

mutual

/-- How heavy a pattern is where names and variables are given weights. -/
def Pattern.mass (w v : String → Nat) : Pattern → Nat
  | .var name => v name
  | .primitive _ => 1
  | .declared name args => w name + Pattern.massOfArgs w v args
  | .array component => component.mass w v + 1

/-- How heavy several patterns are together. -/
def Pattern.massOfArgs (w v : String → Nat) : List Pattern → Nat
  | [] => 0
  | p :: rest => p.mass w v + Pattern.massOfArgs w v rest

end

namespace Pattern

mutual

/-- A pattern under bindings is as heavy as it is where its variables weigh what they stand for. -/
theorem mass_substitute (w : String → Nat) (b : Bindings) : ∀ p : Pattern,
    (p.substitute b).mass w = p.mass w fun name => (b.typeOf name).mass w
  | .var _ => rfl
  | .primitive _ => rfl
  | .declared name args => by
    rw [substitute, JavaType.mass, mass, mass_substituteArgs w b args]
  | .array component => by rw [substitute, JavaType.mass, mass, mass_substitute w b component]

/-- The mass of substituted arguments counts every variable with the mass of its type. -/
theorem mass_substituteArgs (w : String → Nat) (b : Bindings) : ∀ ps : List Pattern,
    JavaType.massOfArgs w (substituteArgs b ps)
      = Pattern.massOfArgs w (fun name => (b.typeOf name).mass w) ps
  | [] => rfl
  | p :: rest => by
    rw [substituteArgs, JavaType.massOfArgs, massOfArgs, mass_substitute w b p,
      mass_substituteArgs w b rest]

end

end Pattern

end ParcelCodec
