import ParcelCodec.Codec.Shelf

/-!
# What a codebook makes of a type

The codec of a type as a relation: the rule that the type falls under, with the codecs that the
same codebook makes of the parts.  The relation knows nothing of depths, of the types above or of
finished codecs, and it is a function: a type says which codec it has.

Whatever is built on a shelf is what the codebook makes, since nothing else ever gets on it.

Main statements: `Makes.unique`, `Makes.part`, and `makes_of_buildAlone`.
-/

namespace ParcelCodec

/-! ## §1. Parts. -/

/-- A codec stands in another one, possibly behind adapters that depend on it. -/
inductive Codec.Part : Codec → Codec → Prop
  | refl (c : Codec) : Part c c
  | array {c e : Codec} {ty : JavaType} (h : Part c e) : Part c (.array ty e)
  | sequence {c e : Codec} {ty : JavaType} {kind : Java.SequenceKind} {box : Container}
    (h : Part c e) : Part c (.sequence ty kind box e)
  | key {c k v : Codec} {ty : JavaType} {box : Container} (h : Part c k) :
    Part c (.map ty box k v)
  | value {c k v : Codec} {ty : JavaType} {box : Container} (h : Part c v) :
    Part c (.map ty box k v)
  | sparseArray {c e : Codec} {ty : JavaType} (h : Part c e) : Part c (.sparseArray ty e)
  | dependency {c d : Codec} {ty : JavaType} {use : AdapterUse} {deps : List Dependency}
    (hd : .codec d ∈ deps) (h : Part c d) : Part c (.adapter ty use deps)

/-- A part of a part is a part. -/
theorem Codec.Part.trans {a b c : Codec} (hab : Part a b) (hbc : Part b c) : Part a c := by
  induction hbc with
  | refl => exact hab
  | array _ ih => exact .array ih
  | sequence _ ih => exact .sequence ih
  | key _ ih => exact .key ih
  | value _ ih => exact .value ih
  | sparseArray _ ih => exact .sparseArray ih
  | dependency hd _ ih => exact .dependency hd ih

namespace Codebook

/-! ## §2. The relation. -/

mutual

/-- A codebook makes a codec of a type. -/
inductive Makes (b : Codebook) : JavaType → Codec → Prop
  | leaf {ty : JavaType} {l : Leaf} (rule : b.classify ty = .ok (.leaf l)) : Makes b ty (.leaf ty l)
  | array {ty component : JavaType} {e : Codec} (rule : b.classify ty = .ok (.array component))
    (he : Makes b component e) : Makes b ty (.array ty e)
  | sequence {ty element : JavaType} {kind : Java.SequenceKind} {box : Container} {e : Codec}
    (rule : b.classify ty = .ok (.sequence kind box element)) (he : Makes b element e) :
    Makes b ty (.sequence ty kind box e)
  | map {ty key value : JavaType} {box : Container} {k v : Codec}
    (rule : b.classify ty = .ok (.map box key value)) (hk : Makes b key k) (hv : Makes b value v) :
    Makes b ty (.map ty box k v)
  | sparseArray {ty element : JavaType} {e : Codec}
    (rule : b.classify ty = .ok (.sparseArray element)) (he : Makes b element e) :
    Makes b ty (.sparseArray ty e)
  | adapter {ty : JavaType} {found : AdapterMatch} {deps : List Dependency}
    (rule : b.classify ty = .ok (.adapter found))
    (hd : Supplies b found.bindings found.entry.deps deps) :
    Makes b ty (.adapter ty (useOf found) deps)

/-- A codebook supplies an adapter with what its constructor asks for. -/
inductive Supplies (b : Codebook) : Bindings → List DependencyPattern → List Dependency → Prop
  | nil {bound : Bindings} : Supplies b bound [] []
  | codec {bound : Bindings} {p : Pattern} {c : Codec} {ps : List DependencyPattern}
    {ds : List Dependency} (hc : Makes b (p.substitute bound) c) (rest : Supplies b bound ps ds) :
    Supplies b bound (.adapter p :: ps) (.codec c :: ds)
  | token {bound : Bindings} {p : Pattern} {ps : List DependencyPattern} {ds : List Dependency}
    (rest : Supplies b bound ps ds) :
    Supplies b bound (.token p :: ps) (.token (p.substitute bound).erasure :: ds)

end

variable {b : Codebook}

/-- A codec is made for its own type. -/
theorem Makes.type_eq {ty : JavaType} {c : Codec} (h : Makes b ty c) : c.type = ty := by
  cases h <;> rfl

/-- What an adapter is supplied with are codecs of some types. -/
theorem Supplies.of_mem {bound : Bindings} {ps : List DependencyPattern} {ds : List Dependency}
    {c : Codec} (h : Supplies b bound ps ds) (hc : .codec c ∈ ds) : ∃ ty, Makes b ty c := by
  induction ds generalizing ps with
  | nil => exact absurd hc List.not_mem_nil
  | cons d rest ih =>
    cases h with
    | codec made others =>
      rcases List.mem_cons.mp hc with same | hc
      · cases same
        exact ⟨_, made⟩
      · exact ih others hc
    | token others =>
      rcases List.mem_cons.mp hc with same | hc
      · cases same
      · exact ih others hc

/-- The parts of what a codebook makes are made by it. -/
theorem Makes.part {c part : Codec} (hp : Codec.Part part c) {ty : JavaType} (h : Makes b ty c) :
    Makes b part.type part := by
  induction hp generalizing ty with
  | refl => rwa [h.type_eq]
  | array _ ih =>
    cases h with
    | array _ he => exact ih he
  | sequence _ ih =>
    cases h with
    | sequence _ he => exact ih he
  | key _ ih =>
    cases h with
    | map _ hk _ => exact ih hk
  | value _ ih =>
    cases h with
    | map _ _ hv => exact ih hv
  | sparseArray _ ih =>
    cases h with
    | sparseArray _ he => exact ih he
  | dependency hd _ ih =>
    cases h with
    | adapter _ supplied =>
      obtain ⟨ty', made⟩ := supplied.of_mem hd
      exact ih made

/-! ## §3. A type says which codec it has. -/

mutual

/-- A codebook makes one codec of a type. -/
theorem Makes.unique : ∀ {c : Codec} {ty : JavaType} {c' : Codec},
    Makes b ty c → Makes b ty c' → c = c'
  | .leaf _ _, _, _, h, h' => by
    -- The type is classified once, so both codecs were made by the same rule, of the same parts.
    cases h with
    | leaf rule => cases h' <;> simp_all
  | .array _ e, _, _, h, h' => by
    cases h with
    | array rule he =>
      cases h' with
      | array rule' he' =>
        cases rule.symm.trans rule'
        rw [Makes.unique he he']
      | _ => simp_all
  | .sequence _ _ _ e, _, _, h, h' => by
    cases h with
    | sequence rule he =>
      cases h' with
      | sequence rule' he' =>
        cases rule.symm.trans rule'
        rw [Makes.unique he he']
      | _ => simp_all
  | .map _ _ k v, _, _, h, h' => by
    cases h with
    | map rule hk hv =>
      cases h' with
      | map rule' hk' hv' =>
        cases rule.symm.trans rule'
        rw [Makes.unique hk hk', Makes.unique hv hv']
      | _ => simp_all
  | .sparseArray _ e, _, _, h, h' => by
    cases h with
    | sparseArray rule he =>
      cases h' with
      | sparseArray rule' he' =>
        cases rule.symm.trans rule'
        rw [Makes.unique he he']
      | _ => simp_all
  | .adapter _ _ deps, _, _, h, h' => by
    cases h with
    | adapter rule hd =>
      cases h' with
      | adapter rule' hd' =>
        cases rule.symm.trans rule'
        rw [Supplies.unique hd hd']
      | _ => simp_all

/-- A codebook supplies an adapter in one way. -/
theorem Supplies.unique : ∀ {ds : List Dependency} {bound : Bindings}
    {ps : List DependencyPattern} {ds' : List Dependency},
    Supplies b bound ps ds → Supplies b bound ps ds' → ds = ds'
  | [], _, _, _, h, h' => by
    cases h
    cases h'
    rfl
  | .codec c :: rest, _, _, _, h, h' => by
    cases h with
    | codec hc others =>
      cases h' with
      | codec hc' others' => rw [Makes.unique hc hc', Supplies.unique others others']
  | .token ty :: rest, _, _, _, h, h' => by
    cases h with
    | token others =>
      cases h' with
      | token others' => rw [Supplies.unique others others']

end

/-- In states of a kind, building yields what the codebook makes, and leaves such a state. -/
def Yields {σ : Type} (b : Codebook) (kind : σ → Prop)
    (build : JavaType → Step σ Obstacle Codec) : Prop :=
  ∀ ty {s c s'}, kind s → build ty s = (.ok c, s') → Makes b ty c ∧ kind s'

end Codebook

/-! ## §4. Shelves. -/

namespace Shelf

open Codebook (Makes Supplies)
open Step (bind_eq_ok)

variable {b : Codebook}

/-- Every codec on a shelf is what the codebook makes of its type. -/
def Sound (b : Codebook) (s : Shelf) : Prop := ∀ ty c, s.get? ty = some c → Makes b ty c

/-- An empty shelf holds nothing that could be wrong. -/
theorem sound_empty : Sound b empty := by
  intro ty c h
  cases h

/-- A shelf stays sound when a codec that the codebook makes is put on it. -/
theorem sound_put {s : Shelf} {ty : JavaType} {c : Codec} (hs : Sound b s) (hc : Makes b ty c) :
    Sound b (s.put ty c) := by
  intro ty' c' h
  unfold put get? at h
  rw [List.lookup_cons] at h
  split at h
  · next same =>
    cases h
    rwa [eq_of_beq same]
  · exact hs ty' c' h

/-- Building on sound shelves yields what the codebook makes, and leaves them sound. -/
abbrev Yields (b : Codebook) (part : JavaType → Step Shelf Obstacle Codec) : Prop :=
  b.Yields (Sound b) part

variable {part : JavaType → Step Shelf Obstacle Codec}

/-- Dependencies that are built supply what their patterns ask for. -/
theorem supplies_dependencies (hp : Yields b part) (bound : Bindings) :
    ∀ (ps : List DependencyPattern) {s : Shelf} {ds s'}, Sound b s →
      Codebook.dependencies part bound ps s = (.ok ds, s') → Supplies b bound ps ds ∧ Sound b s'
  | [], s, ds, s', hs, h => by
    cases h
    exact ⟨.nil, hs⟩
  | .adapter p :: rest, s, ds, s', hs, h => by
    unfold Codebook.dependencies at h
    obtain ⟨c, between, hc, h⟩ := bind_eq_ok h
    obtain ⟨others, last, ho, h⟩ := bind_eq_ok h
    cases h
    obtain ⟨made, sound⟩ := hp _ hs hc
    obtain ⟨supplied, sound'⟩ := supplies_dependencies hp bound rest sound ho
    exact ⟨.codec made supplied, sound'⟩
  | .token p :: rest, s, ds, s', hs, h => by
    unfold Codebook.dependencies at h
    obtain ⟨others, last, ho, h⟩ := bind_eq_ok h
    cases h
    obtain ⟨supplied, sound⟩ := supplies_dependencies hp bound rest hs ho
    exact ⟨.token supplied, sound⟩

/-- A rule composes what the codebook makes of a type from what it makes of the parts. -/
theorem makes_compose (hp : Yields b part) {ty : JavaType} {rule : Rule}
    (hr : b.classify ty = .ok rule) {s s' : Shelf} {c : Codec} (hs : Sound b s)
    (h : Codebook.compose part ty rule s = (.ok c, s')) : Makes b ty c ∧ Sound b s' := by
  cases rule with
  | leaf l =>
    cases h
    exact ⟨.leaf hr, hs⟩
  | array component =>
    obtain ⟨e, between, he, h⟩ := bind_eq_ok h
    cases h
    obtain ⟨made, sound⟩ := hp _ hs he
    exact ⟨.array hr made, sound⟩
  | sequence kind box element =>
    obtain ⟨e, between, he, h⟩ := bind_eq_ok h
    cases h
    obtain ⟨made, sound⟩ := hp _ hs he
    exact ⟨.sequence hr made, sound⟩
  | map box key value =>
    -- The value is built on the shelf that the key leaves, which is sound again.
    obtain ⟨k, between, hk, h⟩ := bind_eq_ok h
    obtain ⟨v, last, hv, h⟩ := bind_eq_ok h
    cases h
    obtain ⟨madeKey, sound⟩ := hp _ hs hk
    obtain ⟨madeValue, sound'⟩ := hp _ sound hv
    exact ⟨.map hr madeKey madeValue, sound'⟩
  | sparseArray element =>
    obtain ⟨e, between, he, h⟩ := bind_eq_ok h
    cases h
    obtain ⟨made, sound⟩ := hp _ hs he
    exact ⟨.sparseArray hr made, sound⟩
  | adapter found =>
    obtain ⟨ds, between, hd, h⟩ := bind_eq_ok h
    cases h
    obtain ⟨supplied, sound⟩ := supplies_dependencies hp _ _ hs hd
    exact ⟨.adapter hr supplied, sound⟩

/-- A build below any types yields a codec made of its type. -/
theorem yields_buildBelow (depth : Nat) (above : List (Nat × JavaType)) :
    Yields b (buildBelow b depth above) := by
  induction depth generalizing above with
  | zero =>
    intro ty s c s' _ h
    cases h
  | succ depth ih =>
    intro ty s c s' hs h
    unfold buildBelow at h
    rw [Step.get_bind] at h
    rcases finished : s.get? ty with _ | c₀
    · simp only [finished] at h
      by_cases again : above.contains ty.weighed = true
      · rw [if_pos again] at h
        cases h
      · rw [if_neg again] at h
        rcases hr : b.classify ty with u | rule
        · simp only [hr] at h
          cases h
        · simp only [hr] at h
          obtain ⟨c', between, hc, h⟩ := bind_eq_ok h
          cases h
          obtain ⟨made, sound⟩ := makes_compose (ih _) hr hs hc
          exact ⟨made, sound_put sound made⟩
    · simp only [finished] at h
      cases h
      exact ⟨hs ty c finished, hs⟩

/-- So does a build from the top. -/
theorem yields_build : Yields b (build b) := fun ty => yields_buildBelow (b.depthFor ty) [] ty

/-- What is built on a shelf of its own is what the codebook makes. -/
theorem makes_of_buildAlone {ty : JavaType} {c : Codec} (h : buildAlone b ty = .ok c) :
    Makes b ty c := by
  unfold buildAlone at h
  rcases hb : build b ty empty with ⟨result, s'⟩
  rw [hb] at h
  change result = .ok c at h
  subst h
  exact (yields_build ty sound_empty hb).1

end Shelf

end ParcelCodec
