import Mathlib.Data.List.Nodup
import Mathlib.Data.List.Sort
import ParcelCodec.Proofs.Compilation.Sharing
import ParcelCodec.Proofs.DataClass.Findings

/-!
# How the properties of a class are arranged

The properties of a described class are its fields, less those that the options leave out.  Those
that a constructor takes come first, in its order, and the others follow in theirs, each with a way
to set it.  Of the constructors that can be used that way it is the first among the largest: sorting
by size keeps constructors of one size in their order.

Main statement: `arranged_of_described`.
-/

namespace ParcelCodec.DataClass

/-! ## §1. Ways to set a field. -/

/-- Ways to set a field of a type on an instance: the field itself, a method or reflection. -/
inductive SetBy (m : Members) (f : FieldDecl) (ty : JavaType) : WriteAccess → Prop
  | field (visible : f.has .isPrivate = false) (assignable : f.has .isFinal = false) :
      SetBy m f ty .field
  | setter {method : MethodDecl} {param : ParamDecl} (declared : method ∈ m.methods)
      (named : method.name ∈ Members.setterNames f.name) (visible : method.has .isPrivate = false)
      (onInstance : method.has .isStatic = false) (single : method.params = [param])
      (typed : m.resolver.resolveText param.type = .ok ty) : SetBy m f ty (.setter method.name)
  | reflect (allowed : m.options.reflects f.annotations = true) : SetBy m f ty .reflect

variable {m : Members} {f : FieldDecl} {ty : JavaType}

/-- A text that is found to name a type resolves to it. -/
theorem resolveText_of_resolvesTo {r : Resolver} {text : String} (h : r.resolvesTo text ty = true) :
    r.resolveText text = .ok ty := by
  unfold Resolver.resolvesTo at h
  rcases resolved : r.resolveText text with e | ty'
  · simp [resolved] at h
  · simp only [resolved, beq_iff_eq] at h
    rw [h]

/-- A text that resolves to a type is found to name it. -/
theorem resolvesTo_of_resolveText {r : Resolver} {text : String}
    (h : r.resolveText text = .ok ty) : r.resolvesTo text ty = true := by
  unfold Resolver.resolvesTo
  simp [h]

/-- A setter is a visible instance method with one parameter of the type. -/
theorem isSetter_iff (name : String) : m.isSetter ty name = true ↔
    ∃ method ∈ m.methods, method.name = name ∧ method.has .isPrivate = false ∧
      method.has .isStatic = false ∧ ∃ param, method.params = [param] ∧
        m.resolver.resolveText param.type = .ok ty := by
  have fits (params : List ParamDecl) : m.paramsFit params [ty] = true ↔
      ∃ param, params = [param] ∧ m.resolver.resolveText param.type = .ok ty := by
    match params with
    | [] => simp [Members.paramsFit]
    | [param] =>
      simp only [Members.paramsFit, Bool.and_true, List.cons.injEq, and_true]
      exact ⟨fun h => ⟨param, rfl, resolveText_of_resolvesTo h⟩,
        fun ⟨_, same, h⟩ => same ▸ resolvesTo_of_resolveText h⟩
    | _ :: _ :: _ => simp [Members.paramsFit]
  unfold Members.isSetter Members.hasMethod
  simp only [List.any_eq_true, Bool.and_eq_true, beq_iff_eq, Bool.not_eq_true', Members.returnsFit,
    and_true, fits, and_assoc]

/-- What a field is set with is a way to set it. -/
theorem setBy_of_write? {w : WriteAccess} (h : m.write? f ty = some w) : SetBy m f ty w := by
  unfold Members.write? at h
  by_cases hidden : (f.has .isPrivate || f.has .isFinal) = true
  · rw [if_pos hidden] at h
    rcases found : (Members.setterNames f.name).find? (m.isSetter ty) with _ | name
    · simp only [found] at h
      by_cases allowed : m.options.reflects f.annotations = true
      · rw [if_pos allowed] at h
        cases h
        exact .reflect allowed
      · rw [if_neg allowed] at h
        cases h
    · simp only [found] at h
      cases h
      obtain ⟨method, declared, rfl, visible, onInstance, param, single, typed⟩ :=
        (isSetter_iff name).mp (List.find?_some found)
      exact .setter declared (List.mem_of_find?_eq_some found) visible onInstance single typed
  · rw [if_neg hidden] at h
    cases h
    simp only [Bool.or_eq_true, not_or, Bool.not_eq_true] at hidden
    exact .field hidden.1 hidden.2

/-- Where there is a way to set a field, it is set with some. -/
theorem isSome_write? {w : WriteAccess} (h : SetBy m f ty w) : (m.write? f ty).isSome = true := by
  unfold Members.write?
  by_cases hidden : (f.has .isPrivate || f.has .isFinal) = true
  · rw [if_pos hidden]
    cases h with
    | field visible assignable => simp [visible, assignable] at hidden
    | @setter method param declared named visible onInstance single typed =>
      have fits : m.isSetter ty method.name = true :=
        (isSetter_iff _).mpr ⟨method, declared, rfl, visible, onInstance, param, single, typed⟩
      have found : ((Members.setterNames f.name).find? (m.isSetter ty)).isSome = true :=
        List.find?_isSome.mpr ⟨_, named, fits⟩
      obtain ⟨name, found⟩ := Option.isSome_iff_exists.mp found
      simp only [found, Option.isSome_some]
    | reflect allowed =>
      rcases (Members.setterNames f.name).find? (m.isSetter ty) with _ | name
      · simp only [allowed, if_true, Option.isSome_some]
      · rfl
  · rw [if_neg hidden]
    rfl

/-! ## §2. Constructors of one size keep their order. -/

/-- Whether a constructor has as many parameters as another. -/
def atLeast (a b : ConstructorDecl) : Bool := decide (b.params.length ≤ a.params.length)

/-- The order by the number of parameters is transitive. -/
theorem atLeast_trans (a b c : ConstructorDecl) (hab : atLeast a b = true)
    (hbc : atLeast b c = true) : atLeast a c = true := by
  simp only [atLeast, decide_eq_true_eq] at *
  omega

/-- The order by the number of parameters is total. -/
theorem atLeast_total (a b : ConstructorDecl) : (atLeast a b || atLeast b a) = true := by
  simp only [atLeast, Bool.or_eq_true, decide_eq_true_eq]
  omega

/-- The constructors with the most parameters come first. -/
theorem pairwise_largestFirst (cs : List ConstructorDecl) :
    (largestFirst cs).Pairwise fun a b => b.params.length ≤ a.params.length := by
  have sorted : (cs.mergeSort atLeast).Pairwise (atLeast · · = true) :=
    List.pairwise_mergeSort atLeast_trans atLeast_total cs
  exact sorted.imp of_decide_eq_true

/-- The constructors with a number of parameters. -/
def ofSize (k : Nat) (cs : List ConstructorDecl) : List ConstructorDecl :=
  cs.filter fun c => c.params.length == k

/-- Sorting by size is stable. -/
theorem ofSize_largestFirst (k : Nat) (cs : List ConstructorDecl) :
    ofSize k (largestFirst cs) = ofSize k cs := by
  have sized : ∀ c ∈ ofSize k cs, c.params.length = k := fun c hc =>
    beq_iff_eq.mp (List.mem_filter.mp hc).2
  have sorted : (ofSize k cs).Pairwise (atLeast · · = true) := by
    refine List.pairwise_of_forall_mem_list fun a ha b hb => ?_
    simp only [atLeast, sized a ha, sized b hb, decide_eq_true_eq, Nat.le_refl]
  have kept : (ofSize k cs).Sublist (largestFirst cs) :=
    List.sublist_mergeSort atLeast_trans atLeast_total sorted (List.filter_sublist)
  have kept' : (ofSize k cs).Sublist (ofSize k (largestFirst cs)) := by
    have sub := kept.filter fun c => c.params.length == k
    simpa only [ofSize, List.filter_filter, Bool.and_self] using sub
  exact (kept'.eq_of_length ((largestFirst_perm cs).filter _).length_eq.symm).symm

/-- What precedes a constructor when the largest come first: all that are larger, and those of its
size that are declared before it. -/
theorem exists_place {cs front back : List ConstructorDecl} {c : ConstructorDecl}
    (sorted : largestFirst cs = front ++ c :: back) :
    ∃ before after, cs = before ++ c :: after ∧
      (∀ a ∈ cs, c.params.length < a.params.length → a ∈ front) ∧
      (∀ a ∈ before, a.params.length = c.params.length → a ∈ front) := by
  have larger : ∀ a ∈ cs, c.params.length < a.params.length → a ∈ front := by
    intro a ha bigger
    have mem : a ∈ front ++ c :: back := sorted ▸ (largestFirst_perm cs).mem_iff.mpr ha
    have order := pairwise_largestFirst cs
    rw [sorted] at order
    rcases List.mem_append.mp mem with h | h
    · exact h
    · rcases List.mem_cons.mp h with rfl | h
      · omega
      · have := List.rel_of_pairwise_cons (List.pairwise_append.mp order).2.1 h
        omega
  have same := ofSize_largestFirst c.params.length cs
  rw [sorted, ofSize, List.filter_append, List.filter_cons_of_pos (by simp)] at same
  obtain ⟨before, rest, rfl, first, others⟩ := List.filter_eq_append_iff.mp same.symm
  obtain ⟨skipped, after, rfl, small, _, _⟩ := List.filter_eq_cons_iff.mp others
  refine ⟨before ++ skipped, after, by simp, larger, ?_⟩
  intro a ha size
  rcases List.mem_append.mp ha with h | h
  · have kept : a ∈ before.filter fun a => a.params.length == c.params.length :=
      List.mem_filter.mpr ⟨h, beq_iff_eq.mpr size⟩
    rw [first] at kept
    exact List.mem_of_mem_filter kept
  · exact absurd (beq_iff_eq.mpr size) (small a h)

/-! ## §3. Fields and parameters. -/

/-- A parameter and a field have one name and one type. -/
def Agree (r : Resolver) (p : ParamDecl) (f : FieldDecl) : Prop :=
  f.name = p.name ∧ ∃ ty, r.resolveText p.type = .ok ty ∧ r.resolveText f.type = .ok ty

/-- A field has the type that its text stands for. -/
def Typed (r : Resolver) (fields : List TypedField) : Prop :=
  ∀ f ∈ fields, r.resolveText f.field.type = .ok f.type

/-- Where nothing is reported, every field is there with its type. -/
theorem typedFields_complete {r : Resolver} {d : TypeDecl} : ∀ (fs : List FieldDecl)
    (seen : List String), (typedFields r d seen fs).2 = [] →
      (typedFields r d seen fs).1.map (·.field) = fs ∧ Typed r (typedFields r d seen fs).1
  | [], _, _ => ⟨rfl, nofun⟩
  | f :: rest, seen, silent => by
    unfold typedFields at silent ⊢
    by_cases again : seen.contains f.name = true
    · simp only [again, if_true] at silent
      cases silent
    · simp only [again, Bool.false_eq_true, if_false] at silent ⊢
      cases resolved : r.resolveText f.type with
      | error u =>
        simp only [resolved] at silent
        cases silent
      | ok ty =>
        simp only [resolved] at silent ⊢
        obtain ⟨same, typed⟩ := typedFields_complete rest (f.name :: seen) silent
        exact ⟨congrArg (f :: ·) same, List.forall_mem_cons.mpr ⟨resolved, typed⟩⟩

variable {r : Resolver} {fields matched : List TypedField} {c : ConstructorDecl}

/-- What a parameter sets is a field that agrees with it. -/
theorem agree_of_fieldFor? {p : ParamDecl} {f : TypedField}
    (h : fieldFor? r fields p = some f) : f ∈ fields ∧ f.field.name = p.name ∧
      r.resolveText p.type = .ok f.type := by
  unfold fieldFor? at h
  split at h
  · cases h
  · next ty resolved =>
    have found := List.find?_some h
    rw [Bool.and_eq_true, beq_iff_eq, beq_iff_eq] at found
    exact ⟨List.mem_of_find?_eq_some h, found.1, found.2 ▸ resolved⟩

/-- A parameter that agrees with a field sets one. -/
theorem isSome_fieldFor? (typed : Typed r fields) {p : ParamDecl} {f : TypedField}
    (mem : f ∈ fields) (agree : Agree r p f.field) : (fieldFor? r fields p).isSome = true := by
  obtain ⟨same, ty, resolved, resolved'⟩ := agree
  rw [typed f mem] at resolved'
  unfold fieldFor?
  simp only [resolved]
  refine List.find?_isSome.mpr ⟨f, mem, ?_⟩
  rw [same, Except.ok.inj resolved', beq_self_eq_true, beq_self_eq_true]
  rfl

/-- The fields that no parameter of a constructor is named like. -/
def remaining (fields : List FieldDecl) (c : ConstructorDecl) : List FieldDecl :=
  fields.filter fun f => !c.params.any (·.name == f.name)

/-- The fields that a constructor sets are named like its parameters. -/
theorem map_name_matched (sets : fieldsFor? r fields c = some matched) :
    c.params.map (·.name) = matched.map (·.field.name) :=
  Alongside.map_eq_iff.mpr ((Alongside.of_mapM sets).imp fun _ _ found =>
    (agree_of_fieldFor? found).2.1.symm)

/-- The fields that remain are those that no parameter is named for. -/
theorem mem_remaining {fs : List FieldDecl} {f : FieldDecl} :
    f ∈ remaining fs c ↔ f ∈ fs ∧ ∀ p ∈ c.params, p.name ≠ f.name := by
  simp [remaining]

/-- What the parameters of a constructor leave over. -/
theorem map_field_others (sets : fieldsFor? r fields c = some matched) :
    (others fields matched).map (·.field) = remaining (fields.map (·.field)) c := by
  have any (f : TypedField) : matched.any (·.field.name == f.field.name)
      = c.params.any (·.name == f.field.name) := by
    have names := congrArg (List.any · (· == f.field.name)) (map_name_matched sets)
    simpa only [List.any_map, Function.comp_def] using names.symm
  unfold others remaining
  rw [List.filter_map]
  simp only [any, Function.comp_def]

/-! ## §4. Constructors that can be used. -/

/-- A constructor takes only fields and leaves only fields that can be set otherwise. -/
structure Usable (m : Members) (fields : List FieldDecl) (c : ConstructorDecl) : Prop where
  matched : ∀ p ∈ c.params, ∃ f ∈ fields, Agree m.resolver p f
  writable : ∀ f ∈ remaining fields c, ∃ ty w, m.resolver.resolveText f.type = .ok ty ∧
    SetBy m f ty w

/-- The fields that a constructor sets if it can be used. -/
def fit? (m : Members) (fields : List TypedField) (c : ConstructorDecl) :
    Option (List TypedField) :=
  match fieldsFor? m.resolver fields c with
  | none => none
  | some matched =>
    if (others fields matched).all fun f => (m.write? f.field f.type).isSome then some matched
    else none

/-- A constructor fits when every parameter has a field and every other field can be written. -/
theorem fit?_eq_some {m : Members} (h : fit? m fields c = some matched) :
    fieldsFor? m.resolver fields c = some matched ∧
      ∀ f ∈ others fields matched, (m.write? f.field f.type).isSome = true := by
  unfold fit? at h
  split at h
  · cases h
  · next found sets =>
    split at h
    · next writable =>
      cases h
      exact ⟨sets, List.all_eq_true.mp writable⟩
    · cases h

/-- A constructor that fits can be used. -/
theorem usable_of_fit? {m : Members} (typed : Typed m.resolver fields)
    (h : fit? m fields c = some matched) : Usable m (fields.map (·.field)) c := by
  obtain ⟨sets, writable⟩ := fit?_eq_some h
  constructor
  · intro p hp
    obtain ⟨f, -, found⟩ := Alongside.exists_right (Alongside.of_mapM sets) p hp
    obtain ⟨mem, same, resolved⟩ := agree_of_fieldFor? found
    exact ⟨f.field, List.mem_map_of_mem mem, same, f.type, resolved, typed f mem⟩
  · intro f hf
    rw [← map_field_others sets] at hf
    obtain ⟨g, hg, rfl⟩ := List.mem_map.mp hf
    obtain ⟨w, hw⟩ := Option.isSome_iff_exists.mp (writable g hg)
    exact ⟨g.type, w, typed g (List.mem_of_mem_filter hg), setBy_of_write? hw⟩

/-- A constructor that can be used fits. -/
theorem isSome_fit? {m : Members} (typed : Typed m.resolver fields)
    (h : Usable m (fields.map (·.field)) c) : (fit? m fields c).isSome = true := by
  have every : ∀ p ∈ c.params, (fieldFor? m.resolver fields p).isSome = true := by
    intro p hp
    obtain ⟨f, hf, agree⟩ := h.matched p hp
    obtain ⟨g, hg, rfl⟩ := List.mem_map.mp hf
    exact isSome_fieldFor? typed hg agree
  obtain ⟨matched, sets⟩ := Option.isSome_iff_exists.mp (Alongside.isSome_mapM every)
  change fieldsFor? m.resolver fields c = some matched at sets
  have writable : ∀ f ∈ others fields matched, (m.write? f.field f.type).isSome = true := by
    intro f hf
    have left : f.field ∈ remaining (fields.map (·.field)) c := by
      rw [← map_field_others sets]
      exact List.mem_map_of_mem hf
    obtain ⟨ty, w, resolved, set⟩ := h.writable f.field left
    rw [typed f (List.mem_of_mem_filter hf)] at resolved
    rw [Except.ok.inj resolved]
    exact isSome_write? set
  unfold fit?
  simp only [sets, List.all_eq_true.mpr writable, if_true, Option.isSome_some]

/-- Of the constructors it is the first that can be used that is chosen. -/
theorem exists_chosen {m : Members} (typed : Typed m.resolver fields)
    {cs : List ConstructorDecl} (h : chosen? m fields cs = some matched) :
    ∃ front c back, cs = front ++ c :: back ∧ fit? m fields c = some matched ∧
      ∀ a ∈ front, ¬ Usable m (fields.map (·.field)) a := by
  have h' : cs.findSome? (fit? m fields) = some matched := h
  -- The first constructor that fits, with all those in front of it that do not.
  obtain ⟨front, c, back, split, found, unfit⟩ := List.findSome?_eq_some_iff.mp h'
  refine ⟨front, c, back, split, found, fun a ha usable => ?_⟩
  have fits := isSome_fit? typed usable
  rw [unfit a ha] at fits
  cases fits

/-! ## §5. Properties. -/

/-- A property is passed to the constructor as a parameter. -/
structure Passed (r : Resolver) (p : Property) (param : ParamDecl) : Prop where
  name : p.name = param.name
  type : r.resolveText param.type = .ok p.type
  write : p.write = .constructor

/-- A property is set from its field in another way. -/
structure Set (m : Members) (p : Property) (f : FieldDecl) : Prop where
  name : p.name = f.name
  type : m.resolver.resolveText f.type = .ok p.type
  write : SetBy m f p.type p.write

/-- The properties of a class are arranged by a constructor: those that it takes first and then the
others in the order of the fields. -/
structure ArrangedBy (m : Members) (fields : List FieldDecl) (cs : List ConstructorDecl)
    (ps : List Property) : Prop where
  nodup : (ps.map (·.name)).Nodup
  names : ∀ n, n ∈ ps.map (·.name) ↔ ∃ f ∈ fields, f.name = n
  order : ∃ before c after taken rest, cs = before ++ c :: after ∧ ps = taken ++ rest ∧
    List.Forall₂ (Passed m.resolver) taken c.params ∧
    List.Forall₂ (Set m) rest (remaining fields c) ∧
    Usable m fields c ∧
    (∀ a ∈ cs, Usable m fields a → a.params.length ≤ c.params.length) ∧
    (∀ a ∈ before, Usable m fields a → a.params.length < c.params.length)

/-- A property is made from a field with how it is set. -/
structure MadeFrom (s : WriteAccess × TypedField) (p : Property) : Prop where
  name : p.name = s.2.field.name
  type : p.type = s.2.type
  write : p.write = s.1

/-- Fields that can all be set are set one by one. -/
theorem forall₂_filterMap_write? {m : Members} : ∀ {fs : List TypedField},
    Typed m.resolver fs → (∀ f ∈ fs, (m.write? f.field f.type).isSome = true) →
      List.Forall₂ (fun f s => s.2 = f ∧ m.resolver.resolveText f.field.type = .ok f.type ∧
        SetBy m f.field f.type s.1) fs
        (fs.filterMap fun f => (m.write? f.field f.type).map (·, f))
  | [], _, _ => .nil
  | f :: rest, typed, writable => by
    obtain ⟨resolved, typed⟩ := List.forall_mem_cons.mp typed
    obtain ⟨first, others⟩ := List.forall_mem_cons.mp writable
    obtain ⟨w, hw⟩ := Option.isSome_iff_exists.mp first
    rw [List.filterMap_cons_some (by rw [hw]; rfl)]
    exact .cons ⟨rfl, resolved, setBy_of_write? hw⟩ (forall₂_filterMap_write? typed others)

/-- Properties that are made from the fields as a constructor leaves them: some for its parameters,
and the others. -/
theorem exists_passed_set {m : Members} (typed : Typed m.resolver fields) {ps : List Property}
    (fits : fit? m fields c = some matched)
    (made : List.Forall₂ MadeFrom (settings m fields matched) ps) :
    ∃ taken rest, ps = taken ++ rest ∧ List.Forall₂ (Passed m.resolver) taken c.params ∧
      List.Forall₂ (Set m) rest (remaining (fields.map (·.field)) c) := by
  obtain ⟨sets, writable⟩ := fit?_eq_some fits
  obtain ⟨taken, rest, rfl, passed, set⟩ := Alongside.split made
  refine ⟨taken, rest, rfl, ?_, ?_⟩
  · have each : List.Forall₂ (fun f p => MadeFrom (.constructor, f) p) matched taken :=
      List.forall₂_map_left_iff.mp passed
    refine (Alongside.trans (fun param f p found made => ?_) (Alongside.of_mapM sets) each).flip
    obtain ⟨-, same, resolved⟩ := agree_of_fieldFor? found
    exact ⟨made.name.trans same, made.type ▸ resolved, made.write⟩
  · have left : Typed m.resolver (others fields matched) := fun f hf =>
      typed f (List.mem_of_mem_filter hf)
    rw [← map_field_others sets]
    refine List.forall₂_map_right_iff.mpr (Alongside.trans (fun f s p way made => ?_)
      (forall₂_filterMap_write? left writable) set).flip
    obtain ⟨rfl, resolved, by_⟩ := way
    exact ⟨made.name, made.type ▸ resolved, made.type ▸ made.write ▸ by_⟩

/-- Properties that are made from the fields as the chosen constructor leaves them are arranged. -/
theorem arrangedBy_of_made {m : Members} {cs : List ConstructorDecl} {ps : List Property}
    (distinctFields : (fields.map (·.field.name)).Nodup) (typed : Typed m.resolver fields)
    (distinct : ∀ c ∈ cs, (c.params.map (·.name)).Nodup)
    (chosen : chosen? m fields (largestFirst cs) = some matched)
    (made : List.Forall₂ MadeFrom (settings m fields matched) ps) :
    ArrangedBy m (fields.map (·.field)) cs ps := by
  obtain ⟨front, c, back, sorted, fits, unusable⟩ := exists_chosen typed chosen
  obtain ⟨before, after, rfl, larger, equal⟩ := exists_place sorted
  obtain ⟨taken, rest, rfl, passed, set⟩ := exists_passed_set typed fits made
  have takenNames : taken.map (·.name) = c.params.map (·.name) :=
    Alongside.map_eq_iff.mpr (passed.imp fun _ _ h => h.name)
  have restNames : rest.map (·.name) = (remaining (fields.map (·.field)) c).map (·.name) :=
    Alongside.map_eq_iff.mpr (set.imp fun _ _ h => h.name)
  have usable := usable_of_fit? typed fits
  -- A larger constructor stands in front of the chosen one, where none can be used.
  have atMost : ∀ a ∈ before ++ c :: after, Usable m (fields.map (·.field)) a →
      a.params.length ≤ c.params.length := by
    intro a ha usable'
    by_contra bigger
    exact unusable a (larger a ha (by omega)) usable'
  refine ⟨?_, fun n => ?_, before, c, after, taken, rest, rfl, rfl, passed, set, usable, atMost, ?_⟩
  · rw [List.map_append, takenNames, restNames]
    -- No name comes twice: the remaining fields are those that no parameter is named for.
    have distinctRest : ((remaining (fields.map (·.field)) c).map (·.name)).Nodup := by
      refine List.Nodup.sublist (List.filter_sublist.map _) ?_
      rwa [List.map_map]
    refine List.nodup_append.mpr ⟨distinct c (by simp), distinctRest, ?_⟩
    intro n hn n' hn' same
    obtain ⟨p, hp, rfl⟩ := List.mem_map.mp hn
    obtain ⟨f, hf, rfl⟩ := List.mem_map.mp hn'
    exact (mem_remaining.mp hf).2 p hp same
  · rw [List.map_append, takenNames, restNames, List.mem_append, List.mem_map, List.mem_map]
    constructor
    · rintro (⟨p, hp, rfl⟩ | ⟨f, hf, rfl⟩)
      · obtain ⟨f, hf, same, -⟩ := usable.matched p hp
        exact ⟨f, hf, same⟩
      · exact ⟨f, (mem_remaining.mp hf).1, rfl⟩
    · rintro ⟨f, hf, rfl⟩
      -- Every field is set once, by a parameter of its name or among the remaining ones.
      by_cases param : ∃ p ∈ c.params, p.name = f.name
      · exact .inl param
      · push Not at param
        exact .inr ⟨f, mem_remaining.mpr ⟨hf, param⟩, rfl⟩
  · intro a ha usable'
    have upper := atMost a (List.mem_append_left _ ha) usable'
    by_contra bigger
    exact unusable a (equal a ha (by omega)) usable'

/-! ## §6. Described classes. -/

open Codebook (Makes)

variable {b : Codebook} {o : Options} {d : TypeDecl} {x : Descriptor}

/-- A class is described: on its own, on a sound shelf, or on a bench that is ready, whatever these
were used for before. -/
inductive Described (b : Codebook) (o : Options) (d : TypeDecl) (x : Descriptor) : Prop
  | alone (h : describe b o d = .ok x)
  | onShelf {s : Shelf} (sound : Shelf.Sound b s)
    (h : (describeOn b (Shelf.build b) o d s).1 = .ok x)
  | onBench {s : Bench} (registered : b.registry.Registered) (ready : Bench.Ready b [] s)
    (h : (describeOn b (Bench.build b) o d s).1 = .ok x)

/-- What a described class is made from: nothing, if it has a single instance, and otherwise its
fields, as the chosen constructor sets them. -/
inductive MadeOf (b : Codebook) (o : Options) (d : TypeDecl) (x : Descriptor) : Prop
  | nothing (single : x.singleton = true) (none : x.properties = [])
  | fields {matched : List TypedField} (many : x.singleton = false)
    (silent : (typedFields (.ofDecl b.catalog d) d [] (included o d)).2 = [])
    (chosen : chosen? (membersOf b o d) (fieldsOf b o d) (largestFirst (visibleConstructors d))
      = some matched)
    (made : List.Forall₂ (fun s p => MadeFrom s p ∧ Makes b p.codec.type p.codec)
      (settings (membersOf b o d) (fieldsOf b o d) matched) x.properties)

/-- A described property is made from its field, with a codec made of the field's type. -/
theorem madeFrom_of_property {m : Members} {s : WriteAccess × TypedField} {p : Property}
    (h : property b m d s.1 s.2 = .ok p) : MadeFrom s p ∧ Makes b p.codec.type p.codec := by
  obtain ⟨name, -, write, built⟩ := property_ok h
  have made := Shelf.makes_of_buildAlone built
  exact ⟨⟨name, made.type_eq, write⟩, made.type_eq.symm ▸ made⟩

section Shared

variable {σ : Type} {kind : σ → Prop} {build : JavaType → Step σ Obstacle Codec}
  (yields : b.Yields kind build)

include yields

/-- The same where the codec comes out of a build that keeps what it made. -/
theorem madeFrom_of_propertyOn {m : Members} {w : WriteAccess} {f : TypedField} {p : Property}
    {s s' : σ} (hs : kind s) (h : propertyOn build m d w f s = (.ok p, s')) :
    (MadeFrom (w, f) p ∧ Makes b p.codec.type p.codec) ∧ kind s' := by
  unfold propertyOn at h
  split at h
  · cases h
  · split at h
    · cases h
    · next codec s'' built =>
      cases h
      obtain ⟨made, hs'⟩ := yields _ hs built
      exact ⟨⟨⟨rfl, made.type_eq, rfl⟩, made.type_eq.symm ▸ made⟩, hs'⟩

/-- Properties that are all made in turn. -/
theorem forall₂_inTurn {m : Members} : ∀ {ss : List (WriteAccess × TypedField)} {ps : List Property}
    {s : σ}, kind s → (Step.inTurn (ss.map fun x => propertyOn build m d x.1 x.2) s).1 = ps.map .ok →
      List.Forall₂ (fun s p => MadeFrom s p ∧ Makes b p.codec.type p.codec) ss ps
  | [], ps, s, _, h => by
    rw [List.map_eq_nil_iff.mp h.symm]
    exact .nil
  | (w, f) :: ss, ps, s, hs, h => by
    rcases first : propertyOn build m d w f s with ⟨outcome, s'⟩
    rcases later : Step.inTurn (ss.map fun x => propertyOn build m d x.1 x.2) s' with ⟨outcomes, s''⟩
    rw [List.map_cons, Step.inTurn, first] at h
    simp only [later] at h
    obtain ⟨p, others, rfl, same, rest⟩ := List.map_eq_cons_iff.mp h.symm
    obtain ⟨made, hs'⟩ := madeFrom_of_propertyOn yields hs (same ▸ first)
    exact .cons made (forall₂_inTurn hs' (by rw [later, rest]))

/-- A class described with such a build is made of what it declares. -/
theorem madeOf_of_describeOn {s : σ} (hs : kind s) (h : (describeOn b build o d s).1 = .ok x) :
    MadeOf b o d x := by
  unfold describeOn at h
  dsimp only at h
  split at h
  · split at h
    · cases h
      exact .nothing rfl rfl
    · cases h
  · next largest smaller sorted =>
    split at h
    · cases h
    · next matched found =>
      dsimp only at h
      split at h
      · next silent =>
        cases h
        obtain ⟨noFindings, complete⟩ := List.append_eq_nil_iff.mp (List.isEmpty_iff.mp silent)
        exact .fields rfl noFindings (sorted ▸ found)
          (forall₂_inTurn yields hs (eq_map_ok_of_gather complete))
      · cases h

end Shared

/-- A class described by itself is made of what it declares. -/
theorem madeOf_of_describe (h : describe b o d = .ok x) : MadeOf b o d x := by
  unfold describe at h
  dsimp only at h
  split at h
  · split at h
    · cases h
      exact .nothing rfl rfl
    · cases h
  · next largest smaller sorted =>
    split at h
    · cases h
    · next matched found =>
      split at h
      · next silent =>
        cases h
        obtain ⟨noFindings, complete⟩ := List.append_eq_nil_iff.mp (List.isEmpty_iff.mp silent)
        have every := (properties_eq_map ..).symm.trans (eq_map_ok_of_gather complete)
        exact .fields rfl noFindings (sorted ▸ found)
          ((Alongside.map_eq_iff.mp every).imp fun _ _ => madeFrom_of_property)
      · cases h

/-- Every described class is made from its fields or from nothing. -/
theorem Described.madeOf (h : Described b o d x) : MadeOf b o d x := by
  cases h with
  | alone h => exact madeOf_of_describe h
  | onShelf sound h => exact madeOf_of_describeOn Shelf.yields_build sound h
  | onBench registered ready h => exact madeOf_of_describeOn (Bench.yields_build registered) ready h

/-- **The properties of a class are arranged by its best constructor.**  They are the fields that
the options leave in, each once; those that the constructor takes come first, the others follow in
the order of their fields, each with a way to set it; and no usable constructor has more parameters,
or as many and is declared before. -/
theorem arranged_of_described (distinct : ∀ c ∈ d.constructors, (c.params.map (·.name)).Nodup)
    (h : Described b o d x) (many : x.singleton = false) :
    ArrangedBy ⟨.ofDecl b.catalog d, d.methods, o⟩ (included o d) (visibleConstructors d)
      x.properties := by
  obtain ⟨single, -⟩ | ⟨-, silent, chosen, made⟩ := h.madeOf
  · rw [many] at single
    cases single
  obtain ⟨same, typed⟩ := typedFields_complete (included o d) [] silent
  have distinct' : ∀ c ∈ visibleConstructors d, (c.params.map (·.name)).Nodup := by
    intro c hc
    rcases mem_of_visible hc with declared | none
    · exact distinct c declared
    · rw [none]
      exact List.nodup_nil
  have arranged := arrangedBy_of_made (nodup_typedFields _ []).1 typed distinct' chosen
    (made.imp fun _ _ => And.left)
  rwa [same] at arranged

/-- A class with a title that can be assigned, two sides that only a constructor sets, and a
constructor each for one side and for both, the latter twice. -/
def canvas : TypeDecl where
  package := "app"
  name := "Canvas"
  kind := .classType
  modifiers := [.isPublic]
  typeParams := []
  superclass := none
  interfaces := [Java.parcelableName]
  annotations := []
  dataClass := true
  fields := [⟨"title", "String", [], [], true, none⟩, ⟨"width", "int", [.isFinal], [], false, none⟩,
    ⟨"height", "int", [.isFinal], [], false, none⟩, ⟨"count", "int", [.isStatic], [], false, none⟩]
  constructors := [⟨[], [⟨"width", "int"⟩]⟩, ⟨[], [⟨"height", "int"⟩, ⟨"width", "int"⟩]⟩,
    ⟨[], [⟨"width", "int"⟩, ⟨"height", "int"⟩]⟩]
  methods := []

/-- The types of a program that is just that class. -/
def easel : Codebook := ⟨⟨⟨[canvas], []⟩, "Codec"⟩, .empty, .preferBuiltIn, [], 0⟩

/-- The first of the two constructors for both sides arranges the properties. -/
theorem arranged_of_described_canvas : ∃ x, describe easel .default canvas = .ok x ∧
    x.properties.map (·.name) = ["height", "width", "title"] ∧
    ArrangedBy ⟨.ofDecl easel.catalog canvas, canvas.methods, .default⟩ (included .default canvas)
      (visibleConstructors canvas) x.properties := by
  have sorted : largestFirst (visibleConstructors canvas)
      = [⟨[], [⟨"height", "int"⟩, ⟨"width", "int"⟩]⟩, ⟨[], [⟨"width", "int"⟩, ⟨"height", "int"⟩]⟩,
        ⟨[], [⟨"width", "int"⟩]⟩] := by
    simp [largestFirst, visibleConstructors, canvas, List.mergeSort, ConstructorDecl.isPrivate]
  have described : (describe easel .default canvas).toOption.map
      (fun x => (x.properties.map (·.name), x.singleton))
      = some (["height", "width", "title"], false) := by
    unfold describe
    rw [sorted]
    decide +kernel
  rcases h : describe easel .default canvas with e | x
  · rw [h] at described
    cases described
  · rw [h] at described
    obtain ⟨names, many⟩ := Prod.mk.inj (Option.some.inj described)
    have distinct : ∀ c ∈ canvas.constructors, (c.params.map (·.name)).Nodup := by decide
    exact ⟨x, rfl, names, arranged_of_described distinct (.alone h) many⟩

end ParcelCodec.DataClass
