import ParcelCodec.Proofs.Codec.Ending
import ParcelCodec.Proofs.DataClass.Described

/-!
# Descriptors with fewer rejected classes

A rejected class only ever keeps a type from its codec.  So a codec that is built while some
classes are rejected is built as well while fewer of them are, and it is the same codec: no rule,
no depth and no shelf makes a difference.  And a class that is described while some classes are
rejected is described as well, in the same way, while fewer of them are.

Conversely, the search for a codec that comes to an end does so as well while more classes are
rejected: it finds the same codec, or it stops earlier at a type that is refused.

Main statements: `finished_rejecting` and `describe_rejecting`.
-/

namespace ParcelCodec

/-- A codebook that differs in the classes that are rejected. -/
def Codebook.rejecting (b : Codebook) (names : List String) : Codebook :=
  { b with rejected := names }

variable {b : Codebook} {names : List String}

/-! ## §1. Rules. -/

namespace Codebook

@[simp] theorem catalog_rejecting : (b.rejecting names).catalog = b.catalog := rfl

@[simp] theorem rejected_rejecting : (b.rejecting names).rejected = names := rfl

theorem fallback_rejecting (name : String) (args : List JavaType) :
    structural.fallback (b.rejecting names) name args = structural.fallback b name args := rfl

/-- Which classes are rejected makes a difference to the shape of a class only if it is a data class
that no built-in takes. -/
theorem structural_of_kept (old new : List String) {name : String} {args : List JavaType}
    {rule : Rule} (h : (b.rejecting old).structural name args = .ok rule)
    (kept : ∀ d, b.catalog.isEnum name = false → Java.collection? name = none →
      name ≠ Java.sparseArrayName → b.catalog.decl? name = some d → d.dataClass = true →
      name ∉ old → name ∉ new) : (b.rejecting new).structural name args = .ok rule := by
  unfold structural at h ⊢
  rw [catalog_rejecting, rejected_rejecting, fallback_rejecting] at h ⊢
  by_cases enum : b.catalog.isEnum name = true
  · rwa [if_pos enum] at h ⊢
  · rw [if_neg enum] at h ⊢
    rcases box : Java.collection? name with _ | info
    · simp only [box] at h ⊢
      by_cases sparse : (name == Java.sparseArrayName) = true
      · rwa [if_pos sparse] at h ⊢
      · rw [if_neg sparse] at h ⊢
        rcases declared : b.catalog.decl? name with _ | d
        · simpa only [declared] using h
        · simp only [declared] at h ⊢
          by_cases data : d.dataClass = true
          · rw [if_pos data] at h ⊢
            -- The one place where a rejected class is asked for: the codec is refused for it.
            by_cases rejected : old.contains name = true
            · rw [if_pos rejected] at h
              cases h
            · have there : ¬ new.contains name = true := fun again =>
                kept d (Bool.eq_false_iff.mpr enum) box (fun same => sparse (beq_iff_eq.mpr same))
                  declared data (fun before => rejected (List.contains_iff_mem.mpr before))
                  (List.contains_iff_mem.mp again)
              rw [if_neg rejected] at h
              rwa [if_neg there]
          · rwa [if_neg data] at h ⊢
    · simpa only [box] using h

/-- A structural rule that applies still applies when fewer classes are rejected. -/
theorem structural_rejecting (fewer : names ⊆ b.rejected) {name : String} {args : List JavaType}
    {rule : Rule} (h : b.structural name args = .ok rule) :
    (b.rejecting names).structural name args = .ok rule :=
  structural_of_kept b.rejected names h fun _ _ _ _ _ _ kept again => kept (fewer again)

/-- So does a rule for any shape of type. -/
theorem shape_rejecting (fewer : names ⊆ b.rejected) {ty : JavaType} {rule : Rule}
    (h : b.shape ty = .ok rule) : (b.rejecting names).shape ty = .ok rule := by
  cases ty with
  | primitive p => exact h
  | array component => exact h
  | declared name args => exact structural_rejecting fewer h

/-- The rule of a type stays when fewer classes are rejected. -/
theorem classify_rejecting (fewer : names ⊆ b.rejected) {ty : JavaType} {rule : Rule}
    (h : b.classify ty = .ok rule) : (b.rejecting names).classify ty = .ok rule := by
  unfold classify at h ⊢
  simp only [show (b.rejecting names).registry = b.registry from rfl,
    show (b.rejecting names).tieBreak = b.tieBreak from rfl] at h ⊢
  split at h
  · next found => simpa only [found] using h
  · next none => simpa only [none] using shape_rejecting fewer h

/-- With more rejected classes a type falls under the same rule or is refused. -/
theorem classify_rejecting_or (more : b.rejected ⊆ names) (ty : JavaType) :
    (b.rejecting names).classify ty = b.classify ty
      ∨ ∃ u, (b.rejecting names).classify ty = .error u := by
  rcases h : (b.rejecting names).classify ty with u | rule
  · exact .inr ⟨u, rfl⟩
  · exact .inl (classify_rejecting (b := b.rejecting names) more h).symm

/-! ## §2. Searches that come to an end. -/

/-- Searches in a row give the same as others, or refuse a type, where each of them does. -/
theorem mapM_eq_or {f g : JavaType → Except Obstacle Codec}
    (each : ∀ ty, g ty = f ty ∨ ∃ u, g ty = .error (.unresolved u)) : ∀ tys : List JavaType,
    tys.mapM g = tys.mapM f ∨ ∃ u, tys.mapM g = .error (.unresolved u)
  | [] => .inl rfl
  | ty :: rest => by
    rcases hg : g ty with (u | ty') | c
    · exact .inr ⟨u, mapM_cons_of_error hg rest⟩
    · have hf : f ty = .error (.unbounded ty') := by
        rcases each ty with same | ⟨u, refused⟩
        · exact same.symm.trans hg
        · rw [hg] at refused
          cases refused
      exact .inl ((mapM_cons_of_error hg rest).trans (mapM_cons_of_error hf rest).symm)
    · have hf : f ty = .ok c := by
        rcases each ty with same | ⟨u, refused⟩
        · exact same.symm.trans hg
        · rw [hg] at refused
          cases refused
      rw [mapM_cons_of_ok hg, mapM_cons_of_ok hf]
      rcases mapM_eq_or each rest with same | ⟨u, refused⟩
      · exact .inl (congrArg _ same)
      · exact .inr ⟨u, congrArg (List.cons c <$> ·) refused⟩

/-- With more rejected classes a search gives the same or refuses a type. -/
theorem buildBelow_rejecting_or (more : b.rejected ⊆ names) (depth : Nat)
    (above : List (Nat × JavaType)) (ty : JavaType) :
    (b.rejecting names).buildBelow depth above ty = b.buildBelow depth above ty
      ∨ ∃ u, (b.rejecting names).buildBelow depth above ty = .error (.unresolved u) := by
  induction depth generalizing above ty with
  | zero => exact .inl rfl
  | succ depth ih =>
    rw [buildBelow, buildBelow]
    by_cases again : above.contains ty.weighed = true
    · rw [if_pos again, if_pos again]
      exact .inl rfl
    · rw [if_neg again, if_neg again]
      rcases classify_rejecting_or more ty with same | ⟨u, refused⟩
      · rw [same]
        cases b.classify ty with
        | error u => exact .inl rfl
        | ok rule =>
          simp only
          rw [compose_eq, compose_eq]
          rcases mapM_eq_or (ih (ty.weighed :: above)) rule.parts with same | ⟨u, refused⟩
          · exact .inl (congrArg _ same)
          · exact .inr ⟨u, congrArg (assemble ty rule <$> ·) refused⟩
      · rw [refused]
        exact .inr ⟨u, rfl⟩

/-- A search that comes to an end does so when more classes are rejected. -/
theorem finished_rejecting (more : b.rejected ⊆ names) {ty : JavaType}
    (ended : Finished (b.build ty)) : Finished ((b.rejecting names).build ty) := by
  unfold build at ended ⊢
  have depth : (b.rejecting names).depthFor ty = b.depthFor ty := rfl
  rw [depth]
  rcases buildBelow_rejecting_or more (b.depthFor ty) [] ty with same | ⟨u, refused⟩
  · rwa [same]
  · rw [refused]
    exact finished_unresolved u

end Codebook

/-! ## §3. Codecs. -/

namespace Shelf

open Step (bind_eq_ok)

/-- What one way of finding codecs succeeds in, another one does in the same way. -/
def Follows (part part' : JavaType → Step Shelf Obstacle Codec) : Prop :=
  ∀ ty s c s', part ty s = (.ok c, s') → part' ty s = (.ok c, s')

variable {part part' : JavaType → Step Shelf Obstacle Codec}

/-- Dependencies that are built are built alike by whatever follows. -/
theorem dependencies_follows (h : Follows part part') (bound : Bindings) :
    ∀ (ps : List DependencyPattern) {s : Shelf} {ds s'},
      Codebook.dependencies part bound ps s = (.ok ds, s') →
      Codebook.dependencies part' bound ps s = (.ok ds, s')
  | [], _, _, _, done => done
  | .adapter p :: rest, s, ds, s', done => by
    unfold Codebook.dependencies at done ⊢
    obtain ⟨c, between, hc, done⟩ := bind_eq_ok done
    obtain ⟨others, last, ho, done⟩ := bind_eq_ok done
    rw [Step.bind_ok (h _ _ _ _ hc), Step.bind_ok (dependencies_follows h bound rest ho)]
    exact done
  | .token p :: rest, s, ds, s', done => by
    unfold Codebook.dependencies at done ⊢
    obtain ⟨others, last, ho, done⟩ := bind_eq_ok done
    rw [Step.bind_ok (dependencies_follows h bound rest ho)]
    exact done

/-- So is a codec that is composed of its parts. -/
theorem compose_follows (h : Follows part part') {ty : JavaType} {rule : Rule} {s s' : Shelf}
    {c : Codec} (done : Codebook.compose part ty rule s = (.ok c, s')) :
    Codebook.compose part' ty rule s = (.ok c, s') := by
  cases rule with
  | leaf l => exact done
  | array component =>
    obtain ⟨e, between, he, done⟩ := bind_eq_ok done
    exact (Step.bind_ok (h _ _ _ _ he)).trans done
  | sequence kind box element =>
    obtain ⟨e, between, he, done⟩ := bind_eq_ok done
    exact (Step.bind_ok (h _ _ _ _ he)).trans done
  | map box key value =>
    obtain ⟨k, between, hk, done⟩ := bind_eq_ok done
    obtain ⟨v, last, hv, done⟩ := bind_eq_ok done
    exact (Step.bind_ok (h _ _ _ _ hk)).trans ((Step.bind_ok (h _ _ _ _ hv)).trans done)
  | sparseArray element =>
    obtain ⟨e, between, he, done⟩ := bind_eq_ok done
    exact (Step.bind_ok (h _ _ _ _ he)).trans done
  | adapter found =>
    obtain ⟨ds, between, hd, done⟩ := bind_eq_ok done
    exact (Step.bind_ok (dependencies_follows h _ _ hd)).trans done

/-- Building with fewer rejected classes follows building with more of them. -/
theorem buildBelow_follows (fewer : names ⊆ b.rejected) (depth : Nat)
    (above : List (Nat × JavaType)) :
    Follows (buildBelow b depth above) (buildBelow (b.rejecting names) depth above) := by
  induction depth generalizing above with
  | zero =>
    intro ty s c s' done
    cases done
  | succ depth ih =>
    intro ty s c s' done
    unfold buildBelow at done ⊢
    rw [Step.get_bind] at done ⊢
    rcases finished : s.get? ty with _ | c₀
    · simp only [finished] at done ⊢
      by_cases again : above.contains ty.weighed = true
      · rw [if_pos again] at done
        cases done
      · rw [if_neg again] at done ⊢
        rcases hr : b.classify ty with u | rule
        · simp only [hr] at done
          cases done
        · simp only [hr] at done
          simp only [Codebook.classify_rejecting fewer hr]
          obtain ⟨c', between, hc, done⟩ := bind_eq_ok done
          exact (Step.bind_ok (compose_follows (ih _) hc)).trans done
    · simpa only [finished] using done

/-- A codec stays what it is when fewer classes are rejected. -/
theorem buildAlone_rejecting (fewer : names ⊆ b.rejected) {ty : JavaType} {c : Codec}
    (h : buildAlone b ty = .ok c) : buildAlone (b.rejecting names) ty = .ok c := by
  unfold buildAlone build at h ⊢
  rcases hb : buildBelow b (b.depthFor ty) [] ty empty with ⟨result, s'⟩
  rw [hb] at h
  change result = .ok c at h
  subst h
  have same : (b.rejecting names).depthFor ty = b.depthFor ty := rfl
  rw [same, buildBelow_follows fewer _ _ _ _ _ _ hb]

end Shelf

/-! ## §4. Descriptors. -/

namespace DataClass

variable {d : TypeDecl}

/-- A property that is described stays described when fewer classes are rejected. -/
theorem property_rejecting (fewer : names ⊆ b.rejected) {m : Members} {write : WriteAccess}
    {f : TypedField} {p : Property} (h : property b m d write f = .ok p) :
    property (b.rejecting names) m d write f = .ok p := by
  unfold property at h ⊢
  rcases read : m.read? f.field f.type with _ | access
  · simp only [read] at h
    cases h
  · rcases built : Shelf.buildAlone b f.type with e | codec
    · simp only [read, built] at h
      cases h
    · simp only [read, built] at h
      simp only [Shelf.buildAlone_rejecting fewer built]
      exact h

/-- Where every property of a class is there, it is there when fewer classes are rejected. -/
theorem gather_rejecting (fewer : names ⊆ b.rejected) {m : Members}
    {fields matched : List TypedField}
    (complete : (gather (properties b m d fields matched)).2 = []) :
    gather (properties (b.rejecting names) m d fields matched)
      = gather (properties b m d fields matched) := by
  have all := eq_map_ok_of_gather complete
  suffices same : properties (b.rejecting names) m d fields matched
      = properties b m d fields matched by rw [same]
  rw [properties_eq_map, properties_eq_map] at *
  refine List.map_congr_left fun s hs => ?_
  have mem : property b m d s.1 s.2 ∈ (settings m fields matched).map
      fun s => property b m d s.1 s.2 := List.mem_map_of_mem hs
  rw [all] at mem
  obtain ⟨p, -, found⟩ := List.mem_map.mp mem
  rw [← found, property_rejecting fewer found.symm]

/-- A class that can be described stays describable, in the same way, when fewer classes are
rejected. -/
theorem describe_rejecting (fewer : names ⊆ b.rejected) {o : Options} {x : Descriptor}
    (h : describe b o d = .ok x) : describe (b.rejecting names) o d = .ok x := by
  unfold describe at h ⊢
  rw [Codebook.catalog_rejecting]
  dsimp only at h ⊢
  rcases all : largestFirst (visibleConstructors d) with _ | ⟨largest, smaller⟩
  · simpa only [all] using h
  · simp only [all] at h ⊢
    split at h
    · cases h
    · next matched found =>
      split at h
      · next none =>
        have complete := (List.append_eq_nil_iff.mp (List.isEmpty_iff.mp none)).2
        rw [gather_rejecting fewer complete, if_pos none]
        exact h
      · cases h

end DataClass

end ParcelCodec
